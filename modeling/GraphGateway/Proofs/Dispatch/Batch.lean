import GraphGateway.Server
import GraphGateway.Proofs.Except
import GraphGateway.Proofs.Evaluation.Reachable

/-!
# Batches

A batch is answered as if its events were handed in one by one: each event finds
the run that the events before it left, the first failure is the failure of the
batch, and the events after it leave no mark.
-/

namespace GraphGateway

namespace Dispatcher

variable {σ : Type}

/-- Payloads handed in one after another, what they are answered with, and the run that is left. -/
inductive Answers (d : Dispatcher σ) : Run σ → List Json → List Json → Run σ → Prop where
  | nil (r : Run σ) : d.Answers r [] [] r
  | cons {r middle last : Run σ} {payload answer : Json} {payloads answers : List Json} :
      d.handle payload r = (.ok answer, middle) → d.Answers middle payloads answers last →
        d.Answers r (payload :: payloads) (answer :: answers) last

theorem handle_event (d : Dispatcher σ) {event : Json} (h : event.asArray? = none) (r : Run σ) :
    d.handle event r = d.process event r := by
  cases event with
  | array items => cases h
  | _ => rfl

/-- The head of a batch decides whether the rest is looked at. -/
theorem processAll_cons (d : Dispatcher σ) (event : Json) (rest : List Json) (r : Run σ) :
    d.processAll (event :: rest) r =
      match d.process event r with
      | (.error e, next) => (.error e, next)
      | (.ok answer, next) =>
          ((d.processAll rest next).1.map (answer :: ·), (d.processAll rest next).2) :=
  rfl

theorem processAll_eq_ok_iff (d : Dispatcher σ) {events : List Json}
    (h : ∀ event ∈ events, event.asArray? = none) (r : Run σ) (answers : List Json)
    (last : Run σ) :
    d.processAll events r = (.ok answers, last) ↔ d.Answers r events answers last := by
  induction events generalizing r answers with
  | nil =>
      constructor
      · intro hdone
        cases hdone
        exact .nil _
      · intro hdone
        cases hdone
        rfl
  | cons event rest ih =>
      have hevent := d.handle_event (h event List.mem_cons_self) r
      have hrest := ih fun other hm => h other (List.mem_cons_of_mem event hm)
      rw [processAll_cons]
      constructor
      · intro hdone
        cases hprocess : d.process event r with
        | mk outcome next =>
            rw [hprocess] at hdone hevent
            cases outcome with
            | error e => cases hdone
            | ok answer =>
                obtain ⟨hanswers, rfl⟩ := Prod.mk.inj hdone
                obtain ⟨others, hothers, rfl⟩ := Except.map_eq_ok.mp hanswers
                exact .cons hevent ((hrest next others).mp (Prod.ext hothers rfl))
      · intro hdone
        cases hdone with
        | cons hanswer hothers =>
            rw [hevent] at hanswer
            rw [hanswer]
            simp only [(hrest _ _).mpr hothers]
            rfl

theorem processAll_eq_error_iff (d : Dispatcher σ) {events : List Json}
    (h : ∀ event ∈ events, event.asArray? = none) (r : Run σ) (e : DispatchError)
    (last : Run σ) :
    d.processAll events r = (.error e, last) ↔
      ∃ before failing later answers middle, events = before ++ failing :: later ∧
        d.Answers r before answers middle ∧ d.handle failing middle = (.error e, last) := by
  induction events generalizing r with
  | nil =>
      constructor
      · intro hdone
        cases hdone
      · intro hfound
        rcases hfound with ⟨before, failing, later, -, -, hsplit, -⟩
        simp at hsplit
  | cons event rest ih =>
      have hevent := d.handle_event (h event List.mem_cons_self) r
      have hrest := ih fun other hm => h other (List.mem_cons_of_mem event hm)
      rw [processAll_cons]
      constructor
      · intro hdone
        cases hprocess : d.process event r with
        | mk outcome next =>
            rw [hprocess] at hdone hevent
            cases outcome with
            | error err =>
                cases hdone
                exact ⟨[], event, rest, [], r, rfl, .nil r, hevent⟩
            | ok answer =>
                have hothers : d.processAll rest next = (.error e, last) := by
                  obtain ⟨hanswers, rfl⟩ := Prod.mk.inj hdone
                  exact Prod.ext (Except.map_eq_error.mp hanswers) rfl
                obtain ⟨before, failing, later, answers, middle, rfl, hbefore, hfailing⟩ :=
                  (hrest next).mp hothers
                exact ⟨event :: before, failing, later, answer :: answers, middle, rfl,
                  .cons hevent hbefore, hfailing⟩
      · intro hfound
        rcases hfound with ⟨before, failing, later, answers, middle, hsplit, hbefore, hfailing⟩
        cases hbefore with
        | nil =>
            obtain ⟨rfl, rfl⟩ := List.cons.inj hsplit
            rw [← hevent, hfailing]
        | @cons _ next _ _ answer before others hanswer hothers =>
            obtain ⟨rfl, rfl⟩ := List.cons.inj hsplit
            have hlater := (hrest next).mpr
              ⟨before, failing, later, others, middle, rfl, hothers, hfailing⟩
            rw [← hevent, hanswer]
            simp only [hlater]
            rfl

/-- A batch is the succession of its events, up to the first that fails. -/
theorem handle_array (d : Dispatcher σ) {events : List Json}
    (h : ∀ event ∈ events, event.asArray? = none) (r : Run σ) :
    (∀ answer last, d.handle (.array events) r = (.ok answer, last) ↔
      ∃ answers, answer = .array answers ∧ d.Answers r events answers last) ∧
      ∀ e last, d.handle (.array events) r = (.error e, last) ↔
        ∃ before failing later answers middle, events = before ++ failing :: later ∧
          d.Answers r before answers middle ∧ d.handle failing middle = (.error e, last) := by
  have hhandle : d.handle (.array events) r =
      ((d.processAll events r).1.map .array, (d.processAll events r).2) := rfl
  constructor
  · intro answer last
    rw [hhandle]
    constructor
    · intro hdone
      obtain ⟨hanswer, rfl⟩ := Prod.mk.inj hdone
      obtain ⟨answers, hanswers, rfl⟩ := Except.map_eq_ok.mp hanswer
      exact ⟨answers, rfl, (d.processAll_eq_ok_iff h r answers _).mp (Prod.ext hanswers rfl)⟩
    · intro hfound
      rcases hfound with ⟨answers, rfl, hanswers⟩
      rw [(d.processAll_eq_ok_iff h r answers last).mpr hanswers]
      rfl
  · intro e last
    rw [hhandle, ← d.processAll_eq_error_iff h r e last]
    constructor
    · intro hdone
      obtain ⟨hanswer, rfl⟩ := Prod.mk.inj hdone
      exact Prod.ext (Except.map_eq_error.mp hanswer) rfl
    · intro hdone
      rw [hdone]
      rfl

def eventFor (typeName fieldName : String) (arguments : List (String × Json)) : Json :=
  .ofFields
    [("type_name", .string typeName), ("field_name", .string fieldName),
      ("arguments", .ofFields arguments)]

def creation (name : String) : Json :=
  eventFor "Mutation" "createUser" [("name", .string name)]

/-- The answer to the creation of a third user, and the run that it leaves. -/
def thirdUser : Except DispatchError Json × Run Store :=
  (Server.dispatcher 8 true).handle (creation "Eve") ⟨Store.follower, []⟩

/-- What was created before the malformed event stays, what was to be created after it is not. -/
theorem handle_array_aborted :
    (∀ event ∈ [creation "Eve", .null, creation "Max"], event.asArray? = none) ∧
      ∃ last,
        (Server.dispatcher 8 true).handle (.array [creation "Eve", .null, creation "Max"])
            ⟨Store.follower, []⟩ =
          (.error (.invalidPayload (.payload (.shape (.mismatch .null Invocation.eventShape)))),
            last) ∧
        last.world.graph.vertexCount = 3 := by
  have hevents : ∀ event ∈ [creation "Eve", .null, creation "Max"], event.asArray? = none := by
    simp only [List.forall_mem_cons, List.not_mem_nil, false_implies, implies_true, and_true]
    exact ⟨rfl, rfl, rfl⟩
  have hok : thirdUser.1.isOk = true := by decide +kernel
  have hcount : thirdUser.2.world.graph.vertexCount = 3 := by decide +kernel
  cases hcreated : thirdUser with
  | mk outcome middle =>
      rw [hcreated] at hok hcount
      cases outcome with
      | error e => cases hok
      | ok answer =>
          have habort := ((Server.dispatcher 8 true).handle_array hevents ⟨Store.follower, []⟩).2
          refine ⟨hevents, middle, (habort _ middle).mpr ?_, hcount⟩
          exact ⟨[creation "Eve"], .null, [creation "Max"], [answer], middle, rfl,
            .cons hcreated (.nil middle), rfl⟩

end Dispatcher

end GraphGateway
