import GraphGateway.Proofs.Dispatch.Batch
import GraphGateway.Proofs.Resolver.Submissions

/-!
# Connections and observations

What handling a payload adds to the trace, event by event. A connection is asked
for exactly when an event can be read and its field has a resolver, opens exactly
if the provider grants it then, and is closed before the next event begins. An
observer is shown the input of every invocation whose connection opens, followed
by its result if there is one.
-/

namespace GraphGateway

namespace Occurrence

def isRequested : Occurrence → Bool
  | requested => true
  | _ => false

def isShown : Occurrence → Bool
  | input _ => true
  | result .. => true
  | _ => false

end Occurrence

/-! ## Balanced traces -/

def opens (trace : List Occurrence) : Nat :=
  trace.countP Occurrence.isOpened

def closes (trace : List Occurrence) : Nat :=
  trace.countP Occurrence.isClosed

/-- At any time at most one connection is open, and none is left open at the end. -/
structure Balanced (trace : List Occurrence) : Prop where
  one_open : ∀ n, closes (trace.take n) ≤ opens (trace.take n) ∧
    opens (trace.take n) ≤ closes (trace.take n) + 1
  all_closed : closes trace = opens trace

/-- Occurrences that open and close nothing. -/
def Neutral (trace : List Occurrence) : Prop :=
  ∀ o ∈ trace, o.isOpened = false ∧ o.isClosed = false

theorem opens_cons (o : Occurrence) (rest : List Occurrence) :
    opens (o :: rest) = opens rest + if o.isOpened then 1 else 0 :=
  List.countP_cons

theorem closes_cons (o : Occurrence) (rest : List Occurrence) :
    closes (o :: rest) = closes rest + if o.isClosed then 1 else 0 :=
  List.countP_cons

theorem opens_append (first second : List Occurrence) :
    opens (first ++ second) = opens first + opens second :=
  List.countP_append

theorem closes_append (first second : List Occurrence) :
    closes (first ++ second) = closes first + closes second :=
  List.countP_append

namespace Neutral

theorem nil : Neutral [] :=
  fun o hm => by cases hm

theorem singleton {o : Occurrence} (h : o.isOpened = false ∧ o.isClosed = false) :
    Neutral [o] := by
  intro other hm
  rw [List.mem_singleton.mp hm]
  exact h

variable {trace : List Occurrence}

theorem opens_eq_zero (h : Neutral trace) : opens trace = 0 :=
  List.countP_eq_zero.mpr fun o hm => by simp [(h o hm).1]

theorem closes_eq_zero (h : Neutral trace) : closes trace = 0 :=
  List.countP_eq_zero.mpr fun o hm => by simp [(h o hm).2]

theorem take (h : Neutral trace) (n : Nat) : Neutral (trace.take n) :=
  fun o hm => h o (List.mem_of_mem_take hm)

theorem append {more : List Occurrence} (h : Neutral trace) (hmore : Neutral more) :
    Neutral (trace ++ more) := by
  intro o hm
  rcases List.mem_append.mp hm with hm | hm
  · exact h o hm
  · exact hmore o hm

end Neutral

namespace Balanced

theorem of_neutral {trace : List Occurrence} (h : Neutral trace) : Balanced trace := by
  refine ⟨fun n => ?_, by rw [h.opens_eq_zero, h.closes_eq_zero]⟩
  rw [(h.take n).opens_eq_zero, (h.take n).closes_eq_zero]
  omega

theorem append {first second : List Occurrence} (hf : Balanced first) (hs : Balanced second) :
    Balanced (first ++ second) := by
  refine ⟨fun n => ?_, ?_⟩
  · rw [List.take_append, opens_append, closes_append]
    have hfirst := hf.one_open n
    have hsecond := hs.one_open (n - first.length)
    rcases Nat.lt_or_ge n first.length with hlt | hge
    · -- nothing of the second trace has happened yet
      have hnone : n - first.length = 0 := by omega
      have hopens : opens (second.take 0) = 0 := rfl
      have hcloses : closes (second.take 0) = 0 := rfl
      rw [hnone, hopens, hcloses]
      omega
    · have hall := hf.all_closed
      rw [List.take_of_length_le hge] at hfirst ⊢
      omega
  · rw [opens_append, closes_append, hf.all_closed, hs.all_closed]

theorem flatMap {α : Type} {f : α → List Occurrence} {items : List α}
    (h : ∀ a ∈ items, Balanced (f a)) : Balanced (items.flatMap f) := by
  induction items with
  | nil => exact of_neutral .nil
  | cons a rest ih =>
      rw [List.flatMap_cons]
      exact (h a List.mem_cons_self).append (ih fun b hb => h b (List.mem_cons_of_mem a hb))

/-- A connection that is opened, used and closed. -/
theorem bracket {trace : List Occurrence} (h : Neutral trace) :
    Balanced (.opened :: (trace ++ [.closed])) := by
  have hopened : Occurrence.opened.isOpened = true ∧ Occurrence.opened.isClosed = false :=
    ⟨rfl, rfl⟩
  have hclosed : Occurrence.closed.isOpened = false ∧ Occurrence.closed.isClosed = true :=
    ⟨rfl, rfl⟩
  have hnil : opens [] = 0 ∧ closes [] = 0 := ⟨rfl, rfl⟩
  -- a prefix has opened the connection as soon as it is not empty, and closed it only at the end
  refine ⟨fun n => ?_, ?_⟩
  · cases n with
    | zero => exact ⟨Nat.le_refl 0, Nat.zero_le _⟩
    | succ n =>
        have hend : opens ([.closed].take (n - trace.length)) = 0 ∧
            closes ([.closed].take (n - trace.length)) ≤ 1 := by
          cases n - trace.length with
          | zero => simp [hnil]
          | succ k => simp [opens_cons, closes_cons, hclosed, hnil]
        rw [List.take_succ_cons, opens_cons, closes_cons, List.take_append, opens_append,
          closes_append, (h.take n).opens_eq_zero, (h.take n).closes_eq_zero]
        simp only [hopened, if_true, Bool.false_eq_true, if_false]
        omega
  · simp only [opens_cons, closes_cons, opens_append, closes_append, h.opens_eq_zero,
      h.closes_eq_zero, hopened, hclosed, hnil, if_true, Bool.false_eq_true, if_false]

end Balanced

namespace Dispatcher

variable {σ : Type}

/-! ## Conversations -/

/-- Whether an event can be read and asks for a field that has a resolver. -/
def admits (d : Dispatcher σ) (event : Json) : Bool :=
  match Invocation.ofEvent event with
  | .ok i => d.registry.contains i.key
  | .error _ => false

/-- What the observer is shown of some occurrences: all of them, if there is one. -/
def shown (d : Dispatcher σ) (occurrences : List Occurrence) : List Occurrence :=
  if d.observed then occurrences else []

def resultOf {ε : Type} (i : Invocation) : Except ε Json → List Occurrence
  | .ok answer => [.result i.key answer]
  | .error _ => []

/-- What happens while the connection of an invocation is open. -/
def exchange (d : Dispatcher σ) (i : Invocation) (ts : List Traversal)
    (outcome : Except ResolverError Json) : List Occurrence :=
  d.shown [.input i] ++ ts.map .submitted ++ d.shown (resultOf i outcome)

/-- What an invocation adds to the trace when its connection opens. -/
def conversation (d : Dispatcher σ) (i : Invocation) (ts : List Traversal)
    (outcome : Except ResolverError Json) : List Occurrence :=
  .requested :: .opened :: (d.exchange i ts outcome ++ [.closed])

theorem observe_eq (d : Dispatcher σ) (o : Occurrence) (r : Run σ) :
    d.observe o r = ⟨r.world, r.trace ++ d.shown [o]⟩ := by
  unfold observe shown
  split <;> simp [Run.note]

theorem shown_neutral (d : Dispatcher σ) {occurrences : List Occurrence}
    (h : Neutral occurrences) : Neutral (d.shown occurrences) := by
  unfold shown
  split
  · exact h
  · exact .nil

theorem submitted_neutral (ts : List Traversal) : Neutral (ts.map .submitted) := by
  intro o hm
  obtain ⟨t, -, rfl⟩ := List.mem_map.mp hm
  exact ⟨rfl, rfl⟩

section Exchange

variable (d : Dispatcher σ) (i : Invocation) (ts : List Traversal)
  (outcome : Except ResolverError Json)

theorem exchange_neutral : Neutral (d.exchange i ts outcome) := by
  have hinput : Neutral [.input i] := .singleton ⟨rfl, rfl⟩
  have hresult : Neutral (resultOf i outcome) := by
    cases outcome with
    | error e => exact .nil
    | ok answer => exact .singleton ⟨rfl, rfl⟩
  exact ((d.shown_neutral hinput).append (submitted_neutral ts)).append (d.shown_neutral hresult)

theorem conversation_opens : opens (d.conversation i ts outcome) = 1 := by
  have hclosed : opens [.closed] = 0 := rfl
  unfold conversation
  rw [opens_cons, opens_cons, opens_append, (d.exchange_neutral i ts outcome).opens_eq_zero,
    hclosed]
  rfl

theorem conversation_balanced : Balanced (d.conversation i ts outcome) := by
  have hrequested : Neutral [.requested] := .singleton ⟨rfl, rfl⟩
  exact (Balanced.of_neutral hrequested).append (.bracket (d.exchange_neutral i ts outcome))

theorem conversation_requested :
    (d.conversation i ts outcome).countP Occurrence.isRequested = 1 := by
  have hsubmitted : (ts.map Occurrence.submitted).countP Occurrence.isRequested = 0 := by
    simp [Occurrence.isRequested, List.countP_eq_zero]
  unfold conversation exchange shown
  cases outcome <;> split <;> simp [resultOf, Occurrence.isRequested, List.countP_cons, hsubmitted]

theorem conversation_shown :
    (d.conversation i ts outcome).filter Occurrence.isShown =
      d.shown (.input i :: resultOf i outcome) := by
  have hsubmitted : (ts.map Occurrence.submitted).filter Occurrence.isShown = [] := by
    simp [Occurrence.isShown]
  unfold conversation exchange shown
  cases outcome <;> split <;> simp [resultOf, Occurrence.isShown, List.filter_cons, hsubmitted]

theorem conversation_submissions :
    (d.conversation i ts outcome).filterMap Occurrence.submitted? = ts := by
  have hsubmitted : (ts.map Occurrence.submitted).filterMap Occurrence.submitted? = ts := by
    rw [List.filterMap_map]
    exact List.filterMap_some
  unfold conversation exchange shown
  cases outcome <;> split <;>
    simp [resultOf, Occurrence.submitted?, List.filterMap_cons, hsubmitted]

end Exchange

/-! ## One event -/

/-- The run on which a resolver begins: the provider has opened its connection, the observer was
shown the input, and the provider has drawn an identifier. -/
def begun (d : Dispatcher σ) (i : Invocation) (r : Run σ) : Run σ :=
  ⟨(d.provider.fresh (d.provider.connect r.world).2).2,
    r.trace ++ .requested :: .opened :: d.shown [.input i]⟩

/-- The resolver at work on a connection, with the identifier that was drawn for it. -/
def work (d : Dispatcher σ) (resolver : Resolver) (c : Connection σ) (i : Invocation)
    (r : Run σ) : Except ResolverError Json × Run σ :=
  (resolver i (d.provider.fresh (d.provider.connect r.world).2).1).carryOut c (d.begun i r)

theorem answer_eq (d : Dispatcher σ) (resolver : Resolver) (c : Connection σ) (i : Invocation)
    (r : Run σ) :
    d.answer resolver c i ⟨(d.provider.connect r.world).2, r.trace ++ [.requested]⟩ =
      ((d.work resolver c i r).1.mapError (.resolver i.key),
        ⟨(d.work resolver c i r).2.world,
          (d.work resolver c i r).2.trace ++
            (d.shown (resultOf i (d.work resolver c i r).1) ++ [.closed])⟩) := by
  have hbegun : d.begun i r = ⟨(d.provider.fresh (d.provider.connect r.world).2).2,
      r.trace ++ [.requested] ++ [.opened] ++ d.shown [.input i]⟩ := by
    simp [begun]
  unfold work answer
  rw [hbegun]
  simp only [observe_eq, Run.note]
  cases (resolver i (d.provider.fresh (d.provider.connect r.world).2).1).carryOut c
    ⟨(d.provider.fresh (d.provider.connect r.world).2).2,
      r.trace ++ [.requested] ++ [.opened] ++ d.shown [.input i]⟩ with
  | mk outcome finish =>
      cases outcome with
      | error e => simp [resultOf, shown, Except.mapError]
      | ok json => simp [resultOf, Except.mapError]

section Connected

variable {d : Dispatcher σ} {event : Json} {i : Invocation} {resolver : Resolver}
  {c : Connection σ} {r : Run σ}

theorem process_unconnected (hevent : Invocation.ofEvent event = .ok i)
    (hget : d.registry.get? i.key = some resolver) {e : GraphError}
    (hconnect : (d.provider.connect r.world).1 = .error e) :
    d.process event r = (.error (.connection e),
      ⟨(d.provider.connect r.world).2, r.trace ++ [.requested]⟩) := by
  have hpair : d.provider.connect r.world = (.error e, (d.provider.connect r.world).2) :=
    Prod.ext hconnect rfl
  simp only [process, hevent, dispatch, hget, Run.note]
  rw [hpair]

/-- An event whose connection opens comes to what its resolver makes of it. -/
theorem process_connected (hevent : Invocation.ofEvent event = .ok i)
    (hget : d.registry.get? i.key = some resolver)
    (hconnect : (d.provider.connect r.world).1 = .ok c) :
    d.process event r =
      ((d.work resolver c i r).1.mapError (.resolver i.key),
        ⟨(d.work resolver c i r).2.world,
          (d.work resolver c i r).2.trace ++
            (d.shown (resultOf i (d.work resolver c i r).1) ++ [.closed])⟩) := by
  have hpair : d.provider.connect r.world = (.ok c, (d.provider.connect r.world).2) :=
    Prod.ext hconnect rfl
  rw [← answer_eq]
  simp only [process, hevent, dispatch, hget, Run.note]
  rw [hpair]

end Connected

/-- How an event comes to its outcome, and what is added to the trace meanwhile. -/
inductive Handles (d : Dispatcher σ) (r : Run σ) :
    Json → Except DispatchError Json → List Occurrence → Prop where
  | invalid {event : Json} {e : ArgumentError} :
      Invocation.ofEvent event = .error e → d.Handles r event (.error (.invalidPayload e)) []
  | unregistered {event : Json} {i : Invocation} :
      Invocation.ofEvent event = .ok i → d.registry.get? i.key = none →
        d.Handles r event (.error (.unregistered i.key)) []
  | refused {event : Json} {i : Invocation} {resolver : Resolver} {e : GraphError} :
      Invocation.ofEvent event = .ok i → d.registry.get? i.key = some resolver →
        (d.provider.connect r.world).1 = .error e →
        d.Handles r event (.error (.connection e)) [.requested]
  | resolved {event : Json} {i : Invocation} {resolver : Resolver} {c : Connection σ}
      {ts : List Traversal} :
      Invocation.ofEvent event = .ok i → d.registry.get? i.key = some resolver →
        (d.provider.connect r.world).1 = .ok c →
        (d.work resolver c i r).2.trace = (d.begun i r).trace ++ ts.map .submitted →
        d.Handles r event ((d.work resolver c i r).1.mapError (.resolver i.key))
          (d.conversation i ts (d.work resolver c i r).1)

theorem process_handles (d : Dispatcher σ) (event : Json) (r : Run σ) :
    ∃ occurrences, (d.process event r).2.trace = r.trace ++ occurrences ∧
      d.Handles r event (d.process event r).1 occurrences := by
  cases hevent : Invocation.ofEvent event with
  | error e =>
      have hprocess : d.process event r = (.error (.invalidPayload e), r) := by
        simp only [process, hevent]
      rw [hprocess]
      exact ⟨[], (List.append_nil _).symm, .invalid hevent⟩
  | ok i =>
      cases hget : d.registry.get? i.key with
      | none =>
          have hprocess : d.process event r = (.error (.unregistered i.key), r) := by
            simp only [process, hevent, dispatch, hget]
          rw [hprocess]
          exact ⟨[], (List.append_nil _).symm, .unregistered hevent hget⟩
      | some resolver =>
          cases hconnect : (d.provider.connect r.world).1 with
          | error e =>
              rw [process_unconnected hevent hget hconnect]
              exact ⟨[.requested], rfl, .refused hevent hget hconnect⟩
          | ok c =>
              obtain ⟨ts, hts⟩ := Session.carryOut_trace c
                (resolver i (d.provider.fresh (d.provider.connect r.world).2).1) (d.begun i r)
              rw [process_connected hevent hget hconnect]
              refine ⟨_, ?_, .resolved hevent hget hconnect hts⟩
              rw [work, hts]
              simp [begun, conversation, exchange]

/-! ## Episodes -/

/-- An event, what it was answered with, and what was added to the trace meanwhile. -/
structure Episode where
  event : Json
  outcome : Except DispatchError Json
  occurrences : List Occurrence

def Episode.submissions (ep : Episode) : List Traversal :=
  ep.occurrences.filterMap Occurrence.submitted?

def episode (d : Dispatcher σ) (event : Json) (r : Run σ) : Episode :=
  ⟨event, (d.process event r).1, (d.process event r).2.trace.drop r.trace.length⟩

/-- The episodes of some events, up to and including the first that fails. -/
def episodes (d : Dispatcher σ) : List Json → Run σ → List Episode
  | [], _ => []
  | event :: rest, r =>
      match d.process event r with
      | (.error _, _) => [d.episode event r]
      | (.ok _, next) => d.episode event r :: d.episodes rest next

/-- The events that are executed, each with the run on which it begins. -/
def executed (d : Dispatcher σ) : List Json → Run σ → List (Json × Run σ)
  | [], _ => []
  | event :: rest, r =>
      match d.process event r with
      | (.error _, _) => [(event, r)]
      | (.ok _, next) => (event, r) :: d.executed rest next

def eventsOf : Json → List Json
  | .array events => events
  | event => [event]

/-- What the trace of an episode that begins on a run tells about the provider's connection, the
traversals and the observer. -/
structure Accounts (d : Dispatcher σ) (r : Run σ) (ep : Episode) : Prop where
  requested : ep.occurrences.countP Occurrence.isRequested = if d.admits ep.event then 1 else 0
  opened : opens ep.occurrences =
    if d.admits ep.event && (d.provider.connect r.world).1.isOk then 1 else 0
  balanced : Balanced ep.occurrences
  unopened : opens ep.occurrences = 0 →
    ep.occurrences.filter Occurrence.isShown = [] ∧ ep.submissions = [] ∧
      ∃ e, ep.outcome = .error e
  refused : d.admits ep.event = true → ∀ e, (d.provider.connect r.world).1 = .error e →
    ep.outcome = .error (.connection e)
  resolved : opens ep.occurrences ≠ 0 →
    ∃ (i : Invocation) (resolver : Resolver) (c : Connection σ),
      Invocation.ofEvent ep.event = .ok i ∧ d.registry.get? i.key = some resolver ∧
      (d.provider.connect r.world).1 = .ok c ∧
      (d.work resolver c i r).2.trace = (d.begun i r).trace ++ ep.submissions.map .submitted ∧
      ep.outcome = (d.work resolver c i r).1.mapError (.resolver i.key) ∧
      ep.occurrences = d.conversation i ep.submissions (d.work resolver c i r).1 ∧
      ep.occurrences.filter Occurrence.isShown =
        d.shown (.input i :: resultOf i (d.work resolver c i r).1)

theorem admits_invalid (d : Dispatcher σ) {event : Json} {e : ArgumentError}
    (hevent : Invocation.ofEvent event = .error e) : d.admits event = false := by
  simp [admits, hevent]

theorem admits_ok (d : Dispatcher σ) {event : Json} {i : Invocation}
    (hevent : Invocation.ofEvent event = .ok i) :
    d.admits event = (d.registry.get? i.key).isSome := by
  simp only [admits, hevent]
  rfl

theorem admits_registered (d : Dispatcher σ) {event : Json} {i : Invocation}
    {resolver : Resolver} (hevent : Invocation.ofEvent event = .ok i)
    (hget : d.registry.get? i.key = some resolver) : d.admits event = true := by
  rw [d.admits_ok hevent, hget]
  rfl

/-- An event that is not admitted leaves nothing to account for. -/
theorem Accounts.of_excluded {d : Dispatcher σ} {event : Json} (h : d.admits event = false)
    (r : Run σ) (e : DispatchError) : d.Accounts r ⟨event, .error e, []⟩ where
  requested := by simp [h]
  opened := by simp [h, opens]
  balanced := .of_neutral .nil
  unopened _ := ⟨rfl, rfl, _, rfl⟩
  refused hadmits := by
    rw [h] at hadmits
    cases hadmits
  resolved hopen := absurd rfl hopen

theorem Handles.accounts {d : Dispatcher σ} {r : Run σ} {event : Json}
    {outcome : Except DispatchError Json} {occurrences : List Occurrence}
    (h : d.Handles r event outcome occurrences) :
    d.Accounts r ⟨event, outcome, occurrences⟩ := by
  cases h with
  | invalid hevent => exact .of_excluded (d.admits_invalid hevent) r _
  | unregistered hevent hget =>
      exact .of_excluded (by rw [d.admits_ok hevent, hget]; rfl) r _
  | refused hevent hget hconnect =>
      have hadmits := d.admits_registered hevent hget
      have hneutral : Neutral [.requested] := .singleton ⟨rfl, rfl⟩
      refine ⟨by rw [hadmits]; rfl, ?_, .of_neutral hneutral, fun _ => ⟨rfl, rfl, _, rfl⟩, ?_,
        fun hopen => absurd hneutral.opens_eq_zero hopen⟩
      · rw [hneutral.opens_eq_zero, hconnect]
        simp [Except.isOk, Except.toBool]
      · intro _ e he
        rw [hconnect] at he
        cases he
        rfl
  | @resolved i resolver c ts hevent hget hconnect htrace =>
      obtain ⟨outcome, houtcome⟩ : ∃ outcome, (d.work resolver c i r).1 = outcome := ⟨_, rfl⟩
      have hadmits := d.admits_registered hevent hget
      have hopens := d.conversation_opens i ts outcome
      have hsubmissions := d.conversation_submissions i ts outcome
      rw [houtcome]
      refine ⟨?_, ?_, d.conversation_balanced i ts outcome, ?_, ?_, fun _ => ?_⟩
      · rw [hadmits]
        exact d.conversation_requested i ts outcome
      · rw [hopens, hadmits, hconnect]
        rfl
      · intro hunopened
        rw [hopens] at hunopened
        cases hunopened
      · intro _ e he
        rw [hconnect] at he
        cases he
      · refine ⟨i, resolver, c, hevent, hget, hconnect, ?_, by rw [houtcome], ?_, ?_⟩
        · rw [Episode.submissions, hsubmissions]
          exact htrace
        · rw [houtcome, Episode.submissions, hsubmissions]
        · rw [houtcome]
          exact d.conversation_shown i ts outcome

theorem episode_accounts (d : Dispatcher σ) (event : Json) (r : Run σ) :
    (d.process event r).2.trace = r.trace ++ (d.episode event r).occurrences ∧
      d.Accounts r (d.episode event r) := by
  obtain ⟨occurrences, htrace, hhandles⟩ := d.process_handles event r
  have hepisode : d.episode event r = ⟨event, (d.process event r).1, occurrences⟩ := by
    simp [episode, htrace]
  rw [hepisode]
  exact ⟨htrace, hhandles.accounts⟩

theorem episodes_eq (d : Dispatcher σ) (events : List Json) (r : Run σ) :
    d.episodes events r = (d.executed events r).map fun turn => d.episode turn.1 turn.2 := by
  induction events generalizing r with
  | nil => rfl
  | cons event rest ih =>
      rw [episodes, executed]
      cases d.process event r with
      | mk outcome next =>
          cases outcome with
          | error e => rfl
          | ok answer => simp [ih]

theorem episodes_trace (d : Dispatcher σ) (events : List Json) (r : Run σ) :
    (d.processAll events r).2.trace =
      r.trace ++ (d.episodes events r).flatMap Episode.occurrences := by
  induction events generalizing r with
  | nil => exact (List.append_nil _).symm
  | cons event rest ih =>
      obtain ⟨htrace, -⟩ := d.episode_accounts event r
      cases hprocess : d.process event r with
      | mk outcome next =>
          rw [hprocess] at htrace
          cases outcome with
          | error e =>
              simp only [processAll, episodes, hprocess, List.flatMap_cons, List.flatMap_nil,
                List.append_nil]
              exact htrace
          | ok answer =>
              simp only [processAll, episodes, hprocess, List.flatMap_cons]
              rw [ih next, htrace, List.append_assoc]

theorem handle_run (d : Dispatcher σ) (payload : Json) (r : Run σ) :
    (d.handle payload r).2 = (d.processAll (eventsOf payload) r).2 := by
  cases payload with
  | array events => rfl
  | _ =>
      simp only [handle, eventsOf, processAll]
      cases d.process _ r with
      | mk outcome next => cases outcome <;> rfl

/-- Payloads leave no connection open, whatever becomes of their events, and every event that is
executed accounts for the connection that the provider gave it, if any, on the run it began with. -/
theorem handle_accounts (d : Dispatcher σ) (payload : Json) (r : Run σ) :
    (d.handle payload r).2.trace =
        r.trace ++ (d.episodes (eventsOf payload) r).flatMap Episode.occurrences ∧
      Balanced ((d.episodes (eventsOf payload) r).flatMap Episode.occurrences) ∧
      d.episodes (eventsOf payload) r =
        (d.executed (eventsOf payload) r).map (fun turn => d.episode turn.1 turn.2) ∧
      (∀ turn ∈ d.executed (eventsOf payload) r,
        d.Accounts turn.2 (d.episode turn.1 turn.2)) ∧
      ∀ (p : Pipeline) (i : Invocation) (fresh : ElementId) (c : Connection σ) (start : Run σ),
        ∃ ts : List Traversal,
          ((p.resolve i fresh).carryOut c start).2.trace =
            start.trace ++ ts.map .submitted ∧
          ts.length ≤ 1 ∧ (∀ e, p.base i fresh = .error e → ts = []) ∧
          ∀ e, ((p.resolve i fresh).carryOut c start).1 = .error e → e.isRejection = true →
            ts = [] := by
  have hbalanced : ∀ ep ∈ d.episodes (eventsOf payload) r, Balanced ep.occurrences := by
    intro ep hm
    rw [d.episodes_eq] at hm
    obtain ⟨turn, -, rfl⟩ := List.mem_map.mp hm
    exact (d.episode_accounts turn.1 turn.2).2.balanced
  exact ⟨by rw [d.handle_run, d.episodes_trace], .flatMap hbalanced, d.episodes_eq _ r,
    fun turn _ => (d.episode_accounts turn.1 turn.2).2,
    fun p i fresh c start => p.resolve_submissions i fresh c start⟩

/-- A batch that ends with its second event, for which there is no resolver. -/
def unansweredBatch : Json :=
  .array [creation "Eve", eventFor "Query" "nobody" [], creation "Max"]

def unansweredEpisodes : List Episode :=
  (Server.dispatcher 8 true).episodes (eventsOf unansweredBatch) ⟨Store.follower, []⟩

theorem handle_accounts_unanswered :
    unansweredEpisodes.length = 2 ∧
      opens (unansweredEpisodes.flatMap Episode.occurrences) = 1 ∧
      Balanced (unansweredEpisodes.flatMap Episode.occurrences) ∧
      ∀ turn ∈ (Server.dispatcher 8 true).executed (eventsOf unansweredBatch) ⟨Store.follower, []⟩,
        (Server.dispatcher 8 true).Accounts turn.2
          ((Server.dispatcher 8 true).episode turn.1 turn.2) := by
  have haccounts := (Server.dispatcher 8 true).handle_accounts unansweredBatch
    ⟨Store.follower, []⟩
  exact ⟨by decide +kernel, by decide +kernel, haccounts.2.1, haccounts.2.2.2.1⟩

end Dispatcher

end GraphGateway
