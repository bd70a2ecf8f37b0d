import GraphGateway.Proofs.Dispatch.Accounting

/-!
# Runs

What one event keeps, every payload keeps, and every succession of payloads; and
what one event adds to a quantity adds up over all events that are executed, be
they single or in batches, also in batches that end early. Over a graph held in
memory, an event changes the store by what its resolver submits and by nothing
else.
-/

namespace GraphGateway

namespace Dispatcher

variable {σ : Type}

/-! ## Events in succession -/

/-- Episodes are those of the events that were handed in. -/
theorem event_mem_of_episode {d : Dispatcher σ} {events : List Json} {r : Run σ} {ep : Episode}
    (h : ep ∈ d.episodes events r) : ep.event ∈ events := by
  induction events generalizing r with
  | nil => simp [episodes] at h
  | cons event rest ih =>
      rw [episodes] at h
      split at h
      · rw [List.mem_singleton.mp h]
        exact List.mem_cons_self
      · rcases List.mem_cons.mp h with rfl | hrest
        · exact List.mem_cons_self
        · exact List.mem_cons_of_mem _ (ih hrest)

/-- The first event is executed in any case. -/
theorem episode_mem_episodes (d : Dispatcher σ) (event : Json) (rest : List Json) (r : Run σ) :
    d.episode event r ∈ d.episodes (event :: rest) r := by
  rw [episodes]
  split
  · exact List.mem_singleton_self _
  · exact List.mem_cons_self

section Carrying

variable {d : Dispatcher σ}

/-- What one event carries on, given the episodes before it, is carried through all of them. -/
theorem processAll_carries {R : List Episode → Run σ → Prop}
    (h : ∀ eps event r, R eps r → R (eps ++ [d.episode event r]) (d.process event r).2)
    (events : List Json) (eps : List Episode) {r : Run σ} (hr : R eps r) :
    R (eps ++ d.episodes events r) (d.processAll events r).2 := by
  induction events generalizing eps r with
  | nil => simpa [processAll, episodes] using hr
  | cons event rest ih =>
      have hnext := h eps event r hr
      rw [processAll_cons, episodes]
      cases hprocess : d.process event r with
      | mk outcome next =>
          rw [hprocess] at hnext
          cases outcome with
          | error e => exact hnext
          | ok answer =>
              have hrest := ih _ hnext
              rw [List.append_assoc, List.singleton_append] at hrest
              exact hrest

theorem processAll_keeps {P : Run σ → Prop} (h : ∀ event r, P r → P (d.process event r).2)
    (events : List Json) {r : Run σ} (hr : P r) : P (d.processAll events r).2 :=
  processAll_carries (R := fun _ r => P r) (fun _ event _ hr => h event _ hr) events [] hr

end Carrying

end Dispatcher

/-! ## Payloads in succession -/

namespace Server

/-- The run after payloads were handed in one after another, whatever they were answered with. -/
def serve (d : Dispatcher Store) : List Json → Run Store → Run Store
  | [], r => r
  | payload :: rest, r => serve d rest (invoke d payload r).2

/-- The episodes of all events that were executed while payloads were handed in. -/
def history (d : Dispatcher Store) : List Json → Run Store → List Dispatcher.Episode
  | [], _ => []
  | payload :: rest, r =>
      d.episodes (Dispatcher.eventsOf payload) r ++ history d rest (invoke d payload r).2

variable {d : Dispatcher Store}

theorem invoke_run (d : Dispatcher Store) (payload : Json) (r : Run Store) :
    (invoke d payload r).2 = (d.processAll (Dispatcher.eventsOf payload) r).2 := by
  rw [← d.handle_run]
  unfold invoke Dispatcher.invoke
  cases d.handle payload r with
  | mk outcome next => cases outcome <;> rfl

/-- A payload that is one event is answered as the event is. -/
theorem invoke_event {event : Json} (h : event.asArray? = none) (d : Dispatcher Store)
    (r : Run Store) :
    invoke d event r =
      ((match (d.process event r).1 with
        | .ok answer => ⟨200, .json answer⟩
        | .error e => ⟨500, .json e.envelope.toJson⟩),
        (d.process event r).2) := by
  unfold invoke Dispatcher.invoke
  rw [d.handle_event h]
  cases d.process event r with
  | mk outcome next => cases outcome <;> rfl

theorem event_mem_of_history {payloads : List Json} {r : Run Store} {ep : Dispatcher.Episode}
    (h : ep ∈ history d payloads r) :
    ∃ payload ∈ payloads, ep.event ∈ Dispatcher.eventsOf payload := by
  induction payloads generalizing r with
  | nil => simp [history] at h
  | cons payload rest ih =>
      rcases List.mem_append.mp h with hfirst | hrest
      · exact ⟨payload, List.mem_cons_self, Dispatcher.event_mem_of_episode hfirst⟩
      · obtain ⟨other, hother, hevent⟩ := ih hrest
        exact ⟨other, List.mem_cons_of_mem _ hother, hevent⟩

/-- A payload that is one event is executed in any case. -/
theorem episode_mem_history {event : Json} (h : event.asArray? = none) (d : Dispatcher Store)
    (rest : List Json) (r : Run Store) : d.episode event r ∈ history d (event :: rest) r := by
  have hevents : Dispatcher.eventsOf event = [event] := by
    cases event with
    | array events => cases h
    | _ => rfl
  rw [history, hevents]
  exact List.mem_append_left _ (d.episode_mem_episodes event [] r)

theorem serve_carries {R : List Dispatcher.Episode → Run Store → Prop}
    (h : ∀ eps event r, R eps r → R (eps ++ [d.episode event r]) (d.process event r).2)
    (payloads : List Json) (eps : List Dispatcher.Episode) {r : Run Store} (hr : R eps r) :
    R (eps ++ history d payloads r) (serve d payloads r) := by
  induction payloads generalizing eps r with
  | nil => simpa [history, serve] using hr
  | cons payload rest ih =>
      have hnext := Dispatcher.processAll_carries h (Dispatcher.eventsOf payload) eps hr
      rw [← invoke_run] at hnext
      rw [history, ← List.append_assoc]
      exact ih _ hnext

theorem serve_keeps {P : Run Store → Prop} (h : ∀ event r, P r → P (d.process event r).2)
    (payloads : List Json) {r : Run Store} (hr : P r) : P (serve d payloads r) :=
  serve_carries (R := fun _ r => P r) (fun _ event _ hr => h event _ hr) payloads [] hr

section Adding

variable (P : Run Store → Prop) (hkeeps : ∀ event r, P r → P (d.process event r).2)

include hkeeps

/-- A quantity that grows with events of a kind only has grown by their number in the end. -/
theorem serve_tally (quantity : Run Store → Nat) (counts : Dispatcher.Episode → Bool)
    (hstep : ∀ event r, P r → quantity (d.process event r).2 =
      quantity r + if counts (d.episode event r) then 1 else 0)
    (payloads : List Json) {r : Run Store} (hr : P r) :
    quantity (serve d payloads r) = quantity r + (history d payloads r).countP counts := by
  have hcarried := serve_carries (d := d)
    (R := fun eps next => P next ∧ quantity next = quantity r + eps.countP counts)
    (fun eps event next hnext => ?_) payloads [] ⟨hr, rfl⟩
  · exact hcarried.2
  · refine ⟨hkeeps event next hnext.1, ?_⟩
    rw [hstep event next hnext.1, hnext.2, List.countP_append, List.countP_singleton,
      Nat.add_assoc]

/-- What only episodes of a kind bring about holds in the end if it did before, or if there was
one of them. -/
theorem serve_gathers (holds : Run Store → Prop) (brings : Dispatcher.Episode → Prop)
    (hstep : ∀ event r, P r → (holds (d.process event r).2 ↔ holds r ∨ brings (d.episode event r)))
    (payloads : List Json) {r : Run Store} (hr : P r) :
    holds (serve d payloads r) ↔ holds r ∨ ∃ ep ∈ history d payloads r, brings ep := by
  have hcarried := serve_carries (d := d)
    (R := fun eps next => P next ∧ (holds next ↔ holds r ∨ ∃ ep ∈ eps, brings ep))
    (fun eps event next hnext => ?_) payloads [] ⟨hr, by simp⟩
  · exact hcarried.2
  · refine ⟨hkeeps event next hnext.1, ?_⟩
    rw [hstep event next hnext.1, hnext.2, or_assoc]
    simp only [List.mem_append, List.mem_singleton, or_and_right, exists_or, exists_eq_left]

end Adding

end Server

/-! ## Events over a graph held in memory -/

namespace Session

variable {α β : Type}

/-- A plan that works out is submitted, and what it leads to is read. -/
theorem carryOut_plan (context : α) (t : Traversal)
    (read : α → List Value → Except ResolverError β) (r : Run Store) :
    (ofPlan (.ok (context, t)) read).carryOut Provider.evaluate r =
      ((match (r.world.submit t).1 with
        | .ok results => read context results
        | .error err => .error (.graph (.ofEvaluation err))),
        ({ r with world := (r.world.submit t).2 } : Run Store).note (.submitted t)) := by
  simp only [ofPlan, carryOut, Provider.evaluate]
  cases r.world.submit t with
  | mk outcome next => cases outcome <;> rfl

end Session

namespace SinglePipeline

variable {p : SinglePipeline} {i : Invocation} {fresh : ElementId} {r : Run Store}

/-- A single record is answered with the first result of its traversal. -/
theorem resolve_answers {t : Traversal} {v : Value} {rest : List Value} {next : Store}
    (hnarrowed : p.narrowed i fresh = .ok t)
    (hrun : r.world.submit (firstOf (p.selection t)) = (.ok (v :: rest), next)) :
    ((p.resolve i fresh).carryOut Provider.evaluate r).1 = .ok v.formatted := by
  unfold resolve
  rw [hnarrowed, Except.map, Session.carryOut_plan, hrun]
  rfl

end SinglePipeline

namespace CalculatedPipeline

variable {p : CalculatedPipeline} {i : Invocation} {fresh : ElementId} {r : Run Store}

/-- A computed field is answered with the first value of its traversal. -/
theorem resolve_answers {t : Traversal} {v : Value} {rest : List Value} {next : Store}
    (hbase : p.base i fresh = .ok t)
    (hrun : r.world.submit (firstOf t) = (.ok (v :: rest), next)) :
    ((p.resolve i fresh).carryOut Provider.evaluate r).1 = .ok v.toJson := by
  unfold resolve
  rw [hbase, Except.map, Session.carryOut_plan, hrun]
  rfl

end CalculatedPipeline

namespace MutationPipeline

variable {p : MutationPipeline} {i : Invocation} {fresh : ElementId} {r : Run Store}

theorem resolve_answers {t : Traversal} {v : Value} {rest : List Value} {next : Store}
    (hbase : p.base i fresh = .ok t)
    (hrun : r.world.submit (firstOf (p.selection t)) = (.ok (v :: rest), next)) :
    ((p.resolve i fresh).carryOut Provider.evaluate r).1 = .ok v.formatted ∧
      ((p.resolve i fresh).carryOut Provider.evaluate r).2.world = next := by
  unfold resolve
  rw [hbase, Except.map, Session.carryOut_plan, hrun]
  exact ⟨rfl, rfl⟩

/-- A write that finds nothing, fails, or is not even attempted has no answer. -/
theorem resolve_fails
    (h : ∀ t, p.base i fresh = .ok t →
      (r.world.submit (firstOf (p.selection t))).2 = r.world ∧
        ∀ v rest, (r.world.submit (firstOf (p.selection t))).1 ≠ .ok (v :: rest)) :
    (∃ e, ((p.resolve i fresh).carryOut Provider.evaluate r).1 = .error e) ∧
      ((p.resolve i fresh).carryOut Provider.evaluate r).2.world = r.world := by
  unfold resolve
  cases hbase : p.base i fresh with
  | error e => exact ⟨⟨e, rfl⟩, rfl⟩
  | ok t =>
      obtain ⟨hworld, hnone⟩ := h t hbase
      rw [Except.map, Session.carryOut_plan]
      refine ⟨?_, hworld⟩
      cases hrun : (r.world.submit (firstOf (p.selection t))).1 with
      | error err => exact ⟨_, rfl⟩
      | ok results =>
          cases results with
          | nil => exact ⟨_, rfl⟩
          | cons v rest => exact absurd hrun (hnone v rest)

end MutationPipeline

namespace Dispatcher

variable {d : Dispatcher Store} {event : Json} {i : Invocation}

/-- An event without a resolver is refused and changes nothing. -/
theorem process_refused (h : ∀ i, Invocation.ofEvent event = .ok i → d.registry.get? i.key = none)
    (r : Run Store) : ∃ e, d.process event r = (.error e, r) := by
  unfold process
  cases hevent : Invocation.ofEvent event with
  | error e => exact ⟨_, rfl⟩
  | ok i =>
      simp only [dispatch, h i hevent]
      exact ⟨_, rfl⟩

/-- An event with a resolver comes to what the resolver makes of it, on an identifier of its own. -/
theorem process_resolved (hmemory : d.provider = .memory)
    (hevent : Invocation.ofEvent event = .ok i) {resolver : Resolver}
    (hget : d.registry.get? i.key = some resolver) (r : Run Store) :
    ∃ start : Run Store, start.world = { r.world with ids := r.world.ids.next.2 } ∧
      (d.process event r).1 =
        ((resolver i r.world.ids.next.1).carryOut Provider.evaluate start).1.mapError
          (.resolver i.key) ∧
      (d.process event r).2.world =
        ((resolver i r.world.ids.next.1).carryOut Provider.evaluate start).2.world := by
  have hconnect : (d.provider.connect r.world).1 = .ok Provider.evaluate := by
    rw [hmemory]
    rfl
  have hwork : d.work resolver Provider.evaluate i r =
      (resolver i r.world.ids.next.1).carryOut Provider.evaluate (d.begun i r) := by
    rw [work, hmemory]
    rfl
  refine ⟨d.begun i r, ?_, ?_⟩
  · rw [begun, hmemory]
    rfl
  · rw [process_connected hevent hget hconnect, hwork]
    exact ⟨rfl, rfl⟩

end Dispatcher

end GraphGateway
