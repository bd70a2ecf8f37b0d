import GraphGateway.Proofs.Dispatch.Batch
import GraphGateway.Proofs.Social.Events

/-!
# Runs of the server

What the server of the example comes to, whatever it is asked from the sample on.
Its store is intact at any time, which is all that later events depend on, and a
request that fails leaves the graph exactly as it was: no resolver writes before
the last point at which it can fail.
-/

namespace GraphGateway

namespace Server

/-- The runs that invocations lead to from the sample. -/
inductive Reachable (maxDepth : Nat) (observed : Bool) : Run Store → Prop where
  | seeded {issue : Nat → String} {start : Store} :
      Social.FreshSupply issue → Social.seed ⟨issue, 0⟩ = .ok start →
        Reachable maxDepth observed ⟨start, []⟩
  | invoked {r : Run Store} (payload : Json) :
      Reachable maxDepth observed r →
        Reachable maxDepth observed (invoke (dispatcher maxDepth observed) payload r).2

namespace Reachable

variable {maxDepth : Nat} {observed : Bool} {r : Run Store}

theorem intact (h : Reachable maxDepth observed r) : Social.Intact r.world := by
  induction h with
  | seeded hissue hstart => exact (Social.seed_intact hissue hstart).1
  | invoked payload _ ih =>
      rw [invoke_run]
      exact Dispatcher.processAll_keeps (P := fun r => Social.Intact r.world)
        (fun event _ hr => (Social.process_effect maxDepth observed hr event).2) _ ih

theorem served (h : Reachable maxDepth observed r) (payloads : List Json) :
    Reachable maxDepth observed (serve (dispatcher maxDepth observed) payloads r) := by
  induction payloads generalizing r with
  | nil => exact h
  | cons payload rest ih => exact ih (h.invoked payload)

end Reachable

/-! ## Failures -/

variable {maxDepth : Nat} {observed : Bool} {r : Run Store}

/-- An event that is answered with a failure leaves the graph exactly as it was. -/
theorem failure_keeps_graph (h : Reachable maxDepth observed r) {event : Json}
    (hevent : event.asArray? = none)
    (hfailed : (invoke (dispatcher maxDepth observed) event r).1.status = 500) :
    (invoke (dispatcher maxDepth observed) event r).2.world.graph = r.world.graph := by
  have heffect := (Social.process_effect maxDepth observed h.intact event).1
  rw [invoke_event hevent] at hfailed ⊢
  cases houtcome : ((dispatcher maxDepth observed).process event r).1 with
  | ok answer =>
      rw [houtcome] at hfailed
      cases hfailed
  | error e =>
      rw [houtcome] at heffect
      exact heffect.of_error

/-- The sample under a supply of ever longer texts. -/
def sample : Run Store :=
  ⟨((Social.seed ⟨Store.unary, 0⟩).toOption).getD (Store.start Store.unary), []⟩

theorem sample_reachable (maxDepth : Nat) (observed : Bool) :
    Reachable maxDepth observed sample :=
  .seeded Social.freshSupply_unary rfl

def followRequest (follower followee : String) : Json :=
  Dispatcher.eventFor "Mutation" "follow"
    [("follower_id", .string follower), ("followee_id", .string followee)]

/-- The run after a new user and an edge to an old one. -/
def grown : Run Store :=
  serve (dispatcher 8 true) [Dispatcher.creation "Eve", followRequest "u3" "u2"] sample

theorem grown_reachable : Reachable 8 true grown := by
  unfold grown
  exact (sample_reachable 8 true).served _

theorem failure_keeps_graph_nobody :
    (invoke (dispatcher 8 true) (followRequest "u1" "nobody") grown).1.status = 500 ∧
      (invoke (dispatcher 8 true) (followRequest "u1" "nobody") grown).2.world.graph =
        grown.world.graph := by
  have hstatus :
      (invoke (dispatcher 8 true) (followRequest "u1" "nobody") grown).1.status = 500 := by
    decide +kernel
  exact ⟨hstatus, failure_keeps_graph grown_reachable rfl hstatus⟩

end Server

end GraphGateway
