import GraphGateway.Evaluation.Run
import GraphGateway.Remote.Response
import GraphGateway.Resolver

/-!
# Connection providers

A provider opens graph connections and hands out fresh identifiers. Its state is
whatever the backend needs: the graph itself when it is held in memory, anything
that an exchange of requests depends on when it is remote.
-/

namespace GraphGateway

/-- An open connection: the outcome of a traversal, and the state afterwards. -/
abbrev Connection (σ : Type) :=
  Traversal → σ → Outcome × σ

structure Provider (σ : Type) where
  connect : σ → Except GraphError (Connection σ) × σ
  fresh : σ → ElementId × σ

namespace Provider

def evaluate : Connection Store := fun t s =>
  let (outcome, next) := s.submit t
  (outcome.mapError .ofEvaluation, next)

def memory : Provider Store where
  connect s := (.ok evaluate, s)
  fresh s :=
    let (id, ids) := s.ids.next
    (id, { s with ids })

/-- A graph behind an exchange of requests and responses; `none` means that nobody answers. -/
def remote {σ : Type} (path : String) (exchange : Remote.Request → σ → Option Remote.Response × σ)
    (fresh : σ → ElementId × σ) : Provider σ where
  connect s :=
    (.ok fun t world =>
      let (response, next) := exchange (Remote.request path t) world
      match response with
      | some r => (Remote.interpret r, next)
      | none => (.error .transport, next),
    s)
  fresh := fresh

def refusing {σ : Type} (e : GraphError) (fresh : σ → ElementId × σ) : Provider σ where
  connect s := (.error e, s)
  fresh := fresh

end Provider

/-! ## Rehearsals -/

structure Rehearsal where
  opened : Nat
  ids : IdSource

namespace Rehearsal

def fresh (r : Rehearsal) : ElementId × Rehearsal :=
  let (id, ids) := r.ids.next
  (id, { r with ids })

/-- Each connection answers everything with the next of the prepared outcomes, then with nothing. -/
def provider (outcomes : List Outcome) : Provider Rehearsal where
  connect r :=
    (.ok fun _ s => ((outcomes[r.opened]?).getD (.ok []), s), { r with opened := r.opened + 1 })
  fresh := fresh

end Rehearsal

end GraphGateway
