import GraphGateway.Dispatch.Envelope
import GraphGateway.Dispatch.Provider
import GraphGateway.Invocation.Event
import GraphGateway.Value.Order

/-!
# Dispatch

Every event is routed to the resolver of its type and field, which works on a
connection of its own. A batch runs its events in order and ends with the first
failure. The trace of a run lists what happened to connections and what an
observer was shown.
-/

namespace GraphGateway

/-! ## Registry -/

/-- Resolvers by type and field; a later registration replaces an earlier one. -/
abbrev Registry :=
  OrderedMap ResolverKey Resolver

namespace Registry

/-- The order in which keys are listed: by type, then by field. -/
def precedes (a b : ResolverKey) : Bool :=
  let types := Value.compareBytes (Value.utf8 a.typeName) (Value.utf8 b.typeName)
  let fields := Value.compareBytes (Value.utf8 a.fieldName) (Value.utf8 b.fieldName)
  types.then fields != .gt

def sortedKeys (r : Registry) : List ResolverKey :=
  (OrderedMap.keys r).mergeSort precedes

end Registry

/-! ## Runs -/

inductive Occurrence where
  | requested
  | opened
  | submitted (t : Traversal)
  | closed
  | input (i : Invocation)
  | result (key : ResolverKey) (answer : Json)

namespace Occurrence

def isOpened : Occurrence → Bool
  | opened => true
  | _ => false

def isClosed : Occurrence → Bool
  | closed => true
  | _ => false

def submitted? : Occurrence → Option Traversal
  | submitted t => some t
  | _ => none

end Occurrence

structure Run (σ : Type) where
  world : σ
  trace : List Occurrence

namespace Run

variable {σ : Type}

def note (r : Run σ) (o : Occurrence) : Run σ :=
  { r with trace := r.trace ++ [o] }

def openedCount (r : Run σ) : Nat :=
  r.trace.countP Occurrence.isOpened

def closedCount (r : Run σ) : Nat :=
  r.trace.countP Occurrence.isClosed

end Run

def Session.carryOut {σ α : Type} (c : Connection σ) : Session α → Run σ → α × Run σ
  | .done answer, r => (answer, r)
  | .submit t next, r =>
      let (outcome, world) := c t r.world
      (next outcome).carryOut c ({ r with world }.note (.submitted t))

structure Dispatcher (σ : Type) where
  registry : Registry
  provider : Provider σ
  observed : Bool := false

namespace Dispatcher

variable {σ : Type}

def observe (d : Dispatcher σ) (o : Occurrence) (r : Run σ) : Run σ :=
  if d.observed then r.note o else r

/-- Let a resolver answer an invocation on an open connection, and close the connection. -/
def answer (d : Dispatcher σ) (resolver : Resolver) (c : Connection σ) (i : Invocation)
    (r : Run σ) : Except DispatchError Json × Run σ :=
  let r := d.observe (.input i) (r.note .opened)
  let (id, world) := d.provider.fresh r.world
  match (resolver i id).carryOut c { r with world } with
  | (.error e, r) => (.error (.resolver i.key e), r.note .closed)
  | (.ok json, r) => (.ok json, (d.observe (.result i.key json) r).note .closed)

def dispatch (d : Dispatcher σ) (i : Invocation) (r : Run σ) : Except DispatchError Json × Run σ :=
  match d.registry.get? i.key with
  | none => (.error (.unregistered i.key), r)
  | some resolver =>
      let r := r.note .requested
      match d.provider.connect r.world with
      | (.error e, world) => (.error (.connection e), { r with world })
      | (.ok c, world) => d.answer resolver c i { r with world }

def process (d : Dispatcher σ) (event : Json) (r : Run σ) : Except DispatchError Json × Run σ :=
  match Invocation.ofEvent event with
  | .error e => (.error (.invalidPayload e), r)
  | .ok i => d.dispatch i r

/-- Answer events in order up to the first failure. -/
def processAll (d : Dispatcher σ) :
    List Json → Run σ → Except DispatchError (List Json) × Run σ
  | [], r => (.ok [], r)
  | event :: rest, r =>
      match d.process event r with
      | (.error e, r) => (.error e, r)
      | (.ok json, r) =>
          let (answers, r) := d.processAll rest r
          (answers.map (json :: ·), r)

def handle (d : Dispatcher σ) (payload : Json) (r : Run σ) : Except DispatchError Json × Run σ :=
  match payload with
  | .array events =>
      let (answers, r) := d.processAll events r
      (answers.map .array, r)
  | event => d.process event r

def invoke (d : Dispatcher σ) (payload : Json) (r : Run σ) : Except Envelope Json × Run σ :=
  let (outcome, r) := d.handle payload r
  (outcome.mapError DispatchError.envelope, r)

end Dispatcher

end GraphGateway
