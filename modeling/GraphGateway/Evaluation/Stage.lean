import GraphGateway.Evaluation

/-!
# Stages

What a single step does to the values that reach it. A stage is a step together
with what its child traversal does; the stages of the modulators that follow a
step are handed to it. Steps at the front of a traversal may start from the
graph, all others need values to work on.
-/

namespace GraphGateway

/-- What a traversal does: its results from given values, or from the graph when there are none. -/
abbrev Routine :=
  Option (List Value) → Eval (List Value)

structure Stage where
  step : Step
  child : Routine

namespace Stage

def first (child : Routine) (v : Value) : Eval (Option Value) := do
  let results ← child (some [v])
  return results.head?

/-! ## Steps without effects -/

/-- The values inside a list or a map; other values stay as they are. -/
def unfolded : Value → List Value
  | .list items => items
  | .map entries => entries.entries.map fun (k, v) => .map (.ofList [(k, v)])
  | other => [other]

/-- The values at positions from `low` up to but excluding `high`; a negative `high` is no limit. -/
def window (low high : Int64) (input : List Value) : List Value :=
  let start := max low.toInt 0
  let rest := input.drop start.toNat
  if high.toInt < 0 then rest else rest.take (high.toInt - start).toNat

/-- The values that differ from all earlier ones; `seen` holds those. -/
def distinct (seen : List Value) : List Value → List Value
  | [] => []
  | v :: rest =>
      if seen.any fun earlier => earlier.same v then distinct seen rest
      else v :: distinct (v :: seen) rest

/-- Found elements once for every incoming value, or once when there are none to come. -/
def perValue (found : List Value) : Option (List Value) → List Value
  | none => found
  | some input => input.flatMap fun _ => found

/-! ## Records -/

/-- Shape the values of a record by a child traversal; system entries stay, empty results vanish. -/
def shapeEntries (child : Routine) (record : Record) : Eval Record := do
  let entries ← Eval.collect (shapeEntry child) record.entries
  return .ofList entries
where
  shapeEntry (child : Routine) : Key × Value → Eval (List (Key × Value))
    | (.token t, v) => pure [(.token t, v)]
    | (.name k, v) => do
        let shaped ← first child v
        return shaped.toList.map fun w => (.name k, w)

/-- One entry for each key, shaped by the modulator at its position, for one value. -/
def projectEntries (v : Value) : List String → List Stage → Eval (List (Key × Value))
  | [], _ => pure []
  | key :: keys, [] => do
      let rest ← projectEntries v keys []
      return (.name key, v) :: rest
  | key :: keys, m :: modulators => do
      let shaped ← first m.child v
      let rest ← projectEntries v keys modulators
      return (shaped.toList.map fun w => (.name key, w)) ++ rest

/-! ## Writing -/

/-- Write a property of an element; the identifier of a vertex can be written too. -/
def setProperty (access : Access) (key : Key) (value : Value) (element : Value) : Eval Value :=
  match element, key with
  | .vertex v, .token .id =>
      match value.asId? with
      | none => throw (.unsupportedId value.typeName)
      | some id => do
          let renamed ← Eval.change access fun g => g.renameVertex v.id id
          return .vertex renamed
  | .vertex v, .name k => do
      Eval.change access fun g => (g.setVertexProperty v.id k value).map ((), ·)
      return element
  | .edge e, .name k => do
      Eval.change access fun g => (g.setEdgeProperty e.id k value).map ((), ·)
      return element
  | .vertex _, .token t | .edge _, .token t => throw (.tokenProperty t)
  | other, _ => throw (.notAnElement "property" other.typeName)

/-- Remove the element a value refers to; other values are passed over. -/
def dropElement (access : Access) : Value → Eval (List Value)
  | .vertex v => do
      Eval.change access fun g => .ok ((), g.removeVertex v.id)
      return []
  | .edge e => do
      Eval.change access fun g => .ok ((), g.removeEdge e.id)
      return []
  | _ => pure []

def addVertex (access : Access) (label : String) : Eval (List Value) := do
  let id ← Eval.fresh access
  let vertex ← Eval.change access fun g => g.insertVertex id label
  return [.vertex vertex]

/-- One end of a new edge: the first result of its modulator, or the current value without one. -/
def edgeEnd (modulator : Option Stage) (start : Option (List Value)) : Eval ElementId := do
  let candidate ←
    match modulator with
    | some m => do
        let results ← m.child start
        pure results.head?
    | none => pure (start.bind List.head?)
  match candidate with
  | some (.vertex v) => return v.id
  | some other => throw (.endpointNotAVertex other.typeName)
  | none => throw .noEndpoint

def hasRole (role : Role) (stage : Stage) : Bool :=
  match stage.step with
  | .modulator r _ => r == role
  | _ => false

/-- Add an edge with a fresh identifier for one current value, or for none. -/
def addEdge (access : Access) (label : String) (modulators : List Stage)
    (start : Option (List Value)) : Eval (List Value) := do
  let source ← edgeEnd (modulators.find? (hasRole .source)) start
  let target ← edgeEnd (modulators.find? (hasRole .target)) start
  let id ← Eval.fresh access
  let edge ← Eval.change access fun g => g.insertEdge id label source target
  return [.edge edge]

/-! ## One step -/

def applyTo (access : Access) (stage : Stage) (modulators : List Stage) (input : List Value) :
    Eval (List Value) :=
  match stage.step with
  | .vertices ids => do
      let found ← Eval.look fun g => g.selectVertices ids
      return perValue found (some input)
  | .edges ids => do
      let found ← Eval.look fun g => g.selectEdges ids
      return perValue found (some input)
  | .addVertex label => Eval.collect (fun _ => addVertex access label) input
  | .addEdge label => Eval.collect (fun v => addEdge access label modulators (some [v])) input
  | .property key value => Eval.each (setProperty access key value) input
  | .hasLabel labels => Eval.look fun g => .ok (input.filter (g.hasLabel labels))
  | .has key p => Eval.look fun g => .ok (input.filter (g.has key p))
  | .hop direction labels =>
      Eval.collect (fun v => Eval.look fun g => g.hop direction labels v) input
  | .incident side labels =>
      Eval.collect (fun v => Eval.look fun g => g.incidentEdges side labels v) input
  | .endpoint side => Eval.collect (fun v => Eval.look fun g => g.endpoint side v) input
  | .suchThat _ =>
      Eval.collect
        (fun v => do
          let results ← stage.child (some [v])
          return if results.isEmpty then [] else [v])
        input
  | .valueMap tokens keys =>
      match modulators with
      | [] => Eval.each (fun v => Eval.look fun g => (g.valueMap tokens keys v).map .map) input
      | [m] =>
          Eval.each
            (fun v => do
              let record ← Eval.look fun g => g.valueMap tokens keys v
              let shaped ← shapeEntries m.child record
              return .map shaped)
            input
      | _ => throw .severalShapes
  | .values keys =>
      Eval.collect
        (fun v => Eval.look fun g => (g.element "values" v).map (Graph.propertyValues keys)) input
  | .id => Eval.each (fun v => Eval.look fun g => (g.element "id" v).map (·.id.toValue)) input
  | .label =>
      Eval.each (fun v => Eval.look fun g => (g.element "label" v).map (.string ·.label)) input
  | .fold => return [.list input]
  | .unfold => return input.flatMap unfolded
  | .count => return [.int (Int64.ofNat input.length)]
  | .range low high => return window low high input
  | .limit size => return input.take size.toInt.toNat
  | .project keys =>
      if keys.length < modulators.length then
        throw (.tooManyShapes keys.length modulators.length)
      else
        Eval.each
          (fun v => do
            let entries ← projectEntries v keys modulators
            return .map (.ofList entries))
          input
  | .dedup => return distinct [] input
  | .constant value => return input.map fun _ => value
  | .drop => Eval.collect (dropElement access) input
  | .modulator role _ => throw (.nothingToModulate role.name)

/-- What a step does at the front of a traversal that starts at the graph. -/
def applyToGraph (access : Access) (stage : Stage) (modulators : List Stage) : Eval (List Value) :=
  match stage.step with
  | .vertices ids => Eval.look fun g => g.selectVertices ids
  | .edges ids => Eval.look fun g => g.selectEdges ids
  | .addVertex label => addVertex access label
  | .addEdge label => addEdge access label modulators none
  | other => throw (.cannotStart other.name)

def apply (access : Access) (stage : Stage) (modulators : List Stage) : Routine
  | none => stage.applyToGraph access modulators
  | some input => stage.applyTo access modulators input

/-! ## Modulators -/

def accepts : Step → Step → Bool
  | .valueMap .., .modulator .shape _ => true
  | .project _, .modulator .shape _ => true
  | .addEdge _, .modulator .source _ => true
  | .addEdge _, .modulator .target _ => true
  | _, _ => false

/-- Fail on the first modulator that a step cannot be refined by. -/
def checkModulators (step : Step) (modulators : List Stage) : Eval Unit :=
  match modulators.find? fun m => !accepts step m.step with
  | some m => throw (.cannotModulate m.step.name step.name)
  | none => pure ()

end Stage

end GraphGateway
