import GraphGateway.Filter.Scalar

/-!
# Filter schemas

A vertex filter binds fields to sub-filters; a schema is a set of vertex filters
that refer to each other, and to themselves, by name. Compiling an input checks
every field name of a level first, then handles the scalar fields and after them
the others, each group in input order. How deep inputs may nest is part of the
schema, and is what the recursion runs on.
-/

namespace GraphGateway

namespace Filter

inductive FieldFilter where
  | scalar (filter : ScalarFilter)
  /-- Another vertex filter on the same element. -/
  | vertex (target : String)
  /-- A vertex filter that at least one neighbour has to pass. -/
  | relationship (direction : Direction) (label : String) (target : String)
  deriving DecidableEq

def FieldFilter.isScalar : FieldFilter → Bool
  | scalar _ => true
  | _ => false

def FieldFilter.target? : FieldFilter → Option String
  | scalar _ => none
  | vertex target => some target
  | relationship _ _ target => some target

structure VertexFilter where
  name : String
  label : String
  fields : List (String × FieldFilter)
  deriving DecidableEq

namespace VertexFilter

def ofLabel (name label : String) : VertexFilter :=
  ⟨name, label, []⟩

/-- Bind a field; an earlier binding of it is dropped. -/
def bind (f : VertexFilter) (field : String) (filter : FieldFilter) : VertexFilter :=
  { f with fields := f.fields.filter (fun b => b.1 != field) ++ [(field, filter)] }

def scalar (f : VertexFilter) (field : String) (kind : Kind) : VertexFilter :=
  f.bind field (.scalar (.ofField field kind))

def relationship (f : VertexFilter) (field : String) (direction : Direction)
    (label target : String) : VertexFilter :=
  f.bind field (.relationship direction label target)

def find? (f : VertexFilter) (field : String) : Option FieldFilter :=
  OrderedMap.lookup field f.fields

/-- A field of an input with its sub-filter and its value, which is not `null`. -/
structure Binding where
  field : String
  filter : FieldFilter
  value : Json

/-- Find the sub-filter of every field; fields that hold `null` are dropped once they are known. -/
def resolve (f : VertexFilter) : List (String × Json) → Except FilterError (List Binding)
  | [] => .ok []
  | (field, value) :: rest =>
      match f.find? field with
      | none => .error (.unknownField f.name field)
      | some filter => do
          let bindings ← f.resolve rest
          .ok (if value.isNull then bindings else ⟨field, filter, value⟩ :: bindings)

/-- Scalar fields first, each group in its order. -/
def scalarsFirst (bindings : List Binding) : List Binding :=
  bindings.filter (fun b => b.filter.isScalar) ++ bindings.filter fun b => !b.filter.isScalar

end VertexFilter

/-- How a nested input is compiled for the vertex filter of a name. -/
abbrev Descent :=
  String → Fields → Compiled

def compileBinding (descend : Descent) (b : VertexFilter.Binding) : Compiled :=
  match b.value with
  | .object input =>
      match b.filter with
      | .scalar filter => filter.compile input.entries
      | .vertex target => descend target input
      | .relationship direction label target => do
          let steps ← descend target input
          .ok [.suchThat (.anonymous (.hop direction [label] :: steps))]
  | other => .error (.expectedObject b.field other)

def compileBindings (descend : Descent) : List VertexFilter.Binding → Compiled
  | [] => .ok []
  | b :: rest => do
      let steps ← compileBinding descend b
      let more ← compileBindings descend rest
      .ok (steps ++ more)

/-- The steps of an input: the label, the scalar fields, then the other fields. -/
def VertexFilter.compile (descend : Descent) (f : VertexFilter) (input : Fields) : Compiled := do
  let bindings ← f.resolve input.entries
  let steps ← compileBindings descend (scalarsFirst bindings)
  .ok (.hasLabel [f.label] :: steps)

/-- Vertex filters by name, and how deep inputs may nest. -/
structure Schema where
  filters : OrderedMap String VertexFilter
  maxDepth : Nat

namespace Schema

def standardDepth : Nat :=
  8

def get (s : Schema) (name : String) : Except FilterError VertexFilter :=
  match s.filters.get? name with
  | some f => .ok f
  | none => .error (.unknownFilter name)

def missingTarget? (filters : OrderedMap String VertexFilter)
    (fields : List (String × FieldFilter)) : Option String :=
  (fields.filterMap fun b => b.2.target?).find? fun target => !filters.contains target

/-- The schema of a list of vertex filters; the last one of a name counts, and every target must
exist. -/
def build (filters : List VertexFilter) (maxDepth : Nat) : Except FilterError Schema :=
  let byName : OrderedMap String VertexFilter := .ofList (filters.map fun f => (f.name, f))
  match byName.entries.findSome? fun entry => missingTarget? byName entry.2.fields with
  | some target => .error (.unknownFilter target)
  | none => .ok ⟨byName, maxDepth⟩

/-- Compile an input for a vertex filter while `remaining` more levels are allowed. -/
def compileAt (s : Schema) : Nat → VertexFilter → Fields → Compiled
  | 0, f, input => f.compile (fun _ _ => .error (.depthExceeded s.maxDepth)) input
  | remaining + 1, f, input =>
      f.compile
        (fun target nested => do
          let g ← s.get target
          s.compileAt remaining g nested)
        input

def compile (s : Schema) (name : String) (input : Fields) : Compiled := do
  let f ← s.get name
  s.compileAt s.maxDepth f input

def apply (s : Schema) (name : String) (t : Traversal) (input : Fields) :
    Except FilterError Traversal :=
  (s.compile name input).map t.extend

end Schema

/-- A vertex filter of a schema by its name, as resolvers carry it around. -/
structure NamedFilter where
  schema : Schema
  name : String

def Schema.handle (s : Schema) (name : String) : Except FilterError NamedFilter := do
  let _ ← s.get name
  .ok ⟨s, name⟩

def NamedFilter.apply (h : NamedFilter) (t : Traversal) (input : Fields) :
    Except FilterError Traversal :=
  h.schema.apply h.name t input

end Filter

end GraphGateway
