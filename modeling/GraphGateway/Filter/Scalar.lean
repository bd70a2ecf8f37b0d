import GraphGateway.Filter.Error
import GraphGateway.Traversal

/-!
# Scalar and untyped filters

Both compile to `has` steps that narrow a traversal: one step per operator, in
input order. A `null` comparison value adds no step, but its operator still has
to exist.
-/

namespace GraphGateway

namespace Filter

abbrev Compiled :=
  Except FilterError (List Step)

structure ScalarFilter where
  field : String
  kind : Kind
  key : Key
  deriving DecidableEq

namespace ScalarFilter

/-- The filter on a field; an `id` field of kind `id` stands for the identifier of the element. -/
def ofField (field : String) (kind : Kind) : ScalarFilter :=
  ⟨field, kind, if kind = .id ∧ field = "id" then .token .id else .name field⟩

/-- The filter on the property of a name, also when the name is `id`. -/
def onProperty (field : String) (kind : Kind) : ScalarFilter :=
  ⟨field, kind, .name field⟩

def operator (f : ScalarFilter) (name : String) : Except FilterError Operator :=
  match f.kind.operators.find? name with
  | some op => .ok op
  | none => .error (.unknownOperator f.kind name)

def predicate (f : ScalarFilter) (name : String) (op : Operator) (value : Json) :
    Except FilterError Predicate :=
  (op.build value f.kind.coerce).mapError (.invalidValue f.field name)

def compile (f : ScalarFilter) : List (String × Json) → Compiled
  | [] => .ok []
  | (name, value) :: rest => do
      let op ← f.operator name
      if value.isNull then f.compile rest
      else do
        let p ← f.predicate name op value
        let steps ← f.compile rest
        .ok (.has f.key p :: steps)

def apply (f : ScalarFilter) (t : Traversal) (input : Fields) : Except FilterError Traversal :=
  (f.compile input.entries).map t.extend

end ScalarFilter

/-! ## Filters without a schema -/

namespace Untyped

def operator (field name : String) : Except FilterError Operator :=
  match untypedOperators.find? name with
  | some op => .ok op
  | none => .error (.unknownUntypedOperator field name)

/-- The predicate of an operator; comparison values are taken as they come. -/
def predicate (field name : String) (op : Operator) (value : Json) :
    Except FilterError Predicate :=
  (op.build value fun j => .ok (Value.ofJson j)).mapError (.invalidValue field name)

def compileOperators (field : String) : List (String × Json) → Compiled
  | [] => .ok []
  | (name, value) :: rest => do
      let op ← operator field name
      if value.isNull then compileOperators field rest
      else do
        let p ← predicate field name op value
        let steps ← compileOperators field rest
        .ok (.has (.name field) p :: steps)

def compile : List (String × Json) → Compiled
  | [] => .ok []
  | (_, .null) :: rest => compile rest
  | (field, .object ⟨operators⟩) :: rest => do
      let steps ← compileOperators field operators
      let more ← compile rest
      .ok (steps ++ more)
  | (field, other) :: _ => .error (.expectedObject field other)

def apply (t : Traversal) (input : Fields) : Except FilterError Traversal :=
  (compile input.entries).map t.extend

end Untyped

end Filter

end GraphGateway
