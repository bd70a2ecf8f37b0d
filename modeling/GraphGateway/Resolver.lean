import GraphGateway.Resolver.Error
import GraphGateway.Traversal

/-!
# Resolvers

A resolver answers an invocation by submitting traversals to a graph connection
it is given. What it does with the connection is a session: it ends with an
answer, or submits a traversal and goes on with the outcome.
-/

namespace GraphGateway

abbrev Outcome :=
  Except GraphError (List Value)

inductive Session (α : Type) where
  | done (answer : α)
  | submit (t : Traversal) (next : Outcome → Session α)

/-- A resolver: from an invocation and an identifier nobody else holds to a session. -/
abbrev Resolver :=
  Invocation → ElementId → Session (Except ResolverError Json)

/-- The base of a resolver: the traversal that an invocation starts from. -/
abbrev Base :=
  Invocation → ElementId → Except ResolverError Traversal

/-- A filter on traversals, steered by the input of an invocation. -/
abbrev Narrowing :=
  Traversal → Fields → Except FilterError Traversal

/-- From filtered elements to the records that are returned. -/
abbrev Selection :=
  Traversal → Traversal

namespace Session

/-- Submit the traversal of a plan and read its outcome; a failed plan submits nothing. -/
def ofPlan {α β : Type} (plan : Except ResolverError (α × Traversal))
    (read : α → List Value → Except ResolverError β) : Session (Except ResolverError β) :=
  match plan with
  | .error e => .done (.error e)
  | .ok (context, t) =>
      .submit t fun outcome =>
        match outcome with
        | .error e => .done (.error (.graph e))
        | .ok results => .done (read context results)

end Session

end GraphGateway
