import GraphGateway.Filter.Operator

/-!
# Filter errors

The causes for which a filter input is refused, and their wording.
-/

namespace GraphGateway

inductive FilterError where
  | unknownOperator (kind : Filter.Kind) (operator : String)
  | unknownUntypedOperator (field operator : String)
  | unknownField (filter field : String)
  | unknownFilter (name : String)
  | expectedObject (field : String) (found : Json)
  | invalidValue (field operator : String) (reason : Filter.Misfit)
  | depthExceeded (maxDepth : Nat)

namespace FilterError

def message : FilterError → String
  | unknownOperator kind operator =>
      "unknown operator `" ++ operator ++ "` for " ++ kind.name ++ " filter"
  | unknownUntypedOperator field operator =>
      "unknown operator `" ++ operator ++ "` for field `" ++ field ++ "`"
  | unknownField filter field => "filter `" ++ filter ++ "` has no field `" ++ field ++ "`"
  | unknownFilter name => "no vertex filter named `" ++ name ++ "`"
  | expectedObject field found => "expected an object for `" ++ field ++ "`, got " ++ found.text
  | invalidValue field operator reason =>
      "invalid value for `" ++ field ++ "." ++ operator ++ "`: " ++ reason.message
  | depthExceeded maxDepth =>
      "filter nesting exceeds the maximum depth of " ++ Text.naturalText maxDepth

end FilterError

end GraphGateway
