import GraphGateway.Filter.Error
import GraphGateway.GraphError
import GraphGateway.Invocation

/-!
# Resolver errors

Why a resolver gives no answer: its arguments, its filter, the graph, the shape
of the results, or a reason of its own.
-/

namespace GraphGateway

inductive ShapeFault where
  | noProjection
  | notAProjection (found : String)
  | notRecords (found : String)
  | notACount (found : String)
  deriving DecidableEq

inductive ResolverError where
  | argument (e : ArgumentError)
  | filter (e : FilterError)
  | graph (e : GraphError)
  | noResult (key : ResolverKey)
  | notFound (key : ResolverKey)
  | unexpectedShape (fault : ShapeFault)
  | custom (reason : String)

def ShapeFault.message : ShapeFault → String
  | noProjection => "pagination projection returned nothing"
  | notAProjection found => "pagination projection returned a " ++ found
  | notRecords found => "expected a list of records, got " ++ found
  | notACount found => "expected a non-negative count, got " ++ found

def ResolverError.message : ResolverError → String
  | argument e => e.message
  | filter e => e.message
  | graph e => e.message
  | noResult key => "traversal for " ++ key.display ++ " produced no result"
  | notFound key => key.display ++ " found nothing to return"
  | unexpectedShape fault => "unexpected traversal result: " ++ fault.message
  | custom reason => reason

end GraphGateway
