import GraphGateway.Invocation.Pagination
import GraphGateway.Resolver
import GraphGateway.Value.Record

/-!
# Resolver pipelines

The four shapes of resolvers: a filtered list of records, paginated or not, a
single record, the raw first value of a traversal, and a write that returns one
record. Each submits one traversal: the base, narrowed by the filter, followed by
the selection of what to return.
-/

namespace GraphGateway

/-- Identifier, label and properties of every element. -/
def recordSelection : Selection := fun t =>
  t.extend [.valueMap true [], .modulator .shape (.anonymous [.unfold])]

structure ListPipeline where
  base : Base
  filter : Narrowing
  selection : Selection := recordSelection
  paginate : Bool := true

/-- The parts of a single record; without a filter the input is not looked at. -/
structure SinglePipeline where
  base : Base
  filter : Option Narrowing := none
  selection : Selection := recordSelection

structure CalculatedPipeline where
  base : Base

structure MutationPipeline where
  base : Base
  selection : Selection := recordSelection

/-! ## Pages -/

/-- A 64-bit word as a signed integer, the greatest one when it is beyond it. -/
def saturate (n : UInt64) : Int64 :=
  if n.toNat < Nat.pow 2 63 then Int64.ofNat n.toNat else Int64.ofInt Json.greatestInt

/-- One traversal for a page of records and the number of all records. -/
def paged (p : Pagination) (selected : Traversal) : Traversal :=
  let (first, last) := p.window
  selected.extend
    [.fold, .project ["data", "total"],
      .modulator .shape
        (.anonymous [.unfold, .range (saturate first) (saturate last), .fold]),
      .modulator .shape (.anonymous [.unfold, .count])]

/-- The records of a page, none when they are absent. -/
def pageRecords (projection : Record) : Except ShapeFault (List Json) :=
  match projection.get? (.name "data") with
  | none => .ok []
  | some (.list records) => .ok (records.map Value.formatted)
  | some other => .error (.notRecords other.typeName)

/-- The number of all records, zero when it is absent. -/
def pageTotal (projection : Record) : Except ShapeFault UInt64 :=
  match projection.get? (.name "total") with
  | none => .ok 0
  | some (.int n) =>
      if 0 ≤ n.toInt then .ok (UInt64.ofNat n.toInt.toNat) else .error (.notACount "int")
  | some other => .error (.notACount other.typeName)

def readPage (p : Pagination) (results : List Value) : Except ShapeFault Json :=
  match results.head? with
  | none => .error .noProjection
  | some (.map projection) => do
      let records ← pageRecords projection
      let total ← pageTotal projection
      .ok (p.result records total)
  | some other => .error (.notAProjection other.typeName)

/-! ## Pipelines -/

namespace ListPipeline

def selected (r : ListPipeline) (i : Invocation) (fresh : ElementId) (input : Fields) :
    Except ResolverError Traversal := do
  let base ← r.base i fresh
  let filtered ← (r.filter base input).mapError .filter
  .ok (r.selection filtered)

/-- The page asked for, which is checked in any case, and the traversal to submit. -/
def plan (r : ListPipeline) (i : Invocation) (fresh : ElementId) :
    Except ResolverError (Pagination × Traversal) := do
  let input ← i.filterInput.mapError .argument
  let pagination ← i.pagination.mapError .argument
  let selected ← r.selected i fresh input
  .ok (pagination, if r.paginate then paged pagination selected else selected)

def read (r : ListPipeline) (pagination : Pagination) (results : List Value) :
    Except ResolverError Json :=
  if r.paginate then (readPage pagination results).mapError .unexpectedShape
  else .ok (.array (results.map Value.formatted))

def resolve (r : ListPipeline) : Resolver := fun i fresh =>
  .ofPlan (r.plan i fresh) r.read

end ListPipeline

def firstOf (t : Traversal) : Traversal :=
  t.step (.limit 1)

namespace SinglePipeline

def narrowed (r : SinglePipeline) (i : Invocation) (fresh : ElementId) :
    Except ResolverError Traversal := do
  let base ← r.base i fresh
  match r.filter with
  | none => .ok base
  | some narrow => do
      let input ← i.filterInput.mapError .argument
      (narrow base input).mapError .filter

/-- The resolver of a single record, `null` when there is none. -/
def resolve (r : SinglePipeline) : Resolver := fun i fresh =>
  .ofPlan ((r.narrowed i fresh).map fun t => ((), firstOf (r.selection t))) fun _ results =>
    .ok ((results.head?.map Value.formatted).getD .null)

end SinglePipeline

namespace CalculatedPipeline

def resolve (r : CalculatedPipeline) : Resolver := fun i fresh =>
  .ofPlan ((r.base i fresh).map fun t => ((), firstOf t)) fun _ results =>
    match results.head? with
    | some v => .ok v.toJson
    | none => .error (.noResult i.key)

end CalculatedPipeline

namespace MutationPipeline

def resolve (r : MutationPipeline) : Resolver := fun i fresh =>
  .ofPlan ((r.base i fresh).map fun t => ((), firstOf (r.selection t))) fun _ results =>
    match results.head? with
    | some v => .ok v.formatted
    | none => .error (.notFound i.key)

end MutationPipeline

end GraphGateway
