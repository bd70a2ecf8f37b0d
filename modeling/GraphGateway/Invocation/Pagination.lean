import GraphGateway.Invocation

/-!
# Pagination

Pages are numbered from one and hold at least one element. A page is a
half-open window of positions, computed in 64-bit words.
-/

namespace GraphGateway

structure Pagination where
  page : UInt32
  perPage : UInt32
  page_ne : page ≠ 0
  perPage_ne : perPage ≠ 0

namespace Pagination

def standard : Pagination :=
  ⟨1, 10, by decide, by decide⟩

/-- The given page, unless a number is zero. -/
def ofNumbers (page perPage : UInt32) : Except ArgumentError Pagination :=
  if h : page ≠ 0 ∧ perPage ≠ 0 then .ok ⟨page, perPage, h.1, h.2⟩
  else .error (.zeroPage page perPage)

/-- Positions of the first element of the page and of the one after its last. -/
def window (p : Pagination) : UInt64 × UInt64 :=
  let page := p.page.toUInt64
  let perPage := p.perPage.toUInt64
  ((page - 1) * perPage, page * perPage)

def totalPages (p : Pagination) (matching : UInt64) : UInt64 :=
  let perPage := p.perPage.toUInt64
  let full := matching / perPage
  if matching % perPage = 0 then full else full + 1

/-- A positive whole number of 32 bits under a name, `standard` when absent or `null`. -/
def positiveField (fields : Fields) (name : String) (standard : UInt32) :
    Except ArgumentError UInt32 :=
  match fields.get? name with
  | none | some .null => .ok standard
  | some value =>
      match value.asNat? with
      | some n =>
          if 1 ≤ n ∧ n < UInt32.size then .ok (UInt32.ofNat n) else .error (.notPositive name value)
      | none => .error (.notPositive name value)

def read : Json → Except ArgumentError Pagination
  | .object fields => do
      let page ← positiveField fields "page" standard.page
      let perPage ← positiveField fields "per_page" standard.perPage
      ofNumbers page perPage
  | other => .error (.notAPage other)

def result (p : Pagination) (data : List Json) (matching : UInt64) : Json :=
  .ofFields [("data", .array data), ("page", .int p.page.toNat),
    ("per_page", .int p.perPage.toNat), ("total", .int (p.totalPages matching).toNat)]

end Pagination

def Invocation.pagination (i : Invocation) : Except ArgumentError Pagination :=
  match i.arguments.get? "pagination" with
  | none | some .null => .ok .standard
  | some value => Pagination.read value

end GraphGateway
