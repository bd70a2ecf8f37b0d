import GraphGateway.Resolver.Pipeline
import GraphGateway.Proofs.Except
import GraphGateway.Proofs.Invocation.Window

/-!
# Pages that can be asked for

A choice of a page is either refused as such or leads to numbers with which no
computation goes wrong: the window of the page and the number of pages come out
of arithmetic on words as they come out of arithmetic on numbers, and clamping
the ends of a window to signed words moves no position that a list can have.
-/

namespace GraphGateway

theorem Json.asNat?_eq_some {value : Json} {n : Nat} :
    value.asNat? = some n ↔ value = .int n := by
  cases value with
  | int m =>
      by_cases h : 0 ≤ m
      · simp only [asNat?, h, if_true, Option.some.injEq, int.injEq]
        omega
      · simp only [asNat?, h, if_false, reduceCtorEq, int.injEq, false_iff]
        omega
  | _ => simp [asNat?]

namespace Pagination

/-! ## Asking for a page -/

/-- The number that a field asks for: a whole one of 32 bits that is not zero, or the standard one
when nothing is given. -/
inductive Numbered (standard : UInt32) : Option Json → UInt32 → Prop
  | absent : Numbered standard none standard
  | null : Numbered standard (some .null) standard
  | given (n : Nat) : 1 ≤ n → n ≤ 2 ^ 32 - 1 → Numbered standard (some (.int n)) (UInt32.ofNat n)

/-- The page and the number of elements per page that an argument asks for. -/
inductive Chosen : Option Json → UInt32 → UInt32 → Prop
  | absent : Chosen none 1 10
  | null : Chosen (some .null) 1 10
  | object {fields : Fields} {page perPage : UInt32} : Numbered 1 (fields.get? "page") page →
      Numbered 10 (fields.get? "per_page") perPage → Chosen (some (.object fields)) page perPage

theorem Numbered.ne_zero {standard : UInt32} (hstandard : standard ≠ 0) {found : Option Json}
    {n : UInt32} (h : Numbered standard found n) : n ≠ 0 := by
  cases h with
  | absent => exact hstandard
  | null => exact hstandard
  | given m hlow hhigh =>
      intro hzero
      have hword : (UInt32.ofNat m).toNat = m := UInt32.toNat_ofNat_of_lt' (by
        have hsize : UInt32.size = 2 ^ 32 := rfl
        omega)
      rw [hzero] at hword
      exact absurd hword.symm (by simp; omega)

theorem Numbered.le_of_int {standard : UInt32} {found : Option Json} {n : UInt32} {m : Int}
    (h : Numbered standard found n) (hm : found = some (.int m)) : 1 ≤ m ∧ m ≤ 2 ^ 32 - 1 := by
  cases h with
  | absent => cases hm
  | null => cases hm
  | given k hlow hhigh =>
      obtain rfl := Json.int.inj (Option.some.inj hm)
      omega

theorem Chosen.ne_zero {found : Option Json} {page perPage : UInt32}
    (h : Chosen found page perPage) : page ≠ 0 ∧ perPage ≠ 0 := by
  cases h with
  | absent => decide
  | null => decide
  | object hpage hperPage => exact ⟨hpage.ne_zero (by decide), hperPage.ne_zero (by decide)⟩

theorem positiveField_eq_ok {fields : Fields} {name : String} {standard n : UInt32} :
    positiveField fields name standard = .ok n ↔ Numbered standard (fields.get? name) n := by
  have hsize : UInt32.size = 2 ^ 32 := rfl
  unfold positiveField
  constructor
  · intro h
    split at h
    next hfound =>
        cases h
        rw [hfound]
        exact .absent
    next hfound =>
        cases h
        rw [hfound]
        exact .null
    next value _ hfound =>
        rw [hfound]
        split at h
        next m hm =>
            split at h
            next hbounds =>
                cases h
                rw [Json.asNat?_eq_some.mp hm]
                exact .given m hbounds.1 (by omega)
            next => cases h
        next => cases h
  · intro h
    cases hfound : fields.get? name with
    | none =>
        rw [hfound] at h
        cases h
        rfl
    | some value =>
        rw [hfound] at h
        cases h with
        | null => rfl
        | given m hlow hhigh =>
            have hm : (Json.int m).asNat? = some m := Json.asNat?_eq_some.mpr rfl
            simp only [hm]
            rw [if_pos ⟨hlow, by omega⟩]

theorem read_object_eq_ok {fields : Fields} {p : Pagination} :
    read (.object fields) = .ok p ↔
      Numbered 1 (fields.get? "page") p.page ∧
        Numbered 10 (fields.get? "per_page") p.perPage := by
  have hread : read (.object fields) =
      positiveField fields "page" 1 >>= fun page =>
        positiveField fields "per_page" 10 >>= ofNumbers page := rfl
  rw [hread]
  simp only [Except.bind_eq_ok, positiveField_eq_ok]
  constructor
  · rintro ⟨page, hpage, perPage, hperPage, h⟩
    unfold ofNumbers at h
    split at h
    · cases h
      exact ⟨hpage, hperPage⟩
    · cases h
  · rintro ⟨hpage, hperPage⟩
    refine ⟨_, hpage, _, hperPage, ?_⟩
    rw [ofNumbers, dif_pos ⟨p.page_ne, p.perPage_ne⟩]

theorem positiveField_error {fields : Fields} {name : String} {standard : UInt32}
    {e : ArgumentError} (h : positiveField fields name standard = .error e) :
    e.isPagination = true := by
  unfold positiveField at h
  split at h
  · cases h
  · cases h
  · split at h
    · split at h
      · cases h
      · cases h
        rfl
    · cases h
      rfl

theorem ofNumbers_error {page perPage : UInt32} {e : ArgumentError}
    (h : ofNumbers page perPage = .error e) : e.isPagination = true := by
  unfold ofNumbers at h
  split at h
  · cases h
  · cases h
    rfl

theorem read_error {value : Json} {e : ArgumentError} (h : read value = .error e) :
    e.isPagination = true := by
  cases value with
  | object fields =>
      rcases Except.bind_eq_error.mp h with hpage | ⟨page, -, h⟩
      · exact positiveField_error hpage
      · rcases Except.bind_eq_error.mp h with hperPage | ⟨perPage, -, h⟩
        · exact positiveField_error hperPage
        · exact ofNumbers_error h
  | _ =>
      cases h
      rfl

end Pagination

namespace Invocation

open Pagination (Chosen)

variable {i : Invocation}

/-- Whatever is wrong with the choice of a page is an error of pagination. -/
theorem pagination_error {e : ArgumentError} (h : i.pagination = .error e) :
    e.isPagination = true := by
  unfold pagination at h
  split at h
  · cases h
  · cases h
  · exact Pagination.read_error h

theorem pagination_eq_ok {p : Pagination} :
    i.pagination = .ok p ↔ Chosen (i.arguments.get? "pagination") p.page p.perPage := by
  obtain ⟨page, perPage, hpage, hperPage⟩ := p
  unfold pagination
  cases i.arguments.get? "pagination" with
  | none =>
      constructor
      · intro h
        cases h
        exact .absent
      · intro h
        cases h
        rfl
  | some value =>
      cases value with
      | null =>
          constructor
          · intro h
            cases h
            exact .null
          · intro h
            cases h
            rfl
      | object fields =>
          show Pagination.read (.object fields) = _ ↔ _
          rw [Pagination.read_object_eq_ok]
          constructor
          · exact fun h => .object h.1 h.2
          · intro h
            cases h with
            | object hpage hperPage => exact ⟨hpage, hperPage⟩
      | _ =>
          constructor
          · intro h
            cases h
          · intro h
            cases h

end Invocation

/-! ## Words that do not overflow -/

namespace Checked

/-- The difference of two words, unless it is negative. -/
def sub? (a b : UInt64) : Option UInt64 :=
  if b.toNat ≤ a.toNat then some (a - b) else none

def add? (a b : UInt64) : Option UInt64 :=
  if a.toNat + b.toNat < 2 ^ 64 then some (a + b) else none

def mul? (a b : UInt64) : Option UInt64 :=
  if a.toNat * b.toNat < 2 ^ 64 then some (a * b) else none

def divMod? (a b : UInt64) : Option (UInt64 × UInt64) :=
  if b.toNat = 0 then none else some (a / b, a % b)

variable {a b : UInt64}

theorem sub?_of_le (h : b.toNat ≤ a.toNat) : sub? a b = some (a - b) :=
  if_pos h

theorem add?_of_lt (h : a.toNat + b.toNat < 2 ^ 64) : add? a b = some (a + b) :=
  if_pos h

theorem mul?_of_lt (h : a.toNat * b.toNat < 2 ^ 64) : mul? a b = some (a * b) :=
  if_pos h

theorem divMod?_of_pos (h : 0 < b.toNat) : divMod? a b = some (a / b, a % b) :=
  if_neg (by omega)

end Checked

namespace Pagination

variable (p : Pagination)

/-- The window of the page by operations that fail where they would go wrong. -/
def window? : Option (UInt64 × UInt64) :=
  (Checked.sub? p.page.toUInt64 1).bind fun before =>
    (Checked.mul? before p.perPage.toUInt64).bind fun first =>
      (Checked.mul? p.page.toUInt64 p.perPage.toUInt64).map fun last => (first, last)

def totalPages? (matching : UInt64) : Option UInt64 :=
  (Checked.divMod? matching p.perPage.toUInt64).bind fun (full, left) =>
    if left = 0 then some full else Checked.add? full 1

theorem window?_eq : p.window? = some p.window := by
  have hpage := p.page_pos
  have hlt := p.page.toNat_lt
  have hone : (1 : UInt64).toNat = 1 := rfl
  have hle : (1 : UInt64).toNat ≤ p.page.toUInt64.toNat := by
    rwa [hone, UInt32.toNat_toUInt64]
  have hfirst : (p.page.toUInt64 - 1).toNat * p.perPage.toUInt64.toNat < 2 ^ 64 := by
    rw [UInt64.toNat_sub_of_le _ _ hle, UInt32.toNat_toUInt64, UInt32.toNat_toUInt64, hone]
    exact p.mul_perPage_lt (by omega)
  have hlast : p.page.toUInt64.toNat * p.perPage.toUInt64.toNat < 2 ^ 64 := by
    rw [UInt32.toNat_toUInt64, UInt32.toNat_toUInt64]
    exact p.mul_perPage_lt hlt
  rw [window?, Checked.sub?_of_le hle, Option.bind_some, Checked.mul?_of_lt hfirst,
    Option.bind_some, Checked.mul?_of_lt hlast]
  rfl

theorem totalPages?_eq (matching : UInt64) :
    p.totalPages? matching = some (p.totalPages matching) := by
  have hpos : 0 < p.perPage.toUInt64.toNat := by
    rw [UInt32.toNat_toUInt64]
    exact p.perPage_pos
  rw [totalPages?, Checked.divMod?_of_pos hpos, Option.bind_some]
  unfold totalPages
  simp only
  split
  next => rfl
  next hrest =>
      have hleft : matching.toNat % p.perPage.toNat ≠ 0 := by
        intro hzero
        apply hrest
        rw [← UInt64.toNat_inj, UInt64.toNat_mod, UInt32.toNat_toUInt64, hzero]
        rfl
      refine Checked.add?_of_lt ?_
      rw [UInt64.toNat_div, UInt32.toNat_toUInt64]
      exact p.div_perPage_lt hleft

end Pagination

/-! ## Windows in signed words -/

theorem toInt_saturate (n : UInt64) : (saturate n).toInt = min (n.toNat : Int) (2 ^ 63 - 1) := by
  simp only [saturate, Nat.pow_eq]
  split
  next hlt =>
      rw [Int64.toInt_ofNat_of_lt hlt]
      omega
  next hge =>
      have hmax : (Int64.ofInt Json.greatestInt).toInt = 2 ^ 63 - 1 := by decide
      rw [hmax]
      omega

section Saturate

variable {first last : UInt64}

theorem saturate_le (h : first.toNat ≤ last.toNat) : saturate first ≤ saturate last := by
  rw [Int64.le_iff_toInt_le, toInt_saturate, toInt_saturate]
  omega

/-- Below the greatest signed word a clamped window holds the positions that it held before. -/
theorem mem_saturate {k : Nat} (hk : k < 2 ^ 63 - 1) :
    (saturate first).toInt ≤ k ∧ k < (saturate last).toInt ↔
      first.toNat ≤ k ∧ k < last.toNat := by
  rw [toInt_saturate, toInt_saturate]
  omega

end Saturate

/-! ## The arithmetic of pages -/

namespace Pagination

/-- Nothing goes wrong when the window of a page and the number of pages are computed, and both
are what they are for numbers that know no bounds. -/
structure FitsWords (p : Pagination) : Prop where
  window : p.window? = some p.window
  totalPages : ∀ matching, p.totalPages? matching = some (p.totalPages matching)
  width : p.window.2.toNat = p.window.1.toNat + p.perPage.toNat
  next : ∀ q : Pagination, q.page.toNat = p.page.toNat + 1 → q.perPage = p.perPage →
    q.window.1 = p.window.2
  covers : ∀ matching : UInt64, 0 < matching →
    ((p.totalPages matching).toNat - 1) * p.perPage.toNat < matching.toNat ∧
      matching.toNat ≤ (p.totalPages matching).toNat * p.perPage.toNat
  clamped_le : saturate p.window.1 ≤ saturate p.window.2
  clamped_mem : ∀ k : Nat, k < 2 ^ 63 - 1 →
    ((saturate p.window.1).toInt ≤ k ∧ k < (saturate p.window.2).toInt ↔
      p.window.1.toNat ≤ k ∧ k < p.window.2.toNat)

theorem fitsWords (p : Pagination) : p.FitsWords := by
  have hpos := p.perPage_pos
  have hpage := p.page_pos
  have hwidth : p.window.2.toNat = p.window.1.toNat + p.perPage.toNat := by
    rw [p.window_fst_toNat, p.window_snd_toNat, ← Nat.succ_mul]
    congr 1
    omega
  exact
    { window := p.window?_eq
      totalPages := p.totalPages?_eq
      width := hwidth
      next := by
        intro q hq hper
        rw [← UInt64.toNat_inj, q.window_fst_toNat, p.window_snd_toNat, hq, hper,
          Nat.add_sub_cancel]
      covers := by
        intro matching hmatching
        rw [p.totalPages_toNat]
        exact ⟨pageCount_pred_mul_lt hpos hmatching, le_pageCount_mul hpos _⟩
      clamped_le := saturate_le (by omega)
      clamped_mem := fun k hk => mem_saturate hk }

end Pagination

namespace Invocation

open Pagination (Chosen)

/-- A page can be asked for by numbers of 32 bits that are not zero, everything else is refused as
a choice of a page, and with a page that can be asked for the arithmetic is exact. -/
theorem pagination_fitsWords (i : Invocation) :
    (∀ page perPage, Chosen (i.arguments.get? "pagination") page perPage ↔
      ∃ p, i.pagination = .ok p ∧ p.page = page ∧ p.perPage = perPage) ∧
    ((¬ ∃ page perPage, Chosen (i.arguments.get? "pagination") page perPage) →
      ∃ e, i.pagination = .error e ∧ e.isPagination = true) ∧
    ∀ p, i.pagination = .ok p → p.FitsWords := by
  refine ⟨fun page perPage => ?_, fun hnone => ?_, fun p _ => p.fitsWords⟩
  · constructor
    · intro h
      have hne := h.ne_zero
      exact ⟨⟨page, perPage, hne.1, hne.2⟩, pagination_eq_ok.mpr h, rfl, rfl⟩
    · rintro ⟨p, hp, rfl, rfl⟩
      exact pagination_eq_ok.mp hp
  · cases h : i.pagination with
    | ok p => exact (hnone ⟨_, _, pagination_eq_ok.mp h⟩).elim
    | error e => exact ⟨e, rfl, pagination_error h⟩

def choosing (page : Json) : Invocation :=
  ⟨"Query", "users", .ofList [("pagination", page)], none, none⟩

/-- The last page of the greatest size can be asked for, and the one after it cannot. -/
theorem pagination_fitsWords_last :
    (∃ p,
      (choosing (.ofFields [("page", .int 4294967295), ("per_page", .int 4294967295)])).pagination
        = .ok p ∧ p.page = 4294967295 ∧ p.perPage = 4294967295 ∧ p.FitsWords) ∧
      ∃ e, (choosing (.ofFields [("page", .int 4294967296)])).pagination = .error e ∧
        e.isPagination = true := by
  constructor
  · have hlast := pagination_fitsWords
      (choosing (.ofFields [("page", .int 4294967295), ("per_page", .int 4294967295)]))
    have hnumber : Pagination.Numbered 1 (some (.int 4294967295)) 4294967295 :=
      .given 4294967295 (by decide) (by decide)
    have hsize : Pagination.Numbered 10 (some (.int 4294967295)) 4294967295 :=
      .given 4294967295 (by decide) (by decide)
    obtain ⟨p, hp, hpage, hperPage⟩ := (hlast.1 _ _).mp (.object hnumber hsize)
    exact ⟨p, hp, hpage, hperPage, hlast.2.2 p hp⟩
  · refine (pagination_fitsWords (choosing (.ofFields [("page", .int 4294967296)]))).2.1 ?_
    rintro ⟨page, perPage, h⟩
    have hfound : (choosing (.ofFields [("page", .int 4294967296)])).arguments.get? "pagination" =
        some (.ofFields [("page", .int 4294967296)]) := rfl
    rw [hfound] at h
    cases h with
    | object hpage =>
        have hbounds := hpage.le_of_int rfl
        omega

end Invocation

end GraphGateway
