import Mathlib.Algebra.Group.Nat.Defs
import Mathlib.Algebra.Ring.Int.Defs
import GraphGateway.Invocation.Pagination

/-!
# Windows of pages

The window of a page is computed in 64-bit words from numbers of 32 bits, so that
no product overflows. The windows of the pages of one size lie side by side, and
as many of them as there are pages cover a list.
-/

namespace GraphGateway

/-- The elements of a list on a page. -/
def pageOf {α : Type} (page perPage : Nat) (xs : List α) : List α :=
  (xs.take (page * perPage)).drop ((page - 1) * perPage)

def pageCount (perPage count : Nat) : Nat :=
  (count + perPage - 1) / perPage

section Lists

variable {α β : Type}

theorem map_pageOf (f : α → β) (page perPage : Nat) (xs : List α) :
    (pageOf page perPage xs).map f = pageOf page perPage (xs.map f) := by
  unfold pageOf
  rw [List.map_drop, List.map_take]

theorem take_append_pageOf (page perPage : Nat) (xs : List α) :
    xs.take (page * perPage) ++ pageOf (page + 1) perPage xs = xs.take ((page + 1) * perPage) := by
  have hle : page * perPage ≤ (page + 1) * perPage := Nat.mul_le_mul_right perPage (by omega)
  have hprefix : xs.take (page * perPage) =
      (xs.take ((page + 1) * perPage)).take (page * perPage) := by
    rw [List.take_take, Nat.min_eq_left hle]
  unfold pageOf
  rw [Nat.add_sub_cancel, hprefix]
  exact List.take_append_drop _ _

theorem flatMap_pageOf (pages perPage : Nat) (xs : List α) :
    (List.range pages).flatMap (fun k => pageOf (k + 1) perPage xs) =
      xs.take (pages * perPage) := by
  induction pages with
  | zero => simp
  | succ pages ih =>
      rw [List.range_succ, List.flatMap_append, ih, List.flatMap_singleton]
      exact take_append_pageOf pages perPage xs

end Lists

section Counts

variable {perPage : Nat}

theorem pageCount_eq (h : 0 < perPage) (count : Nat) :
    pageCount perPage count =
      if count % perPage = 0 then count / perPage else count / perPage + 1 := by
  have hsplit := Nat.div_add_mod count perPage
  have hlt := Nat.mod_lt count h
  unfold pageCount
  split
  next hzero =>
      have hsum : count + perPage - 1 = (perPage - 1) + perPage * (count / perPage) := by omega
      rw [hsum, Nat.add_mul_div_left _ _ h, Nat.div_eq_of_lt (by omega), Nat.zero_add]
  next hpos =>
      have hsum : count + perPage - 1 =
          (count % perPage - 1) + perPage * (count / perPage + 1) := by
        rw [Nat.mul_add, Nat.mul_one]
        omega
      rw [hsum, Nat.add_mul_div_left _ _ h, Nat.div_eq_of_lt (by omega), Nat.zero_add]

theorem le_pageCount_mul (h : 0 < perPage) (count : Nat) :
    count ≤ pageCount perPage count * perPage := by
  have hsplit := Nat.div_add_mod count perPage
  have hlt := Nat.mod_lt count h
  rw [pageCount_eq h]
  split
  next hzero =>
      rw [Nat.mul_comm]
      omega
  next hpos =>
      rw [Nat.add_mul, Nat.one_mul, Nat.mul_comm]
      omega

/-- One page less does not hold all elements. -/
theorem pageCount_pred_mul_lt (h : 0 < perPage) {count : Nat} (hcount : 0 < count) :
    (pageCount perPage count - 1) * perPage < count := by
  have hsplit := Nat.div_add_mod count perPage
  have hlt := Nat.mod_lt count h
  rw [pageCount_eq h, Nat.sub_mul, Nat.one_mul]
  split
  next hzero =>
      rw [Nat.mul_comm]
      omega
  next hpos =>
      rw [Nat.add_mul, Nat.one_mul, Nat.mul_comm]
      omega

theorem pageOf_eq_nil {α : Type} (h : 0 < perPage) {page : Nat} {xs : List α}
    (hpage : pageCount perPage xs.length < page) : pageOf page perPage xs = [] := by
  have hcover := le_pageCount_mul h xs.length
  have hbefore : pageCount perPage xs.length * perPage ≤ (page - 1) * perPage :=
    Nat.mul_le_mul_right perPage (by omega)
  have hlength : (xs.take (page * perPage)).length ≤ xs.length := by
    rw [List.length_take]
    exact Nat.min_le_right _ _
  exact List.drop_eq_nil_of_le (by omega)

/-- The pages of a list make up the list. -/
theorem flatMap_pages {α : Type} (h : 0 < perPage) (xs : List α) :
    (List.range (pageCount perPage xs.length)).flatMap (fun k => pageOf (k + 1) perPage xs) =
      xs := by
  rw [flatMap_pageOf]
  exact List.take_of_length_le (le_pageCount_mul h xs.length)

end Counts

namespace Pagination

variable (p : Pagination)

theorem perPage_pos : 0 < p.perPage.toNat := by
  have hne : p.perPage.toNat ≠ 0 := fun h => p.perPage_ne (UInt32.toNat_inj.mp h)
  omega

theorem page_pos : 0 < p.page.toNat := by
  have hne : p.page.toNat ≠ 0 := fun h => p.page_ne (UInt32.toNat_inj.mp h)
  omega

theorem mul_perPage_lt {page : Nat} (h : page < 2 ^ 32) : page * p.perPage.toNat < 2 ^ 64 := by
  have hper : p.perPage.toNat < 2 ^ 32 := p.perPage.toNat_lt
  have hproduct : page * p.perPage.toNat ≤ (2 ^ 32 - 1) * (2 ^ 32 - 1) :=
    Nat.mul_le_mul (by omega) (by omega)
  omega

theorem window_fst_toNat : p.window.1.toNat = (p.page.toNat - 1) * p.perPage.toNat := by
  have hpage := p.page_pos
  have hlt := p.page.toNat_lt
  have hone : (1 : UInt64) ≤ p.page.toUInt64 := by
    rw [UInt64.le_iff_toNat_le, UInt32.toNat_toUInt64]
    exact hpage
  simp only [window]
  rw [UInt64.toNat_mul, UInt64.toNat_sub_of_le _ _ hone, UInt32.toNat_toUInt64,
    UInt32.toNat_toUInt64]
  exact Nat.mod_eq_of_lt (p.mul_perPage_lt (by simp; omega))

theorem window_snd_toNat : p.window.2.toNat = p.page.toNat * p.perPage.toNat := by
  simp only [window]
  rw [UInt64.toNat_mul, UInt32.toNat_toUInt64, UInt32.toNat_toUInt64]
  exact Nat.mod_eq_of_lt (p.mul_perPage_lt p.page.toNat_lt)

/-- A page that is not full leaves room for one more in a word. -/
theorem div_perPage_lt {matching : UInt64} (h : matching.toNat % p.perPage.toNat ≠ 0) :
    matching.toNat / p.perPage.toNat + 1 < 2 ^ 64 := by
  have hlt := matching.toNat_lt
  have hpos := p.perPage_pos
  -- all pages of one element are full
  have htwo : 2 ≤ p.perPage.toNat := by
    refine Decidable.byContradiction fun hless => h ?_
    have hone : p.perPage.toNat = 1 := by omega
    rw [hone, Nat.mod_one]
  have hhalf : matching.toNat / p.perPage.toNat ≤ matching.toNat / 2 :=
    Nat.div_le_div_left htwo (by decide)
  omega

theorem totalPages_toNat (matching : UInt64) :
    (p.totalPages matching).toNat = pageCount p.perPage.toNat matching.toNat := by
  have hzero : matching % p.perPage.toUInt64 = 0 ↔ matching.toNat % p.perPage.toNat = 0 := by
    rw [← UInt64.toNat_inj, UInt64.toNat_mod, UInt32.toNat_toUInt64]
    rfl
  rw [pageCount_eq p.perPage_pos, totalPages]
  simp only [hzero]
  split
  · rw [UInt64.toNat_div, UInt32.toNat_toUInt64]
  next hrest =>
      rw [UInt64.toNat_add, UInt64.toNat_div, UInt32.toNat_toUInt64]
      exact Nat.mod_eq_of_lt (p.div_perPage_lt hrest)

end Pagination

end GraphGateway
