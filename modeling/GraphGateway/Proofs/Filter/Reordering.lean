import Mathlib.Data.List.Forall2
import GraphGateway.Json

/-!
# Reordered documents

Documents that are equal up to the order of fields, to any depth. A reader that
takes bindings one by one cannot tell such documents apart: something holds of
every binding of one exactly if it does of the other, and lists that are read off
the bindings are permuted with them.
-/

namespace GraphGateway

/-! ## Rearranged bindings -/

/-- The same keys in some order, with related values. -/
def Rearranged {α : Type} (R : α → α → Prop) (a b : List (String × α)) : Prop :=
  ∃ c, List.Forall₂ (fun x y => x.1 = y.1 ∧ R x.2 y.2) a c ∧ c.Perm b

namespace Rearranged

variable {α β : Type} {R : α → α → Prop} {a b : List (String × α)}

theorem of_perm (hR : ∀ v, R v v) (h : a.Perm b) : Rearranged R a b :=
  ⟨a, List.forall₂_same.mpr fun x _ => ⟨rfl, hR x.2⟩, h⟩

theorem swap {x y x' y' : String × α} (hx : x.1 = x'.1 ∧ R x.2 x'.2)
    (hy : y.1 = y'.1 ∧ R y.2 y'.2) : Rearranged R [x, y] [y', x'] :=
  ⟨[x', y'], .cons hx (.cons hy .nil), .swap y' x' []⟩

theorem perm (h : Rearranged Eq a b) : a.Perm b := by
  obtain ⟨c, hrelated, hperm⟩ := h
  have heq : a = c := List.forall₂_eq_eq_eq ▸ hrelated.imp fun x y hxy => Prod.ext hxy.1 hxy.2
  exact heq ▸ hperm

/-- A property that related values share holds of all bindings on both sides or on neither. -/
theorem forall_iff {P : String × α → Prop}
    (hP : ∀ k v w, R v w → (P (k, v) ↔ P (k, w))) (h : Rearranged R a b) :
    (∀ x ∈ a, P x) ↔ ∀ x ∈ b, P x := by
  obtain ⟨c, hrelated, hperm⟩ := h
  have hboth : (∀ x ∈ a, P x) ↔ ∀ x ∈ c, P x := by
    clear hperm
    induction hrelated with
    | nil => simp
    | @cons x y a c hxy _ ih =>
        obtain ⟨k, v⟩ := x
        obtain ⟨other, w⟩ := y
        obtain ⟨rfl, hvw⟩ := hxy
        rw [List.forall_mem_cons, List.forall_mem_cons, ih, hP k v w hvw]
  rw [hboth]
  exact forall_congr' fun x => by rw [hperm.mem_iff]

/-- Lists that are read off the bindings one by one are permuted with them. -/
theorem flatMap_perm {f : String × α → List β}
    (hf : ∀ k v w, R v w → (f (k, v)).Perm (f (k, w))) (h : Rearranged R a b) :
    (a.flatMap f).Perm (b.flatMap f) := by
  obtain ⟨c, hrelated, hperm⟩ := h
  refine List.Perm.trans ?_ (hperm.flatMap_right f)
  clear hperm
  induction hrelated with
  | nil => rfl
  | @cons x y a c hxy _ ih =>
      obtain ⟨k, v⟩ := x
      obtain ⟨other, w⟩ := y
      obtain ⟨rfl, hvw⟩ := hxy
      rw [List.flatMap_cons, List.flatMap_cons]
      exact (hf k v w hvw).append ih

end Rearranged

namespace Json

/-- Documents whose fields and items are related by `R`, the fields in any order. -/
inductive Layer (R : Json → Json → Prop) : Json → Json → Prop where
  | same (v : Json) : Layer R v v
  | array {items others : List Json} :
      List.Forall₂ R items others → Layer R (.array items) (.array others)
  | object {fields others : Fields} :
      Rearranged R fields.entries others.entries → Layer R (.object fields) (.object others)

/-- Documents that are equal up to the order of fields in the given number of outermost levels. -/
def Reordered : Nat → Json → Json → Prop
  | 0 => Eq
  | levels + 1 => Layer (Reordered levels)

namespace Reordered

variable {levels : Nat} {v w : Json}

theorem refl : ∀ (levels : Nat) (v : Json), Reordered levels v v
  | 0, _ => rfl
  | _ + 1, v => .same v

theorem layer (h : Reordered levels v w) : Layer (Reordered (levels - 1)) v w := by
  cases levels with
  | zero => exact h ▸ .same v
  | succ levels => exact h

theorem entries {a b : Fields} (h : Reordered levels (.object a) (.object b)) :
    Rearranged (Reordered (levels - 1)) a.entries b.entries := by
  cases h.layer with
  | same => exact .of_perm (refl (levels - 1)) (.refl _)
  | object hfields => exact hfields

theorem isNull_eq (h : Reordered levels v w) : v.isNull = w.isNull := by
  cases h.layer <;> rfl

end Reordered

end Json

end GraphGateway
