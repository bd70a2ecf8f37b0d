import GraphGateway.Json.Typed

/-!
# Whole numbers in JSON

A whole number is one of 64 bits exactly if it survives being turned into such a
word. Every word is written as a number that fits and is read back as itself.
-/

namespace GraphGateway

namespace Json

theorem fitsInt64_iff (n : Int) : fitsInt64 n = true ↔ (Int64.ofInt n).toInt = n := by
  have hleast : leastInt = -2 ^ 63 := rfl
  have hgreatest : greatestInt = 2 ^ 63 - 1 := rfl
  rw [fitsInt64, Bool.and_eq_true, decide_eq_true_iff, decide_eq_true_iff, hleast, hgreatest]
  constructor
  · intro h
    exact Int64.toInt_ofInt_of_le h.1 (by omega)
  · intro h
    have hlow := Int64.minValue_le_toInt (Int64.ofInt n)
    have hhigh := Int64.toInt_le (Int64.ofInt n)
    rw [h] at hlow hhigh
    exact ⟨hlow, hhigh⟩

theorem fitsInt64_toInt (n : Int64) : fitsInt64 n.toInt = true := by
  rw [fitsInt64_iff, Int64.ofInt_toInt]

theorem ofInt64_inj {m n : Int64} : ofInt64 m = ofInt64 n ↔ m = n := by
  rw [ofInt64, ofInt64, int.injEq, Int64.toInt_inj]

theorem asInt64?_ofInt64 (n : Int64) : (ofInt64 n).asInt64? = some n := by
  simp [ofInt64, asInt64?, fitsInt64_toInt]

theorem asInt64?_of_bounds {n : Int} (hlow : leastInt ≤ n) (hhigh : n ≤ greatestInt) :
    ∃ word : Int64, (int n).asInt64? = some word ∧ word.toInt = n := by
  have hfits : fitsInt64 n = true := by
    rw [fitsInt64, Bool.and_eq_true]
    exact ⟨decide_eq_true hlow, decide_eq_true hhigh⟩
  exact ⟨Int64.ofInt n, by simp [asInt64?, hfits], (fitsInt64_iff n).mp hfits⟩

/-- Exactly the numbers of 64 bits are read as such. -/
theorem readInt64_eq_ok (value : Json) (n : Int64) :
    readInt64 value = .ok n ↔ value = .ofInt64 n := by
  cases value with
  | int m =>
      have hfits := fitsInt64_iff m
      by_cases hm : fitsInt64 m = true
      · have hword := hfits.mp hm
        simp only [readInt64, hm, if_true, Except.ok.injEq, ofInt64, int.injEq]
        constructor
        · intro h
          rw [← h, hword]
        · intro h
          rw [h, Int64.ofInt_toInt]
      · simp only [readInt64, hm, ofInt64, int.injEq, Bool.false_eq_true, if_false, reduceCtorEq,
          false_iff]
        intro h
        rw [h, fitsInt64_toInt] at hm
        exact hm rfl
  | _ => simp [readInt64, ofInt64]

end Json

end GraphGateway
