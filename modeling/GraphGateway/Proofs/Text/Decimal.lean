import GraphGateway.Text.Blank
import GraphGateway.Text.Decimal

/-!
# Reading decimal digits back

The digits of a number stand for the number, and a run of digits ends where
something else begins.
-/

namespace GraphGateway

namespace Text

theorem isDigit_iff (c : Char) : isDigit c = true ↔ c.isDigit = true := by
  have hle : ('0' ≤ c ∧ c ≤ '9') ↔ c.isDigit = true := by
    simp only [Char.isDigit, Bool.and_eq_true, decide_eq_true_eq]
    exact Iff.rfl
  unfold isDigit digit?
  split
  next h => simp [hle.mp h]
  next h =>
      have hnot : ¬ c.isDigit = true := fun hc => h (hle.mpr hc)
      simp [hnot]

theorem digit?_of_isDigit {c : Char} (h : c.isDigit = true) : digit? c = some (c.toNat - 48) := by
  have hsome := (isDigit_iff c).mpr h
  unfold isDigit digit? at hsome
  unfold digit?
  split
  next => rfl
  next hnot => simp [hnot] at hsome

theorem isDigit_of_mem_natural {n : Nat} {c : Char} (h : c ∈ natural n) : isDigit c = true :=
  (isDigit_iff c).mpr (Nat.isDigit_of_mem_toDigits (by decide) (by decide) h)

theorem natural_ne_nil (n : Nat) : natural n ≠ [] :=
  Nat.toDigits_ne_nil

theorem valueOf_eq_ofDigitChars {digits : List Char} (h : ∀ c ∈ digits, c.isDigit = true) :
    valueOf digits = Nat.ofDigitChars 10 digits 0 := by
  have hfold : ∀ start,
      digits.foldl (fun acc c => 10 * acc + (digit? c).getD 0) start =
        Nat.ofDigitChars 10 digits start := by
    induction digits with
    | nil =>
        intro start
        rfl
    | cons c rest ih =>
        intro start
        have hc := digit?_of_isDigit (h c List.mem_cons_self)
        have hrest := ih fun d hd => h d (List.mem_cons_of_mem c hd)
        rw [List.foldl_cons, hrest, hc]
        rfl
  exact hfold 0

theorem valueOf_natural (n : Nat) : valueOf (natural n) = n := by
  have hdigits : ∀ c ∈ natural n, c.isDigit = true :=
    fun c hc => Nat.isDigit_of_mem_toDigits (by decide) (by decide) hc
  rw [valueOf_eq_ofDigitChars hdigits]
  exact Nat.ofDigitChars_ten_toDigits

/-! ## Digits with zeros in front -/

theorem isDigit_of_mem_padded {width n : Nat} {c : Char} (h : c ∈ padded width n) :
    isDigit c = true := by
  rcases List.mem_append.mp h with hzero | hdigit
  · rw [List.eq_of_mem_replicate hzero]
    rfl
  · exact isDigit_of_mem_natural hdigit

/-- Zeros in front do not change the number. -/
theorem valueOf_padded (width n : Nat) : valueOf (padded width n) = n := by
  have hdigits : ∀ c ∈ padded width n, c.isDigit = true :=
    fun c hc => (isDigit_iff c).mp (isDigit_of_mem_padded hc)
  rw [valueOf_eq_ofDigitChars hdigits, padded, Nat.ofDigitChars_append,
    Nat.ofDigitChars_replicate_zero, Nat.mul_zero]
  exact Nat.ofDigitChars_ten_toDigits

/-- A number that is short enough fills the width exactly. -/
theorem length_padded {width n : Nat} (hpos : 0 < width) (h : n < Nat.pow 10 width) :
    (padded width n).length = width := by
  have hle : (natural n).length ≤ width := (Nat.length_toDigits_le_iff (by decide) hpos).mpr h
  rw [padded, List.length_append, List.length_replicate]
  omega

theorem padded_eq_cons (width n : Nat) :
    ∃ c rest, padded width n = c :: rest ∧ isDigit c = true := by
  cases hdigits : padded width n with
  | nil => exact (natural_ne_nil n (List.append_eq_nil_iff.mp hdigits).2).elim
  | cons c rest =>
      have hmem : c ∈ padded width n := by simp [hdigits]
      exact ⟨c, rest, rfl, isDigit_of_mem_padded hmem⟩

theorem isEmpty_padded (width n : Nat) : (padded width n).isEmpty = false := by
  obtain ⟨c, rest, hdigits, -⟩ := padded_eq_cons width n
  rw [hdigits]
  rfl

/-! ## Different numbers -/

theorem natural_injective : Function.Injective natural := by
  intro m n h
  rw [← valueOf_natural m, h, valueOf_natural]

theorem dash_not_mem_natural (n : Nat) : '-' ∉ natural n := by
  intro hm
  have hdigit := isDigit_of_mem_natural hm
  revert hdigit
  decide

theorem whole_injective : Function.Injective whole := by
  have hsign : ∀ m n, natural m ≠ '-' :: natural n := by
    intro m n h
    refine dash_not_mem_natural m ?_
    rw [h]
    exact List.mem_cons_self
  intro a b h
  cases a with
  | ofNat m =>
      cases b with
      | ofNat n => exact congrArg Int.ofNat (natural_injective h)
      | negSucc n => exact (hsign m (n + 1) h).elim
  | negSucc m =>
      cases b with
      | ofNat n => exact (hsign n (m + 1) h.symm).elim
      | negSucc n =>
          have hnatural : m + 1 = n + 1 := natural_injective (List.cons.inj h).2
          rw [Nat.succ.inj hnatural]

theorem wholeText_injective : Function.Injective wholeText := by
  intro a b h
  exact whole_injective (String.ofList_injective h)

/-- A sign stands in front only. -/
theorem dash_not_mem_tail_whole (n : Int) : '-' ∉ (whole n).tail := by
  cases n with
  | ofNat n => exact fun hm => dash_not_mem_natural n (List.mem_of_mem_tail hm)
  | negSucc n => exact dash_not_mem_natural (n + 1)

/-! ## Runs of digits -/

/-- A run of digits ends in front of anything else. -/
theorem spanDigits_append {digits rest : List Char} (h : ∀ c ∈ digits, isDigit c = true)
    (hrest : ∀ c, rest.head? = some c → isDigit c = false) :
    spanDigits (digits ++ rest) = (digits, rest) := by
  have hstop : rest.takeWhile isDigit = [] ∧ rest.dropWhile isDigit = rest := by
    cases rest with
    | nil => exact ⟨rfl, rfl⟩
    | cons c others =>
        have hc := hrest c rfl
        simp [hc]
  unfold spanDigits
  rw [List.takeWhile_append_of_pos h, List.dropWhile_append_of_pos h, hstop.1, hstop.2,
    List.append_nil]

theorem spanDigits_padded (width n : Nat) {rest : List Char}
    (hrest : ∀ c, rest.head? = some c → isDigit c = false) :
    spanDigits (padded width n ++ rest) = (padded width n, rest) :=
  spanDigits_append (fun _ hc => isDigit_of_mem_padded hc) hrest

theorem spanDigits_padded_nil (width n : Nat) :
    spanDigits (padded width n) = (padded width n, []) := by
  have hend : ∀ c, ([] : List Char).head? = some c → isDigit c = false := by simp
  have hspan := spanDigits_padded width n hend
  rwa [List.append_nil] at hspan

theorem not_isBlank_of_isDigit {c : Char} (h : isDigit c = true) : isBlank c = false := by
  have hrange : 48 ≤ c.toNat ∧ c.toNat ≤ 57 := by
    unfold isDigit digit? at h
    split at h
    next hc => exact hc
    next => cases h
  simp only [isBlank, blankRanges, List.any_cons, List.any_nil, Bool.or_false, Bool.or_eq_false_iff,
    Bool.and_eq_false_iff, decide_eq_false_iff_not]
  omega

/-- There is nothing to skip in front of a number. -/
theorem skipBlanks_padded (width n : Nat) (rest : List Char) :
    skipBlanks (padded width n ++ rest) = padded width n ++ rest := by
  obtain ⟨c, others, hdigits, hdigit⟩ := padded_eq_cons width n
  simp [hdigits, skipBlanks, not_isBlank_of_isDigit hdigit]

end Text

end GraphGateway
