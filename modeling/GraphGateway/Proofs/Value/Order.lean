import GraphGateway.Predicate

/-!
# Coherence of equality and order

Without floating-point numbers the order of values and their loose equality are
coherent. Whole numbers, strings, moments and truth values are totally ordered,
each kind on its own; values are ordered equal only when they are the same; and
the relational predicates split what is comparable with a value into what is
less, equal and greater. Strings are ordered by their bytes, moments by seconds
and then nanoseconds, so that a leap second follows the second that it extends.
-/

namespace GraphGateway

namespace Timestamp

/-- An earlier second, or fewer nanoseconds of one second. -/
def Before (a b : Timestamp) : Prop :=
  a.seconds < b.seconds ∨ a.seconds = b.seconds ∧ a.nanos < b.nanos

theorem Before.trans {a b c : Timestamp} (h : a.Before b) (h' : b.Before c) : a.Before c := by
  unfold Before at *
  omega

theorem order_swap (a b : Timestamp) : b.order a = (a.order b).swap := by
  rw [order, order, Ordering.swap_then, Int.compare_swap, Nat.compare_swap]

theorem order_eq_lt {a b : Timestamp} : a.order b = .lt ↔ a.Before b := by
  simp [order, Before, Ordering.then_eq_lt, Int.compare_eq_lt, Nat.compare_eq_lt]

theorem order_eq_eq {a b : Timestamp} : a.order b = .eq ↔ a = b := by
  cases a
  cases b
  simp [order, Ordering.then_eq_eq]

theorem order_eq_gt {a b : Timestamp} : a.order b = .gt ↔ b.Before a := by
  rw [order_swap, Ordering.swap_eq_gt, order_eq_lt]

end Timestamp

namespace Value

/-! ## Values without floating-point numbers -/

mutual

/-- The value neither is nor contains a floating-point number. -/
def FloatFree : Value → Prop
  | .float _ => False
  | .list items => FloatFreeItems items
  | .map ⟨entries⟩ => FloatFreeEntries entries
  | _ => True

def FloatFreeItems : List Value → Prop
  | [] => True
  | item :: rest => FloatFree item ∧ FloatFreeItems rest

def FloatFreeEntries : List (Key × Value) → Prop
  | [] => True
  | (_, value) :: rest => FloatFree value ∧ FloatFreeEntries rest

end

/-! ## Equality -/

mutual

/-- Only floating-point numbers can be the same without being one, or differ from themselves. -/
theorem same_iff_eq : (x y : Value) → x.FloatFree → (x.same y = true ↔ x = y)
  | .null, y, _ | .bool _, y, _ | .int _, y, _ | .string _, y, _ | .date _, y, _
  | .uuid _, y, _ | .vertex _, y, _ | .edge _, y, _ | .token _, y, _ => by
      cases y <;> simp [same]
  | .float _, _, h => h.elim
  | .list items, y, h => by
      have hitems := fun others => sameItems_iff_eq items others h
      cases y <;> simp [same, hitems]
  | .map ⟨entries⟩, y, h => by
      have hentries := fun others => sameEntries_iff_eq entries others h
      cases y with
      | map m => cases m; simp [same, hentries]
      | _ => simp [same]

theorem sameItems_iff_eq :
    (items others : List Value) → FloatFreeItems items →
      (sameItems items others = true ↔ items = others)
  | [], others, _ => by cases others <;> simp [sameItems]
  | item :: rest, [], _ => by simp [sameItems]
  | item :: rest, other :: others, h => by
      simp [sameItems, same_iff_eq item other h.1, sameItems_iff_eq rest others h.2]

theorem sameEntries_iff_eq :
    (entries others : List (Key × Value)) → FloatFreeEntries entries →
      (sameEntries entries others = true ↔ entries = others)
  | [], others, _ => by cases others <;> simp [sameEntries]
  | entry :: rest, [], _ => by simp [sameEntries]
  | (key, value) :: rest, (other, found) :: others, h => by
      simp [sameEntries, same_iff_eq value found h.1, sameEntries_iff_eq rest others h.2,
        and_assoc]

end

/-- An identifier and the string that writes it. -/
inductive Spells : Value → Value → Prop where
  | uuid (u : Uuid) : Spells (.uuid u) (.string u.text)

theorem looseEq_iff {x y : Value} (hx : x.FloatFree) (hy : y.FloatFree) :
    x.looseEq y = true ↔ x = y ∨ Spells x y ∨ Spells y x := by
  unfold looseEq
  split
  next => exact hy.elim
  next => exact hx.elim
  next u s =>
      rw [decide_eq_true_iff]
      constructor
      · rintro rfl
        exact .inr (.inl (.uuid u))
      · rintro (h | h | h) <;> cases h
        rfl
  next s u =>
      rw [decide_eq_true_iff]
      constructor
      · rintro rfl
        exact .inr (.inr (.uuid u))
      · rintro (h | h | h) <;> cases h
        rfl
  next hleft hright =>
      rw [same_iff_eq x y hx]
      refine ⟨.inl, ?_⟩
      rintro (h | h | h)
      · exact h
      · cases h
        exact (hleft _ _ rfl rfl).elim
      · cases h
        exact (hright _ _ rfl rfl).elim

theorem looseEq_comm {x y : Value} (hx : x.FloatFree) (hy : y.FloatFree) :
    x.looseEq y = y.looseEq x := by
  rw [Bool.eq_iff_iff, looseEq_iff hx hy, looseEq_iff hy hx, eq_comm, or_comm (a := Spells x y)]

/-! ## Bytes -/

theorem utf8_inj {a b : String} : utf8 a = utf8 b ↔ a = b := by
  constructor
  · intro h
    exact String.toByteArray_inj.mp (ByteArray.ext (Array.ext' h))
  · rintro rfl
    rfl

theorem compareBytes_swap (as bs : List UInt8) :
    compareBytes bs as = (compareBytes as bs).swap := by
  induction as generalizing bs with
  | nil => cases bs <;> rfl
  | cons a as ih =>
      cases bs with
      | nil => rfl
      | cons b bs => rw [compareBytes, compareBytes, ih, Ordering.swap_then, Nat.compare_swap]

theorem compareBytes_eq_lt {as bs : List UInt8} : compareBytes as bs = .lt ↔ as < bs := by
  induction as generalizing bs with
  | nil => cases bs <;> simp [compareBytes]
  | cons a as ih =>
      cases bs with
      | nil => simp [compareBytes]
      | cons b bs =>
          simp [compareBytes, Ordering.then_eq_lt, Nat.compare_eq_lt, ih, List.cons_lt_cons_iff,
            UInt8.lt_iff_toNat_lt, UInt8.toNat_inj]

theorem compareBytes_eq_eq {as bs : List UInt8} : compareBytes as bs = .eq ↔ as = bs := by
  induction as generalizing bs with
  | nil => cases bs <;> simp [compareBytes]
  | cons a as ih =>
      cases bs with
      | nil => simp [compareBytes]
      | cons b bs => simp [compareBytes, Ordering.then_eq_eq, ih, UInt8.toNat_inj]

theorem compareBytes_eq_gt {as bs : List UInt8} : compareBytes as bs = .gt ↔ bs < as := by
  rw [compareBytes_swap, Ordering.swap_eq_gt, compareBytes_eq_lt]

/-! ## Order -/

/-- The kinds of values that are ordered. -/
def IsRanked : Value → Bool
  | .bool _ | .int _ | .string _ | .date _ => true
  | _ => false

/-- The strict order of each kind on its own. -/
inductive Precedes : Value → Value → Prop where
  | bool : Precedes (.bool false) (.bool true)
  | int {a b : Int64} (h : a < b) : Precedes (.int a) (.int b)
  | string {a b : String} (h : utf8 a < utf8 b) : Precedes (.string a) (.string b)
  | date {a b : Timestamp} (h : a.Before b) : Precedes (.date a) (.date b)

/-- How two values stand to each other. -/
def Stands (x y : Value) : Ordering → Prop
  | .lt => Precedes x y
  | .eq => x = y ∧ x.IsRanked = true
  | .gt => Precedes y x

theorem Precedes.trans {x y z : Value} (h : Precedes x y) (h' : Precedes y z) :
    Precedes x z := by
  cases h with
  | bool => cases h'
  | int hab =>
      cases h' with
      | int hbc => exact .int (Int64.lt_trans hab hbc)
  | string hab =>
      cases h' with
      | string hbc => exact .string (List.lt_trans hab hbc)
  | date hab =>
      cases h' with
      | date hbc => exact .date (hab.trans hbc)

theorem Precedes.comparable {x y : Value} (h : Precedes x y) :
    x.IsRanked = true ∧ y.IsRanked = true ∧ x.typeName = y.typeName := by
  cases h <;> exact ⟨rfl, rfl, rfl⟩

theorem Stands.comparable {x y : Value} {o : Ordering} (h : x.Stands y o) :
    x.IsRanked = true ∧ x.typeName = y.typeName := by
  cases o with
  | lt => exact ⟨(Precedes.comparable h).1, (Precedes.comparable h).2.2⟩
  | eq => exact ⟨h.2, congrArg typeName h.1⟩
  | gt => exact ⟨(Precedes.comparable h).2.1, (Precedes.comparable h).2.2.symm⟩

theorem stands_swap {x y : Value} (o : Ordering) : y.Stands x o ↔ x.Stands y o.swap := by
  cases o with
  | lt => rfl
  | eq =>
      constructor <;>
      · rintro ⟨rfl, h⟩
        exact ⟨rfl, h⟩
  | gt => rfl

/-- A comparison tells how two values stand to each other when it does so in each of its cases. -/
theorem stands_iff {x y : Value} {c : Ordering} (hranked : x.IsRanked = true)
    (hlt : c = .lt ↔ Precedes x y) (heq : c = .eq ↔ x = y) (hgt : c = .gt ↔ Precedes y x)
    (o : Ordering) : c = o ↔ x.Stands y o := by
  cases o with
  | lt => exact hlt
  | eq => exact heq.trans (and_iff_left hranked).symm
  | gt => exact hgt

@[simp] theorem precedes_bool {a b : Bool} :
    Precedes (.bool a) (.bool b) ↔ a = false ∧ b = true := by
  constructor
  · rintro ⟨⟩
    exact ⟨rfl, rfl⟩
  · rintro ⟨rfl, rfl⟩
    exact .bool

@[simp] theorem precedes_int {a b : Int64} : Precedes (.int a) (.int b) ↔ a < b :=
  ⟨fun | .int h => h, .int⟩

@[simp] theorem precedes_string {a b : String} :
    Precedes (.string a) (.string b) ↔ utf8 a < utf8 b :=
  ⟨fun | .string h => h, .string⟩

@[simp] theorem precedes_date {a b : Timestamp} : Precedes (.date a) (.date b) ↔ a.Before b :=
  ⟨fun | .date h => h, .date⟩

theorem stands_bool (a b : Bool) (o : Ordering) :
    compare a.toNat b.toNat = o ↔ (bool a).Stands (.bool b) o := by
  refine stands_iff rfl ?_ ?_ ?_ o
  · rw [Nat.compare_eq_lt, precedes_bool]
    cases a <;> cases b <;> simp
  · rw [Nat.compare_eq_eq, bool.injEq]
    cases a <;> cases b <;> simp
  · rw [Nat.compare_eq_gt, precedes_bool]
    cases a <;> cases b <;> simp

theorem stands_int (a b : Int64) (o : Ordering) :
    compare a.toInt b.toInt = o ↔ (int a).Stands (.int b) o := by
  refine stands_iff rfl ?_ ?_ ?_ o
  · rw [Int.compare_eq_lt, precedes_int, Int64.lt_iff_toInt_lt]
  · rw [Int.compare_eq_eq, int.injEq, Int64.toInt_inj]
  · rw [Int.compare_eq_gt, precedes_int, Int64.lt_iff_toInt_lt]

theorem stands_string (a b : String) (o : Ordering) :
    compareBytes (utf8 a) (utf8 b) = o ↔ (string a).Stands (.string b) o := by
  refine stands_iff rfl ?_ ?_ ?_ o
  · rw [compareBytes_eq_lt, precedes_string]
  · rw [compareBytes_eq_eq, utf8_inj, string.injEq]
  · rw [compareBytes_eq_gt, precedes_string]

theorem stands_date (a b : Timestamp) (o : Ordering) :
    a.order b = o ↔ (date a).Stands (.date b) o := by
  refine stands_iff rfl ?_ ?_ ?_ o
  · rw [Timestamp.order_eq_lt, precedes_date]
  · rw [Timestamp.order_eq_eq, date.injEq]
  · rw [Timestamp.order_eq_gt, precedes_date]

/-! ### All kinds -/

theorem compare?_isSome {x y : Value} (hranked : x.IsRanked = true)
    (hkind : x.typeName = y.typeName) : (x.compare? y).isSome = true := by
  cases x <;> cases hranked <;> cases y <;> simp_all [typeName, compare?]

/-- A comparison of values tells how they stand to each other. -/
theorem compare?_eq_some_iff {x y : Value} (hx : x.FloatFree) (hy : y.FloatFree)
    (o : Ordering) : x.compare? y = some o ↔ x.Stands y o := by
  cases hcompare : x.compare? y with
  | none =>
      refine iff_of_false nofun fun h => ?_
      have hsome := compare?_isSome h.comparable.1 h.comparable.2
      simp [hcompare] at hsome
  | some c =>
      rw [Option.some_inj]
      unfold compare? at hcompare
      split at hcompare
      next a b => exact Option.some_inj.mp hcompare ▸ stands_int a b o
      next => exact hx.elim
      next => exact hy.elim
      next => exact hx.elim
      next a b => exact Option.some_inj.mp hcompare ▸ stands_string a b o
      next a b => exact Option.some_inj.mp hcompare ▸ stands_date a b o
      next a b => exact Option.some_inj.mp hcompare ▸ stands_bool a b o
      next => cases hcompare

theorem compare?_isSome_iff {x y : Value} (hx : x.FloatFree) (hy : y.FloatFree) :
    (x.compare? y).isSome = true ↔ x.IsRanked = true ∧ x.typeName = y.typeName := by
  constructor
  · intro h
    obtain ⟨o, ho⟩ := Option.isSome_iff_exists.mp h
    exact ((compare?_eq_some_iff hx hy o).mp ho).comparable
  · intro h
    exact compare?_isSome h.1 h.2

theorem compare?_swap {x y : Value} (hx : x.FloatFree) (hy : y.FloatFree) :
    y.compare? x = (x.compare? y).map Ordering.swap := by
  refine Option.ext fun o => ?_
  rw [compare?_eq_some_iff hy hx, stands_swap, ← compare?_eq_some_iff hx hy,
    Option.map_eq_some_iff]
  constructor
  · intro h
    exact ⟨o.swap, h, Ordering.swap_swap⟩
  · rintro ⟨c, hc, rfl⟩
    rwa [Ordering.swap_swap]

/-- Comparable values are ordered equal just when they are loosely equal: an identifier and the
string that writes it are of two kinds. -/
theorem compare?_eq_eq_iff {x y : Value} (hx : x.FloatFree) (hy : y.FloatFree) :
    x.compare? y = some .eq ↔ (x.compare? y).isSome = true ∧ x.looseEq y = true := by
  rw [compare?_eq_some_iff hx hy, compare?_isSome_iff hx hy, looseEq_iff hx hy]
  constructor
  · rintro ⟨rfl, hranked⟩
    exact ⟨⟨hranked, rfl⟩, .inl rfl⟩
  · rintro ⟨⟨hranked, hkind⟩, heq | hspells | hspells⟩
    · exact ⟨heq, hranked⟩
    · cases hspells
      cases hranked
    · cases hspells
      simp [typeName] at hkind

/-! ## Predicates -/

open Predicate (relation within without)

/-- What equality, order and the predicates on them have to do with each other. -/
structure Coherent (x y z : Value) : Prop where
  swap : y.compare? x = (x.compare? y).map Ordering.swap
  comparable_iff : (x.compare? y).isSome = true ↔ x.IsRanked = true ∧ x.typeName = y.typeName
  less_iff : x.compare? y = some .lt ↔ Precedes x y
  equal_iff : x.compare? y = some .eq ↔ x = y ∧ x.IsRanked = true
  equal_iff_looseEq :
    x.compare? y = some .eq ↔ (x.compare? y).isSome = true ∧ x.looseEq y = true
  less_trans : x.compare? y = some .lt → y.compare? z = some .lt → x.compare? z = some .lt
  exactly_one : (x.compare? y).isSome = true →
    ([.lt, .eq, .gt].countP fun r => (relation r y).accepts x) = 1
  weak_iff : (x.compare? y).isSome = true →
    ((relation .lte y).accepts x = !(relation .gt y).accepts x) ∧
      (relation .gte y).accepts x = !(relation .lt y).accepts x
  none_accepts : x.compare? y = none → ∀ r ∈ [Relation.lt, .lte, .gt, .gte],
    (relation r y).accepts x = false
  looseEq_comm : x.looseEq y = y.looseEq x
  within_iff : ∀ values, (within values).accepts x = true ↔
    ∃ v ∈ values, (relation .eq v).accepts x = true
  without_iff : ∀ values, (without values).accepts x = true ↔
    ∀ v ∈ values, (relation .eq v).accepts x = false

/-- Without floating-point numbers, equality and order are coherent. -/
theorem order_coherent {x y z : Value} (hx : x.FloatFree) (hy : y.FloatFree)
    (hz : z.FloatFree) : Coherent x y z where
  swap := compare?_swap hx hy
  comparable_iff := compare?_isSome_iff hx hy
  less_iff := compare?_eq_some_iff hx hy .lt
  equal_iff := compare?_eq_some_iff hx hy .eq
  equal_iff_looseEq := compare?_eq_eq_iff hx hy
  less_trans := by
    rw [compare?_eq_some_iff hx hy, compare?_eq_some_iff hy hz, compare?_eq_some_iff hx hz]
    exact Precedes.trans
  exactly_one := by
    intro h
    obtain ⟨o, ho⟩ := Option.isSome_iff_exists.mp h
    have hloose : x.looseEq y = (o == .eq) := by
      have heq := compare?_eq_eq_iff hx hy
      rw [ho, Option.some_inj] at heq
      rw [Bool.eq_iff_iff, beq_iff_eq, heq]
      simp
    simp only [Predicate.accepts, Relation.holds, List.countP_cons, List.countP_nil, ho, hloose]
    cases o <;> rfl
  weak_iff := by
    intro h
    obtain ⟨o, ho⟩ := Option.isSome_iff_exists.mp h
    simp only [Predicate.accepts, Relation.holds, ho]
    cases o <;> exact ⟨rfl, rfl⟩
  none_accepts := by
    intro h r hr
    simp only [List.mem_cons, List.not_mem_nil, or_false] at hr
    rcases hr with rfl | rfl | rfl | rfl <;> simp [Predicate.accepts, Relation.holds, h]
  looseEq_comm := looseEq_comm hx hy
  within_iff values := by
    simp [Predicate.accepts, Relation.holds]
  without_iff values := by
    simp [Predicate.accepts, Relation.holds]

/-- Three quarters into the last second of 2016. -/
def lastSecondOf2016 : Timestamp :=
  ⟨1483228799, 750000000, by decide, by decide⟩

/-- Three quarters into the leap second that followed. -/
def leapSecondOf2016 : Timestamp :=
  ⟨1483228799, 1750000000, by decide, by decide⟩

def startOf2017 : Timestamp :=
  ⟨1483228800, 0, by decide, by decide⟩

theorem order_coherent_leapSecond :
    FloatFree (.date lastSecondOf2016) ∧ FloatFree (.date leapSecondOf2016) ∧
      FloatFree (.date startOf2017) ∧
      Coherent (.date lastSecondOf2016) (.date leapSecondOf2016) (.date startOf2017) ∧
      (date lastSecondOf2016).compare? (.date leapSecondOf2016) = some .lt ∧
      (date leapSecondOf2016).compare? (.date startOf2017) = some .lt :=
  ⟨trivial, trivial, trivial, order_coherent trivial trivial trivial, by decide, by decide⟩

/-- Strings are ordered by their bytes, not by the units of another encoding. -/
example : (string "\uffff").compare? (.string "😀") = some .lt := by
  decide

end Value

end GraphGateway
