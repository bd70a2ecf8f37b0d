import Mathlib.Data.List.Sort
import GraphGateway.Graph.Arena

/-!
# Laws of arenas

In a well-formed arena the free slots are vacant and listed once, so a new
record never lands on a live one. Each operation is described by what it does to
the record in every slot.
-/

namespace GraphGateway

namespace Arena

variable {α : Type}

/-- Free slots exist, hold nothing, and are listed once. -/
structure WellFormed (a : Arena α) : Prop where
  free_lt : ∀ slot ∈ a.free, slot < a.slots.length
  free_vacant : ∀ slot ∈ a.free, a.get? slot = none
  free_nodup : a.free.Nodup

theorem WellFormed.empty : (empty : Arena α).WellFormed :=
  ⟨by simp [Arena.empty], by simp [Arena.empty], List.nodup_nil⟩

@[simp] theorem get?_empty (slot : Nat) : (empty : Arena α).get? slot = none := by
  simp [Arena.empty, get?]

theorem lt_of_get? {a : Arena α} {slot : Nat} {record : α} (h : a.get? slot = some record) :
    slot < a.slots.length := by
  by_cases hlt : slot < a.slots.length
  · exact hlt
  · simp [get?, List.getElem?_eq_none (Nat.le_of_not_lt hlt)] at h

theorem get?_eq_none_of_le {a : Arena α} {slot : Nat} (h : a.slots.length ≤ slot) :
    a.get? slot = none := by
  simp [get?, List.getElem?_eq_none h]

private theorem join_getElem?_set (slots : List (Option α)) (slot other : Nat) (value : Option α)
    (hlt : slot < slots.length) :
    ((slots.set slot value)[other]?).join =
      if slot = other then value else (slots[other]?).join := by
  by_cases h : slot = other
  · subst h
    simp [hlt]
  · simp [h, List.getElem?_set_ne h]

/-! ## Adding a record -/

/-- A new record takes a slot that nothing was in. -/
theorem WellFormed.get?_insert_slot {a : Arena α} (hw : a.WellFormed) (record : α) :
    a.get? (a.insert record).2 = none := by
  unfold insert
  cases hf : a.free with
  | nil => exact get?_eq_none_of_le (Nat.le_refl _)
  | cons slot rest => exact hw.free_vacant slot (by simp [hf])

theorem WellFormed.get?_insert {a : Arena α} (hw : a.WellFormed) (record : α) (slot : Nat) :
    (a.insert record).1.get? slot =
      if (a.insert record).2 = slot then some record else a.get? slot := by
  unfold insert
  cases hf : a.free with
  | nil =>
      by_cases h : a.slots.length = slot
      · subst h
        simp [get?]
      · rcases Nat.lt_or_gt_of_ne h with hlt | hlt
        · have hne : slot - a.slots.length ≠ 0 := by omega
          simp [get?, h, List.getElem?_append, Nat.not_lt_of_gt hlt, hne]
        · simp [get?, h, List.getElem?_append, hlt]
  | cons first rest =>
      have hlt := hw.free_lt first (by simp [hf])
      exact join_getElem?_set a.slots first slot (some record) hlt

theorem WellFormed.insert {a : Arena α} (hw : a.WellFormed) (record : α) :
    (a.insert record).1.WellFormed := by
  have hget := hw.get?_insert record
  unfold Arena.insert at hget ⊢
  cases hf : a.free with
  | nil => exact ⟨by simp, by simp, List.nodup_nil⟩
  | cons first rest =>
      have hnd := hw.free_nodup
      rw [hf] at hnd hget
      rw [List.nodup_cons] at hnd
      refine ⟨?_, ?_, hnd.2⟩
      · intro slot hm
        simpa using hw.free_lt slot (by simp [hf, show slot ∈ rest from hm])
      · intro slot hm
        have hne : first ≠ slot := fun h => hnd.1 (h ▸ hm)
        refine (hget slot).trans ?_
        rw [if_neg hne]
        exact hw.free_vacant slot (by simp [hf, show slot ∈ rest from hm])

/-- Which slot a new record takes does not depend on the record. -/
theorem insert_slot (a : Arena α) (record other : α) :
    (a.insert record).2 = (a.insert other).2 := by
  unfold insert
  cases a.free <;> rfl

/-- Changing the record that was added last is adding the changed record. -/
theorem modify_insert (a : Arena α) (record : α) (f : α → α) :
    (a.insert record).1.modify (a.insert record).2 f = (a.insert (f record)).1 := by
  unfold insert modify
  cases a.free with
  | nil =>
      have hend : (a.slots ++ [some record]).modify a.slots.length (Option.map f) =
          a.slots ++ [some (f record)] := by
        refine List.ext_getElem? fun i => ?_
        rw [List.getElem?_modify, List.getElem?_append, List.getElem?_append]
        by_cases h : a.slots.length = i
        · simp [h]
        · by_cases hlt : i < a.slots.length
          · simp [h, hlt]
          · have hpos : i - a.slots.length ≠ 0 := by omega
            simp [h, hlt, hpos]
      simp [hend]
  | cons slot rest =>
      have hset : (a.slots.set slot (some record)).modify slot (Option.map f) =
          a.slots.set slot (some (f record)) := by
        refine List.ext_getElem? fun i => ?_
        rw [List.getElem?_modify, List.getElem?_set, List.getElem?_set]
        by_cases h : slot = i
        · by_cases hlt : slot < a.slots.length <;> simp [h]
        · simp [h]
      simp [hset]

/-! ## Vacating slots -/

theorem isLive_eq_true_iff (a : Arena α) (slot : Nat) :
    a.isLive slot = true ↔ ∃ record, a.get? slot = some record :=
  Option.isSome_iff_exists

theorem get?_erase (a : Arena α) (slot other : Nat) :
    (a.erase slot).get? other = if slot = other then none else a.get? other := by
  unfold erase
  by_cases hl : a.isLive slot = true
  · obtain ⟨record, hr⟩ := (isLive_eq_true_iff a slot).mp hl
    rw [if_pos hl]
    exact join_getElem?_set a.slots slot other none (lt_of_get? hr)
  · rw [if_neg hl]
    by_cases h : slot = other
    · subst h
      rw [if_pos rfl]
      simpa [isLive] using hl
    · rw [if_neg h]

/-- What is left after a slot was vacated was there before. -/
theorem get?_of_erase {a : Arena α} {slot other : Nat} {record : α}
    (h : (a.erase slot).get? other = some record) : a.get? other = some record := by
  rw [get?_erase] at h
  split at h
  · cases h
  · exact h

theorem WellFormed.erase {a : Arena α} (hw : a.WellFormed) (slot : Nat) :
    (a.erase slot).WellFormed := by
  have hget := get?_erase a slot
  unfold Arena.erase at hget ⊢
  by_cases hl : a.isLive slot = true
  · obtain ⟨record, hr⟩ := (isLive_eq_true_iff a slot).mp hl
    rw [if_pos hl] at hget ⊢
    refine ⟨?_, ?_, ?_⟩
    · intro other hm
      rcases List.mem_cons.mp hm with rfl | hm
      · simpa using lt_of_get? hr
      · simpa using hw.free_lt other hm
    · intro other hm
      rw [hget other]
      rcases List.mem_cons.mp hm with rfl | hm
      · rw [if_pos rfl]
      · split
        · rfl
        · exact hw.free_vacant other hm
    · refine List.nodup_cons.mpr ⟨?_, hw.free_nodup⟩
      intro hm
      rw [hw.free_vacant slot hm] at hr
      cases hr
  · rw [if_neg hl]
    exact hw

theorem get?_eraseAll (slots : List Nat) (a : Arena α) (other : Nat) :
    (a.eraseAll slots).get? other = if other ∈ slots then none else a.get? other := by
  induction slots generalizing a with
  | nil => simp [eraseAll]
  | cons slot rest ih =>
      rw [eraseAll, ih, get?_erase]
      by_cases hr : other ∈ rest
      · simp [hr]
      · by_cases h : slot = other
        · simp [h]
        · have hne : ¬ other = slot := fun e => h e.symm
          simp [hr, h, hne]

theorem get?_of_eraseAll {a : Arena α} {slots : List Nat} {other : Nat} {record : α}
    (h : (a.eraseAll slots).get? other = some record) : a.get? other = some record := by
  rw [get?_eraseAll] at h
  split at h
  · cases h
  · exact h

theorem WellFormed.eraseAll (slots : List Nat) {a : Arena α} (hw : a.WellFormed) :
    (a.eraseAll slots).WellFormed := by
  induction slots generalizing a with
  | nil => exact hw
  | cons slot rest ih => exact ih (hw.erase slot)

/-! ## Changing a record -/

theorem get?_modify (a : Arena α) (slot other : Nat) (f : α → α) :
    (a.modify slot f).get? other = if slot = other then (a.get? other).map f else a.get? other := by
  by_cases h : slot = other
  · subst h
    cases hs : a.slots[slot]? <;> simp [modify, get?, hs]
  · simp [modify, get?, h]

theorem WellFormed.modify {a : Arena α} (hw : a.WellFormed) (slot : Nat) (f : α → α) :
    (a.modify slot f).WellFormed := by
  refine ⟨?_, ?_, hw.free_nodup⟩
  · intro other hm
    simpa [Arena.modify] using hw.free_lt other hm
  · intro other hm
    rw [get?_modify, hw.free_vacant other hm]
    simp

/-! ## Listing records -/

theorem mem_liveFrom (start slot : Nat) (record : α) (slots : List (Option α)) :
    (slot, record) ∈ liveFrom start slots ↔
      start ≤ slot ∧ slots[slot - start]? = some (some record) := by
  induction slots generalizing start with
  | nil => simp [liveFrom]
  | cons head rest ih =>
      rcases Nat.lt_trichotomy slot start with hlt | rfl | hgt
      · cases head <;> simp [liveFrom, ih] <;> omega
      · have hnot : ¬ slot + 1 ≤ slot := by omega
        cases head <;> simp [liveFrom, ih, hnot, eq_comm]
      · have hs : slot - start = slot - (start + 1) + 1 := by omega
        have hne : ¬ slot = start := by omega
        cases head <;> simp [liveFrom, ih, hs, hne] <;> omega

theorem mem_live (a : Arena α) (slot : Nat) (record : α) :
    (slot, record) ∈ a.live ↔ a.get? slot = some record := by
  simp [live, mem_liveFrom, get?, Option.join_eq_some_iff]

private theorem lt_liveFrom (start : Nat) (slots : List (Option α)) :
    ((liveFrom start slots).map Prod.fst).Pairwise (· < ·) := by
  induction slots generalizing start with
  | nil => simp [liveFrom]
  | cons head rest ih =>
      cases head with
      | none => exact ih (start + 1)
      | some record =>
          refine List.Pairwise.cons ?_ (ih (start + 1))
          intro slot hm
          obtain ⟨⟨s, r⟩, hr, rfl⟩ := List.mem_map.mp hm
          exact ((mem_liveFrom (start + 1) s r rest).mp hr).1

/-- Records are listed in the order of their slots. -/
theorem live_slots_sorted (a : Arena α) : (a.live.map Prod.fst).Pairwise (· < ·) :=
  lt_liveFrom 0 a.slots

theorem live_slots_nodup (a : Arena α) : (a.live.map Prod.fst).Nodup :=
  (live_slots_sorted a).imp Nat.ne_of_lt

theorem live_nodup (a : Arena α) : a.live.Nodup :=
  (List.pairwise_map.mp a.live_slots_nodup).imp fun hne heq => hne (congrArg Prod.fst heq)

theorem mem_live_slots (a : Arena α) (slot : Nat) :
    slot ∈ a.live.map Prod.fst ↔ ∃ record, a.get? slot = some record := by
  rw [List.mem_map]
  constructor
  · intro hfound
    obtain ⟨⟨other, record⟩, hm, rfl⟩ := hfound
    exact ⟨record, (mem_live a other record).mp hm⟩
  · intro hfound
    obtain ⟨record, hr⟩ := hfound
    exact ⟨(slot, record), (mem_live a slot record).mpr hr, rfl⟩

/-- An arena with fewer records lists those that are left in the same order. -/
theorem live_slots_filter {a b : Arena α}
    (h : ∀ slot, b.isLive slot = true → a.isLive slot = true) :
    b.live.map Prod.fst = (a.live.map Prod.fst).filter b.isLive := by
  refine b.live_slots_sorted.eq_of_mem_iff (a.live_slots_sorted.filter _) fun slot => ?_
  rw [List.mem_filter, mem_live_slots, mem_live_slots, ← isLive_eq_true_iff, ← isLive_eq_true_iff]
  exact ⟨fun hlive => ⟨h slot hlive, hlive⟩, fun hfound => hfound.2⟩

/-- An arena can be read by the slots of a larger one: nothing is read from those it lacks. -/
theorem filterMap_live_slots {β : Type} {a b : Arena α} {read : Nat → Option β}
    (hfewer : ∀ slot, b.isLive slot = true → a.isLive slot = true)
    (hread : ∀ slot, b.get? slot = none → read slot = none) :
    (b.live.map Prod.fst).filterMap read = (a.live.map Prod.fst).filterMap read := by
  rw [live_slots_filter hfewer, List.filterMap_filter]
  refine List.filterMap_congr fun slot _ => ?_
  cases hslot : b.get? slot with
  | none => rw [hread slot hslot, ite_self]
  | some record => rw [if_pos ((isLive_eq_true_iff b slot).mpr ⟨record, hslot⟩)]

/-- Adding a record adds it to the list of records, wherever its slot is. -/
theorem WellFormed.live_insert {a : Arena α} (hw : a.WellFormed) (record : α) :
    (a.insert record).1.live.Perm (((a.insert record).2, record) :: a.live) := by
  have hslot := hw.get?_insert_slot record
  have hnew : ((a.insert record).2, record) ∉ a.live := by simp [mem_live, hslot]
  refine (List.perm_ext_iff_of_nodup (live_nodup _)
    (List.nodup_cons.mpr ⟨hnew, a.live_nodup⟩)).mpr fun p => ?_
  obtain ⟨slot, r⟩ := p
  rw [mem_live, hw.get?_insert, List.mem_cons, mem_live, Prod.mk.injEq]
  by_cases h : (a.insert record).2 = slot
  · subst h
    simp [hslot, eq_comm]
  · have hne : ¬ slot = (a.insert record).2 := fun heq => h heq.symm
    simp [h, hne]

end Arena

end GraphGateway
