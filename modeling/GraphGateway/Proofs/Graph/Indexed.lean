import Mathlib.Data.List.Nodup
import GraphGateway.Graph
import GraphGateway.Proofs.Graph.Arena
import GraphGateway.Proofs.OrderedMap

/-!
# Indexed arenas

Vertices and edges are kept the same way: records in an arena, and an index from
identifiers to slots. The two are in step when the index leads from an
identifier to a slot exactly if the record in that slot carries the identifier.
Every way in which a graph is changed keeps them in step.
-/

namespace GraphGateway

variable {α : Type} {idOf : α → ElementId} {arena : Arena α} {index : OrderedMap ElementId Nat}

/-- The index is a bijection between the identifiers it knows and the occupied slots. -/
structure Indexed (idOf : α → ElementId) (arena : Arena α) (index : OrderedMap ElementId Nat) :
    Prop where
  arena_wellFormed : arena.WellFormed
  index_distinct : index.Distinct
  get?_iff : ∀ id slot, index.get? id = some slot ↔ ∃ r, arena.get? slot = some r ∧ idOf r = id

namespace Indexed

theorem empty : Indexed idOf (.empty : Arena α) .empty :=
  ⟨.empty, .empty, by simp⟩

/-! ## Reading -/

theorem get?_of_live (h : Indexed idOf arena index) {slot : Nat} {r : α}
    (hr : arena.get? slot = some r) : index.get? (idOf r) = some slot :=
  (h.get?_iff _ _).mpr ⟨r, hr, rfl⟩

theorem live_of_get? (h : Indexed idOf arena index) {id : ElementId} {slot : Nat}
    (hi : index.get? id = some slot) : ∃ r, arena.get? slot = some r ∧ idOf r = id :=
  (h.get?_iff _ _).mp hi

/-- Two slots whose records carry one identifier are the same slot. -/
theorem slot_unique (h : Indexed idOf arena index) {slot other : Nat} {r q : α}
    (hr : arena.get? slot = some r) (hq : arena.get? other = some q) (hid : idOf r = idOf q) :
    slot = other := by
  have hs := h.get?_of_live hr
  have ho := h.get?_of_live hq
  rw [hid, ho] at hs
  exact (Option.some.inj hs).symm

/-- An identifier that is not indexed belongs to no record. -/
theorem ne_of_not_contains (h : Indexed idOf arena index) {id : ElementId}
    (hc : index.contains id = false) {slot : Nat} {r : α} (hr : arena.get? slot = some r) :
    idOf r ≠ id := by
  intro hid
  have hs := h.get?_of_live hr
  rw [hid] at hs
  simp [OrderedMap.contains, hs] at hc

/-- The index lists every occupied slot once, under the identifier of its record. -/
theorem entries_perm (h : Indexed idOf arena index) :
    index.entries.Perm (arena.live.map fun p => (idOf p.2, p.1)) := by
  have hentries : index.entries.Nodup := List.Nodup.of_map Prod.fst h.index_distinct
  have hlive : (arena.live.map fun p => (idOf p.2, p.1)).Nodup := by
    apply List.Nodup.of_map Prod.snd
    rw [List.map_map]
    exact arena.live_slots_nodup
  refine (List.perm_ext_iff_of_nodup hentries hlive).mpr ?_
  intro hfound
  rcases hfound with ⟨id, slot⟩
  rw [← h.index_distinct.get?_eq_some_iff, h.get?_iff, List.mem_map]
  constructor
  · intro hfound
    rcases hfound with ⟨r, hr, rfl⟩
    exact ⟨(slot, r), (Arena.mem_live arena slot r).mpr hr, rfl⟩
  · intro hfound
    rcases hfound with ⟨⟨s, r⟩, hm, heq⟩
    cases heq
    exact ⟨r, (Arena.mem_live arena s r).mp hm, rfl⟩

theorem size_eq (h : Indexed idOf arena index) : index.size = arena.live.length := by
  have hlen := h.entries_perm.length_eq
  rwa [List.length_map] at hlen

/-- No two records share an identifier. -/
theorem live_ids_nodup (h : Indexed idOf arena index) :
    (arena.live.map fun p => idOf p.2).Nodup := by
  have hkeys := h.entries_perm.map Prod.fst
  rw [List.map_map] at hkeys
  exact hkeys.nodup_iff.mp h.index_distinct

/-! ## Writing -/

theorem insert (h : Indexed idOf arena index) (r : α) (hc : index.contains (idOf r) = false) :
    Indexed idOf (arena.insert r).1 (index.insert (idOf r) (arena.insert r).2) := by
  have hw := h.arena_wellFormed
  refine ⟨hw.insert r, h.index_distinct.insert _ _, ?_⟩
  intro id slot
  rw [OrderedMap.get?_insert, hw.get?_insert]
  constructor
  · intro hs
    by_cases hid : idOf r = id
    · rw [if_pos hid] at hs
      exact ⟨r, by rw [if_pos (Option.some.inj hs)], hid⟩
    · rw [if_neg hid] at hs
      obtain ⟨q, hq, rfl⟩ := h.live_of_get? hs
      refine ⟨q, ?_, rfl⟩
      rw [if_neg, hq]
      intro heq
      subst heq
      rw [hw.get?_insert_slot] at hq
      cases hq
  · intro hfound
    rcases hfound with ⟨q, hq, rfl⟩
    by_cases hs : (arena.insert r).2 = slot
    · rw [if_pos hs] at hq
      cases hq
      rw [if_pos rfl, hs]
    · rw [if_neg hs] at hq
      rw [if_neg fun heq => h.ne_of_not_contains hc hq heq.symm]
      exact h.get?_of_live hq

/-- Changing a record without its identifier leaves the index as it is. -/
theorem modify (h : Indexed idOf arena index) (slot : Nat) (f : α → α)
    (hf : ∀ r, idOf (f r) = idOf r) : Indexed idOf (arena.modify slot f) index := by
  refine ⟨h.arena_wellFormed.modify slot f, h.index_distinct, ?_⟩
  intro id other
  rw [h.get?_iff, Arena.get?_modify]
  by_cases hs : slot = other
  · rw [if_pos hs]
    constructor
    · intro hfound
      rcases hfound with ⟨r, hr, rfl⟩
      exact ⟨f r, by rw [hr]; rfl, hf r⟩
    · intro hfound
      rcases hfound with ⟨q, hq, rfl⟩
      obtain ⟨r, hr, rfl⟩ := Option.map_eq_some_iff.mp hq
      exact ⟨r, hr, (hf r).symm⟩
  · rw [if_neg hs]

/-- Giving a record a new identifier moves its slot in the index. -/
theorem rename (h : Indexed idOf arena index) {old new : ElementId} {slot : Nat} (f : α → α)
    (hold : index.get? old = some slot) (hnew : index.contains new = false)
    (hf : ∀ r, idOf (f r) = new) :
    Indexed idOf (arena.modify slot f) ((index.erase old).insert new slot) := by
  have herase := h.index_distinct.erase old
  obtain ⟨q, hq, hqid⟩ := h.live_of_get? hold
  refine ⟨h.arena_wellFormed.modify slot f, herase.insert _ _, ?_⟩
  intro id other
  rw [OrderedMap.get?_insert, h.index_distinct.get?_erase, Arena.get?_modify]
  constructor
  · intro hs
    by_cases hid : new = id
    · rw [if_pos hid] at hs
      have hslot := Option.some.inj hs
      exact ⟨f q, by rw [if_pos hslot, ← hslot, hq]; rfl, (hf q).trans hid⟩
    · rw [if_neg hid] at hs
      by_cases ho : old = id
      · rw [if_pos ho] at hs
        cases hs
      · rw [if_neg ho] at hs
        obtain ⟨r, hr, rfl⟩ := h.live_of_get? hs
        refine ⟨r, ?_, rfl⟩
        rw [if_neg, hr]
        intro heq
        subst heq
        rw [hq] at hr
        cases hr
        exact ho hqid.symm
  · intro hfound
    rcases hfound with ⟨r, hr, rfl⟩
    by_cases hs : slot = other
    · rw [if_pos hs, ← hs, hq] at hr
      cases hr
      rw [if_pos (hf q).symm, hs]
    · rw [if_neg hs] at hr
      rw [if_neg fun heq => h.ne_of_not_contains hnew hr heq.symm, if_neg]
      · exact h.get?_of_live hr
      · exact fun heq => hs (h.slot_unique hq hr (hqid.trans heq))

theorem erase (h : Indexed idOf arena index) {id : ElementId} {slot : Nat}
    (hs : index.get? id = some slot) : Indexed idOf (arena.erase slot) (index.erase id) := by
  obtain ⟨q, hq, hqid⟩ := h.live_of_get? hs
  refine ⟨h.arena_wellFormed.erase slot, h.index_distinct.erase id, ?_⟩
  intro other s
  rw [h.index_distinct.get?_erase, Arena.get?_erase]
  by_cases hid : id = other
  · rw [if_pos hid]
    constructor
    · intro hn
      cases hn
    · intro hfound
      rcases hfound with ⟨r, hr, rfl⟩
      by_cases hslot : slot = s
      · rw [if_pos hslot] at hr
        cases hr
      · rw [if_neg hslot] at hr
        exact (hslot (h.slot_unique hq hr (hqid.trans hid))).elim
  · rw [if_neg hid, h.get?_iff]
    by_cases hslot : slot = s
    · rw [if_pos hslot, ← hslot, hq]
      constructor
      · intro hfound
        rcases hfound with ⟨r, hr, hrid⟩
        cases hr
        exact (hid (hqid.symm.trans hrid)).elim
      · intro hfound
        rcases hfound with ⟨r, hr, -⟩
        cases hr
    · rw [if_neg hslot]

theorem distinct_unindex (ids : List ElementId) {index : OrderedMap ElementId Nat}
    (hd : index.Distinct) : (Graph.unindex index ids).Distinct := by
  induction ids generalizing index with
  | nil => exact hd
  | cons id rest ih => exact ih (hd.erase id)

theorem get?_unindex (ids : List ElementId) {index : OrderedMap ElementId Nat}
    (hd : index.Distinct) (other : ElementId) :
    (Graph.unindex index ids).get? other = if other ∈ ids then none else index.get? other := by
  induction ids generalizing index with
  | nil => simp [Graph.unindex]
  | cons id rest ih =>
      rw [Graph.unindex, ih (hd.erase id), hd.get?_erase]
      by_cases hr : other ∈ rest
      · simp [hr]
      · by_cases hid : id = other
        · simp [hid]
        · have hne : ¬ other = id := fun e => hid e.symm
          simp [hr, hid, hne]

/-- Vacating slots and forgetting the identifiers of their records. -/
theorem eraseAll (h : Indexed idOf arena index) (slots : List Nat) :
    Indexed idOf (arena.eraseAll slots)
      (Graph.unindex index (slots.filterMap fun slot => (arena.get? slot).map idOf)) := by
  refine ⟨h.arena_wellFormed.eraseAll slots, distinct_unindex _ h.index_distinct, ?_⟩
  intro id slot
  rw [get?_unindex _ h.index_distinct, Arena.get?_eraseAll]
  -- an identifier is forgotten exactly when the slot of its record is vacated
  have hmem : ∀ r, arena.get? slot = some r →
      (idOf r ∈ (slots.filterMap fun s => (arena.get? s).map idOf) ↔ slot ∈ slots) := by
    intro r hr
    rw [List.mem_filterMap]
    constructor
    · intro hfound
      rcases hfound with ⟨s, hs, hid⟩
      obtain ⟨q, hq, hqid⟩ := Option.map_eq_some_iff.mp hid
      exact h.slot_unique hq hr hqid ▸ hs
    · intro hs
      exact ⟨slot, hs, by rw [hr]; rfl⟩
  constructor
  · intro hs
    split at hs
    · cases hs
    · next hid =>
        obtain ⟨r, hr, rfl⟩ := h.live_of_get? hs
        exact ⟨r, by rw [if_neg fun hslot => hid ((hmem r hr).mpr hslot), hr], rfl⟩
  · intro hfound
    rcases hfound with ⟨r, hr, rfl⟩
    split at hr
    · cases hr
    · next hslot => rw [if_neg fun hid => hslot ((hmem r hr).mp hid), h.get?_of_live hr]

end Indexed

end GraphGateway
