import GraphGateway.Value
import GraphGateway.Proofs.OrderedMap

/-!
# Histories of maps

A map is what its history has left of it. The history is kept as a log of what
happened to single keys; collecting bindings starts the map anew and then binds
them one by one. From the log alone it follows what a key holds, which keys are
present, and since when. The map has the present keys in the order in which each
of them was first bound since it was last absent.
-/

namespace GraphGateway

namespace OrderedMap

variable {κ α : Type}

/-! ## Logs -/

inductive Event (κ α : Type) where
  | bound (key : κ) (value : α)
  | unbound (key : κ)
  | cleared

namespace Event

/-- An event after which a key is absent. -/
def Ends (key : κ) : Event κ α → Prop
  | bound _ _ => False
  | unbound other => other = key
  | cleared => True

/-- An event after which a key does not hold what it held before. -/
def Concerns (key : κ) : Event κ α → Prop
  | bound other _ => other = key
  | unbound other => other = key
  | cleared => True

end Event

/-- A key was last bound to a value, and nothing has happened to it since. -/
def Holds (log : List (Event κ α)) (key : κ) (value : α) : Prop :=
  ∃ n, OpenSince (fun _ e => e = .bound key value) (Event.Concerns key) log n

/-- A key was absent when it was bound at a position of a log, and has been present since. -/
def BornAt (log : List (Event κ α)) (key : κ) (n : Nat) : Prop :=
  OpenSince (fun before e => (∃ value, e = .bound key value) ∧ ∀ value, ¬ Holds before key value)
    (Event.Ends key) log n

theorem not_holds_nil (key : κ) (value : α) : ¬ Holds [] key value :=
  fun ⟨_, h⟩ => absurd h.lt_length (Nat.not_lt_zero _)

theorem holds_concat (log : List (Event κ α)) (e : Event κ α) (key : κ) (value : α) :
    Holds (log ++ [e]) key value ↔
      e = .bound key value ∨ Holds log key value ∧ ¬ e.Concerns key := by
  simp only [Holds, openSince_concat, exists_or, exists_and_left, exists_eq', and_true,
    exists_and_right]

theorem bornAt_concat (log : List (Event κ α)) (e : Event κ α) (key : κ) (n : Nat) :
    BornAt (log ++ [e]) key n ↔
      ((∃ value, e = .bound key value) ∧ ∀ value, ¬ Holds log key value) ∧ log.length = n ∨
        BornAt log key n ∧ ¬ e.Ends key :=
  openSince_concat _ _ log e n

/-! ## What a log leaves -/

variable [DecidableEq κ]

/-- The map is what a log leaves: it holds what was bound last, and its keys stand in the order
in which they were born. -/
structure Reflects (m : OrderedMap κ α) (log : List (Event κ α)) : Prop where
  distinct : m.Distinct
  get?_eq_some_iff : ∀ key value, m.get? key = some value ↔ Holds log key value
  mem_keys_iff : ∀ key, key ∈ m.keys ↔ ∃ n, BornAt log key n
  ascending : m.keys.Pairwise fun key other =>
    ∀ i j, BornAt log key i → BornAt log other j → i < j

theorem Reflects.empty : (empty : OrderedMap κ α).Reflects [] where
  distinct := .empty
  get?_eq_some_iff key value := iff_of_false (by simp) (not_holds_nil key value)
  mem_keys_iff key := iff_of_false List.not_mem_nil fun ⟨_, h⟩ => absurd h.lt_length (by simp)
  ascending := .nil

section Step

variable {m : OrderedMap κ α} {log : List (Event κ α)}

theorem Reflects.not_mem_keys_iff (h : m.Reflects log) (key : κ) :
    key ∉ m.keys ↔ ∀ value, ¬ Holds log key value := by
  simp only [mem_keys_iff_get?, h.get?_eq_some_iff, not_exists]

/-- A key that is present is not born again. -/
theorem Reflects.bornAt_of_concat (h : m.Reflects log) {key : κ} (hkey : key ∈ m.keys)
    {e : Event κ α} {n : Nat} (hborn : BornAt (log ++ [e]) key n) : BornAt log key n := by
  rcases (bornAt_concat log e key n).mp hborn with ⟨⟨-, habsent⟩, -⟩ | ⟨hold, -⟩
  · exact absurd hkey ((h.not_mem_keys_iff key).mpr habsent)
  · exact hold

/-- Keys that stay keep their births, so their order stays right whatever the event was. -/
theorem Reflects.ascending_concat (h : m.Reflects log) {keys : List κ}
    (hkeys : keys.Sublist m.keys) (e : Event κ α) :
    keys.Pairwise fun key other =>
      ∀ i j, BornAt (log ++ [e]) key i → BornAt (log ++ [e]) other j → i < j := by
  refine (h.ascending.sublist hkeys).imp_of_mem ?_
  intro key other hkey hother hlt i j hi hj
  exact hlt i j (h.bornAt_of_concat (hkeys.subset hkey) hi)
    (h.bornAt_of_concat (hkeys.subset hother) hj)

theorem Reflects.insert (h : m.Reflects log) (key : κ) (value : α) :
    (m.insert key value).Reflects (log ++ [.bound key value]) where
  distinct := h.distinct.insert key value
  get?_eq_some_iff := by
    intro other found
    rw [get?_insert, holds_concat, ← h.get?_eq_some_iff]
    by_cases hkey : key = other <;> simp [hkey, Event.Concerns]
  mem_keys_iff := by
    intro other
    simp only [bornAt_concat, ← h.not_mem_keys_iff, Event.Ends, not_false_eq_true, and_true,
      exists_or, exists_and_left, exists_eq', ← h.mem_keys_iff, keys_insert]
    by_cases hkey : key = other
    · subst hkey
      by_cases hmem : key ∈ m.keys <;> simp [hmem]
    · have hne : ¬ other = key := fun heq => hkey heq.symm
      by_cases hmem : key ∈ m.keys <;> simp [hmem, hkey, hne]
  ascending := by
    rw [keys_insert]
    split
    next hmem => exact h.ascending_concat (List.Sublist.refl _) _
    next hnew =>
        refine List.pairwise_append.mpr
          ⟨h.ascending_concat (List.Sublist.refl _) _, List.pairwise_singleton .., ?_⟩
        intro other hother last hlast i j hi hj
        obtain rfl := List.mem_singleton.mp hlast
        -- the others were born before, the new key is born now
        have hbefore : i < log.length := (h.bornAt_of_concat hother hi).lt_length
        rcases (bornAt_concat log _ last j).mp hj with ⟨-, hnow⟩ | ⟨hold, -⟩
        · exact hnow ▸ hbefore
        · exact absurd ((h.mem_keys_iff last).mpr ⟨j, hold⟩) hnew

theorem Reflects.erase (h : m.Reflects log) (key : κ) :
    (m.erase key).Reflects (log ++ [.unbound key]) where
  distinct := h.distinct.erase key
  get?_eq_some_iff := by
    intro other found
    rw [h.distinct.get?_erase, holds_concat, ← h.get?_eq_some_iff]
    by_cases hkey : key = other <;> simp [hkey, Event.Concerns]
  mem_keys_iff := by
    intro other
    rw [keys_erase, List.Nodup.mem_erase_iff h.distinct, h.mem_keys_iff]
    simp [bornAt_concat, Event.Ends, and_comm, eq_comm]
  ascending := by
    rw [keys_erase]
    exact h.ascending_concat List.erase_sublist _

theorem Reflects.clear (h : m.Reflects log) :
    (OrderedMap.empty : OrderedMap κ α).Reflects (log ++ [.cleared]) where
  distinct := .empty
  get?_eq_some_iff key value := by simp [holds_concat, Event.Concerns]
  mem_keys_iff key := by simp [bornAt_concat, Event.Ends, OrderedMap.empty, keys]
  ascending := h.ascending_concat (List.nil_sublist _) _

theorem Reflects.insertAll (h : m.Reflects log) (bindings : List (κ × α)) :
    (m.insertAll bindings).Reflects (log ++ bindings.map fun b => .bound b.1 b.2) := by
  induction bindings generalizing m log with
  | nil => simpa [OrderedMap.insertAll] using h
  | cons head rest ih =>
      have hrest := ih (h.insert head.1 head.2)
      rwa [List.append_assoc] at hrest

end Step

/-- A log leaves one map. -/
theorem Reflects.unique {m n : OrderedMap κ α} {log : List (Event κ α)} (hm : m.Reflects log)
    (hn : n.Reflects log) : n = m := by
  have hget : m.get? = n.get? := by
    funext key
    refine Option.ext fun value => ?_
    rw [hm.get?_eq_some_iff, hn.get?_eq_some_iff]
  have hperm : n.entries.Perm m.entries := hn.distinct.perm_of_get? hm.distinct hget
  have hbirth : ∀ b ∈ n.entries, ∃ i, BornAt log b.1 i := fun b hb =>
    (hn.mem_keys_iff b.1).mp (List.mem_map.mpr ⟨b, hb, rfl⟩)
  have hentries : n.entries = m.entries := by
    refine hperm.eq_of_pairwise ?_ (List.pairwise_map.mp hn.ascending)
      (List.pairwise_map.mp hm.ascending)
    intro b c hb hc hlt hgt
    -- two keys cannot both be the elder
    obtain ⟨i, hi⟩ := hbirth b hb
    obtain ⟨j, hj⟩ := hbirth c (hperm.mem_iff.mpr hc)
    exact absurd (hlt i j hi hj) (Nat.lt_asymm (hgt j i hj hi))
  cases m
  cases n
  exact congrArg _ hentries

/-! ## Edits -/

inductive Edit (κ α : Type) where
  | insert (key : κ) (value : α)
  | remove (key : κ)
  | collect (bindings : List (κ × α))

namespace Edit

def apply (m : OrderedMap κ α) : Edit κ α → OrderedMap κ α
  | insert key value => m.insert key value
  | remove key => (m.remove key).2
  | collect bindings => ofList bindings

omit [DecidableEq κ] in
/-- What an operation does to single keys. -/
def events : Edit κ α → List (Event κ α)
  | insert key value => [.bound key value]
  | remove key => [.unbound key]
  | collect bindings => .cleared :: bindings.map fun b => .bound b.1 b.2

end Edit

/-- The map that operations leave, one after another, of the empty one. -/
def replay (edits : List (Edit κ α)) : OrderedMap κ α :=
  edits.foldl Edit.apply empty

theorem Reflects.apply {m : OrderedMap κ α} {log : List (Event κ α)} (h : m.Reflects log)
    (edit : Edit κ α) : (edit.apply m).Reflects (log ++ edit.events) := by
  cases edit with
  | insert key value => exact h.insert key value
  | remove key =>
      rw [Edit.apply, remove_eq]
      exact h.erase key
  | collect bindings =>
      have hall := h.clear.insertAll bindings
      rwa [List.append_assoc] at hall

theorem Reflects.applyAll {m : OrderedMap κ α} {log : List (Event κ α)} (h : m.Reflects log)
    (edits : List (Edit κ α)) :
    (edits.foldl Edit.apply m).Reflects (log ++ edits.flatMap Edit.events) := by
  induction edits generalizing m log with
  | nil => simpa using h
  | cons edit rest ih =>
      have hrest := ih (h.apply edit)
      rwa [List.append_assoc] at hrest

theorem reflects_replay (edits : List (Edit κ α)) :
    (replay edits).Reflects (edits.flatMap Edit.events) :=
  Reflects.empty.applyAll edits

end OrderedMap

/-! ## Records -/

namespace Record

open OrderedMap

theorem find?_isName (name : String) (bindings : List (Key × Value)) :
    (bindings.find? fun b => b.1.isName name).map Prod.snd = lookup (.name name) bindings := by
  induction bindings with
  | nil => rfl
  | cons head rest ih =>
      obtain ⟨key, value⟩ := head
      cases key with
      | token t => simpa [List.find?_cons, Key.isName, lookup] using ih
      | name s =>
          by_cases hs : s = name
          · simp [Key.isName, lookup, hs]
          · simpa [List.find?_cons, Key.isName, lookup, hs] using ih

theorem named?_eq (r : Record) (name : String) : r.named? name = r.get? (.name name) :=
  find?_isName name r.entries

/-- Whatever happened to a record, it is what the log of its operations leaves: keys are distinct,
hold what was bound last, and stand in the order of their births. A token is never taken for a
name, a replaced value stays where it was, and a key that was removed comes back at the end. -/
theorem replay_refines (edits : List (Edit Key Value)) :
    let m : Record := replay edits
    m.Reflects (edits.flatMap Edit.events) ∧
      (∀ other : Record, other.Reflects (edits.flatMap Edit.events) → other = m) ∧
      (∀ key value, (key, value) ∈ m.entries ↔ m.get? key = some value) ∧
      (∀ name, m.named? name = m.get? (.name name)) ∧
      (∀ token name value,
        Record.named? (m.insert (.token token) value) name = m.named? name ∧
          Record.named? (m.remove (.token token)).2 name = m.named? name ∧
          (m.insert (.name name) value).get? (.token token) = m.get? (.token token) ∧
          (m.remove (.name name)).2.get? (.token token) = m.get? (.token token)) ∧
      (∀ key value, (m.insert key value).entries =
        if key ∈ m.keys then m.entries.map fun b => if b.1 = key then (key, value) else b
        else m.entries ++ [(key, value)]) ∧
      (∀ key, (m.remove key).1 = m.get? key ∧
        (m.remove key).2.entries = m.entries.filter fun b => b.1 ≠ key) ∧
      ∀ key value, ((m.remove key).2.insert key value).entries =
        (m.entries.filter fun b => b.1 ≠ key) ++ [(key, value)] := by
  intro m
  have hreflects : m.Reflects (edits.flatMap Edit.events) := reflects_replay edits
  have hd := hreflects.distinct
  refine ⟨hreflects, fun _ hother => hreflects.unique hother,
    fun key value => (hd.get?_eq_some_iff key value).symm, m.named?_eq, ?apart,
    hd.entries_insert, ?removed, ?returned⟩
  case apart =>
    intro token name value
    simp only [named?_eq, remove_eq, get?_insert, hd.get?_erase, reduceCtorEq, if_false, and_self]
  case removed =>
    intro key
    rw [remove_eq]
    exact ⟨rfl, hd.entries_erase key⟩
  case returned =>
    intro key value
    have habsent : key ∉ (m.erase key).keys := by
      rw [keys_erase]
      exact List.Nodup.not_mem_erase hd
    rw [remove_eq, (hd.erase key).entries_insert, if_neg habsent, hd.entries_erase]

example : (replay [.insert (.name "id") .null, .insert (.token .id) .null,
    .insert (.name "id") (.bool true), .remove (.name "id"), .insert (.name "id") .null] :
      Record).keys = [.token .id, .name "id"] := by
  decide

end Record

end GraphGateway
