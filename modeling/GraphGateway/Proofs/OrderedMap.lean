import GraphGateway.OrderedMap

/-!
# Laws of insertion-ordered maps

Maps in which no key occurs twice are closed under insertion and erasure. In
such a map a look-up finds exactly the bindings that stand in the list, and
erasing a key hides that key and no other.
-/

namespace GraphGateway

namespace OrderedMap

variable {κ α : Type}

/-- No key occurs twice. -/
def Distinct (m : OrderedMap κ α) : Prop :=
  m.keys.Nodup

theorem Distinct.empty : (empty : OrderedMap κ α).Distinct :=
  List.nodup_nil

variable [DecidableEq κ]

/-! ## Look-ups and keys -/

@[simp] theorem get?_empty (key : κ) : (empty : OrderedMap κ α).get? key = none :=
  rfl

theorem lookup_eq_none_iff (key : κ) (bindings : List (κ × α)) :
    lookup key bindings = none ↔ key ∉ bindings.map Prod.fst := by
  induction bindings with
  | nil => simp [lookup]
  | cons head rest ih =>
      obtain ⟨k, v⟩ := head
      by_cases hk : k = key
      · simp [lookup, hk]
      · have hne : ¬ key = k := fun h => hk h.symm
        simp only [lookup, hk, if_false, ih, List.map_cons, List.mem_cons, hne, false_or]

theorem mem_keys_iff_get? (m : OrderedMap κ α) (key : κ) :
    key ∈ m.keys ↔ ∃ value, m.get? key = some value := by
  rw [← Option.ne_none_iff_exists', ne_eq, get?, lookup_eq_none_iff, Decidable.not_not]
  rfl

theorem mem_of_lookup {key : κ} {value : α} {bindings : List (κ × α)}
    (h : lookup key bindings = some value) : (key, value) ∈ bindings := by
  induction bindings with
  | nil => cases h
  | cons head rest ih =>
      obtain ⟨k, v⟩ := head
      by_cases hk : k = key
      · have hv : v = value := by simpa [lookup, hk] using h
        simp [hk, hv]
      · have hrest : lookup key rest = some value := by simpa [lookup, hk] using h
        exact List.mem_cons_of_mem _ (ih hrest)

theorem lookup_eq_some_iff_mem (key : κ) (value : α) {bindings : List (κ × α)}
    (hd : (bindings.map Prod.fst).Nodup) :
    lookup key bindings = some value ↔ (key, value) ∈ bindings := by
  induction bindings with
  | nil => simp [lookup]
  | cons head rest ih =>
      obtain ⟨k, v⟩ := head
      rw [List.map_cons, List.nodup_cons] at hd
      by_cases hk : k = key
      · subst hk
        -- the key cannot stand in the rest again
        have hrest : (k, value) ∉ rest := fun h => hd.1 (List.mem_map.mpr ⟨_, h, rfl⟩)
        simp [lookup, hrest, eq_comm]
      · have hne : ¬ key = k := fun h => hk h.symm
        simp [lookup, hk, hne, ih hd.2]

theorem Distinct.get?_eq_some_iff {m : OrderedMap κ α} (hd : m.Distinct) (key : κ) (value : α) :
    m.get? key = some value ↔ (key, value) ∈ m.entries :=
  lookup_eq_some_iff_mem key value hd

/-! ## Insertion -/

theorem Distinct.insert {m : OrderedMap κ α} (hd : m.Distinct) (key : κ) (value : α) :
    (m.insert key value).Distinct := by
  unfold Distinct
  rw [keys_insert]
  by_cases hk : key ∈ m.keys
  · rw [if_pos hk]
    exact hd
  · rw [if_neg hk]
    refine List.nodup_append.mpr ⟨hd, by simp, ?_⟩
    intro k hm other ho heq
    rw [List.mem_singleton] at ho
    subst heq ho
    exact hk hm

theorem Distinct.insertAll {m : OrderedMap κ α} (hd : m.Distinct) (bindings : List (κ × α)) :
    (m.insertAll bindings).Distinct := by
  induction bindings generalizing m with
  | nil => exact hd
  | cons head rest ih => exact ih (hd.insert head.1 head.2)

theorem Distinct.ofList (bindings : List (κ × α)) : (OrderedMap.ofList bindings).Distinct :=
  Distinct.empty.insertAll bindings

/-- A key that is new is bound at the end. -/
theorem put_of_not_mem {key : κ} {bindings : List (κ × α)} (h : key ∉ bindings.map Prod.fst)
    (value : α) : put key value bindings = bindings ++ [(key, value)] := by
  induction bindings with
  | nil => rfl
  | cons head rest ih =>
      obtain ⟨k, v⟩ := head
      rw [List.map_cons, List.mem_cons, not_or] at h
      have hk : ¬ k = key := fun heq => h.1 heq.symm
      simp [put, hk, ih h.2]

/-- A key that is bound already keeps its place, and all other bindings stay as they are. -/
theorem put_of_mem {key : κ} {bindings : List (κ × α)} (hd : (bindings.map Prod.fst).Nodup)
    (h : key ∈ bindings.map Prod.fst) (value : α) :
    put key value bindings = bindings.map fun b => if b.1 = key then (key, value) else b := by
  induction bindings with
  | nil => cases h
  | cons head rest ih =>
      obtain ⟨k, v⟩ := head
      rw [List.map_cons, List.nodup_cons] at hd
      by_cases hk : k = key
      · subst hk
        have hrest : ∀ b ∈ rest, b.1 ≠ k := fun b hb heq =>
          hd.1 (List.mem_map.mpr ⟨b, hb, heq⟩)
        have hsame : (rest.map fun b => if b.1 = k then (k, value) else b) = rest :=
          (List.map_congr_left fun b hb => if_neg (hrest b hb)).trans (List.map_id' rest)
        simp [put, hsame]
      · have hmem : key ∈ rest.map Prod.fst := by
          simpa [show ¬ key = k from fun heq => hk heq.symm] using h
        simp [put, hk, ih hd.2 hmem]

theorem Distinct.entries_insert {m : OrderedMap κ α} (hd : m.Distinct) (key : κ) (value : α) :
    (m.insert key value).entries =
      if key ∈ m.keys then m.entries.map fun b => if b.1 = key then (key, value) else b
      else m.entries ++ [(key, value)] := by
  split
  next h => exact put_of_mem hd h value
  next h => exact put_of_not_mem h value

theorem insertAll_eq_append {m : OrderedMap κ α} {bindings : List (κ × α)}
    (h : (m.keys ++ bindings.map Prod.fst).Nodup) :
    m.insertAll bindings = ⟨m.entries ++ bindings⟩ := by
  induction bindings generalizing m with
  | nil => simp [insertAll]
  | cons head rest ih =>
      obtain ⟨k, v⟩ := head
      have hnew : k ∉ m.entries.map Prod.fst := by
        intro hm
        exact (List.nodup_append.mp h).2.2 k hm k List.mem_cons_self rfl
      have hinsert : m.insert k v = ⟨m.entries ++ [(k, v)]⟩ := by
        rw [insert, put_of_not_mem hnew]
      have hkeys : (m.insert k v).keys = m.keys ++ [k] := by simp [hinsert, keys]
      have hrest : ((m.insert k v).keys ++ rest.map Prod.fst).Nodup := by simpa [hkeys] using h
      have hall := ih hrest
      simpa [insertAll, hinsert] using hall

/-- Bindings of different keys are kept as they stand. -/
theorem ofList_eq_self {bindings : List (κ × α)} (h : (bindings.map Prod.fst).Nodup) :
    ofList bindings = ⟨bindings⟩ :=
  insertAll_eq_append (m := empty) h

/-- Bindings of different keys hide what was bound before, and nothing else. -/
theorem get?_insertAll {bindings : List (κ × α)} (h : (bindings.map Prod.fst).Nodup)
    (m : OrderedMap κ α) (key : κ) :
    (m.insertAll bindings).get? key = (lookup key bindings).or (m.get? key) := by
  induction bindings generalizing m with
  | nil => rfl
  | cons head rest ih =>
      obtain ⟨k, v⟩ := head
      rw [List.map_cons, List.nodup_cons] at h
      have hrest : (m.insertAll ((k, v) :: rest)).get? key =
          (lookup key rest).or ((m.insert k v).get? key) := ih h.2 (m.insert k v)
      rw [hrest, get?_insert]
      by_cases hk : k = key
      · subst hk
        have hnone : lookup k rest = none := (lookup_eq_none_iff k rest).mpr h.1
        simp [lookup, hnone]
      · simp [lookup, hk]

theorem lookup_append (key : κ) (bindings more : List (κ × α)) :
    lookup key (bindings ++ more) = (lookup key bindings).or (lookup key more) := by
  induction bindings with
  | nil => rfl
  | cons head rest ih =>
      obtain ⟨k, v⟩ := head
      by_cases hk : k = key
      · simp [lookup, hk]
      · simp [lookup, hk, ih]

theorem lookup_map {β : Type} (f : α → β) (key : κ) (bindings : List (κ × α)) :
    lookup key (bindings.map fun b => (b.1, f b.2)) = (lookup key bindings).map f := by
  induction bindings with
  | nil => rfl
  | cons head rest ih =>
      obtain ⟨k, v⟩ := head
      by_cases hk : k = key
      · simp [lookup, hk]
      · simp [lookup, hk, ih]

theorem mem_keys_insertAll (m : OrderedMap κ α) (bindings : List (κ × α)) (key : κ) :
    key ∈ (m.insertAll bindings).keys ↔ key ∈ m.keys ∨ key ∈ bindings.map Prod.fst := by
  induction bindings generalizing m with
  | nil => simp [insertAll]
  | cons head rest ih =>
      have hrest : key ∈ (m.insertAll (head :: rest)).keys ↔
          key ∈ (m.insert head.1 head.2).keys ∨ key ∈ rest.map Prod.fst := ih _
      rw [hrest, keys_insert]
      split
      next hm =>
          rw [List.map_cons, List.mem_cons]
          exact ⟨fun h => h.imp_right .inr, fun h => h.elim .inl fun h =>
            h.elim (fun heq => .inl (heq ▸ hm)) .inr⟩
      next => simp [or_assoc]

theorem mem_keys_ofList (bindings : List (κ × α)) (key : κ) :
    key ∈ (ofList bindings).keys ↔ key ∈ bindings.map Prod.fst := by
  have h := mem_keys_insertAll empty bindings key
  simpa [ofList, empty, keys] using h

/-! ## What stays open -/

/-- At a position of a list stands an item that opens something, and no later item closes it. -/
def OpenSince {β : Type} (opens : List β → β → Prop) (closes : β → Prop) (items : List β)
    (n : Nat) : Prop :=
  ∃ before a after, items = before ++ a :: after ∧ before.length = n ∧ opens before a ∧
    ∀ later ∈ after, ¬ closes later

theorem OpenSince.lt_length {β : Type} {opens : List β → β → Prop} {closes : β → Prop}
    {items : List β} {n : Nat} (h : OpenSince opens closes items n) : n < items.length := by
  obtain ⟨before, a, after, rfl, rfl, -, -⟩ := h
  simp

/-- Either the last item opens, or it leaves open what was open. -/
theorem openSince_concat {β : Type} (opens : List β → β → Prop) (closes : β → Prop)
    (items : List β) (a : β) (n : Nat) :
    OpenSince opens closes (items ++ [a]) n ↔
      opens items a ∧ items.length = n ∨ OpenSince opens closes items n ∧ ¬ closes a := by
  constructor
  · intro h
    obtain ⟨before, first, after, hitems, hlength, hopens, hafter⟩ := h
    rcases List.eq_nil_or_concat after with rfl | ⟨rest, last, rfl⟩
    · obtain ⟨rfl, hlast⟩ := List.append_inj' hitems rfl
      obtain rfl := (List.cons.inj hlast).1
      exact .inl ⟨hopens, hlength⟩
    · rw [List.concat_eq_append, ← List.cons_append, ← List.append_assoc] at hitems
      obtain ⟨rfl, hlast⟩ := List.append_inj' hitems rfl
      obtain rfl := (List.cons.inj hlast).1
      exact .inr ⟨⟨before, first, rest, rfl, hlength, hopens, fun later hl =>
        hafter later (by simp [hl])⟩, hafter a (by simp)⟩
  · intro h
    rcases h with ⟨hopens, hlength⟩ | ⟨⟨before, first, after, rfl, hlength, hopens, hafter⟩, ha⟩
    · exact ⟨items, a, [], rfl, hlength, hopens, by simp⟩
    · refine ⟨before, first, after ++ [a], by simp, hlength, hopens, fun later hl => ?_⟩
      rcases List.mem_append.mp hl with hold | hnew
      · exact hafter later hold
      · rwa [List.mem_singleton.mp hnew]

/-! ## Last bindings -/

/-- No item after this one has its key. -/
def IsLast {β : Type} (key : β → κ) (items : List β) (b : β) : Prop :=
  ∃ before after, items = before ++ b :: after ∧ ∀ other ∈ after, key other ≠ key b

omit [DecidableEq κ] in
theorem isLast_cons {β : Type} (key : β → κ) (a : β) (rest : List β) (b : β) :
    IsLast key (a :: rest) b ↔
      IsLast key rest b ∨ b = a ∧ ∀ other ∈ rest, key other ≠ key a := by
  constructor
  · intro h
    obtain ⟨before, after, hitems, hafter⟩ := h
    cases before with
    | nil =>
        obtain ⟨rfl, rfl⟩ := List.cons.inj hitems
        exact .inr ⟨rfl, hafter⟩
    | cons first before =>
        obtain ⟨rfl, rfl⟩ := List.cons.inj hitems
        exact .inl ⟨before, after, rfl, hafter⟩
  · intro h
    rcases h with ⟨before, after, rfl, hafter⟩ | ⟨rfl, hrest⟩
    · exact ⟨a :: before, after, rfl, hafter⟩
    · exact ⟨[], rest, rfl, hrest⟩

omit [DecidableEq κ] in
theorem isLast_iff_openSince {β : Type} (key : β → κ) (items : List β) (b : β) :
    IsLast key items b ↔
      ∃ n, OpenSince (fun _ a => b = a) (fun later => key later = key b) items n := by
  constructor
  · intro h
    obtain ⟨before, after, hitems, hafter⟩ := h
    exact ⟨before.length, before, b, after, hitems, rfl, rfl, hafter⟩
  · intro h
    obtain ⟨n, before, a, after, hitems, -, rfl, hafter⟩ := h
    exact ⟨before, after, hitems, hafter⟩

omit [DecidableEq κ] in
theorem isLast_concat {β : Type} (key : β → κ) (items : List β) (a b : β) :
    IsLast key (items ++ [a]) b ↔ b = a ∨ IsLast key items b ∧ key a ≠ key b := by
  simp only [isLast_iff_openSince, openSince_concat, exists_or, exists_and_left, exists_eq',
    and_true, exists_and_right, ne_eq]

/-- Where every item overwrites what is found under its key, the last items are found. -/
theorem found_after_foldl {σ β : Type} {write : σ → β → σ} (found : σ → κ → Option α)
    {key : β → κ} {value : β → α}
    (hwrite : ∀ s b k, found (write s b) k = if key b = k then some (value b) else found s k)
    (s : σ) (items : List β) (k : κ) (v : α) :
    found (items.foldl write s) k = some v ↔
      (∃ b, IsLast key items b ∧ key b = k ∧ value b = v) ∨
        found s k = some v ∧ ∀ b ∈ items, key b ≠ k := by
  induction items generalizing s with
  | nil =>
      have hnone : ∀ b, ¬ IsLast key [] b := by
        rintro b ⟨before, after, hitems, -⟩
        simp at hitems
      simp [hnone]
  | cons a rest ih =>
      rw [List.foldl_cons, ih, hwrite]
      simp only [isLast_cons, List.forall_mem_cons]
      by_cases hk : key a = k
      · subst hk
        simp only [if_true, Option.some.injEq, ne_eq, not_true, false_and, and_false, or_false]
        constructor
        · intro h
          rcases h with ⟨b, hb, hkey, hvalue⟩ | ⟨hvalue, hrest⟩
          · exact ⟨b, .inl hb, hkey, hvalue⟩
          · exact ⟨a, .inr ⟨rfl, hrest⟩, rfl, hvalue⟩
        · intro h
          rcases h with ⟨b, hb | ⟨rfl, hrest⟩, hkey, hvalue⟩
          · exact .inl ⟨b, hb, hkey, hvalue⟩
          · exact .inr ⟨hvalue, hrest⟩
      · rw [if_neg hk]
        refine or_congr (exists_congr fun b => ?_) (by simp [hk])
        constructor
        · intro h
          exact ⟨.inl h.1, h.2⟩
        · intro h
          rcases h with ⟨hb | ⟨rfl, -⟩, hkey, hvalue⟩
          · exact ⟨hb, hkey, hvalue⟩
          · exact (hk hkey).elim

/-- A map of a list holds the last value of each key. -/
theorem get?_ofList_map {β : Type} (key : β → κ) (value : β → α) (items : List β) (k : κ)
    (v : α) :
    (ofList (items.map fun b => (key b, value b))).get? k = some v ↔
      ∃ b, IsLast key items b ∧ key b = k ∧ value b = v := by
  have hwrite : ∀ (m : OrderedMap κ α) b other,
      (m.insert (key b) (value b)).get? other =
        if key b = other then some (value b) else m.get? other :=
    fun m b other => get?_insert m (key b) other (value b)
  have hfound := found_after_foldl get? hwrite empty items k v
  simpa [ofList, insertAll, List.foldl_map] using hfound

theorem get?_ofList_append_cons (before : List (κ × α)) (key : κ) (value : α)
    {after : List (κ × α)} (h : key ∉ after.map Prod.fst) :
    (ofList (before ++ (key, value) :: after)).get? key = some value := by
  have hlast : IsLast Prod.fst (before ++ (key, value) :: after) (key, value) :=
    ⟨before, after, rfl, fun other ho heq => h (List.mem_map.mpr ⟨other, ho, heq⟩)⟩
  have hfound := get?_ofList_map Prod.fst Prod.snd (before ++ (key, value) :: after) key value
  rw [List.map_id'] at hfound
  exact hfound.mpr ⟨_, hlast, rfl, rfl⟩

/-! ## Writes -/

theorem eraseDups_concat (keys : List κ) (key : κ) :
    (keys ++ [key]).eraseDups =
      if key ∈ keys then keys.eraseDups else keys.eraseDups ++ [key] := by
  rw [List.eraseDups_append]
  by_cases h : key ∈ keys <;> simp [List.removeAll, List.eraseDups_cons, h]

/-- The map is what a list of writes leaves: the keys in the order in which they were first
written, each with what was written last. -/
structure HoldsWrites (m : OrderedMap κ α) (writes : List (κ × α)) : Prop where
  keys_eq : m.keys = (writes.map Prod.fst).eraseDups
  get?_eq_some_iff : ∀ key value, m.get? key = some value ↔ IsLast Prod.fst writes (key, value)

theorem HoldsWrites.empty : (empty : OrderedMap κ α).HoldsWrites [] where
  keys_eq := rfl
  get?_eq_some_iff := by simp [IsLast]

theorem HoldsWrites.insert {m : OrderedMap κ α} {writes : List (κ × α)} (h : m.HoldsWrites writes)
    (key : κ) (value : α) : (m.insert key value).HoldsWrites (writes ++ [(key, value)]) where
  keys_eq := by
    rw [keys_insert, h.keys_eq, List.map_append, List.map_singleton, eraseDups_concat]
    simp only [List.mem_eraseDups]
  get?_eq_some_iff := by
    intro other found
    rw [get?_insert, isLast_concat, ← h.get?_eq_some_iff]
    by_cases hkey : key = other
    · subst hkey
      simp [eq_comm]
    · have hne : ¬ other = key := fun heq => hkey heq.symm
      simp [hkey, hne]

/-! ## Erasure -/

theorem keys_discard (key : κ) (bindings : List (κ × α)) :
    (discard key bindings).map Prod.fst = (bindings.map Prod.fst).erase key := by
  induction bindings with
  | nil => rfl
  | cons head rest ih =>
      obtain ⟨k, v⟩ := head
      by_cases hk : k = key
      · simp [discard, hk]
      · simp [discard, hk, ih]

theorem keys_erase (m : OrderedMap κ α) (key : κ) : (m.erase key).keys = m.keys.erase key :=
  keys_discard key m.entries

theorem Distinct.erase {m : OrderedMap κ α} (hd : m.Distinct) (key : κ) :
    (m.erase key).Distinct := by
  unfold Distinct
  rw [keys_erase]
  exact List.Nodup.erase key hd

theorem lookup_discard (key other : κ) {bindings : List (κ × α)}
    (hd : (bindings.map Prod.fst).Nodup) :
    lookup other (discard key bindings) = if key = other then none else lookup other bindings := by
  induction bindings with
  | nil => simp [discard, lookup]
  | cons head rest ih =>
      obtain ⟨k, v⟩ := head
      rw [List.map_cons, List.nodup_cons] at hd
      by_cases hk : k = key
      · subst hk
        by_cases ho : k = other
        · subst ho
          simp only [discard, if_true]
          exact (lookup_eq_none_iff k rest).mpr hd.1
        · simp [discard, lookup, ho]
      · by_cases ho : k = other
        · subst ho
          have hne : ¬ key = k := fun h => hk h.symm
          simp [discard, lookup, hk, hne]
        · simp [discard, lookup, hk, ho, ih hd.2]

theorem Distinct.get?_erase {m : OrderedMap κ α} (hd : m.Distinct) (key other : κ) :
    (m.erase key).get? other = if key = other then none else m.get? other :=
  lookup_discard key other hd

/-- What is found of a key at its first position is its value, and taking it out erases it. -/
theorem findIdx?_key (key : κ) (bindings : List (κ × α)) :
    match bindings.findIdx? fun b => b.1 = key with
    | none => lookup key bindings = none ∧ discard key bindings = bindings
    | some n => bindings[n]?.map Prod.snd = lookup key bindings ∧
        bindings.eraseIdx n = discard key bindings := by
  induction bindings with
  | nil => simp [lookup, discard]
  | cons head rest ih =>
      obtain ⟨k, v⟩ := head
      rw [List.findIdx?_cons]
      by_cases hk : k = key
      · simp [hk, lookup, discard]
      · cases hrest : rest.findIdx? fun b => b.1 = key with
        | none => simpa [hrest, hk, lookup, discard] using ih
        | some n => simpa [hrest, hk, lookup, discard] using ih

theorem remove_eq (m : OrderedMap κ α) (key : κ) : m.remove key = (m.get? key, m.erase key) := by
  have h := findIdx?_key key m.entries
  simp only [remove, position?, get?, erase]
  split
  next hnone =>
      rw [hnone] at h
      rw [h.1, h.2]
  next n hsome =>
      rw [hsome] at h
      rw [h.1, h.2]

theorem discard_eq_filter (key : κ) {bindings : List (κ × α)}
    (hd : (bindings.map Prod.fst).Nodup) :
    discard key bindings = bindings.filter fun b => b.1 ≠ key := by
  induction bindings with
  | nil => rfl
  | cons head rest ih =>
      obtain ⟨k, v⟩ := head
      rw [List.map_cons, List.nodup_cons] at hd
      by_cases hk : k = key
      · subst hk
        have hrest : ∀ b ∈ rest, b.1 ≠ k := fun b hb heq =>
          hd.1 (List.mem_map.mpr ⟨b, hb, heq⟩)
        simpa [discard] using (List.filter_eq_self.mpr (by simpa using hrest)).symm
      · simp [discard, hk, ih hd.2]

theorem Distinct.entries_erase {m : OrderedMap κ α} (hd : m.Distinct) (key : κ) :
    (m.erase key).entries = m.entries.filter fun b => b.1 ≠ key :=
  discard_eq_filter key hd

/-- Binding a new key and unbinding it again changes nothing. -/
theorem erase_insert {m : OrderedMap κ α} {key : κ} (h : m.contains key = false) (value : α) :
    (m.insert key value).erase key = m := by
  have hnone : lookup key m.entries = none := by simpa [contains, get?] using h
  have hnew := (lookup_eq_none_iff key m.entries).mp hnone
  have hdiscard : ∀ bindings : List (κ × α), key ∉ bindings.map Prod.fst →
      discard key (bindings ++ [(key, value)]) = bindings := by
    intro bindings hbindings
    induction bindings with
    | nil => simp [discard]
    | cons head rest ih =>
        rw [List.map_cons, List.mem_cons, not_or] at hbindings
        have hk : ¬ head.1 = key := fun heq => hbindings.1 heq.symm
        simp [discard, hk, ih hbindings.2]
  simp [insert, erase, put_of_not_mem hnew, hdiscard m.entries hnew]

/-! ## Orders -/

section Orders

variable {m n : OrderedMap κ α}

omit [DecidableEq κ] in
theorem Distinct.perm (hd : m.Distinct) (h : m.entries.Perm n.entries) : n.Distinct :=
  (h.map Prod.fst).nodup_iff.mp hd

/-- Look-ups do not depend on the order of the entries. -/
theorem Distinct.get?_perm (hd : m.Distinct) (h : m.entries.Perm n.entries) : n.get? = m.get? := by
  funext key
  refine Option.ext fun value => ?_
  rw [(hd.perm h).get?_eq_some_iff, hd.get?_eq_some_iff, h.mem_iff]

theorem Distinct.perm_of_get? (hm : m.Distinct) (hn : n.Distinct) (h : n.get? = m.get?) :
    m.entries.Perm n.entries := by
  have hentries : ∀ {o : OrderedMap κ α}, o.Distinct → o.entries.Nodup :=
    fun hd => List.Pairwise.of_map Prod.fst (fun _ _ hne heq => hne (congrArg Prod.fst heq)) hd
  refine (List.perm_ext_iff_of_nodup (hentries hm) (hentries hn)).mpr fun entry => ?_
  rw [← hm.get?_eq_some_iff entry.1 entry.2, ← h, hn.get?_eq_some_iff entry.1 entry.2]

theorem Distinct.insert_perm (hd : m.Distinct) (h : m.entries.Perm n.entries) (key : κ)
    (value : α) : (m.insert key value).entries.Perm (n.insert key value).entries := by
  refine (hd.insert key value).perm_of_get? ((hd.perm h).insert key value) ?_
  funext other
  rw [get?_insert, get?_insert, hd.get?_perm h]

theorem Distinct.erase_perm (hd : m.Distinct) (h : m.entries.Perm n.entries) (key : κ) :
    (m.erase key).entries.Perm (n.erase key).entries := by
  refine (hd.erase key).perm_of_get? ((hd.perm h).erase key) ?_
  funext other
  rw [hd.get?_erase, (hd.perm h).get?_erase, hd.get?_perm h]

end Orders

end OrderedMap

end GraphGateway
