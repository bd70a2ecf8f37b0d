import GraphGateway.Value.GraphSON
import GraphGateway.Proofs.Except
import GraphGateway.Proofs.OrderedMap

/-!
# Documents that decode as they stand

Decoding never makes more of a document than there is in it, and makes less of it
where it finds a type. So a document is taken as it stands exactly if the decoder
finds no type in it, and the decoder does not look into arrays.
-/

namespace GraphGateway

namespace GraphSON

/-! ## Item by item -/

theorem decodeItems_eq_mapM (items : List Json) : decodeItems items = items.mapM decode := by
  induction items with
  | nil => rfl
  | cons item rest ih =>
      rw [List.mapM_cons, ← ih, decodeItems]
      rfl

def decodeNamed (field : String × Json) : Except DecodeError (Key × Value) :=
  (decode field.2).map fun v => (.name field.1, v)

theorem decodeFields_eq_mapM (fields : List (String × Json)) :
    decodeFields fields = fields.mapM decodeNamed := by
  induction fields with
  | nil => rfl
  | cons field rest ih =>
      rw [List.mapM_cons, ← ih, decodeFields]
      cases h : decodeAs none field.2 <;> simp [decodeNamed, decode, h] <;> rfl

def decodePair (pair : Json × Json) : Except DecodeError (Key × Value) := do
  let k ← decode pair.1
  let v ← decode pair.2
  .ok (mapKey k, v)

theorem decodePair_eq_ok {key value : Json} {entry : Key × Value}
    (h : decodePair (key, value) = .ok entry) :
    ∃ k v, decode key = .ok k ∧ decode value = .ok v ∧ entry = (mapKey k, v) := by
  obtain ⟨k, hk, h⟩ := Except.bind_eq_ok.mp h
  obtain ⟨v, hv, h⟩ := Except.bind_eq_ok.mp h
  cases h
  exact ⟨k, v, hk, hv, rfl⟩

/-- Keys and values in turn. -/
def alternating (pairs : List (Json × Json)) : List Json :=
  pairs.flatMap fun pair => [pair.1, pair.2]

theorem alternating_cons (pair : Json × Json) (rest : List (Json × Json)) :
    alternating (pair :: rest) = pair.1 :: pair.2 :: alternating rest :=
  rfl

theorem length_alternating (pairs : List (Json × Json)) :
    (alternating pairs).length = 2 * pairs.length := by
  induction pairs with
  | nil => rfl
  | cons pair rest ih =>
      rw [alternating_cons, List.length_cons, List.length_cons, ih, List.length_cons]
      omega

theorem decodePairs_alternating (pairs : List (Json × Json)) :
    decodePairs (alternating pairs) = pairs.mapM decodePair := by
  induction pairs with
  | nil => rfl
  | cons pair rest ih =>
      rw [List.mapM_cons, ← ih, alternating_cons, decodePairs]
      cases hkey : decodeAs none pair.1 with
      | error e =>
          simp [decodePair, decode, hkey]
          rfl
      | ok k =>
          cases hvalue : decodeAs none pair.2 <;> simp [decodePair, decode, hkey, hvalue] <;> rfl

/-- A plain array is taken as it stands. -/
theorem decode_array (items : List Json) :
    decode (.array items) = .ok (.list (items.map Value.ofJson)) := by
  have hitems : Value.ofJsonItems items = items.map Value.ofJson := by
    induction items with
    | nil => rfl
    | cons item rest ih => rw [List.map_cons, ← ih, Value.ofJsonItems]
  rw [decode, decodeAs, Value.ofJson, hitems]

/-- The values of an object without a type are decoded. -/
theorem decode_object {fields : List (String × Json)} (h : tag? fields = none) :
    decode (.object ⟨fields⟩) =
      (fields.mapM decodeNamed).map fun entries => .map (.ofList entries) := by
  simp [decode, decodeAs, h, decodeFields_eq_mapM]

theorem map_fst_of_decodeFields {fields : List (String × Json)} {entries : List (Key × Value)}
    (h : decodeFields fields = .ok entries) :
    entries.map Prod.fst = fields.map fun field => Key.name field.1 := by
  rw [decodeFields_eq_mapM] at h
  induction fields generalizing entries with
  | nil =>
      cases h
      rfl
  | cons field rest ih =>
      obtain ⟨entry, others, hentry, hothers, rfl⟩ := Except.mapM_cons_eq_ok.mp h
      obtain ⟨v, -, rfl⟩ := Except.map_eq_ok.mp hentry
      rw [List.map_cons, List.map_cons, ih hothers]

/-! ## Types -/

mutual

/-- No object has two fields of one name. -/
def NamesDistinct : Json → Prop
  | .array items => NamesDistinctItems items
  | .object ⟨fields⟩ => (fields.map Prod.fst).Nodup ∧ NamesDistinctFields fields
  | _ => True

def NamesDistinctItems : List Json → Prop
  | [] => True
  | item :: rest => NamesDistinct item ∧ NamesDistinctItems rest

def NamesDistinctFields : List (String × Json) → Prop
  | [] => True
  | (_, value) :: rest => NamesDistinct value ∧ NamesDistinctFields rest

end

mutual

/-- No object has a type, of those that stand in no array. -/
def Untyped : Json → Prop
  | .object ⟨fields⟩ => tag? fields = none ∧ UntypedFields fields
  | _ => True

def UntypedFields : List (String × Json) → Prop
  | [] => True
  | (_, value) :: rest => Untyped value ∧ UntypedFields rest

end

/-- Every typed object has a payload. -/
theorem payload_of_tag? {fields : List (String × Json)} {tag : String}
    (h : tag? fields = some tag) : "@value" ∈ fields.map Prod.fst := by
  refine Decidable.byContradiction fun hnone => ?_
  rw [← OrderedMap.lookup_eq_none_iff] at hnone
  simp [tag?, hnone] at h

end GraphSON

/-! ## Weights -/

namespace Value

mutual

/-- The number of values that a value consists of, where those of a map count twice. -/
def weight : Value → Nat
  | .list items => weightItems items + 1
  | .map ⟨entries⟩ => weightEntries entries + 1
  | _ => 1

def weightItems : List Value → Nat
  | [] => 0
  | item :: rest => weight item + weightItems rest

def weightEntries : List (Key × Value) → Nat
  | [] => 0
  | (_, value) :: rest => weight value + 1 + weightEntries rest

end

theorem weight_pos (v : Value) : 1 ≤ v.weight := by
  cases v <;> simp [weight]

/-- An entry that is replaced weighs nothing any more. -/
theorem weightEntries_put (key : Key) (value : Value) (entries : List (Key × Value)) :
    weightEntries (OrderedMap.put key value entries) ≤
      value.weight + 1 + weightEntries entries := by
  induction entries with
  | nil => simp [OrderedMap.put, weightEntries]
  | cons entry rest ih =>
      obtain ⟨k, v⟩ := entry
      by_cases hk : k = key
      · simp [OrderedMap.put, hk, weightEntries]
      · simp only [OrderedMap.put, hk, if_false, weightEntries]
        omega

theorem weight_insertAll (m : OrderedMap Key Value) (entries : List (Key × Value)) :
    weightEntries (m.insertAll entries).entries ≤
      weightEntries m.entries + weightEntries entries := by
  induction entries generalizing m with
  | nil => simp [OrderedMap.insertAll, weightEntries]
  | cons entry rest ih =>
      have hrest := ih (m.insert entry.1 entry.2)
      have hput := weightEntries_put entry.1 entry.2 m.entries
      have hinsert : (m.insert entry.1 entry.2).entries =
          OrderedMap.put entry.1 entry.2 m.entries := rfl
      have hcons : m.insertAll (entry :: rest) = (m.insert entry.1 entry.2).insertAll rest := rfl
      rw [hinsert] at hrest
      rw [hcons, weightEntries]
      omega

theorem weight_map_ofList (entries : List (Key × Value)) :
    (Value.map (.ofList entries)).weight ≤ weightEntries entries + 1 := by
  have h := weight_insertAll .empty entries
  have hempty : weightEntries (OrderedMap.empty : OrderedMap Key Value).entries = 0 := rfl
  show weightEntries (OrderedMap.empty.insertAll entries).entries + 1 ≤ _
  omega

theorem map_fst_ofJsonFields (fields : List (String × Json)) :
    (ofJsonFields fields).map Prod.fst = fields.map fun field => Key.name field.1 := by
  induction fields with
  | nil => rfl
  | cons field rest ih => rw [ofJsonFields, List.map_cons, List.map_cons, ih]

theorem nodup_ofJsonFields {fields : List (String × Json)} (h : (fields.map Prod.fst).Nodup) :
    ((ofJsonFields fields).map Prod.fst).Nodup := by
  have hnames : (ofJsonFields fields).map Prod.fst = (fields.map Prod.fst).map Key.name := by
    rw [map_fst_ofJsonFields, List.map_map]
    rfl
  rw [hnames]
  exact List.Pairwise.map Key.name (fun _ _ hne heq => hne (Key.name.inj heq)) h

theorem weight_ofJson_object {fields : List (String × Json)} (h : (fields.map Prod.fst).Nodup) :
    (ofJson (.object ⟨fields⟩)).weight = weightEntries (ofJsonFields fields) + 1 := by
  rw [ofJson, OrderedMap.ofList_eq_self (nodup_ofJsonFields h), weight]

end Value

namespace GraphSON

open Value (weight weightItems weightEntries weight_pos)

theorem float?_eq_some {found : Json} {v : Value} (h : float? found = some v) :
    ∃ x, v = .float x := by
  cases found with
  | int n => exact ⟨_, (Option.some.inj h).symm⟩
  | float x => exact ⟨_, (Option.some.inj h).symm⟩
  | string s =>
      simp only [float?] at h
      split at h
      next => exact ⟨_, (Option.some.inj h).symm⟩
      split at h
      next => exact ⟨_, (Option.some.inj h).symm⟩
      split at h
      next => exact ⟨_, (Option.some.inj h).symm⟩
      next => cases h
  | _ => cases h

theorem weight_scalar? {payload : Payload} {found : Json} {v : Value}
    (h : scalar? payload found = some v) : v.weight = 1 := by
  cases payload with
  | integer =>
      obtain ⟨n, -, rfl⟩ := Option.map_eq_some_iff.mp h
      simp [weight]
  | float =>
      obtain ⟨x, rfl⟩ := float?_eq_some h
      simp [weight]
  | date =>
      obtain ⟨n, -, h⟩ := Option.bind_eq_some_iff.mp h
      obtain ⟨t, -, rfl⟩ := Option.map_eq_some_iff.mp h
      simp [weight]
  | uuid =>
      obtain ⟨s, -, h⟩ := Option.bind_eq_some_iff.mp h
      obtain ⟨u, -, rfl⟩ := Option.map_eq_some_iff.mp h
      simp [weight]
  | token =>
      obtain ⟨s, -, h⟩ := Option.bind_eq_some_iff.mp h
      obtain ⟨t, -, rfl⟩ := Option.map_eq_some_iff.mp h
      simp [weight]
  | _ => cases h

theorem weight_fit {payload : Payload} {tag : String} {found : Json} {v : Value}
    (h : fit tag found (scalar? payload found) = .ok v) :
    v.weight ≤ (Value.ofJson found).weight := by
  cases hscalar : scalar? payload found with
  | none =>
      rw [hscalar] at h
      cases h
  | some w =>
      rw [hscalar] at h
      cases h
      rw [weight_scalar? hscalar]
      exact weight_pos _

mutual

theorem weight_decodeAs : ∀ (j : Json) (tag : Option (String × Payload)) {v : Value},
    NamesDistinct j → decodeAs tag j = .ok v → v.weight ≤ (Value.ofJson j).weight
  | .object ⟨fields⟩, tag, v, hd, h => by
      rw [NamesDistinct] at hd
      rw [Value.weight_ofJson_object hd.1]
      cases tag with
      | none =>
          cases htag : tag? fields with
          | some name =>
              rw [decodeAs] at h
              simp only [htag] at h
              have hpayload := weight_decodePayload fields _ hd.2 (payload_of_tag? htag) h
              omega
          | none =>
              rw [← decode, decode_object htag, ← decodeFields_eq_mapM] at h
              obtain ⟨entries, hentries, rfl⟩ := Except.map_eq_ok.mp h
              have hfields := weight_decodeFields fields hd.2 hentries
              have hmerged := Value.weight_map_ofList entries
              omega
      | some typed =>
          obtain ⟨name, kind⟩ := typed
          cases kind with
          | vertex =>
              obtain ⟨id, -, h⟩ := Except.bind_eq_ok.mp h
              cases h
              simp [weight]
          | edge =>
              obtain ⟨id, -, h⟩ := Except.bind_eq_ok.mp h
              obtain ⟨source, -, h⟩ := Except.bind_eq_ok.mp h
              obtain ⟨target, -, h⟩ := Except.bind_eq_ok.mp h
              cases h
              simp [weight]
          | property =>
              rw [decodeAs] at h
              cases hfield : decodeField "value" fields with
              | none =>
                  rw [hfield] at h
                  cases h
                  simp [weight]
              | some result =>
                  rw [hfield] at h
                  have hresult : result = .ok v := h
                  subst hresult
                  have hvalue := weight_decodeField fields "value" hd.2 hfield
                  omega
          | _ => cases h
  | .array items, tag, v, hd, h => by
      rw [NamesDistinct] at hd
      cases tag with
      | none =>
          cases h
          exact Nat.le_refl _
      | some typed =>
          obtain ⟨name, kind⟩ := typed
          cases kind with
          | list =>
              obtain ⟨values, hvalues, rfl⟩ := Except.map_eq_ok.mp h
              have hitems := weight_decodeItems items hd hvalues
              rw [Value.ofJson, weight, weight]
              omega
          | map =>
              rw [decodeAs] at h
              split at h
              next =>
                  obtain ⟨entries, hentries, rfl⟩ := Except.map_eq_ok.mp h
                  have hpairs := weight_decodePairs items hd hentries
                  have hmerged := Value.weight_map_ofList entries
                  rw [Value.ofJson, weight]
                  omega
              next => cases h
          | _ => cases h
  | .null, tag, v, _, h | .bool _, tag, v, _, h | .int _, tag, v, _, h | .float _, tag, v, _, h
  | .string _, tag, v, _, h => by
      cases tag with
      | none =>
          cases h
          exact Nat.le_refl _
      | some typed => exact weight_fit h

/-- What a typed object becomes weighs less than its payload as it stands. -/
theorem weight_decodePayload : ∀ (fields : List (String × Json))
    (tag : Option (String × Payload)) {v : Value}, NamesDistinctFields fields →
    "@value" ∈ fields.map Prod.fst → decodePayload tag fields = .ok v →
      v.weight + 1 ≤ weightEntries (Value.ofJsonFields fields)
  | [], _, _, _, hpayload, _ => (List.not_mem_nil hpayload).elim
  | (name, value) :: rest, tag, v, hd, hpayload, h => by
      rw [NamesDistinctFields] at hd
      rw [decodePayload] at h
      rw [Value.ofJsonFields, weightEntries]
      by_cases hname : name = "@value"
      · rw [if_pos hname] at h
        have hvalue := weight_decodeAs value tag hd.1 h
        omega
      · rw [if_neg hname] at h
        have hrest : "@value" ∈ rest.map Prod.fst := by
          rw [List.map_cons, List.mem_cons] at hpayload
          exact hpayload.resolve_left fun heq => hname heq.symm
        have hothers := weight_decodePayload rest tag hd.2 hrest h
        omega

theorem weight_decodeField : ∀ (fields : List (String × Json)) (wanted : String) {v : Value},
    NamesDistinctFields fields → decodeField wanted fields = some (.ok v) →
      v.weight ≤ weightEntries (Value.ofJsonFields fields)
  | [], _, _, _, h => by cases h
  | (name, value) :: rest, wanted, v, hd, h => by
      rw [NamesDistinctFields] at hd
      rw [decodeField] at h
      rw [Value.ofJsonFields, weightEntries]
      by_cases hname : name = wanted
      · rw [if_pos hname] at h
        have hvalue := weight_decodeAs value none hd.1 (Option.some.inj h)
        omega
      · rw [if_neg hname] at h
        have hothers := weight_decodeField rest wanted hd.2 h
        omega

theorem weight_decodeFields : ∀ (fields : List (String × Json)) {entries : List (Key × Value)},
    NamesDistinctFields fields → decodeFields fields = .ok entries →
      weightEntries entries ≤ weightEntries (Value.ofJsonFields fields)
  | [], _, _, h => by
      cases h
      exact Nat.le_refl _
  | (name, value) :: rest, entries, hd, h => by
      rw [NamesDistinctFields] at hd
      obtain ⟨v, hv, h⟩ := Except.bind_eq_ok.mp h
      obtain ⟨others, hothers, h⟩ := Except.bind_eq_ok.mp h
      cases h
      have hvalue := weight_decodeAs value none hd.1 hv
      have hrest := weight_decodeFields rest hd.2 hothers
      rw [Value.ofJsonFields, weightEntries, weightEntries]
      omega

theorem weight_decodeItems : ∀ (items : List Json) {values : List Value},
    NamesDistinctItems items → decodeItems items = .ok values →
      weightItems values ≤ weightItems (Value.ofJsonItems items)
  | [], _, _, h => by
      cases h
      exact Nat.le_refl _
  | item :: rest, values, hd, h => by
      rw [NamesDistinctItems] at hd
      obtain ⟨v, hv, h⟩ := Except.bind_eq_ok.mp h
      obtain ⟨others, hothers, h⟩ := Except.bind_eq_ok.mp h
      cases h
      have hvalue := weight_decodeAs item none hd.1 hv
      have hrest := weight_decodeItems rest hd.2 hothers
      rw [Value.ofJsonItems, weightItems, weightItems]
      omega

/-- An entry weighs no more than its key and its value do as they stand. -/
theorem weight_decodePairs : ∀ (items : List Json) {entries : List (Key × Value)},
    NamesDistinctItems items → decodePairs items = .ok entries →
      weightEntries entries ≤ weightItems (Value.ofJsonItems items)
  | [], _, _, h => by
      cases h
      exact Nat.le_refl _
  | [_], _, _, h => by
      cases h
      exact Nat.zero_le _
  | key :: value :: rest, entries, hd, h => by
      rw [NamesDistinctItems, NamesDistinctItems] at hd
      obtain ⟨k, -, h⟩ := Except.bind_eq_ok.mp h
      obtain ⟨v, hv, h⟩ := Except.bind_eq_ok.mp h
      obtain ⟨others, hothers, h⟩ := Except.bind_eq_ok.mp h
      cases h
      have hkey := weight_pos (Value.ofJson key)
      have hvalue := weight_decodeAs value none hd.2.1 hv
      have hrest := weight_decodePairs rest hd.2.2 hothers
      rw [Value.ofJsonItems, Value.ofJsonItems, weightEntries, weightItems, weightItems]
      omega

end

/-! ## Documents as they stand -/

/-- A typed object is not taken as it stands. -/
theorem decode_ne_ofJson_of_tag {fields : List (String × Json)} {tag : String}
    (hd : NamesDistinct (.object ⟨fields⟩)) (htag : tag? fields = some tag) :
    decode (.object ⟨fields⟩) ≠ .ok (Value.ofJson (.object ⟨fields⟩)) := by
  intro h
  rw [decode, decodeAs] at h
  simp only [htag] at h
  rw [NamesDistinct] at hd
  have hless := weight_decodePayload fields _ hd.2 (payload_of_tag? htag) h
  rw [Value.weight_ofJson_object hd.1] at hless
  omega

mutual

/-- A document is taken as it stands exactly if nothing in it has a type, up to arrays. -/
theorem decodeAs_eq_ofJson_iff : ∀ j : Json, NamesDistinct j →
    (decodeAs none j = .ok (Value.ofJson j) ↔ Untyped j)
  | .object ⟨fields⟩, hd => by
      cases htag : tag? fields with
      | some tag =>
          have hne := decode_ne_ofJson_of_tag hd htag
          rw [Untyped, htag]
          exact ⟨fun h => (hne h).elim, fun h => by cases h.1⟩
      | none =>
          rw [NamesDistinct] at hd
          rw [Untyped, ← decodeFields_eq_ofJson_iff fields hd.2]
          rw [← decode, decode_object htag, ← decodeFields_eq_mapM, Value.ofJson]
          constructor
          · intro h
            obtain ⟨entries, hentries, hsame⟩ := Except.map_eq_ok.mp h
            -- with different names, nothing is merged on either side
            have hplain := OrderedMap.ofList_eq_self (Value.nodup_ofJsonFields hd.1)
            have hnames : (entries.map Prod.fst).Nodup := by
              rw [map_fst_of_decodeFields hentries, ← Value.map_fst_ofJsonFields]
              exact Value.nodup_ofJsonFields hd.1
            have hkept := OrderedMap.ofList_eq_self hnames
            rw [hplain, hkept] at hsame
            have hfields : entries = Value.ofJsonFields fields :=
              congrArg OrderedMap.entries (Value.map.inj hsame)
            exact ⟨htag, hfields ▸ hentries⟩
          · rintro ⟨-, h⟩
            rw [h]
            rfl
  | .array _, _ | .null, _ | .bool _, _ | .int _, _ | .float _, _ | .string _, _ =>
      ⟨fun _ => trivial, fun _ => rfl⟩

theorem decodeFields_eq_ofJson_iff : ∀ fields : List (String × Json), NamesDistinctFields fields →
    (decodeFields fields = .ok (Value.ofJsonFields fields) ↔ UntypedFields fields)
  | [], _ => by
      rw [UntypedFields]
      exact iff_of_true rfl trivial
  | (name, value) :: rest, hd => by
      rw [NamesDistinctFields] at hd
      rw [UntypedFields, ← decodeAs_eq_ofJson_iff value hd.1,
        ← decodeFields_eq_ofJson_iff rest hd.2, decodeFields, Value.ofJsonFields]
      constructor
      · intro h
        obtain ⟨v, hv, h⟩ := Except.bind_eq_ok.mp h
        obtain ⟨others, hothers, h⟩ := Except.bind_eq_ok.mp h
        obtain ⟨hhead, rfl⟩ := List.cons.inj (Except.ok.inj h)
        rw [hv, (Prod.mk.inj hhead).2]
        exact ⟨rfl, hothers⟩
      · rintro ⟨hv, hothers⟩
        rw [hv, hothers]
        rfl

end

end GraphSON

end GraphGateway
