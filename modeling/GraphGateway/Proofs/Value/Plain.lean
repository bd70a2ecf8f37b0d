import GraphGateway.Value.Json
import GraphGateway.Proofs.Json
import GraphGateway.Proofs.Value.Untyped

/-!
# Values as plain as JSON

A document becomes a value and a value a document, and nothing is lost on the way
there and back as long as both sides can hold it. A document can be held if no
object names a field twice and every whole number fits a word; a value if it has
no kind that JSON lacks and its maps are keyed by different property names. Both
conditions are exact: whatever else is converted comes back as something else.
-/

namespace GraphGateway

namespace Json

mutual

/-- Every whole number fits 64 bits with sign. -/
def WholesFit : Json → Prop
  | .int n => fitsInt64 n = true
  | .array items => WholesFitItems items
  | .object ⟨fields⟩ => WholesFitFields fields
  | _ => True

def WholesFitItems : List Json → Prop
  | [] => True
  | item :: rest => WholesFit item ∧ WholesFitItems rest

def WholesFitFields : List (String × Json) → Prop
  | [] => True
  | (_, value) :: rest => WholesFit value ∧ WholesFitFields rest

end

end Json

namespace Value

open GraphSON (NamesDistinct NamesDistinctItems NamesDistinctFields)

mutual

/-- Of the kinds that JSON has; maps have property names for keys, none of them twice. -/
def JsonLike : Value → Prop
  | .null => True
  | .bool _ => True
  | .int _ => True
  | .float (.finite _) => True
  | .string _ => True
  | .list items => JsonLikeItems items
  | .map ⟨entries⟩ => (entries.map Prod.fst).Nodup ∧ JsonLikeEntries entries
  | _ => False

def JsonLikeItems : List Value → Prop
  | [] => True
  | item :: rest => JsonLike item ∧ JsonLikeItems rest

def JsonLikeEntries : List (Key × Value) → Prop
  | [] => True
  | (.name _, value) :: rest => JsonLike value ∧ JsonLikeEntries rest
  | (.token _, _) :: _ => False

end

/-! ## Keys -/

theorem map_fst_toJsonEntries (entries : List (Key × Value)) :
    (toJsonEntries entries).map Prod.fst = (entries.map Prod.fst).map Key.plainName := by
  induction entries with
  | nil => rfl
  | cons entry rest ih => rw [toJsonEntries, List.map_cons, List.map_cons, List.map_cons, ih]

/-- Different property names stay different as names in an object. -/
theorem nodup_toJsonEntries {entries : List (Key × Value)} {names : List String}
    (hnames : entries.map Prod.fst = names.map Key.name) (hd : (entries.map Prod.fst).Nodup) :
    ((toJsonEntries entries).map Prod.fst).Nodup := by
  have hplain : (toJsonEntries entries).map Prod.fst = names := by
    rw [map_fst_toJsonEntries, hnames, List.map_map]
    exact List.map_id names
  rw [hplain]
  rw [hnames] at hd
  exact List.Pairwise.of_map Key.name (fun _ _ hne heq => hne (congrArg Key.name heq)) hd

theorem names_of_jsonLikeEntries {entries : List (Key × Value)} (h : JsonLikeEntries entries) :
    ∃ names : List String, entries.map Prod.fst = names.map Key.name := by
  induction entries with
  | nil => exact ⟨[], rfl⟩
  | cons entry rest ih =>
      obtain ⟨key, value⟩ := entry
      cases key with
      | token t =>
          rw [JsonLikeEntries] at h
          exact h.elim
      | name s =>
          rw [JsonLikeEntries] at h
          obtain ⟨names, hnames⟩ := ih h.2
          exact ⟨s :: names, by rw [List.map_cons, hnames, List.map_cons]⟩

/-- All keys that come from a document are property names. -/
theorem names_of_ofList {fields : List (String × Json)} {entries : List (Key × Value)}
    (h : OrderedMap.ofList (ofJsonFields fields) = ⟨entries⟩) :
    ∃ names : List String, entries.map Prod.fst = names.map Key.name := by
  have hkeys : ∀ key ∈ entries.map Prod.fst, ∃ name, key = Key.name name := by
    intro key hkey
    have hmem : key ∈ (OrderedMap.ofList (ofJsonFields fields)).keys := h ▸ hkey
    rw [OrderedMap.mem_keys_ofList, map_fst_ofJsonFields] at hmem
    obtain ⟨field, -, hfield⟩ := List.mem_map.mp hmem
    exact ⟨field.1, hfield.symm⟩
  refine ⟨(entries.map Prod.fst).map Key.plainName, ?_⟩
  rw [List.map_map]
  refine (List.map_id _).symm.trans (List.map_congr_left fun key hkey => ?_)
  obtain ⟨name, rfl⟩ := hkeys key hkey
  rfl

/-! ## Objects and maps -/

theorem toJson_map (m : Record) : (Value.map m).toJson = .ofFields (toJsonEntries m.entries) := by
  cases m
  rw [toJson]

theorem ofJson_object (fields : Fields) :
    ofJson (.object fields) = .map (.ofList (ofJsonFields fields.entries)) := by
  cases fields
  rw [ofJson]

/-- An object comes back as it was exactly if its names differ and its values come back. -/
theorem object_returns_iff (fields : List (String × Json)) :
    (ofJson (.object ⟨fields⟩)).toJson = .object ⟨fields⟩ ↔
      (fields.map Prod.fst).Nodup ∧ toJsonEntries (ofJsonFields fields) = fields := by
  rw [ofJson_object, toJson_map, Json.ofFields, Json.object.injEq]
  have hkept : (fields.map Prod.fst).Nodup →
      OrderedMap.ofList (toJsonEntries (OrderedMap.ofList (ofJsonFields fields)).entries) =
        ⟨toJsonEntries (ofJsonFields fields)⟩ := by
    intro hd
    have hnames : (ofJsonFields fields).map Prod.fst = (fields.map Prod.fst).map Key.name := by
      rw [map_fst_ofJsonFields, List.map_map]
      rfl
    have hkeys := nodup_ofJsonFields hd
    rw [OrderedMap.ofList_eq_self hkeys,
      OrderedMap.ofList_eq_self (nodup_toJsonEntries hnames hkeys)]
  constructor
  · intro h
    have hd := OrderedMap.Distinct.ofList
      (toJsonEntries (OrderedMap.ofList (ofJsonFields fields)).entries)
    rw [h] at hd
    rw [hkept hd] at h
    exact ⟨hd, congrArg OrderedMap.entries h⟩
  · intro h
    rw [hkept h.1, h.2]

/-- A map comes back as it was exactly if its keys are different property names and its values
come back. -/
theorem map_returns_iff (entries : List (Key × Value)) :
    ofJson (Value.map ⟨entries⟩).toJson = .map ⟨entries⟩ ↔
      (entries.map Prod.fst).Nodup ∧ (∃ names : List String,
        entries.map Prod.fst = names.map Key.name) ∧
          ofJsonFields (toJsonEntries entries) = entries := by
  rw [toJson_map, Json.ofFields, ofJson_object, Value.map.injEq]
  have hkept : (entries.map Prod.fst).Nodup → (∃ names : List String,
      entries.map Prod.fst = names.map Key.name) →
      OrderedMap.ofList (ofJsonFields (OrderedMap.ofList (toJsonEntries entries)).entries) =
        ⟨ofJsonFields (toJsonEntries entries)⟩ := by
    intro hd hnames
    obtain ⟨names, hnames⟩ := hnames
    have hfields := nodup_toJsonEntries hnames hd
    rw [OrderedMap.ofList_eq_self hfields,
      OrderedMap.ofList_eq_self (nodup_ofJsonFields hfields)]
  constructor
  · intro h
    have hd := OrderedMap.Distinct.ofList
      (ofJsonFields (OrderedMap.ofList (toJsonEntries entries)).entries)
    have hnames := names_of_ofList h
    rw [h] at hd
    rw [hkept hd hnames] at h
    exact ⟨hd, hnames, congrArg OrderedMap.entries h⟩
  · intro h
    rw [hkept h.1 h.2.1, h.2.2]

/-! ## There and back -/

theorem toJson_ofWhole_iff (n : Int) :
    (ofWhole n).toJson = .int n ↔ Json.fitsInt64 n = true := by
  by_cases h : Json.fitsInt64 n = true
  · have hword := (Json.fitsInt64_iff n).mp h
    simp [ofWhole, h, toJson, Json.ofInt64, hword]
  · have hfloat : (ofWhole n).toJson ≠ .int n := by
      rw [ofWhole, if_neg h]
      cases Binary64.ofInt n <;> simp [toJson]
    exact iff_of_false hfloat h

mutual

theorem document_returns_iff : ∀ j : Json,
    (ofJson j).toJson = j ↔ NamesDistinct j ∧ j.WholesFit
  | .null => by simp [ofJson, toJson, NamesDistinct, Json.WholesFit]
  | .bool b => by simp [ofJson, toJson, NamesDistinct, Json.WholesFit]
  | .int n => by
      rw [ofJson, toJson_ofWhole_iff]
      simp [NamesDistinct, Json.WholesFit]
  | .float x => by simp [ofJson, toJson, NamesDistinct, Json.WholesFit]
  | .string s => by simp [ofJson, toJson, NamesDistinct, Json.WholesFit]
  | .array items => by
      rw [ofJson, toJson, Json.array.injEq, items_return_iff items, NamesDistinct, Json.WholesFit]
  | .object ⟨fields⟩ => by
      rw [object_returns_iff, fields_return_iff fields, NamesDistinct, Json.WholesFit, and_assoc]

theorem items_return_iff : ∀ items : List Json,
    toJsonItems (ofJsonItems items) = items ↔
      NamesDistinctItems items ∧ Json.WholesFitItems items
  | [] => by simp [ofJsonItems, toJsonItems, NamesDistinctItems, Json.WholesFitItems]
  | item :: rest => by
      rw [ofJsonItems, toJsonItems, List.cons.injEq, document_returns_iff item,
        items_return_iff rest, NamesDistinctItems, Json.WholesFitItems, and_and_and_comm]

theorem fields_return_iff : ∀ fields : List (String × Json),
    toJsonEntries (ofJsonFields fields) = fields ↔
      NamesDistinctFields fields ∧ Json.WholesFitFields fields
  | [] => by simp [ofJsonFields, toJsonEntries, NamesDistinctFields, Json.WholesFitFields]
  | (name, value) :: rest => by
      have hname : (Key.name name).plainName = name := rfl
      rw [ofJsonFields, toJsonEntries, List.cons.injEq, hname, Prod.mk.injEq,
        document_returns_iff value, fields_return_iff rest, NamesDistinctFields,
        Json.WholesFitFields]
      simp only [true_and, and_and_and_comm]

end

mutual

theorem value_returns_iff : ∀ v : Value, ofJson v.toJson = v ↔ v.JsonLike
  | .null => by simp [ofJson, toJson, JsonLike]
  | .bool b => by simp [ofJson, toJson, JsonLike]
  | .int n => by simp [toJson, Json.ofInt64, ofJson, ofWhole, Json.fitsInt64_toInt, JsonLike]
  | .float (.finite x) => by simp [ofJson, toJson, JsonLike]
  | .float .nan => by simp [ofJson, toJson, JsonLike]
  | .float (.infinite negative) => by simp [ofJson, toJson, JsonLike]
  | .string s => by simp [ofJson, toJson, JsonLike]
  | .date t => by simp [ofJson, toJson, JsonLike]
  | .uuid u => by simp [ofJson, toJson, JsonLike]
  | .list items => by
      rw [toJson, ofJson, Value.list.injEq, values_return_iff items, JsonLike]
  | .map ⟨entries⟩ => by
      rw [map_returns_iff, entries_return_iff entries, JsonLike]
      constructor
      · intro h
        exact ⟨h.1, h.2.2⟩
      · intro h
        exact ⟨h.1, names_of_jsonLikeEntries h.2, h.2⟩
  | .vertex v => by simp [toJson, Json.ofFields, ofJson_object, JsonLike]
  | .edge e => by simp [toJson, Json.ofFields, ofJson_object, JsonLike]
  | .token t => by simp [ofJson, toJson, JsonLike]

theorem values_return_iff : ∀ items : List Value,
    ofJsonItems (toJsonItems items) = items ↔ JsonLikeItems items
  | [] => by simp [ofJsonItems, toJsonItems, JsonLikeItems]
  | item :: rest => by
      rw [toJsonItems, ofJsonItems, List.cons.injEq, value_returns_iff item,
        values_return_iff rest, JsonLikeItems]

theorem entries_return_iff : ∀ entries : List (Key × Value),
    ofJsonFields (toJsonEntries entries) = entries ↔ JsonLikeEntries entries
  | [] => by simp [ofJsonFields, toJsonEntries, JsonLikeEntries]
  | (.name s, value) :: rest => by
      have hname : (Key.name s).plainName = s := rfl
      rw [toJsonEntries, ofJsonFields, List.cons.injEq, hname, Prod.mk.injEq,
        value_returns_iff value, entries_return_iff rest, JsonLikeEntries]
      simp only [true_and]
  | (.token t, value) :: rest => by simp [toJsonEntries, ofJsonFields, JsonLikeEntries]

end

/-- Exactly the documents of different names and whole numbers of 64 bits survive as values, and
exactly the values that are no more than JSON survive as documents. -/
theorem plain_returns :
    (∀ j : Json, (ofJson j).toJson = j ↔ NamesDistinct j ∧ j.WholesFit) ∧
      ∀ v : Value, ofJson v.toJson = v ↔ v.JsonLike :=
  ⟨document_returns_iff, value_returns_iff⟩

end Value

end GraphGateway
