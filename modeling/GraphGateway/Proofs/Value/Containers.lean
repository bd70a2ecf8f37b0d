import GraphGateway.Proofs.Value.GraphSON
import GraphGateway.Proofs.Value.Untyped

/-!
# Containers of typed JSON

How far the decoder looks into a document. Objects without a type, typed lists and
maps and the payloads of tags that are not known hold values that are decoded where
they stand. A plain array is different: nothing in it is decoded. So it stands for
the list of its decoded items only if nothing in them is typed, up to further arrays.
-/

namespace GraphGateway

/-- The identifier that stands under a name in an element. -/
def Value.idIn? (name : String) : Value → Option ElementId
  | .vertex v => if name = "id" then some v.id else none
  | .edge e =>
      if name = "id" then some e.id
      else if name = "outV" then some e.source
      else if name = "inV" then some e.target
      else none
  | _ => none

namespace GraphSON

/-! ## Typed objects -/

theorem decodePayload_append (tag : Option (String × Payload)) {before : List (String × Json)}
    (h : "@value" ∉ before.map Prod.fst) (payload : Json) (after : List (String × Json)) :
    decodePayload tag (before ++ ("@value", payload) :: after) = decodeAs tag payload := by
  induction before with
  | nil => simp [decodePayload]
  | cons field rest ih =>
      rw [List.map_cons, List.mem_cons, not_or] at h
      have hname : field.1 ≠ "@value" := fun heq => h.1 heq.symm
      simp [decodePayload, hname, ih h.2]

theorem decodeField_append {name : String} {before : List (String × Json)}
    (h : name ∉ before.map Prod.fst) (j : Json) (after : List (String × Json)) :
    decodeField name (before ++ (name, j) :: after) = some (decode j) := by
  induction before with
  | nil => simp [decodeField, decode]
  | cons field rest ih =>
      rw [List.map_cons, List.mem_cons, not_or] at h
      have hname : field.1 ≠ name := fun heq => h.1 heq.symm
      simp [decodeField, hname, ih h.2]

/-- An object with a type but for its payload. -/
structure Wrapper where
  tag : String
  before : List (String × Json)
  after : List (String × Json)
  tag_eq : OrderedMap.lookup "@type" (before ++ after) = some (.string tag)
  payload_first : "@value" ∉ before.map Prod.fst

namespace Wrapper

def fill (w : Wrapper) (payload : Json) : Json :=
  .object ⟨w.before ++ ("@value", payload) :: w.after⟩

def payload? (w : Wrapper) : Option Payload :=
  payloadOf? w.tag

/-- Whatever the payload, the object has the type. -/
theorem tag?_fill (w : Wrapper) (payload : Json) :
    tag? (w.before ++ ("@value", payload) :: w.after) = some w.tag := by
  have htype := w.tag_eq
  have hnone := (OrderedMap.lookup_eq_none_iff _ _).mpr w.payload_first
  rw [OrderedMap.lookup_append] at htype
  simp [tag?, OrderedMap.lookup_append, hnone, OrderedMap.lookup, htype]

/-- A typed object is decoded by its payload. -/
theorem decode_fill (w : Wrapper) (payload : Json) :
    decode (w.fill payload) = decodeAs (w.payload?.map fun kind => (w.tag, kind)) payload := by
  rw [decode, fill, decodeAs]
  simp only [tag?_fill, decodePayload_append _ w.payload_first, payload?]

def ofTag (tag : String) : Wrapper :=
  ⟨tag, [("@type", .string tag)], [], by simp [OrderedMap.lookup], by simp⟩

theorem decode_list {w : Wrapper} (hkind : w.payload? = some .list) (items : List Json) :
    decode (w.fill (.array items)) = (items.mapM decode).map .list := by
  rw [w.decode_fill, hkind, ← decodeItems_eq_mapM]
  simp [decodeAs]

theorem decode_map {w : Wrapper} (hkind : w.payload? = some .map) (pairs : List (Json × Json)) :
    decode (w.fill (.array (alternating pairs))) =
      (pairs.mapM decodePair).map fun entries => .map (.ofList entries) := by
  have heven : (alternating pairs).length % 2 = 0 := by
    rw [length_alternating]
    omega
  rw [w.decode_fill, hkind, ← decodePairs_alternating]
  simp [decodeAs, heven]

end Wrapper

/-! ## Places -/

/-- A container around a place where the decoder looks. -/
inductive Layer where
  /-- A field of an object without a type. -/
  | field (before : List (String × Json)) (name : String) (after : List (String × Json))
  /-- The payload of a tag that is not known. -/
  | payload (w : Wrapper)
  /-- The value of a typed property. -/
  | property (w : Wrapper) (before after : List (String × Json))
  /-- An item of a typed list. -/
  | item (w : Wrapper) (before after : List Json)
  /-- An identifier of a typed element. -/
  | identifier (w : Wrapper) (before : List (String × Json)) (name : String)
      (after : List (String × Json))
  /-- A key of a typed map. -/
  | boundKey (w : Wrapper) (before : List (Json × Json)) (value : Json) (after : List (Json × Json))
  /-- A value of a typed map. -/
  | boundValue (w : Wrapper) (before : List (Json × Json)) (key : Json) (after : List (Json × Json))

namespace Layer

def fill : Layer → Json → Json
  | field before name after, j => .object ⟨before ++ (name, j) :: after⟩
  | payload w, j => w.fill j
  | property w before after, j => w.fill (.object ⟨before ++ ("value", j) :: after⟩)
  | item w before after, j => w.fill (.array (before ++ j :: after))
  | identifier w before name after, j => w.fill (.object ⟨before ++ (name, j) :: after⟩)
  | boundKey w before value after, j =>
      w.fill (.array (alternating (before ++ (j, value) :: after)))
  | boundValue w before key after, j =>
      w.fill (.array (alternating (before ++ (key, j) :: after)))

/-- A layer is of the kind that its constructor says, and nothing else in it takes the place. -/
def Fits : Layer → Json → Prop
  | field before name after, j =>
      tag? (before ++ (name, j) :: after) = none ∧ name ∉ after.map Prod.fst
  | payload w, _ => w.payload? = none
  | property w before _, _ => w.payload? = some .property ∧ "value" ∉ before.map Prod.fst
  | item w _ _, _ => w.payload? = some .list
  | identifier w before name _, _ =>
      (w.payload? = some .vertex ∧ name = "id" ∨
        w.payload? = some .edge ∧ name ∈ ["id", "outV", "inV"]) ∧ name ∉ before.map Prod.fst
  | boundKey w _ _ _, _ => w.payload? = some .map
  | boundValue w _ key after, _ =>
      w.payload? = some .map ∧ ∀ k entries, decode key = .ok k →
        after.mapM decodePair = .ok entries → mapKey k ∉ entries.map Prod.fst

/-- A value stands at the place of a layer in the value of the whole. -/
def Shows : Layer → Value → Value → Prop
  | field _ name _, whole, v => ∃ entries, whole = .map entries ∧ entries.get? (.name name) = some v
  | payload _, whole, v => whole = v
  | property _ _ _, whole, v => whole = v
  | item _ before _, whole, v => ∃ items, whole = .list items ∧ items[before.length]? = some v
  | identifier _ _ name _, whole, v => ∃ id, v.asId? = some id ∧ whole.idIn? name = some id
  | boundKey _ _ _ _, whole, v => ∃ entries, whole = .map entries ∧ mapKey v ∈ entries.keys
  | boundValue _ _ key _, whole, v =>
      ∃ entries k, whole = .map entries ∧ decode key = .ok k ∧ entries.get? (mapKey k) = some v

end Layer

/-- An identifier of an element was decoded where it stands. -/
theorem elementId_decodeField {tag name : String} {before after : List (String × Json)} {j : Json}
    {id : ElementId} (hfirst : name ∉ before.map Prod.fst)
    (h : elementId tag (decodeField name (before ++ (name, j) :: after)) = .ok id) :
    ∃ v, decode j = .ok v ∧ v.asId? = some id := by
  rw [decodeField_append hfirst] at h
  cases hdecoded : decode j with
  | error e =>
      rw [hdecoded] at h
      cases h
  | ok v =>
      rw [hdecoded] at h
      cases hid : v.asId? with
      | none => simp [elementId, hid] at h
      | some found =>
          have hfound : found = id := by simpa [elementId, hid] using h
          exact ⟨v, rfl, hfound ▸ hid⟩

/-- What the decoder finds at a place is decoded, and stands there in what the whole becomes. -/
theorem Layer.decode_fill {layer : Layer} {j : Json} (hfits : layer.Fits j) {whole : Value}
    (h : decode (layer.fill j) = .ok whole) : ∃ v, decode j = .ok v ∧ layer.Shows whole v := by
  cases layer with
  | field before name after =>
      obtain ⟨htag, hlast⟩ := hfits
      rw [fill, decode_object htag] at h
      obtain ⟨entries, hentries, rfl⟩ := Except.map_eq_ok.mp h
      obtain ⟨front, entry, back, -, hentry, hback, rfl⟩ :=
        Except.mapM_append_cons_eq_ok.mp hentries
      obtain ⟨v, hv, rfl⟩ := Except.map_eq_ok.mp hentry
      have hnew : Key.name name ∉ back.map Prod.fst := by
        rw [← decodeFields_eq_mapM] at hback
        rw [map_fst_of_decodeFields hback]
        simpa using hlast
      exact ⟨v, hv, _, rfl, OrderedMap.get?_ofList_append_cons _ _ _ hnew⟩
  | payload w =>
      have hkind : w.payload? = none := hfits
      rw [fill, w.decode_fill, hkind] at h
      exact ⟨whole, h, rfl⟩
  | property w before after =>
      obtain ⟨hkind, hfirst⟩ := hfits
      rw [fill, w.decode_fill, hkind] at h
      have hv : decode j = .ok whole := by
        simpa [decodeAs, decodeField_append hfirst] using h
      exact ⟨whole, hv, rfl⟩
  | identifier w before name after =>
      obtain ⟨⟨hkind, rfl⟩ | ⟨hkind, hname⟩, hfirst⟩ := hfits
      · rw [fill, w.decode_fill, hkind] at h
        obtain ⟨id, hid, h⟩ := Except.bind_eq_ok.mp h
        cases h
        obtain ⟨v, hv, hasId⟩ := elementId_decodeField hfirst hid
        exact ⟨v, hv, id, hasId, rfl⟩
      · rw [fill, w.decode_fill, hkind] at h
        obtain ⟨id, hid, h⟩ := Except.bind_eq_ok.mp h
        obtain ⟨source, hsource, h⟩ := Except.bind_eq_ok.mp h
        obtain ⟨target, htarget, h⟩ := Except.bind_eq_ok.mp h
        cases h
        simp only [List.mem_cons, List.not_mem_nil, or_false] at hname
        rcases hname with rfl | rfl | rfl
        · obtain ⟨v, hv, hasId⟩ := elementId_decodeField hfirst hid
          exact ⟨v, hv, id, hasId, rfl⟩
        · obtain ⟨v, hv, hasId⟩ := elementId_decodeField hfirst hsource
          exact ⟨v, hv, source, hasId, rfl⟩
        · obtain ⟨v, hv, hasId⟩ := elementId_decodeField hfirst htarget
          exact ⟨v, hv, target, hasId, rfl⟩
  | boundKey w before value after =>
      have hkind : w.payload? = some .map := hfits
      rw [fill, w.decode_map hkind] at h
      obtain ⟨entries, hentries, rfl⟩ := Except.map_eq_ok.mp h
      obtain ⟨front, entry, back, -, hentry, -, rfl⟩ := Except.mapM_append_cons_eq_ok.mp hentries
      obtain ⟨k, -, hk, -, rfl⟩ := decodePair_eq_ok hentry
      refine ⟨k, hk, _, rfl, (OrderedMap.mem_keys_ofList _ _).mpr ?_⟩
      simp
  | item w before after =>
      have hkind : w.payload? = some .list := hfits
      rw [fill, w.decode_list hkind] at h
      obtain ⟨values, hvalues, rfl⟩ := Except.map_eq_ok.mp h
      obtain ⟨front, v, back, hfront, hv, -, rfl⟩ := Except.mapM_append_cons_eq_ok.mp hvalues
      refine ⟨v, hv, _, rfl, ?_⟩
      rw [← Except.length_of_mapM hfront]
      simp
  | boundValue w before key after =>
      obtain ⟨hkind, hlast⟩ := hfits
      rw [fill, w.decode_map hkind] at h
      obtain ⟨entries, hentries, rfl⟩ := Except.map_eq_ok.mp h
      obtain ⟨front, entry, back, -, hentry, hback, rfl⟩ :=
        Except.mapM_append_cons_eq_ok.mp hentries
      obtain ⟨k, v, hk, hv, rfl⟩ := decodePair_eq_ok hentry
      exact ⟨v, hv, _, k, rfl, hk,
        OrderedMap.get?_ofList_append_cons _ _ _ (hlast k back hk hback)⟩

theorem decodeField_congr {j k : Json} (h : decode j = decode k) (wanted name : String)
    (before after : List (String × Json)) :
    decodeField wanted (before ++ (name, j) :: after) =
      decodeField wanted (before ++ (name, k) :: after) := by
  have hsame : decodeAs none j = decodeAs none k := h
  induction before with
  | nil => simp [decodeField, hsame]
  | cons field rest ih => simp [decodeField, ih]

theorem label_congr {name : String} (h : name ≠ "label") (j k : Json)
    (before after : List (String × Json)) :
    label (before ++ (name, j) :: after) = label (before ++ (name, k) :: after) := by
  simp [label, OrderedMap.lookup_append, OrderedMap.lookup, h]

/-- The decoder sees nothing of what stands at a place but what it decodes to. -/
theorem Layer.decode_fill_congr {layer : Layer} {j k : Json} (hj : layer.Fits j)
    (hk : layer.Fits k) (h : decode j = decode k) :
    decode (layer.fill j) = decode (layer.fill k) := by
  cases layer with
  | field before name after =>
      have hnamed : decodeNamed (name, j) = decodeNamed (name, k) := by simp [decodeNamed, h]
      rw [fill, fill, decode_object hj.1, decode_object hk.1,
        Except.mapM_append_cons_congr hnamed]
  | payload w =>
      have hkind : w.payload? = none := hj
      rw [fill, fill, w.decode_fill, w.decode_fill, hkind]
      exact h
  | property w before after =>
      obtain ⟨hkind, hfirst⟩ := hj
      rw [fill, fill, w.decode_fill, w.decode_fill, hkind]
      simp [decodeAs, decodeField_append hfirst, h]
  | identifier w before name after =>
      obtain ⟨⟨hkind, rfl⟩ | ⟨hkind, hname⟩, -⟩ := hj
      · have hlabel : "id" ≠ "label" := by decide
        rw [fill, fill, w.decode_fill, w.decode_fill, hkind]
        simp only [Option.map_some, decodeAs, decodeField_congr h, label_congr hlabel j k]
      · have hlabel : name ≠ "label" := by
          rintro rfl
          simp at hname
        rw [fill, fill, w.decode_fill, w.decode_fill, hkind]
        simp only [Option.map_some, decodeAs, decodeField_congr h, label_congr hlabel j k]
  | boundKey w before value after =>
      have hkind : w.payload? = some .map := hj
      have hpair : decodePair (j, value) = decodePair (k, value) := by simp [decodePair, h]
      rw [fill, fill, w.decode_map hkind, w.decode_map hkind,
        Except.mapM_append_cons_congr hpair]
  | item w before after =>
      have hkind : w.payload? = some .list := hj
      rw [fill, fill, w.decode_list hkind, w.decode_list hkind, Except.mapM_append_cons_congr h]
  | boundValue w before key after =>
      have hpair : decodePair (key, j) = decodePair (key, k) := by simp [decodePair, h]
      rw [fill, fill, w.decode_map hj.1, w.decode_map hj.1, Except.mapM_append_cons_congr hpair]

/-! ## Nested places -/

namespace Layer

/-- A document in layers, the outermost first. -/
def fillAll (layers : List Layer) (j : Json) : Json :=
  layers.foldr fill j

def FitAll : List Layer → Json → Prop
  | [], _ => True
  | layer :: rest, j => layer.Fits (fillAll rest j) ∧ FitAll rest j

def ShowAll : List Layer → Value → Value → Prop
  | [], whole, v => whole = v
  | layer :: rest, whole, v => ∃ inner, layer.Shows whole inner ∧ ShowAll rest inner v

theorem decode_fillAll {layers : List Layer} {j : Json} (hfit : FitAll layers j) {whole : Value}
    (h : decode (fillAll layers j) = .ok whole) :
    ∃ v, decode j = .ok v ∧ ShowAll layers whole v := by
  induction layers generalizing whole with
  | nil => exact ⟨whole, h, rfl⟩
  | cons layer rest ih =>
      obtain ⟨inner, hinner, hshows⟩ := layer.decode_fill hfit.1 h
      obtain ⟨v, hv, hall⟩ := ih hfit.2 hinner
      exact ⟨v, hv, inner, hshows, hall⟩

theorem decode_fillAll_congr {layers : List Layer} {j k : Json} (hj : FitAll layers j)
    (hk : FitAll layers k) (h : decode j = decode k) :
    decode (fillAll layers j) = decode (fillAll layers k) := by
  induction layers with
  | nil => exact h
  | cons layer rest ih => exact decode_fill_congr hj.1 hk.1 (ih hj.2 hk.2)

end Layer

/-- An array stands for the list of its decoded items exactly if it holds nothing that has a type,
up to the arrays in it. -/
theorem decode_array_eq_mapM_iff {items : List Json} (hd : ∀ j ∈ items, NamesDistinct j) :
    decode (.array items) = (items.mapM decode).map .list ↔ ∀ j ∈ items, Untyped j := by
  have hplain : decode (.array items) = (items.mapM decode).map .list ↔
      items.mapM decode = .ok (items.map Value.ofJson) := by
    rw [decode_array, eq_comm, Except.map_eq_ok]
    simp
  rw [hplain, Except.mapM_eq_ok_map]
  exact forall₂_congr fun j hj => decodeAs_eq_ofJson_iff j (hd j hj)

/-- How far the decoder looks. Under objects without a type, typed containers and unknown tags, in
any nesting, a document counts by what it decodes to: it is decoded if the whole is, and stands in
the whole where it was found. An object without a type stands for the map of its decoded values. An
array stands for the list of its items as they are, which are its decoded items exactly if none of
them has a type or holds one outside of further arrays. -/
theorem decode_containers {layers : List Layer} {j : Json} (hfit : Layer.FitAll layers j) :
    (∀ whole, decode (Layer.fillAll layers j) = .ok whole →
      ∃ v, decode j = .ok v ∧ Layer.ShowAll layers whole v) ∧
    (∀ k, Layer.FitAll layers k → decode j = decode k →
      decode (Layer.fillAll layers j) = decode (Layer.fillAll layers k)) ∧
    (∀ fields, j = .object ⟨fields⟩ → tag? fields = none →
      decode j = (fields.mapM decodeNamed).map fun entries => .map (.ofList entries)) ∧
    ∀ items, j = .array items →
      decode j = .ok (.list (items.map Value.ofJson)) ∧
      ((∀ item ∈ items, NamesDistinct item) →
        (decode j = (items.mapM decode).map .list ↔ ∀ item ∈ items, Untyped item)) := by
  refine ⟨fun _ h => Layer.decode_fillAll hfit h,
    fun _ hk h => Layer.decode_fillAll_congr hfit hk h, ?_, ?_⟩
  · rintro fields rfl htag
    exact decode_object htag
  · rintro items rfl
    exact ⟨decode_array items, decode_array_eq_mapM_iff⟩

def typedOne : Json :=
  typed "g:Int64" (.int 1)

/-- An item of a list under a tag that is not known, in an object without a type. -/
def tagged : List Layer :=
  [.field [] "result" [("page", .int 1)], .payload (.ofTag "g:BulkSet"),
    .item (.ofTag "g:List") [.null] []]

theorem decode_containers_tagged :
    (∃ whole, decode (Layer.fillAll tagged typedOne) = .ok whole ∧
      Layer.ShowAll tagged whole (.int 1)) ∧
    decode (.array [.object ⟨[("page", .array [typedOne])]⟩]) =
      ([.object ⟨[("page", .array [typedOne])]⟩].mapM decode).map .list := by
  have hone : NamesDistinct typedOne := ⟨by decide, trivial, trivial, trivial⟩
  have hdistinct : NamesDistinct (.object ⟨[("page", .array [typedOne])]⟩) :=
    ⟨by decide, ⟨hone, trivial⟩, trivial⟩
  have huntyped : Untyped (.object ⟨[("page", .array [typedOne])]⟩) := ⟨rfl, trivial, trivial⟩
  have hfit : Layer.FitAll tagged typedOne := ⟨⟨rfl, by decide⟩, rfl, rfl, trivial⟩
  have hfitArray : Layer.FitAll [] (.array [.object ⟨[("page", .array [typedOne])]⟩]) := trivial
  have hwhole : decode (Layer.fillAll tagged typedOne) =
      .ok (.map ⟨[(.name "result", .list [.null, .int 1]), (.name "page", .int 1)]⟩) := rfl
  have hdecoded : decode typedOne = .ok (.int 1) := rfl
  obtain ⟨hfound, -⟩ := decode_containers hfit
  obtain ⟨-, -, -, harray⟩ := decode_containers hfitArray
  obtain ⟨v, hv, hall⟩ := hfound _ hwhole
  obtain rfl : Value.int 1 = v := Except.ok.inj (hdecoded.symm.trans hv)
  exact ⟨⟨_, hwhole, hall⟩,
    ((harray _ rfl).2 (by simpa using hdistinct)).mpr (by simpa using huntyped)⟩

/-- The payload of an unknown tag is an array, so its typed item is not decoded. -/
theorem decode_bulkSet :
    decode (typed "g:BulkSet" (.array [typedOne])) =
        .ok (.list [.map ⟨[(.name "@type", .string "g:Int64"), (.name "@value", .int 1)]⟩]) ∧
      decode (.array [typedOne]) ≠ ([typedOne].mapM decode).map .list ∧
      ([typedOne].mapM decode).map Value.list = .ok (.list [.int 1]) := by
  refine ⟨rfl, fun h => ?_, rfl⟩
  have hlists : [Value.ofJson typedOne] = [.int 1] := Value.list.inj (Except.ok.inj h)
  cases hlists

end GraphSON

end GraphGateway
