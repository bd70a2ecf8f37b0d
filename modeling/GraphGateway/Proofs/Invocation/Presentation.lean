import Mathlib.Data.List.Basic
import Mathlib.Logic.Relation
import GraphGateway.Invocation.Event
import GraphGateway.Proofs.Except
import GraphGateway.Proofs.OrderedMap

/-!
# Presentations of an invocation

One invocation has many events. The fields of an event are taken in one after
another, and the first one that cannot be read is the one that is reported; but
what an event is accepted as depends only on what it gives under the names that
are known, where `null` gives nothing. So neither the order of the fields nor
fields of other names nor fields without a value make a difference, in the event
and in its info block alike, and an invocation that is written out is read back.
-/

namespace GraphGateway

namespace Invocation

/-! ## Given values -/

/-- A value that was found, where `null` counts as nothing. -/
def unlessNull (found : Option Json) : Option Json :=
  found.filter fun v => !v.isNull

def given (fields : Fields) (name : String) : Option Json :=
  unlessNull (fields.get? name)

/-- Read what is given, if anything is. -/
def readGiven {α : Type} (read : Json.Typed α) : Option Json → Except Json.ShapeError (Option α)
  | none => .ok none
  | some value => (read value).map some

theorem readNullable_eq {α : Type} (read : Json.Typed α) (value : Json) :
    Json.readNullable read value = readGiven read (unlessNull (some value)) := by
  cases value <;> rfl

theorem readGiven_text (g : Option Json) (t : Option String) :
    readGiven Json.readText g = .ok t ↔ g = t.map .string := by
  cases g with
  | none => cases t <;> simp [readGiven]
  | some value => cases value <;> cases t <;> simp [readGiven, Json.readText, Except.map]

theorem readGiven_map (g : Option Json) (t : Option Fields) :
    readGiven Json.readMap g = .ok t ↔ g = t.map .object := by
  cases g with
  | none => cases t <;> simp [readGiven]
  | some value => cases value <;> cases t <;> simp [readGiven, Json.readMap, Except.map]

theorem readGiven_any (g : Option Json) (t : Option Json) :
    readGiven Json.readAny g = .ok t ↔ g = t := by
  cases g <;> simp [readGiven, Json.readAny, Except.map, eq_comm]

theorem objectField_eq_ok (name : String) (g : Option Json) (o : Option Fields) :
    objectField name g = .ok o ↔ g = o.map .object := by
  cases g with
  | none => cases o <;> simp [objectField]
  | some value => cases value <;> cases o <;> simp [objectField]

/-! ## One field after another -/

section Parts

variable {α : Type} {read : Json.Typed α} {name key : String} {value : Json}
  {before after : Option α} {fields : List (String × Json)}

/-- What a single field does to the part of a record that is read from the fields of one name. -/
def Sets (read : Json.Typed α) (name key : String) (value : Json) (before after : Option α) :
    Prop :=
  if key = name then Json.readNullable read value = .ok after else before = after

/-- What a list of fields does to it. -/
def Settles (read : Json.Typed α) (name : String) (fields : List (String × Json))
    (before after : Option α) : Prop :=
  match OrderedMap.lookup name fields with
  | none => before = after
  | some value => Json.readNullable read value = .ok after

theorem settles_nil : Settles read name [] before after ↔ before = after :=
  Iff.rfl

theorem settles_cons (hnew : key ∉ fields.map Prod.fst) :
    Settles read name ((key, value) :: fields) before after ↔
      ∃ middle, Sets read name key value before middle ∧
        Settles read name fields middle after := by
  by_cases hkey : key = name
  · subst hkey
    -- no further field of this name follows
    have hnone := (OrderedMap.lookup_eq_none_iff key fields).mpr hnew
    simp [Settles, Sets, OrderedMap.lookup, hnone]
  · simp [Settles, Sets, OrderedMap.lookup, hkey]

theorem settles_iff (fields : Fields) :
    Settles read name fields.entries none after ↔
      readGiven read (given fields name) = .ok after := by
  unfold Settles given OrderedMap.get?
  cases OrderedMap.lookup name fields.entries with
  | none => simp [unlessNull, readGiven]
  | some value =>
      show Json.readNullable read value = .ok after ↔ _
      rw [readNullable_eq]

end Parts

namespace InfoBlock

theorem withField_eq_ok {block next : InfoBlock} {key : String} {value : Json} :
    block.withField key value = .ok next ↔
      Sets Json.readText "parentTypeName" key value block.typeName next.typeName ∧
        Sets Json.readText "fieldName" key value block.fieldName next.fieldName := by
  cases block
  cases next
  unfold withField Sets
  grind [Except.map_eq_ok]

theorem ofFields_eq_ok {fields : List (String × Json)} (hd : (fields.map Prod.fst).Nodup)
    {block out : InfoBlock} :
    block.ofFields fields = .ok out ↔
      Settles Json.readText "parentTypeName" fields block.typeName out.typeName ∧
        Settles Json.readText "fieldName" fields block.fieldName out.fieldName := by
  induction fields generalizing block with
  | nil =>
      cases block
      cases out
      simp [ofFields, settles_nil]
  | cons field rest ih =>
      obtain ⟨key, value⟩ := field
      rw [List.map_cons, List.nodup_cons] at hd
      rw [settles_cons hd.1, settles_cons hd.1]
      have hstep : block.ofFields ((key, value) :: rest) = .ok out ↔
          ∃ next, block.withField key value = .ok next ∧ next.ofFields rest = .ok out := by
        rw [ofFields]
        cases block.withField key value <;> simp
      rw [hstep]
      simp only [withField_eq_ok, ih hd.2]
      constructor
      · rintro ⟨next, ⟨hs₁, hs₂⟩, hr₁, hr₂⟩
        exact ⟨⟨_, hs₁, hr₁⟩, ⟨_, hs₂, hr₂⟩⟩
      · rintro ⟨⟨typeName, hs₁, hr₁⟩, ⟨fieldName, hs₂, hr₂⟩⟩
        exact ⟨⟨typeName, fieldName⟩, ⟨hs₁, hs₂⟩, hr₁, hr₂⟩

end InfoBlock

namespace Event

theorem withField_eq_ok {event next : Event} {key : String} {value : Json} :
    event.withField key value = .ok next ↔
      Sets Json.readText "type_name" key value event.typeName next.typeName ∧
      Sets Json.readText "field_name" key value event.fieldName next.fieldName ∧
      Sets Json.readMap "arguments" key value event.arguments next.arguments ∧
      Sets Json.readAny "identity" key value event.identity next.identity ∧
      Sets Json.readAny "source" key value event.source next.source ∧
      Sets InfoBlock.read "info" key value event.info next.info := by
  cases event
  cases next
  unfold withField Sets
  grind [Except.map_eq_ok]

theorem ofFields_eq_ok {fields : List (String × Json)} (hd : (fields.map Prod.fst).Nodup)
    {event out : Event} :
    event.ofFields fields = .ok out ↔
      Settles Json.readText "type_name" fields event.typeName out.typeName ∧
      Settles Json.readText "field_name" fields event.fieldName out.fieldName ∧
      Settles Json.readMap "arguments" fields event.arguments out.arguments ∧
      Settles Json.readAny "identity" fields event.identity out.identity ∧
      Settles Json.readAny "source" fields event.source out.source ∧
      Settles InfoBlock.read "info" fields event.info out.info := by
  induction fields generalizing event with
  | nil =>
      cases event
      cases out
      simp [ofFields, settles_nil]
  | cons field rest ih =>
      obtain ⟨key, value⟩ := field
      rw [List.map_cons, List.nodup_cons] at hd
      have hstep : event.ofFields ((key, value) :: rest) = .ok out ↔
          ∃ next, event.withField key value = .ok next ∧ next.ofFields rest = .ok out := by
        rw [ofFields]
        cases event.withField key value <;> simp
      rw [hstep]
      simp only [withField_eq_ok, ih hd.2, settles_cons hd.1]
      constructor
      · rintro ⟨next, ⟨hs₁, hs₂, hs₃, hs₄, hs₅, hs₆⟩, hr₁, hr₂, hr₃, hr₄, hr₅, hr₆⟩
        exact ⟨⟨_, hs₁, hr₁⟩, ⟨_, hs₂, hr₂⟩, ⟨_, hs₃, hr₃⟩, ⟨_, hs₄, hr₄⟩, ⟨_, hs₅, hr₅⟩,
          ⟨_, hs₆, hr₆⟩⟩
      · rintro ⟨⟨typeName, hs₁, hr₁⟩, ⟨fieldName, hs₂, hr₂⟩, ⟨arguments, hs₃, hr₃⟩,
          ⟨identity, hs₄, hr₄⟩, ⟨source, hs₅, hr₅⟩, ⟨info, hs₆, hr₆⟩⟩
        exact ⟨⟨typeName, fieldName, arguments, identity, source, info⟩,
          ⟨hs₁, hs₂, hs₃, hs₄, hs₅, hs₆⟩, hr₁, hr₂, hr₃, hr₄, hr₅, hr₆⟩

end Event

/-! ## What an event describes -/

/-- The names that an info block gives: under their keys, or as a row of two. -/
inductive InfoGives : Option Json → InfoBlock → Prop
  | nothing : InfoGives none ⟨none, none⟩
  | block {fields : Fields} {names : InfoBlock} :
      given fields "parentTypeName" = names.typeName.map .string →
      given fields "fieldName" = names.fieldName.map .string →
      InfoGives (some (.object fields)) names
  | row {first second : Json} {names : InfoBlock} :
      unlessNull (some first) = names.typeName.map .string →
      unlessNull (some second) = names.fieldName.map .string →
      InfoGives (some (.array [first, second])) names

/-- An event describes an invocation, with names of its own (`flat`) and those of its info block. -/
structure Describes (e : Fields) (flat nested : InfoBlock) (i : Invocation) : Prop where
  flat_typeName : given e "type_name" = flat.typeName.map .string
  flat_fieldName : given e "field_name" = flat.fieldName.map .string
  info : InfoGives (given e "info") nested
  typeName : flat.typeName.or nested.typeName = some i.typeName
  fieldName : flat.fieldName.or nested.fieldName = some i.fieldName
  arguments : (given e "arguments").getD (.object .empty) = .object i.arguments
  identity : given e "identity" = i.identity.map .object
  source : given e "source" = i.source.map .object

/-- No name occurs twice, neither in the event nor in its info block. -/
structure Unambiguous (e : Fields) : Prop where
  fields : e.Distinct
  info : ∀ block, given e "info" = some (.object block) → block.Distinct

def infoNames (info : Option InfoBlock) : InfoBlock :=
  info.getD ⟨none, none⟩

namespace InfoBlock

theorem ofFields_object {block : Fields} (hd : block.Distinct) {out : InfoBlock} :
    ofFields ⟨none, none⟩ block.entries = .ok out ↔
      given block "parentTypeName" = out.typeName.map .string ∧
        given block "fieldName" = out.fieldName.map .string := by
  rw [ofFields_eq_ok hd, settles_iff, settles_iff, readGiven_text, readGiven_text]

/-- A row of names has two items, neither more nor less. -/
theorem ofRow_eq_ok {row : List Json} {out : InfoBlock} :
    ofRow row = .ok out ↔
      ∃ first second, row = [first, second] ∧
        unlessNull (some first) = out.typeName.map .string ∧
        unlessNull (some second) = out.fieldName.map .string := by
  have hsplit : ofRow row = .ok out ↔
      ofFields ⟨none, none⟩ (rowNames.zip row) = .ok out ∧ row.length = 2 := by
    unfold ofRow
    rw [Except.bind_eq_ok]
    have hsize : rowNames.length = 2 := rfl
    constructor
    · rintro ⟨block, hblock, hlength⟩
      split at hlength
      · cases hlength
      split at hlength
      · cases hlength
      · cases hlength
        exact ⟨hblock, by omega⟩
    · intro h
      refine ⟨out, h.1, ?_⟩
      rw [if_neg (by omega), if_neg (by omega)]
  have hnodup : ∀ first second : Json,
      (⟨rowNames.zip [first, second]⟩ : Fields).Distinct := by
    intro first second
    show ["parentTypeName", "fieldName"].Nodup
    decide
  rw [hsplit, List.length_eq_two]
  constructor
  · rintro ⟨hfields, first, second, rfl⟩
    exact ⟨first, second, rfl, (ofFields_object (hnodup first second)).mp hfields⟩
  · rintro ⟨first, second, rfl, hgiven⟩
    exact ⟨(ofFields_object (hnodup first second)).mpr hgiven, first, second, rfl⟩

end InfoBlock

theorem readGiven_info {g : Option Json} (hd : ∀ block, g = some (.object block) → block.Distinct)
    (names : InfoBlock) :
    (∃ info, readGiven InfoBlock.read g = .ok info ∧ infoNames info = names) ↔
      InfoGives g names := by
  constructor
  · rintro ⟨info, hread, rfl⟩
    cases g with
    | none =>
        cases hread
        exact .nothing
    | some value =>
        obtain ⟨names, hnames, rfl⟩ := Except.map_eq_ok.mp hread
        cases value with
        | object block =>
            obtain ⟨htype, hfield⟩ := (InfoBlock.ofFields_object (hd block rfl)).mp hnames
            exact .block htype hfield
        | array row =>
            obtain ⟨first, second, rfl, htype, hfield⟩ := InfoBlock.ofRow_eq_ok.mp hnames
            exact .row htype hfield
        | _ => cases hnames
  · intro h
    cases h with
    | nothing => exact ⟨none, rfl, rfl⟩
    | @block block _ htype hfield =>
        have hread := (InfoBlock.ofFields_object (hd block rfl)).mpr ⟨htype, hfield⟩
        exact ⟨some names, Except.map_eq_ok.mpr ⟨names, hread, rfl⟩, rfl⟩
    | row htype hfield =>
        have hread := InfoBlock.ofRow_eq_ok.mpr ⟨_, _, rfl, htype, hfield⟩
        exact ⟨some names, Except.map_eq_ok.mpr ⟨names, hread, rfl⟩, rfl⟩

theorem Event.read_object {e : Fields} (he : e.Distinct) {out : Event} :
    Event.read (.object e) = .ok out ↔
      given e "type_name" = out.typeName.map .string ∧
      given e "field_name" = out.fieldName.map .string ∧
      given e "arguments" = out.arguments.map .object ∧
      given e "identity" = out.identity ∧
      given e "source" = out.source ∧
      readGiven InfoBlock.read (given e "info") = .ok out.info := by
  have hread : Event.read (.object e) = Event.ofFields blank e.entries := rfl
  rw [hread, Event.ofFields_eq_ok he]
  simp only [blank, settles_iff, readGiven_text, readGiven_map, readGiven_any]

/-- Names come from the event itself or else from its info block, each name by itself. -/
theorem ofParts_eq_ok {event : Event} {i : Invocation} :
    ofParts event = .ok i ↔
      event.typeName.or (infoNames event.info).typeName = some i.typeName ∧
      event.fieldName.or (infoNames event.info).fieldName = some i.fieldName ∧
      event.arguments.getD .empty = i.arguments ∧
      event.identity = i.identity.map .object ∧
      event.source = i.source.map .object := by
  have hnames : ∀ name : InfoBlock → Option String, name ⟨none, none⟩ = none →
      event.info.bind name = name (infoNames event.info) := by
    intro name hnone
    cases event.info with
    | none => exact hnone.symm
    | some block => rfl
  unfold ofParts
  rw [hnames InfoBlock.typeName rfl, hnames InfoBlock.fieldName rfl]
  cases event.typeName.or (infoNames event.info).typeName with
  | none => simp [Except.bind_eq_ok]
  | some typeName =>
      cases event.fieldName.or (infoNames event.info).fieldName with
      | none => simp [Except.bind_eq_ok]
      | some fieldName =>
          simp only [Except.ok_bind, Except.bind_eq_ok, objectField_eq_ok]
          obtain ⟨_, _, _, _, _⟩ := i
          constructor
          · rintro ⟨identity, hidentity, source, hsource, h⟩
            cases h
            exact ⟨rfl, rfl, rfl, hidentity, hsource⟩
          · rintro ⟨htype, hfield, rfl, hidentity, hsource⟩
            cases htype
            cases hfield
            exact ⟨_, hidentity, _, hsource, rfl⟩

theorem ofEvent_eq_ok {value : Json} {i : Invocation} :
    ofEvent value = .ok i ↔ ∃ event, Event.read value = .ok event ∧ ofParts event = .ok i := by
  unfold ofEvent
  cases Event.read value with
  | error e => simp
  | ok event => simp [Except.mapError_eq_ok]

/-- An event without ambiguities is accepted as what it describes, and as nothing else. -/
theorem ofEvent_object {e : Fields} (he : Unambiguous e) (i : Invocation) :
    ofEvent (.object e) = .ok i ↔ ∃ flat nested, Describes e flat nested i := by
  have hinfo := readGiven_info he.info
  rw [ofEvent_eq_ok]
  simp only [Event.read_object he.fields, ofParts_eq_ok]
  constructor
  · rintro ⟨event, ⟨htype, hfield, harguments, hidentity, hsource, hread⟩, hparts⟩
    obtain ⟨htypeName, hfieldName, hmap, hidentityOf, hsourceOf⟩ := hparts
    refine ⟨⟨event.typeName, event.fieldName⟩, infoNames event.info,
      { flat_typeName := htype
        flat_fieldName := hfield
        info := (hinfo _).mp ⟨_, hread, rfl⟩
        typeName := htypeName
        fieldName := hfieldName
        arguments := ?_
        identity := hidentity.trans hidentityOf
        source := hsource.trans hsourceOf }⟩
    rw [harguments, ← hmap]
    cases event.arguments <;> rfl
  · rintro ⟨flat, nested, h⟩
    obtain ⟨info, hread, rfl⟩ := (hinfo nested).mpr h.info
    have harguments : ∃ arguments : Option Fields,
        given e "arguments" = arguments.map .object ∧ arguments.getD .empty = i.arguments := by
      have hgiven := h.arguments
      cases hargs : given e "arguments" with
      | none =>
          rw [hargs] at hgiven
          exact ⟨none, rfl, Json.object.inj hgiven⟩
      | some value =>
          rw [hargs] at hgiven
          exact ⟨some i.arguments, congrArg some hgiven, rfl⟩
    obtain ⟨arguments, hgiven, hmap⟩ := harguments
    exact ⟨⟨flat.typeName, flat.fieldName, arguments, _, _, info⟩,
      ⟨h.flat_typeName, h.flat_fieldName, hgiven, rfl, rfl, hread⟩,
      h.typeName, h.fieldName, hmap, h.identity, h.source⟩

/-! ## Restated events -/

/-- The fields of an object are stated in another way: in another order, with a field of a name
that is not known, or with a known name that stands for `null`. -/
inductive Restated (known : List String) : Fields → Fields → Prop
  | reordered {a b : Fields} : a.entries.Perm b.entries → Restated known a b
  | unknown {a : Fields} (name : String) (value : Json) :
      name ∉ known → a.contains name = false → Restated known a (a.insert name value)
  | nothing {a : Fields} (name : String) :
      name ∈ known → a.contains name = false → Restated known a (a.insert name .null)

/-- The fields of an event or those of its info block are stated in another way. -/
inductive EventRestated : Fields → Fields → Prop
  | fields {a b : Fields} : Restated Event.rowNames a b → EventRestated a b
  | info {a block other : Fields} : given a "info" = some (.object block) →
      Restated InfoBlock.rowNames block other → EventRestated a (a.insert "info" (.object other))

namespace Restated

variable {known : List String} {a b : Fields}

theorem distinct_insert {name : String} (h : a.contains name = false) (value : Json) :
    (a.insert name value).Distinct ↔ a.Distinct := by
  constructor
  · intro hd
    rw [← OrderedMap.erase_insert h value]
    exact hd.erase name
  · exact fun hd => hd.insert name value

theorem distinct_iff (h : Restated known a b) : a.Distinct ↔ b.Distinct := by
  cases h with
  | reordered hperm => exact ⟨fun hd => hd.perm hperm, fun hd => hd.perm hperm.symm⟩
  | unknown _ value _ hnew => exact (distinct_insert hnew value).symm
  | nothing _ _ hnew => exact (distinct_insert hnew .null).symm

/-- Under the known names the same is given. -/
theorem given_eq (h : Restated known a b) (hd : a.Distinct) {name : String}
    (hname : name ∈ known) : given b name = given a name := by
  unfold given
  cases h with
  | reordered hperm => rw [hd.get?_perm hperm]
  | unknown key value hkey _ =>
      have hne : ¬ key = name := fun heq => hkey (heq ▸ hname)
      rw [OrderedMap.get?_insert, if_neg hne]
  | nothing key _ hnew =>
      rw [OrderedMap.get?_insert]
      split
      next heq =>
          -- what was absent is `null` now
          subst heq
          have hnone : a.get? key = none := by simpa [OrderedMap.contains] using hnew
          rw [hnone]
          rfl
      next => rfl

end Restated

theorem infoGives_restated {block other : Fields}
    (h : Restated InfoBlock.rowNames block other) (hd : block.Distinct) (names : InfoBlock) :
    InfoGives (some (.object block)) names ↔ InfoGives (some (.object other)) names := by
  have htype : given other "parentTypeName" = given block "parentTypeName" :=
    h.given_eq hd (by decide)
  have hfield : given other "fieldName" = given block "fieldName" := h.given_eq hd (by decide)
  constructor
  · intro hgives
    cases hgives with
    | block ht hf => exact .block (htype.trans ht) (hfield.trans hf)
  · intro hgives
    cases hgives with
    | block ht hf => exact .block (htype.symm.trans ht) (hfield.symm.trans hf)

/-- Two events give the same, in their own fields and in their info blocks. -/
structure GiveAlike (a b : Fields) : Prop where
  fields : ∀ name ∈ Event.rowNames, name ≠ "info" → given b name = given a name
  info : ∀ names, InfoGives (given a "info") names ↔ InfoGives (given b "info") names

variable {a b : Fields} {flat nested : InfoBlock} {i : Invocation}

theorem GiveAlike.symm (h : GiveAlike a b) : GiveAlike b a where
  fields name hname hne := (h.fields name hname hne).symm
  info names := (h.info names).symm

theorem GiveAlike.describes (h : GiveAlike a b) (hi : Describes a flat nested i) :
    Describes b flat nested i where
  flat_typeName := (h.fields _ (by decide) (by decide)).trans hi.flat_typeName
  flat_fieldName := (h.fields _ (by decide) (by decide)).trans hi.flat_fieldName
  info := (h.info nested).mp hi.info
  typeName := hi.typeName
  fieldName := hi.fieldName
  arguments := by
    rw [h.fields "arguments" (by decide) (by decide)]
    exact hi.arguments
  identity := (h.fields _ (by decide) (by decide)).trans hi.identity
  source := (h.fields _ (by decide) (by decide)).trans hi.source

theorem get?_of_given {e : Fields} {name : String} {value : Json}
    (h : given e name = some value) : e.get? name = some value :=
  (Option.filter_eq_some_iff.mp h).1

namespace EventRestated

/-- An info block is replaced where it stands. -/
theorem keys_info {block : Fields} (h : given a "info" = some (.object block)) (other : Fields) :
    (a.insert "info" (.object other)).keys = a.keys := by
  have hentry : ("info", Json.object block) ∈ a.entries :=
    OrderedMap.mem_of_lookup (get?_of_given h)
  have hmem : "info" ∈ a.keys := List.mem_map.mpr ⟨_, hentry, rfl⟩
  rw [OrderedMap.keys_insert, if_pos hmem]

theorem given_info (other : Fields) :
    given (a.insert "info" (.object other)) "info" = some (.object other) := by
  unfold given
  rw [OrderedMap.get?_insert, if_pos rfl]
  rfl

theorem unambiguous_iff (h : EventRestated a b) : Unambiguous a ↔ Unambiguous b := by
  cases h with
  | fields h =>
      constructor
      · intro ha
        refine ⟨h.distinct_iff.mp ha.fields, fun block hblock => ha.info block ?_⟩
        rwa [← h.given_eq ha.fields (by decide)]
      · intro hb
        have hd := h.distinct_iff.mpr hb.fields
        refine ⟨hd, fun block hblock => hb.info block ?_⟩
        rwa [h.given_eq hd (by decide)]
  | @info block other hblock h =>
      have hkeys := keys_info hblock other
      constructor
      · intro ha
        refine ⟨?_, fun found hfound => ?_⟩
        · unfold OrderedMap.Distinct
          rw [hkeys]
          exact ha.fields
        · rw [given_info] at hfound
          cases hfound
          exact h.distinct_iff.mp (ha.info block hblock)
      · intro hb
        refine ⟨?_, fun found hfound => ?_⟩
        · unfold OrderedMap.Distinct
          rw [← hkeys]
          exact hb.fields
        · rw [hblock] at hfound
          cases hfound
          exact h.distinct_iff.mpr (hb.info other (given_info other))

/-- Stating an event in another way does not change what it gives. -/
theorem giveAlike (h : EventRestated a b) (ha : Unambiguous a) : GiveAlike a b := by
  cases h with
  | fields h =>
      refine ⟨fun name hname _ => h.given_eq ha.fields hname, fun names => ?_⟩
      rw [h.given_eq ha.fields (by decide)]
  | @info block other hblock h =>
      refine ⟨fun name _ hne => ?_, fun names => ?_⟩
      · unfold given
        rw [OrderedMap.get?_insert, if_neg (Ne.symm hne)]
      · rw [given_info, hblock]
        exact infoGives_restated h (ha.info block hblock) names

end EventRestated

/-- Any number of restatements, forth and back, is as good as none. -/
theorem describes_restated (h : Relation.EqvGen EventRestated a b) :
    (Unambiguous a ↔ Unambiguous b) ∧ (Unambiguous a → ∀ flat nested i,
      Describes a flat nested i ↔ Describes b flat nested i) := by
  induction h with
  | rel a b h =>
      refine ⟨h.unambiguous_iff, fun ha flat nested i => ?_⟩
      have halike := h.giveAlike ha
      exact ⟨halike.describes, halike.symm.describes⟩
  | refl a => exact ⟨Iff.rfl, fun _ _ _ _ => Iff.rfl⟩
  | symm a b _ ih =>
      refine ⟨ih.1.symm, fun hb flat nested i => ?_⟩
      exact (ih.2 (ih.1.mpr hb) flat nested i).symm
  | trans a b c _ _ ihab ihbc =>
      refine ⟨ihab.1.trans ihbc.1, fun ha flat nested i => ?_⟩
      exact (ihab.2 ha flat nested i).trans (ihbc.2 (ihab.1.mp ha) flat nested i)

theorem ofEvent_restated (ha : Unambiguous a) (h : Relation.EqvGen EventRestated a b) :
    (ofEvent (.object a)).toOption = (ofEvent (.object b)).toOption := by
  obtain ⟨hunambiguous, hdescribes⟩ := describes_restated h
  refine Option.ext fun i => ?_
  rw [Except.toOption_eq_some, Except.toOption_eq_some, ofEvent_object ha,
    ofEvent_object (hunambiguous.mp ha)]
  simp only [hdescribes ha]

/-! ## Written invocations -/

theorem ofEvent_toJson (i : Invocation) : ofEvent i.toJson = .ok i := by
  obtain ⟨typeName, fieldName, arguments, identity, source⟩ := i
  cases identity <;> cases source <;> rfl

/-- An event counts by what it gives, however it is presented; each name is the one of the event
itself or else that of the info block; and a written invocation is read as itself. -/
theorem ofEvent_ignores_presentation :
    (∀ a b : Fields, Unambiguous a → Relation.EqvGen EventRestated a b →
      (ofEvent (.object a)).toOption = (ofEvent (.object b)).toOption) ∧
    (∀ e : Fields, Unambiguous e → ∀ i : Invocation,
      ofEvent (.object e) = .ok i ↔ ∃ flat nested, Describes e flat nested i) ∧
    ∀ i : Invocation, ofEvent i.toJson = .ok i :=
  ⟨fun _ _ ha h => ofEvent_restated ha h, fun _ he i => ofEvent_object he i, ofEvent_toJson⟩

/-- An event that names its field in an info block only. -/
def nestedEvent : Fields :=
  .ofList [("source", .ofFields [("id", .string "u1")]),
    ("info", .ofFields [("parentTypeName", .string "User"), ("fieldName", .string "following")])]

/-- The same with a further field in the info block, an empty name, and the other way round. -/
def nestedEventRestated : Fields :=
  ⟨[("type_name", .null),
    ("info", .ofFields [("parentTypeName", .string "User"), ("fieldName", .string "following"),
      ("variables", .array [])]),
    ("source", .ofFields [("id", .string "u1")])]⟩

theorem nestedEvent_unambiguous : Unambiguous nestedEvent := by
  refine ⟨OrderedMap.Distinct.ofList _, fun block hblock => ?_⟩
  have hinfo : given nestedEvent "info" = some (.ofFields
      [("parentTypeName", .string "User"), ("fieldName", .string "following")]) := rfl
  rw [hinfo] at hblock
  cases hblock
  exact OrderedMap.Distinct.ofList _

theorem nestedEvent_restated : Relation.EqvGen EventRestated nestedEvent nestedEventRestated := by
  have hinfo : EventRestated nestedEvent _ :=
    .info rfl (.unknown "variables" (.array []) (by decide) rfl)
  refine .trans _ _ _ (.rel _ _ hinfo) ?_
  refine .trans _ _ _ (.rel _ _ (.fields (.nothing "type_name" (by decide) rfl))) ?_
  exact .rel _ _ (.fields (.reordered (List.reverse_perm _).symm))

theorem ofEvent_ignores_presentation_nested :
    (ofEvent (.object nestedEvent)).toOption = (ofEvent (.object nestedEventRestated)).toOption ∧
      (∃ flat nested, Describes nestedEvent flat nested
        ⟨"User", "following", .empty, none, some (.ofList [("id", .string "u1")])⟩) ∧
      ofEvent (Invocation.toJson ⟨"User", "following", .empty, none, none⟩) =
        .ok ⟨"User", "following", .empty, none, none⟩ := by
  obtain ⟨hrestated, hdescribed, hwritten⟩ := ofEvent_ignores_presentation
  exact ⟨hrestated _ _ nestedEvent_unambiguous nestedEvent_restated,
    (hdescribed nestedEvent nestedEvent_unambiguous _).mp rfl, hwritten _⟩

end Invocation

end GraphGateway
