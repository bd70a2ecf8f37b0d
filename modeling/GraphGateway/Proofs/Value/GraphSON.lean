import GraphGateway.Remote.Response
import GraphGateway.Proofs.Except
import GraphGateway.Proofs.Json
import GraphGateway.Proofs.OrderedMap
import GraphGateway.Proofs.Uuid

/-!
# Typed JSON reads back

The encoding that belongs to the decoder: scalars that plain JSON cannot tell
apart, containers and elements stand under their tags, and everything else stands
for itself. Decoding an encoded value gives the value back, to any depth and with
the entries of maps in their order; a response that carries an encoded list
stands for its items.
-/

namespace GraphGateway

/-- Whole milliseconds from 1970-01-01T00:00:00 to a moment. -/
def Timestamp.millis (t : Timestamp) : Int :=
  t.seconds * 1000 + (t.nanos / 1000000 : Nat)

namespace GraphSON

/-! ## Encoding -/

def typed (tag : String) (payload : Json) : Json :=
  .ofFields [("@type", .string tag), ("@value", payload)]

def encodeInt (n : Int64) : Json :=
  typed "g:Int64" (.ofInt64 n)

def encodeUuid (u : Uuid) : Json :=
  typed "g:UUID" (.string u.text)

def encodeToken (t : Token) : Json :=
  typed "g:T" (.string t.name)

/-- A finite number is written as such, the others by their names. -/
def floatPayload : Binary64 → Json
  | .finite x => .float x
  | .nan => .string "NaN"
  | .infinite false => .string "Infinity"
  | .infinite true => .string "-Infinity"

def encodeId : ElementId → Json
  | .int n => encodeInt n
  | .text s => .string s
  | .uuid u => encodeUuid u

def encodeKey : Key → Json
  | .token t => encodeToken t
  | .name s => .string s

mutual

def encode : Value → Json
  | .null => .null
  | .bool b => .bool b
  | .int n => encodeInt n
  | .float x => typed "g:Double" (floatPayload x)
  | .string s => .string s
  | .date t => typed "g:Date" (.int t.millis)
  | .uuid u => encodeUuid u
  | .list items => typed "g:List" (.array (encodeItems items))
  | .map ⟨entries⟩ => typed "g:Map" (.array (encodeEntries entries))
  | .vertex v =>
      typed "g:Vertex" (.ofFields [("id", encodeId v.id), ("label", .string v.label)])
  | .edge e =>
      typed "g:Edge"
        (.ofFields [("id", encodeId e.id), ("label", .string e.label),
          ("outV", encodeId e.source), ("inV", encodeId e.target)])
  | .token t => encodeToken t

def encodeItems : List Value → List Json
  | [] => []
  | item :: rest => encode item :: encodeItems rest

/-- Alternating keys and values. -/
def encodeEntries : List (Key × Value) → List Json
  | [] => []
  | (key, value) :: rest => encodeKey key :: encode value :: encodeEntries rest

end

mutual

/-- Moments lie on a millisecond outside leap seconds, and maps hold each key once. -/
def Expressible : Value → Prop
  | .date t => t.nanos < 1000000000 ∧ t.nanos % 1000000 = 0
  | .list items => ExpressibleItems items
  | .map ⟨entries⟩ => (entries.map Prod.fst).Nodup ∧ ExpressibleEntries entries
  | _ => True

def ExpressibleItems : List Value → Prop
  | [] => True
  | item :: rest => Expressible item ∧ ExpressibleItems rest

def ExpressibleEntries : List (Key × Value) → Prop
  | [] => True
  | (_, value) :: rest => Expressible value ∧ ExpressibleEntries rest

end

theorem expressibleItems_iff (items : List Value) :
    ExpressibleItems items ↔ ∀ v ∈ items, Expressible v := by
  induction items with
  | nil => simp [ExpressibleItems]
  | cons item rest ih => simp [ExpressibleItems, ih]

/-! ## Tags and scalars -/

/-- A typed value is decoded by its tag. -/
theorem decodeAs_typed {tag : String} {kind : Payload} (h : payloadOf? tag = some kind)
    (payload : Json) :
    decodeAs none (typed tag payload) = decodeAs (some (tag, kind)) payload := by
  have hfields : typed tag payload =
      .object ⟨[("@type", .string tag), ("@value", payload)]⟩ := rfl
  simp [hfields, decodeAs, tag?, OrderedMap.lookup, decodePayload, h]

theorem decodeAs_encodeInt (n : Int64) : decodeAs none (encodeInt n) = .ok (.int n) := by
  have hint := Json.asInt64?_ofInt64 n
  rw [encodeInt, decodeAs_typed rfl]
  simp only [Json.ofInt64] at hint ⊢
  simp [decodeAs, scalar?, hint, fit]

theorem decodeAs_encodeUuid (u : Uuid) : decodeAs none (encodeUuid u) = .ok (.uuid u) := by
  rw [encodeUuid, decodeAs_typed rfl]
  simp [decodeAs, scalar?, Json.asString?, Uuid.read?_text, fit]

theorem decodeAs_encodeToken (t : Token) : decodeAs none (encodeToken t) = .ok (.token t) := by
  rw [encodeToken, decodeAs_typed rfl]
  simp [decodeAs, scalar?, Json.asString?, fit]

theorem decodeAs_float (x : Binary64) :
    decodeAs none (typed "g:Double" (floatPayload x)) = .ok (.float x) := by
  rw [decodeAs_typed rfl]
  cases x with
  | nan => simp [floatPayload, decodeAs, scalar?, float?, fit]
  | infinite negative => cases negative <;> simp [floatPayload, decodeAs, scalar?, float?, fit]
  | finite y => simp [floatPayload, decodeAs, scalar?, float?, fit]

/-! ## Moments -/

theorem ofMillis?_millis {t : Timestamp} (hleap : t.nanos < 1000000000)
    (hwhole : t.nanos % 1000000 = 0) : Timestamp.ofMillis? t.millis = some t := by
  obtain ⟨seconds, nanos, hnanos, hrange⟩ := t
  simp only at hleap hwhole
  have hseconds : (Timestamp.millis ⟨seconds, nanos, hnanos, hrange⟩) / 1000 = seconds := by
    simp only [Timestamp.millis]
    omega
  have hrest : (Timestamp.millis ⟨seconds, nanos, hnanos, hrange⟩ % 1000).toNat * 1000000 =
      nanos := by
    simp only [Timestamp.millis]
    omega
  have hclock : 1000000000 ≤ nanos → seconds % 60 = 59 := fun h => absurd hleap (Nat.not_lt.mpr h)
  rw [Timestamp.ofMillis?, hseconds, hrest, Timestamp.ofParts?, dif_pos ⟨hnanos, hclock, hrange⟩]

/-- All moments there are lie within 64 bits of milliseconds. -/
theorem millis_bounds (t : Timestamp) :
    Json.leastInt ≤ t.millis ∧ t.millis ≤ Json.greatestInt := by
  have hleast : Json.leastInt = -2 ^ 63 := rfl
  have hgreatest : Json.greatestInt = 2 ^ 63 - 1 := rfl
  obtain ⟨hfirst, hlast⟩ := t.in_range
  have hnanos := t.nanos_lt
  simp only [Timestamp.millis, firstSecond, lastSecond] at hfirst hlast ⊢
  omega

theorem scalar?_date (found : Json) :
    scalar? .date found =
      found.asInt64?.bind fun n => (Timestamp.ofMillis? n.toInt).map .date :=
  rfl

theorem decodeAs_date {t : Timestamp} (hleap : t.nanos < 1000000000)
    (hwhole : t.nanos % 1000000 = 0) :
    decodeAs none (typed "g:Date" (.int t.millis)) = .ok (.date t) := by
  obtain ⟨hlow, hhigh⟩ := millis_bounds t
  obtain ⟨word, hint, hback⟩ := Json.asInt64?_of_bounds hlow hhigh
  have hscalar : scalar? .date (.int t.millis) = some (.date t) := by
    rw [scalar?_date, hint, Option.bind_some, hback, ofMillis?_millis hleap hwhole]
    rfl
  rw [decodeAs_typed rfl]
  simp [decodeAs, hscalar, fit]

/-! ## Identifiers and keys -/

theorem decodeAs_encodeId (id : ElementId) : decodeAs none (encodeId id) = .ok id.toValue := by
  cases id with
  | int n => exact decodeAs_encodeInt n
  | text s => simp [encodeId, decodeAs, Value.ofJson, ElementId.toValue]
  | uuid u => exact decodeAs_encodeUuid u

theorem elementId_decoded (tag : String) (id : ElementId) :
    elementId tag (some (decodeAs none (encodeId id))) = .ok id := by
  simp [decodeAs_encodeId, elementId]

theorem decodeAs_encodeKey (key : Key) :
    ∃ v, decodeAs none (encodeKey key) = .ok v ∧ mapKey v = key := by
  cases key with
  | token t => exact ⟨.token t, decodeAs_encodeToken t, rfl⟩
  | name s => exact ⟨.string s, by simp [encodeKey, decodeAs, Value.ofJson], rfl⟩

theorem decodeAs_vertex (v : Vertex) :
    decodeAs none (encode (.vertex v)) = .ok (.vertex v) := by
  have hfields : Json.ofFields [("id", encodeId v.id), ("label", .string v.label)] =
      .object ⟨[("id", encodeId v.id), ("label", .string v.label)]⟩ := rfl
  rw [encode, decodeAs_typed rfl, hfields]
  simp [decodeAs, decodeField, elementId_decoded, Except.ok_bind, label, OrderedMap.lookup,
    Json.asString?]

theorem decodeAs_edge (e : Edge) : decodeAs none (encode (.edge e)) = .ok (.edge e) := by
  have hfields : Json.ofFields [("id", encodeId e.id), ("label", .string e.label),
        ("outV", encodeId e.source), ("inV", encodeId e.target)] =
      .object ⟨[("id", encodeId e.id), ("label", .string e.label),
        ("outV", encodeId e.source), ("inV", encodeId e.target)]⟩ := rfl
  rw [encode, decodeAs_typed rfl, hfields]
  simp [decodeAs, decodeField, elementId_decoded, Except.ok_bind, label, OrderedMap.lookup,
    Json.asString?]

/-! ## Containers -/

theorem encodeEntries_length (entries : List (Key × Value)) :
    (encodeEntries entries).length = 2 * entries.length := by
  induction entries with
  | nil => rfl
  | cons head rest ih =>
      obtain ⟨key, value⟩ := head
      simp [encodeEntries, ih]
      omega

mutual

theorem decodeAs_encode : ∀ v : Value, Expressible v → decodeAs none (encode v) = .ok v
  | .null, _ => rfl
  | .bool b, _ => by simp [encode, decodeAs, Value.ofJson]
  | .int n, _ => by rw [encode, decodeAs_encodeInt]
  | .float x, _ => by rw [encode, decodeAs_float]
  | .string s, _ => by simp [encode, decodeAs, Value.ofJson]
  | .date t, h => by
      rw [Expressible] at h
      rw [encode, decodeAs_date h.1 h.2]
  | .uuid u, _ => by rw [encode, decodeAs_encodeUuid]
  | .list items, h => by
      rw [Expressible] at h
      have hitems := decodeItems_encodeItems items h
      rw [encode, decodeAs_typed rfl]
      simp [decodeAs, hitems, Except.map]
  | .map ⟨entries⟩, h => by
      rw [Expressible] at h
      have hpairs := decodePairs_encodeEntries entries h.2
      have heven : (encodeEntries entries).length % 2 = 0 := by
        rw [encodeEntries_length]
        omega
      have hkept := OrderedMap.ofList_eq_self h.1
      rw [encode, decodeAs_typed rfl]
      simp [decodeAs, heven, hpairs, hkept, Except.map]
  | .vertex v, _ => decodeAs_vertex v
  | .edge e, _ => decodeAs_edge e
  | .token t, _ => by rw [encode, decodeAs_encodeToken]

theorem decodeItems_encodeItems : ∀ items : List Value, ExpressibleItems items →
    decodeItems (encodeItems items) = .ok items
  | [], _ => rfl
  | item :: rest, h => by
      rw [ExpressibleItems] at h
      have hitem := decodeAs_encode item h.1
      have hrest := decodeItems_encodeItems rest h.2
      simp [encodeItems, decodeItems, hitem, hrest, Except.ok_bind]

theorem decodePairs_encodeEntries : ∀ entries : List (Key × Value), ExpressibleEntries entries →
    decodePairs (encodeEntries entries) = .ok entries
  | [], _ => rfl
  | (key, value) :: rest, h => by
      rw [ExpressibleEntries] at h
      obtain ⟨decoded, hkey, hmapKey⟩ := decodeAs_encodeKey key
      have hvalue := decodeAs_encode value h.1
      have hrest := decodePairs_encodeEntries rest h.2
      simp [encodeEntries, decodePairs, hkey, hvalue, hrest, hmapKey, Except.ok_bind]

end

/-! ## Responses -/

/-- A body that reports the status code 200 and carries a document as its data. -/
structure Carries (body data : Json) : Prop where
  code : ((body.field? "status").bind fun s => s.field? "code") = some (.int 200)
  data : ((body.field? "result").bind fun r => r.field? "data") = some data

/-- Decoding undoes encoding, for a value alone and for a list in the body of a response. -/
theorem decode_encode :
    (∀ v, Expressible v → decode (encode v) = .ok v) ∧
      ∀ (body : Json) (vs : List Value), (∀ v ∈ vs, Expressible v) →
        Carries body (encode (.list vs)) → Remote.decodeBody body = .ok vs := by
  refine ⟨decodeAs_encode, fun body vs hvs hbody => ?_⟩
  have hlist : Expressible (.list vs) := by
    rw [Expressible]
    exact (expressibleItems_iff vs).mpr hvs
  have hdecode : decode (encode (.list vs)) = .ok (.list vs) := decodeAs_encode _ hlist
  have htyped : encode (.list vs) =
      .object ⟨[("@type", .string "g:List"), ("@value", .array (encodeItems vs))]⟩ := by
    rw [encode]
    rfl
  have hdata := hbody.data
  rw [htyped] at hdata hdecode
  simp [Remote.decodeBody, hbody.code, hdata, hdecode, Json.asNat?, Remote.results]

/-- A record with a nested list of every kind of scalar that has a tag of its own. -/
def nestedRecord : Value :=
  .map ⟨[(.token .id, .int 7), (.name "@type", .string "g:Int64"),
    (.name "seen", .list [.date ⟨-1, 500000000, by decide, by decide⟩, .float .nan,
      .token .label, .list []]),
    (.name "edge", .edge ⟨.text "e1", "FOLLOWS", .int 7, .text "u2"⟩)]⟩

theorem nestedRecord_expressible : Expressible nestedRecord := by
  simp [nestedRecord, Expressible, ExpressibleItems, ExpressibleEntries]

theorem decode_encode_nested :
    decode (encode nestedRecord) = .ok nestedRecord ∧
      Remote.decodeBody (.ofFields
        [("status", .ofFields [("code", .int 200)]),
          ("result", .ofFields [("data", encode (.list [nestedRecord]))])]) =
        .ok [nestedRecord] := by
  obtain ⟨hvalue, hbody⟩ := decode_encode
  refine ⟨hvalue _ nestedRecord_expressible, hbody _ _ ?_ ⟨rfl, rfl⟩⟩
  simp [nestedRecord_expressible]

end GraphSON

end GraphGateway
