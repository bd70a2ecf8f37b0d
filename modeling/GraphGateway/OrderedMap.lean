/-!
# Insertion-ordered maps

Finite maps that remember the order in which their keys first arrived. Objects
of a document, records of a result set, filter inputs and registries are all
of this kind: replacing a value keeps the position of its key, and a key that
was erased returns at the end.
-/

namespace GraphGateway

/-- A finite map whose bindings stand in the order in which their keys arrived. -/
structure OrderedMap (κ α : Type) where
  entries : List (κ × α)

namespace OrderedMap

variable {κ α β : Type}

def empty : OrderedMap κ α :=
  ⟨[]⟩

def keys (m : OrderedMap κ α) : List κ :=
  m.entries.map Prod.fst

def size (m : OrderedMap κ α) : Nat :=
  m.entries.length

def isEmpty (m : OrderedMap κ α) : Bool :=
  m.entries.isEmpty

def mapValues (f : α → β) (m : OrderedMap κ α) : OrderedMap κ β :=
  ⟨m.entries.map fun (k, v) => (k, f v)⟩

section Keyed

variable [DecidableEq κ]

/-- Value of the first binding of `key` in a list of bindings. -/
def lookup (key : κ) : List (κ × α) → Option α
  | [] => none
  | (k, v) :: rest => if k = key then some v else lookup key rest

/-- Bind `key` in place when it occurs, otherwise at the end. -/
def put (key : κ) (value : α) : List (κ × α) → List (κ × α)
  | [] => [(key, value)]
  | (k, v) :: rest =>
      if k = key then (k, value) :: rest else (k, v) :: put key value rest

def discard (key : κ) : List (κ × α) → List (κ × α)
  | [] => []
  | (k, v) :: rest => if k = key then rest else (k, v) :: discard key rest

def get? (m : OrderedMap κ α) (key : κ) : Option α :=
  lookup key m.entries

def contains (m : OrderedMap κ α) (key : κ) : Bool :=
  (m.get? key).isSome

/-- Bind `key`; an earlier binding is replaced where it stands. -/
def insert (m : OrderedMap κ α) (key : κ) (value : α) : OrderedMap κ α :=
  ⟨put key value m.entries⟩

/-- Unbind `key`; the remaining bindings keep their order. -/
def erase (m : OrderedMap κ α) (key : κ) : OrderedMap κ α :=
  ⟨discard key m.entries⟩

def position? (m : OrderedMap κ α) (key : κ) : Option Nat :=
  m.entries.findIdx? fun (k, _) => k = key

/-- Unbind `key` and hand out the value that it had. -/
def remove (m : OrderedMap κ α) (key : κ) : Option α × OrderedMap κ α :=
  match m.position? key with
  | none => (none, m)
  | some n => (m.entries[n]?.map Prod.snd, ⟨m.entries.eraseIdx n⟩)

def insertAll (m : OrderedMap κ α) (bindings : List (κ × α)) : OrderedMap κ α :=
  bindings.foldl (fun acc (k, v) => acc.insert k v) m

/-- The map that holds the last value given to each key, at its first position. -/
def ofList (bindings : List (κ × α)) : OrderedMap κ α :=
  empty.insertAll bindings

@[simp] theorem lookup_nil (key : κ) : lookup key ([] : List (κ × α)) = none :=
  rfl

theorem lookup_put (key other : κ) (value : α) (bindings : List (κ × α)) :
    lookup other (put key value bindings) =
      if key = other then some value else lookup other bindings := by
  induction bindings with
  | nil => simp [put, lookup]
  | cons head rest ih =>
      obtain ⟨k, v⟩ := head
      by_cases hk : k = key
      · subst hk
        by_cases ho : k = other <;> simp [put, lookup, ho]
      · by_cases ho : k = other
        · subst ho
          have hne : ¬ key = k := fun h => hk h.symm
          simp [put, lookup, hk, hne]
        · simp [put, lookup, hk, ho, ih]

theorem get?_insert (m : OrderedMap κ α) (key other : κ) (value : α) :
    (m.insert key value).get? other = if key = other then some value else m.get? other :=
  lookup_put key other value m.entries

theorem keys_put (key : κ) (value : α) (bindings : List (κ × α)) :
    (put key value bindings).map Prod.fst =
      if key ∈ bindings.map Prod.fst then bindings.map Prod.fst
      else bindings.map Prod.fst ++ [key] := by
  induction bindings with
  | nil => simp [put]
  | cons head rest ih =>
      obtain ⟨k, v⟩ := head
      by_cases hk : k = key
      · subst hk
        simp [put]
      · have hne : ¬ key = k := fun h => hk h.symm
        by_cases hm : key ∈ rest.map Prod.fst
        · simp only [put, hk, if_false, List.map_cons, ih, hm, if_true, List.mem_cons, or_true]
        · simp only [put, hk, if_false, List.map_cons, ih, hm, List.mem_cons, hne, or_self,
            List.cons_append]

theorem keys_insert (m : OrderedMap κ α) (key : κ) (value : α) :
    (m.insert key value).keys = if key ∈ m.keys then m.keys else m.keys ++ [key] :=
  keys_put key value m.entries

end Keyed

end OrderedMap

end GraphGateway
