/-!
# Arenas

Numbered slots that hold records. A slot that is vacated goes onto a stack of
free slots, and the next record takes the slot vacated last; only when none is
free does the arena grow. Records are listed in slot order.
-/

namespace GraphGateway

/-- Records in numbered slots, with the vacant slots in the order in which they are reused. -/
structure Arena (α : Type) where
  slots : List (Option α)
  free : List Nat

namespace Arena

variable {α : Type}

def empty : Arena α :=
  ⟨[], []⟩

def get? (a : Arena α) (slot : Nat) : Option α :=
  (a.slots[slot]?).join

def isLive (a : Arena α) (slot : Nat) : Bool :=
  (a.get? slot).isSome

/-- Put a record into the slot vacated last, or into a new one. -/
def insert (a : Arena α) (record : α) : Arena α × Nat :=
  match a.free with
  | [] => (⟨a.slots ++ [some record], []⟩, a.slots.length)
  | slot :: rest => (⟨a.slots.set slot (some record), rest⟩, slot)

/-- Vacate a slot; a vacant one stays as it is. -/
def erase (a : Arena α) (slot : Nat) : Arena α :=
  if a.isLive slot then ⟨a.slots.set slot none, slot :: a.free⟩ else a

def eraseAll (a : Arena α) : List Nat → Arena α
  | [] => a
  | slot :: rest => (a.erase slot).eraseAll rest

def modify (a : Arena α) (slot : Nat) (f : α → α) : Arena α :=
  ⟨a.slots.modify slot (Option.map f), a.free⟩

/-- The records of a row of slots that starts at the given number. -/
def liveFrom (start : Nat) : List (Option α) → List (Nat × α)
  | [] => []
  | some record :: rest => (start, record) :: liveFrom (start + 1) rest
  | none :: rest => liveFrom (start + 1) rest

/-- All records with their slots, in slot order. -/
def live (a : Arena α) : List (Nat × α) :=
  liveFrom 0 a.slots

end Arena

end GraphGateway
