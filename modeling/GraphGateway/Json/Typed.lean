import GraphGateway.Json.Printer
import GraphGateway.Text.Quoted

/-!
# Typed reading of JSON

Readers that expect a value of one shape and say what they found instead. Whole
numbers must fit the wanted width, and a number with a fraction never stands for
a whole one.
-/

namespace GraphGateway

namespace Json

inductive Shape where
  | text
  | boolean
  | int64
  | word32
  | number
  | sequence
  | map
  /-- A structure of the given name and number of fields, also accepted field by field in a row. -/
  | structure (name : String) (size : Nat)
  deriving DecidableEq

inductive ShapeError where
  | mismatch (found : Json) (wanted : Shape)
  | outOfRange (n : Int) (wanted : Shape)
  | tooShort (length : Nat) (wanted : Shape)
  | tooLong (length : Nat)

namespace Shape

def name : Shape → String
  | text => "a string"
  | boolean => "a boolean"
  | int64 => "i64"
  | word32 => "u32"
  | number => "f64"
  | sequence => "a sequence"
  | map => "a map"
  | .structure name _ => "struct " ++ name

def sizedName : Shape → String
  | .structure name size => "struct " ++ name ++ " with " ++ Text.naturalText size ++ " elements"
  | other => other.name

end Shape

def description : Json → String
  | null => "null"
  | bool b => "boolean `" ++ (if b then "true" else "false") ++ "`"
  | int n => "integer `" ++ Text.wholeText n ++ "`"
  | float x => "floating point `" ++ (float x).text ++ "`"
  | string s => "string " ++ Text.quoted s
  | array _ => "sequence"
  | object _ => "map"

namespace ShapeError

def message : ShapeError → String
  | mismatch found wanted => "invalid type: " ++ found.description ++ ", expected " ++ wanted.name
  | outOfRange n wanted =>
      "invalid value: " ++ (int n).description ++ ", expected " ++ wanted.name
  | tooShort length wanted =>
      "invalid length " ++ Text.naturalText length ++ ", expected " ++ wanted.sizedName
  | tooLong length =>
      "invalid length " ++ Text.naturalText length ++ ", expected fewer elements in array"

end ShapeError

abbrev Typed (α : Type) :=
  Json → Except ShapeError α

def readText : Typed String
  | string s => .ok s
  | other => .error (.mismatch other .text)

def readBool : Typed Bool
  | bool b => .ok b
  | other => .error (.mismatch other .boolean)

def readInt64 : Typed Int64
  | int n => if fitsInt64 n then .ok (Int64.ofInt n) else .error (.outOfRange n .int64)
  | other => .error (.mismatch other .int64)

def readWord32 : Typed UInt32
  | int n =>
      if 0 ≤ n ∧ n < UInt32.size then .ok (UInt32.ofNat n.toNat) else .error (.outOfRange n .word32)
  | other => .error (.mismatch other .word32)

def readNumber64 : Typed Binary64
  | int n => .ok (.ofInt n)
  | float x => .ok (.finite x)
  | other => .error (.mismatch other .number)

def readMap : Typed Fields
  | object fields => .ok fields
  | other => .error (.mismatch other .map)

def readAny : Typed Json :=
  .ok

def readNullable {α : Type} (read : Typed α) : Typed (Option α)
  | null => .ok none
  | other => (read other).map some

def readEach {α : Type} (read : Typed α) : List Json → Except ShapeError (List α)
  | [] => .ok []
  | item :: rest =>
      match read item with
      | .error e => .error e
      | .ok a => (readEach read rest).map (a :: ·)

def readSequence {α : Type} (read : Typed α) : Typed (List α)
  | array items => readEach read items
  | other => .error (.mismatch other .sequence)

end Json

end GraphGateway
