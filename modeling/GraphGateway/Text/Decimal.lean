/-!
# Decimal digits

Writing natural and whole numbers in base ten, and reading runs of ASCII
digits back.
-/

namespace GraphGateway

namespace Text

/-- The decimal digits of a natural number, without leading zeros. -/
def natural (n : Nat) : List Char :=
  Nat.toDigits 10 n

/-- A natural number in at least `width` digits, filled up with zeros. -/
def padded (width n : Nat) : List Char :=
  let digits := natural n
  List.replicate (width - digits.length) '0' ++ digits

/-- A whole number, with a minus sign when it is below zero. -/
def whole : Int → List Char
  | .ofNat n => natural n
  | .negSucc n => '-' :: natural (n + 1)

def naturalText (n : Nat) : String :=
  String.ofList (natural n)

def wholeText (n : Int) : String :=
  String.ofList (whole n)

def digit? (c : Char) : Option Nat :=
  if '0' ≤ c ∧ c ≤ '9' then some (c.toNat - 48) else none

def isDigit (c : Char) : Bool :=
  (digit? c).isSome

/-- The value of a list of digits, most significant first; other characters count as zero. -/
def valueOf (digits : List Char) : Nat :=
  digits.foldl (fun acc c => 10 * acc + (digit? c).getD 0) 0

/-- The longest run of digits at the front, and what follows it. -/
def spanDigits (cs : List Char) : List Char × List Char :=
  (cs.takeWhile isDigit, cs.dropWhile isDigit)

/-- The value of a text that consists of one or more digits only. -/
def natural? (cs : List Char) : Option Nat :=
  if cs ≠ [] ∧ cs.all isDigit then some (valueOf cs) else none

/-- What follows `lead` when `cs` begins with it. -/
def strip? (lead cs : List Char) : Option (List Char) :=
  match lead, cs with
  | [], rest => some rest
  | _ :: _, [] => none
  | l :: ls, c :: rest => if l = c then strip? ls rest else none

end Text

end GraphGateway
