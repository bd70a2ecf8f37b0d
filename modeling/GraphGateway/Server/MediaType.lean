/-!
# Media types

What a request declares its body to be: a type and a subtype, perhaps with a
suffix after the last plus sign of the subtype, and then parameters. Names are
tokens; the value of a parameter is a token or stands between double quotes, and
only the last value of all may be empty. Spaces are admitted before the name of a
parameter and after a quoted value, and nowhere else.
-/

namespace GraphGateway

/-- A media type in lower case, without its parameters. -/
structure MediaType where
  topLevel : String
  subtype : String
  suffix : Option String
  deriving DecidableEq

namespace MediaType

def isTokenChar (c : Char) : Bool :=
  c.isAlphanum || "!#$%&'*+-.^_`|~".toList.contains c

def isQuotable (c : Char) : Bool :=
  decide (' ' ≤ c) && decide (c ≤ '~')

/-- What follows a quoted value after its opening quote; its first character never closes it. -/
def afterQuoted? : List Char → Option (List Char)
  | [] => none
  | c :: rest =>
      if isQuotable c then
        match rest.dropWhile fun d => isQuotable d && d != '"' with
        | '"' :: tail => some tail
        | _ => none
      else none

def skipSpaces (cs : List Char) : List Char :=
  cs.dropWhile (· == ' ')

def areParameters : Nat → List Char → Bool
  | 0, _ => false
  | fuel + 1, cs =>
      let start := skipSpaces cs
      let name := start.takeWhile isTokenChar
      match start, start.dropWhile isTokenChar with
      | [], _ => true
      | _, '=' :: '"' :: quoted =>
          match (afterQuoted? quoted).map skipSpaces with
          | some [] => !name.isEmpty
          | some (';' :: more) => !name.isEmpty && areParameters fuel more
          | _ => false
      | _, '=' :: value =>
          match value.dropWhile isTokenChar with
          | [] => !name.isEmpty
          | ';' :: more =>
              !name.isEmpty && !(value.takeWhile isTokenChar).isEmpty && areParameters fuel more
          | _ => false
      | _, _ => false

def lowered (cs : List Char) : String :=
  String.ofList (cs.map Char.toLower)

/-- The media type of a type and a subtype; a plus sign in front of all opens no suffix. -/
def ofNames (topLevel subtype : List Char) : MediaType :=
  let isPlus (c : Char) : Bool := c == '+'
  match subtype.reverse.dropWhile fun c => !isPlus c with
  | _ :: lead =>
      if lead.isEmpty then ⟨lowered topLevel, lowered subtype, none⟩
      else
        ⟨lowered topLevel, lowered lead.reverse,
          some (lowered (subtype.reverse.takeWhile fun c => !isPlus c).reverse)⟩
  | [] => ⟨lowered topLevel, lowered subtype, none⟩

def read? (declaration : String) : Option MediaType :=
  let cs := declaration.toList
  let topLevel := cs.takeWhile isTokenChar
  match cs.dropWhile isTokenChar with
  | '/' :: rest =>
      let subtype := rest.takeWhile isTokenChar
      let wellFormed :=
        match rest.dropWhile isTokenChar with
        | [] => true
        | ';' :: parameters =>
            !subtype.isEmpty && areParameters (parameters.length + 1) parameters
        | _ => false
      if topLevel.isEmpty || !wellFormed then none else some (ofNames topLevel subtype)
  | _ => none

/-- Whether the media type stands for JSON, by its subtype or by its suffix. -/
def isJson (m : MediaType) : Bool :=
  m.topLevel == "application" && (m.subtype == "json" || m.suffix == some "json")

end MediaType

end GraphGateway
