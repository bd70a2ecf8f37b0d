import GraphGateway.Traversal
import GraphGateway.Timestamp.Iso
import GraphGateway.Binary64.Layout
import GraphGateway.Text.Pieces

/-!
# Traversals as scripts

The text of a traversal for servers that accept scripts: calls joined by points,
from `g` for a root traversal and from `__` for an anonymous one. Strings stand
between single quotes, and every character that could end a string or open an
interpolation is escaped.
-/

namespace GraphGateway

namespace Script

/-- Numbers stay positional from `10 ^ -4` below `10 ^ 16`; exponents carry no plus sign. -/
def numberStyle : Binary64.FloatStyle where
  leastPositional := some (-4)
  firstScientific := some 16
  plusSign := false
  keepsPoint := true
  tie := .upward

def commaSeparated (texts : List (List Char)) : List Char :=
  Text.joined [',', ' '] texts

def escapeChar (c : Char) : List Char :=
  if c = '\\' then ['\\', '\\']
  else if c = '\'' then ['\\', '\'']
  else if c = '\n' then ['\\', 'n']
  else if c = '\r' then ['\\', 'r']
  else if c = '\t' then ['\\', 't']
  else if c = '$' then ['\\', '$']
  else [c]

def stringLiteral (s : String) : List Char :=
  '\'' :: (s.toList.flatMap escapeChar ++ ['\''])

def tokenLiteral (t : Token) : List Char :=
  'T' :: '.' :: t.name.toList

def keyLiteral : Key → List Char
  | .token t => tokenLiteral t
  | .name s => stringLiteral s

def longLiteral (n : Int64) : List Char :=
  Text.whole n.toInt ++ ['L']

/-- An integer; the suffix appears only when 32 bits do not suffice. -/
def intLiteral (n : Int64) : List Char :=
  if Int32.minValue.toInt ≤ n.toInt ∧ n.toInt ≤ Int32.maxValue.toInt then Text.whole n.toInt
  else longLiteral n

def idLiteral : ElementId → List Char
  | .int n => intLiteral n
  | .text s => stringLiteral s
  | .uuid u => stringLiteral u.text

mutual

def literal : Value → List Char
  | .null => ['n', 'u', 'l', 'l']
  | .bool true => ['t', 'r', 'u', 'e']
  | .bool false => ['f', 'a', 'l', 's', 'e']
  | .int n => intLiteral n
  | .float x => x.text numberStyle ++ ['d']
  | .string s => stringLiteral s
  | .date t => "datetime('".toList ++ t.iso ++ "Z')".toList
  | .uuid u => stringLiteral u.text
  | .list items => '[' :: (commaSeparated (literals items) ++ [']'])
  | .map ⟨entries⟩ =>
      if entries.isEmpty then ['[', ':', ']']
      else '[' :: (commaSeparated (entryLiterals entries) ++ [']'])
  | .vertex v => idLiteral v.id
  | .edge e => idLiteral e.id
  | .token t => tokenLiteral t

def literals : List Value → List (List Char)
  | [] => []
  | item :: rest => literal item :: literals rest

def entryLiterals : List (Key × Value) → List (List Char)
  | [] => []
  | (key, value) :: rest =>
      ('(' :: (keyLiteral key ++ ')' :: ':' :: ' ' :: literal value)) :: entryLiterals rest

end

def call (name : String) (arguments : List (List Char)) : List Char :=
  name.toList ++ '(' :: (commaSeparated arguments ++ [')'])

def predicateLiteral (p : Predicate) : List Char :=
  match p with
  | .relation _ value => call p.name [literal value]
  | .within values => call p.name (literals values)
  | .without values => call p.name (literals values)
  | .text _ _ pattern => "TextP.".toList ++ call p.name [stringLiteral pattern]

mutual

def stepArguments : Step → List (List Char)
  | .vertices ids => literals ids
  | .edges ids => literals ids
  | .addVertex label => [stringLiteral label]
  | .addEdge label => [stringLiteral label]
  | .property key value => [keyLiteral key, literal value]
  | .hasLabel labels => labels.map stringLiteral
  | .has key p => [keyLiteral key, predicateLiteral p]
  | .hop _ labels => labels.map stringLiteral
  | .incident _ labels => labels.map stringLiteral
  | .endpoint _ => []
  | .suchThat condition => [traversal condition]
  | .valueMap tokens keys =>
      (if tokens then [['t', 'r', 'u', 'e']] else []) ++ keys.map stringLiteral
  | .values keys => keys.map stringLiteral
  | .id => []
  | .label => []
  | .fold => []
  | .unfold => []
  | .count => []
  | .range low high => [longLiteral low, longLiteral high]
  | .limit size => [longLiteral size]
  | .project keys => keys.map stringLiteral
  | .dedup => []
  | .constant value => [literal value]
  | .drop => []
  | .modulator _ child => [traversal child]

/-- The script of a traversal; an anonymous one without steps is the identity. -/
def traversal : Traversal → List Char
  | .mk true [] => "__.identity()".toList
  | .mk true (s :: rest) => '_' :: '_' :: calls (s :: rest)
  | .mk false steps => 'g' :: calls steps

def calls : List Step → List Char
  | [] => []
  | s :: rest => '.' :: (call s.name (stepArguments s) ++ calls rest)

end

end Script

def Traversal.script (t : Traversal) : String :=
  String.ofList (Script.traversal t)

end GraphGateway
