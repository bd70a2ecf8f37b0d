/-!
# Pieces of a text

Joining texts with a separator, and splitting a text at every occurrence of a
separating character.
-/

namespace GraphGateway

namespace Text

def joined (separator : List Char) : List (List Char) → List Char
  | [] => []
  | [text] => text
  | text :: next :: rest => text ++ separator ++ joined separator (next :: rest)

def pieces (separator : Char) : List Char → List (List Char)
  | [] => [[]]
  | c :: rest =>
      match pieces separator rest with
      | [] => [[c]]
      | piece :: others =>
          if c = separator then [] :: piece :: others else (c :: piece) :: others

theorem joined_cons_cons (separator : List Char) (c : Char) (piece : List Char)
    (others : List (List Char)) :
    joined separator ((c :: piece) :: others) = c :: joined separator (piece :: others) := by
  cases others <;> simp [joined]

end Text

end GraphGateway
