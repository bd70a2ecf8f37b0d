import Mathlib.Data.List.Forall2
import GraphGateway.Traversal.Script
import GraphGateway.Proofs.Text.Decimal

/-!
# Reading literals back

A reader for the literals of a script, which takes a value off the front of a text
and leaves the rest. Whatever characters a string holds, the reader finds its end
where the writer put it, so that literals mean one value each. Dates, floating
point numbers and references to elements are written in forms that other values
share, and are left out.
-/

namespace GraphGateway

namespace Script

/-- What takes something off the front of a text. -/
abbrev Reader (α : Type) :=
  List Char → Option (α × List Char)

/-- What may follow an argument: the end, a comma or a closing bracket. -/
def Ends (rest : List Char) : Prop :=
  ∀ c, rest.head? = some c → c = ',' ∨ c = ')' ∨ c = ']'

/-- A reader takes off exactly a text, in front of whatever may follow. -/
def Reads {α : Type} (read : Reader α) (text : List Char) (a : α) : Prop :=
  ∀ rest, Ends rest → read (text ++ rest) = some (a, rest)

theorem ends_cons {c : Char} (h : c = ',' ∨ c = ')' ∨ c = ']') (rest : List Char) :
    Ends (c :: rest) := by
  intro d hd
  cases hd
  exact h

/-! ## Strings -/

/-- What may stand behind a backslash, and the character that it means there. -/
def escapes : List (Char × Char) :=
  [('\\', '\\'), ('\'', '\''), ('n', '\n'), ('r', '\r'), ('t', '\t'), ('$', '$')]

/-- A character is written behind a backslash, or as it is when it could not be mistaken. -/
theorem escapeChar_cases (c : Char) :
    (∃ d, (d, c) ∈ escapes ∧ escapeChar c = ['\\', d]) ∨
      (escapeChar c = [c] ∧ c ∉ escapes.map Prod.snd) := by
  unfold escapeChar
  split
  next h => exact .inl ⟨_, by simp [h, escapes], rfl⟩
  split
  next h => exact .inl ⟨_, by simp [h, escapes], rfl⟩
  split
  next h => exact .inl ⟨_, by simp [h, escapes], rfl⟩
  split
  next h => exact .inl ⟨_, by simp [h, escapes], rfl⟩
  split
  next h => exact .inl ⟨_, by simp [h, escapes], rfl⟩
  split
  next h => exact .inl ⟨_, by simp [h, escapes], rfl⟩
  next => exact .inr ⟨rfl, by simp_all [escapes]⟩

/-- A reader of what stands behind an opening quote, up to the first quote that is not escaped. What
it makes of other characters behind a backslash is left open. -/
structure Unquotes (read : Reader (List Char)) : Prop where
  close : ∀ rest, read ('\'' :: rest) = some ([], rest)
  escape : ∀ {c d}, (c, d) ∈ escapes → ∀ rest,
    read ('\\' :: c :: rest) = (read rest).map fun (cs, left) => (d :: cs, left)
  plain : ∀ {c}, c ≠ '\'' → c ≠ '\\' → ∀ rest,
    read (c :: rest) = (read rest).map fun (cs, left) => (c :: cs, left)

/-- Such a reader takes off the characters that were written, and the quote behind them. -/
theorem Unquotes.escaped {read : Reader (List Char)} (h : Unquotes read) (cs rest : List Char) :
    read (cs.flatMap escapeChar ++ '\'' :: rest) = some (cs, rest) := by
  induction cs with
  | nil => exact h.close rest
  | cons c others ih =>
      rw [List.flatMap_cons, List.append_assoc]
      rcases escapeChar_cases c with ⟨d, hd, htext⟩ | ⟨htext, hplain⟩
      · rw [htext, List.cons_append, List.singleton_append, h.escape hd, ih]
        rfl
      · have hquote : c ≠ '\'' := fun heq => hplain (heq ▸ by decide)
        have hslash : c ≠ '\\' := fun heq => hplain (heq ▸ by decide)
        rw [htext, List.singleton_append, h.plain hquote hslash, ih]
        rfl

def unescape (c : Char) : Char :=
  if c = 'n' then '\n' else if c = 'r' then '\r' else if c = 't' then '\t' else c

/-- The characters up to the first quote that is not escaped. -/
def readQuoted : List Char → Option (List Char × List Char)
  | [] => none
  | '\'' :: rest => some ([], rest)
  | ['\\'] => none
  | '\\' :: c :: rest => (readQuoted rest).map fun (cs, left) => (unescape c :: cs, left)
  | c :: rest => (readQuoted rest).map fun (cs, left) => (c :: cs, left)

theorem readQuoted_unquotes : Unquotes readQuoted where
  close := fun _ => rfl
  escape := by
    intro c d h rest
    simp only [escapes, List.mem_cons, Prod.mk.injEq, List.not_mem_nil, or_false] at h
    rcases h with ⟨rfl, rfl⟩ | ⟨rfl, rfl⟩ | ⟨rfl, rfl⟩ | ⟨rfl, rfl⟩ | ⟨rfl, rfl⟩ | ⟨rfl, rfl⟩ <;>
      rfl
  plain := by
    intro c hquote hslash rest
    rw [readQuoted.eq_def]
    split <;> simp_all

theorem readQuoted_escaped (cs rest : List Char) :
    readQuoted (cs.flatMap escapeChar ++ '\'' :: rest) = some (cs, rest) :=
  readQuoted_unquotes.escaped cs rest

/-! ## Numbers -/

def readWhole : Reader Int
  | [] => none
  | c :: rest =>
      if c = '-' then
        let (digits, left) := Text.spanDigits rest
        if digits = [] then none else some (-(Text.valueOf digits : Int), left)
      else
        let (digits, left) := Text.spanDigits (c :: rest)
        if digits = [] then none else some ((Text.valueOf digits : Int), left)

/-- A whole number with or without the suffix of a long one. -/
def readInteger (cs : List Char) : Option (Int64 × List Char) :=
  match readWhole cs with
  | none => none
  | some (n, rest) =>
      if rest.head? = some 'L' then some (Int64.ofInt n, rest.tail) else some (Int64.ofInt n, rest)

theorem spanDigits_natural (n : Nat) {rest : List Char}
    (hrest : ∀ c, rest.head? = some c → Text.isDigit c = false) :
    Text.spanDigits (Text.natural n ++ rest) = (Text.natural n, rest) :=
  Text.spanDigits_append (fun _ hc => Text.isDigit_of_mem_natural hc) hrest

theorem readWhole_whole (n : Int) {rest : List Char}
    (hrest : ∀ c, rest.head? = some c → Text.isDigit c = false) :
    readWhole (Text.whole n ++ rest) = some (n, rest) := by
  cases n with
  | ofNat n =>
      have hspan := spanDigits_natural n hrest
      have hvalue := Text.valueOf_natural n
      have hne := Text.natural_ne_nil n
      show readWhole (Text.natural n ++ rest) = _
      cases hdigits : Text.natural n with
      | nil => exact (hne hdigits).elim
      | cons d others =>
          have hdigit : Text.isDigit d = true := by
            refine Text.isDigit_of_mem_natural (n := n) ?_
            rw [hdigits]
            exact List.mem_cons_self
          have hminus : d ≠ '-' := by
            intro h
            rw [h] at hdigit
            cases hdigit
          rw [hdigits] at hspan hvalue
          rw [List.cons_append] at hspan ⊢
          simp [readWhole, hminus, hspan, hvalue]
  | negSucc n =>
      have hspan := spanDigits_natural (n + 1) hrest
      have hvalue := Text.valueOf_natural (n + 1)
      have hne := Text.natural_ne_nil (n + 1)
      show readWhole ('-' :: (Text.natural (n + 1) ++ rest)) = _
      rw [readWhole, if_pos rfl, hspan]
      simp only [hne, if_false, hvalue]
      rfl

theorem not_digit_of_ends {rest : List Char} (h : Ends rest) (c : Char)
    (hc : rest.head? = some c) : Text.isDigit c = false := by
  rcases h c hc with rfl | rfl | rfl <;> rfl

theorem readInteger_long (n : Int64) : Reads readInteger (longLiteral n) n := by
  intro rest hrest
  have hsuffix : ∀ c, ('L' :: rest).head? = some c → Text.isDigit c = false := by
    intro c hc
    cases hc
    rfl
  unfold longLiteral readInteger
  rw [List.append_assoc, List.singleton_append, readWhole_whole n.toInt hsuffix]
  simp

theorem readInteger_int (n : Int64) : Reads readInteger (intLiteral n) n := by
  intro rest hrest
  unfold intLiteral
  split
  · have hsuffix : rest.head? ≠ some 'L' := by
      intro h
      rcases hrest 'L' h with h | h | h <;> cases h
    unfold readInteger
    rw [readWhole_whole n.toInt (not_digit_of_ends hrest)]
    simp [hsuffix]
  · exact readInteger_long n rest hrest

/-! ## Words -/

/-- The meaning of the first word of a table that a text begins with. -/
def readWord {α : Type} (table : List (String × α)) : Reader α := fun cs =>
  table.findSome? fun (word, a) => (Text.strip? word.toList cs).map fun rest => (a, rest)

def tokenWords : List (String × Token) :=
  [("T.id", .id), ("T.label", .label), ("T.key", .key), ("T.value", .value)]

def valueWords : List (String × Value) :=
  [("null", .null), ("true", .bool true), ("false", .bool false)] ++
    tokenWords.map fun (word, t) => (word, .token t)

def readKey : Reader Key
  | '\'' :: rest => (readQuoted rest).map fun (cs, left) => (.name (String.ofList cs), left)
  | cs => (readWord tokenWords cs).map fun (t, left) => (.token t, left)

theorem readKey_keyLiteral (key : Key) (rest : List Char) :
    readKey (keyLiteral key ++ rest) = some (key, rest) := by
  cases key with
  | token t => cases t <;> rfl
  | name s =>
      show (readQuoted (s.toList.flatMap escapeChar ++ ['\''] ++ rest)).map _ = _
      rw [List.append_assoc, List.singleton_append, readQuoted_escaped]
      simp

/-! ## Lists of things -/

/-- Things separated by commas, up to a closing bracket. -/
def readMany {α : Type} (item : Reader α) (close : Char) : Nat → Reader (List α)
  | 0, _ => none
  | n + 1, cs =>
      match item cs with
      | none => if cs.head? = some close then some ([], cs.tail) else none
      | some (a, ',' :: ' ' :: rest) =>
          (readMany item close n rest).map fun (others, left) => (a :: others, left)
      | some (a, rest) => if rest.head? = some close then some ([a], rest.tail) else none

theorem readMany_joined {α : Type} {item : Reader α} {close : Char}
    (hclose : close = ')' ∨ close = ']') (hnone : ∀ rest, item (close :: rest) = none)
    {texts : List (List Char)} {items : List α} (h : List.Forall₂ (Reads item) texts items)
    {n : Nat} (hn : items.length < n) (rest : List Char) :
    readMany item close n (commaSeparated texts ++ close :: rest) = some (items, rest) := by
  -- on the things; the last one ends at the bracket, all others at a comma
  induction h generalizing n with
  | nil =>
      cases n with
      | zero => cases hn
      | succ n => simp [readMany, commaSeparated, Text.joined, hnone]
  | @cons text a texts others htext hrest ih =>
      obtain ⟨n, rfl⟩ : ∃ m, n = m + 1 := ⟨n - 1, by omega⟩
      have hcount : others.length < n := by
        rw [List.length_cons] at hn
        omega
      cases hrest with
      | nil =>
          have hends : Ends (close :: rest) := ends_cons (by tauto) rest
          have hitem := htext (close :: rest) hends
          have hsingle : commaSeparated [text] = text := rfl
          rw [hsingle, readMany, hitem]
          rcases hclose with rfl | rfl <;> rfl
      | @cons next b texts others hnext hothers =>
          have hsplit : commaSeparated (text :: next :: texts) ++ close :: rest =
              text ++ (',' :: ' ' :: (commaSeparated (next :: texts) ++ close :: rest)) := by
            simp [commaSeparated, Text.joined]
          have hitem := htext _ (ends_cons (.inl rfl)
            (' ' :: (commaSeparated (next :: texts) ++ close :: rest)))
          rw [hsplit, readMany, hitem]
          simp only [ih hcount]
          rfl

/-! ## Values -/

def readEntry (value : Reader Value) : Reader (Key × Value)
  | '(' :: cs =>
      match readKey cs with
      | some (key, ')' :: ':' :: ' ' :: rest) =>
          (value rest).map fun (v, left) => ((key, v), left)
      | _ => none
  | _ => none

def readBracketed (value : Reader Value) (n : Nat) : Reader Value
  | ':' :: ']' :: rest => some (.map ⟨[]⟩, rest)
  | '(' :: rest =>
      (readMany (readEntry value) ']' n ('(' :: rest)).map fun (entries, left) =>
        (.map ⟨entries⟩, left)
  | cs => (readMany value ']' n cs).map fun (items, left) => (.list items, left)

/-- A value, when it nests less deeply than `n`. -/
def readValue : Nat → Reader Value
  | 0, _ => none
  | _ + 1, [] => none
  | n + 1, c :: rest =>
      if c = '\'' then (readQuoted rest).map fun (cs, left) => (.string (String.ofList cs), left)
      else if c = '[' then readBracketed (readValue n) n rest
      else if c = '-' ∨ Text.isDigit c then
        (readInteger (c :: rest)).map fun (k, left) => (.int k, left)
      else readWord valueWords (c :: rest)

end Script

/-- Values whose literals are like those of no other value. -/
inductive Value.Plain : Value → Prop
  | null : Plain .null
  | bool (b : Bool) : Plain (.bool b)
  | int (n : Int64) : Plain (.int n)
  | string (s : String) : Plain (.string s)
  | token (t : Token) : Plain (.token t)
  | list {items : List Value} (h : ∀ v ∈ items, Plain v) : Plain (.list items)
  | map {entries : List (Key × Value)} (h : ∀ e ∈ entries, Plain e.2) : Plain (.map ⟨entries⟩)

namespace Script

theorem literals_eq_map (items : List Value) : literals items = items.map literal := by
  induction items with
  | nil => simp [literals]
  | cons v rest ih => simp [literals, ih]

def entryLiteral (e : Key × Value) : List Char :=
  '(' :: (keyLiteral e.1 ++ ')' :: ':' :: ' ' :: literal e.2)

theorem entryLiterals_eq_map (entries : List (Key × Value)) :
    entryLiterals entries = entries.map entryLiteral := by
  induction entries with
  | nil => simp [entryLiterals]
  | cons e rest ih =>
      obtain ⟨key, v⟩ := e
      simp [entryLiterals, entryLiteral, ih]

theorem literal_list (items : List Value) :
    literal (.list items) = '[' :: (commaSeparated (items.map literal) ++ [']']) := by
  rw [← literals_eq_map]
  rfl

theorem literal_map (e : Key × Value) (others : List (Key × Value)) :
    literal (.map ⟨e :: others⟩) =
      '[' :: (commaSeparated ((e :: others).map entryLiteral) ++ [']']) := by
  rw [← entryLiterals_eq_map]
  rfl

theorem length_le_commaSeparated {texts : List (List Char)} {text : List Char}
    (h : text ∈ texts) : text.length ≤ (commaSeparated texts).length := by
  unfold commaSeparated
  induction texts with
  | nil => cases h
  | cons first rest ih =>
      cases rest with
      | nil =>
          rw [List.mem_singleton] at h
          rw [h]
          exact Nat.le_refl _
      | cons next others =>
          simp only [Text.joined, List.length_append]
          rcases List.mem_cons.mp h with rfl | hrest
          · omega
          · have hle := ih hrest
            omega

theorem count_le_commaSeparated (texts : List (List Char)) :
    texts.length ≤ (commaSeparated texts).length + 1 := by
  unfold commaSeparated
  induction texts with
  | nil => simp
  | cons first rest ih =>
      cases rest with
      | nil => simp
      | cons next others =>
          simp only [Text.joined, List.length_append, List.length_cons] at ih ⊢
          omega

theorem whole_head (n : Int) :
    ∃ c rest, Text.whole n = c :: rest ∧ (c = '-' ∨ Text.isDigit c = true) := by
  cases n with
  | ofNat n =>
      have hne := Text.natural_ne_nil n
      cases hdigits : Text.natural n with
      | nil => exact (hne hdigits).elim
      | cons d others =>
          refine ⟨d, others, hdigits, .inr (Text.isDigit_of_mem_natural (n := n) ?_)⟩
          rw [hdigits]
          exact List.mem_cons_self
  | negSucc n => exact ⟨'-', _, rfl, .inl rfl⟩

theorem longLiteral_head (n : Int64) :
    ∃ c rest, longLiteral n = c :: rest ∧ (c = '-' ∨ Text.isDigit c = true) := by
  obtain ⟨c, rest, hwhole, hc⟩ := whole_head n.toInt
  refine ⟨c, rest ++ ['L'], ?_, hc⟩
  rw [longLiteral, hwhole]
  rfl

theorem intLiteral_head (n : Int64) :
    ∃ c rest, intLiteral n = c :: rest ∧ (c = '-' ∨ Text.isDigit c = true) := by
  unfold intLiteral
  split
  · exact whole_head n.toInt
  · exact longLiteral_head n

/-- No literal begins like an entry of a map, or like the map without entries. -/
theorem literal_head {v : Value} (hv : v.Plain) :
    ∃ c rest, literal v = c :: rest ∧ c ≠ ':' ∧ c ≠ '(' := by
  cases hv with
  | null => exact ⟨_, _, rfl, by decide, by decide⟩
  | bool b => cases b <;> exact ⟨_, _, rfl, by decide, by decide⟩
  | int n =>
      obtain ⟨c, rest, hint, hc⟩ := intLiteral_head n
      refine ⟨c, rest, hint, ?_, ?_⟩ <;>
        (rintro rfl; rcases hc with h | h <;> cases h)
  | string s => exact ⟨_, _, rfl, by decide, by decide⟩
  | token t => exact ⟨_, _, rfl, by decide, by decide⟩
  | list h => exact ⟨_, _, rfl, by decide, by decide⟩
  | @map entries h => cases entries <;> exact ⟨_, _, rfl, by decide, by decide⟩

theorem readBracketed_list {value : Reader Value} {n : Nat} {cs : List Char}
    (h : ∀ c, cs.head? = some c → c ≠ ':' ∧ c ≠ '(') :
    readBracketed value n cs =
      (readMany value ']' n cs).map fun (items, left) => (.list items, left) := by
  unfold readBracketed
  split
  next rest => exact ((h ':' rfl).1 rfl).elim
  next rest => exact ((h '(' rfl).2 rfl).elim
  next => rfl

theorem readEntry_entryLiteral {value : Reader Value} (key : Key) {v : Value}
    (h : Reads value (literal v) v) : Reads (readEntry value) (entryLiteral (key, v)) (key, v) := by
  intro rest hrest
  have hsplit : entryLiteral (key, v) ++ rest =
      '(' :: (keyLiteral key ++ ')' :: ':' :: ' ' :: (literal v ++ rest)) := by
    simp [entryLiteral]
  rw [hsplit, readEntry, readKey_keyLiteral]
  simp [h rest hrest]

theorem readValue_close {c : Char} (h : c = ')' ∨ c = ']') (n : Nat) (rest : List Char) :
    readValue n (c :: rest) = none := by
  cases n with
  | zero => rfl
  | succ n => rcases h with rfl | rfl <;> rfl

theorem readValue_number {text : List Char} {k : Int64} (hread : Reads readInteger text k)
    (hhead : ∃ c rest, text = c :: rest ∧ (c = '-' ∨ Text.isDigit c = true)) (n : Nat) :
    Reads (readValue (n + 1)) text (.int k) := by
  intro rest hrest
  obtain ⟨c, others, rfl, hc⟩ := hhead
  have hnumber := hread rest hrest
  have hquote : c ≠ '\'' := by
    intro heq
    subst heq
    rcases hc with h | h <;> cases h
  have hbracket : c ≠ '[' := by
    intro heq
    subst heq
    rcases hc with h | h <;> cases h
  rw [List.cons_append] at hnumber ⊢
  rw [readValue, if_neg hquote, if_neg hbracket, if_pos hc, hnumber]
  rfl

theorem readValue_list {n : Nat} {items : List Value} (hplain : ∀ v ∈ items, v.Plain)
    (hitems : ∀ v ∈ items, Reads (readValue n) (literal v) v) (hcount : items.length < n) :
    Reads (readValue (n + 1)) (literal (.list items)) (.list items) := by
  intro rest _
  have htexts : List.Forall₂ (Reads (readValue n)) (items.map literal) items :=
    List.forall₂_map_left_iff.mpr (List.forall₂_same.mpr hitems)
  have hmany := readMany_joined (.inr rfl) (readValue_close (.inr rfl) n) htexts hcount rest
  have hhead : ∀ c, (commaSeparated (items.map literal) ++ ']' :: rest).head? = some c →
      c ≠ ':' ∧ c ≠ '(' := by
    intro c hc
    cases items with
    | nil =>
        cases hc
        exact ⟨by decide, by decide⟩
    | cons v others =>
        obtain ⟨d, tail, hliteral, hcolon, hparen⟩ := literal_head (hplain v List.mem_cons_self)
        rw [List.map_cons, hliteral, commaSeparated, Text.joined_cons_cons] at hc
        cases hc
        exact ⟨hcolon, hparen⟩
  have hsplit : literal (.list items) ++ rest =
      '[' :: (commaSeparated (items.map literal) ++ ']' :: rest) := by
    simp [literal_list]
  rw [hsplit]
  show readBracketed (readValue n) n _ = _
  rw [readBracketed_list hhead, hmany]
  rfl

theorem readValue_map {n : Nat} {entries : List (Key × Value)}
    (hvalues : ∀ e ∈ entries, Reads (readValue n) (literal e.2) e.2)
    (hcount : entries.length < n) :
    Reads (readValue (n + 1)) (literal (.map ⟨entries⟩)) (.map ⟨entries⟩) := by
  intro rest _
  cases entries with
  | nil => rfl
  | cons e others =>
      have htexts : List.Forall₂ (Reads (readEntry (readValue n)))
          ((e :: others).map entryLiteral) (e :: others) := by
        refine List.forall₂_map_left_iff.mpr (List.forall₂_same.mpr ?_)
        intro p he
        rcases p with ⟨key, v⟩
        exact readEntry_entryLiteral key (hvalues (key, v) he)
      have hmany := readMany_joined (.inr rfl) (fun _ => rfl) htexts hcount rest
      have hsplit : literal (.map ⟨e :: others⟩) ++ rest =
          '[' :: (commaSeparated ((e :: others).map entryLiteral) ++ ']' :: rest) := by
        simp [literal_map]
      have hopen : commaSeparated ((e :: others).map entryLiteral) =
          '(' :: commaSeparated ((entryLiteral e).tail :: others.map entryLiteral) := by
        rw [commaSeparated, commaSeparated, ← Text.joined_cons_cons]
        rfl
      rw [hsplit]
      show readBracketed (readValue n) n _ = _
      rw [hopen, List.cons_append] at hmany ⊢
      show (readMany (readEntry (readValue n)) ']' n ('(' :: _)).map _ = _
      rw [hmany]
      rfl

/-- The reader takes the literal of a value off the front of a text. -/
theorem readValue_literal {v : Value} (hv : v.Plain) {n : Nat} (hn : (literal v).length < n) :
    Reads (readValue n) (literal v) v := by
  -- on the fuel, since what stands between brackets is shorter than the whole
  induction n generalizing v with
  | zero => cases hn
  | succ n ih =>
      cases hv with
      | null => exact fun rest _ => rfl
      | bool b => cases b <;> exact fun rest _ => rfl
      | token t => cases t <;> exact fun rest _ => rfl
      | string s =>
          intro rest _
          show (readQuoted (s.toList.flatMap escapeChar ++ ['\''] ++ rest)).map _ = _
          rw [List.append_assoc, List.singleton_append, readQuoted_escaped]
          simp
      | int k => exact readValue_number (readInteger_int k) (intLiteral_head k) n
      | @list items hplain =>
          have hcount := count_le_commaSeparated (items.map literal)
          simp only [literal_list, List.length_cons, List.length_append, List.length_map,
            List.length_nil] at hn hcount
          refine readValue_list hplain (fun v hv => ih (hplain v hv) ?_) (by omega)
          have hle := length_le_commaSeparated (List.mem_map_of_mem (f := literal) hv)
          omega
      | @map entries hplain =>
          cases entries with
          | nil => exact fun rest _ => rfl
          | cons e others =>
              have hcount := count_le_commaSeparated ((e :: others).map entryLiteral)
              simp only [literal_map, List.length_cons, List.length_append, List.length_map,
                List.length_nil] at hn hcount
              refine readValue_map (fun f hf => ih (hplain f hf) ?_)
                (by rw [List.length_cons]; omega)
              have hle := length_le_commaSeparated (List.mem_map_of_mem (f := entryLiteral) hf)
              simp only [entryLiteral, List.length_cons, List.length_append] at hle
              omega

end Script

end GraphGateway
