import GraphGateway.Proofs.OrderedMap
import GraphGateway.Proofs.Script.Literals

/-!
# String literals

A string literal reads back as the text it was written for, whatever that holds and
whatever follows: runs of backslashes, quotes and backslashes at the end included.
Nothing in it could end a line or open an interpolation.
-/

namespace GraphGateway

namespace Script

/-- The characters up to the first quote that is not escaped. A backslash stands for itself unless
one of the characters that it escapes comes next. -/
def readText : List Char → Option (List Char × List Char)
  | [] => none
  | '\'' :: rest => some ([], rest)
  | '\\' :: c :: rest =>
      match OrderedMap.lookup c escapes with
      | some d => (readText rest).map fun (cs, left) => (d :: cs, left)
      | none => (readText (c :: rest)).map fun (cs, left) => ('\\' :: cs, left)
  | c :: rest => (readText rest).map fun (cs, left) => (c :: cs, left)

/-- The text of a literal between single quotes, and what follows it. -/
def readLiteral : Reader String
  | '\'' :: rest => (readText rest).map fun (cs, left) => (String.ofList cs, left)
  | _ => none

/-- The characters of a text that stand behind no backslash; a backslash that escapes is left out
together with what it escapes. -/
def unescaped : List Char → List Char
  | [] => []
  | '\\' :: _ :: rest => unescaped rest
  | c :: rest => c :: unescaped rest

theorem readText_unquotes : Unquotes readText where
  close := fun _ => rfl
  escape := by
    intro c d h rest
    have hlookup : OrderedMap.lookup c escapes = some d :=
      (OrderedMap.lookup_eq_some_iff_mem c d (by decide)).mpr h
    rw [readText, hlookup]
  plain := by
    intro c hquote hslash rest
    rw [readText.eq_def]
    split <;> simp_all

theorem unescaped_cons {c : Char} (h : c ≠ '\\') (rest : List Char) :
    unescaped (c :: rest) = c :: unescaped rest := by
  rw [unescaped.eq_def]
  split <;> simp_all

/-- What stands behind no backslash in a written text needs none. -/
theorem unescaped_escaped {c : Char} {cs rest : List Char}
    (h : c ∈ unescaped (cs.flatMap escapeChar ++ rest)) :
    c ∉ escapes.map Prod.snd ∨ c ∈ unescaped rest := by
  induction cs with
  | nil => exact .inr h
  | cons e others ih =>
      rw [List.flatMap_cons, List.append_assoc] at h
      rcases escapeChar_cases e with ⟨d, -, htext⟩ | ⟨htext, hplain⟩
      · rw [htext, List.cons_append, List.singleton_append, unescaped] at h
        exact ih h
      · have hslash : e ≠ '\\' := fun heq => hplain (heq ▸ by decide)
        rw [htext, List.singleton_append, unescaped_cons hslash, List.mem_cons] at h
        rcases h with rfl | hothers
        · exact .inl hplain
        · exact ih hothers

/-- A written text consists of backslashes, of what may stand behind one, and of what needs none. -/
theorem mem_escaped {c : Char} {cs : List Char} (h : c ∈ cs.flatMap escapeChar) :
    c = '\\' ∨ c ∈ escapes.map Prod.fst ∨ c ∉ escapes.map Prod.snd := by
  obtain ⟨e, -, hc⟩ := List.mem_flatMap.mp h
  rcases escapeChar_cases e with ⟨d, hd, htext⟩ | ⟨htext, hplain⟩
  · rw [htext, List.mem_pair] at hc
    rcases hc with rfl | rfl
    · exact .inl rfl
    · exact .inr (.inl (List.mem_map.mpr ⟨_, hd, rfl⟩))
  · rw [htext, List.mem_singleton] at hc
    subst hc
    exact .inr (.inr hplain)

theorem mem_stringLiteral {c : Char} {s : String} (h : c ∈ stringLiteral s) :
    c = '\'' ∨ c ∈ s.toList.flatMap escapeChar := by
  simpa [stringLiteral, or_comm, or_assoc] using h

/-- A string literal reads back as the string, and leaves what follows it. No line ends inside it,
and every dollar sign in it stands behind a backslash. -/
theorem readLiteral_stringLiteral (s : String) (rest : List Char) :
    readLiteral (stringLiteral s ++ rest) = some (s, rest) ∧
      '\n' ∉ stringLiteral s ∧ '\r' ∉ stringLiteral s ∧ '$' ∉ unescaped (stringLiteral s) := by
  refine ⟨?_, fun h => ?_, fun h => ?_, fun h => ?_⟩
  · show (readText (s.toList.flatMap escapeChar ++ ['\''] ++ rest)).map _ = _
    rw [List.append_assoc, List.singleton_append, readText_unquotes.escaped]
    simp
  · rcases mem_stringLiteral h with hquote | hbody
    · cases hquote
    · exact absurd (mem_escaped hbody) (by decide)
  · rcases mem_stringLiteral h with hquote | hbody
    · cases hquote
    · exact absurd (mem_escaped hbody) (by decide)
  · rw [stringLiteral, unescaped_cons (by decide)] at h
    rcases List.mem_cons.mp h with hquote | hbody
    · cases hquote
    · rcases unescaped_escaped hbody with hneeded | hclose
      · exact hneeded (by decide)
      · exact absurd hclose (by decide)

example : stringLiteral "it's \\" = "'it\\'s \\\\'".toList := by
  decide

end Script

end GraphGateway
