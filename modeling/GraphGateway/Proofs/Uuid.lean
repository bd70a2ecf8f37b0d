import GraphGateway.Uuid

/-!
# Reading identifiers back

The text of an identifier reads back as the identifier, so that different
identifiers have different texts.
-/

namespace GraphGateway

namespace Uuid

theorem hexDigit?_digitChar : ∀ d : Fin 16, Text.hexDigit? (digitChar d) = some d := by
  decide

theorem hexDigits?_digitChars (ds : List (Fin 16)) :
    Text.hexDigits? (ds.map digitChar) = some ds := by
  induction ds with
  | nil => rfl
  | cons d rest ih => simp [Text.hexDigits?, hexDigit?_digitChar, ih]

theorem readPlain?_digits (u : Uuid) : readPlain? (u.digits.map digitChar) = some u := by
  simp [readPlain?, hexDigits?_digitChars, u.length_eq]

/-- Groups of 8, 4, 4, 4 and 12 characters with hyphens between them are read without these. -/
theorem readHyphenated?_groups {a b c d e : List Char} (ha : a.length = 8) (hb : b.length = 4)
    (hc : c.length = 4) (hd : d.length = 4) (he : e.length = 12) :
    readHyphenated? (a ++ '-' :: (b ++ '-' :: (c ++ '-' :: (d ++ '-' :: e)))) =
      readPlain? (a ++ b ++ c ++ d ++ e) := by
  simp [readHyphenated?, List.drop_append, List.drop_eq_nil_of_le, ha, hb, hc, hd, he]

/-- The groups of a text of characters, put together again. -/
theorem groups_append (cs : List Char) :
    cs.take 8 ++ (cs.drop 8).take 4 ++ (cs.drop 12).take 4 ++ (cs.drop 16).take 4 ++ cs.drop 20 =
      cs := by
  have htail : ∀ n, (cs.drop n).take 4 ++ cs.drop (n + 4) = cs.drop n := by
    intro n
    rw [← List.drop_drop, List.take_append_drop]
  simp only [List.append_assoc]
  rw [htail 16, htail 12, htail 8, List.take_append_drop]

theorem read?_text (u : Uuid) : read? u.text = some u := by
  have hcs : (u.digits.map digitChar).length = 32 := by simp [u.length_eq]
  have htext : u.text.toList = u.hyphenated := String.toList_ofList
  have hlength : u.hyphenated.length = 36 := by simp [hyphenated, hcs]
  have hgroups : readHyphenated? u.hyphenated = readPlain? (u.digits.map digitChar) := by
    unfold hyphenated
    rw [readHyphenated?_groups (by simp [hcs]) (by simp [hcs]) (by simp [hcs]) (by simp [hcs])
      (by simp [hcs])]
    rw [groups_append]
  simp only [read?, htext, hlength, hgroups, readPlain?_digits]

theorem text_injective : Function.Injective text := by
  intro u v h
  have hread := congrArg read? h
  rw [read?_text, read?_text] at hread
  exact Option.some.inj hread

/-- A hyphen stands within the text. -/
theorem dash_mem_tail_hyphenated (u : Uuid) : '-' ∈ u.hyphenated.tail := by
  have hlength : ((u.digits.map digitChar).take 8).length = 8 := by simp [u.length_eq]
  have hne : (u.digits.map digitChar).take 8 ≠ [] := by
    intro hnil
    rw [hnil] at hlength
    cases hlength
  unfold hyphenated
  rw [List.tail_append_of_ne_nil hne]
  exact List.mem_append_right _ List.mem_cons_self

end Uuid

end GraphGateway
