import GraphGateway.Value.Order
import GraphGateway.Proofs.Text.Decimal
import GraphGateway.Proofs.Uuid

/-!
# Identifiers and their texts

Different identifiers of one kind have different texts, and no number reads like a
universally unique identifier; only a text can read like an identifier of
another kind. Loose equality of values sees this for universally unique
identifiers, but not for numbers.
-/

namespace GraphGateway

namespace ElementId

/-- One of two identifiers is a number and the other a text. -/
def IsNumberAndText : ElementId → ElementId → Prop
  | .int _, .text _ => True
  | .text _, .int _ => True
  | _, _ => False

theorem wholeText_ne_text (n : Int) (u : Uuid) : Text.wholeText n ≠ u.text := by
  intro h
  have hchars : Text.whole n = u.hyphenated := String.ofList_injective h
  refine Text.dash_not_mem_tail_whole n ?_
  rw [hchars]
  exact u.dash_mem_tail_hyphenated

/-- Values of identifiers are loosely equal if the identifiers share their text, except that a
number is never equal to a text. -/
theorem looseEq_toValue_iff (id other : ElementId) :
    id.toValue.looseEq other.toValue = true ↔
      id.display = other.display ∧ ¬ id.IsNumberAndText other := by
  cases id with
  | int m =>
      cases other with
      | int n =>
          have htext : (ElementId.int m).display = (ElementId.int n).display ↔ m = n := by
            constructor
            · intro h
              exact Int64.toInt_inj.mp (Text.wholeText_injective h)
            · intro h
              rw [h]
          rw [htext]
          simp [toValue, Value.looseEq, Value.same, IsNumberAndText]
      | text t => simp [toValue, Value.looseEq, Value.same, IsNumberAndText]
      | uuid v =>
          have htext : (ElementId.int m).display ≠ (ElementId.uuid v).display :=
            wholeText_ne_text m.toInt v
          simp [toValue, Value.looseEq, Value.same, htext]
  | text s =>
      cases other with
      | int n => simp [toValue, Value.looseEq, Value.same, IsNumberAndText]
      | text t => simp [toValue, Value.looseEq, Value.same, IsNumberAndText, display]
      | uuid v => simp [toValue, Value.looseEq, IsNumberAndText, display, eq_comm]
  | uuid u =>
      cases other with
      | int n =>
          have htext : (ElementId.uuid u).display ≠ (ElementId.int n).display :=
            (wholeText_ne_text n.toInt u).symm
          simp [toValue, Value.looseEq, Value.same, htext]
      | text t => simp [toValue, Value.looseEq, IsNumberAndText, display]
      | uuid v =>
          have htext : (ElementId.uuid u).display = (ElementId.uuid v).display ↔ u = v := by
            constructor
            · intro h
              exact Uuid.text_injective h
            · intro h
              rw [h]
          rw [htext]
          simp [toValue, Value.looseEq, Value.same, IsNumberAndText]

theorem matchesValue_toValue_iff (id other : ElementId) :
    id.matchesValue other.toValue = true ↔ id.display = other.display := by
  unfold matchesValue
  rw [Value.asId?_toValue]
  simp only [Bool.or_eq_true, decide_eq_true_eq]
  constructor
  · intro h
    rcases h with h | h
    · rw [h]
    · exact h
  · intro h
    exact .inr h

/-! ## Matching -/

/-- Whether an identifier is a text, which can read like anything. -/
def isText : ElementId → Bool
  | .text _ => true
  | _ => false

/-- Identifiers with one text are the same, unless one of them alone is a text. -/
theorem eq_of_display {id other : ElementId} (h : id.display = other.display)
    (hkind : id.isText = other.isText) : id = other := by
  cases id with
  | int m =>
      cases other with
      | int n => exact congrArg int (Int64.toInt_inj.mp (Text.wholeText_injective h))
      | text t => cases hkind
      | uuid v => exact (wholeText_ne_text m.toInt v h).elim
  | text s =>
      cases other with
      | text t => exact congrArg text h
      | _ => cases hkind
  | uuid u =>
      cases other with
      | int n => exact (wholeText_ne_text n.toInt u h.symm).elim
      | text t => cases hkind
      | uuid v => exact congrArg uuid (Uuid.text_injective h)

/-- At most one identifier matches a value without being exactly the one it holds. -/
theorem eq_of_matchesValue {v : Value} {id other : ElementId} (hid : id.matchesValue v = true)
    (hother : other.matchesValue v = true) (hne : v.asId? ≠ some id) (hne' : v.asId? ≠ some other) :
    id = other := by
  unfold matchesValue at hid hother
  cases hv : v.asId? with
  | none =>
      rw [hv] at hid
      cases hid
  | some asked =>
      simp only [hv, Bool.or_eq_true, decide_eq_true_eq] at hid hother
      rw [hv, ne_eq, Option.some.injEq] at hne hne'
      -- neither is of the kind of the value, so that both are of the other kind
      have hdiffers : ∀ a : ElementId, (a = asked ∨ a.display = asked.display) → ¬ asked = a →
          a.display = asked.display ∧ a.isText = !asked.isText := by
        intro a hnamed hdistinct
        have htext := hnamed.resolve_left fun heq => hdistinct heq.symm
        refine ⟨htext, Bool.eq_not.mpr fun hkind => ?_⟩
        exact hdistinct (eq_of_display htext hkind).symm
      obtain ⟨htext, hkind⟩ := hdiffers id hid hne
      obtain ⟨htext', hkind'⟩ := hdiffers other hother hne'
      exact eq_of_display (htext.trans htext'.symm) (hkind.trans hkind'.symm)

end ElementId

end GraphGateway
