import GraphGateway.Value.Record
import GraphGateway.Proofs.Filter.Compile
import GraphGateway.Proofs.Timestamp.Reading

/-!
# Filtering by moments

A moment that was given away as text can be filtered by. Its text is read without what
lies beyond the microseconds, and a leap second before the end of its minute is read as
the second that follows. Equality with the text finds the stored moments that are equal to
what was read, so a moment finds itself only if its text shows all of it.
-/

namespace GraphGateway

namespace Filter

/-- The value of a vertex that the filter looks at. -/
def ScalarFilter.stored? (f : ScalarFilter) (g : Graph) (id : ElementId) : Option Value :=
  (g.recordOf? id).bind f.subject?

theorem coerce_formatted_date (d : Timestamp) :
    Kind.datetime.coerce (Value.date d).formatted = .ok (.date d.shown) := by
  have htext : (Value.date d).formatted = .string d.isoText := by
    rw [Value.formatted, Value.toJson]
    exact fun _ h => Value.noConfusion h
  rw [htext, Kind.coerce, d.read?_isoText]

/-- Of all values, only a moment is loosely equal to it. -/
theorem looseEq_date (v : Value) (d : Timestamp) : v.looseEq (.date d) = true ↔ v = .date d := by
  cases v <;> simp [Value.looseEq, Value.same]

/-- The filter compares moments with the moment that was read. -/
theorem ScalarFilter.compile_date {f : ScalarFilter} (hkind : f.kind = .datetime) (d : Timestamp) :
    f.compile [("eq", (Value.date d).formatted)] =
      .ok [.has f.key (.relation .eq (.date d.shown))] := by
  have hop : f.operator "eq" = .ok (.relation .eq) := by
    rw [ScalarFilter.operator, hkind]
    rfl
  have hbuild : (Operator.relation .eq).build (Value.date d).formatted f.kind.coerce =
      .ok (.relation .eq (.date d.shown)) := by
    rw [Operator.build, hkind, coerce_formatted_date]
    rfl
  exact f.compile_singleton hop rfl hbuild

end Filter

namespace Store

open GraphGateway.Filter

/-- Equality with a moment leaves the vertices that hold it where the filter looks. -/
theorem narrows_eq_date (s : Store) (f : ScalarFilter) (d : Timestamp) :
    Narrows s [.has f.key (.relation .eq (.date d))]
      fun id => f.stored? s.graph id = some (.date d) := by
  refine (Narrows.has f _).congr fun id => ?_
  simp only [Predicate.accepts, Relation.holds, looseEq_date, ScalarFilter.stored?,
    Option.bind_eq_some_iff, ← and_assoc, exists_eq_right]

/-- The text of a moment on a clock is read as the moment up to its whole microseconds, that of a
leap second elsewhere as a moment of the second that follows. On a traversal that yields vertices,
a filter for moments equal to the text keeps exactly the vertices that hold the moment so read;
those that hold the moment itself are kept exactly if nothing of it was lost. -/
theorem filtered_by_timestamp (d : Timestamp) :
    Timestamp.read? d.isoText = some d.shown ∧
      (d.OnClock → d.shown = d.truncated) ∧
      (¬ d.OnClock → d.shown.seconds = d.seconds + 1 ∧
        d.shown.nanos = (d.nanos - 1000000000) / 1000 * 1000) ∧
      ∀ {s : Store} {f : ScalarFilter} {t : Traversal} {vs : List Vertex},
        s.Reachable → f.kind = .datetime → t.steps ≠ [] → t.isMutating = false →
        (s.submit t).1 = .ok (vs.map .vertex) →
        ∃ filtered kept, f.apply t (.ofList [("eq", (Value.date d).formatted)]) = .ok filtered ∧
          s.submit filtered = (.ok (kept.map .vertex), s) ∧
          kept = keeping (fun id => f.stored? s.graph id = some (.date d.shown)) vs ∧
          ∀ v ∈ vs, f.stored? s.graph v.id = some (.date d) →
            (v ∈ kept ↔ d.nanos % 1000 = 0 ∧ d.OnClock) := by
  refine ⟨d.read?_isoText, Timestamp.shown_onClock, Timestamp.shown_offClock, ?_⟩
  intro s f t vs hs hkind hne hread hrun
  have hw : s.graph.WellFormed := hs.sound.graph_wellFormed
  refine ⟨_, _, congrArg (Except.map t.extend) (ScalarFilter.compile_date hkind d),
    (narrows_eq_date s f d.shown).submit_extend hw hne hread hrun, rfl, ?_⟩
  intro v hv hstored
  rw [← d.shown_eq_iff]
  simp [keeping, hv, hstored, eq_comm]

/-- A quarter into the leap second at the end of a year. -/
def leapSecond : Timestamp :=
  ⟨946684799, 1250000000, by decide, by decide⟩

/-- A nanosecond later. -/
def pastLeapSecond : Timestamp :=
  ⟨946684799, 1250000001, by decide, by decide⟩

/-- Two posts, a nanosecond apart. -/
def twoPosts : Store :=
  (start unary).performAll
    [.addVertex (.text "p1") "Post" [("created_at", .date leapSecond)],
      .addVertex (.text "p2") "Post" [("created_at", .date pastLeapSecond)]]

theorem filtered_by_timestamp_pastLeapSecond :
    twoPosts.Reachable ∧ ∃ filtered,
      (ScalarFilter.ofField "created_at" .datetime).apply (.root [.vertices []])
          (.ofList [("eq", .string "1999-12-31T23:59:60.250000")]) = .ok filtered ∧
        twoPosts.submit filtered = (.ok [.vertex ⟨.text "p1", "Post"⟩], twoPosts) := by
  have hreachable : twoPosts.Reachable := ⟨unary, _, unary_injective, rfl⟩
  have hposts : (twoPosts.submit (.root [.vertices []])).1 =
      .ok ([⟨.text "p1", "Post"⟩, ⟨.text "p2", "Post"⟩].map Value.vertex) := rfl
  have htext : (Value.date pastLeapSecond).formatted = .string "1999-12-31T23:59:60.250000" := rfl
  obtain ⟨filtered, kept, happly, hrun, hkept, -⟩ := (filtered_by_timestamp pastLeapSecond).2.2.2
    (f := .ofField "created_at" .datetime) (t := .root [.vertices []]) hreachable rfl
    (List.cons_ne_nil _ _) rfl hposts
  have hfirst : (ScalarFilter.ofField "created_at" .datetime).stored? twoPosts.graph (.text "p1") =
      some (.date leapSecond) := rfl
  have hsecond : (ScalarFilter.ofField "created_at" .datetime).stored? twoPosts.graph (.text "p2") =
      some (.date pastLeapSecond) := rfl
  have hshown : pastLeapSecond.shown = leapSecond := rfl
  have hlost : pastLeapSecond ≠ leapSecond := by decide
  have hone : kept = [⟨.text "p1", "Post"⟩] := by
    simp [hkept, keeping, hfirst, hsecond, hshown, hlost]
  rw [htext] at happly
  rw [hone] at hrun
  exact ⟨hreachable, filtered, happly, hrun⟩

/-- Half a second into a leap second in the middle of a minute. -/
def strayLeapSecond : Timestamp :=
  ⟨946728030, 1500000000, by decide, by decide⟩

/-- A post of that moment. -/
def strayPost : Store :=
  (start unary).performAll [.addVertex (.text "p1") "Post" [("created_at", .date strayLeapSecond)]]

/-- The text is that of the next half second, so the moment is neither read back nor found. -/
theorem strayLeapSecond_lost :
    strayLeapSecond.isoText = "2000-01-01T12:00:31.500000" ∧
      Timestamp.read? strayLeapSecond.isoText ≠ some strayLeapSecond.truncated ∧
      strayLeapSecond.nanos % 1000 = 0 ∧
      (strayPost.submit (.root [.vertices []])).1 = .ok [.vertex ⟨.text "p1", "Post"⟩] ∧
      ∃ filtered, (ScalarFilter.ofField "created_at" .datetime).apply (.root [.vertices []])
          (.ofList [("eq", .string "2000-01-01T12:00:31.500000")]) = .ok filtered ∧
        (strayPost.submit filtered).1 = .ok [] := by
  have htext : (Value.date strayLeapSecond).formatted = .string "2000-01-01T12:00:31.500000" := rfl
  have hcompile := ScalarFilter.compile_date (f := .ofField "created_at" .datetime) rfl
    strayLeapSecond
  rw [htext] at hcompile
  refine ⟨rfl, ?_, rfl, rfl, _,
    congrArg (Except.map (Traversal.root [.vertices []]).extend) hcompile, rfl⟩
  rw [strayLeapSecond.read?_isoText]
  decide

end Store

end GraphGateway
