import GraphGateway.Dispatch
import GraphGateway.Social.Schema
import GraphGateway.Resolver.Pipeline
import GraphGateway.Proofs.Evaluation.Reachable
import GraphGateway.Proofs.Invocation.Pagination

/-!
# Pages of a list

A paginating list resolver asks for one page and for the number of all records
with a single traversal, which folds the records into one list and projects it
twice. The pages that it answers with split the records: none is lost, none
appears twice, and none is left for a page beyond the last.
-/

namespace GraphGateway

/-! ## Windows in signed words -/

/-- A saturated window holds the same values, since there are not that many. -/
theorem window_saturate {first last : UInt64} (hle : first.toNat ≤ last.toNat)
    {records : List Value} (hcount : records.length < 2 ^ 63) :
    Stage.window (saturate first) (saturate last) records =
      (records.take last.toNat).drop first.toNat := by
  have hfirst := toInt_saturate first
  have hlast := toInt_saturate last
  have hstart : (max (saturate first).toInt 0).toNat = min first.toNat (2 ^ 63 - 1) := by omega
  have hlimit : ¬ (saturate last).toInt < 0 := by omega
  have hsize : ((saturate last).toInt - max (saturate first).toInt 0).toNat =
      min last.toNat (2 ^ 63 - 1) - min first.toNat (2 ^ 63 - 1) := by omega
  unfold Stage.window
  simp only [hlimit, if_false]
  rw [hstart, hsize, ← List.drop_take]
  have htake : records.take (min last.toNat (2 ^ 63 - 1)) = records.take last.toNat := by
    rcases Nat.le_total last.toNat (2 ^ 63 - 1) with h | h
    · rw [Nat.min_eq_left h]
    · rw [Nat.min_eq_right h, List.take_of_length_le (by omega), List.take_of_length_le (by omega)]
  rw [htake]
  rcases Nat.le_total first.toNat (2 ^ 63 - 1) with h | h
  · rw [Nat.min_eq_left h]
  · have hlength := List.length_take_le' last.toNat records
    rw [Nat.min_eq_right h, List.drop_eq_nil_of_le (by omega), List.drop_eq_nil_of_le (by omega)]

/-! ## The projection -/

namespace Stage

variable {s : Store}

theorem first_yields {child : Routine} {v : Value} {results : List Value}
    (h : (child (some [v])).Yields s results) : (first child v).Yields s results.head? :=
  h.bind (Eval.Yields.pure _)

theorem projectEntries_cons {key : String} {keys : List String} {steps modulators : List Step}
    {v : Value} {results : List Value} {entries : List (Key × Value)}
    (h : (Step.onValues .read steps [v]).Yields s results)
    (hrest : (projectEntries v keys (Step.stages .read modulators)).Yields s entries) :
    (projectEntries v (key :: keys)
      (Step.stages .read (.modulator .shape (.anonymous steps) :: modulators))).Yields s
      (results.head?.toList.map (fun w => (.name key, w)) ++ entries) := by
  have hchild : ((Step.modulator .shape (.anonymous steps)).childRoutine .read (some [v])).Yields s
      results := h
  exact (first_yields hchild).bind (hrest.bind (Eval.Yields.pure _))

end Stage

def projection (low high : Int64) (records : List Value) : Record :=
  .ofList [(.name "data", .list (Stage.window low high records)),
    (.name "total", .int (Int64.ofNat records.length))]

section Projection

variable {s : Store}

theorem pageSteps_yields (low high : Int64) (records : List Value) :
    (Step.onValues .read [.unfold, .range low high, .fold] [.list records]).Yields s
      [.list (Stage.window low high records)] := by
  rw [Step.onValues_cons rfl rfl]
  refine Eval.Yields.bind (Eval.Yields.pure _) ?_
  rw [List.flatMap_singleton, Step.onValues_cons rfl rfl]
  refine Eval.Yields.bind (Eval.Yields.pure _) ?_
  rw [Step.onValues_singleton rfl]
  exact Eval.Yields.pure _

theorem countSteps_yields (records : List Value) :
    (Step.onValues .read [.unfold, .count] [.list records]).Yields s
      [.int (Int64.ofNat records.length)] := by
  rw [Step.onValues_cons rfl rfl]
  refine Eval.Yields.bind (Eval.Yields.pure _) ?_
  rw [List.flatMap_singleton, Step.onValues_singleton rfl]
  exact Eval.Yields.pure _

theorem projectSteps_yields (low high : Int64) (records : List Value) :
    (Step.onValues .read
      [.fold, .project ["data", "total"],
        .modulator .shape (.anonymous [.unfold, .range low high, .fold]),
        .modulator .shape (.anonymous [.unfold, .count])] records).Yields s
      [.map (projection low high records)] := by
  rw [Step.onValues_cons rfl rfl]
  refine Eval.Yields.bind (Eval.Yields.pure _) ?_
  rw [Step.onValues_modulated rfl (by simp [Step.isModulator])]
  refine Eval.Yields.bind (Eval.Yields.pure ()) ?_
  have hentries : (Stage.projectEntries (.list records) ["data", "total"]
      (Step.stages .read [.modulator .shape (.anonymous [.unfold, .range low high, .fold]),
        .modulator .shape (.anonymous [.unfold, .count])])).Yields s
      [(.name "data", .list (Stage.window low high records)),
        (.name "total", .int (Int64.ofNat records.length))] := by
    refine Stage.projectEntries_cons (pageSteps_yields low high records) ?_
    exact Stage.projectEntries_cons (countSteps_yields records) (Eval.Yields.pure [])
  have hrecord := hentries.bind (f := fun entries => pure (Value.map (.ofList entries)))
    (Eval.Yields.pure _)
  exact Eval.Yields.each_singleton hrecord

end Projection

/-! ## Reading a page -/

theorem readPage_projection (p : Pagination) (low high : Int64) {records : List Value}
    (hcount : records.length < 2 ^ 63) :
    readPage p [.map (projection low high records)] =
      .ok (p.result ((Stage.window low high records).map Value.formatted)
        (UInt64.ofNat records.length)) := by
  have hdata : (projection low high records).get? (.name "data") =
      some (.list (Stage.window low high records)) := rfl
  have htotal : (projection low high records).get? (.name "total") =
      some (.int (Int64.ofNat records.length)) := rfl
  have hint : (Int64.ofNat records.length).toInt = records.length :=
    Int64.toInt_ofNat_of_lt hcount
  simp [readPage, pageRecords, pageTotal, hdata, htotal, hint]
  rfl

/-! ## Answers -/

structure MemoryRequest where
  run : Run Store
  invocation : Invocation
  fresh : ElementId

/-- What a resolver answers to a request, and the run afterwards. -/
def MemoryRequest.answer (q : MemoryRequest) (resolver : Resolver) :
    Except ResolverError Json × Run Store :=
  (resolver q.invocation q.fresh).carryOut Provider.evaluate q.run

theorem carryOut_ofPlan {α : Type} {context : α} {t : Traversal} {results : List Value}
    {run : Run Store} {next : Store} (h : run.world.submit t = (.ok results, next))
    (read : α → List Value → Except ResolverError Json) :
    (Session.ofPlan (.ok (context, t)) read).carryOut Provider.evaluate run =
      (read context results, ({ run with world := next } : Run Store).note (.submitted t)) := by
  simp [Session.ofPlan, Session.carryOut, Provider.evaluate, h]
  rfl

namespace ListPipeline

/-- A request asks a resolver for a page of records, over a reachable graph and without writing. -/
structure Asks (r : ListPipeline) (q : MemoryRequest) (p : Pagination) (records : List Value) :
    Prop where
  reachable : q.run.world.Reachable
  page : q.invocation.pagination = .ok p
  selects : ∃ input t, q.invocation.filterInput = .ok input ∧
    r.selected q.invocation q.fresh input = .ok t ∧ t.steps ≠ [] ∧ t.isMutating = false ∧
    (q.run.world.submit t).1 = .ok records

theorem plan_eq_ok (r : ListPipeline) {i : Invocation} {fresh : ElementId} {input : Fields}
    {p : Pagination} {t : Traversal} (hinput : i.filterInput = .ok input)
    (hpage : i.pagination = .ok p) (hselected : r.selected i fresh input = .ok t) :
    r.plan i fresh = .ok (p, if r.paginate then paged p t else t) := by
  unfold plan
  rw [hinput, hpage]
  show (r.selected i fresh input >>= fun selected => _) = _
  rw [hselected]
  rfl

theorem Asks.answer {r : ListPipeline} (hpaginate : r.paginate = true) {q : MemoryRequest}
    {p : Pagination} {records : List Value} (h : r.Asks q p records)
    (hcount : records.length < 2 ^ 63) :
    (q.answer r.resolve).1 =
        .ok (.ofFields
          [("data", .array ((pageOf p.page.toNat p.perPage.toNat records).map Value.formatted)),
            ("page", .int p.page.toNat), ("per_page", .int p.perPage.toNat),
            ("total", .int (pageCount p.perPage.toNat records.length))]) ∧
      (q.answer r.resolve).2.world = q.run.world := by
  obtain ⟨input, t, hinput, hselected, hne, hread, hrun⟩ := h.selects
  have hw : q.run.world.graph.WellFormed := h.reachable.sound.graph_wellFormed
  have hordered : p.window.1.toNat ≤ p.window.2.toNat := by
    rw [p.window_fst_toNat, p.window_snd_toNat]
    exact Nat.mul_le_mul_right _ (Nat.sub_le _ _)
  have hwindow := window_saturate hordered hcount
  rw [p.window_fst_toNat, p.window_snd_toNat] at hwindow
  have hsubmit : q.run.world.submit (paged p t) =
      (.ok [.map (projection (saturate p.window.1) (saturate p.window.2) records)],
        q.run.world) :=
    Store.submit_extend_yields hw hne hread hrun rfl rfl (projectSteps_yields _ _ records)
  have htotal : (p.totalPages (UInt64.ofNat records.length)).toNat =
      pageCount p.perPage.toNat records.length := by
    have hword : (UInt64.ofNat records.length).toNat = records.length :=
      UInt64.toNat_ofNat_of_lt' (Nat.lt_trans hcount (by decide))
    rw [p.totalPages_toNat, hword]
  unfold MemoryRequest.answer resolve
  rw [r.plan_eq_ok hinput h.page hselected, if_pos hpaginate, carryOut_ofPlan hsubmit]
  refine ⟨?_, rfl⟩
  unfold read
  rw [if_pos hpaginate, readPage_projection p _ _ hcount, hwindow, Pagination.result, htotal]
  rfl

theorem Asks.answer_all {r : ListPipeline} (hpaginate : r.paginate = false) {q : MemoryRequest}
    {p : Pagination} {records : List Value} (h : r.Asks q p records) :
    (q.answer r.resolve).1 = .ok (.array (records.map Value.formatted)) := by
  obtain ⟨input, t, hinput, hselected, -, hread, hrun⟩ := h.selects
  have hw : q.run.world.graph.WellFormed := h.reachable.sound.graph_wellFormed
  have hsubmit : q.run.world.submit t = (.ok records, q.run.world) :=
    Prod.ext hrun (Store.submit_unchanged hw hread)
  have hplain : ¬ r.paginate = true := by simp [hpaginate]
  unfold MemoryRequest.answer resolve
  rw [r.plan_eq_ok hinput h.page hselected, if_neg hplain, carryOut_ofPlan hsubmit]
  unfold read
  rw [if_neg hplain]

def answeredRecords : Except ResolverError Json → List Json
  | .ok (.object fields) =>
      match fields.get? "data" with
      | some (.array records) => records
      | _ => []
  | _ => []

theorem Asks.answeredRecords {r : ListPipeline} (hpaginate : r.paginate = true)
    {q : MemoryRequest} {p : Pagination} {records : List Value} (h : r.Asks q p records)
    (hcount : records.length < 2 ^ 63) :
    answeredRecords (q.answer r.resolve).1 =
      pageOf p.page.toNat p.perPage.toNat (records.map Value.formatted) := by
  have hanswer := (h.answer hpaginate hcount).1
  rw [hanswer, ← map_pageOf]
  rfl

/-- Pages hold the records at their positions; together they hold all records, and none twice. -/
theorem pages_partition_records (r : ListPipeline) (hpaginate : r.paginate = true)
    {records : List Value} (hcount : records.length < 2 ^ 63) :
    (∀ q p, r.Asks q p records →
      (q.answer r.resolve).1 = .ok (.ofFields
        [("data", .array ((pageOf p.page.toNat p.perPage.toNat records).map Value.formatted)),
          ("page", .int p.page.toNat), ("per_page", .int p.perPage.toNat),
          ("total", .int (pageCount p.perPage.toNat records.length))]) ∧
        (q.answer r.resolve).2.world = q.run.world ∧
        (pageCount p.perPage.toNat records.length < p.page.toNat →
          answeredRecords (q.answer r.resolve).1 = [])) ∧
      ∀ (perPage : UInt32) (hperPage : perPage ≠ 0) (ask : UInt32 → MemoryRequest),
        (∀ page (h : page ≠ 0), page.toNat ≤ pageCount perPage.toNat records.length →
          r.Asks (ask page) ⟨page, perPage, h, hperPage⟩ records) →
        -- only numbers of 32 bits can be asked for
        pageCount perPage.toNat records.length < 2 ^ 32 →
        ∀ q p, ({ r with paginate := false } : ListPipeline).Asks q p records →
          (q.answer ({ r with paginate := false } : ListPipeline).resolve).1 =
            .ok (.array ((List.range (pageCount perPage.toNat records.length)).flatMap fun k =>
              answeredRecords ((ask (UInt32.ofNat (k + 1))).answer r.resolve).1)) := by
  have hlength : (records.map Value.formatted).length = records.length := List.length_map _
  constructor
  · intro q p hq
    have hanswer := hq.answer hpaginate hcount
    refine ⟨hanswer.1, hanswer.2, fun hlast => ?_⟩
    rw [hq.answeredRecords hpaginate hcount]
    exact pageOf_eq_nil p.perPage_pos (by rwa [hlength])
  · intro perPage hperPage ask hask hfew q p hq
    have hpos : 0 < perPage.toNat :=
      Pagination.perPage_pos ⟨perPage, perPage, hperPage, hperPage⟩
    have hpages : ∀ k ∈ List.range (pageCount perPage.toNat records.length),
        answeredRecords ((ask (UInt32.ofNat (k + 1))).answer r.resolve).1 =
          pageOf (k + 1) perPage.toNat (records.map Value.formatted) := by
      intro k hk
      have hlt := List.mem_range.mp hk
      have hnumber : (UInt32.ofNat (k + 1)).toNat = k + 1 := by
        have hsize : UInt32.size = 2 ^ 32 := rfl
        exact UInt32.toNat_ofNat_of_lt' (by omega)
      have hpage : UInt32.ofNat (k + 1) ≠ 0 := by
        intro h
        rw [h] at hnumber
        exact Nat.succ_ne_zero k hnumber.symm
      rw [(hask _ hpage (by omega)).answeredRecords hpaginate hcount]
      simp only [hnumber]
    rw [hq.answer_all rfl, List.flatMap_congr hpages, ← hlength, flatMap_pages hpos]

def users : ListPipeline :=
  { base := Social.everything, filter := (Social.filters 8).apply Social.user }

def userRequest (page : UInt32) : MemoryRequest where
  run := ⟨Store.follower, []⟩
  invocation :=
    ⟨"Query", "users",
      .ofList [("pagination", .ofFields [("page", .int page.toNat), ("per_page", .int 1)])],
      none, none⟩
  fresh := .text "fresh"

theorem userRequest_pagination {page : UInt32} (h : page ≠ 0) :
    (userRequest page).invocation.pagination = .ok ⟨page, 1, h, by decide⟩ := by
  have hlt := page.toNat_lt
  have hpos : 1 ≤ page.toNat := Pagination.page_pos ⟨page, page, h, h⟩
  have hread : Pagination.positiveField
      (.ofList [("page", .int page.toNat), ("per_page", .int 1)]) "page" 1 = .ok page := by
    show (if 1 ≤ page.toNat ∧ page.toNat < 2 ^ 32 then Except.ok (UInt32.ofNat page.toNat)
      else _) = _
    rw [if_pos ⟨hpos, hlt⟩, UInt32.ofNat_toNat]
  show (Pagination.positiveField _ "page" 1 >>= fun number => _) = _
  rw [hread]
  show Pagination.ofNumbers page 1 = _
  rw [Pagination.ofNumbers, dif_pos ⟨h, by decide⟩]

def userRecord (id name : String) : Value :=
  .map (.ofList [(.token .id, .string id), (.token .label, .string Social.user),
    (.name "name", .string name)])

theorem userRequest_asks {page : UInt32} (h : page ≠ 0) :
    users.Asks (userRequest page) ⟨page, 1, h, by decide⟩
      [userRecord "u1" "Ann", userRecord "u2" "Bob"] where
  reachable := Store.follower_reachable
  page := userRequest_pagination h
  selects := ⟨.empty, _, rfl, rfl, List.cons_ne_nil _ _, rfl, rfl⟩

theorem pages_partition_users :
    ((userRequest 2).answer users.resolve).1 = .ok (.ofFields
        [("data", .array [(userRecord "u2" "Bob").formatted]), ("page", .int 2),
          ("per_page", .int 1), ("total", .int 2)]) ∧
      ((userRequest 1).answer ({ users with paginate := false } : ListPipeline).resolve).1 =
        .ok (.array ((List.range 2).flatMap fun k =>
          answeredRecords ((userRequest (UInt32.ofNat (k + 1))).answer users.resolve).1)) := by
  have hcount : [userRecord "u1" "Ann", userRecord "u2" "Bob"].length < 2 ^ 63 := by decide
  have hone : (1 : UInt32) ≠ 0 := by decide
  have htwo : (2 : UInt32) ≠ 0 := by decide
  obtain ⟨hpage, hall⟩ := pages_partition_records users rfl hcount
  have hplain := userRequest_asks hone
  have hdata : pageOf (2 : UInt32).toNat (1 : UInt32).toNat
      [userRecord "u1" "Ann", userRecord "u2" "Bob"] = [userRecord "u2" "Bob"] := rfl
  have htotal : pageCount (1 : UInt32).toNat
      [userRecord "u1" "Ann", userRecord "u2" "Bob"].length = 2 := rfl
  constructor
  · rw [(hpage (userRequest 2) _ (userRequest_asks htwo)).1]
    simp only [hdata, htotal]
    rfl
  · exact hall 1 hone userRequest (fun page h _ => userRequest_asks h) (by decide) (userRequest 1) _
      ⟨hplain.reachable, hplain.page, hplain.selects⟩

end ListPipeline

end GraphGateway
