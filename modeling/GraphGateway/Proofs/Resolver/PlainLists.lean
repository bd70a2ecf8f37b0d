import GraphGateway.Dispatch
import GraphGateway.Social.Schema
import GraphGateway.Proofs.Evaluation.Reachable
import GraphGateway.Proofs.Invocation.Pagination

/-!
# Lists without pages

A list resolver that does not paginate makes no use of the page that an
invocation asks for, but it looks at it. Invocations that differ in the choice of
a page only come to the same as long as every choice is one that can be read;
a choice that cannot be read is refused before anything is submitted.
-/

namespace GraphGateway

namespace Invocation

def besidesPage (i : Invocation) : Invocation :=
  { i with arguments := ⟨i.arguments.entries.filter fun binding => binding.1 != "pagination"⟩ }

/-- Two invocations differ in the choice of a page at most. -/
def AlikeButPage (i j : Invocation) : Prop :=
  i.besidesPage = j.besidesPage

variable {i j : Invocation}

theorem get?_besidesPage (i : Invocation) {name : String} (h : name ≠ "pagination") :
    i.besidesPage.arguments.get? name = i.arguments.get? name := by
  show OrderedMap.lookup name (i.arguments.entries.filter _) =
    OrderedMap.lookup name i.arguments.entries
  induction i.arguments.entries with
  | nil => rfl
  | cons head rest ih =>
      obtain ⟨key, value⟩ := head
      by_cases hkey : key = "pagination"
      · have hother : ¬ key = name := fun heq => h (heq.symm.trans hkey)
        rw [List.filter_cons_of_neg (by simp [hkey]), ih, OrderedMap.lookup, if_neg hother]
      · rw [List.filter_cons_of_pos (by simp [hkey]), OrderedMap.lookup, OrderedMap.lookup, ih]

theorem filterInput_besidesPage (i : Invocation) : i.besidesPage.filterInput = i.filterInput := by
  unfold filterInput
  rw [get?_besidesPage i (by decide)]

theorem AlikeButPage.filterInput_eq (h : i.AlikeButPage j) : i.filterInput = j.filterInput := by
  rw [← filterInput_besidesPage i, ← filterInput_besidesPage j, h]

end Invocation

namespace ListPipeline

variable {r : ListPipeline} {i j : Invocation} {fresh : ElementId}

/-- What a list without pages does once the arguments of its invocation are in order. -/
def listing (r : ListPipeline) (i : Invocation) (fresh : ElementId) (input : Fields) :
    Session (Except ResolverError Json) :=
  .ofPlan ((r.selected i fresh input).map ((), ·)) fun _ results =>
    .ok (.array (results.map Value.formatted))

theorem listing_congr (hbase : r.base i fresh = r.base j fresh) (input : Fields) :
    r.listing i fresh input = r.listing j fresh input := by
  unfold listing selected
  rw [hbase]

theorem resolve_plain (hplain : r.paginate = false) {input : Fields} {p : Pagination}
    (hinput : i.filterInput = .ok input) (hpage : i.pagination = .ok p) :
    r.resolve i fresh = r.listing i fresh input := by
  have hnever : ¬ r.paginate = true := by simp [hplain]
  have hread : r.read p = fun results => .ok (.array (results.map Value.formatted)) := by
    funext results
    rw [read, if_neg hnever]
  have hplan : r.plan i fresh = (r.selected i fresh input).map (p, ·) := by
    unfold plan
    rw [hinput, hpage]
    show (r.selected i fresh input >>= fun t => .ok (p, if r.paginate then paged p t else t)) = _
    simp only [if_neg hnever]
    cases r.selected i fresh input <;> rfl
  unfold resolve listing
  rw [hplan]
  cases r.selected i fresh input with
  | error e => rfl
  | ok t =>
      simp only [Except.map, Session.ofPlan, hread]

/-- A filter argument that cannot be read is refused, whatever page is asked for. -/
theorem resolve_unfiltered {e : ArgumentError} (hinput : i.filterInput = .error e) :
    r.resolve i fresh = .done (.error (.argument e)) := by
  unfold resolve plan
  rw [hinput]
  rfl

theorem resolve_unpaged {input : Fields} {e : ArgumentError} (hinput : i.filterInput = .ok input)
    (hpage : i.pagination = .error e) : r.resolve i fresh = .done (.error (.argument e)) := by
  unfold resolve plan
  rw [hinput, hpage]
  rfl

/-- Without pages, any two choices of a page that can be read come to the same on every connection,
and one that cannot is refused before anything is submitted. -/
theorem plain_lists_agree (hplain : r.paginate = false) (h : i.AlikeButPage j)
    (hbase : r.base i fresh = r.base j fresh) {σ : Type} (c : Connection σ) (run : Run σ) :
    ((∃ p q, i.pagination = .ok p ∧ j.pagination = .ok q) ∨ (∃ e, i.filterInput = .error e) →
      (r.resolve i fresh).carryOut c run = (r.resolve j fresh).carryOut c run) ∧
    ∀ input e, i.filterInput = .ok input → i.pagination = .error e →
      e.isPagination = true ∧
        (r.resolve i fresh).carryOut c run = (.error (.argument e), run) := by
  constructor
  · intro hreadable
    have hinputs := h.filterInput_eq
    cases hinput : i.filterInput with
    | error e =>
        rw [resolve_unfiltered hinput, resolve_unfiltered (hinputs.symm.trans hinput)]
    | ok input =>
        rcases hreadable with ⟨p, q, hp, hq⟩ | ⟨e, he⟩
        · rw [resolve_plain hplain hinput hp, resolve_plain hplain (hinputs.symm.trans hinput) hq,
            listing_congr hbase]
        · rw [hinput] at he
          cases he
  · intro input e hinput hpage
    rw [resolve_unpaged hinput hpage]
    exact ⟨Invocation.pagination_error hpage, rfl⟩

/-- The posts of the parent object, all of them at once. -/
def posts : ListPipeline where
  base := Social.fromParent [.hop (.along .outgoing) [Social.wrote]]
  filter := (Social.filters 8).apply Social.post
  paginate := false

def postsInvocation (arguments : List (String × Json)) : Invocation :=
  ⟨"User", "posts", .ofList arguments, none, some (.ofList [("id", .string "u1")])⟩

/-- A run over a store in which the first user has written a post. -/
def authored : Run Store :=
  ⟨(Store.start Store.unary).performAll
    [.addVertex (.text "u1") Social.user [("name", .string "Ann")],
      .addVertex (.text "p1") Social.post [("title", .string "Graph walks")],
      .addEdge Social.wrote (.text "u1") (.text "p1")], []⟩

theorem plain_lists_agree_posts :
    (posts.resolve
        (postsInvocation [("pagination", .ofFields [("page", .int 2)])]) (.text "f")).carryOut
        Provider.evaluate authored =
      (posts.resolve (postsInvocation [("pagination", .null)]) (.text "f")).carryOut
        Provider.evaluate authored := by
  have halike : (postsInvocation [("pagination", .ofFields [("page", .int 2)])]).AlikeButPage
      (postsInvocation [("pagination", .null)]) := rfl
  have hbase : posts.base (postsInvocation [("pagination", .ofFields [("page", .int 2)])])
      (.text "f") = posts.base (postsInvocation [("pagination", .null)]) (.text "f") := rfl
  have hagree := plain_lists_agree rfl halike hbase Provider.evaluate authored
  exact hagree.1 (.inl ⟨_, _, rfl, rfl⟩)

/-- The page zero is refused where all other pages are passed over. -/
theorem posts_refuse_page :
    (Social.registry 8).get? ⟨"User", "posts"⟩ = some posts.resolve ∧
      authored.world.Reachable ∧
      (postsInvocation [("pagination", .ofFields [("page", .int 0)])]).AlikeButPage
        (postsInvocation []) ∧
      ((posts.resolve (postsInvocation [("pagination", .ofFields [("page", .int 0)])])
        (.text "f")).carryOut Provider.evaluate authored).1 =
          .error (.argument (.notPositive "page" (.int 0))) ∧
      ((posts.resolve (postsInvocation []) (.text "f")).carryOut Provider.evaluate authored).1 =
        .ok (.array [.ofFields [("id", .string "p1"), ("__typename", .string "Post"),
          ("title", .string "Graph walks")]]) := by
  exact ⟨rfl, ⟨Store.unary, _, Store.unary_injective, rfl⟩, rfl, rfl, rfl⟩

end ListPipeline

end GraphGateway
