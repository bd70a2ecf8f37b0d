import GraphGateway.Proofs.Social.Followers
import GraphGateway.Proofs.Social.Users

/-!
# Ends of edges

The filters of the example say which vertices its edges join: users follow users,
and users write posts. Who wrote what is settled by the sample and agrees with
that. Whoever is followed comes from the sample or was named by a request, and
requests may name any two vertices, so the filters describe the graph exactly as
long as requests name users only.
-/

namespace GraphGateway

def Graph.Labelled (g : Graph) (id : ElementId) (label : String) : Prop :=
  ∃ r, g.recordOf? id = some r ∧ r.label = label

/-- Relationship fields lead from vertices of their filter's label to ones of their target's. -/
def Filter.Schema.Describes (s : Filter.Schema) (g : Graph) : Prop :=
  ∀ name f, s.filters.get? name = some f → ∀ field direction label target other,
    (field, .relationship direction label target) ∈ f.fields →
      s.filters.get? target = some other → ∀ v w, g.Adjacent direction label v w →
        g.Labelled v f.label ∧ g.Labelled w other.label

namespace Social

/-! ## What the filters say -/

/-- Edges with a label lead from vertices of one label to vertices of another. -/
def Connects (g : Graph) (label near far : String) : Prop :=
  ∀ v w, g.Joins label v w → g.Labelled v near ∧ g.Labelled w far

section Declared

variable {field label target : String} {direction : Direction}

theorem relationship_of_user :
    (field, Filter.FieldFilter.relationship direction label target) ∈ userFilter.fields ↔
      (field = "following" ∧ direction = .along .outgoing ∧ label = follows ∧ target = user) ∨
        (field = "followers" ∧ direction = .along .incoming ∧ label = follows ∧ target = user) ∨
          (field = "posts" ∧ direction = .along .outgoing ∧ label = wrote ∧ target = post) := by
  have hfields : userFilter.fields =
      [("id", .scalar (.ofField "id" .id)), ("name", .scalar (.ofField "name" .string)),
        ("age", .scalar (.ofField "age" .int)), ("active", .scalar (.ofField "active" .boolean)),
        ("created_at", .scalar (.ofField "created_at" .datetime)),
        ("following", .relationship (.along .outgoing) follows user),
        ("followers", .relationship (.along .incoming) follows user),
        ("posts", .relationship (.along .outgoing) wrote post)] := by decide
  simp [hfields]

theorem relationship_of_post :
    (field, Filter.FieldFilter.relationship direction label target) ∈ postFilter.fields ↔
      field = "author" ∧ direction = .along .incoming ∧ label = wrote ∧ target = user := by
  have hfields : postFilter.fields =
      [("id", .scalar (.ofField "id" .id)), ("title", .scalar (.ofField "title" .string)),
        ("likes", .scalar (.ofField "likes" .int)),
        ("author", .relationship (.along .incoming) wrote user)] := by decide
  simp [hfields]

end Declared

/-- The filters of the example speak of two kinds of edges. -/
theorem describes_filters (maxDepth : Nat) (g : Graph) :
    (filters maxDepth).Describes g ↔ Connects g follows user user ∧ Connects g wrote user post := by
  have huser : (filters maxDepth).filters.get? user = some userFilter := rfl
  have hpost : (filters maxDepth).filters.get? post = some postFilter := rfl
  constructor
  · intro h
    refine ⟨fun v w hjoins => ?_, fun v w hjoins => ?_⟩
    · exact h user userFilter huser "following" (.along .outgoing) follows user userFilter
        (relationship_of_user.mpr (by simp)) huser v w hjoins
    · exact h user userFilter huser "posts" (.along .outgoing) wrote post postFilter
        (relationship_of_user.mpr (by simp)) hpost v w hjoins
  · rintro ⟨hfollows, hwrote⟩ name f hf field direction label target other hfield hother v w hadj
    have hname : (name, f) ∈ [(user, userFilter), (post, postFilter)] :=
      ((OrderedMap.Distinct.ofList _).get?_eq_some_iff name f).mp hf
    rcases List.mem_pair.mp hname with heq | heq
    · obtain ⟨rfl, rfl⟩ := Prod.mk.inj heq
      rcases relationship_of_user.mp hfield with
        ⟨-, rfl, rfl, rfl⟩ | ⟨-, rfl, rfl, rfl⟩ | ⟨-, rfl, rfl, rfl⟩
      · obtain rfl := Option.some.inj (hother.symm.trans huser)
        exact hfollows v w hadj
      · obtain rfl := Option.some.inj (hother.symm.trans huser)
        exact (hfollows w v hadj).symm
      · obtain rfl := Option.some.inj (hother.symm.trans hpost)
        exact hwrote v w hadj
    · obtain ⟨rfl, rfl⟩ := Prod.mk.inj heq
      obtain ⟨-, rfl, rfl, rfl⟩ := relationship_of_post.mp hfield
      obtain rfl := Option.some.inj (hother.symm.trans huser)
      exact (hwrote w v hadj).symm

/-! ## The sample -/

/-- An edge of the sample from one vertex to another. -/
def SampleJoins (edges : List (String × String × String)) (label : String) (v w : ElementId) :
    Prop :=
  ∃ e ∈ edges, e.1 = label ∧ v = .text e.2.1 ∧ w = .text e.2.2

theorem addEdges_joins {edges : List (String × String × String)} {s next : Store} (hs : s.Sound)
    (h : addEdges edges s = .ok next) (label : String) (v w : ElementId) :
    next.graph.Joins label v w ↔ s.graph.Joins label v w ∨ SampleJoins edges label v w := by
  induction edges generalizing s with
  | nil =>
      cases h
      simp [SampleJoins]
  | cons head rest ih =>
      obtain ⟨name, source, target⟩ := head
      have hsound := (hs.perform (.addEdge name (.text source) (.text target))).1
      simp only [addEdges, Operation.perform] at h hsound
      cases hadd : s.addEdge name (.text source) (.text target) with
      | mk outcome middle =>
          rw [hadd] at h hsound
          cases outcome with
          | error err => cases h
          | ok e =>
              obtain ⟨near, far, hsource, htarget, rfl⟩ := addEdge_eq_ok hadd
              rw [ih hsound h, hs.graph_wellFormed.joins_withEdge hsource htarget, or_assoc]
              simp [SampleJoins]

section Sample

variable {issue : Nat → String} {start : Store}

theorem seed_joins (hissue : FreshSupply issue) (h : seed ⟨issue, 0⟩ = .ok start) (label : String)
    (v w : ElementId) : start.graph.Joins label v w ↔ SampleJoins sampleEdges label v w := by
  obtain ⟨graph, hvertices, hedges⟩ := Except.bind_eq_ok.mp h
  obtain ⟨hsound, hnone, -⟩ := addVertices_grows (Store.Sound.start hissue.injective) hvertices
  have hempty : ¬ graph.Joins label v w := by
    rintro ⟨slot, e, -, -, he, -⟩
    have hedges : graph.edges = .empty := hnone
    rw [hedges] at he
    cases he
  rw [addEdges_joins hsound hedges]
  exact or_iff_right hempty

theorem seed_labelled (h : seed ⟨issue, 0⟩ = .ok start) :
    (∀ u ∈ sampleUsers, start.graph.Labelled (.text u.id) user) ∧
      ∀ p ∈ samplePosts, start.graph.Labelled (.text p.id) post := by
  obtain rfl := Except.ok.inj h
  constructor
  · intro u hu
    simp only [sampleUsers, List.mem_cons, List.not_mem_nil, or_false] at hu
    rcases hu with rfl | rfl | rfl | rfl <;> exact ⟨_, rfl, rfl⟩
  · intro p hp
    simp only [samplePosts, List.mem_cons, List.not_mem_nil, or_false] at hp
    rcases hp with rfl | rfl <;> exact ⟨_, rfl, rfl⟩

/-- In the sample users follow users, and users write posts. -/
theorem seed_connects (hissue : FreshSupply issue) (h : seed ⟨issue, 0⟩ = .ok start) :
    Connects start.graph follows user user ∧ Connects start.graph wrote user post := by
  obtain ⟨husers, hposts⟩ := seed_labelled h
  have hends : ∀ e ∈ sampleEdges, (∃ u ∈ sampleUsers, u.id = e.2.1) ∧
      (e.1 = follows → ∃ u ∈ sampleUsers, u.id = e.2.2) ∧
        (e.1 = wrote → ∃ p ∈ samplePosts, p.id = e.2.2) := by decide
  refine ⟨fun v w hjoins => ?_, fun v w hjoins => ?_⟩
  · obtain ⟨e, he, hlabel, rfl, rfl⟩ := (seed_joins hissue h follows v w).mp hjoins
    obtain ⟨⟨u, hu, hsource⟩, htarget, -⟩ := hends e he
    obtain ⟨q, hq, htarget⟩ := htarget hlabel
    exact ⟨hsource ▸ husers u hu, htarget ▸ husers q hq⟩
  · obtain ⟨e, he, hlabel, rfl, rfl⟩ := (seed_joins hissue h wrote v w).mp hjoins
    obtain ⟨⟨u, hu, hsource⟩, -, htarget⟩ := hends e he
    obtain ⟨q, hq, htarget⟩ := htarget hlabel
    exact ⟨hsource ▸ husers u hu, htarget ▸ hposts q hq⟩

end Sample

/-! ## One event -/

/-- An episode is a request to follow that succeeded. -/
def Followed (ep : Dispatcher.Episode) (follower followee : String) : Prop :=
  ∃ i answer, Invocation.ofEvent ep.event = .ok i ∧ Follows i follower followee ∧
    ep.outcome = .ok answer

theorem followed_of_process {d : Dispatcher Store} {event : Json} {i : Invocation}
    {r : Run Store} {follower followee : String} {answer : Json}
    (hevent : Invocation.ofEvent event = .ok i) (hi : Follows i follower followee)
    (hdone : (d.process event r).1 = .ok answer) :
    Followed (d.episode event r) follower followee :=
  ⟨i, answer, hevent, hi, hdone⟩

/-- An episode brought an edge with a label from one vertex to another. -/
def Brings (label : String) (v w : ElementId) (ep : Dispatcher.Episode) : Prop :=
  label = follows ∧ ∃ follower followee, Followed ep follower followee ∧ v = .text follower ∧
    w = .text followee

/-- Requests to follow that succeed join the two vertices that they name; nothing else joins any. -/
theorem Effect.joins {event : Json} {g next : Graph} {outcome : Except DispatchError Json}
    (hw : g.WellFormed) (h : Effect event g outcome next) (label : String) (v w : ElementId)
    (occurrences : List Occurrence) :
    next.Joins label v w ↔
      g.Joins label v w ∨ Brings label v w ⟨event, outcome, occurrences⟩ := by
  cases h with
  | fails e =>
      refine (or_iff_left ?_).symm
      rintro ⟨-, -, -, ⟨i, answer, -, -, hdone⟩, -⟩
      cases hdone
  | @reads i answer hevent hname =>
      refine (or_iff_left ?_).symm
      rintro ⟨-, follower, followee, ⟨other, -, hother, hi, -⟩, -⟩
      obtain rfl := Except.ok.inj (hother.symm.trans hevent)
      exact hname (congrArg ResolverKey.typeName hi.key)
  | @creates i name age text hevent hi hfree =>
      rw [hw.joins_withVertex]
      -- an event that asks for a new user does not ask for an edge
      refine (or_iff_left ?_).symm
      rintro ⟨-, follower, followee, ⟨other, -, hother, hfollows, -⟩, -⟩
      obtain rfl := Except.ok.inj (hother.symm.trans hevent)
      exact absurd (hi.key.symm.trans hfollows.key) (by decide)
  | @follows i follower followee q edge near far hevent hi hfollowee hnear hfar =>
      rw [hw.joins_withEdge hnear hfar]
      refine or_congr_right ?_
      constructor
      · rintro ⟨rfl, rfl, rfl⟩
        exact ⟨rfl, follower, followee, ⟨i, _, hevent, hi, rfl⟩, rfl, rfl⟩
      · rintro ⟨rfl, one, other, ⟨j, -, hj, hfollows, -⟩, rfl, rfl⟩
        obtain rfl := Except.ok.inj (hj.symm.trans hevent)
        obtain ⟨rfl, rfl⟩ := hfollows.unique hi
        exact ⟨rfl, rfl, rfl⟩

end Social

namespace Server

variable (maxDepth : Nat) (observed : Bool)

/-! ## All events -/

section Served

variable {issue : Nat → String} (hissue : Social.FreshSupply issue) {start : Store}
  (hstart : Social.seed ⟨issue, 0⟩ = .ok start) (payloads : List Json)

include hissue hstart

/-- Vertices are joined by the sample, or by a request to follow that succeeded since. -/
theorem joins_served (label : String) (v w : ElementId) :
    (serve (dispatcher maxDepth observed) payloads ⟨start, []⟩).world.graph.Joins label v w ↔
      Social.SampleJoins Social.sampleEdges label v w ∨
        ∃ ep ∈ history (dispatcher maxDepth observed) payloads ⟨start, []⟩,
          Social.Brings label v w ep := by
  have hgathers := serve_gathers (d := dispatcher maxDepth observed)
    (fun r => Social.Intact r.world)
    (fun event _ hr => (Social.process_effect maxDepth observed hr event).2)
    (fun r => r.world.graph.Joins label v w) (Social.Brings label v w)
    (fun event r hr =>
      (Social.process_effect maxDepth observed hr event).1.joins hr.wellFormed label v w _)
    payloads (r := ⟨start, []⟩) (Social.seed_intact hissue hstart).1
  rw [hgathers, Social.seed_joins hissue hstart]

/-- Vertices keep their labels. -/
theorem labelled_served {id : ElementId} {label : String} (h : start.graph.Labelled id label) :
    (serve (dispatcher maxDepth observed) payloads ⟨start, []⟩).world.graph.Labelled id label := by
  obtain ⟨q, hq, hlabel⟩ := h
  have hintact := (Social.seed_intact hissue hstart).1
  exact ⟨q, (serve_keeps_record maxDepth observed (r := ⟨start, []⟩) hintact hq payloads).2, hlabel⟩

theorem ends_served_of_sample {label near far : String}
    (h : Social.Connects start.graph label near far) {v w : ElementId}
    (hjoins : Social.SampleJoins Social.sampleEdges label v w) :
    (serve (dispatcher maxDepth observed) payloads ⟨start, []⟩).world.graph.Labelled v near ∧
      (serve (dispatcher maxDepth observed) payloads ⟨start, []⟩).world.graph.Labelled w far := by
  obtain ⟨hv, hw⟩ := h v w ((Social.seed_joins hissue hstart label v w).mpr hjoins)
  exact ⟨labelled_served maxDepth observed hissue hstart payloads hv,
    labelled_served maxDepth observed hissue hstart payloads hw⟩

end Served

/-- Users write posts at any time, and the filters describe the graph exactly as long as every
request to follow that succeeded named two users. -/
theorem described_served {issue : Nat → String} (hissue : Social.FreshSupply issue)
    {start : Store} (hstart : Social.seed ⟨issue, 0⟩ = .ok start) (payloads : List Json) :
    let r := serve (dispatcher maxDepth observed) payloads ⟨start, []⟩
    Social.Connects r.world.graph Social.wrote Social.user Social.post ∧
      ((Social.filters maxDepth).Describes r.world.graph ↔
        ∀ ep ∈ history (dispatcher maxDepth observed) payloads ⟨start, []⟩,
          ∀ follower followee, Social.Followed ep follower followee →
            r.world.graph.Labelled (.text follower) Social.user ∧
              r.world.graph.Labelled (.text followee) Social.user) := by
  intro r
  have hjoins := joins_served maxDepth observed hissue hstart payloads
  obtain ⟨hfollows, hwrote⟩ := Social.seed_connects hissue hstart
  have hposts : Social.Connects r.world.graph Social.wrote Social.user Social.post := by
    intro v w h
    rcases (hjoins Social.wrote v w).mp h with hsample | ⟨ep, -, hlabel, -⟩
    · exact ends_served_of_sample maxDepth observed hissue hstart payloads hwrote hsample
    · exact absurd hlabel (by decide)
  refine ⟨hposts, ?_⟩
  rw [Social.describes_filters]
  constructor
  · rintro ⟨hfollowers, -⟩ ep hep follower followee hfollowed
    exact hfollowers _ _ ((hjoins Social.follows _ _).mpr
      (.inr ⟨ep, hep, rfl, follower, followee, hfollowed, rfl, rfl⟩))
  · intro h
    refine ⟨fun v w hjoined => ?_, hposts⟩
    rcases (hjoins Social.follows v w).mp hjoined with
      hsample | ⟨ep, hep, -, a, b, hfollowed, hv, hw⟩
    · exact ends_served_of_sample maxDepth observed hissue hstart payloads hfollows hsample
    · rw [hv, hw]
      exact h ep hep a b hfollowed

def followed (follower followee : String) : Run Store :=
  serve (dispatcher 8 true) [followRequest follower followee] sample

def followInvocation (follower followee : String) : Invocation :=
  ⟨"Mutation", "follow",
    .ofList [("follower_id", .string follower), ("followee_id", .string followee)], none, none⟩

theorem followRequest_follows (follower followee : String) :
    Invocation.ofEvent (followRequest follower followee) =
        .ok (followInvocation follower followee) ∧
      Social.Follows (followInvocation follower followee) follower followee :=
  ⟨rfl, rfl, rfl, rfl⟩

theorem followed_labelled {follower followee text label : String}
    (h : sample.world.graph.Labelled (.text text) label) :
    (followed follower followee).world.graph.Labelled (.text text) label := by
  have hseed : Social.seed ⟨Store.unary, 0⟩ = .ok sample.world := rfl
  have hstart : (⟨sample.world, []⟩ : Run Store) = sample := rfl
  have hlater := labelled_served 8 true Social.freshSupply_unary hseed
    [followRequest follower followee] h
  rw [hstart] at hlater
  exact hlater

theorem described_served_follow :
    Social.FreshSupply Store.unary ∧ Social.seed ⟨Store.unary, 0⟩ = .ok sample.world ∧
      Social.Connects (followed "u1" "u3").world.graph Social.wrote Social.user Social.post ∧
      (Social.filters 8).Describes (followed "u1" "u3").world.graph := by
  have hseed : Social.seed ⟨Store.unary, 0⟩ = .ok sample.world := rfl
  have hstart : (⟨sample.world, []⟩ : Run Store) = sample := rfl
  have hserved :=
    described_served 8 true Social.freshSupply_unary hseed [followRequest "u1" "u3"]
  rw [hstart, ← followed] at hserved
  refine ⟨Social.freshSupply_unary, hseed, hserved.1, hserved.2.mpr ?_⟩
  rintro ep hep one other ⟨i, answer, hevent, hi, -⟩
  obtain ⟨payload, hpayload, hmem⟩ := event_mem_of_history hep
  rw [List.mem_singleton.mp hpayload] at hmem
  rw [List.mem_singleton.mp hmem, (followRequest_follows "u1" "u3").1] at hevent
  obtain rfl := Except.ok.inj hevent
  obtain ⟨rfl, rfl⟩ := hi.unique (followRequest_follows "u1" "u3").2
  exact ⟨followed_labelled ⟨_, rfl, rfl⟩, followed_labelled ⟨_, rfl, rfl⟩⟩

/-- A request may name a post, which follows a user from then on. -/
theorem post_follows :
    Reachable 8 true (followed "p1" "u1") ∧
      (followed "p1" "u1").world.graph.Joins Social.follows (.text "p1") (.text "u1") ∧
      (followed "p1" "u1").world.graph.Labelled (.text "p1") Social.post ∧
      ¬ (Social.filters 8).Describes (followed "p1" "u1").world.graph := by
  have hseed : Social.seed ⟨Store.unary, 0⟩ = .ok sample.world := rfl
  have hstart : (⟨sample.world, []⟩ : Run Store) = sample := rfl
  have hreachable := sample_reachable 8 true
  have hlabelled : (followed "p1" "u1").world.graph.Labelled (.text "p1") Social.post :=
    followed_labelled ⟨_, rfl, rfl⟩
  obtain ⟨hevent, hi⟩ := followRequest_follows "p1" "u1"
  obtain ⟨answer, hdone⟩ := (process_following 8 true hreachable.intact hevent hi).1.mpr
    ⟨_, _, rfl, rfl⟩
  have hjoins := joins_served 8 true Social.freshSupply_unary hseed [followRequest "p1" "u1"]
    Social.follows (.text "p1") (.text "u1")
  rw [hstart, ← followed] at hjoins
  have hep : (dispatcher 8 true).episode (followRequest "p1" "u1") sample ∈
      history (dispatcher 8 true) [followRequest "p1" "u1"] sample :=
    episode_mem_history rfl _ _ _
  have hfollowed := Social.followed_of_process hevent hi hdone
  have hjoined := hjoins.mpr (.inr ⟨_, hep, rfl, "p1", "u1", hfollowed, rfl, rfl⟩)
  refine ⟨hreachable.served _, hjoined, hlabelled, fun hdescribed => ?_⟩
  obtain ⟨p, hp, hpost⟩ := hlabelled
  obtain ⟨q, hq, huser⟩ := (((Social.describes_filters 8 _).mp hdescribed).1 _ _ hjoined).1
  obtain rfl := Option.some.inj (hp.symm.trans hq)
  exact absurd (hpost.symm.trans huser) (by decide)

end Server

end GraphGateway
