import GraphGateway.Proofs.Social.Reachable

/-!
# Followers

How many follow a user is at any time what the sample says, and one more for each
request to follow that succeeded since, in a batch or alone. Such a request
succeeds exactly when both of its users are there.
-/

namespace GraphGateway

namespace Social

section Reading

variable {s : Store}

/-- How many edges with a label a vertex has on one side, read through the vertex's text. -/
theorem submit_degree (h : Intact s) (text : String) (side : Side) (label : String) :
    s.submit (firstOf (.root [.vertices [.string text], .hop (.along side) [label], .count])) =
      (.ok [.int (Int64.ofNat (s.graph.degree side [label] (.text text)))], s) := by
  let found := (s.graph.recordOf? (.text text)).toList.map VertexRecord.reference
  have hfound : (Eval.look fun g => g.selectVertices [.string text]).Yields s
      (found.map .vertex) := by
    refine Eval.Yields.look ?_
    rw [h.selectVertices_string, List.map_map]
    rfl
  have hhop : ∀ v ∈ found, (Eval.look fun g => g.hop (.along side) [label] (.vertex v)).Yields s
      ((s.graph.neighbourhood side [label] v).map .vertex) :=
    fun v _ => Eval.Yields.look (h.wellFormed.hop (.along side) [label] v)
  have hall : (Step.onValues .read [.hop (.along side) [label]] (found.map .vertex)).Yields s
      (found.flatMap fun v => (s.graph.neighbourhood side [label] v).map .vertex) := by
    rw [Step.onValues_singleton rfl]
    exact Eval.Yields.collect_map found hhop
  have hlength : (found.flatMap fun v => (s.graph.neighbourhood side [label] v).map
      Value.vertex).length = s.graph.degree side [label] (.text text) := by
    cases hread : s.graph.recordOf? (.text text) with
    | none =>
        have hnone := (h.wellFormed.recordOf?_eq_none (.text text)).mp hread
        have hslot : s.graph.vertexIndex.get? (.text text) = none := by
          simpa [OrderedMap.contains] using hnone
        simp [found, hread, Graph.degree, hslot]
    | some r =>
        obtain ⟨hid, -, -⟩ := h.wellFormed.recordOf?_eq_some hread
        simp [found, hread, h.wellFormed.length_neighbourhood, VertexRecord.reference, hid]
  have hcount := Step.count_yields .read
    (found.flatMap fun v => (s.graph.neighbourhood side [label] v).map Value.vertex) s
  rw [hlength] at hcount
  have hsteps : firstOf (.root [.vertices [.string text], .hop (.along side) [label], .count]) =
      .root (.vertices [.string text] ::
        ([.hop (.along side) [label]] ++ ([.count] ++ [.limit 1]))) := rfl
  rw [hsteps, Store.submit_root .read rfl rfl rfl]
  refine Eval.Yields.bind hfound ?_
  rw [Step.onValues_append rfl]
  refine hall.bind ?_
  rw [Step.onValues_append rfl]
  exact hcount.bind (Step.limit_one_yields .read _ s)

end Reading

/-! ## Counting -/

def sampleFollowers (text : String) : Nat :=
  sampleEdges.countP fun e => decide (e.1 = follows ∧ text = e.2.2)

def asksToFollow (text : String) (i : Invocation) : Bool :=
  decide (i.key = ⟨"Mutation", "follow"⟩) &&
    match i.arguments.get? "followee_id" with
    | some (.string followee) => decide (text = followee)
    | _ => false

/-- Whether an episode is a request to follow a user that succeeded. -/
def gainsFollower (text : String) (ep : Dispatcher.Episode) : Bool :=
  match Invocation.ofEvent ep.event, ep.outcome with
  | .ok i, .ok _ => asksToFollow text i
  | _, _ => false

/-- Exactly the requests to follow a user that succeed add to the number of its followers. -/
theorem Effect.followers {event : Json} {g next : Graph} {outcome : Except DispatchError Json}
    (hw : g.WellFormed) (h : Effect event g outcome next) (text : String)
    (occurrences : List Occurrence) :
    next.degree .incoming [Social.follows] (.text text) =
      g.degree .incoming [Social.follows] (.text text) +
        if gainsFollower text ⟨event, outcome, occurrences⟩ then 1 else 0 := by
  cases h with
  | fails e =>
      have hnot : gainsFollower text ⟨event, .error e, occurrences⟩ = false := by
        unfold gainsFollower
        cases Invocation.ofEvent event <;> rfl
      simp [hnot]
  | @reads i answer hevent hname =>
      have hkey : i.key ≠ ⟨"Mutation", "follow"⟩ :=
        fun heq => hname (congrArg ResolverKey.typeName heq)
      simp [gainsFollower, hevent, asksToFollow, hkey]
  | @creates i name age fresh hevent hi hfree =>
      have hsame := hw.degree_withVertex (r := newRecord (.text fresh) name age) hfree .incoming
        [Social.follows] (.text text)
      simp [hsame, gainsFollower, hevent, asksToFollow, hi.key]
  | follows hevent hi _ _ hfar =>
      rw [hw.degree_incoming hfar]
      simp [gainsFollower, hevent, asksToFollow, hi.key, hi.followee]

end Social

namespace Server

variable (maxDepth : Nat) (observed : Bool) {r : Run Store} {event : Json} {i : Invocation}

theorem process_followerCount (h : Social.Intact r.world)
    (hevent : Invocation.ofEvent event = .ok i) (hkey : i.key = ⟨"User", "follower_count"⟩)
    {text : String}
    (hsource : (i.source.bind fun fields => fields.get? "id") = some (.string text)) :
    ((dispatcher maxDepth observed).process event r).1 =
      .ok (.ofInt64 (Int64.ofNat
        (r.world.graph.degree .incoming [Social.follows] (.text text)))) := by
  have hget : (dispatcher maxDepth observed).registry.get? i.key =
      some Social.followerCount.resolve := by
    rw [hkey]
    rfl
  obtain ⟨start, hstart, houtcome, -⟩ := Dispatcher.process_resolved rfl hevent hget r
  have hparent := (Social.parentId_eq_ok i text).mpr hsource
  have hbase : Social.followerCount.base i r.world.ids.next.1 =
      .ok (.root [.vertices [.string text], .hop (.along .incoming) [Social.follows], .count]) := by
    unfold Social.followerCount Social.fromParent
    simp only [hparent]
    rfl
  have hanswer := CalculatedPipeline.resolve_answers (p := Social.followerCount) (r := start)
    hbase (by rw [hstart]; exact Social.submit_degree h.draw text .incoming Social.follows)
  rw [houtcome, hanswer]
  rfl

/-- The followers of a user in the sample, and those that requests have gained since. -/
def followersAfter (d : Dispatcher Store) (payloads : List Json) (start : Run Store)
    (text : String) : Nat :=
  Social.sampleFollowers text + (history d payloads start).countP (Social.gainsFollower text)

/-- From the sample on, followers are gained by the requests that succeed and by nothing else. -/
theorem followers_served {issue : Nat → String} (hissue : Social.FreshSupply issue)
    {start : Store} (hstart : Social.seed ⟨issue, 0⟩ = .ok start) (payloads : List Json)
    (text : String) :
    (serve (dispatcher maxDepth observed) payloads ⟨start, []⟩).world.graph.degree .incoming
        [Social.follows] (.text text) =
      followersAfter (dispatcher maxDepth observed) payloads ⟨start, []⟩ text := by
  obtain ⟨hintact, -, hsample⟩ := Social.seed_intact hissue hstart
  have htally := serve_tally (d := dispatcher maxDepth observed)
    (fun r => Social.Intact r.world)
    (fun event _ hr => (Social.process_effect maxDepth observed hr event).2)
    (fun r => r.world.graph.degree .incoming [Social.follows] (.text text))
    (Social.gainsFollower text)
    (fun event r hr =>
      (Social.process_effect maxDepth observed hr event).1.followers hr.wellFormed text _)
    payloads (r := ⟨start, []⟩) hintact
  rw [htally, hsample Social.follows text]
  rfl

/-- Following fails unless both users are there, and is then answered with whom it leads to. -/
theorem process_following (h : Social.Intact r.world) (hevent : Invocation.ofEvent event = .ok i)
    {follower followee : String} (hi : Social.Follows i follower followee) :
    ((∃ answer, ((dispatcher maxDepth observed).process event r).1 = .ok answer) ↔
        ∃ p q, r.world.graph.recordOf? (.text follower) = some p ∧
          r.world.graph.recordOf? (.text followee) = some q) ∧
      ∀ p q, r.world.graph.recordOf? (.text follower) = some p →
        r.world.graph.recordOf? (.text followee) = some q →
        ((dispatcher maxDepth observed).process event r).1 =
          .ok (Value.map q.record).formatted := by
  have hanswer : ∀ p q, r.world.graph.recordOf? (.text follower) = some p →
      r.world.graph.recordOf? (.text followee) = some q →
      ((dispatcher maxDepth observed).process event r).1 = .ok (Value.map q.record).formatted := by
    intro p q hfollower hfollowee
    obtain ⟨-, -, -, -, -, houtcome, -⟩ :=
      Social.process_follows maxDepth observed h hevent hi hfollower hfollowee
    exact houtcome
  have hrefused : r.world.graph.recordOf? (.text follower) = none ∨
      r.world.graph.recordOf? (.text followee) = none →
        Social.Refused maxDepth observed event r := by
    intro hmissing
    refine Social.follow_refused h hevent hi.key fun one other hother => ?_
    obtain ⟨rfl, rfl⟩ := hother.unique hi
    exact hmissing
  refine ⟨⟨fun hdone => ?_, fun hboth => ?_⟩, hanswer⟩
  · obtain ⟨answer, hdone⟩ := hdone
    cases hfollower : r.world.graph.recordOf? (.text follower) with
    | none => exact absurd hdone ((hrefused (.inl hfollower)).no_answer answer)
    | some p =>
        cases hfollowee : r.world.graph.recordOf? (.text followee) with
        | none => exact absurd hdone ((hrefused (.inr hfollowee)).no_answer answer)
        | some q => exact ⟨p, q, rfl, rfl⟩
  · obtain ⟨p, q, hfollower, hfollowee⟩ := hboth
    exact ⟨_, hanswer p q hfollower hfollowee⟩

/-- No request to follow is lost or counted twice, whatever happens in between. -/
theorem follows_counted {issue : Nat → String} (hissue : Social.FreshSupply issue)
    {start : Store} (hstart : Social.seed ⟨issue, 0⟩ = .ok start) (payloads : List Json)
    (event : Json) (i : Invocation) (hevent : Invocation.ofEvent event = .ok i) :
    let d := dispatcher maxDepth observed
    let r := serve d payloads ⟨start, []⟩
    (∀ text, i.key = ⟨"User", "follower_count"⟩ →
      (i.source.bind fun fields => fields.get? "id") = some (.string text) →
      (d.process event r).1 =
          .ok (.ofInt64 (Int64.ofNat (followersAfter d payloads ⟨start, []⟩ text))) ∧
        ((followersAfter d payloads ⟨start, []⟩ text : Int) ≤ Json.greatestInt →
          (d.process event r).1 = .ok (.int (followersAfter d payloads ⟨start, []⟩ text)))) ∧
      ∀ follower followee, Social.Follows i follower followee →
        ((∃ answer, (d.process event r).1 = .ok answer) ↔
          ∃ p q, r.world.graph.recordOf? (.text follower) = some p ∧
            r.world.graph.recordOf? (.text followee) = some q) ∧
        ∀ p q, r.world.graph.recordOf? (.text follower) = some p →
          r.world.graph.recordOf? (.text followee) = some q →
          (d.process event r).1 = .ok (Value.map q.record).formatted := by
  intro d r
  have hintact : Social.Intact r.world :=
    ((Reachable.seeded hissue hstart : Reachable maxDepth observed _).served payloads).intact
  refine ⟨fun text hkey hsource => ?_, fun follower followee hi =>
    process_following maxDepth observed hintact hevent hi⟩
  have hcount := process_followerCount maxDepth observed hintact hevent hkey hsource
  rw [followers_served maxDepth observed hissue hstart payloads text] at hcount
  refine ⟨hcount, fun hbound => ?_⟩
  have hgreatest : Json.greatestInt = 2 ^ 63 - 1 := rfl
  have hsmall : followersAfter d payloads ⟨start, []⟩ text < 2 ^ 63 := by omega
  rw [hcount, Json.ofInt64, Int64.toInt_ofNat_of_lt hsmall]

/-- Requests to follow `u3`: one alone, one in a batch that ends early, and one by `u3` itself. -/
def followings : List Json :=
  [followRequest "u1" "u3",
    .array
      [Dispatcher.creation "Eve", followRequest "u4" "u3", followRequest "u1" "nobody",
        followRequest "u2" "u3"],
    followRequest "u3" "u3"]

/-- The question how many follow `u3`, as an event and as an invocation. -/
def countRequest : Json :=
  .ofFields
    [("type_name", .string "User"), ("field_name", .string "follower_count"),
      ("source", .ofFields [("id", .string "u3")])]

def countInvocation : Invocation :=
  ⟨"User", "follower_count", .empty, none, some (.ofList [("id", .string "u3")])⟩

theorem follows_counted_alone_and_batched :
    Social.FreshSupply Store.unary ∧
      Social.seed ⟨Store.unary, 0⟩ = .ok sample.world ∧
      Invocation.ofEvent countRequest = .ok countInvocation ∧
      followersAfter (dispatcher 8 true) followings sample "u3" = 4 ∧
      ((dispatcher 8 true).process countRequest
        (serve (dispatcher 8 true) followings sample)).1 = .ok (.int 4) := by
  have hseed : Social.seed ⟨Store.unary, 0⟩ = .ok sample.world := rfl
  have hevent : Invocation.ofEvent countRequest = .ok countInvocation := rfl
  have hfour : followersAfter (dispatcher 8 true) followings sample "u3" = 4 := by
    decide +kernel
  have hstart : (⟨sample.world, []⟩ : Run Store) = sample := rfl
  have hcounted := (follows_counted 8 true Social.freshSupply_unary hseed followings countRequest
    countInvocation hevent).1 "u3" rfl rfl
  rw [hstart, hfour] at hcounted
  exact ⟨Social.freshSupply_unary, hseed, hevent, hfour, hcounted.2 (by decide)⟩

end Server

end GraphGateway
