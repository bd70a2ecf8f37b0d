import GraphGateway.Proofs.Evaluation.Selection
import GraphGateway.Proofs.Social.Requests
import GraphGateway.Proofs.Social.State

/-!
# Events of the social graph

Everything that one event can do to the store of the example. It fails and
changes nothing, it only reads, it adds a user, or it adds an edge between two
vertices; there is no write that a failure could follow. Whichever it is, the
store stays intact.
-/

namespace GraphGateway

namespace Social

variable {i : Invocation} {fresh : ElementId}

/-! ## New users -/

def newProperties (name : String) (age : Option Int64) : List (String × Value) :=
  [("name", .string name), ("active", .bool true)] ++ age.toList.map fun n => ("age", .int n)

/-- What is stored of a new user. -/
def newRecord (id : ElementId) (name : String) (age : Option Int64) : VertexRecord :=
  ⟨id, user, .ofList (newProperties name age)⟩

/-- The invocation asks for a new user with this name and this age. -/
structure Creates (i : Invocation) (name : String) (age : Option Int64) : Prop where
  key : i.key = ⟨"Mutation", "createUser"⟩
  name : i.arguments.get? "name" = some (.string name)
  age : GivesAge i.arguments age

theorem newUser_eq_ok (i : Invocation) (fresh : ElementId) (t : Traversal) :
    newUser i fresh = .ok t ↔
      ∃ name age, i.arguments.get? "name" = some (.string name) ∧ GivesAge i.arguments age ∧
        t = .root (.addVertex user :: .property (.token .id) fresh.toValue ::
          Step.writing (newProperties name age)) := by
  have hsteps : ∀ (name : String) (age : Option Int64),
      ([.addVertex user, .property (.token .id) fresh.toValue,
        .property (.name "name") (.string name), .property (.name "active") (.bool true)] ++
          age.toList.map fun n => Step.property (.name "age") (.int n)) =
        .addVertex user :: .property (.token .id) fresh.toValue ::
          Step.writing (newProperties name age) := by
    intro name age
    cases age <;> rfl
  constructor
  · intro h
    obtain ⟨name, hname, h⟩ := Except.bind_eq_ok.mp h
    obtain ⟨age, hage, h⟩ := Except.bind_eq_ok.mp h
    cases h
    exact ⟨name, age, (textArgument_eq_ok i "name" name).mp hname, (age_eq_ok i age).mp hage,
      by rw [← hsteps]⟩
  · intro hfound
    rcases hfound with ⟨name, age, hname, hage, rfl⟩
    have hread := (textArgument_eq_ok i "name" name).mpr hname
    have hnumber := (age_eq_ok i age).mpr hage
    unfold newUser
    rw [hread, Except.ok_bind, hnumber, Except.ok_bind]
    exact congrArg (fun steps => Except.ok (Traversal.root steps)) (hsteps name age)

/-- A new user is added with its properties, under an identifier that was unused. -/
theorem submit_newUser {s : Store} (h : Intact s) {id : ElementId}
    (hid : s.graph.vertexIndex.contains id = false) (hne : s.ids.next.1 ≠ id) (name : String)
    (age : Option Int64) :
    s.submit (firstOf (recordSelection (.root (.addVertex user ::
        .property (.token .id) id.toValue :: Step.writing (newProperties name age))))) =
      (.ok [.map (newRecord id name age).record],
        ⟨s.graph.withVertex (newRecord id name age), s.ids.next.2⟩) := by
  have htemporary : s.graph.vertexIndex.contains s.ids.next.1 = false := h.unused (Nat.le_refl _)
  have hadd := Step.addVertex_leads htemporary user
  have hrename := Step.rename_leads (r := ⟨s.ids.next.1, user, .empty⟩) s.ids.next.2
    h.wellFormed htemporary hid hne
  have hwrite := Step.writing_leads s.graph s.ids.next.2 (newProperties name age)
    ⟨id, user, .empty⟩
  have hstored : (s.graph.withVertex (newRecord id name age)).recordOf? id =
      some (newRecord id name age) := by
    rw [h.wellFormed.recordOf?_withVertex]
    exact if_pos rfl
  have hd : (newRecord id name age).properties.Distinct := .ofList (newProperties name age)
  have hselect := Step.selection_first_yields .write [newRecord id name age]
    (s := ⟨s.graph.withVertex (newRecord id name age), s.ids.next.2⟩)
    (List.forall_mem_singleton.mpr ⟨hstored, hd⟩)
  have halone : Step.standsAlone
      (Step.writing (newProperties name age) ++ (Step.selection ++ [.limit 1])) = true := rfl
  rw [firstOf_recordSelection, List.cons_append, List.cons_append,
    Store.submit_root .write rfl rfl rfl]
  refine Eval.Leads.bind hadd ?_
  rw [← List.singleton_append, Step.onValues_append halone]
  refine Eval.Leads.bind hrename ?_
  rw [Step.onValues_append rfl]
  exact hwrite.bind hselect.leads

/-! ## New edges -/

/-- The invocation asks for an edge from one user to another. -/
structure Follows (i : Invocation) (follower followee : String) : Prop where
  key : i.key = ⟨"Mutation", "follow"⟩
  follower : i.arguments.get? "follower_id" = some (.string follower)
  followee : i.arguments.get? "followee_id" = some (.string followee)

theorem Follows.unique {follower other followee target : String} (h : Follows i follower followee)
    (h' : Follows i other target) : follower = other ∧ followee = target := by
  have hfirst := h.follower.symm.trans h'.follower
  have hsecond := h.followee.symm.trans h'.followee
  exact ⟨Json.string.inj (Option.some.inj hfirst), Json.string.inj (Option.some.inj hsecond)⟩

/-- The steps that follow: from one vertex an edge to another, and on to that one. -/
def following (follower followee : String) : List Step :=
  .vertices [.string follower] ::
    (Step.joining follows (.string followee) ++ [.endpoint .incoming])

theorem newFollow_eq_ok (i : Invocation) (fresh : ElementId) (t : Traversal) :
    newFollow i fresh = .ok t ↔
      ∃ follower followee, i.arguments.get? "follower_id" = some (.string follower) ∧
        i.arguments.get? "followee_id" = some (.string followee) ∧
        t = .root (following follower followee) := by
  constructor
  · intro h
    obtain ⟨follower, hfollower, h⟩ := Except.bind_eq_ok.mp h
    obtain ⟨followee, hfollowee, h⟩ := Except.bind_eq_ok.mp h
    cases h
    exact ⟨follower, followee, (textArgument_eq_ok i _ follower).mp hfollower,
      (textArgument_eq_ok i _ followee).mp hfollowee, rfl⟩
  · intro hfound
    rcases hfound with ⟨follower, followee, hfollower, hfollowee, rfl⟩
    have hfirst := (textArgument_eq_ok i _ follower).mpr hfollower
    have hsecond := (textArgument_eq_ok i _ followee).mpr hfollowee
    unfold newFollow
    rw [hfirst, Except.ok_bind, hsecond, Except.ok_bind]
    rfl

section Following

variable {s : Store} {follower followee : String}

theorem submit_following (follower followee : String) (s : Store) :
    s.submit (firstOf (recordSelection (.root (following follower followee)))) =
      Eval.runOn
        ((Eval.look fun g => g.selectVertices [.string follower]) >>= fun found =>
          Step.onValues .write (Step.joining follows (.string followee)) found >>= fun edges =>
            Step.onValues .write [.endpoint .incoming] edges >>= fun ends =>
              Step.onValues .write (Step.selection ++ [.limit 1]) ends) s := by
  have hends : Step.onValues .write ([.endpoint .incoming] ++ (Step.selection ++ [.limit 1])) =
      fun edges => Step.onValues .write [.endpoint .incoming] edges >>= fun ends =>
        Step.onValues .write (Step.selection ++ [.limit 1]) ends :=
    funext fun edges => Step.onValues_append rfl _ edges
  have hrest : Step.onValues .write (Step.joining follows (.string followee) ++
        ([.endpoint .incoming] ++ (Step.selection ++ [.limit 1]))) = fun found =>
      Step.onValues .write (Step.joining follows (.string followee)) found >>= fun edges =>
        Step.onValues .write [.endpoint .incoming] edges >>= fun ends =>
          Step.onValues .write (Step.selection ++ [.limit 1]) ends :=
    funext fun found => by rw [Step.onValues_append rfl, hends]
  rw [firstOf_recordSelection, following, List.cons_append, List.append_assoc,
    Store.submit_root .write rfl rfl rfl, hrest]
  rfl

/-- Where nobody follows, nothing is found and nothing is written. -/
theorem submit_following_nobody (h : Intact s)
    (hfollower : s.graph.recordOf? (.text follower) = none) (followee : String) :
    s.submit (firstOf (recordSelection (.root (following follower followee)))) = (.ok [], s) := by
  have hfound : (Eval.look fun g => g.selectVertices [.string follower]).Yields s [] := by
    refine Eval.Yields.look ?_
    rw [h.selectVertices_string, hfollower]
    rfl
  have hend : (Step.onValues .write [.endpoint .incoming] []).Yields s [] := by
    rw [Step.onValues_singleton rfl]
    exact Eval.Yields.pure []
  have hselect : (Step.onValues .write (Step.selection ++ [.limit 1]) []).Yields s [] :=
    Step.selection_first_yields .write [] (List.forall_mem_nil _)
  rw [submit_following]
  exact hfound.bind (Step.joining_nil.bind (hend.bind hselect))

/-- Without a vertex to follow, the traversal fails before it writes. -/
theorem submit_following_nothing (h : Intact s) {r : VertexRecord}
    (hfollower : s.graph.recordOf? (.text follower) = some r)
    (hfollowee : s.graph.recordOf? (.text followee) = none) :
    s.submit (firstOf (recordSelection (.root (following follower followee)))) =
      (.error .noEndpoint, s) := by
  have hfound : (Eval.look fun g => g.selectVertices [.string follower]).Yields s
      [.vertex r.reference] := by
    refine Eval.Yields.look ?_
    rw [h.selectVertices_string, hfollower]
    rfl
  have htarget : s.graph.selectVertices [.string followee] = .ok [] := by
    rw [h.selectVertices_string, hfollowee]
    rfl
  have hfails := Step.joining_fails follows htarget r.reference
  rw [submit_following]
  exact Eval.Fails.after hfound (hfails.bind _)

/-- Between two vertices an edge is added, and the one it leads to is found. -/
theorem submit_following_joins (h : Intact s) {r q : VertexRecord}
    (hfollower : s.graph.recordOf? (.text follower) = some r)
    (hfollowee : s.graph.recordOf? (.text followee) = some q) :
    ∃ near far, s.graph.vertexIndex.get? (.text follower) = some near ∧
      s.graph.vertexIndex.get? (.text followee) = some far ∧
      s.submit (firstOf (recordSelection (.root (following follower followee)))) =
        (.ok [.map q.record],
          ⟨s.graph.withEdge ⟨s.ids.next.1, follows, .empty, near, far⟩, s.ids.next.2⟩) := by
  obtain ⟨hrid, -, near, hnear, -⟩ := h.wellFormed.recordOf?_eq_some hfollower
  obtain ⟨hqid, hd, far, hfar, hq⟩ := h.wellFormed.recordOf?_eq_some hfollowee
  have hfound : (Eval.look fun g => g.selectVertices [.string follower]).Yields s
      [.vertex r.reference] := by
    refine Eval.Yields.look ?_
    rw [h.selectVertices_string, hfollower]
    rfl
  have htarget : s.graph.selectVertices [.string followee] = .ok [.vertex q.reference] := by
    rw [h.selectVertices_string, hfollowee]
    rfl
  have hsource : s.graph.vertexIndex.get? r.reference.id = some near := by
    rw [VertexRecord.reference, hrid, hnear]
  have hend : s.graph.vertexIndex.get? q.reference.id = some far := by
    rw [VertexRecord.reference, hqid, hfar]
  have hjoin := Step.joining_leads follows htarget hsource hend
  refine ⟨near, far, hnear, hfar, ?_⟩
  let next : Store :=
    ⟨s.graph.withEdge ⟨s.ids.next.1, follows, .empty, near, far⟩, s.ids.next.2⟩
  have hlast : (Step.onValues .write [.endpoint .incoming]
      [.edge ⟨s.ids.next.1, follows, r.reference.id, q.reference.id⟩]).Yields next
      [.vertex q.reference] := by
    have hlook : (Eval.look fun g => g.endpoint .incoming
        (.edge ⟨s.ids.next.1, follows, r.reference.id, q.reference.id⟩)).Yields next
        [.vertex q.reference] :=
      Eval.Yields.look (h.wellFormed.endpoint_withEdge rfl hq)
    rw [Step.onValues_singleton rfl]
    exact hlook.leads.collect_singleton
  have hstored : next.graph.recordOf? q.id = some q := by
    rw [hqid]
    exact hfollowee
  have hselect := Step.selection_first_yields .write [q] (s := next)
    (List.forall_mem_singleton.mpr ⟨hstored, hd⟩)
  rw [submit_following]
  exact hfound.leads.bind (hjoin.bind (hlast.bind hselect).leads)

end Following

/-! ## One event -/

section Event

variable {maxDepth : Nat} {observed : Bool} {event : Json} {i : Invocation} {r : Run Store}

/-- An event whose write finds something is answered with the first thing found. -/
theorem answered_of_resolver (hevent : Invocation.ofEvent event = .ok i) {p : MutationPipeline}
    (hget : (Server.dispatcher maxDepth observed).registry.get? i.key = some p.resolve)
    {t : Traversal} (hbase : p.base i r.world.ids.next.1 = .ok t) {v : Value} {rest : List Value}
    {next : Store}
    (hsubmit : ({ r.world with ids := r.world.ids.next.2 } : Store).submit
      (firstOf (p.selection t)) = (.ok (v :: rest), next)) :
    ((Server.dispatcher maxDepth observed).process event r).1 = .ok v.formatted ∧
      ((Server.dispatcher maxDepth observed).process event r).2.world = next := by
  obtain ⟨start, hstart, houtcome, hworld⟩ := Dispatcher.process_resolved rfl hevent hget r
  have hanswer := MutationPipeline.resolve_answers (p := p) (r := start) hbase
    (by rw [hstart]; exact hsubmit)
  rw [houtcome, hworld, hanswer.1, hanswer.2]
  exact ⟨rfl, rfl⟩

theorem process_creates (maxDepth : Nat) (observed : Bool) (h : Intact r.world)
    (hevent : Invocation.ofEvent event = .ok i) {name : String} {age : Option Int64}
    (hi : Creates i name age) :
    ((Server.dispatcher maxDepth observed).process event r).1 =
        .ok (Value.map (newRecord r.world.ids.next.1 name age).record).formatted ∧
      ((Server.dispatcher maxDepth observed).process event r).2.world =
        ⟨r.world.graph.withVertex (newRecord r.world.ids.next.1 name age),
          r.world.ids.next.2.next.2⟩ ∧
      Intact ((Server.dispatcher maxDepth observed).process event r).2.world := by
  have hget : (Server.dispatcher maxDepth observed).registry.get? i.key =
      some createUser.resolve := by
    rw [hi.key]
    rfl
  have hbase : createUser.base i r.world.ids.next.1 = .ok _ :=
    (newUser_eq_ok i r.world.ids.next.1 _).mpr ⟨name, age, hi.name, hi.age, rfl⟩
  have hne : r.world.ids.next.2.next.1 ≠ r.world.ids.next.1 := by
    intro heq
    have hsame := h.supply.injective (ElementId.text.inj heq)
    exact absurd hsame (Nat.succ_ne_self _)
  have hsubmit := submit_newUser h.draw (h.unused (Nat.le_refl _)) hne name age
  have hsound := h.draw.sound.submit hsubmit
  obtain ⟨houtcome, hworld⟩ := answered_of_resolver hevent hget hbase hsubmit
  rw [houtcome, hworld]
  refine ⟨rfl, rfl, h.step hsound rfl (by simp [IdSource.next]; omega) fun id hc => ?_⟩
  rcases (Graph.contains_withVertex _ _ id).mp hc with rfl | hold
  · have hdrawn : r.world.ids.position < r.world.ids.next.2.next.2.position :=
      Nat.lt_succ_of_lt (Nat.lt_succ_self _)
    exact .inr ⟨_, rfl, .inr ⟨_, hdrawn, rfl⟩⟩
  · exact .inl hold

theorem process_follows (maxDepth : Nat) (observed : Bool) (h : Intact r.world)
    (hevent : Invocation.ofEvent event = .ok i) {follower followee : String}
    (hi : Follows i follower followee) {q q' : VertexRecord}
    (hfollower : r.world.graph.recordOf? (.text follower) = some q')
    (hfollowee : r.world.graph.recordOf? (.text followee) = some q) :
    ∃ edge near far, r.world.graph.vertexIndex.get? (.text follower) = some near ∧
      r.world.graph.vertexIndex.get? (.text followee) = some far ∧
      ((Server.dispatcher maxDepth observed).process event r).1 =
        .ok (Value.map q.record).formatted ∧
      ((Server.dispatcher maxDepth observed).process event r).2.world =
        ⟨r.world.graph.withEdge ⟨edge, follows, .empty, near, far⟩,
          r.world.ids.next.2.next.2⟩ ∧
      Intact ((Server.dispatcher maxDepth observed).process event r).2.world := by
  have hget : (Server.dispatcher maxDepth observed).registry.get? i.key =
      some follow.resolve := by
    rw [hi.key]
    rfl
  have hbase : follow.base i r.world.ids.next.1 = .ok (.root (following follower followee)) :=
    (newFollow_eq_ok i r.world.ids.next.1 _).mpr
      ⟨follower, followee, hi.follower, hi.followee, rfl⟩
  obtain ⟨near, far, hnear, hfar, hsubmit⟩ := submit_following_joins h.draw hfollower hfollowee
  have hsound := h.draw.sound.submit hsubmit
  obtain ⟨houtcome, hworld⟩ := answered_of_resolver hevent hget hbase hsubmit
  rw [houtcome, hworld]
  exact ⟨_, near, far, hnear, hfar, rfl, rfl,
    h.step hsound rfl (by simp [IdSource.next]; omega) fun _ hc => .inl hc⟩

/-- An event fails and takes identifiers from the supply at most. -/
def Refused (maxDepth : Nat) (observed : Bool) (event : Json) (r : Run Store) : Prop :=
  (∃ e, ((Server.dispatcher maxDepth observed).process event r).1 = .error e) ∧
    (((Server.dispatcher maxDepth observed).process event r).2.world = r.world ∨
      ((Server.dispatcher maxDepth observed).process event r).2.world =
        { r.world with ids := r.world.ids.next.2 })

theorem Refused.no_answer (h : Refused maxDepth observed event r) (answer : Json) :
    ((Server.dispatcher maxDepth observed).process event r).1 ≠ .ok answer := by
  obtain ⟨⟨e, he⟩, -⟩ := h
  rw [he]
  intro hdone
  cases hdone

theorem refused_of_resolver (hevent : Invocation.ofEvent event = .ok i)
    {p : MutationPipeline}
    (hget : (Server.dispatcher maxDepth observed).registry.get? i.key = some p.resolve)
    (h : ∀ t, p.base i r.world.ids.next.1 = .ok t →
      (({ r.world with ids := r.world.ids.next.2 } : Store).submit
          (firstOf (p.selection t))).2 = { r.world with ids := r.world.ids.next.2 } ∧
        ∀ v rest, (({ r.world with ids := r.world.ids.next.2 } : Store).submit
          (firstOf (p.selection t))).1 ≠ .ok (v :: rest)) :
    Refused maxDepth observed event r := by
  obtain ⟨start, hstart, houtcome, hworld⟩ := Dispatcher.process_resolved rfl hevent hget r
  obtain ⟨⟨e, he⟩, hsame⟩ := MutationPipeline.resolve_fails (p := p) (r := start)
    (by rw [hstart]; exact h)
  refine ⟨⟨.resolver i.key e, ?_⟩, .inr ?_⟩
  · rw [houtcome, he]
    rfl
  · rw [hworld, hsame, hstart]

/-- Without both ends, or without their identifiers, nothing is followed. -/
theorem follow_refused (h : Intact r.world) (hevent : Invocation.ofEvent event = .ok i)
    (hkey : i.key = ⟨"Mutation", "follow"⟩)
    (hmissing : ∀ follower followee, Follows i follower followee →
      r.world.graph.recordOf? (.text follower) = none ∨
        r.world.graph.recordOf? (.text followee) = none) :
    Refused maxDepth observed event r := by
  have hget : (Server.dispatcher maxDepth observed).registry.get? i.key =
      some follow.resolve := by
    rw [hkey]
    rfl
  refine refused_of_resolver hevent hget fun t ht => ?_
  obtain ⟨follower, followee, hfollower, hfollowee, rfl⟩ :=
    (newFollow_eq_ok i r.world.ids.next.1 t).mp ht
  have hselection : follow.selection = recordSelection := rfl
  rw [hselection]
  cases hfirst : r.world.graph.recordOf? (.text follower) with
  | none =>
      rw [submit_following_nobody h.draw hfirst]
      exact ⟨rfl, fun v rest heq => by cases heq⟩
  | some q =>
      rcases hmissing follower followee ⟨hkey, hfollower, hfollowee⟩ with hnone | hnone
      · rw [hfirst] at hnone
        cases hnone
      · rw [submit_following_nothing h.draw hfirst hnone]
        exact ⟨rfl, fun v rest heq => by cases heq⟩

/-- Without a name and an age that can be read, nobody is created. -/
theorem create_refused (hevent : Invocation.ofEvent event = .ok i)
    (hkey : i.key = ⟨"Mutation", "createUser"⟩) (hmalformed : ∀ name age, ¬ Creates i name age) :
    Refused maxDepth observed event r := by
  have hget : (Server.dispatcher maxDepth observed).registry.get? i.key =
      some createUser.resolve := by
    rw [hkey]
    rfl
  refine refused_of_resolver hevent hget fun t ht => ?_
  obtain ⟨name, age, hname, hage, -⟩ := (newUser_eq_ok i r.world.ids.next.1 t).mp ht
  exact absurd ⟨hkey, hname, hage⟩ (hmalformed name age)

/-- Everything that an event can do to a graph, and what it is answered with then. -/
inductive Effect (event : Json) (g : Graph) : Except DispatchError Json → Graph → Prop where
  | fails (e : DispatchError) : Effect event g (.error e) g
  | reads {i : Invocation} {answer : Json} :
      Invocation.ofEvent event = .ok i → i.typeName ≠ "Mutation" → Effect event g (.ok answer) g
  | creates {i : Invocation} {name : String} {age : Option Int64} {text : String} :
      Invocation.ofEvent event = .ok i → Creates i name age →
        g.vertexIndex.contains (.text text) = false →
        Effect event g (.ok (Value.map (newRecord (.text text) name age).record).formatted)
          (g.withVertex (newRecord (.text text) name age))
  | follows {i : Invocation} {follower followee : String} {q : VertexRecord} {edge : ElementId}
      {near far : Nat} :
      Invocation.ofEvent event = .ok i → Follows i follower followee →
        g.recordOf? (.text followee) = some q →
        g.vertexIndex.get? (.text follower) = some near →
        g.vertexIndex.get? (.text followee) = some far →
        Effect event g (.ok (Value.map q.record).formatted)
          (g.withEdge ⟨edge, Social.follows, .empty, near, far⟩)

theorem Effect.of_error {g next : Graph} {e : DispatchError}
    (h : Effect event g (.error e) next) : next = g := by
  cases h
  rfl

theorem Refused.effect (h : Refused maxDepth observed event r) (hr : Intact r.world) :
    Effect event r.world.graph ((Server.dispatcher maxDepth observed).process event r).1
        ((Server.dispatcher maxDepth observed).process event r).2.world.graph ∧
      Intact ((Server.dispatcher maxDepth observed).process event r).2.world := by
  obtain ⟨⟨e, he⟩, hworld | hworld⟩ := h
  · rw [he, hworld]
    exact ⟨.fails e, hr⟩
  · rw [he, hworld]
    exact ⟨.fails e, hr.draw⟩

/-- An event has one of these effects on an intact store, and leaves it intact. -/
theorem process_effect (maxDepth : Nat) (observed : Bool) (hr : Intact r.world) (event : Json) :
    Effect event r.world.graph ((Server.dispatcher maxDepth observed).process event r).1
        ((Server.dispatcher maxDepth observed).process event r).2.world.graph ∧
      Intact ((Server.dispatcher maxDepth observed).process event r).2.world := by
  by_cases hadmitted : ∃ i resolver, Invocation.ofEvent event = .ok i ∧
      (Server.dispatcher maxDepth observed).registry.get? i.key = some resolver
  · obtain ⟨i, resolver, hevent, hget⟩ := hadmitted
    rcases get?_registry hget with ⟨hkey, -⟩ | ⟨hkey, -⟩ | ⟨hname, hreads⟩
    · by_cases hcreates : ∃ name age, Creates i name age
      · obtain ⟨name, age, hi⟩ := hcreates
        obtain ⟨houtcome, hworld, hintact⟩ := process_creates maxDepth observed hr hevent hi
        rw [houtcome, hworld]
        rw [hworld] at hintact
        exact ⟨.creates hevent hi (hr.unused (Nat.le_refl _)), hintact⟩
      · have hmalformed : ∀ name age, ¬ Creates i name age :=
          fun name age hi => hcreates ⟨name, age, hi⟩
        exact (create_refused hevent hkey hmalformed).effect hr
    · by_cases hboth : ∃ follower followee q q', Follows i follower followee ∧
          r.world.graph.recordOf? (.text follower) = some q' ∧
          r.world.graph.recordOf? (.text followee) = some q
      · obtain ⟨follower, followee, q, q', hi, hfollower, hfollowee⟩ := hboth
        obtain ⟨edge, near, far, hnear, hfar, houtcome, hworld, hintact⟩ :=
          process_follows maxDepth observed hr hevent hi hfollower hfollowee
        rw [houtcome, hworld]
        rw [hworld] at hintact
        exact ⟨.follows hevent hi hfollowee hnear hfar, hintact⟩
      · refine (follow_refused hr hevent hkey fun follower followee hi => ?_).effect hr
        cases hfollower : r.world.graph.recordOf? (.text follower) with
        | none => exact .inl rfl
        | some q' =>
            cases hfollowee : r.world.graph.recordOf? (.text followee) with
            | none => exact .inr rfl
            | some q =>
                exact absurd ⟨follower, followee, q, q', hi, hfollower, hfollowee⟩ hboth
    · obtain ⟨start, hstart, houtcome, hworld⟩ := Dispatcher.process_resolved rfl hevent hget r
      have hsame := hreads i r.world.ids.next.1 start (by rw [hstart]; exact hr.wellFormed)
      rw [hworld, hsame, hstart]
      refine ⟨?_, hr.draw⟩
      cases ((Server.dispatcher maxDepth observed).process event r).1 with
      | error e => exact .fails e
      | ok answer => exact .reads hevent hname
  · have hnone : ∀ i, Invocation.ofEvent event = .ok i →
        (Server.dispatcher maxDepth observed).registry.get? i.key = none := by
      intro i hevent
      cases hget : (Server.dispatcher maxDepth observed).registry.get? i.key with
      | none => rfl
      | some resolver => exact absurd ⟨i, resolver, hevent, hget⟩ hadmitted
    obtain ⟨e, he⟩ := Dispatcher.process_refused hnone r
    rw [he]
    exact ⟨.fails e, hr⟩

end Event

end Social

end GraphGateway
