import GraphGateway.Server
import GraphGateway.Proofs.Json
import GraphGateway.Proofs.Resolver.Reading
import GraphGateway.Proofs.Evaluation.Writing

/-!
# Requests to the social graph

What the resolvers of the example read from an invocation, which of them only
read the graph, and the traversals that the two others submit.
-/

namespace GraphGateway

namespace Social

variable {i : Invocation} {fresh : ElementId}

/-! ## Arguments -/

theorem textArgument_eq_ok (i : Invocation) (name s : String) :
    textArgument i name = .ok s ↔ i.arguments.get? name = some (.string s) := by
  unfold textArgument Invocation.argument
  rw [Except.mapError_eq_ok]
  cases h : i.arguments.get? name with
  | none => simp
  | some value =>
      cases value <;> simp [Invocation.readNamed, Json.readText, Except.mapError_eq_ok]

theorem parentId_eq_ok (i : Invocation) (s : String) :
    parentId i = .ok s ↔ (i.source.bind fun fields => fields.get? "id") = some (.string s) := by
  unfold parentId Invocation.sourceField
  rw [Except.mapError_eq_ok]
  cases h : i.source.bind fun fields => fields.get? "id" with
  | none => simp
  | some value =>
      cases value <;> simp [Invocation.readNamed, Json.readText, Except.mapError_eq_ok]

/-- The age that arguments give: none when it is absent or `null`. -/
def GivesAge (arguments : Fields) : Option Int64 → Prop
  | none => arguments.get? "age" = none ∨ arguments.get? "age" = some .null
  | some n => arguments.get? "age" = some (.ofInt64 n)

theorem age_eq_ok (i : Invocation) (age : Option Int64) :
    (i.argument? "age" Json.readInt64).mapError ResolverError.argument = .ok age ↔
      GivesAge i.arguments age := by
  rw [Except.mapError_eq_ok]
  unfold Invocation.argument?
  cases h : i.arguments.get? "age" with
  | none => cases age <;> simp [GivesAge, h]
  | some value =>
      have hread : ∀ v : Json, ((Invocation.readNamed "age" Json.readInt64 v).map some = .ok age ↔
          ∃ n, age = some n ∧ v = .ofInt64 n) := by
        intro v
        rw [Except.map_eq_ok]
        simp only [Invocation.readNamed, Except.mapError_eq_ok, Json.readInt64_eq_ok]
        constructor
        · intro hfound
          rcases hfound with ⟨n, hn, rfl⟩
          exact ⟨n, rfl, hn⟩
        · intro hfound
          rcases hfound with ⟨n, rfl, hn⟩
          exact ⟨n, hn, rfl⟩
      cases value with
      | null => cases age <;> simp [GivesAge, h, Json.ofInt64]
      | _ => cases age <;> simp [GivesAge, h, hread]

/-! ## Resolvers -/

def createUser : MutationPipeline :=
  { base := newUser }

def follow : MutationPipeline :=
  { base := newFollow }

def singleUser : SinglePipeline :=
  { base := userById }

def followerCount : CalculatedPipeline :=
  { base := fromParent [.hop (.along .incoming) [follows], .count] }

theorem everything_reads : Base.Reads everything := by
  intro i fresh t h
  cases h
  rfl

theorem userById_reads : Base.Reads userById := by
  intro i fresh t h
  obtain ⟨id, -, h⟩ := Except.bind_eq_ok.mp h
  cases h
  rfl

theorem fromParent_reads {steps : List Step} (hsteps : Step.anyMutation steps = false) :
    Base.Reads (fromParent steps) := by
  intro i fresh t h
  obtain ⟨id, -, h⟩ := Except.bind_eq_ok.mp h
  cases h
  exact hsteps

/-- Two resolvers write; all others only read. -/
theorem get?_registry {maxDepth : Nat} {key : ResolverKey} {resolver : Resolver}
    (h : (registry maxDepth).get? key = some resolver) :
    (key = ⟨"Mutation", "createUser"⟩ ∧ resolver = createUser.resolve) ∨
      (key = ⟨"Mutation", "follow"⟩ ∧ resolver = follow.resolve) ∨
      ((key.typeName ≠ "Mutation") ∧ Resolver.Reads resolver) := by
  have hlist : ∀ (base : Base) (name : String) (paginate : Bool), Base.Reads base →
      Resolver.Reads
        ({ base, filter := (filters maxDepth).apply name, paginate } : ListPipeline).resolve :=
    fun base name paginate hbase =>
      ListPipeline.resolve_reads _ hbase ((filters maxDepth).apply_reads name)
        isMutating_recordSelection
  have hsingle : Resolver.Reads singleUser.resolve :=
    SinglePipeline.resolve_reads _ userById_reads (fun narrow hf => by cases hf)
      isMutating_recordSelection
  have hcount : Resolver.Reads followerCount.resolve :=
    CalculatedPipeline.resolve_reads _ (fromParent_reads rfl)
  have hentries : (registry maxDepth).entries =
      [(⟨"Query", "users"⟩,
          ({ base := everything, filter := (filters maxDepth).apply user } :
            ListPipeline).resolve),
        (⟨"Query", "posts"⟩,
          ({ base := everything, filter := (filters maxDepth).apply post } :
            ListPipeline).resolve),
        (⟨"Query", "user"⟩, singleUser.resolve),
        (⟨"User", "following"⟩,
          ({ base := fromParent [.hop (.along .outgoing) [follows]],
             filter := (filters maxDepth).apply user } : ListPipeline).resolve),
        (⟨"User", "posts"⟩,
          ({ base := fromParent [.hop (.along .outgoing) [wrote]],
             filter := (filters maxDepth).apply post, paginate := false } :
            ListPipeline).resolve),
        (⟨"User", "follower_count"⟩, followerCount.resolve),
        (⟨"Mutation", "createUser"⟩, createUser.resolve),
        (⟨"Mutation", "follow"⟩, follow.resolve)] := rfl
  have hmem : (key, resolver) ∈ (registry maxDepth).entries :=
    ((OrderedMap.Distinct.ofList _).get?_eq_some_iff key resolver).mp h
  rw [hentries] at hmem
  simp only [List.mem_cons, List.not_mem_nil, or_false, Prod.mk.injEq] at hmem
  rcases hmem with ⟨rfl, rfl⟩ | ⟨rfl, rfl⟩ | ⟨rfl, rfl⟩ | ⟨rfl, rfl⟩ | ⟨rfl, rfl⟩ | ⟨rfl, rfl⟩ |
    ⟨rfl, rfl⟩ | ⟨rfl, rfl⟩
  · exact .inr (.inr ⟨by decide, hlist _ _ _ everything_reads⟩)
  · exact .inr (.inr ⟨by decide, hlist _ _ _ everything_reads⟩)
  · exact .inr (.inr ⟨by decide, hsingle⟩)
  · exact .inr (.inr ⟨by decide, hlist _ _ _ (fromParent_reads rfl)⟩)
  · exact .inr (.inr ⟨by decide, hlist _ _ _ (fromParent_reads rfl)⟩)
  · exact .inr (.inr ⟨by decide, hcount⟩)
  · exact .inl ⟨rfl, rfl⟩
  · exact .inr (.inl ⟨rfl, rfl⟩)

end Social

end GraphGateway
