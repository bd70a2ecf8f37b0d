import GraphGateway.Social.Schema

/-!
# Sample data

The graph that the example starts from: four users, two posts, who follows whom
and who wrote what.
-/

namespace GraphGateway

namespace Social

structure SampleUser where
  id : String
  name : String
  age : Int64
  active : Bool

structure SamplePost where
  id : String
  title : String
  likes : Int64

def sampleUsers : List SampleUser :=
  [⟨"u1", "Ann", 31, true⟩, ⟨"u2", "Bob", 17, true⟩, ⟨"u3", "Cid", 45, false⟩,
    ⟨"u4", "Ada", 22, true⟩]

def samplePosts : List SamplePost :=
  [⟨"p1", "Rust tips", 12⟩, ⟨"p2", "Graph walks", 3⟩]

def sampleEdges : List (String × String × String) :=
  [(follows, "u1", "u2"), (follows, "u3", "u1"), (follows, "u4", "u3"), (follows, "u2", "u1"),
    (wrote, "u3", "p1"), (wrote, "u1", "p2")]

def SampleUser.properties (u : SampleUser) : List (String × Value) :=
  [("name", .string u.name), ("age", .int u.age), ("active", .bool u.active)]

def SamplePost.properties (p : SamplePost) : List (String × Value) :=
  [("title", .string p.title), ("likes", .int p.likes)]

def addVertices : List (String × String × List (String × Value)) → Graph →
    Except EvaluationError Graph
  | [], g => .ok g
  | (id, label, properties) :: rest, g => do
      let (_, next) ← g.addVertex (.text id) label properties
      addVertices rest next

/-- Add edges with fresh identifiers one after another. -/
def addEdges : List (String × String × String) → Store → Except EvaluationError Store
  | [], s => .ok s
  | (label, source, target) :: rest, s =>
      match s.addEdge label (.text source) (.text target) with
      | (.ok _, next) => addEdges rest next
      | (.error e, _) => .error e

/-- The sample as a store, with identifiers for its edges taken from a supply. -/
def seed (ids : IdSource) : Except EvaluationError Store := do
  let vertices :=
    (sampleUsers.map fun u => (u.id, user, u.properties)) ++
      samplePosts.map fun p => (p.id, post, p.properties)
  let graph ← addVertices vertices .empty
  addEdges sampleEdges ⟨graph, ids⟩

end Social

end GraphGateway
