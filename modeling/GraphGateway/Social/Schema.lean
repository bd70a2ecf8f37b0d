import GraphGateway.Dispatch
import GraphGateway.Filter.Schema
import GraphGateway.Resolver.Pipeline

/-!
# The social graph

The example that the gateway serves: users who follow each other and write
posts, what can be filtered, and the resolvers of its fields.
-/

namespace GraphGateway

namespace Social

def user : String :=
  "User"

def post : String :=
  "Post"

/-- The label of edges from a follower to whom they follow. -/
def follows : String :=
  "FOLLOWS"

/-- The label of edges from an author to a post. -/
def wrote : String :=
  "WROTE"

/-! ## Filters -/

def userFilter : Filter.VertexFilter :=
  ((((((((Filter.VertexFilter.ofLabel user user).scalar "id" .id).scalar "name" .string).scalar
    "age" .int).scalar "active" .boolean).scalar "created_at" .datetime).relationship
    "following" (.along .outgoing) follows user).relationship
    "followers" (.along .incoming) follows user).relationship
    "posts" (.along .outgoing) wrote post

def postFilter : Filter.VertexFilter :=
  ((((Filter.VertexFilter.ofLabel post post).scalar "id" .id).scalar "title" .string).scalar
    "likes" .int).relationship "author" (.along .incoming) wrote user

/-- The filters of the example; they refer to each other only. -/
def filters (maxDepth : Nat) : Filter.Schema :=
  ⟨.ofList [(user, userFilter), (post, postFilter)], maxDepth⟩

/-- The filters of the example are a schema that passes its own checks. -/
theorem build_filters (maxDepth : Nat) :
    Filter.Schema.build [userFilter, postFilter] maxDepth = .ok (filters maxDepth) := by
  rfl

/-! ## Resolvers -/

def textArgument (i : Invocation) (name : String) : Except ResolverError String :=
  (i.argument name Json.readText).mapError .argument

def parentId (i : Invocation) : Except ResolverError String :=
  (i.sourceField "id" Json.readText).mapError .argument

def everything : Base := fun _ _ =>
  .ok (.root [.vertices []])

def userById : Base := fun i _ => do
  let id ← textArgument i "id"
  .ok (.root [.vertices [], .hasLabel [user], .has (.token .id) (.relation .eq (.string id))])

/-- What the parent leads to by one step. -/
def fromParent (steps : List Step) : Base := fun i _ => do
  let id ← parentId i
  .ok (.root (.vertices [.string id] :: steps))

/-- A new user with the given name, active, and with the given age if there is one. -/
def newUser : Base := fun i fresh => do
  let name ← textArgument i "name"
  let age ← (i.argument? "age" Json.readInt64).mapError .argument
  let ageSteps : List Step := age.toList.map fun n => .property (.name "age") (.int n)
  .ok (.root
    ([.addVertex user, .property (.token .id) fresh.toValue,
      .property (.name "name") (.string name), .property (.name "active") (.bool true)] ++
      ageSteps))

/-- A new edge between two users, leading on to the one who is followed. -/
def newFollow : Base := fun i _ => do
  let follower ← textArgument i "follower_id"
  let followee ← textArgument i "followee_id"
  .ok (.root
    [.vertices [.string follower], .addEdge follows,
      .modulator .target (.anonymous [.vertices [.string followee]]), .endpoint .incoming])

def registry (maxDepth : Nat) : Registry :=
  let narrow (name : String) : Narrowing := (filters maxDepth).apply name
  let users : ListPipeline := { base := everything, filter := narrow user }
  let posts : ListPipeline := { base := everything, filter := narrow post }
  let single : SinglePipeline := { base := userById }
  let following : ListPipeline :=
    { base := fromParent [.hop (.along .outgoing) [follows]], filter := narrow user }
  let userPosts : ListPipeline :=
    { base := fromParent [.hop (.along .outgoing) [wrote]]
      filter := narrow post
      paginate := false }
  let followerCount : CalculatedPipeline :=
    { base := fromParent [.hop (.along .incoming) [follows], .count] }
  let createUser : MutationPipeline := { base := newUser }
  let follow : MutationPipeline := { base := newFollow }
  .ofList
    [(⟨"Query", "users"⟩, users.resolve), (⟨"Query", "posts"⟩, posts.resolve),
      (⟨"Query", "user"⟩, single.resolve), (⟨"User", "following"⟩, following.resolve),
      (⟨"User", "posts"⟩, userPosts.resolve),
      (⟨"User", "follower_count"⟩, followerCount.resolve),
      (⟨"Mutation", "createUser"⟩, createUser.resolve),
      (⟨"Mutation", "follow"⟩, follow.resolve)]

end Social

end GraphGateway
