import GraphGateway.Settings
import GraphGateway.Settings.Path
import GraphGateway.Toml

/-!
# Sources of settings

Settings are gathered from a configuration file and the environment, of which the
last one that holds a setting counts. What they hold together is laid over the
standard values, and three environment variables of an older scheme over that.
Variables are named by the path of the setting, in any letter case, with two
underscores between its parts.
-/

namespace GraphGateway

namespace Settings

inductive LoadError where
  /-- The configuration file is not well formed. -/
  | unreadableFile
  /-- A section or a setting is missing or has no usable value. -/
  | unusable (name : String)
  deriving DecidableEq

/-! ## Layers -/

def toEntry (s : Settings) : Entry :=
  .table (.ofList
    [("graph",
        .table (.ofList
          [("backend", .text s.graph.backend.name), ("protocol", .text s.graph.protocol),
            ("host", .text s.graph.host), ("port", .whole s.graph.port.toNat),
            ("path", .text s.graph.path), ("timeout_ms", .whole s.graph.timeoutMs.toNat)])),
      ("filter", .table (.ofList [("max_depth", .whole s.maxFilterDepth.toNat)])),
      ("dispatch", .table (.ofList [("log_payloads", .flag s.logPayloads)])),
      ("server",
        .table (.ofList
          [("host", .text s.server.host), ("port", .whole s.server.port.toNat)]))])

/-- A layer of named entries, each laid over what came before. -/
def layer (base : Entry) (bindings : List (String × Entry)) : Entry :=
  bindings.foldl (fun e (key, value) => place value (Path.ofKey key) e) base

/-- Pairs of underscores as points. -/
def withPoints : List Char → List Char
  | '_' :: '_' :: rest => '.' :: withPoints rest
  | c :: rest => c :: withPoints rest
  | [] => []

def variableLead : List Char :=
  "graphsync__".toList

def ofVariable? (name value : String) : Option (String × Entry) :=
  (Text.strip? variableLead (Entry.folded name).toList).map fun rest =>
    (String.ofList (withPoints rest), .text value)

/-- The settings that variables of the older scheme hold; a port that is none is passed over. -/
def olderSettings (environment : OrderedMap String String) : List (String × Entry) :=
  let text (name path : String) : List (String × Entry) :=
    (environment.get? name).toList.map fun value => (path, .text value)
  let port :=
    ((environment.get? "NEPTUNE_CLUSTER_PORT").bind fun value => Entry.digits? value.toList).filter
      fun n => decide (n < UInt16.size)
  text "CONNECTION_METHOD" "graph.protocol" ++ text "NEPTUNE_CLUSTER_ENDPOINT" "graph.host" ++
    port.toList.map fun n => ("graph.port", .whole n)

/-! ## Reading -/

def member {α : Type} (section? : Option Entry) (position : Nat) (name : String)
    (convert : Entry → Option α) : Except LoadError α :=
  match (section?.bind (Entry.member? position name)).bind convert with
  | some a => .ok a
  | none => .error (.unusable name)

def port? (e : Entry) : Option UInt16 :=
  (e.asNat?.filter fun n => decide (n < UInt16.size)).map UInt16.ofNat

def word? (e : Entry) : Option UInt64 :=
  (e.asNat?.filter fun n => decide (n < UInt64.size)).map UInt64.ofNat

def ofEntry (e : Entry) : Except LoadError Settings := do
  let sections := e.entries
  let graph := sections.get? "graph"
  let server := sections.get? "server"
  let backend ← member graph 0 "backend" fun e => e.asChoice?.bind Backend.ofName?
  let protocol ← member graph 1 "protocol" Entry.asText?
  let host ← member graph 2 "host" Entry.asText?
  let port ← member graph 3 "port" port?
  let path ← member graph 4 "path" Entry.asText?
  let timeoutMs ← member graph 5 "timeout_ms" word?
  let maxFilterDepth ← member (sections.get? "filter") 0 "max_depth" word?
  let logPayloads ← member (sections.get? "dispatch") 0 "log_payloads" Entry.asBool?
  let serverHost ← member server 0 "host" Entry.asText?
  let serverPort ← member server 1 "port" port?
  .ok
    { graph := { backend, protocol, host, port, path, timeoutMs }
      maxFilterDepth := maxFilterDepth
      logPayloads := logPayloads
      server := { host := serverHost, port := serverPort } }

/-- The table of a configuration file, empty without a file. -/
def fileTable (file : Option String) : Except LoadError Table :=
  match file with
  | none => .ok .empty
  | some text =>
      match Toml.read? text with
      | some table => .ok table
      | none => .error .unreadableFile

/-- The settings of a configuration file, if there is one, and an environment. What file and
environment hold is gathered by itself first, so that a section which the file spoils and the
environment mends still has its standard values underneath. -/
def load (file : Option String) (environment : OrderedMap String String) :
    Except LoadError Settings := do
  let table ← fileTable file
  let inEnvironment := environment.entries.filterMap fun (name, value) => ofVariable? name value
  let gathered := layer (.table .empty) (table.entries ++ inEnvironment)
  ofEntry (layer (toEntry {}) (gathered.entries.entries ++ olderSettings environment))

end Settings

end GraphGateway
