import GraphGateway.Filter.Schema
import GraphGateway.Settings.Entry

/-!
# Settings

What can be configured: where the graph is, how deep filters may nest, what an
observer is shown, and where the server listens. Every setting has a standard
value.
-/

namespace GraphGateway

inductive Backend where
  | remote
  | memory
  deriving DecidableEq

def Backend.name : Backend → String
  | remote => "remote"
  | memory => "memory"

/-- The backend of a name in any letter case. -/
def Backend.ofName? (s : String) : Option Backend :=
  [remote, memory].find? fun b => b.name == Entry.folded s

structure GraphSettings where
  backend : Backend := .remote
  protocol : String := "https"
  host : String := "localhost"
  port : UInt16 := 8182
  path : String := "/gremlin"
  timeoutMs : UInt64 := 30000

structure ServerSettings where
  host : String := "127.0.0.1"
  port : UInt16 := 9000

structure Settings where
  graph : GraphSettings := {}
  maxFilterDepth : UInt64 := UInt64.ofNat Filter.Schema.standardDepth
  logPayloads : Bool := false
  server : ServerSettings := {}

namespace GraphSettings

def rootedPath (g : GraphSettings) : String :=
  if g.path.toList.head? = some '/' then g.path else "/" ++ g.path

def endpoint (g : GraphSettings) : String :=
  g.protocol ++ "://" ++ g.host ++ ":" ++ Text.naturalText g.port.toNat ++ g.rootedPath

end GraphSettings

namespace Settings

def isInMemory (s : Settings) : Bool :=
  s.graph.backend == .memory

def toJson (s : Settings) : Json :=
  .ofFields
    [("graph",
        .ofFields
          [("backend", .string s.graph.backend.name), ("protocol", .string s.graph.protocol),
            ("host", .string s.graph.host), ("port", .int s.graph.port.toNat),
            ("path", .string s.graph.path), ("timeout_ms", .int s.graph.timeoutMs.toNat)]),
      ("filter", .ofFields [("max_depth", .int s.maxFilterDepth.toNat)]),
      ("dispatch", .ofFields [("log_payloads", .bool s.logPayloads)]),
      ("server",
        .ofFields [("host", .string s.server.host), ("port", .int s.server.port.toNat)])]

end Settings

end GraphGateway
