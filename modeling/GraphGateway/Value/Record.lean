import GraphGateway.Value.Json

/-!
# Records

The JSON objects that a gateway answers with. The system entries of a record
become the fields `id` and `__typename`; only the keys of the record itself are
renamed, those of maps inside it stay. Entries that come to share a name are
merged: the last value counts, at the place of the first.
-/

namespace GraphGateway

def typenameField : String :=
  "__typename"

/-- The field under which a key of a record appears. -/
def Key.fieldName : Key → String
  | .token .label => typenameField
  | .token t => t.name
  | .name s => s

def Record.toObject (r : Record) : Fields :=
  .ofList (r.entries.map fun (k, v) => (k.fieldName, v.toJson))

/-- The JSON form of one result; maps are records. -/
def Value.formatted : Value → Json
  | .map entries => .object (Record.toObject entries)
  | other => other.toJson

end GraphGateway
