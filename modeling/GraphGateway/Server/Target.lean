/-!
# Request targets

The target of a request is a path, or an absolute address with a scheme and a
host before the path; a query and a fragment may follow. An address without a
path stands for the root. A target of another form has no path at all.
-/

namespace GraphGateway

namespace Target

def isSchemeChar (c : Char) : Bool :=
  c.isAlphanum || c == '+' || c == '-' || c == '.' || c == '~'

def endsHost (c : Char) : Bool :=
  c == '/' || c == '?' || c == '#'

def beforeQuery (cs : List Char) : String :=
  String.ofList (cs.takeWhile fun c => c != '?' && c != '#')

def afterScheme? (cs : List Char) : Option (List Char) :=
  match cs.dropWhile isSchemeChar with
  | ':' :: '/' :: '/' :: rest => some rest
  | _ => none

def path? (target : String) : Option String :=
  let cs := target.toList
  match cs with
  | '/' :: _ => some (beforeQuery cs)
  | _ =>
      (afterScheme? cs).map fun rest =>
        let path := beforeQuery (rest.dropWhile fun c => !endsHost c)
        if path.isEmpty then "/" else path

end Target

end GraphGateway
