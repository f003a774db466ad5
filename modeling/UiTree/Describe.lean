import UiTree.Scene
import UiTree.World
set_option autoImplicit false

/-!
Descriptions of values, elements and shared tables, in which every part shows its form.
-/

namespace UiTree

open Text (quoted bracketed)

def fieldsText (name : String) (fields : List (String × String)) : String :=
  name ++ " \x7b " ++ ", ".intercalate (fields.map fun f => f.1 ++ ": " ++ f.2) ++ " \x7d"

def boolText (b : Bool) : String := if b then "true" else "false"

def Kind.describe : Kind → String
  | .element tag => "Element(" ++ quoted tag ++ ")"
  | .text content => "Text(" ++ quoted content ++ ")"

def NodeData.describe (d : NodeData) (n : NodeId) : String :=
  fieldsText "Node" [
    ("id", n.text),
    ("kind", d.kind.describe),
    ("attributes",
    bracketed (d.attributes.entries.map fun a => "(" ++ quoted a.1 ++ ", " ++ quoted a.2 ++ ")")),
    ("children", quoted ("[" ++ toString d.children.length ++ " nodes]")),
    ("methods", quoted ("[" ++ toString d.methods.size ++ " methods]"))]

def describeRefs (refs : Dict Element) : String :=
  fieldsText "Refs" [("keys", bracketed (refs.sortedKeys.map quoted))]

def Sink.describe (s : Sink) : String :=
  fieldsText "MethodSink" [
    ("methods", bracketed (s.methods.keys.map quoted)),
    ("got_parent", boolText s.notice.isSome)]

def Component.describe (c : Component) : String :=
  "Component \x7b name: " ++
    (match c.name with | some n => "Some(" ++ quoted n ++ ")" | none => "None") ++ ", .. \x7d"

namespace Scene

def describeNode (s : Scene) (n : NodeId) : String := (s.node n).describe n

mutual

def describeElement (s : Scene) : Element → String
  | .node n => "Node(" ++ s.describeNode n ++ ")"
  | .fragment slot items =>
    "Fragment(" ++ fieldsText "Fragment" [
      ("items", bracketed (s.describeElements items)),
      ("slot", "NotifySlot([" ++ toString (s.slot slot).length ++ " pending])")] ++ ")"

def describeElements (s : Scene) : List Element → List String
  | [] => []
  | e :: rest => s.describeElement e :: s.describeElements rest

end

mutual

def describe (s : Scene) : Value → String
  | .null => "Null"
  | .bool b => "Bool(" ++ boolText b ++ ")"
  | .int n => "Int(" ++ toString n.toInt ++ ")"
  | .float x => "Float(" ++ x.text .described ++ ")"
  | .str t => "Str(" ++ quoted t ++ ")"
  | .list items => "List(" ++ bracketed (s.describeAll items) ++ ")"
  | .node n => "Node(" ++ s.describeNode n ++ ")"
  | .element e => "Element(" ++ s.describeElement e ++ ")"
  | .handler _ => "Handler(Callback)"
  | .method _ => "Method(Callback)"
  | .ref r =>
    "Ref(" ++ fieldsText "RefRequest" [("key", quoted r.key),
      ("sink", describeRefs (s.refMap r.refs))] ++ ")"

def describeAll (s : Scene) : List Value → List String
  | [] => []
  | v :: rest => s.describe v :: s.describeAll rest

end

def describeDocument (s : Scene) (d : Document) : String :=
  fieldsText "Document" [("body", s.describeNode d.body)]

end Scene

end UiTree
