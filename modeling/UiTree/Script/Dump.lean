import UiTree.Describe
import UiTree.Scene
import UiTree.Script.Op
import UiTree.World
set_option autoImplicit false

/-!
Reports on values, elements, nodes, events and failures, as a script's answers show them.
-/

namespace UiTree.Script

inductive Failure where
  | error (e : Error)
  | misuse
  deriving DecidableEq, Repr

def errorKind : Error → String
  | .rootNotFound _ => "RootNotFound"
  | .methodsOnFragment _ _ => "InvalidMethodAttachment"
  | .malformedRef _ => "MalformedRef"
  | .hierarchy _ => "Hierarchy"
  | .options _ => "Options"
  | .component _ => "Component"

def Failure.fields : Failure → List (String × Report)
  | .misuse => [("error", .text "Script")]
  | .error (.options refusal) => [("error", .text "Options"), ("category", .text refusal.category)]
  | .error e => [("error", .text (errorKind e)), ("message", .text e.message)]

def idReport (n : NodeId) : Report := .number n.number

def idsReport (ns : List NodeId) : Report := .list (ns.map idReport)

def natReport (n : Nat) : Report := .number n

def textsReport (ts : List String) : Report := .list (ts.map .text)

def optionReport {α : Type} (f : α → Report) : Option α → Report
  | some a => f a
  | none => .null

mutual

/-- A node by its number; a fragment by its items and whether notices wait in its slot. -/
def elementReport (s : Scene) : Element → Report
  | .node n => idReport n
  | .fragment slot items =>
    .record [("items", .list (elementReports s items)), ("gp", .bool !(s.slot slot).isEmpty)]

def elementReports (s : Scene) : List Element → List Report
  | [] => []
  | e :: rest => elementReport s e :: elementReports s rest

end

mutual

def valueReport (s : Scene) : Value → Report
  | .null => .null
  | .bool b => .bool b
  | .int n => .number n.toInt
  | .float x => .record [("float", .text (x.text .plain))]
  | .str t => .text t
  | .list items => .list (valueReports s items)
  | .node n => .record [("node", idReport n)]
  | .element e => .record [("element", elementReport s e)]
  | .handler _ => .record [("callable", .text "handler")]
  | .method _ => .record [("callable", .text "method")]
  | .ref r => .record [("ref", .text r.key), ("keys", textsReport (s.refMap r.refs).sortedKeys)]

def valueReports (s : Scene) : List Value → List Report
  | [] => []
  | v :: rest => valueReport s v :: valueReports s rest

end

def entriesReport (s : Scene) (c : Config) : Report :=
  .list (c.entries.map fun e => .list [.text e.1, valueReport s e.2])

def attributesReport (d : NodeData) : Report :=
  .list (d.attributes.entries.map fun a => .list [.text a.1, .text a.2])

def eventFields (s : Scene) (e : Event) : List (String × Report) :=
  [("kind", .text e.kind), ("target", idReport e.target), ("current", idReport e.current),
    ("stopped", .bool (s.stopped e))]

def eventReport (s : Scene) (e : Event) : Report := .record (eventFields s e)

def nodeReportFrom (t : Tree) : Nat → NodeId → Report
  | 0, _ => .null
  | fuel + 1, n =>
    let d := t.get n
    .record [
      ("id", idReport n),
      (match d.kind with
        | .element tag => ("tag", .text tag)
        | .text content => ("text", .text content)),
      ("attrs", attributesReport d),
      ("methods", textsReport d.methods.sortedKeys),
      ("listeners", natReport d.listeners.total),
      ("gp", .bool !d.pending.isEmpty),
      ("children", .list (d.children.map (nodeReportFrom t fuel)))]

def nodeReport (t : Tree) (n : NodeId) : Report := nodeReportFrom t t.size n

def entryReport : Entry → Report
  | .message level text => .record [("log", .text level.label), ("msg", .text text)]
  | .note report => report

def bitsText (x : Decimal.Binary64) : String :=
  let hex := String.ofList (Nat.toDigits 16 x.bits.toNat)
  "".pushn '0' (16 - hex.length) ++ hex

def inspection (v : Value) : Report :=
  .record [
    ("display", .text v.text),
    ("str", optionReport .text v.str?),
    ("int", optionReport (fun n => .number n.toInt) v.int?),
    ("f64", optionReport (fun x => .text (if x.isNaN then "nan" else bitsText x)) v.float?),
    ("bool", optionReport .bool v.bool?),
    ("list", optionReport (fun l => natReport l.length) v.list?),
    ("node", optionReport idReport v.node?),
    ("method", .bool v.method?.isSome),
    ("handler", .bool v.handler?.isSome),
    ("callable", .bool v.isCallable),
    ("null", .bool v.isNull)]

def elementInfo (s : Scene) (e : Element) : Report :=
  let base := [
    ("element", elementReport s e),
    ("is_fragment", .bool e.isFragment),
    ("nodes", idsReport e.nodes),
    ("as_node", optionReport idReport e.node?),
    ("into_node", optionReport idReport e.node?)]
  .record (match e.fragment? with
    | some f => base ++ [
        ("len", natReport f.items.length),
        ("is_empty", .bool f.items.isEmpty),
        ("fragment_nodes", idsReport f.nodes)]
    | none => base)

end UiTree.Script
