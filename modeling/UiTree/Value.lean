import UiTree.Decimal
import UiTree.Dict
import UiTree.Error
import UiTree.Options
set_option autoImplicit false

/-!
The values that configs, listeners and methods carry. Callables are data here: a closure says which
piece of code it runs and in which frame, and its serial number tells it from every other closure.
A config is what a create call says about an element besides its children. One key is not for the
element: under `ref` stands the wish to have the result put into a map.
-/

namespace UiTree

abbrev RefsId := Nat

abbrev FrameId := Nat

structure Closure where
  serial : Nat
  code : String
  frame : Option FrameId
  deriving DecidableEq, Repr, Inhabited

/-- A wish to have an element put into a map of refs under a key. -/
structure RefRequest where
  key : String
  refs : RefsId
  deriving DecidableEq, Repr

inductive Value where
  | null
  | bool (b : Bool)
  | int (n : Int64)
  | float (x : Decimal.Binary64)
  | str (s : String)
  | list (items : List Value)
  | node (id : NodeId)
  | element (e : Element)
  | handler (c : Closure)
  | method (c : Closure)
  | ref (r : RefRequest)
  deriving Inhabited

mutual

def Value.text : Value → String
  | .null => "null"
  | .bool b => if b then "true" else "false"
  | .int n => toString n.toInt
  | .float x => x.text .plain
  | .str s => s
  | .list items => commaText items
  | .node _ => "[node]"
  | .element (.node _) => "[node]"
  | .element (.fragment _ _) => "[fragment]"
  | .handler _ => "[handler]"
  | .method _ => "[method]"
  | .ref _ => "[ref]"

def commaText : List Value → String
  | [] => ""
  | [v] => v.text
  | v :: rest => v.text ++ "," ++ commaText rest

end

mutual

def Value.nodes : Value → List NodeId
  | .node n => [n]
  | .element e => e.nodes
  | .list items => nodesOf items
  | _ => []

def nodesOf : List Value → List NodeId
  | [] => []
  | v :: rest => v.nodes ++ nodesOf rest

end

namespace Value

def str? : Value → Option String
  | .str s => some s
  | _ => none

def int? : Value → Option Int64
  | .int n => some n
  | _ => none

/-- Integers count as numbers, rounded to the nearest. -/
def float? : Value → Option Decimal.Binary64
  | .int n => some (.ofInt n.toInt)
  | .float x => some x
  | _ => none

def bool? : Value → Option Bool
  | .bool b => some b
  | _ => none

def list? : Value → Option (List Value)
  | .list items => some items
  | _ => none

def node? : Value → Option NodeId
  | .node n => some n
  | .element (.node n) => some n
  | _ => none

def element? : Value → Option Element
  | .node n => some (.node n)
  | .element e => some e
  | _ => none

def method? : Value → Option Closure
  | .method c => some c
  | _ => none

def handler? : Value → Option Closure
  | .handler c => some c
  | _ => none

def isCallable (v : Value) : Bool := v.handler?.isSome || v.method?.isSome

def isNull : Value → Bool
  | .null => true
  | _ => false

end Value

/-- What answers a notice: a callback that is given the parent, or a method that gets it as its one
argument. -/
inductive Answer where
  | callback (c : Closure)
  | method (c : Closure)
  deriving DecidableEq, Repr

/-- One registration to be told of a parent. The serial number tells it from every other
registration. -/
structure Notice where
  serial : Nat
  answer : Answer
  deriving DecidableEq, Repr

/-- The listeners of a node, those of one event in the order they were added. A listener may be any
value. -/
structure Listeners where
  table : Dict (List Value)
  deriving Inhabited

namespace Listeners

def empty : Listeners := ⟨.empty⟩

def get (l : Listeners) (event : String) : List Value := (l.table.get? event).getD []

def add (l : Listeners) (event : String) (listener : Value) : Listeners :=
  ⟨l.table.set event (l.get event ++ [listener])⟩

def count (l : Listeners) (event : String) : Nat := (l.get event).length

def values (l : Listeners) : List Value := l.table.entries.flatMap (·.2)

def total (l : Listeners) : Nat := l.values.length

end Listeners

abbrev Config := Dict Value

namespace Config

def refKey : String := "ref"

def on (c : Config) (event : String) (handler : Closure) : Config :=
  c.set (EventSet.keyForEvent event) (.handler handler)

def withRef (c : Config) (r : RefRequest) : Config := c.set refKey (.ref r)

def refRequest (c : Config) : Except Error (Option RefRequest) :=
  match c.get? refKey with
  | none => .ok none
  | some (.ref r) => .ok (some r)
  | some v => .error (.malformedRef (.notARequest v.text))

end Config

end UiTree
