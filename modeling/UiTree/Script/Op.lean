import UiTree.Error
import UiTree.Journal
set_option autoImplicit false

/-!
Expressions and operations of scripts. Expressions come in sorts: values, elements, lists of nodes
and configs, which contain one another. A form that makes no sense is kept as `invalid` and fails
only when it is evaluated.

Operations are grouped by what they act on. Where an operation makes a value, `dest` names the
variable that takes it. An operation may lack a name that it needs; it then fails when it comes to
that name, and what it did before stays.
-/

namespace UiTree.Script

inductive TypeExpr where
  | tag (name : String)
  | component (key : String)
  | invalid
  deriving DecidableEq, Repr

mutual

inductive Expr where
  | null
  | bool (b : Bool)
  | int (n : Int)
  | float (bits : UInt64)
  | str (s : String)
  | list (items : List Expr)
  | var (name : String)
  | handler (callback : String)
  | method (callback : String)
  | ref (key refs : String)
  | arg (index : Nat)
  | parent
  | target
  | current
  | prop (key : String)
  | concat (items : List Expr)
  | pick (list index : Expr)
  | element (shape : Shape)
  | create (spec : Spec)
  | nodes (list : NodeList)
  | refsGet (refs key : String)
  | invalid

inductive Shape where
  | text (s : String)
  | number (n : Int)
  | fragment (children : List Child)
  | wrap (list : NodeList)
  | value (e : Expr)

inductive Child where
  | one (shape : Shape)
  | each (list : NodeList)

/-- Expressions for lists of nodes. The first three are those of the running component. -/
inductive NodeList where
  | children
  | nonText
  | textOnly
  | list (items : List Expr)
  | value (e : Expr)

inductive Setting where
  | entry (key : String) (value : Expr)
  | on (event : String) (handler : Expr)
  | withRef (key refs : String)
  | invalid

inductive ConfigExpr where
  | settings (list : List Setting)
  | saved (name : String)
  | invalid

inductive Spec where
  | mk (type : TypeExpr) (config : ConfigExpr) (children : List Child) (engine : Option String)

end

instance : Inhabited Expr := ⟨.invalid⟩

instance : Inhabited Shape := ⟨.value .invalid⟩

instance : Inhabited Child := ⟨.one default⟩

instance : Inhabited NodeList := ⟨.value .invalid⟩

instance : Inhabited Setting := ⟨.invalid⟩

instance : Inhabited ConfigExpr := ⟨.invalid⟩

instance : Inhabited TypeExpr := ⟨.invalid⟩

instance : Inhabited Spec := ⟨.mk .invalid .invalid [] none⟩

abbrev Dest := Option String

abbrev Name := Option String

inductive NodeOp where
  | kind
  | tag
  | isText
  | setAttr (name : Name) (value : Expr)
  | attr (name : Name)
  | removeAttr (name : Name)
  | hasAttr (name : Name)
  | attrs
  | listen (event : Name) (value : Expr)
  | listenerCount (event : Name)
  | totalListeners
  | dispatch (event : Name) (dest : Dest)
  | setMethod (name : Name) (method : Expr)
  | getMethod (name : Name) (dest : Dest)
  | callMethod (name : Name) (args : List Expr) (dest : Dest)
  | methodNames
  | hasGotParent
  | parent (dest : Dest)
  | children (dest : Dest)
  | childCount
  | contains (other : Expr)
  | append (child : Expr)
  | remove
  | textContent
  | setTextContent (text : Expr)
  | html
  | findById (id : Name) (dest : Dest)
  | nodeEq (other : Expr)
  | dump

inductive ValueOp where
  | assign (value : Expr) (dest : Dest)
  | drop (name : Name)
  | add (name : Name) (amount : Expr)
  | inspect (value : Expr)
  | describe (value : Expr)
  | describeElement (shape : Shape)
  | sameCallable (a b : Expr)
  | call (method : Expr) (args : List Expr) (dest : Dest)

inductive ElementOp where
  | newElement (tag : Name) (dest : Dest)
  | newText (text : Name) (dest : Dest)
  | make (shape : Shape) (dest : Dest)
  | push (name : Name) (item : Shape)
  | info (shape : Shape)
  | same (a b : Shape)
  | flatten (items : List Child)
  | fragments (items : List Child)
  | classify (nodes : NodeList)

inductive ConfigOp where
  | save (config : ConfigExpr) (dest : Name)
  | saveList (pairs : List (Name × Expr)) (dest : Name)
  | set (config key : Name) (value : Expr)
  | remove (config key : Name)
  | get (config key : Name)
  | info (config : Name)
  | ref (config : Name)

inductive RefsOp where
  | get (refs key : Name) (dest : Dest)
  | node (refs key : Name) (dest : Dest)
  | info (refs : Name) (asked : List String)
  | same (a b : Name)

/-- Without a name, the sink is that of the running component. -/
inductive SinkOp where
  | offer (sink : Option String) (name : Name) (method : Expr)
  | gotParent (sink : Option String) (callback : Name)
  | info (sink : Option String) (asked : List String)

inductive ComponentOp where
  | prop (key : Name)
  | info (component : Name)

/-- Without a name, the event is that of the running handler. -/
inductive EventOp where
  | make (kind : Name) (node : Expr) (dest : Name)
  | save (event : Option String) (dest : Name)
  | info (event : Option String)
  | stop (event : Option String)
  | callHandler (handler : Expr) (event : Option String)

inductive TableOp where
  | add (table : Name) (value : Expr) (event : Name)
  | clear (table : Name)
  | info (table event : Name)

inductive EngineSource where
  | options (json : String)
  | events (names : List String)
  | usual

inductive EngineOp where
  | make (source : EngineSource) (dest : Name)
  | info (engine : Option String) (keys : List String)
  | create (spec : Spec) (dest : Dest)
  | render (doc : Name) (tree : Shape) (root : Name) (engine : Option String)
  | renderInto (node : Expr) (tree : Shape) (engine : Option String)

inductive DocumentOp where
  | make (doc : Name) (root : Option String) (dest : Dest)
  | element (doc tag : Name) (dest : Dest)
  | text (doc text : Name) (dest : Dest)
  | find (doc id : Name) (dest : Dest)
  | html (doc : Name)
  | describe (doc : Name)

mutual

inductive Op where
  | node (subject : Expr) (op : NodeOp)
  | value (op : ValueOp)
  | element (op : ElementOp)
  | config (op : ConfigOp)
  | refs (op : RefsOp)
  | sink (op : SinkOp)
  | component (op : ComponentOp)
  | event (op : EventOp)
  | table (op : TableOp)
  | engine (op : EngineOp)
  | document (op : DocumentOp)
  | fail (error : Error)
  | branch (condition : Expr) (yes no : List Step)
  | count (times : Expr) (index : Option String) (body : List Step)
  | forEach (nodes : NodeList) (item : Name) (index : Option String) (body : List Step)
  | invalid

/-- An operation with the label under which its result is noted. A caught failure does not end the
body. -/
inductive Step where
  | mk (label : Report) (caught : Bool) (op : Op)

end

instance : Inhabited Op := ⟨.invalid⟩

instance : Inhabited Step := ⟨.mk .null false .invalid⟩

structure ComponentText where
  name : Option String
  body : List Step
  result : Option Shape

structure CallbackText where
  body : List Step
  result : Option Expr

end UiTree.Script
