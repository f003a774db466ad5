import UiTree.Engine
import UiTree.Script.Run
set_option autoImplicit false

/-!
Evaluation of expressions, from left to right. Elements and closures are made anew at every
evaluation.
-/

namespace UiTree.Script

open Run

/-- The item at an index that counts around the list. -/
def pickItem (items : List Value) (index : Int) : Option Value :=
  if items.isEmpty then none else items[(index % items.length).toNat]?

def propsNodes (keep : NodeData → Bool) : Run (List NodeId) := do
  let s ← scene
  return (← frame).props.children.filter fun n => keep (s.node n)

mutual

def evalExpr : Expr → Run Value
  | .null => pure .null
  | .bool b => pure (.bool b)
  | .int n => pure (.int (Int64.ofInt n))
  | .float bits => pure (.float ⟨bits⟩)
  | .str s => pure (.str s)
  | .list items => return .list (← evalExprs items)
  | .var name => do need (← lookup? name)
  | .handler callback => return .handler (← closure callback)
  | .method callback => return .method (← closure callback)
  | .ref key refs => return .ref ⟨key, ← refsNamed refs⟩
  | .arg index => do
    match (← read).role with
    | .method args => return args.getD index .null
    | _ => misuse
  | .parent => do
    match (← read).role with
    | .gotParent parent => return .node parent
    | _ => misuse
  | .target => do
    match (← read).role with
    | .handler e => return .node e.target
    | _ => misuse
  | .current => do
    match (← read).role with
    | .handler e => return .node e.current
    | _ => misuse
  | .prop key => return ((← frame).props.config.get? key).getD .null
  | .concat items => return .str (String.join ((← evalExprs items).map (·.text)))
  | .pick list index => do
    let list ← evalExpr list
    let index ← evalExpr index
    need (pickItem (← need list.list?) (← need index.int?).toInt)
  | .element shape => return .element (← evalShape shape)
  | .create spec => return .element (← evalSpec spec)
  | .nodes list => return .list ((← evalNodes list).map .node)
  | .refsGet refs key => do
    let id ← refsNamed refs
    match ((← scene).refMap id).get? key with
    | some e => return .element e
    | none => return .null
  | .invalid => misuse

def evalExprs : List Expr → Run (List Value)
  | [] => pure []
  | e :: rest => do
    let v ← evalExpr e
    return v :: (← evalExprs rest)

def evalShape : Shape → Run Element
  | .text s => making (·.textNode s)
  | .number n => making (·.textNode (toString n))
  | .fragment children => do
    let items ← evalChildren children
    making (·.fragment items)
  | .wrap list => do
    let nodes ← evalNodes list
    making (·.fragment (nodes.map .node))
  | .value e => do need (← evalExpr e).element?

def evalChildren : List Child → Run (List Element)
  | [] => pure []
  | c :: rest => do
    let items ← evalChild c
    return items ++ (← evalChildren rest)

def evalChild : Child → Run (List Element)
  | .one shape => return [← evalShape shape]
  | .each list => return (← evalNodes list).map .node

def evalNodes : NodeList → Run (List NodeId)
  | .children => propsNodes fun _ => true
  | .nonText => propsNodes fun d => !d.isText
  | .textOnly => propsNodes (·.isText)
  | .list items => evalEach items
  | .value e => do
    let items ← need (← evalExpr e).list?
    need (items.mapM (·.node?))

def evalEach : List Expr → Run (List NodeId)
  | [] => pure []
  | e :: rest => do
    let n ← need (← evalExpr e).node?
    return n :: (← evalEach rest)

def evalConfig : ConfigExpr → Run Config
  | .settings list => evalSettings .empty list
  | .saved name => configNamed name
  | .invalid => misuse

def evalSettings (c : Config) : List Setting → Run Config
  | [] => pure c
  | s :: rest => do
    let c ← evalSetting c s
    evalSettings c rest

def evalSetting (c : Config) : Setting → Run Config
  | .entry key value => return c.set key (← evalExpr value)
  | .on event handler => do
    let handler ← need (← evalExpr handler).handler?
    return c.on event handler
  | .withRef key refs => return c.withRef ⟨key, ← refsNamed refs⟩
  | .invalid => misuse

def evalSpec : Spec → Run Element
  | .mk type config children engine => do
    let type ← match type with
      | .tag name => pure (ElementType.tag name)
      | .component key => ElementType.component <$> componentNamed key
      | .invalid => misuse
    let config ← evalConfig config
    let children ← evalChildren children
    let engine ← makerNamed engine
    let b := (← read).behaviours
    onWorld (engine.create b type config children)

end

def evalNode (e : Expr) : Run NodeId := do need (← evalExpr e).node?

def evalMethod (e : Expr) : Run Closure := do need (← evalExpr e).method?

def evalHandler (e : Expr) : Run Closure := do need (← evalExpr e).handler?

end UiTree.Script
