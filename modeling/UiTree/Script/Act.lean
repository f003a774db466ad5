import UiTree.Options.Reader
import UiTree.Script.Eval
set_option autoImplicit false

/-!
What the operations do, by what they act on. Operands are evaluated in the order in which they are
listed, and before anything changes.
-/

namespace UiTree.Script

open Run

def sameCallable : Value → Value → Option Bool
  | .handler a, .handler b => some (a.serial == b.serial)
  | .method a, .method b => some (a.serial == b.serial)
  | _, _ => none

def actOnValue : ValueOp → Run Report
  | .assign value dest => do store dest (← evalExpr value)
  | .drop name => do
    let name ← need name
    modifyMemory fun m => { m with globals := m.globals.erase name }
    return .null
  | .add name amount => do
    let name ← need name
    let old ← need (← need (← lookup? name)).int?
    let more ← need (← evalExpr amount).int?
    assign name (.int (old + more))
    return .null
  | .inspect value => return inspection (← evalExpr value)
  | .describe value => do
    let v ← evalExpr value
    return .text ((← scene).describe v)
  | .describeElement shape => do
    let e ← evalShape shape
    return .text ((← scene).describeElement e)
  | .sameCallable a b => do
    let a ← evalExpr a
    let b ← evalExpr b
    return .bool (← need (sameCallable a b))
  | .call method args dest => do
    let c ← evalMethod method
    let args ← evalExprs args
    store dest (← callMethod c args)

def actOnElement : ElementOp → Run Report
  | .newElement tag dest => do
    let tag ← need tag
    let n ← making (·.addNode (.element tag))
    store dest (.node n)
  | .newText text dest => do
    let text ← need text
    let n ← making (·.addNode (.text text))
    store dest (.node n)
  | .make shape dest => do store dest (.element (← evalShape shape))
  | .push name item => do
    let name ← need name
    match ← need (← lookup? name) with
    | .element (.fragment slot items) =>
      let e ← evalShape item
      assign name (.element (Fragment.push ⟨slot, items⟩ e).toElement)
      return .null
    | _ => misuse
  | .info shape => do
    let e ← evalShape shape
    return elementInfo (← scene) e
  | .same a b => do
    let a ← evalShape a
    let b ← evalShape b
    return .bool (a.same b)
  | .flatten items => return idsReport (flatten (← evalChildren items))
  | .fragments items => do
    let items ← evalChildren items
    return .list (elementReports (← scene) ((collectFragments items).map (·.toElement)))
  | .classify nodes => do
    let ns ← evalNodes nodes
    let s ← scene
    return .record [
      ("non_text", idsReport (ns.filter fun n => !(s.node n).isText)),
      ("text", idsReport (ns.filter fun n => (s.node n).isText))]

def evalPairs : List (Name × Expr) → Run (List (String × Value))
  | [] => pure []
  | (key, e) :: rest => do
    let key ← need key
    let v ← evalExpr e
    return (key, v) :: (← evalPairs rest)

def foundReport (s : Scene) (v : Option Value) : Report :=
  .record [("found", .bool v.isSome), ("value", optionReport (valueReport s) v)]

def refReport (s : Scene) (r : RefRequest) : Report :=
  .record [("key", .text r.key), ("keys", textsReport (s.refMap r.refs).sortedKeys)]

def savingConfig (name : String) (c : Config) : Run Report := do
  saveConfig name c
  return entriesReport (← scene) c

def actOnConfig : ConfigOp → Run Report
  | .save config dest => do
    let c ← evalConfig config
    savingConfig (← need dest) c
  | .saveList pairs dest => do
    let c := Dict.ofList (← evalPairs pairs)
    savingConfig (← need dest) c
  | .set config key value => do
    let config ← need config
    let c ← configNamed config
    let key ← need key
    let v ← evalExpr value
    savingConfig config (c.set key v)
  | .remove config key => do
    let config ← need config
    let (old, c) := (← configNamed config).remove (← need key)
    saveConfig config c
    return foundReport (← scene) old
  | .get config key => do
    let c ← configNamed (← need config)
    let key ← need key
    return foundReport (← scene) (c.get? key)
  | .info config => do
    let c ← configNamed (← need config)
    return .record [
      ("entries", entriesReport (← scene) c),
      ("len", natReport c.size),
      ("is_empty", .bool c.isEmpty)]
  | .ref config => do
    match (← configNamed (← need config)).refRequest with
    | .ok request => return optionReport (refReport (← scene)) request
    | .error e => throw (.error e)

def actOnRefs : RefsOp → Run Report
  | .get refs key dest => do
    let id ← refsNamed (← need refs)
    let key ← need key
    match ((← scene).refMap id).get? key with
    | some e => store dest (.element e)
    | none => store dest .null
  | .node refs key dest => do
    let id ← refsNamed (← need refs)
    let key ← need key
    storeNode dest ((((← scene).refMap id).get? key).bind (·.node?))
  | .info refs asked => do
    let id ← refsNamed (← need refs)
    let map := (← scene).refMap id
    return .record [
      ("keys", textsReport map.sortedKeys),
      ("len", natReport map.size),
      ("is_empty", .bool map.isEmpty),
      ("has", .list (asked.map fun k => .bool (map.contains k))),
      ("debug", .text (describeRefs map))]
  | .same a b => do
    let a ← refsNamed (← need a)
    let b ← refsNamed (← need b)
    return .bool (a == b)

def actOnSink : SinkOp → Run Report
  | .offer sink name method => do
    let id ← sinkNamed sink
    let name ← need name
    let c ← evalMethod method
    modifyScene (·.offerMethod id name c)
    return .null
  | .gotParent sink callback => do
    let id ← sinkNamed sink
    let c ← closure (← need callback)
    modifyScene (·.offerNotice id c)
    return .null
  | .info sink asked => do
    let id ← sinkNamed sink
    let s := (← scene).sink id
    return .record [
      ("len", natReport s.size),
      ("is_empty", .bool (s.size == 0)),
      ("gp", .bool s.notice.isSome),
      ("has", .list (asked.map fun k => .bool (s.contains k))),
      ("debug", .text s.describe)]

def actOnComponent : ComponentOp → Run Report
  | .prop key => do
    let key ← need key
    let v := (← frame).props.config.get? key
    let s ← scene
    return .record [
      ("get", optionReport (valueReport s) v),
      ("present", .bool v.isSome),
      ("str", optionReport .text (v.bind (·.str?))),
      ("int", optionReport (fun n => .number n.toInt) (v.bind (·.int?))),
      ("list", optionReport (fun l => .list (valueReports s l)) (v.bind (·.list?))),
      ("method", .bool (v.bind (·.method?)).isSome),
      ("handler", .bool (v.bind (·.handler?)).isSome)]
  | .info component => do
    let c ← componentNamed (← need component)
    return .record [
      ("name", optionReport .text c.name),
      ("debug", .text c.describe),
      ("type_debug", .text ("Component(" ++ c.describe ++ ")"))]

def kindReport : Kind → Report
  | .element tag => .record [("element", .text tag)]
  | .text content => .record [("text", .text content)]

def dispatchOn (event : String) (n : NodeId) (dest : Dest) : Run Report := do
  let b := (← read).behaviours
  let e ← modifyGet (dispatch b event n)
  if let some name := dest then saveEvent name e
  return eventReport (← scene) e

def callMethodOn (n : NodeId) (name : String) (args : List Expr) (dest : Dest) : Run Report := do
  let args ← evalExprs args
  match ((← scene).node n).methods.get? name with
  | some c =>
    let v ← callMethod c args
    let shown ← store dest v
    return .record [("found", .bool true), ("value", shown)]
  | none => return .record [("found", .bool false)]

def actOnNode (n : NodeId) : NodeOp → Run Report
  | .kind => return kindReport ((← scene).node n).kind
  | .tag => return optionReport .text ((← scene).node n).tag?
  | .isText => return .bool ((← scene).node n).isText
  | .setAttr name value => do
    let name ← need name
    let v ← evalExpr value
    modifyScene (·.modifyNode n (.setAttribute name v.text))
    return .null
  | .attr name => do
    let name ← need name
    return optionReport .text (((← scene).node n).attributes.get? name)
  | .removeAttr name => do
    let name ← need name
    return optionReport .text (← making (·.removeAttribute n name))
  | .hasAttr name => do
    let name ← need name
    return .bool (((← scene).node n).attributes.contains name)
  | .attrs => return attributesReport ((← scene).node n)
  | .listen event value => do
    let event ← need event
    let v ← evalExpr value
    modifyScene (·.modifyNode n (.listen event v))
    return .null
  | .listenerCount event => do
    let event ← need event
    return natReport (((← scene).node n).listeners.count event)
  | .totalListeners => return natReport ((← scene).node n).listeners.total
  | .dispatch event dest => do dispatchOn (← need event) n dest
  | .setMethod name method => do
    let name ← need name
    let c ← evalMethod method
    modifyScene (·.modifyNode n (.setMethod name c))
    return .null
  | .getMethod name dest => do
    let name ← need name
    match ((← scene).node n).methods.get? name with
    | some c => store dest (.method c)
    | none => store dest .null
  | .callMethod name args dest => do callMethodOn n (← need name) args dest
  | .methodNames => return textsReport ((← scene).node n).methods.sortedKeys
  | .hasGotParent => return .bool ((← scene).hasNotice (.node n))
  | .parent dest => do storeNode dest ((← scene).tree.parent n)
  | .children dest => do store dest (.list (((← scene).tree.children n).map .node))
  | .childCount => return natReport ((← scene).tree.children n).length
  | .contains other => do
    let m ← evalNode other
    return .bool ((← scene).tree.contains n m)
  | .append child => do
    let c ← evalNode child
    onScene (·.append n c)
    return .null
  | .remove => do
    modifyScene fun s => { s with tree := s.tree.detach n }
    return .null
  | .textContent => return .text ((← scene).tree.textContent n)
  | .setTextContent text => do
    let v ← evalExpr text
    modifyScene (·.setTextContent n v.text)
    return .null
  | .html => return .text ((← scene).tree.markup n)
  | .findById id dest => do
    let id ← need id
    storeNode dest ((← scene).tree.findById n id)
  | .nodeEq other => do
    let m ← evalNode other
    return .bool (n == m)
  | .dump => return nodeReport (← scene).tree n

def actOnEvent : EventOp → Run Report
  | .make kind node dest => do
    let kind ← need kind
    let n ← evalNode node
    let e ← making (·.event kind n)
    saveEvent (← need dest) e
    return eventReport (← scene) e
  | .save event dest => do
    let e ← eventNamed event
    saveEvent (← need dest) e
    return .null
  | .info event => do
    let e ← eventNamed event
    return eventReport (← scene) e
  | .stop event => do
    let e ← eventNamed event
    modifyScene (·.stop e)
    return .null
  | .callHandler handler event => do
    let c ← evalHandler handler
    let e ← eventNamed event
    let b := (← read).behaviours
    modify (b.handle c e)
    return .null

def actOnTable : TableOp → Run Report
  | .add table value event => do
    changingTable (← need table) fun l => do
      let v ← evalExpr value
      return l.add (← need event) v
    return .null
  | .clear table => do
    saveTable (← need table) .empty
    return .null
  | .info table event => do
    let l ← tableNamed (← need table)
    let event ← need event
    return .record [
      ("get", .list (valueReports (← scene) (l.get event))),
      ("count", natReport (l.count event)),
      ("len", natReport l.total),
      ("is_empty", .bool (l.total == 0))]

def engineFrom : EngineSource → Except Error Engine
  | .options json => match Options.ofJson json with
    | .ok o => .ok (.ofOptions o)
    | .error refusal => .error (.options refusal)
  | .events names => .ok ⟨.ofList names⟩
  | .usual => .ok .usual

def actOnEngine : EngineOp → Run Report
  | .make source dest => do
    match engineFrom source with
    | .ok engine =>
      let dest ← need dest
      modifyMemory fun m => { m with engines := m.engines.set dest engine }
      return .null
    | .error e => throw (.error e)
  | .info engine keys => do
    let events := (← engineNamed engine).events
    return .record [
      ("len", natReport events.size),
      ("keys", .list (keys.map fun k => optionReport .text (events.eventForKey? k)))]
  | .create spec dest => do store dest (.element (← evalSpec spec))
  | .render doc tree root engine => do
    let d ← documentNamed (← need doc)
    let e ← evalShape tree
    let root ← need root
    let _ ← makerNamed engine
    onScene (·.render d e root)
    return .null
  | .renderInto node tree engine => do
    let n ← evalNode node
    let e ← evalShape tree
    let _ ← engineNamed engine
    onScene (·.renderInto n e)
    return .null

def actOnDocument : DocumentOp → Run Report
  | .make doc root dest => do
    let d ← match root with
      | some id => onScene (·.documentWithRoot id)
      | none => making (·.document)
    let doc ← need doc
    let made := d.body :: (← scene).tree.children d.body
    modifyMemory fun m => { m with documents := m.documents.set doc d, unseen := made ++ m.unseen }
    store dest (.node d.body)
  | .element doc tag dest => do
    let _ ← documentNamed (← need doc)
    let tag ← need tag
    let n ← making (·.addNode (.element tag))
    store dest (.node n)
  | .text doc text dest => do
    let _ ← documentNamed (← need doc)
    let text ← need text
    let n ← making (·.addNode (.text text))
    store dest (.node n)
  | .find doc id dest => do
    let d ← documentNamed (← need doc)
    let id ← need id
    storeNode dest ((← scene).elementById d id)
  | .html doc => do
    let d ← documentNamed (← need doc)
    return .text ((← scene).tree.markup d.body)
  | .describe doc => do
    let d ← documentNamed (← need doc)
    return .text ((← scene).describeDocument d)

end UiTree.Script
