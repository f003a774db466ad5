import UiTree.World
set_option autoImplicit false

/-!
Creating elements. A host tag is built in one step on the scene; a component is run and then
settled: the ref is bound, the notice of its body moves onto the result, and its methods are
attached. After either, the notices that waited on the children are collected, and only then
delivered.
-/

namespace UiTree

inductive ElementType where
  | tag (name : String)
  | component (c : Component)
  deriving DecidableEq, Repr

namespace Scene

/-- Every entry but the ref becomes a listener, if its key is that of a recognised event, or an
attribute. -/
def applyEntry (events : EventSet) (n : NodeId) (s : Scene) (entry : String × Value) : Scene :=
  if entry.1 = Config.refKey then s
  else match events.eventForKey? entry.1 with
    | some event => s.modifyNode n (.listen event entry.2)
    | none => s.modifyNode n (.setAttribute entry.1 entry.2.text)

def build (s : Scene) (events : EventSet) (tag : String) (config : Config)
    (children : List NodeId) : Except Error NodeId × Scene :=
  let (n, s) := s.addNode (.element tag)
  match config.refRequest with
  | .error e => (.error e, s)
  | .ok request =>
    let s := s.bindIfAsked request (.node n)
    let s := config.entries.foldl (applyEntry events n) s
    match s.appendAll n children with
    | (.ok _, s) => (.ok n, s)
    | (.error e, s) => (.error e, s)

def moveNotice (s : Scene) (cur : SinkId) (result : Element) : Scene :=
  match (s.sink cur).notice with
  | some n => (s.modifySink cur fun sink => { sink with notice := none }).pushNotice result n
  | none => s

def attachMethod (n : NodeId) (s : Scene) (m : String × Closure) : Scene :=
  (s.message .debug ("attaching method '" ++ m.1 ++ "' to node " ++ n.text)).modifyNode n
    (.setMethod m.1 m.2)

/-- Only a node can carry methods; a fragment refuses them, and they stay in the sink. -/
def attachMethods (s : Scene) (name : Option String) (cur : SinkId) (result : Element) :
    Except Error Element × Scene :=
  let methods := (s.sink cur).methods
  if methods.isEmpty then (.ok result, s)
  else match result with
    | .fragment _ _ => (.error (.methodsOnFragment name methods.keys), s)
    | .node n =>
      let s := s.modifySink cur fun sink => { sink with methods := .empty }
      (.ok result, methods.entries.foldl (attachMethod n) s)

def settle (s : Scene) (name : Option String) (request : Option RefRequest) (cur : SinkId)
    (result : Element) : Except Error Element × Scene :=
  ((s.bindIfAsked request result).moveNotice cur result).attachMethods name cur result

/-- Takes the notices that wait on the children, except on the result itself, and then those of the
slots. -/
def collect (s : Scene) (result : Element) (children : List NodeId) (slots : List SlotId) :
    List Notice × Scene :=
  let (first, s) := s.takeFromNodes (children.filter fun n => result.node? ≠ some n)
  let (more, s) := s.takeFromSlots slots
  (first ++ more, s)

end Scene

namespace Engine

variable {ω : Type}

/-- Notices for a node are told at once; for a fragment they wait in its slot. -/
def deliver (b : Behaviours ω) (result : Element) (notices : List Notice) (w : World ω) : World ω :=
  if notices.isEmpty then w
  else match result with
    | .node parent =>
      let w := w.message .debug
        ("delivering " ++ toString notices.length ++ " got-parent notifications to node " ++
          parent.text)
      notices.foldl (b.tell parent) w
    | .fragment _ _ =>
      let s := w.scene.message .debug
        ("deferring " ++ toString notices.length ++
          " got-parent notifications to the enclosing fragment")
      { w with scene := notices.foldl (·.pushNotice result) s }

def call (b : Behaviours ω) (engine : Engine) (c : Component) (config : Config)
    (children : List NodeId) (w : World ω) : Except Error Element × World ω :=
  match config.refRequest with
  | .error e => (.error e, w)
  | .ok request =>
    let (cur, s) := w.scene.addSink
    let (refs, s) := s.addRefs
    match b.render c ⟨config, children, refs, cur, engine⟩ { w with scene := s } with
    | (.error e, w) => (.error e, w)
    | (.ok result, w) =>
      let (result, s) := w.scene.settle c.name request cur result
      (result, { w with scene := s })

/-- The element before any notice of the children is delivered. -/
def make (b : Behaviours ω) (engine : Engine) (type : ElementType) (config : Config)
    (children : List NodeId) (w : World ω) : Except Error Element × World ω :=
  match type with
  | .tag name =>
    let s := w.scene.message .trace
      ("creating <" ++ name ++ "> with " ++ toString children.length ++ " children")
    match s.build engine.events name config children with
    | (.ok n, s) => (.ok (.node n), { w with scene := s })
    | (.error e, s) => (.error e, { w with scene := s })
  | .component c =>
    engine.call b c config children (w.message .trace
      ("invoking component " ++ c.shownName ++ " with " ++ toString children.length ++ " children"))

def create (b : Behaviours ω) (engine : Engine) (type : ElementType) (config : Config)
    (children : List Element) (w : World ω) : Except Error Element × World ω :=
  let nodes := flatten children
  match engine.make b type config nodes w with
  | (.error e, w) => (.error e, w)
  | (.ok result, w) =>
    let (notices, s) := w.scene.collect result nodes ((collectFragments children).map (·.slot))
    (.ok result, deliver b result notices { w with scene := s })

end Engine

end UiTree
