import UiTree.Journal
import UiTree.Tree
set_option autoImplicit false

/-!
The scene: everything that elements, components and callbacks share. Slots, maps of refs, method
sinks and stop flags are tables like the tree, so that a copy of any handle still means the same
thing. Rendering puts the nodes of an element at the end of a root, in order; it neither tells nor
moves any notice.
-/

namespace UiTree

abbrev SinkId := Nat

abbrev FlagId := Nat

/-- What a component body offers its caller: methods by name, and at most one notice. -/
structure Sink where
  methods : Dict Closure
  notice : Option Notice

namespace Sink

def empty : Sink := ⟨.empty, none⟩

/-- The name under which a method is taken as a notice. -/
def gotParentName : String := "onGotParent"

def contains (s : Sink) (name : String) : Bool :=
  if name = gotParentName then s.notice.isSome else s.methods.contains name

def size (s : Sink) : Nat := s.methods.size + (if s.notice.isSome then 1 else 0)

end Sink

structure Event where
  kind : String
  target : NodeId
  current : NodeId
  flag : FlagId
  deriving DecidableEq, Repr

structure Scene where
  tree : Tree
  slots : Array (List Notice)
  refs : Array (Dict Element)
  sinks : Array Sink
  flags : Array Bool
  serials : Nat
  journal : Journal

namespace Scene

def empty (level : Level) : Scene := ⟨.empty, #[], #[], #[], #[], 0, ⟨level, []⟩⟩

def addNode (s : Scene) (kind : Kind) : NodeId × Scene :=
  let (n, tree) := s.tree.add kind
  (n, { s with tree })

def addSlot (s : Scene) : SlotId × Scene := (s.slots.size, { s with slots := s.slots.push [] })

def addRefs (s : Scene) : RefsId × Scene := (s.refs.size, { s with refs := s.refs.push .empty })

def addSink (s : Scene) : SinkId × Scene := (s.sinks.size, { s with sinks := s.sinks.push .empty })

def addFlag (s : Scene) : FlagId × Scene := (s.flags.size, { s with flags := s.flags.push false })

def takeSerial (s : Scene) : Nat × Scene := (s.serials, { s with serials := s.serials + 1 })

def fragment (s : Scene) (items : List Element) : Element × Scene :=
  let (slot, s) := s.addSlot
  (.fragment slot items, s)

def textNode (s : Scene) (text : String) : Element × Scene :=
  let (n, s) := s.addNode (.text text)
  (.node n, s)

def event (s : Scene) (kind : String) (target : NodeId) : Event × Scene :=
  let (flag, s) := s.addFlag
  (⟨kind, target, target, flag⟩, s)

def node (s : Scene) (n : NodeId) : NodeData := s.tree.get n

def slot (s : Scene) (id : SlotId) : List Notice := s.slots.getD id []

def refMap (s : Scene) (id : RefsId) : Dict Element := s.refs.getD id .empty

def sink (s : Scene) (id : SinkId) : Sink := s.sinks.getD id .empty

def stopped (s : Scene) (e : Event) : Bool := s.flags.getD e.flag false

def modifyNode (s : Scene) (n : NodeId) (f : NodeData → NodeData) : Scene :=
  { s with tree := s.tree.modify n f }

def removeAttribute (s : Scene) (n : NodeId) (name : String) : Option String × Scene :=
  ((s.node n).attributes.get? name, s.modifyNode n (.removeAttribute name))

def modifySink (s : Scene) (id : SinkId) (f : Sink → Sink) : Scene :=
  { s with sinks := s.sinks.modify id f }

def stop (s : Scene) (e : Event) : Scene := { s with flags := s.flags.setIfInBounds e.flag true }

def message (s : Scene) (level : Level) (text : String) : Scene :=
  { s with journal := s.journal.message level text }

def note (s : Scene) (r : Report) : Scene := { s with journal := s.journal.note r }

def bind (s : Scene) (r : RefRequest) (e : Element) : Scene :=
  let s := s.message .debug ("binding ref '" ++ r.key ++ "'")
  { s with refs := s.refs.modify r.refs (·.set r.key e) }

def bindIfAsked (s : Scene) (request : Option RefRequest) (e : Element) : Scene :=
  match request with
  | some r => s.bind r e
  | none => s

def setTextContent (s : Scene) (n : NodeId) (text : String) : Scene :=
  { s with tree := s.tree.setTextContent n text }

def append (s : Scene) (parent child : NodeId) : Except Error Unit × Scene :=
  match s.tree.append parent child with
  | .ok tree => (.ok (), { s with tree })
  | .error e => (.error e, s)

def appendAll (s : Scene) (parent : NodeId) (children : List NodeId) : Except Error Unit × Scene :=
  let (result, tree) := s.tree.appendAll parent children
  (result, { s with tree })

def pushNotice (s : Scene) (e : Element) (n : Notice) : Scene :=
  match e with
  | .node id => s.modifyNode id (.pushNotice n)
  | .fragment slot _ => { s with slots := s.slots.modify slot (· ++ [n]) }

def hasNotice (s : Scene) : Element → Bool
  | .node id => !(s.node id).pending.isEmpty
  | .fragment slot _ => !(s.slot slot).isEmpty

/-- Takes what waits on the nodes, in turn; a node met again has nothing left. -/
def takeFromNodes (s : Scene) : List NodeId → List Notice × Scene
  | [] => ([], s)
  | n :: rest =>
    let first := (s.node n).pending
    let (more, s) := (s.modifyNode n (.setPending [])).takeFromNodes rest
    (first ++ more, s)

def takeFromSlots (s : Scene) : List SlotId → List Notice × Scene
  | [] => ([], s)
  | id :: rest =>
    let first := s.slot id
    let (more, s) := { s with slots := s.slots.setIfInBounds id [] }.takeFromSlots rest
    (first ++ more, s)

/-- Offers a method; under the name of notices it becomes the notice, in place of the one before. -/
def offerMethod (s : Scene) (id : SinkId) (name : String) (method : Closure) : Scene :=
  if name = Sink.gotParentName then
    let (serial, s) := s.takeSerial
    s.modifySink id fun sink => { sink with notice := some ⟨serial, .method method⟩ }
  else s.modifySink id fun sink => { sink with methods := sink.methods.set name method }

def offerNotice (s : Scene) (id : SinkId) (callback : Closure) : Scene :=
  let (serial, s) := s.takeSerial
  s.modifySink id fun sink => { sink with notice := some ⟨serial, .callback callback⟩ }

end Scene

structure Document where
  body : NodeId
  deriving DecidableEq, Repr

namespace Scene

def document (s : Scene) : Document × Scene :=
  let (body, s) := s.addNode (.element "body")
  (⟨body⟩, s)

def documentWithRoot (s : Scene) (id : String) : Except Error Document × Scene :=
  let (doc, s) := s.document
  let (root, s) := s.addNode (.element "div")
  match (s.modifyNode root (.setAttribute "id" id)).append doc.body root with
  | (.ok _, s) => (.ok doc, s)
  | (.error e, s) => (.error e, s)

def elementById (s : Scene) (doc : Document) (id : String) : Option NodeId :=
  s.tree.findById doc.body id

def renderInto (s : Scene) (root : NodeId) (tree : Element) : Except Error Unit × Scene :=
  let nodes := tree.nodes
  let s := s.message .debug ("rendering " ++ toString nodes.length ++ " nodes into node " ++
    root.text)
  s.appendAll root nodes

def render (s : Scene) (doc : Document) (tree : Element) (id : String) :
    Except Error Unit × Scene :=
  match s.elementById doc id with
  | some root => s.renderInto root tree
  | none => (.error (.rootNotFound id), s)

end Scene

end UiTree
