import Mathlib.Logic.Relation
import UiTree.Proofs.Create
import UiTree.Scene
import UiTree.Tree
import UiTree.World
set_option autoImplicit false

/-!
Programs on a scene, step by step. A moment is a scene with the calls that are under way: code of
the program stands on calls of `create` and `dispatch` that wait for it, and these stand on the code
that made them. Code may do anything that the operations of a scene allow, in any order, and may
make further calls; nothing is assumed of component bodies and callbacks beyond that the nodes and
slots they name were made before.

A moment also keeps a ledger, which no step reads: the notices that were taken out of a sink, and
the notices that were told a parent.
-/

namespace UiTree

namespace Scene

/-- The nodes of the element are in the tree and its slots in the table. -/
def Knows (s : Scene) (e : Element) : Prop :=
  (∀ n ∈ e.nodes, n < s.tree.size) ∧ ∀ f ∈ e.fragments, f.slot < s.slots.size

theorem knows_node_iff {s : Scene} {n : NodeId} : s.Knows (.node n) ↔ n < s.tree.size := by
  simp [Knows, Element.nodes, Element.fragments]

theorem knows_fragment_iff {s : Scene} {slot : SlotId} {items : List Element} :
    s.Knows (.fragment slot items) ↔ slot < s.slots.size ∧ ∀ e ∈ items, s.Knows e := by
  simp only [Knows, Element.nodes, Element.fragments, List.mem_cons, forall_eq_or_imp, mem_flatten,
    mem_collectFragments]
  grind

theorem lt_size_of_knows {s : Scene} {children : List Element} (hc : ∀ e ∈ children, s.Knows e) :
    ∀ n ∈ flatten children, n < s.tree.size := by
  intro n hn
  obtain ⟨e, he, hn⟩ := mem_flatten.1 hn
  exact (hc e he).1 n hn

end Scene

abbrev Log := List (Answer × NodeId)

namespace Course

/-- What code can do to a scene by one operation that calls nothing back. The journal may change in
any way. -/
inductive Act : Scene → Scene → Prop where
  | makeNode (s : Scene) (kind : Kind) : Act s (s.addNode kind).2
  | append (s : Scene) (p : NodeId) {c : NodeId} (hc : c < s.tree.size) : Act s (s.append p c).2
  | detach (s : Scene) (n : NodeId) : Act s { s with tree := s.tree.detach n }
  | setTextContent (s : Scene) (n : NodeId) (text : String) : Act s (s.setTextContent n text)
  | setAttribute (s : Scene) (n : NodeId) (name value : String) :
      Act s (s.modifyNode n (.setAttribute name value))
  | removeAttribute (s : Scene) (n : NodeId) (name : String) :
      Act s (s.modifyNode n (.removeAttribute name))
  | listen (s : Scene) (n : NodeId) (event : String) (v : Value) :
      Act s (s.modifyNode n (.listen event v))
  | setMethod (s : Scene) (n : NodeId) (name : String) (c : Closure) :
      Act s (s.modifyNode n (.setMethod name c))
  | renderInto (s : Scene) (root : NodeId) {e : Element} (he : s.Knows e) :
      Act s (s.renderInto root e).2
  | render (s : Scene) (doc : Document) {e : Element} (id : String) (he : s.Knows e) :
      Act s (s.render doc e id).2
  | makeSlot (s : Scene) : Act s s.addSlot.2
  | makeRefs (s : Scene) : Act s s.addRefs.2
  | makeSink (s : Scene) : Act s s.addSink.2
  | makeFlag (s : Scene) : Act s s.addFlag.2
  | takeSerial (s : Scene) : Act s s.takeSerial.2
  | offerMethod (s : Scene) (id : SinkId) (name : String) (c : Closure) :
      Act s (s.offerMethod id name c)
  | offerNotice (s : Scene) (id : SinkId) (c : Closure) : Act s (s.offerNotice id c)
  | stop (s : Scene) (e : Event) : Act s (s.stop e)
  | journal (s : Scene) (j : Journal) : Act s { s with journal := j }
  -- Nodes that nothing refers to any more are given up.
  | letGo (s : Scene) (kept : Array Bool) : Act s { s with tree := s.tree.prune kept }

/-- A call that is under way, or the code that runs on top of it. -/
inductive Frame where
  | code
  -- A component call that waits for the body.
  | rendering (name : Option String) (request : Option RefRequest) (cur : SinkId)
      (nodes : List NodeId) (slots : List SlotId)
  -- A delivery with the notices it still has to tell.
  | telling (parent : NodeId) (left : List Notice)
  -- An event at its current node, with the listeners still to be called there.
  | hearing (e : Event) (left : List Value) (fuel : Nat)

def Frame.held : Frame → List Notice
  | .telling _ left => left
  | _ => []

/-- What has happened to the notices of a run so far: which were taken out of a sink, and which were
told whom. -/
structure Ledger where
  taken : List Notice
  told : List (Notice × NodeId)

def Ledger.tell (l : Ledger) (n : Notice) (parent : NodeId) : Ledger :=
  { l with told := l.told ++ [(n, parent)] }

def callsOf (told : List (Notice × NodeId)) : Log := told.map fun t => (t.1.answer, t.2)

structure Moment where
  scene : Scene
  -- The innermost first.
  frames : List Frame
  ledger : Ledger

namespace Moment

def start (level : Level) : Moment := ⟨.empty level, [.code], ⟨[], []⟩⟩

/-- The notices of the children are collected; those for a node are then told one by one. -/
def deliver (m : Moment) (result : Element) (nodes : List NodeId) (slots : List SlotId) : Moment :=
  let (notices, s) := m.scene.collect result nodes slots
  { m with
    scene := s.announce result notices
    frames := match result with
      | .node parent => .telling parent notices :: m.frames
      | .fragment _ _ => m.frames }

/-- The body of a component has returned, and its notice is taken out of the sink. -/
def settle (m : Moment) (cur : SinkId) (s : Scene) : Moment :=
  { m with
    scene := s
    ledger := { m.ledger with taken := m.ledger.taken ++ (m.scene.sink cur).notice.toList } }

def arrive (m : Moment) (e : Event) (fuel : Nat) : Moment :=
  { m with frames := .hearing e ((m.scene.node e.current).listeners.get e.kind) fuel :: m.frames }

end Moment

open Moment in
/-- One step: of the code on top, or of the call on top if no code runs on it. -/
inductive Step : Moment → Moment → Prop where
  | act {s s' : Scene} {ks : List Frame} {l : Ledger} (h : Act s s') :
      Step ⟨s, .code :: ks, l⟩ ⟨s', .code :: ks, l⟩
  -- A host element is built.
  | build {s s' : Scene} {ks : List Frame} {l : Ledger} (engine : Engine) (name : String)
      (config : Config) {children : List Element} {n : NodeId} (hc : ∀ e ∈ children, s.Knows e)
      (hb : (s.announceTag name (flatten children)).build engine.events name config
        (flatten children) = (.ok n, s')) :
      Step ⟨s, .code :: ks, l⟩ (deliver ⟨s', .code :: ks, l⟩ (.node n) (flatten children)
        (slotsOf children))
  | buildFails {s s' : Scene} {ks : List Frame} {l : Ledger} (engine : Engine) (name : String)
      (config : Config) {children : List Element} {e : Error} (hc : ∀ e ∈ children, s.Knows e)
      (hb : (s.announceTag name (flatten children)).build engine.events name config
        (flatten children) = (.error e, s')) :
      Step ⟨s, .code :: ks, l⟩ ⟨s', .code :: ks, l⟩
  -- A component is called: its body begins.
  | call (s : Scene) (ks : List Frame) (l : Ledger) (c : Component) {config : Config}
      {children : List Element} {request : Option RefRequest} (hc : ∀ e ∈ children, s.Knows e)
      (hr : config.refRequest = .ok request) :
      Step ⟨s, .code :: ks, l⟩
        ⟨s.enter c (flatten children),
        .code :: .rendering c.name request s.sinks.size (flatten children)
          (slotsOf children) :: .code :: ks, l⟩
  | bodyFails (s : Scene) (ks : List Frame) (l : Ledger) (name : Option String)
      (request : Option RefRequest) (cur : SinkId) (nodes : List NodeId) (slots : List SlotId) :
      Step ⟨s, .code :: .rendering name request cur nodes slots :: ks, l⟩ ⟨s, ks, l⟩
  -- The body returns an element, and the notices of the children go to it.
  | bodyReturns {s s' : Scene} {ks : List Frame} {l : Ledger} {name : Option String}
      {request : Option RefRequest} {cur : SinkId} (nodes : List NodeId) (slots : List SlotId)
      {result : Element} (hk : s.Knows result)
      (hs : s.settle name request cur result = (.ok result, s')) :
      Step ⟨s, .code :: .rendering name request cur nodes slots :: ks, l⟩
        (deliver (settle ⟨s, ks, l⟩ cur s') result nodes slots)
  -- The body returns a fragment together with methods, which a fragment cannot carry.
  | bodyRefused {s s' : Scene} {ks : List Frame} {l : Ledger} {name : Option String}
      {request : Option RefRequest} {cur : SinkId} (nodes : List NodeId) (slots : List SlotId)
      {result : Element} {e : Error} (hk : s.Knows result)
      (hs : s.settle name request cur result = (.error e, s')) :
      Step ⟨s, .code :: .rendering name request cur nodes slots :: ks, l⟩ (settle ⟨s, ks, l⟩ cur s')
  -- The next notice is told, and what answers it begins to run.
  | tell (s : Scene) (ks : List Frame) (l : Ledger) (p : NodeId) (n : Notice) (left : List Notice) :
      Step ⟨s, .telling p (n :: left) :: ks, l⟩ ⟨s, .code :: .telling p left :: ks, l.tell n p⟩
  | answered (s : Scene) (ks : List Frame) (l : Ledger) (p : NodeId) (left : List Notice) :
      Step ⟨s, .code :: .telling p left :: ks, l⟩ ⟨s, .telling p left :: ks, l⟩
  | delivered (s : Scene) (ks : List Frame) (l : Ledger) (p : NodeId) :
      Step ⟨s, .telling p [] :: ks, l⟩ ⟨s, ks, l⟩
  -- An event is made and arrives at its target. It may be allowed any number of nodes on its way.
  | dispatch (s : Scene) (ks : List Frame) (l : Ledger) (kind : String) (target : NodeId)
      (fuel : Nat) :
      Step ⟨s, .code :: ks, l⟩
      (arrive ⟨(s.event kind target).2, .code :: ks, l⟩ (s.event kind target).1 fuel)
  -- A listener begins to run. In place of one that cannot be called, code runs that only writes the
  -- journal.
  | hear (s : Scene) (ks : List Frame) (l : Ledger) (e : Event) (v : Value) (left : List Value)
      (fuel : Nat) :
      Step ⟨s, .hearing e (v :: left) fuel :: ks, l⟩ ⟨s, .code :: .hearing e left fuel :: ks, l⟩
  | heard (s : Scene) (ks : List Frame) (l : Ledger) (e : Event) (left : List Value) (fuel : Nat) :
      Step ⟨s, .code :: .hearing e left fuel :: ks, l⟩ ⟨s, .hearing e left fuel :: ks, l⟩
  | rise {s : Scene} (ks : List Frame) (l : Ledger) {e : Event} (fuel : Nat) {p : NodeId}
      (hs : s.stopped e = false) (hp : s.tree.parent e.current = some p) :
      Step ⟨s, .hearing e [] (fuel + 1) :: ks, l⟩ (arrive ⟨s, ks, l⟩ { e with current := p } fuel)
  | dispatched {s : Scene} (ks : List Frame) (l : Ledger) {e : Event} {fuel : Nat}
      (hs : s.stopped e = true ∨ s.tree.parent e.current = none ∨ fuel = 0) :
      Step ⟨s, .hearing e [] fuel :: ks, l⟩ ⟨s, ks, l⟩

abbrev Steps : Moment → Moment → Prop := Relation.ReflTransGen Step

/-- The moments of all runs that begin with nothing. -/
def Reachable (m : Moment) : Prop := ∃ level, Steps (.start level) m

end Course

end UiTree
