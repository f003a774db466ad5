import UiTree.Scene
set_option autoImplicit false

/-!
Programs on a scene. The library does not say what a component body or a callback does: that is
given by a record of behaviours, which may change the scene and the program's own state in any way
they like.

An event visits its target and then the ancestors; at each node the listeners that were there when
the event arrived are called in order, and only after the last of them is the stop flag looked at.
-/

namespace UiTree

structure Engine where
  events : EventSet

def Engine.usual : Engine := ⟨.usual⟩

def Engine.ofOptions (o : Options) : Engine := ⟨o.eventSet⟩

structure Component where
  name : Option String
  code : String
  deriving DecidableEq, Repr

def Component.shownName (c : Component) : String := c.name.getD "<anonymous>"

/-- What a component body is given: its config and children, a map for refs of its own, the sink
that its caller reads, and the engine to create with. -/
structure Props where
  config : Config
  children : List NodeId
  refs : RefsId
  cur : SinkId
  engine : Engine

structure World (ω : Type) where
  scene : Scene
  program : ω

namespace World

variable {ω : Type}

def message (w : World ω) (level : Level) (text : String) : World ω :=
  { w with scene := w.scene.message level text }

def note (w : World ω) (r : Report) : World ω := { w with scene := w.scene.note r }

end World

/-- What running a piece of code does. Only a component body can fail; whatever it did before
stays. -/
structure Behaviours (ω : Type) where
  render : Component → Props → World ω → Except Error Element × World ω
  handle : Closure → Event → World ω → World ω
  -- Runs a method as a listener: it sees its arguments alone, and nobody takes its value, but the
  -- event is at its node meanwhile.
  respond : Closure → List Value → Event → World ω → World ω
  invoke : Closure → List Value → World ω → Value × World ω
  notify : Closure → NodeId → World ω → World ω

namespace Behaviours

variable {ω : Type}

def tell (b : Behaviours ω) (parent : NodeId) (w : World ω) (n : Notice) : World ω :=
  match n.answer with
  | .callback c => b.notify c parent w
  | .method c => (b.invoke c [.node parent] w).2

end Behaviours

variable {ω : Type}

/-- A method is given the target alone; what cannot be called is passed over with a warning. -/
def callListener (b : Behaviours ω) (e : Event) (w : World ω) : Value → World ω
  | .handler c => b.handle c e w
  | .method c => b.respond c [.node e.target] e w
  | v => w.message .warn
      ("ignoring non-callable '" ++ e.kind ++ "' listener on node " ++ e.current.text ++
        ": " ++ v.text)

def visit (b : Behaviours ω) (e : Event) (n : NodeId) (w : World ω) : World ω :=
  ((w.scene.node n).listeners.get e.kind).foldl (callListener b { e with current := n }) w

/-- Goes up from a node through at most `fuel` nodes. The parent is the one after the listeners have
run. -/
def bubble (b : Behaviours ω) (e : Event) : Nat → NodeId → World ω → World ω
  | 0, _, w => w
  | fuel + 1, n, w =>
    let w := visit b e n w
    if w.scene.stopped e then w
    else match w.scene.tree.parent n with
      | some p => bubble b e fuel p w
      | none => w

/-- How many nodes more than it has at the start listeners may add to the way up. -/
def bubbleSlack : Nat := 1000000

def dispatch (b : Behaviours ω) (kind : String) (target : NodeId) (w : World ω) : Event × World ω :=
  let (e, s) := w.scene.event kind target
  (e, bubble b e (s.tree.size + bubbleSlack) target { w with scene := s })

end UiTree
