import UiTree.Script.Dump
import UiTree.Tree
set_option autoImplicit false

/-!
Running code: what it can see (the frame and the role it runs in), and what it can do (change the
world, or fail and keep what it changed).

Besides the scene, a running script has variables, one frame for each component call, and the named
tables. It keeps every node that it has seen, unless it is weak; all other nodes are given up as
soon as nothing refers to them.
-/

namespace UiTree.Script

structure Frame where
  props : Props
  locals : Dict Value

structure Memory where
  globals : Dict Value
  frames : Array Frame
  configs : Dict Config
  refs : Dict RefsId
  sinks : Dict SinkId
  documents : Dict Document
  engines : Dict Engine
  tables : Dict Listeners
  events : Dict Event
  weak : Bool
  -- Nodes that a document was made with and that no value has shown yet.
  unseen : List NodeId
  -- What running operations and callbacks hold besides the variables, the innermost first.
  held : List (List NodeId)

def Memory.empty (engine : Engine) (weak : Bool) : Memory where
  globals := .empty
  frames := #[]
  configs := .empty
  refs := .empty
  sinks := .empty
  documents := .empty
  engines := Dict.empty.set "default" engine
  tables := .empty
  events := .empty
  weak := weak
  unseen := []
  held := []

namespace Memory

/-- Whether the script keeps a node for having seen it. -/
def keeps (m : Memory) (n : NodeId) : Bool := !m.weak && !m.unseen.contains n

def forgets (m : Memory) : Bool := m.weak || !m.unseen.isEmpty

def see (m : Memory) (v : Value) : Memory :=
  if m.unseen.isEmpty then m
  else
    let shown := v.nodes
    { m with unseen := m.unseen.filter (!shown.contains ·) }

def roots (m : Memory) (s : Scene) : List NodeId :=
  (List.range s.tree.size).filter m.keeps
    ++ nodesOf (m.globals.entries.map (·.2))
    ++ m.held.flatten
    ++ m.configs.entries.flatMap (fun c => nodesOf (c.2.entries.map (·.2)))
    ++ m.tables.entries.flatMap (fun t => nodesOf t.2.values)
    ++ m.documents.entries.map (·.2.body)
    ++ m.events.entries.flatMap (fun e => [e.2.target, e.2.current])
    ++ s.refs.toList.flatMap (fun r => flatten (r.entries.map (·.2)))

end Memory

structure Program where
  components : Dict ComponentText
  callbacks : Dict CallbackText

/-- Components and callbacks that are not defined do nothing. -/
def Program.component (p : Program) (key : String) : ComponentText :=
  (p.components.get? key).getD ⟨none, [], none⟩

def Program.callback (p : Program) (name : String) : CallbackText :=
  (p.callbacks.get? name).getD ⟨[], none⟩

inductive Role where
  | body
  | handler (e : Event)
  | method (args : List Value)
  | gotParent (parent : NodeId)

def Role.nodes : Role → List NodeId
  | .body => []
  | .handler e => [e.target, e.current]
  | .method args => nodesOf args
  | .gotParent parent => [parent]

structure Context where
  program : Program
  behaviours : Behaviours Memory
  frame : Option FrameId
  role : Role

abbrev Run := ReaderT Context (ExceptT Failure (StateM (World Memory)))

/-- Gives up the nodes that nothing refers to. Only a look at a parent can tell a node that was
given up from one that is still to be, so this is done before each such look: at the start of an
operation on a node, and whenever a listener is done. -/
def letGo (w : World Memory) : World Memory :=
  if w.program.forgets then
    let tree := w.scene.tree
    let kept := tree.kept (w.program.roots w.scene)
    { scene := { w.scene with tree := tree.prune kept }
      program := { w.program with unseen := w.program.unseen.filter fun n => kept.getD n false } }
  else w

namespace Run

def misuse {α : Type} : Run α := throw .misuse

def need {α : Type} : Option α → Run α
  | some a => pure a
  | none => misuse

def scene : Run Scene := return (← get).scene

def memory : Run Memory := return (← get).program

def modifyScene (f : Scene → Scene) : Run Unit := modify fun w => { w with scene := f w.scene }

def modifyMemory (f : Memory → Memory) : Run Unit :=
  modify fun w => { w with program := f w.program }

def making {α : Type} (f : Scene → α × Scene) : Run α :=
  modifyGet fun w =>
    let (a, s) := f w.scene
    (a, { w with scene := s })

def onWorld {α : Type} (f : World Memory → Except Error α × World Memory) : Run α := do
  let result ← modifyGet f
  match result with
  | .ok a => pure a
  | .error e => throw (.error e)

def onScene {α : Type} (f : Scene → Except Error α × Scene) : Run α :=
  onWorld fun w =>
    let (result, s) := f w.scene
    (result, { w with scene := s })

def note (r : Report) : Run Unit := modifyScene (·.note r)

def outcome {α : Type} (act : Run α) : Run (Except Failure α) :=
  tryCatch (.ok <$> act) (pure ∘ .error)

def frame : Run Frame := do
  match (← read).frame with
  | some id => need (← memory).frames[id]?
  | none => misuse

def setFrame (f : Frame → Frame) : Run Unit := do
  match (← read).frame with
  | some id => modifyMemory fun m => { m with frames := m.frames.modify id f }
  | none => misuse

/-- Whether a name belongs to the frame: it starts with `$`, and there is a frame. -/
def isLocal (name : String) : Run Bool := return name.startsWith "$" && (← read).frame.isSome

def lookup? (name : String) : Run (Option Value) := do
  if ← isLocal name then return (← frame).locals.get? name
  else return (← memory).globals.get? name

def assign (name : String) (v : Value) : Run Unit := do
  modifyMemory (·.see v)
  if ← isLocal name then setFrame fun f => { f with locals := f.locals.set name v }
  else modifyMemory fun m => { m with globals := m.globals.set name v }

def store (dest : Dest) (v : Value) : Run Report := do
  if let some name := dest then assign name v
  return valueReport (← scene) v

def storeNode (dest : Dest) (n : Option NodeId) : Run Report :=
  store dest (match n with | some n => .node n | none => .null)

def refsNamed (name : String) : Run RefsId := do
  if name = "props" then return (← frame).props.refs
  match (← memory).refs.get? name with
  | some id => pure id
  | none =>
    let id ← making Scene.addRefs
    modifyMemory fun m => { m with refs := m.refs.set name id }
    pure id

def sinkNamed (name : Option String) : Run SinkId := do
  let name := name.getD "cur"
  if name = "cur" then return (← frame).props.cur
  match (← memory).sinks.get? name with
  | some id => pure id
  | none =>
    let id ← making Scene.addSink
    modifyMemory fun m => { m with sinks := m.sinks.set name id }
    pure id

def configNamed (name : String) : Run Config := do
  if name = "props" then return (← frame).props.config
  return ((← memory).configs.get? name).getD .empty

/-- What is saved as `props` is out of reach: that name always stands for the config of the running
component. -/
def saveConfig (name : String) (c : Config) : Run Unit :=
  modifyMemory fun m => { m with configs := m.configs.set name c }

def tableNamed (name : String) : Run Listeners := return ((← memory).tables.get? name).getD .empty

def saveTable (name : String) (l : Listeners) : Run Unit :=
  modifyMemory fun m => { m with tables := m.tables.set name l }

def eventNamed (name : Option String) : Run Event := do
  match name with
  | some name => need ((← memory).events.get? name)
  | none => match (← read).role with
    | .handler e => pure e
    | _ => misuse

def saveEvent (name : String) (e : Event) : Run Unit :=
  modifyMemory fun m => { m with events := m.events.set name e }

def documentNamed (name : String) : Run Document := do need ((← memory).documents.get? name)

/-- Without a name, the engine of the running component, or else the one called `default`. -/
def engineNamed (name : Option String) : Run Engine := do
  match name with
  | some name => need ((← memory).engines.get? name)
  | none =>
    if (← read).frame.isSome then return (← frame).props.engine
    else need ((← memory).engines.get? "default")

/-- To create and to render, `free` always is the usual engine, whatever has that name. -/
def makerNamed (name : Option String) : Run Engine :=
  if name = some "free" then pure .usual else engineNamed name

def componentNamed (key : String) : Run Component :=
  return ⟨((← read).program.component key).name, key⟩

def closure (callback : String) : Run Closure := do
  let serial ← making Scene.takeSerial
  return ⟨serial, callback, (← read).frame⟩

def callMethod (c : Closure) (args : List Value) : Run Value := do
  let b := (← read).behaviours
  modifyGet (b.invoke c args)

def holding {α : Type} (nodes : List NodeId) (act : Run α) : Run α := do
  let held := (← memory).held
  modifyMemory fun m => { m with held := nodes :: m.held }
  let result ← outcome act
  modifyMemory fun m => { m with held }
  match result with
  | .ok a => pure a
  | .error e => throw e

/-- Takes a table away for as long as an action works on it. If the action fails, the table is back
as it was. -/
def changingTable (name : String) (act : Listeners → Run Listeners) : Run Unit := do
  let old ← tableNamed name
  saveTable name .empty
  match ← outcome (holding (nodesOf old.values) (act old)) with
  | .ok new => saveTable name new
  | .error e =>
    saveTable name old
    throw e

end Run

end UiTree.Script
