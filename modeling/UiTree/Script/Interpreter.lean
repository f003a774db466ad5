import UiTree.Script.Exec
set_option autoImplicit false

/-!
The behaviours that a script's texts describe, and whole scripts. Code that calls code goes one
level down, and at the last level no code runs any more; scripts that end at all stay far above it.
-/

namespace UiTree.Script

open Run

def Run.start {α : Type} (act : Run α) (c : Context) (w : World Memory) :
    Except Failure α × World Memory :=
  (act c).run w

def enterReport (s : Scene) (c : Component) (p : Props) : Report :=
  .record [
    ("enter", .text c.code),
    ("children", idsReport p.children),
    ("config", entriesReport s p.config),
    ("refs", natReport (s.refMap p.refs).size),
    ("cur", natReport (s.sink p.cur).size)]

def bodyOf (text : ComponentText) : Run Element := do
  execSteps false text.body
  match text.result with
  | some shape => evalShape shape
  | none => making (·.fragment [])

def Failure.toError : Failure → Error
  | .error e => e
  | .misuse => .component "script"

def renderWith (p : Program) (b : Behaviours Memory) (c : Component) (props : Props)
    (w : World Memory) : Except Error Element × World Memory :=
  let w := w.note (enterReport w.scene c props)
  let id := w.program.frames.size
  let w := { w with program := { w.program with frames := w.program.frames.push ⟨props, .empty⟩ } }
  match (bodyOf (p.component c.code)).start ⟨p, b, some id, .body⟩ w with
  | (.ok e, w) => (.ok e, w)
  | (.error f, w) => (.error f.toError, w)

/-- Runs a callback to its end, whatever fails in it, and then evaluates its result. -/
def callbackBody (text : CallbackText) : Run Value := do
  execSteps true text.body
  match text.result with
  | some e => do
    match ← outcome (evalExpr e) with
    | .ok v => pure v
    | .error _ => pure .null
  | none => pure .null

/-- An event holds its nodes while a listener runs. The listener's value is dropped before it goes
on. -/
def listening (e : Event) (act : Run Value) : Run Value :=
  holding [e.target, e.current] do
    let _ ← act
    modify letGo
    return .null

/-- Runs a callback in its role, with what the role was given held; `around` says who else waits for
it. -/
def runCallback (p : Program) (b : Behaviours Memory) (c : Closure) (role : Role)
    (around : Run Value → Run Value) (w : World Memory) : Value × World Memory :=
  match (around (holding role.nodes (callbackBody (p.callback c.code)))).start ⟨p, b, c.frame,
      role⟩ w with
  | (.ok v, w) => (v, w)
  | (.error _, w) => (.null, w)

def callReport (c : Closure) (as : String) (fields : List (String × Report)) : Report :=
  .record ([("call", .text c.code), ("as", .text as)] ++ fields)

def handleWith (p : Program) (b : Behaviours Memory) (c : Closure) (e : Event) (w : World Memory) :
    World Memory :=
  let w := w.note (callReport c "handler" (eventFields w.scene e))
  (runCallback p b c (.handler e) (listening e) w).2

def methodReport (s : Scene) (c : Closure) (args : List Value) : Report :=
  callReport c "method" [("args", .list (valueReports s args))]

def respondWith (p : Program) (b : Behaviours Memory) (c : Closure) (args : List Value) (e : Event)
    (w : World Memory) : World Memory :=
  let w := w.note (methodReport w.scene c args)
  (runCallback p b c (.method args) (listening e) w).2

def invokeWith (p : Program) (b : Behaviours Memory) (c : Closure) (args : List Value)
    (w : World Memory) : Value × World Memory :=
  let w := w.note (methodReport w.scene c args)
  runCallback p b c (.method args) id w

def gotParentReport (s : Scene) (c : Closure) (parent : NodeId) : Report :=
  callReport c "got_parent" [
    ("parent", idReport parent),
    ("children", natReport (s.tree.children parent).length)]

def notifyWith (p : Program) (b : Behaviours Memory) (c : Closure) (parent : NodeId)
    (w : World Memory) : World Memory :=
  let w := w.note (gotParentReport w.scene c parent)
  (runCallback p b c (.gotParent parent) id w).2

def behaviours (p : Program) : Nat → Behaviours Memory
  | 0 => ⟨fun _ _ w => (.error (.component "script"), w), fun _ _ w => w, fun _ _ _ w => w,
      fun _ _ w => (.null, w), fun c parent w => w.note (gotParentReport w.scene c parent)⟩
  | depth + 1 => ⟨fun c props w => renderWith p (behaviours p depth) c props w,
      fun c e w => handleWith p (behaviours p depth) c e w,
      fun c args e w => respondWith p (behaviours p depth) c args e w,
      fun c args w => invokeWith p (behaviours p depth) c args w,
      fun c parent w => notifyWith p (behaviours p depth) c parent w⟩

def callDepth : Nat := 1000000

def stepReport (result : Except Failure Report) (entries : List Entry) : Report :=
  let answer := match result with
    | .ok r => [("r", r)]
    | .error e => e.fields
  let log := if entries.isEmpty then [] else [("log", .list (entries.map entryReport))]
  .record (answer ++ log)

/-- Runs one top-level operation, and takes what it left in the journal into its report. -/
def topStep (c : Context) (w : World Memory) : Step → Report × World Memory
  | .mk _ _ op =>
    let (result, w) := (execOp op).start c w
    let journal := w.scene.journal
    (stepReport result journal.entries.reverse,
      { w with scene := { w.scene with journal := { journal with entries := [] } } })

def topSteps (c : Context) (w : World Memory) : List Step → List Report × World Memory
  | [] => ([], w)
  | s :: rest =>
    let (r, w) := topStep c w s
    let (rs, w) := topSteps c w rest
    (r :: rs, w)

end UiTree.Script

namespace UiTree

structure Script where
  program : Script.Program
  events : Option (List String)
  level : Level
  weak : Bool
  steps : List Script.Step

namespace Script

def start (s : Script) : World Memory :=
  let engine := match s.events with
    | some names => ⟨.ofList names⟩
    | none => Engine.usual
  ⟨.empty s.level, .empty engine s.weak⟩

def context (s : Script) : Context := ⟨s.program, behaviours s.program callDepth, none, .body⟩

def run (s : Script) : List Report × World Memory := topSteps s.context s.start s.steps

def reports (s : Script) : List Report := s.run.1

end Script

end UiTree
