import UiTree.Script.Act
set_option autoImplicit false

/-!
Operations in sequence, branches and loops. Inside a body, the result of each operation is noted
unless it is null; the first failure that is not caught ends the body.
-/

namespace UiTree.Script

open Run

def isTrue : Value → Bool
  | .null => false
  | .bool b => b
  | .int n => n != 0
  | _ => true

def countTo (act : Nat → Run Unit) : Nat → Nat → Run Unit
  | 0, _ => pure ()
  | left + 1, i => do
    act i
    countTo act left (i + 1)

/-- Holds the nodes that are still to come; the current one is handed over. -/
def eachNode (act : Nat → NodeId → Run Unit) : List NodeId → Nat → Run Unit
  | [], _ => pure ()
  | n :: rest, i => do
    holding rest (act i n)
    eachNode act rest (i + 1)

def assignIndex (name : Option String) (i : Nat) : Run Unit :=
  match name with
  | some name => assign name (.int (Int64.ofNat i))
  | none => pure ()

/-- Notes the outcome of an operation in a body; a failure that is not caught goes on. -/
def noteOutcome (label : Report) (caught : Bool) : Except Failure Report → Run Unit
  | .ok .null => pure ()
  | .ok r => note (.record [("op", label), ("r", r)])
  | .error e => if caught then note (.record (e.fields ++ [("op", label)])) else throw e

mutual

def execOp : Op → Run Report
  | .node subject op => do
    let n ← evalNode subject
    holding [n] do
      modify letGo
      actOnNode n op
  | .value op => actOnValue op
  | .element op => actOnElement op
  | .config op => actOnConfig op
  | .refs op => actOnRefs op
  | .sink op => actOnSink op
  | .component op => actOnComponent op
  | .event op => actOnEvent op
  | .table op => actOnTable op
  | .engine op => actOnEngine op
  | .document op => actOnDocument op
  | .fail e => throw (.error e)
  | .branch condition yes no => do
    if isTrue (← evalExpr condition) then execSteps false yes else execSteps false no
    return .null
  | .count times index body => do
    let n ← need (← evalExpr times).int?
    countTo (fun i => do
      assignIndex index i
      execSteps false body) n.toInt.toNat 0
    return .null
  | .forEach nodes item index body => do
    let ns ← evalNodes nodes
    let item ← need item
    eachNode (fun i n => do
      assign item (.node n)
      assignIndex index i
      execSteps false body) ns 0
    return .null
  | .invalid => misuse

def execSteps (all : Bool) : List Step → Run Unit
  | [] => pure ()
  | s :: rest => do
    execStep all s
    execSteps all rest

def execStep (all : Bool) : Step → Run Unit
  | .mk label caught op => do
    let result ← outcome (execOp op)
    noteOutcome label (all || caught) result

end

end UiTree.Script
