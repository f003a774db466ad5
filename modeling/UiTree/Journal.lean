set_option autoImplicit false

/-!
The journal of a run: messages of the engine, and notes of the program that runs on it, in the order
they were made. Messages below the chosen level are not kept.
-/

namespace UiTree

inductive Report where
  | null
  | bool (b : Bool)
  | number (n : Int)
  | text (s : String)
  | list (items : List Report)
  | record (fields : List (String × Report))
  deriving Repr, Inhabited

inductive Level where
  | off
  | warn
  | debug
  | trace
  deriving DecidableEq, Repr

def Level.rank : Level → Nat
  | .off => 0
  | .warn => 1
  | .debug => 2
  | .trace => 3

def Level.label : Level → String
  | .off => "off"
  | .warn => "warn"
  | .debug => "debug"
  | .trace => "trace"

inductive Entry where
  | message (level : Level) (text : String)
  | note (report : Report)
  deriving Repr

/-- The entries stand newest first. -/
structure Journal where
  level : Level
  entries : List Entry
  deriving Repr

namespace Journal

def message (j : Journal) (level : Level) (text : String) : Journal :=
  if level.rank ≤ j.level.rank then { j with entries := .message level text :: j.entries } else j

def note (j : Journal) (r : Report) : Journal := { j with entries := .note r :: j.entries }

end Journal

end UiTree
