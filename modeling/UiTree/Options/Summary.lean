import UiTree.Journal
import UiTree.Options.Reader
set_option autoImplicit false

/-!
Reports on event sets and options: what they hold, how they compare, and how they are written.
-/

namespace UiTree

def version : String := "0.2.0"

def EventSet.summary (s other : EventSet) (asked keys events : List String) : Report :=
  .record [
    ("len", .number s.size),
    ("is_empty", .bool s.isEmpty),
    ("contains", .list (asked.map fun e => .bool (s.contains e))),
    ("keys", .list (keys.map fun k => ((s.eventForKey? k).map Report.text).getD .null)),
    ("key_for", .list (events.map fun e => .text (keyForEvent e))),
    ("eq", .bool (s.same other))]

namespace Options

def readsBack (o : Options) : Bool :=
  match ofJson o.toJson with
  | .ok p => p == o
  | .error _ => false

def summary (o : Options) : Report :=
  .record [
    ("events", .list (o.events.map .text)),
    ("to_json", .text o.toJson),
    ("set_len", .number o.eventSet.size),
    ("set_empty", .bool o.eventSet.isEmpty),
    ("is_default", .bool (o == usual)),
    ("round_trip", .bool o.readsBack)]

def refusalReport (r : Refusal) : Report :=
  .record [("error", .text "Options"), ("category", .text r.category)]

def textSummary (text : String) : Report :=
  match ofJson text with
  | .ok o => o.summary
  | .error r => refusalReport r

end Options

end UiTree
