import UiTree.Text
set_option autoImplicit false

/-!
The event names an engine recognises, the config keys that bind listeners to them, and the settings
from which an engine is made. The key of an event is `on` and the capitalized name; any key that
starts with `on` is read back by the opposite step. Options are written as JSON text: one member,
two spaces of indent, an item a line, and `[]` for an empty list.
-/

namespace UiTree

structure EventSet where
  names : List String

namespace EventSet

def ofList (names : List String) : EventSet := ⟨names.eraseDups⟩

def usual : EventSet := ofList ["click", "mouseover"]

def contains (s : EventSet) (event : String) : Bool := s.names.contains event

def size (s : EventSet) : Nat := s.names.length

def isEmpty (s : EventSet) : Bool := s.names.isEmpty

def same (s t : EventSet) : Bool := s.names.all t.contains && t.names.all s.contains

def keyForEvent (event : String) : String := "on" ++ Text.capitalize event

def eventForKey? (s : EventSet) (key : String) : Option String :=
  match key.toList with
  | 'o' :: 'n' :: c :: rest =>
    let event := Text.decapitalize (String.ofList (c :: rest))
    if s.contains event then some event else none
  | _ => none

end EventSet

/-- The settings of an engine: the events it recognises, in the order they were given. -/
structure Options where
  events : List String
  deriving DecidableEq, Repr

namespace Options

def usual : Options := ⟨["click", "mouseover"]⟩

def eventSet (o : Options) : EventSet := EventSet.ofList o.events

def lowHex (n : Nat) : Char := "0123456789abcdef".toList.getD n '0'

def jsonChar : Char → List Char
  | '"' => ['\\', '"']
  | '\\' => ['\\', '\\']
  | '\x08' => ['\\', 'b']
  | '\t' => ['\\', 't']
  | '\n' => ['\\', 'n']
  | '\x0c' => ['\\', 'f']
  | '\r' => ['\\', 'r']
  | c =>
    if c.toNat < 0x20 then ['\\', 'u', '0', '0', lowHex (c.toNat / 16), lowHex (c.toNat % 16)]
    else [c]

def jsonString (s : String) : List Char := '"' :: s.toList.flatMap jsonChar ++ ['"']

def jsonItems : List String → List Char
  | [] => []
  | [s] => "\n    ".toList ++ jsonString s
  | s :: rest => "\n    ".toList ++ jsonString s ++ ',' :: jsonItems rest

def jsonList (items : List String) : List Char :=
  if items.isEmpty then "[]".toList else '[' :: jsonItems items ++ "\n  ]".toList

def json (o : Options) : List Char :=
  "\x7b\n  \"events\": ".toList ++ jsonList o.events ++ "\n\x7d".toList

def toJson (o : Options) : String := String.ofList o.json

end Options

end UiTree
