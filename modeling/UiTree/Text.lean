import UiTree.Text.CaseTable
import UiTree.Text.Hidden
set_option autoImplicit false

/-!
Texts: the case of the first letter, the escapes of markup, and quoted text for readers of
descriptions. A letter may have a form of several characters, and the rest of the text is kept as
it is. Markup escapes the three characters that could start or end a tag or an entity; attribute
values also escape the quote that would end them.
-/

namespace UiTree.Text

/-- The listed form of a letter if it has one, else the form its run gives, else the letter
itself. -/
def caseForm (expansions : List (Nat × List Nat)) (runs : List CaseRun) (c : Char) : List Char :=
  match expansions.lookup c.toNat with
  | some form => form.map Char.ofNat
  | none => match runs.findSome? (·.form? c.toNat) with
    | some image => [Char.ofNat image]
    | none => [c]

def upperForm (c : Char) : List Char := caseForm upperExpansions upperRuns c

def lowerForm (c : Char) : List Char := caseForm lowerExpansions lowerRuns c

def mapFirst (form : Char → List Char) : List Char → List Char
  | [] => []
  | c :: rest => form c ++ rest

def capitalize (s : String) : String := String.ofList (mapFirst upperForm s.toList)

def decapitalize (s : String) : String := String.ofList (mapFirst lowerForm s.toList)

def escapeTextChar : Char → List Char
  | '&' => "&amp;".toList
  | '<' => "&lt;".toList
  | '>' => "&gt;".toList
  | c => [c]

def escapeText (s : List Char) : List Char := s.flatMap escapeTextChar

def escapeQuote : Char → List Char
  | '"' => "&quot;".toList
  | c => [c]

def escapeAttribute (s : List Char) : List Char := (escapeText s).flatMap escapeQuote

def hexDigits (n : Nat) : List Char := Nat.toDigits 16 n

def quotedChar : Char → List Char
  | '\x00' => ['\\', '0']
  | '\t' => ['\\', 't']
  | '\r' => ['\\', 'r']
  | '\n' => ['\\', 'n']
  | '"' => ['\\', '"']
  | '\\' => ['\\', '\\']
  | c => if isHidden c then "\\u\x7b".toList ++ hexDigits c.toNat ++ ['\x7d'] else [c]

def quoted (s : String) : String :=
  String.ofList ('"' :: s.toList.flatMap quotedChar ++ ['"'])

def bracketed (items : List String) : String := "[" ++ ", ".intercalate items ++ "]"

end UiTree.Text
