import UiTree.Decimal
set_option autoImplicit false

/-!
The words, strings and numbers of JSON text, each read one character at a time. A reader either
wants more, is finished by the character, or refuses it; a number alone is ended by a character that
is not its own.
-/

namespace UiTree.Options

/-- Why a text is refused: it ends too early, it is not JSON at some point, or it is but of another
form. -/
inductive Refusal where
  | truncated
  | malformed
  | mistyped
  deriving DecidableEq, Repr

def Refusal.category : Refusal → String
  | .truncated => "eof"
  | .malformed => "syntax"
  | .mistyped => "data"

def isBlank (c : Char) : Bool := c == ' ' || c == '\t' || c == '\n' || c == '\r'

def digit? (c : Char) : Option Nat := if '0' ≤ c ∧ c ≤ '9' then some (c.toNat - '0'.toNat) else none

def hexDigit? (c : Char) : Option Nat :=
  if '0' ≤ c ∧ c ≤ '9' then some (c.toNat - '0'.toNat)
  else if 'a' ≤ c ∧ c ≤ 'f' then some (c.toNat - 'a'.toNat + 10)
  else if 'A' ≤ c ∧ c ≤ 'F' then some (c.toNat - 'A'.toNat + 10)
  else none

/-- What a character does to a lexeme: `over` means that it closes the lexeme as its last
character. -/
inductive Progress (σ α : Type) where
  | more (state : σ)
  | over (result : α)

/-- The place inside a string. In `hex`, `bytes` counts what has been read of the four bytes after
the mark, and `value` is lost at the first that is no digit; `high` is a first half that waits for
its second. -/
inductive StringPart where
  | plain
  | escape
  | hex (high : Option Nat) (bytes : Nat) (value : Option Nat)
  | halfDone (high : Nat)
  | halfMark (high : Nat)
  deriving DecidableEq, Repr

/-- A string under way, its characters so far in reverse. Escapes of surrogates have to pair only
where `paired` says so. -/
structure StringReader where
  paired : Bool
  text : List Char
  part : StringPart
  deriving DecidableEq, Repr

namespace StringReader

def opened (paired : Bool) : StringReader := ⟨paired, [], .plain⟩

def push (s : StringReader) (c : Char) : StringReader := ⟨s.paired, c :: s.text, .plain⟩

def named? : Char → Option Char
  | '"' => some '"'
  | '\\' => some '\\'
  | '/' => some '/'
  | 'b' => some '\x08'
  | 'f' => some '\x0c'
  | 'n' => some '\n'
  | 'r' => some '\r'
  | 't' => some '\t'
  | _ => none

def isHigh (n : Nat) : Bool := 0xD800 ≤ n && n ≤ 0xDBFF

def isLow (n : Nat) : Bool := 0xDC00 ≤ n && n ≤ 0xDFFF

def joined (high low : Nat) : Char := Char.ofNat ((high - 0xD800) * 1024 + (low - 0xDC00) + 0x10000)

def unit (s : StringReader) (high : Option Nat) (n : Nat) : Except Refusal StringReader :=
  match high with
  | some h => if isLow n then .ok (s.push (joined h n)) else .error .malformed
  | none =>
    if !s.paired then .ok (s.push (Char.ofNat n))
    else if isLow n then .error .malformed
    else if isHigh n then .ok { s with part := .halfDone n }
    else .ok (s.push (Char.ofNat n))

def step (s : StringReader) (c : Char) : Except Refusal (Progress StringReader String) :=
  match s.part with
  | .plain =>
    if c = '"' then .ok (.over (String.ofList s.text.reverse))
    else if c = '\\' then .ok (.more { s with part := .escape })
    else if c.toNat < 0x20 then .error .malformed
    else .ok (.more (s.push c))
  | .escape =>
    if c = 'u' then .ok (.more { s with part := .hex none 0 (some 0) })
    else match named? c with
      | some d => .ok (.more (s.push d))
      | none => .error .malformed
  | .hex high bytes value =>
    let value := do pure ((← value) * 16 + (← hexDigit? c))
    let bytes := bytes + c.utf8Size
    if bytes < 4 then .ok (.more { s with part := .hex high bytes value })
    else match value with
      | none => .error .malformed
      | some n => .more <$> s.unit high n
  | .halfDone high =>
    if c = '\\' then .ok (.more { s with part := .halfMark high }) else .error .malformed
  | .halfMark high =>
    if c = 'u' then .ok (.more { s with part := .hex (some high) 0 (some 0) }) else .error
      .malformed

end StringReader

inductive NumberPart where
  | sign
  | zero
  | whole
  | point
  | fraction
  | mark
  | markSign
  | exponent
  deriving DecidableEq, Repr

/-- A number under way. Its leading digits are kept as far as they fit in 64 bits: `significand · 10
^ scale`, times the power of ten that the exponent gives. -/
structure NumberReader where
  part : NumberPart
  significand : Nat
  full : Bool
  scale : Int
  exponent : Nat
  shrinking : Bool
  deriving DecidableEq, Repr

namespace NumberReader

def blank (part : NumberPart) : NumberReader := ⟨part, 0, false, 0, 0, false⟩

def fits (n : NumberReader) (d : Nat) : Bool := !n.full && n.significand * 10 + d < Nat.pow 2 64

def wholeDigit (n : NumberReader) (d : Nat) : NumberReader :=
  if n.fits d then { n with part := .whole, significand := n.significand * 10 + d }
  else { n with part := .whole, full := true, scale := n.scale + 1 }

def fractionDigit (n : NumberReader) (d : Nat) : NumberReader :=
  if n.fits d then
    { n with part := .fraction, significand := n.significand * 10 + d, scale := n.scale - 1 }
  else { n with part := .fraction, full := true }

def exponentDigit (n : NumberReader) (d : Nat) : NumberReader :=
  { n with part := .exponent, exponent := n.exponent * 10 + d }

def firstDigit (n : NumberReader) (d : Nat) : NumberReader :=
  if d = 0 then { n with part := .zero } else n.wholeDigit d

def complete (n : NumberReader) : Bool :=
  match n.part with
  | .zero | .whole | .fraction | .exponent => true
  | _ => false

def step (n : NumberReader) (c : Char) : Except Refusal (Option NumberReader) :=
  match n.part, digit? c with
  | .sign, some d => .ok (some (n.firstDigit d))
  | .zero, some _ => .error .malformed
  | .whole, some d => .ok (some (n.wholeDigit d))
  | .point, some d | .fraction, some d => .ok (some (n.fractionDigit d))
  | .mark, some d | .markSign, some d | .exponent, some d => .ok (some (n.exponentDigit d))
  | .zero, none | .whole, none =>
    if c = '.' then .ok (some { n with part := .point, full := false })
    else if c = 'e' ∨ c = 'E' then .ok (some { n with part := .mark })
    else .ok none
  | .fraction, none => if c = 'e' ∨ c = 'E' then .ok (some { n with part := .mark }) else .ok none
  | .mark, none =>
    if c = '+' then .ok (some { n with part := .markSign })
    else if c = '-' then .ok (some { n with part := .markSign, shrinking := true })
    else .error .malformed
  | .exponent, none => .ok none
  | .sign, none | .point, none | .markSign, none => .error .malformed

/-- Beyond the largest finite number of 64 bits, both factors being rounded before they are
multiplied. -/
def tooLarge (n : NumberReader) : Bool :=
  let power := if n.shrinking then n.scale - n.exponent else n.scale + n.exponent
  n.significand != 0 && 0 ≤ power && (308 < power ||
    Nat.pow 2 1024 - Nat.pow 2 970 ≤
      Decimal.Binary64.nearest n.significand * Decimal.Binary64.nearest (Nat.pow 10 power.toNat))

end NumberReader

def wordRest? : Char → Option (List Char)
  | 'n' => some ['u', 'l', 'l']
  | 't' => some ['r', 'u', 'e']
  | 'f' => some ['a', 'l', 's', 'e']
  | _ => none

def wordStep (rest : List Char) (c : Char) : Except Refusal (Progress (List Char) Unit) :=
  match rest with
  | [] => .error .malformed
  | x :: more =>
    if c ≠ x then .error .malformed else if more.isEmpty then .ok (.over ()) else .ok (.more more)

inductive Lexeme where
  | word (rest : List Char)
  | number (n : NumberReader)
  | text (s : StringReader)
  deriving DecidableEq, Repr

def Lexeme.start? (paired : Bool) (c : Char) : Option Lexeme :=
  match wordRest? c, digit? c with
  | some rest, _ => some (.word rest)
  | none, some d => some (.number ((NumberReader.blank .sign).firstDigit d))
  | none, none =>
    if c = '-' then some (.number (.blank .sign))
    else if c = '"' then some (.text (.opened paired))
    else none

end UiTree.Options
