import UiTree.Options
set_option autoImplicit false

/-!
JSON values and the texts that stand for them. A value has many texts: blanks may stand between any
two tokens, and a character of a string may be written plainly or by any of its escapes. A number is
its own digits, since nothing here depends on how large it is.
-/

namespace UiTree.Options

structure Digits where
  first : Fin 10
  rest : List (Fin 10)

/-- What stands before the point. No digit follows a leading zero. -/
inductive Whole where
  | zero
  | more (less : Fin 9) (rest : List (Fin 10))

structure Exponent where
  capital : Bool
  sign : Option Bool
  digits : Digits

structure Numeral where
  negative : Bool
  whole : Whole
  fraction : Option Digits
  exponent : Option Exponent

def digitChars (ds : List (Fin 10)) : List Char := ds.map fun d => Nat.digitChar d.1

def Digits.chars (d : Digits) : List Char := digitChars (d.first :: d.rest)

def Whole.chars : Whole → List Char
  | .zero => ['0']
  | .more less rest => Nat.digitChar (less + 1) :: digitChars rest

def Exponent.chars (e : Exponent) : List Char :=
  (if e.capital then 'E' else 'e') :: (e.sign.toList.map fun minus => if minus then '-' else '+') ++
    e.digits.chars

def Numeral.chars (n : Numeral) : List Char :=
  (if n.negative then ['-'] else []) ++
    (n.whole.chars ++
      ((n.fraction.elim [] fun d => '.' :: d.chars) ++ n.exponent.elim [] Exponent.chars))

inductive Json where
  | null
  | bool (b : Bool)
  | number (n : Numeral)
  | string (s : String)
  | list (items : List Json)
  | object (members : List (String × Json))

def IsHex (x : Char) (d : Nat) : Prop := d < 16 ∧ (x = lowHex d ∨ x = (lowHex d).toUpper)

inductive Hex4 : Nat → List Char → Prop where
  | mk {w x y z : Char} {a b c d : Nat} (hw : IsHex w a) (hx : IsHex x b) (hy : IsHex y c)
      (hz : IsHex z d) : Hex4 (((a * 16 + b) * 16 + c) * 16 + d) [w, x, y, z]

def shortEscapes : List (Char × Char) :=
  [('"', '"'), ('\\', '\\'), ('/', '/'), ('b', '\x08'), ('f', '\x0c'), ('n', '\n'), ('r', '\r'),
    ('t', '\t')]

/-- The ways to write a character of a string. One beyond 16 bits has an escape of two halves. -/
inductive SpellsChar : Char → List Char → Prop where
  | plain {c : Char} (hquote : c ≠ '"') (hslash : c ≠ '\\') (hlow : 0x20 ≤ c.toNat) :
      SpellsChar c [c]
  | short {x c : Char} (h : (x, c) ∈ shortEscapes) : SpellsChar c ['\\', x]
  | unit {c : Char} {digits : List Char} (h : Hex4 c.toNat digits) :
      SpellsChar c ('\\' :: 'u' :: digits)
  | halves {c : Char} {high low : Nat} {digits digits' : List Char} (hhigh : 0xD800 ≤ high ∧
      high < 0xDC00) (hlow : 0xDC00 ≤ low ∧ low < 0xE000)
      (hc : c.toNat = 0x10000 + (high - 0xD800) * 0x400 + (low - 0xDC00))
      (h : Hex4 high digits) (h' : Hex4 low digits') :
      SpellsChar c ('\\' :: 'u' :: digits ++ '\\' :: 'u' :: digits')

inductive Spells : List Char → List Char → Prop where
  | nil : Spells [] []
  | cons {c : Char} {cs xs ys : List Char} (hc : SpellsChar c xs) (hcs : Spells cs ys) :
      Spells (c :: cs) (xs ++ ys)

inductive Quotes : String → List Char → Prop where
  | mk {s : String} {body : List Char} (h : Spells s.toList body) : Quotes s ('"' :: body ++ ['"'])

def Blank (cs : List Char) : Prop := cs ⊆ [' ', '\t', '\n', '\r']

instance (cs : List Char) : Decidable (Blank cs) :=
  inferInstanceAs (Decidable (cs ⊆ [' ', '\t', '\n', '\r']))

mutual

/-- The text stands for the value, with no blanks around. -/
inductive Writes : Json → List Char → Prop where
  | null : Writes .null "null".toList
  | bool (b : Bool) : Writes (.bool b) (if b then "true".toList else "false".toList)
  | number (n : Numeral) : Writes (.number n) n.chars
  | string {s : String} {cs : List Char} (h : Quotes s cs) : Writes (.string s) cs
  | noItems {b : List Char} (hb : Blank b) : Writes (.list []) ('[' :: b ++ [']'])
  | items {vs : List Json} {cs : List Char} (h : WritesItems vs cs) :
      Writes (.list vs) ('[' :: cs ++ [']'])
  | noMembers {b : List Char} (hb : Blank b) : Writes (.object []) ('\x7b' :: b ++ ['\x7d'])
  | members {ms : List (String × Json)} {cs : List Char} (h : WritesMembers ms cs) :
      Writes (.object ms) ('\x7b' :: cs ++ ['\x7d'])

inductive Padded : Json → List Char → Prop where
  | mk {b b' cs : List Char} {v : Json} (hb : Blank b) (hv : Writes v cs) (hb' : Blank b') :
      Padded v (b ++ cs ++ b')

inductive WritesItems : List Json → List Char → Prop where
  | last {v : Json} {cs : List Char} (hv : Padded v cs) : WritesItems [v] cs
  | more {v : Json} {vs : List Json} {cs ds : List Char} (hv : Padded v cs)
      (hvs : WritesItems vs ds) : WritesItems (v :: vs) (cs ++ ',' :: ds)

inductive WritesMember : String × Json → List Char → Prop where
  | mk {b b' ks cs : List Char} {k : String} {v : Json} (hb : Blank b) (hk : Quotes k ks)
      (hb' : Blank b') (hv : Padded v cs) : WritesMember (k, v) (b ++ ks ++ b' ++ [':'] ++ cs)

inductive WritesMembers : List (String × Json) → List Char → Prop where
  | last {m : String × Json} {cs : List Char} (hm : WritesMember m cs) : WritesMembers [m] cs
  | more {m : String × Json} {ms : List (String × Json)} {cs ds : List Char}
      (hm : WritesMember m cs) (hms : WritesMembers ms ds) :
      WritesMembers (m :: ms) (cs ++ ',' :: ds)

end

end UiTree.Options
