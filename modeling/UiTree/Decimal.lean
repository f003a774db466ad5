set_option autoImplicit false

/-!
Numbers of 64 bits in the binary interchange format, and their text. All arithmetic is on natural
numbers, so nothing here rounds unless it says so. The digits of a text are the fewest that still
name one binary number: of the decimals with that many digits that round to the number, the nearest
is taken, and of two equally near the larger. A layout says which magnitudes are written with a
plain point and whether whole numbers keep a fraction.
-/

namespace UiTree.Decimal

structure Binary64 where
  bits : UInt64
  deriving DecidableEq, Repr, Inhabited

namespace Binary64

def negative (x : Binary64) : Bool := x.bits.toNat / Nat.pow 2 63 % 2 == 1

def exponentField (x : Binary64) : Nat := x.bits.toNat / Nat.pow 2 52 % Nat.pow 2 11

def fractionField (x : Binary64) : Nat := x.bits.toNat % Nat.pow 2 52

def isNaN (x : Binary64) : Bool := x.exponentField == 2047 && x.fractionField != 0

def isInfinite (x : Binary64) : Bool := x.exponentField == 2047 && x.fractionField == 0

def mantissa (x : Binary64) : Nat :=
  if x.exponentField = 0 then x.fractionField else x.fractionField + Nat.pow 2 52

def scale (x : Binary64) : Nat := max x.exponentField 1

/-- The nearest number of at most 53 significant bits; a tie goes to the even one. -/
def nearest (n : Nat) : Nat :=
  let shift := n.log2 - 52
  let unit := Nat.pow 2 shift
  let below := n / unit
  let rest := n % unit
  if rest * 2 > unit || (rest * 2 == unit && below % 2 == 1) then (below + 1) * unit
  else below * unit

def ofInt (i : Int) : Binary64 :=
  let n := nearest i.natAbs
  if n = 0 then ⟨0⟩
  else
    let e := n.log2
    let fraction := n * Nat.pow 2 52 / Nat.pow 2 e - Nat.pow 2 52
    let sign := if i < 0 then Nat.pow 2 63 else 0
    ⟨UInt64.ofNat (sign + (e + 1023) * Nat.pow 2 52 + fraction)⟩

end Binary64

/-- The decimal `0.d₁d₂… · 10 ^ point`. -/
structure Digits where
  digits : List Nat
  point : Int
  deriving DecidableEq, Repr

/-- The reals `num / den` that round to one binary number, with the number itself between them. -/
structure Interval where
  low : Nat
  value : Nat
  high : Nat
  den : Nat
  closed : Bool

def Interval.has (r : Interval) (num den : Nat) : Bool :=
  let a := num * r.den
  if r.closed then r.low * den ≤ a && a ≤ r.high * den else r.low * den < a && a < r.high * den

/-- Numbers are spaced evenly around `x`, except that below a power of two the spacing halves. -/
def Binary64.interval (x : Binary64) : Interval :=
  let m := x.mantissa
  let up := Nat.pow 2 (x.scale - 1077)
  let down := Nat.pow 2 (1077 - x.scale)
  let gap := if x.fractionField = 0 && x.exponentField > 1 then 1 else 2
  ⟨(4 * m - gap) * up, 4 * m * up, (4 * m + 2) * up, down, m % 2 == 0⟩

def Interval.magnitude (r : Interval) : Int :=
  if r.den ≤ r.value then (Nat.toDigits 10 (r.value / r.den)).length
  else 1 - ((Nat.toDigits 10 ((r.den - 1) / r.value)).length : Int)

/-- The candidate of `n` digits: the neighbour of the value on the grid of `n` digits that rounds to
it. -/
def Interval.candidate? (r : Interval) (n : Nat) : Option Nat :=
  let place := r.magnitude - n
  let up := Nat.pow 10 place.toNat
  let down := Nat.pow 10 (-place).toNat
  let below := r.value * down / (r.den * up)
  let rest := r.value * down % (r.den * up)
  let lower := r.has (below * up) down
  let upper := r.has ((below + 1) * up) down
  if upper && (!lower || rest * 2 ≥ r.den * up) then some (below + 1)
  else if lower then some below
  else none

def digitsOf (n : Nat) : List Nat := (Nat.toDigits 10 n).map fun c => c.toNat - '0'.toNat

def stripZeros (ds : List Nat) : List Nat := (ds.reverse.dropWhile (· == 0)).reverse

def Interval.written (r : Interval) (n d : Nat) : Digits :=
  let ds := digitsOf d
  ⟨stripZeros ds, r.magnitude - n + ds.length⟩

/-- Tries one digit, two digits, and so on; seventeen always suffice. -/
def Interval.search (r : Interval) : Nat → Nat → Digits
  | 0, n => r.written n (r.value / r.den)
  | tries + 1, n => match r.candidate? n with
    | some d => r.written n d
    | none => r.search tries (n + 1)

def Binary64.shortest (x : Binary64) : Digits := x.interval.search 17 1

structure Layout where
  -- The places of the leading digit that are written without an exponent.
  positional : Int → Bool
  wholeFraction : String

/-- The text of a value: no exponent at any magnitude, and whole numbers without a fraction. -/
def Layout.plain : Layout := ⟨fun _ => true, ""⟩

/-- The text in a description: exponents below `10 ^ -4` and from `10 ^ 16` on, and whole numbers
with `.0`. -/
def Layout.described : Layout := ⟨fun place => -4 ≤ place && place < 16, ".0"⟩

def digitText (ds : List Nat) : String := String.join (ds.map Nat.repr)

def zeros (n : Nat) : String := "".pushn '0' n

def Digits.positional (d : Digits) (layout : Layout) : String :=
  if d.point ≤ 0 then "0." ++ zeros (-d.point).toNat ++ digitText d.digits
  else
    let whole := d.point.toNat
    if d.digits.length ≤ whole then
      digitText d.digits ++ zeros (whole - d.digits.length) ++ layout.wholeFraction
    else digitText (d.digits.take whole) ++ "." ++ digitText (d.digits.drop whole)

def Digits.scientific (d : Digits) : String :=
  let fraction := d.digits.drop 1
  digitText (d.digits.take 1) ++ (if fraction.isEmpty then "" else "." ++ digitText fraction)
    ++ "e" ++ toString (d.point - 1)

def Binary64.text (x : Binary64) (layout : Layout) : String :=
  if x.isNaN then "NaN"
  else
    let sign := if x.negative then "-" else ""
    if x.isInfinite then sign ++ "inf"
    else if x.mantissa = 0 then sign ++ "0" ++ layout.wholeFraction
    else
      let d := x.shortest
      sign ++ if layout.positional (d.point - 1) then d.positional layout else d.scientific

end UiTree.Decimal
