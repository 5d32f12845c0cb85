/-! # The shortest decimal of a binary number

A finite number of the form `m · 2^q` is written with as few digits as read back to it: every real
in its rounding interval reads back to it, and the first decimal grid with a point in the interval
wins. All arithmetic is exact, on natural numbers. -/

namespace CommandShell.Decimal

/-- The power of two with this exponent; one if it is negative. -/
def twoTo (exponent : Int) : Nat := Nat.pow 2 exponent.toNat

/-- The power of ten with this exponent; one if it is negative. -/
def tenTo (exponent : Int) : Nat := Nat.pow 10 exponent.toNat

/-- A positive fraction of natural numbers. -/
structure Ratio where
  /-- The numerator. -/
  num : Nat
  /-- The denominator. -/
  den : Nat
deriving Repr

/-- The value `m · 2^q`, written as a fraction. -/
def Ratio.scaled (m : Nat) (q : Int) : Ratio := ⟨m * twoTo q, twoTo (-q)⟩

/-- Whether one fraction is below another. -/
def Ratio.lt (a b : Ratio) : Bool := decide (a.num * b.den < b.num * a.den)

/-- Whether one fraction is at most another. -/
def Ratio.le (a b : Ratio) : Bool := decide (a.num * b.den ≤ b.num * a.den)

/-- A positive binary number with its rounding interval: every real between `low` and `high` is
rounded to `value`, the ends themselves only if `closed`. -/
structure Rounded where
  /-- The number itself. -/
  value : Ratio
  /-- The lower end of the interval. -/
  low : Ratio
  /-- The upper end of the interval. -/
  high : Ratio
  /-- Whether the ends belong to the interval. -/
  closed : Bool

/-- Whether a fraction is rounded to the number. -/
def Rounded.contains (r : Rounded) (x : Ratio) : Bool :=
  if r.closed then r.low.le x && x.le r.high else r.low.lt x && x.lt r.high

/-- The number `m · 2^q` with its interval; the gap below is half as wide at a power of two. -/
def Rounded.of (m : Nat) (q : Int) (narrowBelow : Bool) : Rounded where
  value := .scaled m q
  low := if narrowBelow then .scaled (4 * m - 1) (q - 2) else .scaled (2 * m - 1) (q - 1)
  high := .scaled (2 * m + 1) (q - 1)
  closed := m % 2 == 0

/-- A decimal `digits · 10^exponent`. -/
structure Digits where
  /-- The digits, read as a number. -/
  digits : Nat
  /-- The power of ten of the last digit. -/
  exponent : Int
deriving Repr, DecidableEq

/-- The fraction that a decimal denotes. -/
def Digits.value (d : Digits) : Ratio :=
  ⟨d.digits * tenTo d.exponent, tenTo (-d.exponent)⟩

/-- The twofold distance of a fraction to a decimal grid point, scaled to compare two points. -/
def distance (x : Ratio) (d : Digits) : Nat :=
  let y := d.value
  let a := x.num * y.den
  let b := y.num * x.den
  (a - b) + (b - a)

/-- The point of the grid of step `10^exponent` to which the number is written: of the two
neighbours the one in the interval, of two such the nearer, of two equally near the even one. -/
def Rounded.onGrid (r : Rounded) (exponent : Int) : Option Digits :=
  let scaled := r.value.num * tenTo (-exponent) / (r.value.den * tenTo exponent)
  let below : Digits := ⟨scaled, exponent⟩
  let above : Digits := ⟨scaled + 1, exponent⟩
  match r.contains below.value, r.contains above.value with
  | true, true =>
    let toBelow := distance r.value below
    let toAbove := distance r.value above
    if toBelow < toAbove || (toBelow == toAbove && scaled % 2 == 0) then below else above
  | true, false => below
  | false, true => above
  | false, false => none

/-- The power of ten of the first digit: the greatest `e` with `10^e` at most the fraction, counted
up from `start`. -/
def leadingExponent (x : Ratio) : Nat → Int → Int
  | 0, e => e
  | fuel + 1, e => if (Digits.mk 1 (e + 1)).value.le x then leadingExponent x fuel (e + 1) else e

/-- The first hit on the grids with `n`, `n + 1`, … digits. -/
def Rounded.firstHit (r : Rounded) (first : Int) : Nat → Nat → Digits
  | 0, n => ⟨r.value.num * tenTo (n - 1 - first) / (r.value.den * tenTo (first + 1 - n)), first + 1 - n⟩
  | fuel + 1, n => (r.onGrid (first + 1 - n)).getD (r.firstHit first fuel (n + 1))

/-- A decimal without trailing zeros. -/
def Digits.trimmed : Nat → Digits → Digits
  | 0, d => d
  | fuel + 1, d =>
    if d.digits ≠ 0 ∧ d.digits % 10 = 0 then
      Digits.trimmed fuel ⟨d.digits / 10, d.exponent + 1⟩
    else d

/-! ## Double precision -/

/-- A double: a sign with a finite magnitude, an infinity, or no number. -/
inductive Double
  | finite (negative : Bool) (m : Nat) (q : Int)
  | infinite (negative : Bool)
  | notANumber
deriving Repr, DecidableEq

/-- The parts of a double in its 64 bits. -/
def Double.ofBits (bits : UInt64) : Double :=
  let n := bits.toNat
  let negative := n / twoTo 63 == 1
  let biased : Nat := n / twoTo 52 % twoTo 11
  let fraction : Nat := n % twoTo 52
  if biased = 2047 then if fraction = 0 then .infinite negative else .notANumber
  else if biased = 0 then .finite negative fraction (-1074)
  else .finite negative (twoTo 52 + fraction) ((biased : Int) - 1075)

/-- The shortest decimal that reads back to the double `m · 2^q`. -/
def shortest (m : Nat) (q : Int) : Digits :=
  if m = 0 then ⟨0, 0⟩
  else
    let r := Rounded.of m q (m == twoTo 52 && q != -1074)
    let first := leadingExponent r.value 700 (-330)
    Digits.trimmed 20 (r.firstHit first 17 1)

/-! ## Layout -/

/-- How a number is written out. -/
structure Layout where
  /-- The least power of ten of the first digit that is written positionally. -/
  least : Int
  /-- The greatest power of ten of the first digit that is written positionally. -/
  greatest : Int
  /-- What ends a positional number without a fraction. -/
  wholeMark : String
  /-- What separates the digits from their exponent. -/
  exponentMark : String
  /-- The least number of digits of the exponent. -/
  exponentWidth : Nat
  /-- The text of an infinity. -/
  infinity : String
  /-- The text of what is no number. -/
  notANumber : String

/-- Zeros on the left of a text up to a width. -/
def padded (width : Nat) (text : String) : String :=
  String.ofList (List.replicate (width - text.length) '0') ++ text

/-- A positive decimal in a layout. -/
def Layout.write (l : Layout) (d : Digits) : String :=
  let text := (toString d.digits).toList
  let first : Int := text.length - 1 + d.exponent
  if l.least ≤ first ∧ first ≤ l.greatest then
    if 0 ≤ d.exponent then
      String.ofList (text ++ List.replicate d.exponent.toNat '0') ++ l.wholeMark
    else if 0 ≤ first then
      String.ofList (text.take (first.toNat + 1) ++ '.' :: text.drop (first.toNat + 1))
    else
      "0." ++ String.ofList (List.replicate (-first - 1).toNat '0' ++ text)
  else
    let fraction := match text.drop 1 with
      | [] => ""
      | rest => "." ++ String.ofList rest
    let sign := if first < 0 then "-" else "+"
    String.ofList (text.take 1) ++ fraction ++ l.exponentMark ++ sign ++
      padded l.exponentWidth (toString first.natAbs)

/-- A double in a layout. -/
def Layout.double (l : Layout) : Double → String
  | .finite negative m q => (if negative then "-" else "") ++ l.write (shortest m q)
  | .infinite negative => (if negative then "-" else "") ++ l.infinity
  | .notANumber => l.notANumber

end CommandShell.Decimal
