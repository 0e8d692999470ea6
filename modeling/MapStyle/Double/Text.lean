import MapStyle.Double.Basic

/-!
# Binary64 numbers as text

The decimals that a number is written as and read from, and how their digits are laid out.
-/

namespace MapStyle

/-!
## Decimals

A decimal is a natural number of digits times a power of ten.  Reading one as a binary64 number
rounds its exact value once.  Writing one goes to the coarsest decimal grid that has a point
which reads back, and takes the nearest such point: no decimal with fewer digits reads back, and
none with as many lies closer.
-/

/-- A natural number of digits, scaled by a power of ten. -/
structure Decimal where
  digits : Nat
  exponent : Int
  deriving DecidableEq

namespace Decimal

/--
The binary64 number nearest to a signed decimal.  Decimals so large or so small that the answer
is plain are settled without forming the power of ten.
-/
def toDouble (negative : Bool) (decimal : Decimal) : Double :=
  let ten : Nat := 10
  let places : Int := decimal.digits.log2 / 3 + 1
  if decimal.digits = 0 ∨ decimal.exponent + places < -330 then .finite (.zero negative)
  else if 310 < decimal.exponent then .infinite negative
  else
    let units := decimal.digits * Magnitude.one
    if 0 ≤ decimal.exponent then
      .rounded negative (units * ten ^ decimal.exponent.toNat) 1
    else .rounded negative units (ten ^ decimal.exponent.natAbs)

/-- The same decimal without trailing zeros; the fuel bounds their number. -/
def trim : Nat → Decimal → Decimal
  | 0, decimal => decimal
  | fuel + 1, decimal =>
      if decimal.digits ≠ 0 ∧ decimal.digits % 10 = 0 then
        trim fuel ⟨decimal.digits / 10, decimal.exponent + 1⟩
      else decimal

def text (decimal : Decimal) : String := toString decimal.digits

end Decimal

namespace Shortest

/-- The magnitudes that read back as a given one, in quarters of a unit. -/
structure Interval where
  low : Nat
  high : Nat
  closed : Bool

/--
The interval of magnitudes that round to `units`: half the distance to each neighbour, the one
below being nearer at a power of two.  The ends belong to it when the significand is even.
-/
def Interval.around (units : Nat) : Interval :=
  let step := Magnitude.spacing units
  let below := if units = 2 ^ 52 * step ∧ 1 < step then step else 2 * step
  ⟨4 * units - below, 4 * units + 2 * step, units / step % 2 == 0⟩

def Interval.holds (interval : Interval) (numerator denominator : Nat) : Bool :=
  if interval.closed then
    interval.low * denominator ≤ numerator && numerator ≤ interval.high * denominator
  else interval.low * denominator < numerator && numerator < interval.high * denominator

/-- A power of ten as a quotient, measured in quarters of a unit. -/
def gridStep (exponent : Int) : Nat × Nat :=
  let one := 4 * Magnitude.one
  let ten : Nat := 10
  if 0 ≤ exponent then (one * ten ^ exponent.toNat, 1) else (one, ten ^ exponent.natAbs)

/--
The point of one decimal grid that is nearest to `units` among those that read back; of two that
are equally near, the one with the even last digit.
-/
def onGrid? (units : Nat) (interval : Interval) (exponent : Int) : Option Decimal :=
  let (step, denominator) := gridStep exponent
  let target := 4 * units * denominator
  let below := target / step
  let above := below + 1
  let holdsBelow := below ≠ 0 ∧ interval.holds (below * step) denominator
  let holdsAbove := interval.holds (above * step) denominator
  let nearerBelow :=
    let down := target - below * step
    let up := above * step - target
    down < up ∨ (down = up ∧ below % 2 = 0)
  if holdsBelow ∧ (nearerBelow ∨ ¬ holdsAbove) then some ⟨below, exponent⟩
  else if holdsAbove then some ⟨above, exponent⟩
  else none

/--
The first hit on ever finer grids.  Below the last grid nothing needs to be searched: there every
magnitude is a point of the grid itself.
-/
def search (units : Nat) (interval : Interval) : Nat → Decimal
  | 0 => ⟨units * 5 ^ 1074, -1074⟩
  | fuel + 1 =>
      match onGrid? units interval ((fuel : Int) + 1 - 1074) with
      | some decimal => decimal
      | none => search units interval fuel

/-- A power of ten above every magnitude of as many bits, counted from `10 ^ -1074`. -/
def coarsest (units : Nat) : Nat :=
  let bits : Int := units.log2 + 1 - 1074
  (bits * 30103 / 100000 + 2 + 1074).toNat

/-- The shortest decimal that reads back as a magnitude, and the nearest such. -/
def decimal (units : Nat) : Decimal :=
  if units = 0 then ⟨0, 0⟩
  else (search units (.around units) (coarsest units)).trim 400

end Shortest

/-!
## The text of a binary64 number

A finite number is written with the fewest digits that read back.  Whether they are placed
around a point or followed by an exponent depends on the exponent of the leading digit alone.
Reading accepts an optional sign, then a word for infinity or for no number at all, or digits
with an optional point and an optional exponent.
-/

/-- The exponents of a leading digit between which a number is written without an exponent. -/
structure DecimalLayout where
  lowest : Int
  highest : Int

/-- Numbers from `1e-5` up to, but not including, `1e16` are written without an exponent. -/
def DecimalLayout.standard : DecimalLayout := ⟨-5, 15⟩

namespace DecimalLayout

def zeros (count : Nat) : String := String.ofList (List.replicate count '0')

def plain (digits : List Char) (leading : Int) : String :=
  if leading < 0 then "0." ++ zeros (leading.natAbs - 1) ++ String.ofList digits
  else
    let whole := leading.toNat + 1
    if digits.length ≤ whole then
      String.ofList digits ++ zeros (whole - digits.length) ++ ".0"
    else String.ofList (digits.take whole) ++ "." ++ String.ofList (digits.drop whole)

/-- The leading digit, then the others behind a point, then the exponent with its sign. -/
def scientific (digits : List Char) (leading : Int) : String :=
  let fraction := String.ofList (digits.drop 1)
  let significand := String.ofList (digits.take 1) ++ if fraction = "" then "" else "." ++ fraction
  significand ++ (if leading < 0 then "e-" else "e+") ++ toString leading.natAbs

def write (layout : DecimalLayout) (decimal : Decimal) : String :=
  let digits := (toString decimal.digits).toList
  let leading : Int := decimal.exponent + digits.length - 1
  if layout.lowest ≤ leading ∧ leading ≤ layout.highest then plain digits leading
  else scientific digits leading

end DecimalLayout

def FiniteDouble.text (x : FiniteDouble) : String :=
  (if x.negative then "-" else "") ++ DecimalLayout.standard.write (Shortest.decimal x.units)

namespace Decimal

def ofDigits (digits : List Char) : Nat :=
  digits.foldl (fun number digit => 10 * number + (digit.toNat - '0'.toNat)) 0

/-- An optional sign: is it a minus, and what follows it? -/
def takeSign : List Char → Bool × List Char
  | '-' :: rest => (true, rest)
  | '+' :: rest => (false, rest)
  | text => (false, text)

def ofParts (whole fraction : List Char) (exponent : Int) : Decimal :=
  ⟨ofDigits (whole ++ fraction), exponent - fraction.length⟩

/--
The exponent at the end of a text: nothing at all, or a letter `e` of either case, an optional
sign and at least one digit.
-/
def exponent? : List Char → Option Int
  | [] => some 0
  | mark :: rest =>
      let (negative, digits) := takeSign rest
      if mark.toLower = 'e' ∧ digits ≠ [] ∧ digits.all Char.isDigit then
        some (if negative then -(ofDigits digits : Int) else ofDigits digits)
      else none

/-- A decimal without sign: a digit on at least one side of the point, which may be absent. -/
def unsigned? (text : List Char) : Option Decimal :=
  let (whole, afterWhole) := text.span Char.isDigit
  let (fraction, tail) :=
    match afterWhole with
    | '.' :: rest => rest.span Char.isDigit
    | rest => ([], rest)
  if whole = [] ∧ fraction = [] then none
  else (exponent? tail).map (ofParts whole fraction)

end Decimal

namespace Double

def text : Double → String
  | .finite x => x.text
  | .infinite negative => if negative then "-inf" else "inf"
  | .nan => "NaN"

def ofText? (text : String) : Option Double :=
  let (negative, rest) := Decimal.takeSign text.toList
  match String.ofList (rest.map Char.toLower) with
  | "inf" | "infinity" => some (.infinite negative)
  | "nan" => some .nan
  | _ => (Decimal.unsigned? rest).map (Decimal.toDouble negative)

example : ofText? "1e16" = some (ofInt (10 ^ 16)) := by decide +kernel

example : (ofInt (10 ^ 16)).text = "1e+16" := by decide +kernel

example : (ofInt (10 ^ 15)).text = "1000000000000000.0" := by decide +kernel

example : (ofText? "-.1e-4").map text = some "-0.00001" := by decide +kernel

example : (ofText? "0.000001").map text = some "1e-6" := by decide +kernel

example : (ofText? "5e-324").map text = some "5e-324" := by decide +kernel

example : (ofText? "-0").map text = some "-0.0" := by decide +kernel

end Double

end MapStyle
