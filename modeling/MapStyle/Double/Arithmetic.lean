import MapStyle.Double.Basic

/-!
# Binary64 arithmetic

Each operation on finite numbers forms its exact result as a quotient of natural numbers and
rounds once.  The sign of an exact zero follows the usual rules: a sum of opposite numbers is
zero, a product or quotient is negative when exactly one operand is, and rounding to a whole
number keeps the sign of its operand.
-/

namespace MapStyle

namespace Double

def add : Double → Double → Double
  | .finite x, .finite y =>
      let sum := x.value + y.value
      if sum = 0 then .finite (.zero (x.negative && y.negative))
      else rounded (sum < 0) sum.natAbs 1
  | .infinite negative, .infinite other => if negative = other then .infinite negative else .nan
  | .infinite negative, .finite _ => .infinite negative
  | .finite _, .infinite negative => .infinite negative
  | _, _ => .nan

def sub (x y : Double) : Double := add x y.neg

def mul : Double → Double → Double
  | .finite x, .finite y =>
      rounded (x.negative != y.negative) (x.units * y.units) Magnitude.one
  | .infinite negative, .infinite other => .infinite (negative != other)
  | .infinite negative, .finite y =>
      if y.units = 0 then .nan else .infinite (negative != y.negative)
  | .finite x, .infinite negative =>
      if x.units = 0 then .nan else .infinite (x.negative != negative)
  | _, _ => .nan

def div : Double → Double → Double
  | .finite x, .finite y =>
      let negative := x.negative != y.negative
      if y.units = 0 then if x.units = 0 then .nan else .infinite negative
      else rounded negative (x.units * Magnitude.one) y.units
  | .infinite negative, .finite y => .infinite (negative != y.negative)
  | .finite x, .infinite negative => .finite (.zero (x.negative != negative))
  | _, _ => .nan

/-- The remainder of a division whose quotient is cut towards zero; it has the dividend's sign. -/
def rem : Double → Double → Double
  | .finite x, .finite y =>
      if y.units = 0 then .nan else rounded x.negative (x.units % y.units) 1
  | .finite x, .infinite _ => .finite x
  | _, _ => .nan

/-- A finite number rounded to a whole one by a rule on its magnitude; the sign is kept. -/
def integralBy (rule : Bool → Nat → Nat) : Double → Double
  | .finite x => rounded x.negative (rule x.negative x.units * Magnitude.one) 1
  | x => x

def magnitudeCeil (units : Nat) : Nat := (units + (Magnitude.one - 1)) / Magnitude.one

def floor : Double → Double :=
  integralBy fun negative units =>
    if negative then magnitudeCeil units else units / Magnitude.one

def ceil : Double → Double :=
  integralBy fun negative units =>
    if negative then units / Magnitude.one else magnitudeCeil units

/-- The nearest whole number, a half going away from zero. -/
def round : Double → Double :=
  integralBy fun _ units => (units + Magnitude.one / 2) / Magnitude.one

/-- The whole number left when the fraction is dropped, held within 64 signed bits. -/
def toInt64 : Double → Int
  | .finite x => Max.max (-(2 ^ 63)) (Min.min (2 ^ 63 - 1) x.truncated)
  | .infinite negative => if negative then -(2 ^ 63) else 2 ^ 63 - 1
  | .nan => 0

def isIntegral : Double → Bool
  | .finite x => x.isIntegral
  | _ => false

/-- The whole part of a square root, one binary digit of it for each unit of fuel. -/
def floorSqrt : Nat → Nat → Nat
  | 0, _ => 0
  | fuel + 1, square =>
      let root := 2 * floorSqrt fuel (square / 4)
      if (root + 1) * (root + 1) ≤ square then root + 1 else root

def sqrt : Double → Double
  | .finite x =>
      if x.units = 0 then .finite x
      else if x.negative then .nan
      else
        let square := x.units * Magnitude.one
        let root := floorSqrt (square.log2 / 2 + 1) square
        rounded false (2 * root + if root * root = square then 0 else 1) 2
  | .infinite false => .infinite false
  | _ => .nan

instance : Neg Double := ⟨neg⟩

instance : Add Double := ⟨add⟩

instance : Sub Double := ⟨sub⟩

instance : Mul Double := ⟨mul⟩

instance : Div Double := ⟨div⟩

instance (whole : Nat) : OfNat Double whole := ⟨ofInt whole⟩

/-!
## Elementary functions

Powers, logarithms and the functions of an angle are taken from the machine, whose numbers have
the same binary64 values; a word of 64 bits carries a number there and back.  Two powers need
no table: the power zero of anything, and any power of one, are one.
-/

/-- The 63 low bits of a magnitude's word: exponent and fraction together. -/
def magnitudeBits (units : Nat) : Nat :=
  let exponent := units.log2 - 52
  exponent * 2 ^ 52 + units / 2 ^ exponent

def toBits (x : Double) : UInt64 :=
  let magnitude : Nat :=
    match x with
    | .finite x => magnitudeBits x.units
    | .infinite _ => 2047 * 2 ^ 52
    | .nan => 2047 * 2 ^ 52 + 2 ^ 51
  UInt64.ofNat (if x.isNegative then 2 ^ 63 + magnitude else magnitude)

def ofBits (word : UInt64) : Double :=
  let negative := 2 ^ 63 ≤ word.toNat
  let exponent := word.toNat / 2 ^ 52 % 2 ^ 11
  let fraction := word.toNat % 2 ^ 52
  if exponent = 2047 then if fraction = 0 then .infinite negative else .nan
  else if exponent = 0 then rounded negative fraction 1
  else rounded negative ((2 ^ 52 + fraction) * 2 ^ (exponent - 1)) 1

/-- A function of the machine's numbers, as a function of numbers. -/
def onMachine (function : Float → Float) (x : Double) : Double :=
  ofBits (function (Float.ofBits x.toBits)).toBits

def sin : Double → Double := onMachine Float.sin

def cos : Double → Double := onMachine Float.cos

def tan : Double → Double := onMachine Float.tan

def asin : Double → Double := onMachine Float.asin

def acos : Double → Double := onMachine Float.acos

def atan : Double → Double := onMachine Float.atan

def ln : Double → Double := onMachine Float.log

def log2 : Double → Double := onMachine Float.log2

def log10 : Double → Double := onMachine Float.log10

def pow (base exponent : Double) : Double :=
  if eq exponent zero || eq base one then one
  else ofBits (Float.pow (Float.ofBits base.toBits) (Float.ofBits exponent.toBits)).toBits

/-- The power zero of any number is one. -/
theorem pow_zero (base : Double) : pow base zero = one := by
  have same : eq zero zero = true := by simp [zero]
  simp [pow, same]

/-- Any power of one is one. -/
theorem one_pow (exponent : Double) : pow one exponent = one := by
  unfold pow
  split
  · rfl
  · rename_i different
    have same : eq one one = true := by
      unfold one ofInt rounded
      split
      · simp
      · simp [eq, compare?]
    simp [same] at different

end Double

end MapStyle
