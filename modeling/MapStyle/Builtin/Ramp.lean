import MapStyle.Builtin.Basic
import MapStyle.Double.Arithmetic
import MapStyle.Error
import MapStyle.Value.Basic

/-!
# Ramps

Curves, blends, and the two functions that are made of them.
-/

namespace MapStyle

/-!
## Interpolation curves

A curve says how far an output has moved from one stop to the next, given how far the input has.
In a document it is an array: a name and the parameters.  A cubic curve runs from the origin to
the point one, one with two control points between; its progress is the height above the
input's place on the horizontal axis.
-/

/-- A cubic from zero to one on one axis, by its coefficients. -/
structure Cubic where
  a : Double
  b : Double
  c : Double

namespace Cubic

def ofControls (first second : Double) : Cubic :=
  let c := 3 * first
  let b := 3 * (second - first) - c
  { a := 1 - c - b, b, c }

def sample (cubic : Cubic) (t : Double) : Double :=
  ((cubic.a * t + cubic.b) * t + cubic.c) * t

def slope (cubic : Cubic) (t : Double) : Double :=
  (3 * cubic.a * t + 2 * cubic.b) * t + cubic.c

/-- An error below this bound ends the search for a parameter. -/
def tolerance : Double := Decimal.toDouble false ⟨1, -6⟩

/-- Newton's method from a parameter: the parameter it settles on, if it does so in time. -/
def newton? (cubic : Cubic) (goal : Double) : Nat → Double → Option Double
  | 0, _ => none
  | fuel + 1, t =>
      let excess := cubic.sample t - goal
      if excess.abs.lt tolerance then some t
      else
        let slope := cubic.slope t
        if slope.abs.lt tolerance then none
        else newton? cubic goal fuel (t - excess / slope)

/--
Bisection of an interval.  Each step but the first halves it, so that it is narrower than the
tolerance long before the fuel is spent.
-/
def bisect (cubic : Cubic) (goal : Double) : Nat → Double → Double → Double → Double
  | 0, _, _, t => t
  | fuel + 1, low, high, t =>
      if low.lt high then
        let reached := cubic.sample t
        if (reached - goal).abs.lt tolerance then t
        else
          let low := if reached.lt goal then t else low
          let high := if reached.lt goal then high else t
          let middle := (high - low) * (1 / 2) + low
          if (high - low).lt tolerance then middle else bisect cubic goal fuel low high middle
      else t

/-- The parameter with a given value: Newton's method, and bisection where it stalls. -/
def parameterAt (cubic : Cubic) (goal : Double) : Double :=
  match newton? cubic goal 8 goal with
  | some t => t
  | none => bisect cubic goal 64 0 1 (goal.clamp 0 1)

end Cubic

/-- How an output moves between two stops. -/
inductive Curve where
  | linear
  | exponential (base : Double)
  | cubicBezier (x1 y1 x2 y2 : Double)
  deriving DecidableEq

namespace Curve

def ofValue? : Value → Option Curve
  | .array (.string name :: parameters) =>
      match name, parameters.mapM Value.toDouble? with
      | "linear", some [] => some .linear
      | "exponential", some [base] => some (.exponential base)
      | "cubic-bezier", some [x1, y1, x2, y2] => some (.cubicBezier x1 y1 x2 y2)
      | _, _ => none
  | _ => none

def toValue : Curve → Value
  | .linear => .array [.string "linear"]
  | .exponential base => .array [.string "exponential", .ofDouble base]
  | .cubicBezier x1 y1 x2 y2 =>
      .array [.string "cubic-bezier", .ofDouble x1, .ofDouble y1, .ofDouble x2, .ofDouble y2]

/-- How far an output has moved when the input stands between two stops. -/
def factor (curve : Curve) (input lower upper : Double) : Double :=
  let width := upper - lower
  let progress := input - lower
  if width.eq 0 then 0
  else
    match curve with
    | .linear => progress / width
    | .exponential base =>
        if base.eq 1 then progress / width
        else (base.pow progress - 1) / (base.pow width - 1)
    | .cubicBezier x1 y1 x2 y2 =>
        (Cubic.ofControls y1 y2).sample ((Cubic.ofControls x1 x2).parameterAt (progress / width))

end Curve

/-!
## Ramps

A ramp lists stops and their outputs.  A step takes the output of the last stop that the input
has reached; an interpolation blends the outputs of the two stops around the input, numbers
with numbers and arrays with arrays of the same length, item by item.
-/

namespace Ramp

def between (a b t : Double) : Double := a + (b - a) * t

def mismatch (position : Nat) (found : Kind) : Outcome :=
  .error (.invalidArgument "interpolate" position "a number or array of numbers" found.name)

mutual

/-- The value between two others; the position is that of the second one, for messages. -/
def blend (position : Nat) (t : Double) : Value → Value → Outcome
  | .number a, .number b => .ok (.ofDouble (between a.toDouble b.toDouble t))
  | .array xs, .array ys =>
      if xs.length = ys.length then (blendItems position t xs ys).map .array
      else mismatch position .array
  | .number _, b => mismatch position b.kind
  | .array _, b => mismatch position b.kind
  | a, _ => mismatch position a.kind

def blendItems (position : Nat) (t : Double) : List Value → List Value → Except Error (List Value)
  | x :: xs, y :: ys => do
      let item ← blend position t x y
      let items ← blendItems position t xs ys
      return item :: items
  | _, _ => .ok []

end

structure Knot (α : Type) where
  stop : Double
  output : α

/-- The neighbouring stops around an input, with the place of the lower one. -/
structure Segment (α : Type) where
  index : Nat
  lower : Knot α
  upper : Knot α

/-- The first segment whose upper stop is above the input. -/
def segment? {α : Type} (input : Double) (index : Nat) : List (Knot α) → Option (Segment α)
  | lower :: upper :: rest =>
      if input.lt upper.stop then some ⟨index, lower, upper⟩
      else segment? input (index + 1) (upper :: rest)
  | _ => none

end Ramp

/-!
## Ramps as functions

The arguments of a step are the input, the first output, and then stops with their outputs.
Those of an interpolation are the curve, the input, and stops with their outputs; an argument
left over at the end counts for nothing.  Only the outputs that take part in the answer matter.
-/

namespace Ramp

def stepFrom (input : Double) (current : Outcome) : Nat → List Outcome → Outcome
  | position, stop :: output :: rest => do
      let bound ← Operand.number Builtin.step.name position stop
      if input.lt bound then current else stepFrom input output (position + 2) rest
  | _, _ => current

def step (input first : Outcome) (rest : List Outcome) : Outcome := do
  let x ← Operand.number Builtin.step.name 0 input
  stepFrom x first 2 rest

def knots : Nat → List Outcome → Except Error (List (Knot Outcome))
  | position, stop :: output :: rest => do
      let bound ← Operand.number Builtin.interpolate.name position stop
      let others ← knots (position + 2) rest
      return ⟨bound, output⟩ :: others
  | _, _ => return []

def blendSegment (curve : Curve) (input : Double) (segment : Segment Outcome) : Outcome := do
  let t := curve.factor input segment.lower.stop segment.upper.stop
  let a ← segment.lower.output
  let b ← segment.upper.output
  blend (2 * segment.index + 5) t a b

/--
The output at an input: that of the first or the last stop beyond them, a blend in between.
Without a stop there is none.
-/
def outputAt? (curve : Curve) (input : Double) (knots : List (Knot Outcome)) : Option Outcome :=
  match knots.head?, knots.getLast? with
  | some first, some last =>
      if input.le first.stop then some first.output
      else if last.stop.le input then some last.output
      else (segment? input 0 knots).map (blendSegment curve input)
  | _, _ => none

def curveOf (argument : Outcome) : Except Error Curve := do
  let value ← argument
  match Curve.ofValue? value with
  | some curve => return curve
  | none =>
      throw (.invalidArgument Builtin.interpolate.name 0 "an interpolation type" value.kind.name)

def interpolate? (curve input : Outcome) (rest : List Outcome) : Option Outcome :=
  let parts : Except Error (Curve × Double × List (Knot Outcome)) := do
    let shape ← curveOf curve
    let x ← Operand.number Builtin.interpolate.name 1 input
    let stops ← knots 2 rest
    return (shape, x, stops)
  match parts with
  | .ok (shape, x, stops) => outputAt? shape x stops
  | .error cause => some (.error cause)

end Ramp

end MapStyle
