import MapStyle.Error
import MapStyle.Term.Evaluation

/-!
# Courses

A course is a computation that keeps a state and reads lists by position.  It may fail with a
cause, and leaves a state behind then, too.  Where it would read at or behind the end of a list,
take more from a count than there is, or go on with what a search has not found, it breaks off:
then there is neither a result nor a cause nor a state.
-/

namespace MapStyle

/-- The ways in which a course breaks off. -/
inductive Fault where
  /-- A position at or behind the end of a list of this length. -/
  | outOfRange (position length : Nat)
  /-- A count that more is taken from than there is. -/
  | underflow (whole part : Nat)
  /-- A search that has found nothing. -/
  | notFound
  deriving DecidableEq, Repr

/-- A computation that keeps a state, may fail with a cause and may break off. -/
abbrev Course (σ α : Type) := ExceptT Error (StateT σ (Except Fault)) α

namespace Course

variable {σ α : Type}

/-- The result of a course that begins in a state, and the state that it leaves behind. -/
def takeFrom (course : Course σ α) (state : σ) : Except Fault (Except Error α × σ) :=
  StateT.run (ExceptT.run course) state

def breakOff (fault : Fault) : Course σ α := ExceptT.mk fun _ => .error fault

def ask (question : σ → Except Error α) : Course σ α := do
  question (← get)

def itemAt (items : List α) (position : Nat) : Course σ α :=
  match items[position]? with
  | some item => return item
  | none => breakOff (.outOfRange position items.length)

/-- The items from a position on, which may be the end but has not to lie behind it. -/
def itemsFrom (items : List α) (position : Nat) : Course σ (List α) :=
  if position ≤ items.length then return items.drop position
  else breakOff (.outOfRange position items.length)

/-- A count from which another one is taken, which has not to be greater. -/
def minus (whole part : Nat) : Course σ Nat :=
  if part ≤ whole then return whole - part else breakOff (.underflow whole part)

def found : Option Nat → Course σ Nat
  | some position => return position
  | none => breakOff .notFound

/-- The results of a body for so many positions, counted up from one of them by a stride. -/
def collect (stride : Nat) (body : Nat → Course σ α) : Nat → Nat → Course σ (List α)
  | _, 0 => return []
  | position, count + 1 => do
      let result ← body position
      let others ← collect stride body (position + stride) count
      return result :: others

/-- A course inside a change of the state that is taken back behind it, if it fails, too. -/
def inside (enter : σ → σ) (leave : σ → Except Fault σ) (course : Course σ α) : Course σ α :=
  ExceptT.mk fun state => do
    let after ← course.takeFrom (enter state)
    return (after.1, ← leave after.2)

/-- The result of a course in a state of its own, which is forgotten behind it. -/
def apart {τ : Type} (course : Course τ α) (other : τ) : Course σ (Except Error α) :=
  ExceptT.mk fun state => do
    let after ← course.takeFrom other
    return (.ok after.1, state)

end Course

/-!
## Calls as courses

A call is given its arguments as courses that are not taken yet, and takes them by position where
it needs their values.  Each function here counts through the positions as far as the number of
arguments lets it; it does not check that number.
-/

namespace Call

variable {σ : Type}

/-- The arguments of a call, each as the course that evaluates it. -/
abbrev Arguments (σ : Type) := List (Course σ Value)

def argument (arguments : Arguments σ) (position : Nat) : Course σ Value := do
  let course ← Course.itemAt arguments position
  course

def number (function : String) (arguments : Arguments σ) (position : Nat) : Course σ Double := do
  let value ← argument arguments position
  Operand.number function position (.ok value)

def text (function : String) (arguments : Arguments σ) (position : Nat) : Course σ String := do
  let value ← argument arguments position
  Operand.text function position (.ok value)

def one (run : Outcome → Outcome) (arguments : Arguments σ) : Course σ Value := do
  let value ← argument arguments 0
  run (.ok value)

/-- A function of two arguments, both of which are taken before either value is looked at. -/
def two (run : Outcome → Outcome → Outcome) (arguments : Arguments σ) : Course σ Value := do
  let left ← argument arguments 0
  let right ← argument arguments 1
  run (.ok left) (.ok right)

/-! ### Arguments one after the other -/

def scan (settle : Value → Option Value) (otherwise : Value) : Arguments σ → Course σ Value
  | [] => return otherwise
  | argument :: rest => do
      let value ← argument
      match settle value with
      | some result => return result
      | none => scan settle otherwise rest

/-- The items of a list two by two, and what is left over at its end. -/
def inPairs {α : Type} : List α → List (List α) × List α
  | first :: second :: rest => ([first, second] :: (inPairs rest).1, (inPairs rest).2)
  | left => ([], left)

def choose (takes : Nat → Value → Except Error Bool) (exhausted : Error) :
    Nat → List (Arguments σ) → Arguments σ → Course σ Value
  | position, pair :: rest, left => do
      let value ← argument pair 0
      if ← takes position value then argument pair 1
      else choose takes exhausted (position + 2) rest left
  | _, [], [default] => default
  | _, [], _ => throw exhausted

def case (arguments : Arguments σ) : Course σ Value :=
  choose (fun _ value => .ok value.isTrue) .noMatchingCase 0 (inPairs arguments).1
    (inPairs arguments).2

def select (arguments : Arguments σ) : Course σ Value := do
  let input ← argument arguments 0
  Label.checkInput input
  let rest ← Course.itemsFrom arguments 1
  choose (fun position label => Label.matchesInput Builtin.select.name position label input)
    .noMatchingLabel 1 (inPairs rest).1 (inPairs rest).2

/-- The first result that an argument can be converted to, with the first class seen so far. -/
def firstOf (function expected : String) (convert? : Value → Option Value) :
    Option Kind → Arguments σ → Course σ Value
  | seen, [] =>
      throw (.invalidArgument function 0 expected ((seen.map Kind.name).getD "nothing"))
  | seen, argument :: rest => do
      let value ← argument
      match convert? value with
      | some result => return result
      | none => firstOf function expected convert? (some (seen.getD value.kind)) rest

def concatenation : String → Arguments σ → Course σ String
  | content, [] => return content
  | content, argument :: rest => do
      let value ← argument
      concatenation (content ++ value.plainText) rest

def concatenate (arguments : Arguments σ) : Course σ Value := do
  return .string (← concatenation "" arguments)

/-! ### Numbers -/

/-- A function of two numbers, the second of which is taken once the first is known to be one. -/
def binary (function : BinaryFunction) (arguments : Arguments σ) : Course σ Value := do
  let x ← number (Builtin.binary function).name arguments 0
  let y ← number (Builtin.binary function).name arguments 1
  return .ofDouble (function.run x y)

def list (function : ListFunction) (arguments : Arguments σ) : Course σ Value := do
  let numbers ←
    Course.collect 1 (number (Builtin.list function).name arguments) 0 arguments.length
  return .ofDouble (function.run numbers)

def zoomLevel (arguments : Arguments σ) : Course σ Value := do
  let denominator ← number Builtin.zoomLevel.name arguments 0
  let name ← text Builtin.zoomLevel.name arguments 1
  if name = webMercator then return .ofDouble (Zoom.level denominator)
  else throw (.notSupported ("zoom level in " ++ name))

/-! ### Ramps -/

/--
The position of the output that a step comes to: the given one, unless the input has reached the
stop at the next position.
-/
def reached (input : Double) (arguments : Arguments σ) (output stop : Nat) : Course σ Nat := do
  if stop + 1 < arguments.length then
    let bound ← number Builtin.step.name arguments stop
    if input.lt bound then return output
    else reached input arguments (stop + 1) (stop + 2)
  else return output
termination_by arguments.length - stop

def step (arguments : Arguments σ) : Course σ Value := do
  let input ← number Builtin.step.name arguments 0
  let output ← reached input arguments 1 2
  argument arguments output

def stopAt (place : Nat) : Nat := 2 + 2 * place

def outputAt (shape : Curve) (input : Double) (stops : List Double) (last : Nat)
    (arguments : Arguments σ) : Course σ Value := do
  if input.le (← Course.itemAt stops 0) then argument arguments (stopAt 0 + 1)
  else if (← Course.itemAt stops last).le input then argument arguments (stopAt last + 1)
  else
    let upper ← Course.found (stops.findIdx? fun stop => input.lt stop)
    let lower ← Course.minus upper 1
    let t := shape.factor input (← Course.itemAt stops lower) (← Course.itemAt stops upper)
    let a ← argument arguments (stopAt lower + 1)
    let b ← argument arguments (stopAt upper + 1)
    Ramp.blend (stopAt upper + 1) t a b

def interpolate (arguments : Arguments σ) : Course σ Value := do
  let curve ← argument arguments 0
  let shape ← Ramp.curveOf (.ok curve)
  let input ← number Builtin.interpolate.name arguments 1
  let count := (← Course.minus arguments.length 2) / 2
  let stops ← Course.collect 2 (number Builtin.interpolate.name arguments) (stopAt 0) count
  let last ← Course.minus count 1
  outputAt shape input stops last arguments

end Call

/-- A call of a built-in function on as many arguments as it happens to be given. -/
def Builtin.perform {σ : Type} (source : Source) (builtin : Builtin)
    (arguments : Call.Arguments σ) : Course σ Value :=
  match builtin with
  | .not => Call.one Decision.not arguments
  | .compare order => Call.two (Decision.compare order) arguments
  | .equalTo => Call.two Decision.equalTo arguments
  | .all =>
      Call.scan (fun value => if value.isTrue then none else some (.boolean false))
        (.boolean true) arguments
  | .any =>
      Call.scan (fun value => if value.isTrue then some (.boolean true) else none)
        (.boolean false) arguments
  | .case => Call.case arguments
  | .coalesce =>
      Call.scan (fun value => if value.isNull then none else some value) .null arguments
  | .select => Call.select arguments
  | .listSize => Call.one Conversion.listSize arguments
  | .textLength => Call.one Conversion.textLength arguments
  | .length => Call.one Conversion.length arguments
  | .hasProperty => Call.one (Reading.hasProperty source) arguments
  | .toNumber =>
      Call.firstOf Builtin.toNumber.name "a value convertible to a number"
        (fun value => value.coerceToDouble?.map .ofDouble) none arguments
  | .toArray =>
      Call.firstOf Builtin.toArray.name "an array" Conversion.array? none arguments
  | .toHex => Call.one Conversion.toHex arguments
  | .unary function => Call.one (Arithmetic.unary function) arguments
  | .binary function => Call.binary function arguments
  | .list function => Call.list function arguments
  | .concatenate => Call.concatenate arguments
  | .lowercase => Call.one Conversion.lowercase arguments
  | .uppercase => Call.one Conversion.uppercase arguments
  | .geometryType => source.geometryType
  | .featureId => source.featureId
  | .properties => source.properties
  | .environment => Call.one (Reading.environment source) arguments
  | .zoomLevel => Call.zoomLevel arguments
  | .interpolate => Call.interpolate arguments
  | .step => Call.step arguments

end MapStyle
