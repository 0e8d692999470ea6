import MapStyle.Builtin.Basic
import MapStyle.Double.Arithmetic
import MapStyle.Text
import MapStyle.Value.Text

/-!
# Texts, lengths and conversions

Concatenation, case, lengths in characters or items, hexadecimal channels, and the functions
that take the first argument of a wanted class.
-/

namespace MapStyle

namespace Hex

/-- The digits of a number in base sixteen, lower case, without leading zeros. -/
def digits (number : Nat) : List Char := Nat.toDigits 16 number

/--
The whole part of a number in base sixteen.  Two digits are written at least; a negative number
is written as the word of 32 bits that is congruent to it.
-/
def channel (x : Double) : List Char :=
  let whole := x.toInt64
  if whole < 0 then digits (whole % 2 ^ 32).toNat
  else
    let shown := digits whole.toNat
    List.replicate (2 - shown.length) '0' ++ shown

example : String.ofList (channel (.ofInt 10)) = "0a" := by decide +kernel

example : String.ofList (channel (.ofInt (-1))) = "ffffffff" := by decide +kernel

end Hex

namespace Conversion

def lengthOf (function : String) : Value → Outcome
  | .string content => .ok (.ofNat content.length)
  | .array items => .ok (.ofNat items.length)
  | value => .error (.invalidArgument function 0 "a string or array" value.kind.name)

def listSize (argument : Outcome) : Outcome := do
  match ← argument with
  | .array items => return .ofNat items.length
  | value => throw (.invalidArgument Builtin.listSize.name 0 "an array" value.kind.name)

def textLength (argument : Outcome) : Outcome := do
  let content ← Operand.text Builtin.textLength.name 0 argument
  return .ofNat content.length

def length (argument : Outcome) : Outcome := do
  let value ← argument
  lengthOf Builtin.length.name value

/--
The first result that an argument can be converted to.  The complaint when there is none names
the class of the first value that was looked at.
-/
def firstOf (function expected : String) (convert? : Value → Option Value) :
    Option Kind → List Outcome → Outcome
  | seen, [] =>
      throw (.invalidArgument function 0 expected ((seen.map Kind.name).getD "nothing"))
  | seen, argument :: rest => do
      let value ← argument
      match convert? value with
      | some result => return result
      | none => firstOf function expected convert? (some (seen.getD value.kind)) rest

def toNumber : List Outcome → Outcome :=
  firstOf Builtin.toNumber.name "a value convertible to a number"
    (fun value => value.coerceToDouble?.map .ofDouble) none

def array? : Value → Option Value
  | .array items => some (.array items)
  | _ => none

def toArray : List Outcome → Outcome :=
  firstOf Builtin.toArray.name "an array" array? none

def toHex (argument : Outcome) : Outcome := do
  let x ← Operand.number Builtin.toHex.name 0 argument
  return .string (String.ofList (Hex.channel x))

def concatenation : List Outcome → Except Error String
  | [] => return ""
  | argument :: rest => do
      let value ← argument
      let others ← concatenation rest
      return value.plainText ++ others

def concatenate (arguments : List Outcome) : Outcome :=
  (concatenation arguments).map .string

def lowercase (argument : Outcome) : Outcome := do
  let content ← Operand.text Builtin.lowercase.name 0 argument
  return .string (Text.lowercase content)

def uppercase (argument : Outcome) : Outcome := do
  let content ← Operand.text Builtin.uppercase.name 0 argument
  return .string (Text.uppercase content)

end Conversion

end MapStyle
