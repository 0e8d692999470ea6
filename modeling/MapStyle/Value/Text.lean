import MapStyle.Text
import MapStyle.Value.Basic

/-!
# Values as text

How values are written, what counts as a number or as a text, and how documents are read.
-/

namespace MapStyle

/-!
## The text of a value

Values are written without spaces, the entries of an object in the order of their keys.  In a
string the quote, the backslash and the control characters are escaped and all else stands as
it is.
-/

namespace Value

def hexDigit (digit : Nat) : Char :=
  Char.ofNat (if digit < 10 then '0'.toNat + digit else 'a'.toNat + (digit - 10))

def escape (character : Char) : List Char :=
  match character with
  | '"' => ['\\', '"']
  | '\\' => ['\\', '\\']
  | '\n' => ['\\', 'n']
  | '\r' => ['\\', 'r']
  | '\t' => ['\\', 't']
  | _ =>
      let code := character.toNat
      if code = 8 then ['\\', 'b']
      else if code = 12 then ['\\', 'f']
      else if code < 32 then ['\\', 'u', '0', '0', hexDigit (code / 16), hexDigit (code % 16)]
      else [character]

def quote (text : String) : String :=
  "\"" ++ String.ofList (text.toList.flatMap escape) ++ "\""

mutual

def text : Value → String
  | .null => "null"
  | .boolean flag => if flag then "true" else "false"
  | .number held => held.text
  | .string content => quote content
  | .array items => "[" ++ textItems items ++ "]"
  | .object entries => "\x7b" ++ textEntries entries ++ "\x7d"

def textItems : List Value → String
  | [] => ""
  | [item] => text item
  | item :: rest => text item ++ "," ++ textItems rest

def textEntries : List (String × Value) → String
  | [] => ""
  | [(key, value)] => quote key ++ ":" ++ text value
  | (key, value) :: rest => quote key ++ ":" ++ text value ++ "," ++ textEntries rest

end

end Value

/-!
## Coercion of values

A value counts as a number when it is one, when it is null or a boolean, or when its text spells
one between blanks.  In a concatenation null is empty and a string stands without quotes; a
number without fraction is written as a whole one up to `1e15`.
-/

namespace Value

/-- The number as which a value counts. -/
def coerceToDouble? : Value → Option Double
  | .null => some .zero
  | .boolean flag => some (if flag then .one else .zero)
  | .number held => some held.toDouble
  | .string content => Double.ofText? (Text.trim content)
  | .array _ => none
  | .object _ => none

end Value

namespace Number

/-- Below this bound a number without fraction is concatenated as a whole one. -/
def wholeTextBound : Int := 10 ^ 15

/-- The text of a number in a concatenation. -/
def plainText (number : Number) : String :=
  match number.toInt64?, number.toDouble with
  | some value, _ => toString value
  | none, .finite x =>
      if x.isIntegral ∧ x.truncated.natAbs < wholeTextBound.natAbs then toString x.truncated
      else number.text
  | none, _ => number.text

end Number

namespace Value

def plainText : Value → String
  | .null => ""
  | .number held => held.plainText
  | .string content => content
  | value => value.text

end Value

/-!
## Reading values

A document is one value with blanks around its parts.  The kind of a number follows from its
spelling: digits alone make a whole number as long as 64 bits hold it, and everything else,
negative zero included, is binary64.  Each reader takes a value off the front of a text and
returns what follows it.
-/

namespace Reader

def skipBlanks (text : List Char) : List Char :=
  text.dropWhile fun c => c == ' ' || c == '\n' || c == '\r' || c == '\t'

def hexValue? (c : Char) : Option Nat :=
  if c.isDigit then some (c.toNat - '0'.toNat)
  else if 'a' ≤ c ∧ c ≤ 'f' then some (c.toNat - 'a'.toNat + 10)
  else if 'A' ≤ c ∧ c ≤ 'F' then some (c.toNat - 'A'.toNat + 10)
  else none

/-- The number that four hexadecimal digits spell. -/
def hexUnit? (digits : List Char) : Option Nat :=
  digits.foldlM (fun unit c => (hexValue? c).map (16 * unit + ·)) 0

def escaped? : Char → Option Char
  | '"' => some '"'
  | '\\' => some '\\'
  | '/' => some '/'
  | 'b' => some (Char.ofNat 8)
  | 'f' => some (Char.ofNat 12)
  | 'n' => some '\n'
  | 'r' => some '\r'
  | 't' => some '\t'
  | _ => none

def prepend (c : Char) (rest : Option (List Char × List Char)) :
    Option (List Char × List Char) :=
  rest.map fun (content, tail) => (c :: content, tail)

/--
The rest of a string whose opening quote has been taken.  An escape by number names one unit of
sixteen bits, and a character beyond them takes a pair of units.
-/
def takeString : List Char → Option (List Char × List Char)
  | '"' :: rest => some ([], rest)
  | '\\' :: 'u' :: a :: b :: c :: d :: rest =>
      match hexUnit? [a, b, c, d] with
      | none => none
      | some unit =>
          if unit < 0xD800 ∨ 0xE000 ≤ unit then prepend (Char.ofNat unit) (takeString rest)
          else if 0xDC00 ≤ unit then none
          else
            match rest with
            | '\\' :: 'u' :: e :: f :: g :: h :: tail =>
                match hexUnit? [e, f, g, h] with
                | none => none
                | some low =>
                    if 0xDC00 ≤ low ∧ low < 0xE000 then
                      prepend (Char.ofNat (0x10000 + (unit - 0xD800) * 0x400 + (low - 0xDC00)))
                        (takeString tail)
                    else none
            | _ => none
  | '\\' :: c :: rest =>
      match escaped? c with
      | some character => prepend character (takeString rest)
      | none => none
  | c :: rest => if c.toNat < 32 then none else prepend c (takeString rest)
  | [] => none

/-- The fraction behind a point, which has at least one digit; there may be none. -/
def takeFraction : List Char → Option (List Char × List Char)
  | '.' :: rest =>
      let (digits, tail) := rest.span Char.isDigit
      if digits = [] then none else some (digits, tail)
  | text => some ([], text)

def takeExponent : List Char → Option (Option Int × List Char)
  | mark :: rest =>
      if mark = 'e' ∨ mark = 'E' then
        let (negative, behindSign) := Decimal.takeSign rest
        let (digits, tail) := behindSign.span Char.isDigit
        let size : Int := Decimal.ofDigits digits
        if digits = [] then none else some (some (if negative then -size else size), tail)
      else some (none, mark :: rest)
  | [] => some (none, [])

def finiteNumber? (negative : Bool) (decimal : Decimal) : Option Number :=
  (decimal.toDouble negative).finite?.map .double

/-- The number that digits alone spell. -/
def wholeNumber? (negative : Bool) (digits : List Char) : Option Number :=
  let size := Decimal.ofDigits digits
  if negative ∧ size = 0 then finiteNumber? true ⟨0, 0⟩
  else
    match Number.ofInt? (if negative then -(size : Int) else size) with
    | some result => some result
    | none => finiteNumber? negative ⟨size, 0⟩

def takeNumber (text : List Char) : Option (Number × List Char) := do
  let (negative, unsigned) :=
    match text with
    | '-' :: rest => (true, rest)
    | _ => (false, text)
  let (whole, behindWhole) := unsigned.span Char.isDigit
  if whole = [] ∨ (1 < whole.length ∧ whole.head? = some '0') then none
  else
    let (fraction, behindFraction) ← takeFraction behindWhole
    let (exponent, tail) ← takeExponent behindFraction
    let number ←
      if fraction = [] ∧ exponent = none then wholeNumber? negative whole
      else finiteNumber? negative (Decimal.ofParts whole fraction (exponent.getD 0))
    return (number, tail)

def afterWord? (word : List Char) (text : List Char) : Option (List Char) :=
  if text.take word.length = word then some (text.drop word.length) else none

mutual

/-- A value at the front of a text that starts with no blank. -/
def takeValue : Nat → List Char → Option (Value × List Char)
  | 0, _ => none
  | fuel + 1, text =>
      match text with
      | 'n' :: rest => (afterWord? ['u', 'l', 'l'] rest).map (Value.null, ·)
      | 't' :: rest => (afterWord? ['r', 'u', 'e'] rest).map (Value.boolean true, ·)
      | 'f' :: rest => (afterWord? ['a', 'l', 's', 'e'] rest).map (Value.boolean false, ·)
      | '"' :: rest =>
          (takeString rest).map fun (content, tail) => (.string (String.ofList content), tail)
      | '[' :: rest =>
          match skipBlanks rest with
          | ']' :: tail => some (.array [], tail)
          | inner => (takeItems fuel inner).map fun (items, tail) => (.array items, tail)
      | '\x7b' :: rest =>
          match skipBlanks rest with
          | '\x7d' :: tail => some (.object [], tail)
          | inner =>
              (takeEntries fuel inner).map fun (entries, tail) =>
                (.object (Entries.ofList entries), tail)
      | _ => (takeNumber text).map fun (number, tail) => (.number number, tail)

def takeItems : Nat → List Char → Option (List Value × List Char)
  | 0, _ => none
  | fuel + 1, text =>
      match takeValue fuel text with
      | none => none
      | some (item, behindItem) =>
          match skipBlanks behindItem with
          | ']' :: tail => some ([item], tail)
          | ',' :: rest =>
              (takeItems fuel (skipBlanks rest)).map fun (items, tail) => (item :: items, tail)
          | _ => none

def takeEntries : Nat → List Char → Option (List (String × Value) × List Char)
  | 0, _ => none
  | fuel + 1, text =>
      match text with
      | '"' :: rest =>
          match takeString rest with
          | none => none
          | some (key, behindKey) =>
              match skipBlanks behindKey with
              | ':' :: behindColon =>
                  match takeValue fuel (skipBlanks behindColon) with
                  | none => none
                  | some (value, behindValue) =>
                      match skipBlanks behindValue with
                      | '\x7d' :: tail => some ([(String.ofList key, value)], tail)
                      | ',' :: more =>
                          (takeEntries fuel (skipBlanks more)).map fun (entries, tail) =>
                            ((String.ofList key, value) :: entries, tail)
                      | _ => none
              | _ => none
      | _ => none

end

end Reader

/--
The value that a text spells.  A text of so many characters nests its parts less deeply than
twice that number, so the reader never stops for want of fuel.
-/
def Value.ofText? (text : String) : Option Value :=
  let characters := text.toList
  match Reader.takeValue (2 * characters.length + 2) (Reader.skipBlanks characters) with
  | some (value, tail) => if Reader.skipBlanks tail = [] then some value else none
  | none => none

example : (Value.ofText? " \x7b\"b\": [1, 1.0, -0], \"a\": \"\\u00e9\"\x7d ").isSome = true := by
  decide +kernel

example : (Value.ofText? "[1,]").isSome = false := by decide +kernel

end MapStyle
