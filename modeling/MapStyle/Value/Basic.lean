import MapStyle.Double.Text

/-!
# Numbers and values

The values that a style document is made of.
-/

namespace MapStyle

/-!
## Numbers in style documents

A document writes a number either as a whole number of at most 64 bits or as a binary64 number,
and which of the two it was stays visible: `1` and `1.0` are printed apart.  Computation goes
through binary64; a computed number that is whole and exactly representable becomes a whole
number again.
-/

inductive Number where
  | whole (value : Int) (low : -(2 ^ 63) ≤ value) (high : value < 2 ^ 64)
  | double (value : FiniteDouble)
  deriving DecidableEq

namespace Number

def ofInt? (value : Int) : Option Number :=
  if bounds : -(2 ^ 63) ≤ value ∧ value < 2 ^ 64 then some (.whole value bounds.1 bounds.2)
  else none

def toDouble : Number → Double
  | .whole value _ _ => .ofInt value
  | .double value => .finite value

/-- The value of a number written as a whole one within 63 bits and a sign. -/
def toInt64? : Number → Option Int
  | .whole value _ _ => if value < 2 ^ 63 then some value else none
  | .double _ => none

/-- The whole numbers that binary64 keeps apart from their neighbours end here. -/
def greatestExact : Int := 2 ^ 53 - 1

theorem low_of_exact {value : Int} (exact : -greatestExact ≤ value) : -(2 ^ 63) ≤ value :=
  Int.le_trans (by decide) exact

theorem high_of_exact {value : Int} (exact : value ≤ greatestExact) : value < 2 ^ 64 :=
  Int.lt_of_le_of_lt exact (by decide)

/-- A computed number: whole where it is exactly so, absent where it is not finite. -/
def ofDouble? : Double → Option Number
  | .finite x =>
      if whole : x.isIntegral ∧ -greatestExact ≤ x.truncated ∧ x.truncated ≤ greatestExact then
        some (.whole x.truncated (low_of_exact whole.2.1) (high_of_exact whole.2.2))
      else some (.double x)
  | _ => none

/--
Numbers are compared as 64-bit whole numbers if both are, else as the nearest binary64 numbers.
-/
def equal (a b : Number) : Bool :=
  match a.toInt64?, b.toInt64? with
  | some x, some y => x == y
  | _, _ => Double.eq a.toDouble b.toDouble

/-- The text of a number: whole numbers in decimal, others with their shortest digits. -/
def text : Number → String
  | .whole value _ _ => toString value
  | .double value => value.text

end Number

/-!
## Values

Values are those of a style document: null, booleans, numbers, strings, arrays, and objects
whose entries are kept in the order of their keys, each key once.

Values of different classes are unequal and nothing is coerced.  Numbers are compared by value, so
`1` equals `1.0`; arrays are compared place by place, and of objects with equally many entries each
entry of the one is looked up in the other.
-/

/-- The class of a value; values of different classes are never equal. -/
inductive Kind where
  | null
  | boolean
  | number
  | string
  | array
  | object
  deriving DecidableEq, Repr

def Kind.name : Kind → String
  | .null => "null"
  | .boolean => "boolean"
  | .number => "number"
  | .string => "string"
  | .array => "array"
  | .object => "object"

inductive Value where
  | null
  | boolean (flag : Bool)
  | number (held : Number)
  | string (content : String)
  | array (items : List Value)
  | object (entries : List (String × Value))

abbrev Entries := List (String × Value)

namespace Entries

/-- Set the value of a key, in its place in the order. -/
def insert (key : String) (value : Value) : Entries → Entries
  | [] => [(key, value)]
  | (other, held) :: rest =>
      if key < other then (key, value) :: (other, held) :: rest
      else if key = other then (key, value) :: rest
      else (other, held) :: insert key value rest

/-- Entries given in any order; of two with one key the later one counts. -/
def ofList (entries : List (String × Value)) : Entries :=
  entries.foldl (fun held entry => insert entry.1 entry.2 held) []

def find? (key : String) (entries : Entries) : Option Value :=
  List.lookup key entries

/-- A key that has just been set is found with its value. -/
theorem find?_insert_self (key : String) (value : Value) (entries : Entries) :
    find? key (insert key value entries) = some value := by
  induction entries with
  | nil => simp [insert, find?]
  | cons entry rest ih =>
      obtain ⟨other, held⟩ := entry
      unfold insert
      split
      · simp [find?]
      · split
        · simp [find?]
        · rename_i different
          simpa [find?, List.lookup_cons, beq_eq_false_iff_ne.mpr different] using ih

end Entries

namespace Value

def kind : Value → Kind
  | .null => .null
  | .boolean _ => .boolean
  | .number _ => .number
  | .string _ => .string
  | .array _ => .array
  | .object _ => .object

/-- The value of a computation: its number, or null when it is not finite. -/
def ofDouble (x : Double) : Value :=
  match Number.ofDouble? x with
  | some result => .number result
  | none => .null

def ofNat (count : Nat) : Value := ofDouble (.ofInt count)

def toDouble? : Value → Option Double
  | .number held => some held.toDouble
  | _ => none

def toText? : Value → Option String
  | .string content => some content
  | _ => none

def toItems? : Value → Option (List Value)
  | .array items => some items
  | _ => none

def toEntries? : Value → Option Entries
  | .object entries => some entries
  | _ => none

def isTrue : Value → Bool
  | .boolean flag => flag
  | _ => false

def isNull : Value → Bool
  | .null => true
  | _ => false

/-- A computed value is a number or null. -/
theorem kind_ofDouble (x : Double) :
    (ofDouble x).kind = .number ∨ ofDouble x = .null := by
  unfold ofDouble
  split
  · exact .inl rfl
  · exact .inr rfl

/-! ### Equality -/

mutual

def equal : Value → Value → Bool
  | .null, .null => true
  | .boolean a, .boolean b => a == b
  | .number a, .number b => Number.equal a b
  | .string a, .string b => a == b
  | .array xs, .array ys => xs.length == ys.length && equalItems xs ys
  | .object xs, .object ys => xs.length == ys.length && coversEntries xs ys
  | _, _ => false

/-- Are the items of two arrays equal, place by place, as far as both reach? -/
def equalItems : List Value → List Value → Bool
  | x :: xs, y :: ys => equal x y && equalItems xs ys
  | _, _ => true

/-- Does an object hold, under each key of these entries, a value equal to the one beside it? -/
def coversEntries : List (String × Value) → Entries → Bool
  | [], _ => true
  | (key, x) :: xs, ys => (ys.find? key).any (equal x) && coversEntries xs ys

end

def contains (items : List Value) (value : Value) : Bool :=
  items.any fun item => equal item value

end Value

end MapStyle
