import MapStyle.Builtin.Text
import MapStyle.Proofs.Builtin.Answer
import MapStyle.Proofs.Compiler.Alignment
import MapStyle.Proofs.Compiler.Folding
import MapStyle.Proofs.Range
import MapStyle.Proofs.Zero
import MapStyle.Value.Text

/-!
# Colours and their channels

The digits of a channel, and the texts that colours are compiled to.
-/

namespace MapStyle

/-!
## Hexadecimal channels

A channel is written in digits that read back: to the whole part of the number if that is not
negative, and to the word of 32 bits congruent to it if it is.  Zeros in front of a number do not
change what its digits read to, and only a number that is not negative gets any.
-/

namespace Hex

def IsDigit (c : Char) : Prop := '0' ≤ c ∧ c ≤ '9' ∨ 'a' ≤ c ∧ c ≤ 'f'

instance : DecidablePred IsDigit := fun c =>
  inferInstanceAs (Decidable ('0' ≤ c ∧ c ≤ '9' ∨ 'a' ≤ c ∧ c ≤ 'f'))

def shown (whole : Int) : Int := if whole < 0 then whole % 2 ^ 32 else whole

/-- Negative whole parts whose word of 32 bits has a single digit, which nothing pads. -/
def Short (whole : Int) : Prop := whole < 0 ∧ whole % 2 ^ 32 < 16

instance : DecidablePred Short := fun whole =>
  inferInstanceAs (Decidable (whole < 0 ∧ whole % 2 ^ 32 < 16))

/-- Digits that show a whole part: they are lower-case, they read back, and they are padded. -/
structure Spells (text : List Char) (whole : Int) : Prop where
  lower : ∀ c ∈ text, IsDigit c
  reads : ∃ number, Reader.hexUnit? text = some number ∧ (number : Int) = shown whole
  occupied : text ≠ []
  padded : 2 ≤ text.length ↔ ¬Short whole

theorem hexValue?_digitChar : ∀ digit < 16, Reader.hexValue? (Nat.digitChar digit) = some digit := by
  decide

theorem isDigit_digitChar : ∀ digit < 16, IsDigit (Nat.digitChar digit) := by
  decide

theorem hexUnit?_nil : Reader.hexUnit? [] = some 0 := rfl

/-- Digits are read from the left: one more counts the number in front of it sixteen times. -/
theorem hexUnit?_concat {text : List Char} {number digit : Nat} {c : Char}
    (front : Reader.hexUnit? text = some number) (last : Reader.hexValue? c = some digit) :
    Reader.hexUnit? (text ++ [c]) = some (16 * number + digit) := by
  unfold Reader.hexUnit? at front ⊢
  rw [List.foldlM_append, front]
  simp [last]

/-- What holds of single digits and is kept by one more digit holds of the digits of each number. -/
theorem digits_induction {motive : List Char → Nat → Prop}
    (single : ∀ digit < 16, motive [Nat.digitChar digit] digit)
    (further : ∀ (text : List Char) (number digit : Nat), digit < 16 → motive text number →
      motive (text ++ [Nat.digitChar digit]) (16 * number + digit)) (number : Nat) :
    motive (digits number) number := by
  induction number using Nat.strongRecOn with
  | ind number ih =>
      by_cases small : number < 16
      · rw [digits, Nat.toDigits_of_lt_base small]
        exact single number small
      · have joined := further _ _ (number % 16) (Nat.mod_lt _ (by decide))
          (ih (number / 16) (by omega))
        rw [digits, ← Nat.toDigits_of_base_le (by decide) (Nat.le_of_not_lt small),
          Nat.div_add_mod] at joined
        exact joined

/-- The digits of a number read back to it. -/
theorem hexUnit?_digits (number : Nat) : Reader.hexUnit? (digits number) = some number := by
  apply digits_induction (motive := fun text number => Reader.hexUnit? text = some number)
  · intro digit small
    simpa using hexUnit?_concat hexUnit?_nil (hexValue?_digitChar digit small)
  · intro text number digit small reads
    exact hexUnit?_concat reads (hexValue?_digitChar digit small)

theorem isDigit_of_mem_digits (number : Nat) : ∀ c ∈ digits number, IsDigit c := by
  apply digits_induction (motive := fun text _ => ∀ c ∈ text, IsDigit c)
  · intro digit small c member
    exact List.mem_singleton.mp member ▸ isDigit_digitChar digit small
  · intro text number digit small lower c member
    rcases List.mem_append.mp member with front | last
    · exact lower c front
    · exact List.mem_singleton.mp last ▸ isDigit_digitChar digit small

theorem digits_ne_nil (number : Nat) : digits number ≠ [] :=
  List.ne_nil_of_length_pos Nat.length_toDigits_pos

/-- Two digits are needed from sixteen on. -/
theorem two_le_length_digits {number : Nat} : 2 ≤ (digits number).length ↔ 16 ≤ number := by
  have one : (digits number).length ≤ 1 ↔ number < 16 ^ 1 :=
    Nat.length_toDigits_le_iff (by decide) (by decide)
  omega

/-- Zeros in front of a number do not change it. -/
theorem hexUnit?_zeros (count : Nat) (text : List Char) :
    Reader.hexUnit? (List.replicate count '0' ++ text) = Reader.hexUnit? text := by
  induction count with
  | zero => rfl
  | succ count ih =>
      rw [← ih]
      rfl

/-- A word of 32 bits is written without padding. -/
theorem spells_word {whole : Int} (negative : whole < 0) :
    Spells (digits (whole % 2 ^ 32).toNat) whole where
  lower := isDigit_of_mem_digits _
  reads := by
    refine ⟨_, hexUnit?_digits _, ?_⟩
    rw [shown, if_pos negative]
    omega
  occupied := digits_ne_nil _
  padded := by
    rw [two_le_length_digits, Short]
    omega

/-- A number that is not negative is padded to two digits. -/
theorem spells_padded {whole : Int} (natural : 0 ≤ whole) :
    Spells (List.replicate (2 - (digits whole.toNat).length) '0' ++ digits whole.toNat) whole where
  lower c member := by
    rcases List.mem_append.mp member with zero | digit
    · obtain rfl := List.eq_of_mem_replicate zero
      decide
    · exact isDigit_of_mem_digits _ c digit
  reads := by
    refine ⟨_, (hexUnit?_zeros _ _).trans (hexUnit?_digits _), ?_⟩
    rw [shown, if_neg (Int.not_lt.mpr natural)]
    exact Int.toNat_of_nonneg natural
  occupied := List.append_ne_nil_of_right_ne_nil _ (digits_ne_nil _)
  padded := by
    rw [List.length_append, List.length_replicate, Short]
    omega

/-- The channel of a number shows its whole part. -/
theorem spells_channel (x : Double) : Spells (channel x) x.toInt64 := by
  unfold channel
  dsimp only
  split
  · rename_i negative
    exact spells_word negative
  · rename_i natural
    exact spells_padded (Int.not_lt.mp natural)

example : Short (1 - 2 ^ 32) ∧ ¬Short (-1) := by decide

end Hex

/-!
## Colours

A colour is compiled to a text of three channels.  Whether a channel is folded to its digits or
computed for each feature, it shows the whole number nearest to its operand: rounding hands on a
number of that value, and a channel does not tell the two zeros apart.
-/

/-- A rounded number is handed on as one with the same whole part. -/
theorem Value.toInt64_of_rounded {x y : Double} (finite : ∃ z, x = .finite z)
    (handed : (ofDouble x.round).toDouble? = some y) : y.toInt64 = x.round.toInt64 := by
  obtain ⟨z, rfl⟩ := finite
  obtain ⟨rounded, same⟩ := Double.round_finite z
  rw [same] at handed ⊢
  obtain ⟨other, comes, alike⟩ := toDouble?_ofDouble_finite rounded
  obtain rfl := Option.some.inj (comes.symm.trans handed)
  exact alike.toInt64_eq.symm

/--
A text that an item of a colour contributes: its operand comes to a number, and the text spells
the whole number nearest to it.
-/
def Value.Shows (context : Context) (source : Source) (item : Value) (text : List Char) : Prop :=
  ∃ place operand number x, item.argument.numberExpression place context = .ok operand ∧
    operand.meaning context.registry source = .ok number ∧ number.toDouble? = some x ∧
    Hex.Spells text x.round.toInt64

namespace Compiler

variable {context : Context} {source : Source} {items : List Value} {term : Term}

/-- A channel that comes to a value shows the item at its position. -/
theorem channel_shows {position : Nat} {value : Value}
    (compiled : channel (Node.ofItems (.string Operator.rgb.name :: items)) context
      (position + 1) = .ok term)
    (yields : term.meaning context.registry source = .ok value) :
    ∃ item text, items[position]? = some item ∧ item.Shows context source text ∧
      value = .string (String.ofList text) := by
  obtain ⟨argument, found, compiled⟩ := bind_eq_ok.mp compiled
  obtain ⟨operand, numeric, compiled⟩ := bind_eq_ok.mp compiled
  obtain ⟨rounded, rounds, shows⟩ := bind_eq_ok.mp compiled
  obtain ⟨item, here, rfl⟩ := Node.item_of_argument found
  obtain ⟨held, y, comes, handed, rfl⟩ :=
    Conversion.toHex_eq_ok (Context.call_of_fold shows yields)
  obtain ⟨number, x, given, read, rfl⟩ :=
    Arithmetic.unary_eq_ok (Context.call_of_fold rounds comes)
  have same := Value.toInt64_of_rounded (Value.toDouble?_finite read) handed
  exact ⟨item, Hex.channel y, here, ⟨_, operand, number, x, numeric, given, read,
    same ▸ Hex.spells_channel y⟩, rfl⟩

/-- A colour that comes to a value is a hash and what its three items show. -/
theorem rgb_shows {value : Value} (three : items.length = 3)
    (compiled : rgb (Node.ofItems (.string Operator.rgb.name :: items)) context = .ok term)
    (yields : term.meaning context.registry source = .ok value) :
    ∃ texts, List.Forall₂ (Value.Shows context source) items texts ∧
      value = .string (String.ofList ('#' :: texts.flatten)) := by
  obtain ⟨red, first, compiled⟩ := bind_eq_ok.mp compiled
  obtain ⟨green, second, compiled⟩ := bind_eq_ok.mp compiled
  obtain ⟨blue, third, folded⟩ := bind_eq_ok.mp compiled
  obtain ⟨values, joined, rfl⟩ :=
    Conversion.concatenate_eq_ok (Context.call_of_fold folded yields)
  obtain ⟨one, two, other, rfl⟩ := List.length_eq_three.mp three
  obtain ⟨_, _, hash, channels, rfl⟩ := List.forall₂_cons_left_iff.mp joined
  obtain ⟨_, _, redYields, behindRed, rfl⟩ := List.forall₂_cons_left_iff.mp channels
  obtain ⟨_, _, greenYields, behindGreen, rfl⟩ := List.forall₂_cons_left_iff.mp behindRed
  obtain ⟨_, _, blueYields, behindBlue, rfl⟩ := List.forall₂_cons_left_iff.mp behindGreen
  obtain rfl := List.forall₂_nil_left_iff.mp behindBlue
  obtain ⟨_, redText, ⟨⟩, redShown, rfl⟩ := channel_shows first redYields
  obtain ⟨_, greenText, ⟨⟩, greenShown, rfl⟩ := channel_shows second greenYields
  obtain ⟨_, blueText, ⟨⟩, blueShown, rfl⟩ := channel_shows third blueYields
  refine ⟨[redText, greenText, blueText],
    .cons redShown (.cons greenShown (.cons blueShown .nil)), ?_⟩
  rw [Term.meaning_literal] at hash
  cases hash
  simp [Value.plainText]

end Compiler

/--
Channels read back.  The text of a number in base sixteen spells its whole part; it has two digits
or more unless that is negative and its word of 32 bits is below sixteen.  And a colour that is
compiled shows the whole numbers nearest to its operands in such texts, whether it was folded or is
computed for the data of a feature.
-/
theorem channels_read_back (x : Double) (context : Context) (items : List Value) :
    Hex.Spells (Hex.channel x) x.toInt64 ∧
      ∀ (term : Term) (evaluator : Evaluator) (depth : Nat) (value : Value),
        (Value.array (.string Operator.rgb.name :: items)).compile context = .ok term →
        evaluator.registry = context.registry → evaluator.evaluate depth term = .ok value →
        ∃ texts, texts.length = 3 ∧
          List.Forall₂ (Value.Shows context.deeper evaluator.source) items texts ∧
          value = .string (String.ofList ('#' :: texts.flatten)) := by
  constructor
  · exact Hex.spells_channel x
  · intro term evaluator depth value compiled registered yields
    obtain ⟨accepted, ruled⟩ := Value.compile_headed_eq_ok compiled
    have three : items.length = 3 := Arity.eq_of_exactly accepted
    have means := Evaluator.meaning_of_evaluate yields
    rw [registered] at means
    obtain ⟨texts, shown, rfl⟩ := Compiler.rgb_shows three ruled means
    exact ⟨texts, shown.length_eq.symm.trans three, shown, rfl⟩

def Source.ofRed : Source := .scope { properties := [("red", .ofNat 10)] } []

def Value.redChannels : List Value := [.array [.string "get", .string "red"], .ofNat 20, .ofNat 300]

/-- A channel that waits for a property is padded as those that are folded, and none is cut off. -/
theorem channels_read_back_case :
    Hex.Spells (Hex.channel .zero) (Double.toInt64 .zero) ∧
      ∃ texts, texts.length = 3 ∧
        List.Forall₂ (Value.Shows (Context.deeper {}) .ofRed) Value.redChannels texts ∧
        Value.string "#0a1412c" = .string (String.ofList ('#' :: texts.flatten)) := by
  obtain ⟨term, compiled, evaluates⟩ :=
    @Value.compiled_of_text (.array (.string Operator.rgb.name :: Value.redChannels))
      { source := .ofRed, limit := 512 } "#0a1412c" (by decide +kernel)
  obtain ⟨spells, shows⟩ := channels_read_back .zero {} Value.redChannels
  exact ⟨spells, shows term { source := .ofRed, limit := 512 } 0 _ compiled rfl evaluates⟩

/-- A negative whole part is not padded: `1 - 2 ^ 32` is congruent to one, which is one digit. -/
theorem negative_channel_unpadded :
    (Double.ofInt (-4294967295)).toInt64 = -4294967295 ∧
      ¬2 ≤ (Hex.channel (.ofInt (-4294967295))).length ∧
      ∃ term, Value.compile (.array [.string "rgb",
          .number (.whole (-4294967295) (by decide) (by decide)), .ofNat 0, .ofNat 0]) {} =
            .ok term ∧
        Evaluator.evaluate { source := .scope {} [], limit := 512 } 0 term =
          .ok (.string "#10000") := by
  refine ⟨by decide +kernel, by decide +kernel, ?_⟩
  exact Value.compiled_of_text (by decide +kernel)

end MapStyle
