import MapStyle.Proofs.Builtin.Answer
import MapStyle.Proofs.Builtin.Laziness

/-!
# Where an input stands among the stops of a ramp

The stops of a ramp ascend.  A step takes the output of the last stop that is not above the
input; an interpolation takes the output of the first or the last stop beyond them, and between
them those at both ends of the only segment around the input.  No other output is asked for.
-/

namespace MapStyle

namespace Double

def value : Double → Int
  | .finite x => x.value
  | _ => 0

variable {x y : Double}

theorem lt_iff (finite : ∃ z, x = .finite z) (other : ∃ z, y = .finite z) :
    x.lt y = true ↔ x.value < y.value := by
  obtain ⟨a, rfl⟩ := finite
  obtain ⟨b, rfl⟩ := other
  rw [lt_finite, decide_eq_true_iff]
  rfl

theorem le_iff (finite : ∃ z, x = .finite z) (other : ∃ z, y = .finite z) :
    x.le y = true ↔ x.value ≤ y.value := by
  obtain ⟨a, rfl⟩ := finite
  obtain ⟨b, rfl⟩ := other
  rw [le_finite, decide_eq_true_iff]
  rfl

end Double

namespace Ramp

variable {α β : Type}

/-! ## Stops and their outputs as arguments -/

def Ascending (knots : List (Knot α)) : Prop :=
  knots.Pairwise fun lower upper => lower.stop.lt upper.stop = true

/-- Stops that are read from their values as they are. -/
def Stable (knots : List (Knot α)) : Prop :=
  ∀ knot ∈ knots, (Value.ofDouble knot.stop).toDouble? = some knot.stop

def pairs (literal : Value → α) : List (Knot α) → List α
  | [] => []
  | knot :: rest => literal (.ofDouble knot.stop) :: knot.output :: pairs literal rest

theorem map_pairs (change : α → β) {literal : Value → α} {other : Value → β}
    (kept : ∀ value, change (literal value) = other value) (knots : List (Knot α)) :
    (pairs literal knots).map change = pairs other (knots.map (Knot.map change)) := by
  induction knots with
  | nil => rfl
  | cons knot rest ih => simp [pairs, Knot.map, kept, ih]

theorem Ascending.map {knots : List (Knot α)} (ascending : Ascending knots) (change : α → β) :
    Ascending (knots.map (Knot.map change)) := by
  unfold Ascending
  rw [List.pairwise_map]
  exact ascending

/-- A stop is below each one at a later place. -/
theorem Ascending.lt {knots : List (Knot α)} (ascending : Ascending knots) {place later : Nat}
    {lower upper : Knot α} (before : place < later) (first : knots[place]? = some lower)
    (second : knots[later]? = some upper) : lower.stop.lt upper.stop = true := by
  obtain ⟨within, rfl⟩ := List.getElem?_eq_some_iff.mp first
  obtain ⟨within', rfl⟩ := List.getElem?_eq_some_iff.mp second
  exact List.pairwise_iff_getElem.mp ascending place later within within' before

theorem Stable.map {knots : List (Knot α)} (stable : Stable knots) (change : α → β) :
    Stable (knots.map (Knot.map change)) := by
  intro knot member
  obtain ⟨original, present, rfl⟩ := List.mem_map.mp member
  exact stable original present

theorem Stable.finite {knots : List (Knot α)} (stable : Stable knots) {knot : Knot α}
    (member : knot ∈ knots) : ∃ y, knot.stop = .finite y :=
  Value.toDouble?_finite (stable knot member)

theorem Stable.tail {knot : Knot α} {rest : List (Knot α)} (stable : Stable (knot :: rest)) :
    Stable rest :=
  fun other member => stable other (List.mem_cons_of_mem _ member)

/-- A stable stop is the number that its value comes to. -/
theorem Stable.number {knots : List (Knot α)} (stable : Stable knots) {knot : Knot α}
    (member : knot ∈ knots) (function : String) (position : Nat) :
    Operand.number function position (.ok (.ofDouble knot.stop)) = .ok knot.stop :=
  Operand.number_eq_ok.mpr ⟨_, rfl, stable knot member⟩

/-- Stops are read from the arguments that they were put into. -/
theorem knots_pairs {knots : List (Knot Outcome)} (stable : Stable knots) (position : Nat) :
    Ramp.knots position (pairs .ok knots) = .ok knots := by
  induction knots generalizing position with
  | nil => rfl
  | cons knot rest ih =>
      rw [pairs, Ramp.knots, stable.number List.mem_cons_self, ih stable.tail]
      rfl

end Ramp

/-! ## Outputs among the arguments that are asked for -/

namespace Inquiry

/-- The positions of outputs: the odd ones, from that of the first output on. -/
def outputs (first : Nat) (positions : List Nat) : List Nat :=
  positions.filter fun position => decide (first ≤ position ∧ position % 2 = 1)

variable {first position : Nat} {positions : List Nat}

@[simp] theorem outputs_append (others : List Nat) :
    outputs first (positions ++ others) = outputs first positions ++ outputs first others :=
  List.filter_append _ _

theorem outputs_cons_of_odd (behind : first ≤ position) (odd : position % 2 = 1) :
    outputs first (position :: positions) = position :: outputs first positions := by
  simp [outputs, behind, odd]

theorem outputs_eq_nil (even : ∀ position ∈ positions, first ≤ position → position % 2 = 0) :
    outputs first positions = [] := by
  rw [outputs, List.filter_eq_nil_iff]
  intro position member output
  have within := of_decide_eq_true output
  have paired := even position member within.1
  omega

end Inquiry

namespace Ramp

variable {α β : Type}

/-! ## Steps -/

/-- The output of a step by its number: that of the last stop not above the input, or the first. -/
inductive Selects (x : Double) (first : α) (knots : List (Knot α)) : Nat → α → Prop where
  | first (below : ∀ knot ∈ knots, x.lt knot.stop = true) : Selects x first knots 0 first
  | stop {place : Nat} {knot : Knot α} (found : knots[place]? = some knot)
      (reached : knot.stop.le x = true)
      (last : ∀ later above, place < later → knots[later]? = some above →
        x.lt above.stop = true) : Selects x first knots (place + 1) knot.output

/-- Behind a stop that is reached, what is selected there is selected altogether. -/
theorem Selects.cons {x : Double} {first : α} {knot : Knot α} {rest : List (Knot α)} {number : Nat}
    {output : α} (selects : Selects x knot.output rest number output)
    (reached : knot.stop.le x = true) : Selects x first (knot :: rest) (number + 1) output := by
  cases selects with
  | first below =>
      refine .stop rfl reached fun later above behind present => ?_
      cases later with
      | zero => cases behind
      | succ later => exact below above (List.mem_of_getElem? present)
  | @stop place _ found passed last =>
      refine @Selects.stop _ _ _ (knot :: rest) (place + 1) _ found passed ?_
      intro later above behind present
      cases later with
      | zero => cases behind
      | succ later => exact last later above (Nat.lt_of_succ_lt_succ behind) present

/-- What is selected among replaced outputs replaces what was selected before. -/
theorem Selects.of_map {change : α → β} {x : Double} {first : α} {knots : List (Knot α)}
    {number : Nat} {output : β}
    (selects : Selects x (change first) (knots.map (Knot.map change)) number output) :
    ∃ original, Selects x first knots number original ∧ output = change original := by
  cases selects with
  | first below =>
      exact ⟨first, .first fun knot member => below _ (List.mem_map_of_mem member), rfl⟩
  | stop found reached last =>
      rw [List.getElem?_map] at found
      obtain ⟨knot, present, rfl⟩ := Option.map_eq_some_iff.mp found
      refine ⟨knot.output, .stop present reached fun later above behind there => ?_, rfl⟩
      apply last later (above.map change) behind
      rw [List.getElem?_map, there]
      rfl

/-- An input below the first stop is below all. -/
theorem lt_of_ascending {x : Double} (finite : ∃ y, x = .finite y) {knot : Knot α}
    {rest : List (Knot α)} (stable : Stable (knot :: rest)) (ascending : Ascending (knot :: rest))
    (below : x.lt knot.stop = true) : ∀ other ∈ knot :: rest, x.lt other.stop = true := by
  intro other member
  rcases List.mem_cons.mp member with rfl | behind
  · exact below
  · have above := (List.pairwise_cons.mp ascending).1 other behind
    have first := stable.finite List.mem_cons_self
    rw [Double.lt_iff first (stable.finite member)] at above
    rw [Double.lt_iff finite first] at below
    rw [Double.lt_iff finite (stable.finite member)]
    omega

/-- A step stops before a stop above the input, and else goes on behind it. -/
theorem stepFrom_pairs_cons (x : Double) {knot : Knot Outcome} {rest : List (Knot Outcome)}
    (stable : Stable (knot :: rest)) (current : Outcome) (position : Nat) :
    stepFrom x current position (pairs .ok (knot :: rest)) =
      if x.lt knot.stop then current
      else stepFrom x knot.output (position + 2) (pairs .ok rest) := by
  rw [pairs, stepFrom, stable.number List.mem_cons_self]
  rfl

end Ramp

namespace Inquiry

variable {arguments : List Outcome} {position : Nat}

theorem outputs_argument {first : Nat} (behind : first ≤ position) (odd : position % 2 = 1) :
    outputs first ((argument position).asked arguments) = [position] := by
  rw [argument, asked_read, outputs_cons_of_odd behind odd]
  rfl

/-- What a step asks for at a stop: the output before a stop above the input, or what is behind. -/
theorem outputs_stepFrom_cons (x : Double) {knot : Ramp.Knot Outcome}
    {rest : List (Ramp.Knot Outcome)} (stable : Ramp.Stable (knot :: rest))
    (odd : position % 2 = 1)
    (behind : arguments.drop (position + 1) = Ramp.pairs .ok (knot :: rest)) :
    outputs 1 ((stepFrom x position (position + 1)
        (Ramp.pairs Except.ok (knot :: rest)).length).asked arguments) =
      if x.lt knot.stop then [position]
      else outputs 1 ((stepFrom x (position + 2) (position + 3)
        (Ramp.pairs Except.ok rest).length).asked arguments) := by
  have number := stable.number List.mem_cons_self Builtin.step.name (position + 1)
  have stop := (getElem?_of_drop behind).1
  have even : outputs 1 [position + 1] = [] := outputs_eq_nil (by simp; omega)
  rw [Ramp.pairs, List.length_cons, List.length_cons, stepFrom, Inquiry.number, asked_bind,
    asked_read, run?_read stop, number, outputs_append, even, List.nil_append]
  dsimp only
  split
  · exact outputs_argument (by omega) odd
  · rfl

end Inquiry

namespace Ramp

/--
A step comes to the output that is selected, and asks for no other.  Numbers of outputs count from
the current one, which stands right before the stops.
-/
theorem stepFrom_selects {x : Double} (finite : ∃ y, x = .finite y)
    {knots : List (Knot Outcome)} (stable : Stable knots) (ascending : Ascending knots)
    (current : Outcome) {arguments : List Outcome} {position : Nat} (odd : position % 2 = 1)
    (behind : arguments.drop (position + 1) = pairs .ok knots) :
    ∃ number output, Selects x current knots number output ∧
      stepFrom x current (position + 1) (pairs .ok knots) = output ∧
      Inquiry.outputs 1 ((Inquiry.stepFrom x position (position + 1)
        (pairs Except.ok knots).length).asked arguments) = [position + 2 * number] := by
  induction knots generalizing current position with
  | nil => exact ⟨0, current, .first (by simp), rfl, Inquiry.outputs_argument (by omega) odd⟩
  | cons knot rest ih =>
      rw [stepFrom_pairs_cons x stable, Inquiry.outputs_stepFrom_cons x stable odd behind]
      by_cases below : x.lt knot.stop = true
      · rw [if_pos below, if_pos below]
        exact ⟨0, current, .first (lt_of_ascending finite stable ascending below), rfl, rfl⟩
      · rw [if_neg below, if_neg below]
        have later := (Inquiry.getElem?_of_drop (Inquiry.getElem?_of_drop behind).2).2
        obtain ⟨number, output, selects, comes, asked⟩ :=
          ih stable.tail (List.pairwise_cons.mp ascending).2 knot.output
            (show (position + 2) % 2 = 1 by omega) later
        have reached : knot.stop.le x = true := by
          have stop := stable.finite List.mem_cons_self
          rw [Double.lt_iff finite stop] at below
          rw [Double.le_iff stop finite]
          omega
        refine ⟨number + 1, output, selects.cons reached, comes, ?_⟩
        rw [asked, Nat.mul_add, Nat.add_assoc, Nat.add_comm 2]

/-- A step on a number comes to the output that is selected, and asks for it alone. -/
theorem step_selects (source : Source) {x : Double} {input first : Outcome}
    {knots : List (Knot Outcome)} (stable : Stable knots) (ascending : Ascending knots)
    (number : Operand.number Builtin.step.name 0 input = .ok x) {arguments : List Outcome}
    (given : arguments = input :: first :: pairs .ok knots) :
    ∃ number output, Selects x first knots number output ∧
      Builtin.step.call source arguments = output ∧
      Inquiry.outputs 1 ((Inquiry.step arguments.length).asked arguments) = [2 * number + 1] := by
  have finite := finite_of_operand number
  have behind : arguments.drop 2 = pairs .ok knots := by rw [given]; rfl
  obtain ⟨place, output, selects, comes, asked⟩ :=
    stepFrom_selects finite stable ascending first (show 1 % 2 = 1 from rfl) behind
  refine ⟨place, output, selects, ?_, ?_⟩
  · subst given
    apply Builtin.call_eq_of_rule
    · exact Builtin.accepts_of_atLeast rfl (by simp)
    · refine congrArg some ?_
      rw [step, number]
      exact comes
  · have even : Inquiry.outputs 1 [0] = [] := rfl
    have length : arguments.length - 2 = (pairs Except.ok knots).length := by rw [given]; rfl
    have known : arguments[0]? = some input := by rw [given]; rfl
    rw [Inquiry.step, Inquiry.number, Inquiry.asked_bind, Inquiry.asked_read,
      Inquiry.run?_read known, number, Inquiry.outputs_append, even, List.nil_append, length]
    dsimp only
    rw [asked, Nat.add_comm]

/-! ## Interpolations -/

/-- An input stands beyond the stop at an end, whose place is given, or inside a segment. -/
inductive Location (α : Type) where
  | beyond (place : Nat) (knot : Knot α)
  | inside (segment : Segment α)

namespace Location

def map (change : α → β) : Location α → Location β
  | .beyond place knot => .beyond place (knot.map change)
  | .inside segment => .inside (segment.map change)

def answer (curve : Curve) (x : Double) : Location Outcome → Outcome
  | .beyond _ knot => knot.output
  | .inside segment => blendSegment curve x segment

/-- The outputs of the stops around an input, the upper one only if the lower one has a value. -/
def outputs (positionOf : Nat → Nat) : Location Outcome → List Nat
  | .beyond place _ => [positionOf place]
  | .inside segment =>
      positionOf segment.index ::
        if segment.lower.output.isOk then [positionOf (segment.index + 1)] else []

end Location

def locate? (x : Double) (knots : List (Knot α)) : Option (Location α) :=
  match knots.head?, knots.getLast? with
  | some first, some last =>
      if x.le first.stop then some (.beyond 0 first)
      else if last.stop.le x then some (.beyond (knots.length - 1) last)
      else (segment? x 0 knots).map .inside
  | _, _ => none

/-- The location goes by the stops alone. -/
theorem locate?_map (change : α → β) (x : Double) (knots : List (Knot α)) :
    locate? x (knots.map (Knot.map change)) = (locate? x knots).map (Location.map change) := by
  unfold locate?
  rw [List.head?_map, List.getLast?_map, List.length_map, segment?_map]
  cases knots.head? with
  | none => rfl
  | some first =>
      cases knots.getLast? with
      | none => rfl
      | some last =>
          dsimp only [Option.map_some, Knot.map]
          split
          · rfl
          · split
            · rfl
            · cases segment? x 0 knots <;> rfl

/-- The output of an interpolation is found at the location of its input. -/
theorem outputAt?_eq_locate? (curve : Curve) (x : Double) (knots : List (Knot Outcome)) :
    outputAt? curve x knots = (locate? x knots).map (Location.answer curve x) := by
  unfold outputAt? locate?
  cases knots.head? with
  | none => rfl
  | some first =>
      cases knots.getLast? with
      | none => rfl
      | some last =>
          dsimp only
          split
          · rfl
          · split
            · rfl
            · cases segment? x 0 knots <;> rfl

/-- The three ways to find a location, by the comparisons that are made in turn. -/
inductive Found (x : Double) (knots : List (Knot α)) : Location α → Prop where
  | first {first last : Knot α} (head : knots.head? = some first)
      (ended : knots.getLast? = some last) (low : x.le first.stop = true) :
      Found x knots (.beyond 0 first)
  | last {first last : Knot α} (head : knots.head? = some first)
      (ended : knots.getLast? = some last) (above : ¬x.le first.stop = true)
      (high : last.stop.le x = true) : Found x knots (.beyond (knots.length - 1) last)
  | inside {first last : Knot α} {segment : Segment α} (head : knots.head? = some first)
      (ended : knots.getLast? = some last) (above : ¬x.le first.stop = true)
      (before : ¬last.stop.le x = true) (around : segment? x 0 knots = some segment) :
      Found x knots (.inside segment)

theorem found_of_locate? {x : Double} {knots : List (Knot α)} {location : Location α}
    (found : locate? x knots = some location) : Found x knots location := by
  unfold locate? at found
  split at found
  · rename_i first last head ended
    split at found
    · rename_i low
      obtain rfl := Option.some.inj found
      exact .first head ended low
    · rename_i above
      split at found
      · rename_i high
        obtain rfl := Option.some.inj found
        exact .last head ended above high
      · rename_i before
        obtain ⟨segment, around, rfl⟩ := Option.map_eq_some_iff.mp found
        exact .inside head ended above before around
  · cases found

structure Encloses (x : Double) (knots : List (Knot α)) (segment : Segment α) : Prop where
  lower : knots[segment.index]? = some segment.lower
  upper : knots[segment.index + 1]? = some segment.upper
  reached : segment.lower.stop.le x = true
  below : x.lt segment.upper.stop = true

/-- There is at most one segment around an input. -/
theorem Encloses.unique {x : Double} (finite : ∃ y, x = .finite y) {knots : List (Knot α)}
    (stable : Stable knots) (ascending : Ascending knots) {one other : Segment α}
    (first : Encloses x knots one) (second : Encloses x knots other) : one.index ≤ other.index := by
  by_contra behind
  -- The upper end of the earlier segment would be at most the lower end of the later one.
  have upper := stable.finite (List.mem_of_getElem? second.upper)
  have lower := stable.finite (List.mem_of_getElem? first.lower)
  have reached := (Double.le_iff lower finite).mp first.reached
  have below := (Double.lt_iff finite upper).mp second.below
  rcases Nat.eq_or_lt_of_le (show other.index + 1 ≤ one.index by omega) with same | before
  · have ends : some other.upper = some one.lower := by rw [← second.upper, ← first.lower, same]
    rw [Option.some.inj ends] at below
    omega
  · have between := (Double.lt_iff upper lower).mp (ascending.lt before second.upper first.lower)
    omega

/-- Where the input of an interpolation stands, told by the order of the stops. -/
inductive Located (x : Double) (knots : List (Knot α)) : Location α → Prop where
  | first {knot : Knot α} (head : knots.head? = some knot) (low : x.le knot.stop = true) :
      Located x knots (.beyond 0 knot)
  | last {knot : Knot α} (ended : knots.getLast? = some knot) (high : knot.stop.le x = true) :
      Located x knots (.beyond (knots.length - 1) knot)
  | inside {segment : Segment α}
      (above : ∀ first, knots.head? = some first → first.stop.lt x = true)
      (before : ∀ last, knots.getLast? = some last → x.lt last.stop = true)
      (encloses : Encloses x knots segment)
      (only : ∀ other, Encloses x knots other → other.index = segment.index) :
      Located x knots (.inside segment)

/-- The segment that is found begins at the input or below it, and ends above it. -/
theorem le_of_segment? {x : Double} (finite : ∃ y, x = .finite y) {index : Nat} {lower : Knot α}
    {rest : List (Knot α)} {segment : Segment α} (stable : Stable (lower :: rest))
    (reached : lower.stop.le x = true) (inside : segment? x index (lower :: rest) = some segment) :
    segment.lower.stop.le x = true ∧ x.lt segment.upper.stop = true := by
  induction rest generalizing index lower with
  | nil => cases inside
  | cons upper rest ih =>
      rw [segment?] at inside
      split at inside
      · rename_i below
        obtain rfl := Option.some.inj inside
        exact ⟨reached, below⟩
      · rename_i passed
        have stop := stable.tail.finite List.mem_cons_self
        apply ih stable.tail _ inside
        rw [Double.lt_iff finite stop] at passed
        rw [Double.le_iff stop finite]
        omega

/-- The location that is found is where the input stands. -/
theorem located_of_locate? {x : Double} (finite : ∃ y, x = .finite y) {knots : List (Knot α)}
    (stable : Stable knots) (ascending : Ascending knots) {location : Location α}
    (found : locate? x knots = some location) : Located x knots location := by
  cases found_of_locate? found with
  | first head _ low => exact .first head low
  | last _ ended _ high => exact .last ended high
  | @inside first last segment head ended above before around =>
      obtain ⟨rest, rfl⟩ := List.head?_eq_some_iff.mp head
      have firstStop := stable.finite List.mem_cons_self
      have lastStop := stable.finite (List.mem_of_getLast? ended)
      rw [Double.le_iff finite firstStop] at above
      rw [Double.le_iff lastStop finite] at before
      have reached : first.stop.le x = true := by
        rw [Double.le_iff firstStop finite]
        omega
      obtain ⟨place, same, lower, upper⟩ := getElem?_of_segment? around
      rw [Nat.zero_add] at same
      obtain ⟨low, high⟩ := le_of_segment? finite stable reached around
      have encloses : Encloses x (first :: rest) segment :=
        ⟨by rwa [same], by rwa [same], low, high⟩
      refine .inside ?_ ?_ encloses fun other others => ?_
      · rintro knot ⟨⟩
        rw [Double.lt_iff firstStop finite]
        omega
      · intro knot also
        cases ended.symm.trans also
        rw [Double.lt_iff finite lastStop]
        omega
      · exact Nat.le_antisymm (others.unique finite stable ascending encloses)
          (encloses.unique finite stable ascending others)

end Ramp

namespace Inquiry

variable {arguments : List Outcome} {knots : List (Ramp.Knot Nat)}

/-- Of the outputs of an interpolation, those where its input stands are asked for. -/
theorem asked_outputAt (refusal : Error) (curve : Curve) {x : Double} {positionOf : Nat → Nat}
    (placed : ∀ place knot, knots[place]? = some knot →
      knot.output = positionOf place ∧ knot.output < arguments.length)
    {location : Ramp.Location Nat} (found : Ramp.locate? x knots = some location) :
    (outputAt refusal curve x knots).asked arguments =
      (location.map (fetch arguments)).outputs positionOf := by
  unfold outputAt
  cases Ramp.found_of_locate? found with
  | first head ended low =>
      rw [head, ended]
      rw [List.head?_eq_getElem?] at head
      dsimp only
      rw [if_pos low, argument, asked_read, (placed _ _ head).1]
      rfl
  | last head ended above high =>
      rw [head, ended]
      rw [List.getLast?_eq_getElem?] at ended
      dsimp only
      rw [if_neg above, if_pos high, argument, asked_read, (placed _ _ ended).1]
      rfl
  | @inside _ _ segment head ended above before around =>
      obtain ⟨place, same, lower, upper⟩ := Ramp.getElem?_of_segment? around
      rw [Nat.zero_add] at same
      subst same
      obtain ⟨lowerOutput, lowerWithin⟩ := placed _ _ lower
      obtain ⟨upperOutput, _⟩ := placed _ _ upper
      rw [head, ended]
      dsimp only
      rw [if_neg above, if_neg before, around]
      dsimp only [Ramp.Location.map, Ramp.Location.outputs, Ramp.Segment.map, Ramp.Knot.map]
      rw [asked_bind, argument, asked_read, ← argument, run?_fetch lowerWithin, lowerOutput]
      cases fetch arguments (positionOf segment.index) with
      | error cause => rfl
      | ok a =>
          dsimp only
          rw [asked_bind, argument, asked_read, upperOutput]
          split <;> rfl

end Inquiry

namespace Ramp

/-- An input that is a number stands somewhere if there are stops. -/
theorem locate?_isSome {x : Double} (finite : ∃ y, x = .finite y) {knots : List (Knot Outcome)}
    (stable : Stable knots) (occupied : knots ≠ []) :
    ∃ location, locate? x knots = some location := by
  obtain ⟨y, rfl⟩ := finite
  have answered : (outputAt? .linear (.finite y) knots).isSome = true :=
    outputAt?_isSome .linear (fun knot member => stable.finite member) occupied
  rw [outputAt?_eq_locate?, Option.isSome_map] at answered
  exact Option.isSome_iff_exists.mp answered

theorem two_le_length_pairs {literal : Value → α} {knots : List (Knot α)} (occupied : knots ≠ []) :
    2 ≤ (pairs literal knots).length := by
  obtain ⟨knot, rest, rfl⟩ := List.exists_cons_of_ne_nil occupied
  simp [pairs]

variable {shape input : Outcome} {curve : Curve} {x : Double} {knots : List (Knot Outcome)}
  {arguments : List Outcome} {location : Location Outcome}

/-- An interpolation comes to the answer where its input stands. -/
theorem call_interpolate (source : Source) (stable : Stable knots) (occupied : knots ≠ [])
    (names : curveOf shape = .ok curve)
    (number : Operand.number Builtin.interpolate.name 1 input = .ok x)
    (found : locate? x knots = some location) :
    Builtin.interpolate.call source (shape :: input :: pairs .ok knots) =
      location.answer curve x := by
  have long : 2 ≤ (pairs Except.ok knots).length := two_le_length_pairs occupied
  have read : readParts shape input (pairs .ok knots) = .ok (curve, x, knots) := by
    unfold readParts
    rw [names, number, knots_pairs stable]
    rfl
  apply Builtin.call_eq_of_rule
  · exact Builtin.accepts_of_atLeast rfl (by simp only [List.length_cons]; omega)
  · show interpolate? shape input (pairs .ok knots) = _
    rw [interpolate?_eq_readParts, read]
    dsimp only
    rw [outputAt?_eq_locate?, found]
    rfl

def position (place : Nat) : Nat := 2 * place + 3

/-- The outputs where an input stands are outputs. -/
theorem outputs_outputs (location : Location Outcome) :
    Inquiry.outputs 3 (location.outputs position) = location.outputs position := by
  have output (place : Nat) : 3 ≤ position place ∧ position place % 2 = 1 := by
    unfold position
    omega
  cases location with
  | beyond place knot => simp [Location.outputs, Inquiry.outputs, output]
  | inside segment =>
      obtain ⟨index, lower, upper⟩ := segment
      cases held : lower.output <;> simp [Location.outputs, Inquiry.outputs, output, held]

/-- Of all outputs an interpolation asks for those where its input stands. -/
theorem outputs_interpolate (stable : Stable knots) (names : curveOf shape = .ok curve)
    (number : Operand.number Builtin.interpolate.name 1 input = .ok x)
    (given : arguments = shape :: input :: pairs .ok knots)
    (found : locate? x knots = some location) :
    Inquiry.outputs 3 ((Inquiry.interpolate arguments.length).asked arguments) =
      location.outputs position := by
  have first : arguments[0]? = some shape := by rw [given]; rfl
  have second : arguments[1]? = some input := by rw [given]; rfl
  have behind : arguments.drop 2 = pairs .ok knots := by rw [given]; rfl
  have length : arguments.length - 2 = (pairs Except.ok knots).length := by rw [given]; rfl
  obtain ⟨result, run, read, placed⟩ := Inquiry.run?_knots behind
  rw [knots_pairs stable] at read
  cases result with
  | error cause => cases read
  | ok numbered =>
      obtain rfl : knots = numbered.map (Knot.map (Inquiry.fetch arguments)) :=
        Except.ok.inj read
      rw [locate?_map] at found
      obtain ⟨place, here, rfl⟩ := Option.map_eq_some_iff.mp found
      have positioned (place : Nat) (knot : Knot Nat) (present : numbered[place]? = some knot) :
          knot.output = position place ∧ knot.output < arguments.length := by
        obtain ⟨output, within⟩ := placed numbered rfl place knot present
        exact ⟨by unfold position; omega, within⟩
      have stops : Inquiry.outputs 3 ((Inquiry.knots 2 (arguments.length - 2)).asked arguments) =
          [] :=
        Inquiry.outputs_eq_nil fun asking member _ => Inquiry.even_of_mem_asked_knots rfl member
      rw [← length] at run
      rw [Inquiry.interpolate, Inquiry.asked_bind, Inquiry.asked_read, Inquiry.run?_read first,
        names, Inquiry.number, Inquiry.outputs_append]
      dsimp only
      rw [Inquiry.asked_bind, Inquiry.asked_read, Inquiry.run?_read second, number,
        Inquiry.outputs_append]
      dsimp only
      rw [Inquiry.asked_bind, run, Inquiry.outputs_append, stops]
      dsimp only
      rw [Inquiry.asked_outputAt _ _ positioned here, outputs_outputs]
      rfl

end Ramp

end MapStyle
