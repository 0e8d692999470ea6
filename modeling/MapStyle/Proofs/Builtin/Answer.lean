import MapStyle.Proofs.Builtin.Result

/-!
# Every accepted argument list has an answer

A call whose arguments are as many as its function accepts is answered by the rule of the
function.  For an interpolation this rests on the order of finite numbers: an input that lies
between the first stop and the last one lies in one of the segments between them.
-/

namespace MapStyle

namespace Ramp

/-- A number that an operand comes to is finite. -/
theorem finite_of_operand {function : String} {position : Nat} {outcome : Outcome} {x : Double}
    (reads : Operand.number function position outcome = .ok x) : ∃ y, x = .finite y := by
  obtain ⟨value, _, number⟩ := Operand.number_eq_ok.mp reads
  exact Value.toDouble?_finite number

/-- The stops that are read are finite, and there is one if two arguments are left for it. -/
theorem finite_of_knots {position : Nat} {arguments : List Outcome} {found : List (Knot Outcome)}
    (reads : knots position arguments = .ok found) :
    (∀ knot ∈ found, ∃ y, knot.stop = .finite y) ∧ (2 ≤ arguments.length → found ≠ []) := by
  induction position, arguments using knots.induct generalizing found with
  | case1 position stop output rest ih =>
      unfold knots at reads
      obtain ⟨bound, head, reads⟩ := bind_eq_ok.mp reads
      obtain ⟨others, tail, reads⟩ := bind_eq_ok.mp reads
      obtain rfl := pure_eq_ok.mp reads
      refine ⟨?_, by simp⟩
      intro knot member
      cases member with
      | head => exact finite_of_operand head
      | tail _ member => exact (ih tail).1 knot member
  | case2 arguments position short =>
      rw [knots] at reads
      · obtain rfl := pure_eq_ok.mp reads
        refine ⟨by simp, ?_⟩
        intro long
        rcases arguments with _ | ⟨stop, _ | ⟨output, rest⟩⟩
        · simp at long
        · simp at long
        · exact (short stop output rest rfl).elim
      · exact short

/-- An input from the first stop on and before the last one lies in a segment. -/
theorem segment?_isSome {input : FiniteDouble} (index : Nat) {lower : Knot Outcome}
    {rest : List (Knot Outcome)} (finite : ∀ knot ∈ lower :: rest, ∃ y, knot.stop = .finite y)
    (reached : (Double.finite input).lt lower.stop = false)
    (before : ∀ last, (lower :: rest).getLast? = some last →
      last.stop.le (.finite input) = false) :
    (segment? (.finite input) index (lower :: rest)).isSome = true := by
  induction rest generalizing index lower with
  | nil =>
      obtain ⟨bound, stop⟩ := finite lower List.mem_cons_self
      have above := before lower rfl
      rw [stop, Double.lt_finite] at reached
      rw [stop, Double.le_finite] at above
      simp only [decide_eq_false_iff_not] at reached above
      omega
  | cons upper rest ih =>
      unfold segment?
      split
      · rfl
      · rename_i passed
        apply ih (index + 1)
        · exact fun knot member => finite knot (List.mem_cons_of_mem _ member)
        · exact Bool.eq_false_iff.mpr passed
        · intro last ended
          apply before last
          rw [List.getLast?_cons_cons]
          exact ended

/-- There is an output at every finite input if there is a stop. -/
theorem outputAt?_isSome (curve : Curve) {input : FiniteDouble} {found : List (Knot Outcome)}
    (finite : ∀ knot ∈ found, ∃ y, knot.stop = .finite y) (occupied : found ≠ []) :
    (outputAt? curve (.finite input) found).isSome = true := by
  cases found with
  | nil => exact absurd rfl occupied
  | cons first rest =>
      obtain ⟨last, ended⟩ := Option.isSome_iff_exists.mp (List.getLast?_isSome.mpr occupied)
      unfold outputAt?
      rw [List.head?_cons, ended]
      dsimp only
      split
      · rfl
      · rename_i above
        split
        · rfl
        · rename_i below
          rw [Option.isSome_map]
          apply segment?_isSome 0 finite
          · obtain ⟨bound, stop⟩ := finite first List.mem_cons_self
            rw [stop, Double.le_finite] at above
            rw [stop, Double.lt_finite]
            simp only [decide_eq_true_eq, decide_eq_false_iff_not] at above ⊢
            omega
          · intro other same
            rw [ended] at same
            cases same
            exact Bool.eq_false_iff.mpr below

/-- An interpolation with a stop has an output, or it fails before it looks for one. -/
theorem interpolate?_isSome {curve input : Outcome} {arguments : List Outcome}
    (stops : 2 ≤ arguments.length) : (interpolate? curve input arguments).isSome = true := by
  rw [interpolate?_eq_readParts]
  split
  · rename_i shape x found read
    obtain ⟨_, _, read⟩ := bind_eq_ok.mp read
    obtain ⟨_, operand, read⟩ := bind_eq_ok.mp read
    obtain ⟨_, stopsRead, same⟩ := bind_eq_ok.mp read
    cases same
    obtain ⟨y, rfl⟩ := finite_of_operand operand
    obtain ⟨finite, occupied⟩ := finite_of_knots stopsRead
    exact outputAt?_isSome shape finite (occupied stops)
  · rfl

end Ramp

namespace Rule

variable {arguments : List Outcome}

theorem answer?_none_isSome {answer : Outcome} (count : arguments.length = 0) :
    ((Rule.none answer).answer? arguments).isSome = true := by
  obtain rfl := List.length_eq_zero_iff.mp count
  rfl

theorem answer?_one_isSome {run : Outcome → Outcome} (count : arguments.length = 1) :
    ((Rule.one run).answer? arguments).isSome = true := by
  obtain ⟨argument, rfl⟩ := List.length_eq_one_iff.mp count
  rfl

theorem answer?_two_isSome {run : Outcome → Outcome → Outcome} (count : arguments.length = 2) :
    ((Rule.two run).answer? arguments).isSome = true := by
  obtain ⟨left, right, rfl⟩ := List.length_eq_two.mp count
  rfl

theorem answer?_oneAndSome_isSome {run : Outcome → List Outcome → Outcome}
    (count : 1 ≤ arguments.length) : ((Rule.oneAndSome run).answer? arguments).isSome = true := by
  obtain ⟨first, rest, rfl⟩ := List.exists_cons_of_length_pos count
  rfl

theorem answer?_twoAndSome_isSome {run? : Outcome → Outcome → List Outcome → Option Outcome}
    (count : 2 ≤ arguments.length)
    (answers : ∀ first second rest, arguments = first :: second :: rest →
      (run? first second rest).isSome = true) :
    ((Rule.twoAndSome run?).answer? arguments).isSome = true := by
  rcases arguments with _ | ⟨first, _ | ⟨second, rest⟩⟩
  · simp at count
  · simp at count
  · exact answers first second rest rfl

end Rule

namespace Arity

theorem eq_of_exactly {count found : Nat} (accepted : (exactly count).accepts found = true) :
    found = count := by
  simpa [accepts] using accepted

theorem le_of_atLeast {least found : Nat} (accepted : (atLeast least).accepts found = true) :
    least ≤ found := by
  simpa [accepts] using accepted

end Arity

namespace Builtin

variable {count : Nat}

theorem accepts_one {function : UnaryFunction}
    (accepted : (Builtin.unary function).arity.accepts count = true) : count = 1 := by
  cases function
  all_goals exact Arity.eq_of_exactly accepted

theorem accepts_two {function : BinaryFunction}
    (accepted : (Builtin.binary function).arity.accepts count = true) : count = 2 := by
  cases function
  all_goals exact Arity.eq_of_exactly accepted

theorem accepts_compared {order : Comparison}
    (accepted : (Builtin.compare order).arity.accepts count = true) : count = 2 := by
  cases order
  all_goals exact Arity.eq_of_exactly accepted

/-- The rule of a function answers for every argument list of an accepted length. -/
theorem answer?_isSome (source : Source) {builtin : Builtin} {arguments : List Outcome}
    (accepted : builtin.arity.accepts arguments.length = true) :
    ((builtin.rule source).answer? arguments).isSome = true := by
  cases builtin with
  | all | any | case | coalesce | toNumber | toArray | list | concatenate => rfl
  | geometryType | featureId | properties =>
      exact Rule.answer?_none_isSome (Arity.eq_of_exactly accepted)
  | unary function => exact Rule.answer?_one_isSome (accepts_one accepted)
  | binary function => exact Rule.answer?_two_isSome (accepts_two accepted)
  | compare order => exact Rule.answer?_two_isSome (accepts_compared accepted)
  | equalTo | zoomLevel => exact Rule.answer?_two_isSome (Arity.eq_of_exactly accepted)
  | select =>
      have two : 2 ≤ arguments.length := Arity.le_of_atLeast accepted
      exact Rule.answer?_oneAndSome_isSome (Nat.le_of_succ_le two)
  | interpolate =>
      have four : 4 ≤ arguments.length := Arity.le_of_atLeast accepted
      refine Rule.answer?_twoAndSome_isSome (by omega) ?_
      rintro curve input rest rfl
      apply Ramp.interpolate?_isSome
      simp only [List.length_cons] at four
      omega
  | step => exact Rule.answer?_twoAndSome_isSome (Arity.le_of_atLeast accepted) fun _ _ _ _ => rfl
  | _ => exact Rule.answer?_one_isSome (Arity.eq_of_exactly accepted)

end Builtin

end MapStyle
