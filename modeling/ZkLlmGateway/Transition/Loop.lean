import Mathlib.Logic.Basic

/-!
# Loops

A loop repeats its body until the body has nothing more to do: `body state` is
`some next` when the loop goes round once more and `none` when it is left.  A
loop is run with fuel; what it returns does not depend on how much there was.
-/

namespace ZkLlmGateway.Transition

universe u

variable {σ : Type u} {body : σ → Option σ} {state final other : σ}

/-- The state in which a loop is left, when `fuel` rounds are enough to get there. -/
def loop (body : σ → Option σ) : Nat → σ → Option σ
  | 0, _ => none
  | fuel + 1, state =>
      match body state with
      | none => some state
      | some next => loop body fuel next

/-- The loop ends, and `final` is the state in which it is left. -/
def Ends (body : σ → Option σ) (state final : σ) : Prop :=
  ∃ fuel, loop body fuel state = some final

theorem loop_of_stop (stops : body state = none) (fuel : Nat) :
    loop body (fuel + 1) state = some state := by
  rw [loop, stops]

theorem loop_of_step {next : σ} (steps : body state = some next) (fuel : Nat) :
    loop body (fuel + 1) state = loop body fuel next := by
  rw [loop, steps]

theorem Ends.of_stop (stops : body state = none) : Ends body state state :=
  ⟨1, loop_of_stop stops 0⟩

theorem ends_of_step {next : σ} (steps : body state = some next) :
    Ends body state final ↔ Ends body next final := by
  constructor
  · rintro ⟨fuel, ended⟩
    cases fuel with
    | zero => exact absurd ended (by simp [loop])
    | succ fuel =>
        rw [loop_of_step steps] at ended
        exact ⟨fuel, ended⟩
  · rintro ⟨fuel, ended⟩
    exact ⟨fuel + 1, (loop_of_step steps fuel).trans ended⟩

/-- More fuel changes nothing. -/
theorem loop_mono {fuel more : Nat} (enough : fuel ≤ more)
    (ended : loop body fuel state = some final) : loop body more state = some final := by
  induction fuel generalizing state more with
  | zero => exact absurd ended (by simp [loop])
  | succ fuel inductionHypothesis =>
      cases more with
      | zero => exact absurd enough (Nat.not_succ_le_zero fuel)
      | succ more =>
          cases stepped : body state with
          | none =>
              rw [loop_of_stop stepped] at ended ⊢
              exact ended
          | some next =>
              rw [loop_of_step stepped] at ended ⊢
              exact inductionHypothesis (Nat.le_of_succ_le_succ enough) ended

/-- A loop is left in one state only. -/
theorem Ends.unique (left : Ends body state final) (right : Ends body state other) :
    final = other := by
  obtain ⟨fuel, leftEnds⟩ := left
  obtain ⟨more, rightEnds⟩ := right
  have wide := loop_mono (Nat.le_max_left fuel more) leftEnds
  rw [loop_mono (Nat.le_max_right fuel more) rightEnds] at wide
  exact (Option.some.inj wide).symm

/-- **The rule of invariants**: what holds at the start and is kept by every round
holds at the end, where the loop is left. -/
theorem Ends.invariant (holds : σ → Prop) (ends : Ends body state final) (initial : holds state)
    (preserved : ∀ state next, holds state → body state = some next → holds next) :
    holds final ∧ body final = none := by
  obtain ⟨fuel, ended⟩ := ends
  induction fuel generalizing state with
  | zero => exact absurd ended (by simp [loop])
  | succ fuel inductionHypothesis =>
      cases stepped : body state with
      | none =>
          rw [loop_of_stop stepped] at ended
          rw [← Option.some.inj ended]
          exact ⟨initial, stepped⟩
      | some next =>
          rw [loop_of_step stepped] at ended
          exact inductionHypothesis (preserved state next initial stepped) ended

theorem Ends.stops (ends : Ends body state final) : body final = none :=
  (ends.invariant (fun _ => True) trivial fun _ _ _ _ => trivial).2

/-- A loop that keeps reaching states from which it goes on does not end. -/
theorem not_ends_of_invariant (holds : σ → Prop) (initial : holds state)
    (goes : ∀ state, holds state → ∃ next, body state = some next ∧ holds next) :
    ¬Ends body state final := by
  intro ends
  have both := ends.invariant holds initial fun state next holding stepped => by
    obtain ⟨reached, equal, kept⟩ := goes state holding
    rw [stepped] at equal
    rw [Option.some.inj equal]
    exact kept
  obtain ⟨next, stepped, _⟩ := goes final both.1
  rw [both.2] at stepped
  contradiction

/-- A loop whose every round makes a measure smaller ends. -/
theorem exists_ends (measure : σ → Nat) {holds : σ → Prop} (initial : holds state)
    (smaller : ∀ state next, holds state → body state = some next →
      holds next ∧ measure next < measure state) : ∃ final, Ends body state final := by
  induction size : measure state using Nat.strongRecOn generalizing state with
  | ind size inductionHypothesis =>
      cases stepped : body state with
      | none => exact ⟨state, .of_stop stepped⟩
      | some next =>
          obtain ⟨kept, less⟩ := smaller state next initial stepped
          obtain ⟨final, ends⟩ := inductionHypothesis (measure next) (size ▸ less) kept rfl
          exact ⟨final, (ends_of_step stepped).mpr ends⟩

end ZkLlmGateway.Transition
