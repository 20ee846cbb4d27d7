import Mathlib.Data.List.TakeDrop

/-!
# Trimming an ending

To trim a list is to take an ending off for as long as it is there.  What is left
does not have the ending, and is all that the list tells of what it was put after:
the ending may have been put after it any number of times.
-/

namespace ZkLlmGateway.Encoding

universe u

section Trim

variable {α : Type u}

/-- The ending, so many times. -/
def times (count : Nat) (ending : List α) : List α :=
  (List.replicate count ending).flatten

variable [DecidableEq α]

/-- Take the ending off, in so many rounds at most. -/
def trimRounds (ending : List α) : Nat → List α → List α
  | 0, list => list
  | rounds + 1, list =>
      if ending <:+ list then trimRounds ending rounds (list.take (list.length - ending.length))
      else list

/-- `str::trim_end_matches` -/
def trimEndMatches (ending list : List α) : List α :=
  trimRounds ending list.length list

variable {ending list front : List α} {count : Nat}

omit [DecidableEq α] in
theorem times_succ (count : Nat) (ending : List α) :
    times (count + 1) ending = times count ending ++ ending := by
  rw [times, List.replicate_succ', List.flatten_append, List.flatten_singleton]
  rfl

omit [DecidableEq α] in
theorem length_times (count : Nat) (ending : List α) :
    (times count ending).length = count * ending.length := by
  simp [times]

theorem trimRounds_append_times (ended : ¬ending <:+ front) {rounds : Nat}
    (enough : count ≤ rounds) :
    trimRounds ending rounds (front ++ times count ending) = front := by
  induction count generalizing rounds with
  | zero =>
      rw [times, List.replicate_zero, List.flatten_nil, List.append_nil]
      cases rounds with
      | zero => rfl
      | succ rounds => rw [trimRounds, if_neg ended]
  | succ count inductionHypothesis =>
      obtain ⟨rounds, rfl⟩ := Nat.exists_eq_add_of_lt enough
      have isEnding : ending <:+ front ++ times (count + 1) ending := by
        rw [times_succ, ← List.append_assoc]
        exact List.suffix_append _ _
      rw [trimRounds, if_pos isEnding, times_succ, ← List.append_assoc,
        List.length_append, Nat.add_sub_cancel, List.take_left]
      exact inductionHypothesis (Nat.le_add_right count rounds)

/-- What is in front of the endings is left. -/
theorem trimEndMatches_append_times (ended : ¬ending <:+ front) (count : Nat) :
    trimEndMatches ending (front ++ times count ending) = front := by
  apply trimRounds_append_times ended
  have positive : 0 < ending.length := by
    apply List.length_pos_iff.mpr
    rintro rfl
    exact ended List.nil_suffix
  have many : count ≤ count * ending.length := Nat.le_mul_of_pos_right count positive
  rw [List.length_append, length_times]
  exact Nat.le_add_left_of_le many

/-- A list is what is left of it, with the ending put after it so many times. -/
theorem exists_eq_trimRounds_append (ending : List α) (rounds : Nat) (list : List α) :
    ∃ count, list = trimRounds ending rounds list ++ times count ending := by
  induction rounds generalizing list with
  | zero => exact ⟨0, (List.append_nil list).symm⟩
  | succ rounds inductionHypothesis =>
      rw [trimRounds]
      split
      next isEnding =>
        obtain ⟨front, rfl⟩ := isEnding
        rw [List.length_append, Nat.add_sub_cancel, List.take_left]
        obtain ⟨count, same⟩ := inductionHypothesis front
        refine ⟨count + 1, ?_⟩
        rw [times_succ, ← List.append_assoc, ← same]
      next => exact ⟨0, (List.append_nil list).symm⟩

theorem exists_eq_trimEndMatches_append (ending list : List α) :
    ∃ count, list = trimEndMatches ending list ++ times count ending :=
  exists_eq_trimRounds_append ending list.length list

end Trim

end ZkLlmGateway.Encoding
