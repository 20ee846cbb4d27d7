import ZkLlmGateway.Matching.Scan

/-!
# Where matches lie

The spans of a scan are disjoint; a matcher finds each of them at its
beginning, and finds nothing where no span lies.
-/

namespace ZkLlmGateway.Matching

universe u

variable {α : Type u}

/-- Where the found segments begin and end, counted from an offset. -/
def spansFrom : Nat → List (Segment α) → List (Nat × Nat)
  | _, [] => []
  | offset, .keep _ :: rest => spansFrom (offset + 1) rest
  | offset, .hit items :: rest =>
      (offset, offset + items.length) :: spansFrom (offset + items.length) rest

def spans (find : List α → Nat) (offset : Nat) (input : List α) : List (Nat × Nat) :=
  spansFrom offset (segments find input)

/-- A position inside a span. -/
def Within (span : Nat × Nat) (position : Nat) : Prop :=
  span.1 ≤ position ∧ position < span.2

instance (span : Nat × Nat) (position : Nat) : Decidable (Within span position) :=
  inferInstanceAs (Decidable (_ ∧ _))

section Spans

variable {find : List α → Nat} {offset position : Nat} {input : List α} {span other : Nat × Nat}

@[simp]
theorem spans_nil : spans find offset [] = [] :=
  rfl

theorem spans_keep {item : α} {rest : List α} (nothing : find (item :: rest) = 0) :
    spans find offset (item :: rest) = spans find (offset + 1) rest := by
  rw [spans, segments_keep nothing, spansFrom, spans]

theorem spans_hit (bounded : ∀ input, find input ≤ input.length) {item : α} {rest : List α}
    {count : Nat} (found : find (item :: rest) = count + 1) :
    spans find offset (item :: rest) =
      (offset, offset + (count + 1)) :: spans find (offset + (count + 1)) (rest.drop count) := by
  have within := bounded (item :: rest)
  rw [found, List.length_cons] at within
  have length : (item :: rest.take count).length = count + 1 := by
    rw [List.length_cons, List.length_take, min_eq_left (by omega)]
  rw [spans, segments_hit found, spansFrom, length, spans]

/-- A span lies in the input, and the matcher finds it. -/
theorem of_mem_spans (bounded : ∀ input, find input ≤ input.length)
    (member : span ∈ spans find offset input) :
    offset ≤ span.1 ∧ span.1 < span.2 ∧ span.2 ≤ offset + input.length ∧
      find (input.drop (span.1 - offset)) = span.2 - span.1 := by
  induction input using scan_induction find generalizing offset with
  | nil => contradiction
  | keep item rest nothing inductionHypothesis =>
      rw [spans_keep nothing] at member
      obtain ⟨after, nonempty, inside, found⟩ := inductionHypothesis member
      have shifted : span.1 - offset = (span.1 - (offset + 1)) + 1 := by omega
      rw [List.length_cons, shifted, List.drop_succ_cons]
      exact ⟨by omega, nonempty, by omega, found⟩
  | hit item rest count isFound inductionHypothesis =>
      have within := bounded (item :: rest)
      rw [isFound, List.length_cons] at within
      rw [spans_hit bounded isFound, List.mem_cons] at member
      rw [List.length_cons]
      rcases member with rfl | later
      · refine ⟨le_rfl, by simp, by simp only; omega, ?_⟩
        simp only [Nat.sub_self, List.drop_zero, isFound]
        omega
      · obtain ⟨after, nonempty, inside, found⟩ := inductionHypothesis later
        rw [List.length_drop] at inside
        rw [List.drop_drop] at found
        have shifted : span.1 - offset = (count + (span.1 - (offset + (count + 1)))) + 1 := by
          omega
        rw [shifted, List.drop_succ_cons]
        exact ⟨by omega, nonempty, by omega, found⟩

/-- Outside all spans nothing is found. -/
theorem find_eq_zero_of_outside (bounded : ∀ input, find input ≤ input.length)
    (after : offset ≤ position) (inside : position < offset + input.length)
    (outside : ∀ span ∈ spans find offset input, ¬Within span position) :
    find (input.drop (position - offset)) = 0 := by
  induction input using scan_induction find generalizing offset with
  | nil =>
      rw [List.length_nil] at inside
      omega
  | keep item rest nothing inductionHypothesis =>
      rw [spans_keep nothing] at outside
      rw [List.length_cons] at inside
      rcases Nat.eq_or_lt_of_le after with rfl | later
      · rwa [Nat.sub_self, List.drop_zero]
      · have shifted : position - offset = (position - (offset + 1)) + 1 := by omega
        rw [shifted, List.drop_succ_cons]
        exact inductionHypothesis later (by omega) outside
  | hit item rest count found inductionHypothesis =>
      have within := bounded (item :: rest)
      rw [found, List.length_cons] at within
      rw [spans_hit bounded found] at outside
      rw [List.length_cons] at inside
      have notFirst : ¬Within (offset, offset + (count + 1)) position :=
        outside _ List.mem_cons_self
      rw [Within, not_and, not_lt] at notFirst
      have beyond : offset + (count + 1) ≤ position := notFirst after
      have shifted : position - offset = (count + (position - (offset + (count + 1)))) + 1 := by
        omega
      rw [shifted, List.drop_succ_cons, ← List.drop_drop]
      refine inductionHypothesis beyond ?_ fun span member =>
        outside span (List.mem_cons_of_mem _ member)
      rw [List.length_drop]
      omega

/-- Spans do not overlap. -/
theorem eq_of_within (bounded : ∀ input, find input ≤ input.length)
    (member : span ∈ spans find offset input) (otherMember : other ∈ spans find offset input)
    (within : Within span position) (otherWithin : Within other position) : span = other := by
  induction input using scan_induction find generalizing offset with
  | nil => contradiction
  | keep item rest nothing inductionHypothesis =>
      rw [spans_keep nothing] at member otherMember
      exact inductionHypothesis member otherMember
  | hit item rest count found inductionHypothesis =>
      rw [spans_hit bounded found, List.mem_cons] at member otherMember
      -- A later span begins behind the first.
      have apart : ∀ later ∈ spans find (offset + (count + 1)) (rest.drop count),
          Within later position → ¬Within (offset, offset + (count + 1)) position := by
        intro later inLater inside first
        have behind := (of_mem_spans bounded inLater).1
        exact absurd (inside.1) (not_le.mpr (lt_of_lt_of_le first.2 behind))
      rcases member with rfl | later
      · rcases otherMember with rfl | otherLater
        · rfl
        · exact absurd within (apart other otherLater otherWithin)
      · rcases otherMember with rfl | otherLater
        · exact absurd otherWithin (apart span later within)
        · exact inductionHypothesis later otherLater

end Spans

end ZkLlmGateway.Matching
