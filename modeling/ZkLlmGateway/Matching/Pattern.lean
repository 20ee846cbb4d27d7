import Mathlib.Algebra.GroupWithZero.Nat
import Mathlib.Data.List.TakeWhile
import Mathlib.Order.Basic

/-!
# Sequences of repeated classes

A pattern is a sequence of classes of items, each with bounds on how often it
is repeated and a preference for more or for fewer.  A backtracking matcher
tries the numbers of repetitions in the order of preference and takes the first
that lets the rest match.  The lengths it can reach are listed in that order,
so that what it finds is the first of the list.

Lengths within a prefix of the input do not depend on what follows it
(`lengths_append`), and an item in no class ends the reach of a pattern
(`lengths_append_edge`).
-/

namespace ZkLlmGateway.Matching

universe u

variable {α : Type u}

/-- A class of items, repeated from `least` to `most` times. -/
structure Piece (α : Type u) where
  mem : α → Bool
  least : Nat
  most : Option Nat
  greedy : Bool

/-- How often a piece can be repeated at the front of an input. -/
def Piece.reach (piece : Piece α) (input : List α) : Nat :=
  let run := (input.takeWhile piece.mem).length
  match piece.most with
  | none => run
  | some most => min run most

/-- The numbers of repetitions, in the order in which they are tried. -/
def Piece.counts (piece : Piece α) (input : List α) : List Nat :=
  let ascending := (List.range (piece.reach input + 1)).filter (piece.least ≤ ·)
  if piece.greedy then ascending.reverse else ascending

/-- The lengths of the prefixes that match, in the order in which they are tried. -/
def lengths : List (Piece α) → List α → List Nat
  | [], _ => [0]
  | piece :: rest, input =>
      (piece.counts input).flatMap fun count =>
        (lengths rest (input.drop count)).map (count + ·)

/-- The length of the match at the front of an input; `0` when there is none. -/
def find (pattern : List (Piece α)) (input : List α) : Nat :=
  (lengths pattern input).head?.getD 0

/-! ## One piece -/

theorem Piece.reach_le (piece : Piece α) (input : List α) : piece.reach input ≤ input.length := by
  have run : (input.takeWhile piece.mem).length ≤ input.length :=
    (List.takeWhile_prefix piece.mem).length_le
  unfold Piece.reach
  cases piece.most with
  | none => exact run
  | some most => exact (min_le_left _ _).trans run

theorem Piece.mem_counts {piece : Piece α} {input : List α} {count : Nat} :
    count ∈ piece.counts input ↔ piece.least ≤ count ∧ count ≤ piece.reach input := by
  have ascending : count ∈ (List.range (piece.reach input + 1)).filter (piece.least ≤ ·) ↔
      piece.least ≤ count ∧ count ≤ piece.reach input := by
    simp only [List.mem_filter, List.mem_range, decide_eq_true_eq]
    omega
  unfold Piece.counts
  cases piece.greedy with
  | false => exact ascending
  | true => exact List.mem_reverse.trans ascending

theorem Piece.mem_of_lt_reach {piece : Piece α} {input : List α} {item : α}
    (taken : item ∈ input.take (piece.reach input)) : piece.mem item = true := by
  have shorter : piece.reach input ≤ (input.takeWhile piece.mem).length := by
    unfold Piece.reach
    cases piece.most with
    | none => exact le_rfl
    | some most => exact min_le_left _ _
  have inside := List.take_subset_take_left input shorter taken
  rw [← List.prefix_iff_eq_take.mp (List.takeWhile_prefix piece.mem)] at inside
  exact List.mem_takeWhile_imp inside

/-- Within a prefix, the reach does not depend on what follows. -/
theorem Piece.reach_append (piece : Piece α) (front back : List α) :
    min (piece.reach (front ++ back)) front.length = piece.reach front := by
  have run : min ((front ++ back).takeWhile piece.mem).length front.length =
      (front.takeWhile piece.mem).length := by
    induction front with
    | nil => simp
    | cons item front inductionHypothesis =>
        rw [List.cons_append, List.takeWhile_cons, List.takeWhile_cons]
        cases piece.mem item with
        | false => simp
        | true => simpa using inductionHypothesis
  unfold Piece.reach
  cases piece.most with
  | none => exact run
  | some most =>
      simp only
      omega

private theorem filter_range (bound limit : Nat) :
    (List.range (bound + 1)).filter (· ≤ limit) = List.range (min bound limit + 1) := by
  induction bound with
  | zero => simp
  | succ bound inductionHypothesis =>
      rw [List.range_succ, List.filter_append, inductionHypothesis]
      by_cases within : bound + 1 ≤ limit
      · have all : min bound limit = bound := by omega
        have more : min (bound + 1) limit = bound + 1 := by omega
        rw [all, more, List.range_succ (n := bound + 1)]
        simp [within]
      · have same : min (bound + 1) limit = min bound limit := by omega
        rw [same]
        simp [within]

/-- Within a prefix, the numbers of repetitions are those of the prefix alone. -/
theorem Piece.counts_append (piece : Piece α) (front back : List α) :
    (piece.counts (front ++ back)).filter (· ≤ front.length) = piece.counts front := by
  have ascending : ((List.range (piece.reach (front ++ back) + 1)).filter
      (piece.least ≤ ·)).filter (· ≤ front.length) =
        (List.range (piece.reach front + 1)).filter (piece.least ≤ ·) := by
    rw [List.filter_filter, ← Piece.reach_append piece front back, ← filter_range,
      List.filter_filter]
    simp only [Bool.and_comm]
  unfold Piece.counts
  cases piece.greedy with
  | false => exact ascending
  | true =>
      simp only [if_true, List.filter_reverse]
      rw [ascending]

/-! ## Whole patterns -/

theorem mem_lengths_cons {piece : Piece α} {rest : List (Piece α)} {input : List α}
    {length : Nat} :
    length ∈ lengths (piece :: rest) input ↔
      ∃ count remaining, count ∈ piece.counts input ∧
        remaining ∈ lengths rest (input.drop count) ∧ length = count + remaining := by
  rw [lengths]
  constructor
  · intro reached
    obtain ⟨count, counted, later⟩ := List.mem_flatMap.mp reached
    obtain ⟨remaining, after, rfl⟩ := List.mem_map.mp later
    exact ⟨count, remaining, counted, after, rfl⟩
  · rintro ⟨count, remaining, counted, after, rfl⟩
    exact List.mem_flatMap.mpr ⟨count, counted, List.mem_map_of_mem after⟩

theorem length_le_of_mem_lengths {pattern : List (Piece α)} {input : List α} {length : Nat}
    (reached : length ∈ lengths pattern input) : length ≤ input.length := by
  induction pattern generalizing input length with
  | nil =>
      rw [lengths, List.mem_singleton] at reached
      omega
  | cons piece rest inductionHypothesis =>
      obtain ⟨count, remaining, counted, after, rfl⟩ := mem_lengths_cons.mp reached
      have first := (Piece.mem_counts.mp counted).2.trans (piece.reach_le input)
      have second := inductionHypothesis after
      rw [List.length_drop] at second
      omega

theorem find_le_length (pattern : List (Piece α)) (input : List α) :
    find pattern input ≤ input.length := by
  unfold find
  cases reached : (lengths pattern input).head? with
  | none => exact Nat.zero_le _
  | some length => exact length_le_of_mem_lengths (List.mem_of_head? reached)

/-- The lengths within a prefix are those of the prefix alone. -/
theorem lengths_append (pattern : List (Piece α)) (front back : List α) :
    (lengths pattern (front ++ back)).filter (· ≤ front.length) = lengths pattern front := by
  induction pattern generalizing front with
  | nil => simp [lengths]
  | cons piece rest inductionHypothesis =>
      -- A number of repetitions that leaves the prefix leaves it for good.
      have outside : ∀ count : Nat, ¬count ≤ front.length →
          ((lengths rest ((front ++ back).drop count)).map (count + ·)).filter
            (· ≤ front.length) = [] := by
        intro count beyond
        rw [List.filter_eq_nil_iff]
        intro total reached
        obtain ⟨remaining, _, rfl⟩ := List.mem_map.mp reached
        simp only [decide_eq_true_eq]
        omega
      have inside : ∀ count : Nat, count ≤ front.length →
          ((lengths rest ((front ++ back).drop count)).map (count + ·)).filter
            (· ≤ front.length) = (lengths rest (front.drop count)).map (count + ·) := by
        intro count within
        rw [List.drop_append_of_le_length within, List.filter_map,
          ← inductionHypothesis (front.drop count), List.length_drop]
        congr 2
        funext remaining
        simp only [Function.comp_apply, decide_eq_decide]
        omega
      have split : ∀ counts : List Nat,
          (counts.flatMap fun count =>
            (lengths rest ((front ++ back).drop count)).map (count + ·)).filter
              (· ≤ front.length) =
            (counts.filter (· ≤ front.length)).flatMap fun count =>
              (lengths rest (front.drop count)).map (count + ·) := by
        intro counts
        induction counts with
        | nil => rfl
        | cons count counts countsHypothesis =>
            rw [List.flatMap_cons, List.filter_append, countsHypothesis, List.filter_cons]
            by_cases within : count ≤ front.length
            · simp only [inside count within, within, decide_true, if_true, List.flatMap_cons]
            · simp only [outside count within, within, decide_false, List.nil_append]
              rfl
      rw [lengths, split, Piece.counts_append, lengths]

/-- A match has at least the items that its pieces demand. -/
theorem le_of_mem_lengths {pattern : List (Piece α)} {input : List α} {length : Nat}
    (reached : length ∈ lengths pattern input) : (pattern.map Piece.least).sum ≤ length := by
  induction pattern generalizing input length with
  | nil => exact Nat.zero_le _
  | cons piece rest inductionHypothesis =>
      obtain ⟨count, remaining, counted, after, rfl⟩ := mem_lengths_cons.mp reached
      rw [List.map_cons, List.sum_cons]
      exact Nat.add_le_add (Piece.mem_counts.mp counted).1 (inductionHypothesis after)

/-- A pattern that demands something finds something where it has a length. -/
theorem find_ne_zero_iff {pattern : List (Piece α)} (demands : 0 < (pattern.map Piece.least).sum)
    {input : List α} : find pattern input ≠ 0 ↔ lengths pattern input ≠ [] := by
  unfold find
  cases reached : lengths pattern input with
  | nil => simp
  | cons length others =>
      have long := le_of_mem_lengths (reached ▸ List.mem_cons_self : length ∈ lengths pattern input)
      simp only [List.head?_cons, Option.getD_some, ne_eq, reduceCtorEq, not_false_eq_true,
        iff_true]
      omega

/-! ## Edges -/

/-- No class of the pattern has the item. -/
def Avoids (pattern : List (Piece α)) (edge : α) : Prop :=
  ∀ piece ∈ pattern, piece.mem edge = false

theorem Piece.counts_append_edge {piece : Piece α} {edge : α} (avoids : piece.mem edge = false)
    (front back : List α) : piece.counts (front ++ edge :: back) = piece.counts front := by
  have run : (front ++ edge :: back).takeWhile piece.mem = front.takeWhile piece.mem := by
    induction front with
    | nil => simp [avoids]
    | cons item front inductionHypothesis =>
        rw [List.cons_append, List.takeWhile_cons, List.takeWhile_cons, inductionHypothesis]
  have reach : piece.reach (front ++ edge :: back) = piece.reach front := by
    unfold Piece.reach
    rw [run]
  unfold Piece.counts
  rw [reach]

/-- A pattern does not reach beyond an item that is in none of its classes. -/
theorem lengths_append_edge {pattern : List (Piece α)} {edge : α} (avoids : Avoids pattern edge)
    (front back : List α) : lengths pattern (front ++ edge :: back) = lengths pattern front := by
  induction pattern generalizing front with
  | nil => rfl
  | cons piece rest inductionHypothesis =>
      rw [lengths, lengths, Piece.counts_append_edge (avoids piece List.mem_cons_self),
        List.flatMap_def, List.flatMap_def]
      congr 1
      refine List.map_congr_left fun count counted => ?_
      have within := (Piece.mem_counts.mp counted).2.trans (piece.reach_le front)
      rw [List.drop_append_of_le_length within,
        inductionHypothesis fun other member => avoids other (List.mem_cons_of_mem _ member)]

theorem find_append_edge {pattern : List (Piece α)} {edge : α} (avoids : Avoids pattern edge)
    (front back : List α) : find pattern (front ++ edge :: back) = find pattern front := by
  rw [find, lengths_append_edge avoids, ← find]

/-- A match that ends within a prefix is the match of the prefix alone. -/
theorem find_append {pattern : List (Piece α)} {front back : List α}
    (within : find pattern (front ++ back) ≤ front.length) :
    find pattern front = find pattern (front ++ back) := by
  rw [find, ← lengths_append pattern front back]
  unfold find at within ⊢
  cases tried : lengths pattern (front ++ back) with
  | nil => rfl
  | cons first rest =>
      rw [tried] at within
      simp only [List.head?_cons, Option.getD_some] at within
      simp [within]

end ZkLlmGateway.Matching
