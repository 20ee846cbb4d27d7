import Mathlib.Data.List.Basic
import Mathlib.Data.List.Infix

/-!
# Dropping items by their positions

Which items of a list may be dropped is a matter of where they are and of what
they are.  Dropping the first of them, a given number of times, leaves the list
without as many of their positions.
-/

namespace ZkLlmGateway.Ranking

variable {α : Type}

/-- The positions of the items that may be dropped, in their order. -/
def positions (drops : Nat → α → Bool) (list : List α) : List Nat :=
  (list.zipIdx.filter fun entry => drops entry.2 entry.1).map Prod.snd

/-- The items at other positions, in their order. -/
def without (gone : List Nat) (list : List α) : List α :=
  (list.zipIdx.filter fun entry => entry.2 ∉ gone).map Prod.fst

/-- The list without its first `count` items that may be dropped. -/
def dropFirst (drops : Nat → α → Bool) : Nat → List α → List α
  | _, [] => []
  | 0, list => list
  | count + 1, item :: rest =>
      if drops 0 item then dropFirst (fun i => drops (i + 1)) count rest
      else item :: dropFirst (fun i => drops (i + 1)) (count + 1) rest

section Positions

variable {drops other : Nat → α → Bool} {gone : List Nat} {list rest : List α} {item : α}
  {count n : Nat}

@[simp]
theorem positions_nil : positions drops ([] : List α) = [] :=
  rfl

theorem positions_cons : positions drops (item :: rest) =
    (if drops 0 item then [0] else []) ++
      (positions (fun i => drops (i + 1)) rest).map (· + 1) := by
  rw [positions, List.zipIdx_cons', List.filter_cons, List.filter_map, positions]
  split <;> simp [List.map_map, Function.comp_def]

theorem mem_positions_iff :
    n ∈ positions drops list ↔ ∃ item, list[n]? = some item ∧ drops n item = true := by
  rw [positions, List.mem_map]
  constructor
  · rintro ⟨⟨item, i⟩, member, rfl⟩
    have entry := List.mem_filter.mp member
    exact ⟨item, List.mem_zipIdx_iff_getElem?.mp entry.1, entry.2⟩
  · rintro ⟨item, shown, drop⟩
    exact ⟨(item, n), List.mem_filter.mpr ⟨List.mem_zipIdx_iff_getElem?.mpr shown, drop⟩, rfl⟩

theorem positions_congr
    (same : ∀ i item, list[i]? = some item → drops i item = other i item) :
    positions drops list = positions other list := by
  refine congrArg (List.map Prod.snd) (List.filter_congr fun entry member => ?_)
  exact same entry.2 entry.1 (List.mem_zipIdx_iff_getElem?.mp member)

theorem length_positions_le (drops : Nat → α → Bool) (list : List α) :
    (positions drops list).length ≤ list.length := by
  rw [positions, List.length_map]
  exact (List.length_filter_le _ _).trans List.length_zipIdx.le

@[simp]
theorem without_nil (list : List α) : without [] list = list := by
  rw [without, List.filter_eq_self.mpr (by simp), List.zipIdx_map_fst]

theorem without_cons {later : List Nat} (shifts : ∀ i, i + 1 ∈ gone ↔ i ∈ later) :
    without gone (item :: rest) = (if 0 ∈ gone then [] else [item]) ++ without later rest := by
  rw [without, List.zipIdx_cons', List.filter_cons, List.filter_map, without]
  have same : ((fun entry : α × Nat => decide (entry.2 ∉ gone)) ∘ Prod.map id (· + 1)) =
      fun entry => decide (entry.2 ∉ later) := by
    funext entry
    simp [shifts]
  rw [same]
  by_cases first : 0 ∈ gone <;> simp [first, List.map_map, Function.comp_def]

theorem without_cons_succ (gone : List Nat) (item : α) (rest : List α) :
    without (gone.map (· + 1)) (item :: rest) = item :: without gone rest := by
  have shifts : ∀ i, i + 1 ∈ gone.map (· + 1) ↔ i ∈ gone := fun i => by simp
  rw [without_cons shifts, if_neg (by simp), List.singleton_append]

theorem without_cons_zero (gone : List Nat) (item : α) (rest : List α) :
    without (0 :: gone.map (· + 1)) (item :: rest) = without gone rest := by
  have shifts : ∀ i, i + 1 ∈ 0 :: gone.map (· + 1) ↔ i ∈ gone := fun i => by simp
  rw [without_cons shifts, if_pos List.mem_cons_self, List.nil_append]

theorem without_sublist (gone : List Nat) (list : List α) : (without gone list).Sublist list := by
  have sublist := (List.filter_sublist (l := list.zipIdx) (p := fun entry => entry.2 ∉ gone)).map
    Prod.fst
  rwa [List.zipIdx_map_fst] at sublist

/-- Items that no dropped position has are all kept, in their order. -/
theorem filter_without {holds : α → Bool}
    (kept : ∀ i item, list[i]? = some item → holds item = true → i ∉ gone) :
    (without gone list).filter holds = list.filter holds := by
  have same : list.filter holds = (list.zipIdx.filter fun entry => holds entry.1).map Prod.fst := by
    conv_lhs => rw [← List.zipIdx_map_fst 0 list, List.filter_map]
    rfl
  rw [without, List.filter_map, List.filter_filter, same]
  refine congrArg (List.map Prod.fst) (List.filter_congr fun entry member => ?_)
  have shown := List.mem_zipIdx_iff_getElem?.mp member
  by_cases holding : holds entry.1 = true
  · simp [holding, kept entry.2 entry.1 shown holding]
  · simp [holding]

end Positions

section DropFirst

variable {drops other : Nat → α → Bool} {list rest : List α} {item : α} {count n : Nat}

@[simp]
theorem dropFirst_zero (drops : Nat → α → Bool) (list : List α) :
    dropFirst drops 0 list = list := by
  cases list <;> rfl

/-- Dropping the first items is leaving out the first positions. -/
theorem dropFirst_eq_without (drops : Nat → α → Bool) (count : Nat) (list : List α) :
    dropFirst drops count list = without ((positions drops list).take count) list := by
  induction list generalizing drops count with
  | nil => cases count <;> rfl
  | cons item rest inductionHypothesis =>
      cases count with
      | zero => rw [dropFirst_zero, List.take_zero, without_nil]
      | succ count =>
          rw [dropFirst, positions_cons]
          split
          · rw [List.singleton_append, List.take_succ_cons, ← List.map_take, without_cons_zero,
              inductionHypothesis]
          · rw [List.nil_append, ← List.map_take, without_cons_succ, inductionHypothesis]

theorem dropFirst_congr
    (same : ∀ i item, list[i]? = some item → drops i item = other i item) :
    dropFirst drops count list = dropFirst other count list := by
  rw [dropFirst_eq_without, dropFirst_eq_without, positions_congr same]

theorem dropFirst_of_positions_eq_nil (none : positions drops list = []) :
    dropFirst drops count list = list := by
  rw [dropFirst_eq_without, none, List.take_nil, without_nil]

/-- The first item that may be dropped can be taken out before the others; those behind it are
one position further to the front. -/
theorem dropFirst_eraseIdx (first : (positions drops list).head? = some n) :
    dropFirst drops (count + 1) list =
      dropFirst (fun i => if i < n then drops i else drops (i + 1)) count (list.eraseIdx n) := by
  induction list generalizing drops n with
  | nil => contradiction
  | cons item rest inductionHypothesis =>
      rw [positions_cons] at first
      rw [dropFirst]
      split
      next drop =>
        rw [if_pos drop, List.singleton_append, List.head?_cons, Option.some.injEq] at first
        subst first
        simp only [List.eraseIdx_cons_zero, Nat.not_lt_zero, if_false]
      next keep =>
        rw [if_neg keep, List.nil_append, List.head?_map, Option.map_eq_some_iff] at first
        obtain ⟨m, isFirst, rfl⟩ := first
        rw [inductionHypothesis isFirst, List.eraseIdx_cons_succ]
        cases count with
        | zero => simp only [dropFirst_zero]
        | succ count =>
            rw [dropFirst, if_pos (Nat.succ_pos m), if_neg keep]
            simp only [Nat.add_lt_add_iff_right]

end DropFirst

end ZkLlmGateway.Ranking
