import Mathlib.Data.List.Sort
import Mathlib.Data.List.Perm.Basic

/-!
# The best of a list

The items with the highest scores come first, items with the same score in the order
of the list, and the rest is cut off.  What the cut leaves out scores no higher than
what it keeps.  The order of the list matters exactly where a tie reaches the cut.
-/

namespace ZkLlmGateway.Ranking

variable {α β F : Type} [LinearOrder F]

/-- The first `limit` items in the order of falling scores. -/
def top (score : α → F) (limit : Nat) (list : List α) : List α :=
  (list.mergeSort fun left right => decide (score right ≤ score left)).take limit

section Top

variable {score : α → F} {limit : Nat} {list other sorted : List α}

theorem pairwise_byScore (score : α → F) (list : List α) :
    (list.mergeSort fun left right => decide (score right ≤ score left)).Pairwise
      fun left right => score right ≤ score left := by
  have sorted : (list.mergeSort fun left right => decide (score right ≤ score left)).Pairwise
      fun left right => decide (score right ≤ score left) = true := by
    refine List.pairwise_mergeSort ?_ ?_ list
    · intro first second third before after
      rw [decide_eq_true_eq] at *
      exact after.trans before
    · intro left right
      rw [Bool.or_eq_true, decide_eq_true_eq, decide_eq_true_eq]
      exact le_total _ _
  exact sorted.imp fun isLe => of_decide_eq_true isLe

theorem top_of_pairwise (limit : Nat)
    (sorted : list.Pairwise fun left right => score right ≤ score left) :
    top score limit list = list.take limit := by
  rw [top, List.mergeSort_of_pairwise (sorted.imp fun isLe => decide_eq_true isLe)]

@[simp]
theorem top_nil (score : α → F) (limit : Nat) : top score limit [] = [] := by
  rw [top, List.mergeSort_nil, List.take_nil]

theorem length_top_le (score : α → F) (limit : Nat) (list : List α) :
    (top score limit list).length ≤ limit :=
  List.length_take_le limit _

theorem pairwise_top (score : α → F) (limit : Nat) (list : List α) :
    (top score limit list).Pairwise fun left right => score right ≤ score left :=
  (pairwise_byScore score list).sublist (List.take_sublist limit _)

theorem mem_of_mem_top {item : α} (member : item ∈ top score limit list) : item ∈ list :=
  List.mem_mergeSort.mp (List.mem_of_mem_take member)

theorem nodup_map_top {view : α → β} (nodup : (list.map view).Nodup) :
    ((top score limit list).map view).Nodup :=
  (((List.mergeSort_perm list _).map view).nodup_iff.mpr nodup).sublist
    ((List.take_sublist limit _).map view)

theorem top_map (view : α → β) {rank : β → F} (same : ∀ item, score item = rank (view item))
    (limit : Nat) (list : List α) :
    (top score limit list).map view = top rank limit (list.map view) := by
  have sorted := List.map_mergeSort (f := view) (l := list)
    (r := fun left right => decide (score right ≤ score left))
    (s := fun left right => decide (rank right ≤ rank left)) fun left _ right _ => by
      rw [same, same]
  rw [top, top, List.map_take, sorted]

/-- **What is left out** found the list full, of items that score as high. -/
theorem of_left_out {item : α} (member : item ∈ list) (leftOut : item ∉ top score limit list) :
    (top score limit list).length = limit ∧
      ∀ kept ∈ top score limit list, score item ≤ score kept := by
  have sorted := pairwise_byScore score list
  have inSorted : item ∈ list.mergeSort fun left right => decide (score right ≤ score left) :=
    List.mem_mergeSort.mpr member
  unfold top at *
  generalize list.mergeSort (fun left right => decide (score right ≤ score left)) = ranked at *
  rw [← List.take_append_drop limit ranked, List.mem_append] at inSorted
  have inRest := inSorted.resolve_left leftOut
  rw [← List.take_append_drop limit ranked, List.pairwise_append] at sorted
  refine ⟨List.length_take_of_le ?_, fun kept isKept => sorted.2.2 kept isKept item inRest⟩
  by_contra short
  rw [List.drop_eq_nil_of_le (not_le.mp short).le] at inRest
  contradiction

end Top

/-- Where the images are the same up to their order, an order has the same images. -/
theorem exists_perm_map_eq {γ : Type} {view : α → γ} {image : β → γ} {items : List α}
    {others : List β} (same : (items.map view).Perm (others.map image)) :
    ∃ order : List β, order.Perm others ∧ order.map image = items.map view := by
  have composed : Relation.Comp (fun left right => left = List.map image right) List.Perm
      (items.map view) others := by
    rw [List.eq_map_comp_perm]
    exact same
  obtain ⟨order, isImage, isOrder⟩ := composed
  exact ⟨order, isOrder, isImage.symm⟩

/-! ## Ties -/

/-- A tie at the cut: two items with the same score look different, and fewer items than are
kept score higher. -/
def TieAtCut (score : α → F) (view : α → β) (limit : Nat) (list : List α) : Prop :=
  ∃ first ∈ list, ∃ second ∈ list, score first = score second ∧ view first ≠ view second ∧
    list.countP (fun item => score first < score item) < limit

section Ties

variable {score : α → F} {view : α → β} {limit : Nat} {list other : List α}

theorem TieAtCut.perm (tie : TieAtCut score view limit list) (same : list.Perm other) :
    TieAtCut score view limit other := by
  obtain ⟨first, isFirst, second, isSecond, even, differ, few⟩ := tie
  exact ⟨first, same.mem_iff.mp isFirst, second, same.mem_iff.mp isSecond, even, differ,
    same.countP_eq _ ▸ few⟩

/-- What scores higher than an item of a sorted list stands before it. -/
theorem countP_lt_le (sorted : list.Pairwise fun left right => score right ≤ score left) {i : Nat}
    (inside : i < list.length) :
    list.countP (fun item => score list[i] < score item) ≤ i := by
  have rest : (list.drop i).countP (fun item => score list[i] < score item) = 0 := by
    refine List.countP_eq_zero.mpr fun item member higher => ?_
    obtain ⟨k, isAt, rfl⟩ := List.mem_iff_getElem.mp member
    rw [List.getElem_drop] at higher
    rw [List.length_drop] at isAt
    rcases Nat.eq_zero_or_pos k with rfl | positive
    · simp at higher
    · have notHigher := List.pairwise_iff_getElem.mp sorted i (i + k) inside (by omega) (by omega)
      exact absurd (of_decide_eq_true higher) (not_lt.mpr notHigher)
  have counted :
      (list.take i ++ list.drop i).countP (fun item => score list[i] < score item) ≤ i := by
    rw [List.countP_append, rest, Nat.add_zero]
    exact List.countP_le_length.trans (List.length_take_le i list)
  rwa [List.take_append_drop] at counted

/-- Without a tie at the cut every order gives the same. -/
theorem top_eq_of_perm (noTie : ¬TieAtCut score view limit list) (same : other.Perm list) :
    (top score limit other).map view = (top score limit list).map view := by
  have sortedOther := pairwise_byScore score other
  have sortedList := pairwise_byScore score list
  have permOther := List.mergeSort_perm other fun left right => decide (score right ≤ score left)
  have permList := List.mergeSort_perm list fun left right => decide (score right ≤ score left)
  unfold top
  generalize list.mergeSort (fun left right => decide (score right ≤ score left)) = ranked at *
  generalize
    other.mergeSort (fun left right => decide (score right ≤ score left)) = rankedOther at *
  have perm : rankedOther.Perm ranked := permOther.trans (same.trans permList.symm)
  have scores : rankedOther.map score = ranked.map score := by
    have antisymm : ∀ left right : F, left ∈ rankedOther.map score → right ∈ ranked.map score →
        right ≤ left → left ≤ right → left = right :=
      fun _ _ _ _ isLe isGe => le_antisymm isGe isLe
    apply (perm.map score).eq_of_pairwise antisymm
    · exact List.pairwise_map.mpr sortedOther
    · exact List.pairwise_map.mpr sortedList
  refine List.ext_getElem (by simp [perm.length_eq]) fun i insideOther insideList => ?_
  rw [List.length_map, List.length_take] at insideOther insideList
  rw [List.getElem_map, List.getElem_map, List.getElem_take, List.getElem_take]
  have even : score rankedOther[i] = score ranked[i] := by
    have same := congrArg (·[i]?) scores
    simpa [List.getElem?_eq_getElem (show i < rankedOther.length by omega),
      List.getElem?_eq_getElem (show i < ranked.length by omega)] using same
  by_contra differ
  refine noTie (TieAtCut.perm ⟨ranked[i], List.getElem_mem _, rankedOther[i],
    perm.mem_iff.mp (List.getElem_mem _), even.symm, fun equal => differ equal.symm, ?_⟩ permList)
  exact (countP_lt_le sortedList (by omega)).trans_lt (by omega)

/-- Any of the items that tie can come first among them. -/
theorem exists_order (score : α → F) {item : α} (member : item ∈ list) :
    ∃ order : List α, order.Perm list ∧
      (order.Pairwise fun left right => score right ≤ score left) ∧
      order[list.countP fun other => score item < score other]? = some item := by
  obtain ⟨before, after, rfl⟩ := List.append_of_mem member
  obtain ⟨rest, isRest⟩ : ∃ rest, rest = before ++ after := ⟨_, rfl⟩
  have permRest : (item :: rest).Perm (before ++ item :: after) := by
    rw [isRest]
    exact List.perm_middle.symm
  obtain ⟨ranked, isRanked⟩ : ∃ ranked, ranked =
      rest.mergeSort fun left right => decide (score right ≤ score left) := ⟨_, rfl⟩
  have sorted := pairwise_byScore score rest
  have perm := List.mergeSort_perm rest fun left right => decide (score right ≤ score left)
  rw [← isRanked] at sorted perm
  refine ⟨(ranked.filter fun other => score item < score other) ++
    item :: ranked.filter fun other => !decide (score item < score other), ?_, ?_, ?_⟩
  · refine List.perm_middle.trans (List.Perm.trans (List.Perm.cons item ?_) permRest)
    exact (List.filter_append_perm _ ranked).trans perm
  · rw [List.pairwise_append, List.pairwise_cons]
    refine ⟨sorted.filter _, ⟨fun other inside => ?_, sorted.filter _⟩,
      fun higher isHigher other inside => ?_⟩
    · have notHigher := (List.mem_filter.mp inside).2
      simpa using notHigher
    · have above := of_decide_eq_true (List.mem_filter.mp isHigher).2
      rcases List.mem_cons.mp inside with rfl | later
      · exact above.le
      · have notHigher := (List.mem_filter.mp later).2
        rw [Bool.not_eq_true', decide_eq_false_iff_not, not_lt] at notHigher
        exact notHigher.trans above.le
  · have count : (before ++ item :: after).countP (fun other => score item < score other) =
        (ranked.filter fun other => score item < score other).length := by
      rw [← List.countP_eq_length_filter, ← permRest.countP_eq, perm.countP_eq, List.countP_cons]
      simp
    rw [count, List.getElem?_append_right le_rfl, Nat.sub_self]
    rfl

/-- **Every order gives the same exactly when no tie reaches the cut.** -/
theorem forall_perm_iff :
    (∀ first second : List α, first.Perm list → second.Perm list →
      (top score limit first).map view = (top score limit second).map view) ↔
      ¬TieAtCut score view limit list := by
  constructor
  · rintro same ⟨first, isFirst, second, isSecond, even, differ, few⟩
    obtain ⟨firstOrder, permFirst, sortedFirst, atFirst⟩ := exists_order score isFirst
    obtain ⟨secondOrder, permSecond, sortedSecond, atSecond⟩ := exists_order score isSecond
    rw [← even] at atSecond
    have equal := congrArg (·[list.countP fun item => score first < score item]?)
      (same firstOrder secondOrder permFirst permSecond)
    simp only [top_of_pairwise limit sortedFirst, top_of_pairwise limit sortedSecond,
      List.getElem?_map, List.getElem?_take_of_lt few, atFirst, atSecond, Option.map_some,
      Option.some.injEq] at equal
    exact differ equal
  · intro noTie first second permFirst permSecond
    rw [top_eq_of_perm noTie permFirst, top_eq_of_perm noTie permSecond]

end Ties

end ZkLlmGateway.Ranking
