import ZkLlmGateway.Matching.Remains

/-!
# Texts with blanks

What a masked text shows of its source is the source with a blank for every item
that is hidden.  A matcher that reads the items up to the next blank finds there what
it finds in the masked text.  What a rewriting hides is thus computed from the source
alone, whatever stands in the masks.
-/

namespace ZkLlmGateway.Matching

universe u

variable {α : Type u}

/-- The items up to the next blank. -/
def shownRun : List (Option α) → List α
  | some item :: rest => item :: shownRun rest
  | _ => []

/-- A matcher that reads up to the next blank. -/
def onShown (find : List α → Nat) (view : List (Option α)) : Nat :=
  find (shownRun view)

/-- Every match among the items that are shown is blanked. -/
def blanked (find : List α → Nat) (view : List (Option α)) : List (Option α) :=
  rewrite (onShown find) (List.map fun _ => none) view

/-- The source with a blank for every item that the cells do not show. -/
def viewFrom (cells : List (Cell α (Option Nat))) : Nat → List α → List (Option α)
  | _, [] => []
  | offset, item :: rest =>
      (if Kept cells offset then some item else none) :: viewFrom cells (offset + 1) rest

section Blanking

variable {find : List α → Nat} {content : List α} {rest : List (Option α)}

theorem shownRun_append (content : List α) (rest : List (Option α)) :
    shownRun (content.map some ++ rest) = content ++ shownRun rest := by
  induction content with
  | nil => rfl
  | cons item content inductionHypothesis =>
      rw [List.map_cons, List.cons_append, shownRun, inductionHypothesis, List.cons_append]

/-- Nothing begins with a blank. -/
theorem blanked_replicate (bounded : ∀ input, find input ≤ input.length) (count : Nat)
    (rest : List (Option α)) :
    blanked find (List.replicate count none ++ rest) =
      List.replicate count none ++ blanked find rest := by
  induction count with
  | zero => rfl
  | succ count inductionHypothesis =>
      have nothing : onShown find (none :: (List.replicate count none ++ rest)) = 0 :=
        Nat.le_zero.mp (bounded [])
      rw [List.replicate_succ, List.cons_append, blanked, rewrite_keep nothing, ← blanked,
        inductionHypothesis, List.cons_append]

theorem blanked_some {item : α} (nothing : onShown find (some item :: rest) = 0) :
    blanked find (some item :: rest) = some item :: blanked find rest :=
  rewrite_keep nothing

/-- A match is blanked as a whole. -/
theorem blanked_append (nonempty : content ≠ [])
    (found : onShown find (content.map some ++ rest) = content.length) :
    blanked find (content.map some ++ rest) =
      List.replicate content.length none ++ blanked find rest := by
  have isFound : onShown find (content.map some ++ rest) = (content.map some).length := by
    rw [found, List.length_map]
  rw [blanked, rewrite_append (by simpa using nonempty) isFound, List.map_map, ← blanked,
    Function.comp_def, List.map_const']

end Blanking

section Views

variable {left right : α} {plain : α → Bool} {source content : List α} {offset next position : Nat}
  {find : List α → Nat} {replace : List α → List α}
  {cells front back : List (Cell α (Option Nat))} {cell : Cell α (Option Nat)}

theorem viewFrom_append (cells : List (Cell α (Option Nat))) (offset : Nat)
    (content more : List α) :
    viewFrom cells offset (content ++ more) =
      viewFrom cells offset content ++ viewFrom cells (offset + content.length) more := by
  induction content generalizing offset with
  | nil => rfl
  | cons item content inductionHypothesis =>
      rw [List.cons_append, viewFrom, inductionHypothesis, viewFrom, List.cons_append,
        List.length_cons, Nat.add_assoc, Nat.add_comm 1]

theorem viewFrom_congr (same : ∀ position, offset ≤ position → position < offset + content.length →
    (Kept front position ↔ Kept back position)) :
    viewFrom front offset content = viewFrom back offset content := by
  induction content generalizing offset with
  | nil => rfl
  | cons item content inductionHypothesis =>
      rw [List.length_cons] at same
      have first := same offset le_rfl (by omega)
      have later := @inductionHypothesis (offset + 1)
        fun position after before => same position (by omega) (by omega)
      simp only [viewFrom, first, later]

theorem viewFrom_of_kept
    (kept : ∀ position, offset ≤ position → position < offset + content.length →
      Kept cells position) : viewFrom cells offset content = content.map some := by
  induction content generalizing offset with
  | nil => rfl
  | cons item content inductionHypothesis =>
      rw [List.length_cons] at kept
      rw [viewFrom, if_pos (kept offset le_rfl (by omega)), inductionHypothesis
        fun position after before => kept position (by omega) (by omega), List.map_cons]

theorem viewFrom_of_not_kept (gone : ∀ position, offset ≤ position →
    position < offset + content.length → ¬Kept cells position) :
    viewFrom cells offset content = List.replicate content.length none := by
  induction content generalizing offset with
  | nil => rfl
  | cons item content inductionHypothesis =>
      rw [List.length_cons] at gone
      rw [viewFrom, if_neg (gone offset le_rfl (by omega)), inductionHypothesis
        fun position after before => gone position (by omega) (by omega), List.length_cons,
        List.replicate_succ]

/-- The view of the source itself. -/
theorem viewFrom_numbered (offset : Nat) (content : List α) :
    viewFrom (numbered offset content) offset content = content.map some :=
  viewFrom_of_kept fun _ after before => kept_numbered_iff.mpr ⟨after, before⟩

theorem getElem?_viewFrom :
    (viewFrom cells offset content)[position]? =
      content[position]?.map fun item =>
      if Kept cells (offset + position) then some item else none := by
  induction content generalizing offset position with
  | nil => rfl
  | cons item content inductionHypothesis =>
      cases position with
      | zero => rfl
      | succ position =>
          rw [viewFrom, List.getElem?_cons_succ, inductionHypothesis, List.getElem?_cons_succ,
            Nat.add_assoc, Nat.add_comm 1]

/-- What is hidden is blank. -/
theorem getElem?_viewFrom_eq_some_none (inside : position < content.length) :
    (viewFrom cells 0 content)[position]? = some none ↔ ¬Kept cells position := by
  rw [getElem?_viewFrom, List.getElem?_eq_getElem inside, Option.map_some, Option.some.injEq,
    Nat.zero_add]
  split
  next kept => exact iff_of_false (Option.some_ne_none _) (not_not.mpr kept)
  next gone => exact iff_of_true rfl gone

/-- A masked text is viewed part by part. -/
theorem Masked.viewFrom_append (masked : Masked left right plain source next back)
    (later : offset ≤ next) (before : ∀ position, Kept front position → position < next) :
    viewFrom (front ++ back) offset (source.drop offset) =
      viewFrom front offset ((source.drop offset).take (next - offset)) ++
        viewFrom back next (source.drop next) := by
  have inside := masked.offset_le
  have length : ((source.drop offset).take (next - offset)).length = next - offset := by
    rw [List.length_take, List.length_drop]
    omega
  have behind : (source.drop offset).drop (next - offset) = source.drop next := by
    rw [List.drop_drop, Nat.add_sub_cancel' later]
  conv_lhs => rw [← List.take_append_drop (next - offset) (source.drop offset)]
  rw [Matching.viewFrom_append, behind, length, Nat.add_sub_cancel' later]
  refine congrArg₂ (· ++ ·) (viewFrom_congr fun position after early => ?_)
    (viewFrom_congr fun position after _ => ?_)
  · rw [length] at early
    rw [kept_append, or_iff_left]
    intro inBack
    have late := masked.le_of_kept inBack
    omega
  · rw [kept_append, or_iff_right]
    intro inFront
    have early := before position inFront
    omega

/-- Hidden items are blanks. -/
theorem Masked.viewFrom_stamp (masked : Masked left right plain source next back)
    (later : offset ≤ next) (mask : List α) :
    viewFrom (stamp none mask ++ back) offset (source.drop offset) =
      List.replicate (next - offset) none ++ viewFrom back next (source.drop next) := by
  have inside := masked.offset_le
  have length : ((source.drop offset).take (next - offset)).length = next - offset := by
    rw [List.length_take, List.length_drop]
    omega
  rw [masked.viewFrom_append later fun position kept => absurd kept (not_kept_stamp mask),
    viewFrom_of_not_kept fun position _ _ => not_kept_stamp mask, length]

/-- Shown items stand there. -/
theorem Masked.viewFrom_numbered
    (masked : Masked left right plain source offset (numbered offset content ++ back)) :
    viewFrom (numbered offset content ++ back) offset (source.drop offset) =
      content.map some ++ viewFrom back (offset + content.length)
        (source.drop (offset + content.length)) := by
  have isPrefix : (source.drop offset).take content.length = content := by
    have shown : ∀ cell ∈ numbered offset content, cell.mark.isSome = true :=
      fun cell member => isSome_of_mem_numbered member
    have spelled := (masked.eq_numbered shown).2
    rw [items_numbered] at spelled
    exact (List.prefix_iff_eq_take.mp spelled).symm
  rw [masked.of_numbered_append.viewFrom_append (Nat.le_add_right _ _)
    fun position kept => (kept_numbered_iff.mp kept).2, Nat.add_sub_cancel_left, isPrefix,
    Matching.viewFrom_numbered]

/-- **At a shown item** the matcher finds up to the next blank what it finds in the masked text. -/
theorem Masked.onShown_viewFrom
    (masked : Masked left right plain source offset (cell :: cells)) (shown : cell.mark ≠ none)
    (matcher : Matcher find) (unmixed : Unmixed find (cell :: cells)) :
    onShown find (viewFrom (cell :: cells) offset (source.drop offset)) =
      find (items (cell :: cells)) := by
  generalize whole : cell :: cells = target at masked unmixed ⊢
  obtain ⟨front, back, rfl, rest, _, hidden, absent⟩ := masked.exists_front
  have nonempty : front ≠ [] := by
    rintro rfl
    apply shown (hidden cell _)
    rw [show back = cell :: cells from whole.symm]
    rfl
  have ends : shownRun (viewFrom back (offset + front.length)
      (source.drop (offset + front.length))) = [] := by
    cases source.drop (offset + front.length) with
    | nil => rfl
    | cons item later =>
        rw [viewFrom, if_neg absent]
        rfl
  have within := unmixed.find_le_numbered matcher.bounded nonempty hidden
  rw [items_append, items_numbered] at within
  rw [onShown, masked.viewFrom_numbered, shownRun_append, ends, List.append_nil, items_append,
    items_numbered]
  exact matcher.front within

/-- **A rewriting blanks** every match that stands among the items that are shown. -/
theorem Masked.viewFrom_conceal (masked : Masked left right plain source offset cells)
    (matcher : Matcher find) (unmixed : Unmixed find cells)
    (replaced : ∀ matched, Mask left right plain (replace matched)) :
    viewFrom (Matching.conceal find replace cells) offset (source.drop offset) =
      blanked find (viewFrom cells offset (source.drop offset)) := by
  have bounded := matcher.bounded
  refine masked.rewriting_induction (P := fun offset cells =>
    viewFrom (Matching.conceal find replace cells) offset (source.drop offset) =
      blanked find (viewFrom cells offset (source.drop offset))) bounded unmixed replaced
    ?nil ?mask ?item ?matched
  case nil =>
    rw [List.drop_length]
    rfl
  case mask =>
    intro offset next mask rewritten back later _ _ equal rest hides
    rw [equal, (rest.conceal find replaced).viewFrom_stamp later.le, rest.viewFrom_stamp later.le,
      blanked_replicate bounded, hides]
  case item =>
    intro offset item back shows rest unmixed nothing hides
    have whole : Masked left right plain source offset (numbered offset [item] ++ back) :=
      .keep shows rest
    have final : Masked left right plain source offset
        (numbered offset [item] ++ Matching.conceal find replace back) :=
      .keep shows (rest.conceal find replaced)
    have none : onShown find (some item :: viewFrom back (offset + 1) (source.drop (offset + 1))) =
        0 := by
      rw [← nothing]
      exact (congrArg _ whole.viewFrom_numbered.symm).trans
        (whole.onShown_viewFrom (Option.some_ne_none offset) matcher unmixed)
    have kept : Matching.conceal find replace (⟨item, some offset⟩ :: back) =
        numbered offset [item] ++ Matching.conceal find replace back := rewriteCells_keep nothing
    rw [kept, final.viewFrom_numbered]
    change _ = blanked find (viewFrom (numbered offset [item] ++ back) offset (source.drop offset))
    rw [whole.viewFrom_numbered]
    exact (congrArg _ hides).trans (blanked_some none).symm
  case matched =>
    intro offset content back nonempty whole unmixed found hides
    have rest := whole.of_numbered_append
    have numberedNonempty : numbered offset content ≠ [] := by
      rwa [← List.length_pos_iff, length_numbered, List.length_pos_iff]
    have isFound : onShown find (content.map some ++ viewFrom back (offset + content.length)
        (source.drop (offset + content.length))) = content.length := by
      obtain ⟨cell, others, isCons⟩ := List.exists_cons_of_ne_nil numberedNonempty
      have shown : cell.mark ≠ none := by
        rw [← Option.isSome_iff_ne_none]
        exact isSome_of_mem_numbered (isCons ▸ List.mem_cons_self)
      rw [← whole.viewFrom_numbered, ← found]
      rw [isCons] at whole unmixed ⊢
      exact whole.onShown_viewFrom shown matcher unmixed
    have isHit :
        find (items (numbered offset content ++ back)) = (numbered offset content).length := by
      rw [found, length_numbered]
    rw [Matching.conceal, rewriteCells_append numberedNonempty isHit, ← Matching.conceal,
      (rest.conceal find replaced).viewFrom_stamp (Nat.le_add_right _ _), whole.viewFrom_numbered,
      blanked_append nonempty isFound, hides, Nat.add_sub_cancel_left]

end Views

end ZkLlmGateway.Matching
