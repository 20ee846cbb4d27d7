import ZkLlmGateway.Matching.Spans
import Mathlib.Data.List.TakeDrop

/-!
# Masked texts

A masked text shows some items of a source in their order, each marked with its
position, and hides the others behind fenced masks.  A rewriting whose matches
never join shown items with pieces of masks finds in a masked text exactly the
spans of the source that are still shown, as long as each span is shown as a
whole or not at all (`Masked.rewriteCells`).
-/

namespace ZkLlmGateway.Matching

universe u

variable {α : Type u}

/-- Items marked with their positions. -/
def numbered : Nat → List α → List (Cell α (Option Nat))
  | _, [] => []
  | offset, item :: rest => ⟨item, some offset⟩ :: numbered (offset + 1) rest

/-- A position is shown. -/
def Kept (cells : List (Cell α (Option Nat))) (position : Nat) : Prop :=
  ∃ cell ∈ cells, cell.mark = some position

instance (cells : List (Cell α (Option Nat))) (position : Nat) : Decidable (Kept cells position) :=
  inferInstanceAs (Decidable (∃ cell ∈ cells, cell.mark = some position))

/-- A mask: between fences, and of plain items. -/
structure Mask (left right : α) (plain : α → Bool) (content : List α) : Prop where
  first : content.head? = some left
  last : content.getLast? = some right
  plain : ∀ item ∈ content, plain item = true

/-- `Masked … source offset cells`: the cells show or hide the source from the
offset on. -/
inductive Masked (left right : α) (plain : α → Bool) (source : List α) :
    Nat → List (Cell α (Option Nat)) → Prop
  | nil : Masked left right plain source source.length []
  | keep {offset : Nat} {item : α} {cells : List (Cell α (Option Nat))} :
      source[offset]? = some item → Masked left right plain source (offset + 1) cells →
      Masked left right plain source offset (⟨item, some offset⟩ :: cells)
  | hide {offset next : Nat} {mask : List α} {cells : List (Cell α (Option Nat))} :
      offset < next → Mask left right plain mask → Masked left right plain source next cells →
      Masked left right plain source offset (stamp none mask ++ cells)

section Numbered

variable {offset position : Nat} {content rest : List α}

@[simp]
theorem items_numbered (offset : Nat) (content : List α) :
    items (numbered offset content) = content := by
  induction content generalizing offset with
  | nil => rfl
  | cons item rest inductionHypothesis => rw [numbered, items_cons, inductionHypothesis]

theorem numbered_append (offset : Nat) (content rest : List α) :
    numbered offset (content ++ rest) =
      numbered offset content ++ numbered (offset + content.length) rest := by
  induction content generalizing offset with
  | nil => rfl
  | cons item content inductionHypothesis =>
      rw [List.cons_append, numbered, inductionHypothesis, numbered, List.cons_append,
        List.length_cons, Nat.add_assoc, Nat.add_comm 1]

@[simp]
theorem length_numbered (offset : Nat) (content : List α) :
    (numbered offset content).length = content.length := by
  rw [← length_items, items_numbered]

theorem kept_numbered_iff :
    Kept (numbered offset content) position ↔
      offset ≤ position ∧ position < offset + content.length := by
  induction content generalizing offset with
  | nil =>
      constructor
      · rintro ⟨cell, member, _⟩
        contradiction
      · rintro ⟨after, before⟩
        rw [List.length_nil] at before
        omega
  | cons item content inductionHypothesis =>
      have split : Kept (numbered offset (item :: content)) position ↔
          offset = position ∨ Kept (numbered (offset + 1) content) position := by
        simp [Kept, numbered]
      rw [split, inductionHypothesis, List.length_cons]
      omega

@[simp]
theorem kept_append {front back : List (Cell α (Option Nat))} :
    Kept (front ++ back) position ↔ Kept front position ∨ Kept back position := by
  simp only [Kept, List.mem_append, or_and_right, exists_or]

@[simp]
theorem not_kept_nil : ¬Kept ([] : List (Cell α (Option Nat))) position := by
  rintro ⟨cell, member, _⟩
  contradiction

@[simp]
theorem not_kept_stamp (content : List α) : ¬Kept (stamp none content) position := by
  rintro ⟨cell, member, mark⟩
  rw [(mem_stamp member).1] at mark
  contradiction

@[simp]
theorem kept_cons {cell : Cell α (Option Nat)} {cells : List (Cell α (Option Nat))} :
    Kept (cell :: cells) position ↔ cell.mark = some position ∨ Kept cells position := by
  simp [Kept]

end Numbered

section Masked

variable {left right : α} {plain : α → Bool} {source : List α} {offset position : Nat}
  {cells : List (Cell α (Option Nat))}

/-- The source itself. -/
theorem masked_numbered (front content : List α) (whole : source = front ++ content)
    (begins : offset = front.length) :
    Masked left right plain source offset (numbered offset content) := by
  subst begins
  induction content generalizing front with
  | nil =>
      have length : front.length = source.length := by rw [whole, List.append_nil]
      rw [length]
      exact .nil
  | cons item content inductionHypothesis =>
      refine .keep (by simp [whole]) ?_
      have shifted := inductionHypothesis (front ++ [item]) (by simp [whole])
      simpa using shifted

theorem Masked.offset_le (masked : Masked left right plain source offset cells) :
    offset ≤ source.length := by
  induction masked with
  | nil => exact le_rfl
  | keep shows _ _ =>
      obtain ⟨inside, _⟩ := List.getElem?_eq_some_iff.mp shows
      exact inside.le
  | hide later _ _ inductionHypothesis => exact later.le.trans inductionHypothesis

/-- Shown positions lie behind the offset. -/
theorem Masked.le_of_kept (masked : Masked left right plain source offset cells)
    (kept : Kept cells position) : offset ≤ position := by
  induction masked with
  | nil =>
      obtain ⟨cell, member, _⟩ := kept
      contradiction
  | keep _ _ inductionHypothesis =>
      rw [kept_cons] at kept
      rcases kept with first | later
      · exact (Option.some.inj first).le
      · have := inductionHypothesis later
        omega
  | hide later _ _ inductionHypothesis =>
      rw [kept_append] at kept
      exact later.le.trans (inductionHypothesis (kept.resolve_left (not_kept_stamp _)))

/-- Two masked parts beside each other are one. -/
theorem Mask.append {mask other : List α} (first : Mask left right plain mask)
    (second : Mask left right plain other) : Mask left right plain (mask ++ other) := by
  refine ⟨?_, ?_, fun item member => ?_⟩
  · rw [List.head?_append, first.first, Option.some_or]
  · rw [List.getLast?_append, second.last, Option.some_or]
  · rcases List.mem_append.mp member with inFirst | inSecond
    · exact first.plain item inFirst
    · exact second.plain item inSecond

/-- The first item of a mask is hidden. -/
theorem Mask.exists_cons {mask : List α} (isMask : Mask left right plain mask) :
    ∃ body, mask = left :: body :=
  List.head?_eq_some_iff.mp isMask.first

theorem Masked.of_nil (masked : Masked left right plain source offset []) :
    offset = source.length := by
  generalize whole : ([] : List (Cell α (Option Nat))) = target at masked
  cases masked with
  | nil => rfl
  | keep => contradiction
  | hide _ isMask _ =>
      obtain ⟨body, rfl⟩ := isMask.exists_cons
      contradiction

/-- The shown items at the front: they agree with the source, and what follows
is hidden or the end. -/
theorem Masked.exists_front (masked : Masked left right plain source offset cells) :
    ∃ front back, cells = numbered offset front ++ back ∧
      Masked left right plain source (offset + front.length) back ∧
      source.drop offset = front ++ source.drop (offset + front.length) ∧
      (∀ cell ∈ back.head?, cell.mark = none) ∧ ¬Kept back (offset + front.length) := by
  induction masked with
  | nil =>
      refine ⟨[], [], rfl, .nil, by simp, by simp, ?_⟩
      rintro ⟨cell, member, _⟩
      contradiction
  | @keep offset item cells shows _ inductionHypothesis =>
      obtain ⟨front, back, rfl, masked, agrees, hidden, absent⟩ := inductionHypothesis
      have shifted : offset + 1 + front.length = offset + (item :: front).length := by
        rw [List.length_cons]
        omega
      rw [shifted] at masked agrees absent
      refine ⟨item :: front, back, rfl, masked, ?_, hidden, absent⟩
      obtain ⟨inside, rfl⟩ := List.getElem?_eq_some_iff.mp shows
      rw [List.drop_eq_getElem_cons inside, agrees, List.cons_append]
  | @hide offset next mask cells later isMask masked _ =>
      refine ⟨[], stamp none mask ++ cells, rfl, .hide later isMask masked, by simp, ?_, ?_⟩
      · obtain ⟨body, rfl⟩ := isMask.exists_cons
        simp
      · intro kept
        rw [List.length_nil, Nat.add_zero, kept_append] at kept
        have behind := masked.le_of_kept (kept.resolve_left (not_kept_stamp _))
        omega

/-- Behind shown items the text is masked as before. -/
theorem Masked.of_numbered_append {content : List α} {back : List (Cell α (Option Nat))}
    (masked : Masked left right plain source offset (numbered offset content ++ back)) :
    Masked left right plain source (offset + content.length) back := by
  induction content generalizing offset with
  | nil => exact masked
  | cons item content inductionHypothesis =>
      generalize whole : numbered offset (item :: content) ++ back = target at masked
      cases masked with
      | nil => contradiction
      | keep _ rest =>
          obtain ⟨_, rfl⟩ := List.cons.inj whole
          rw [List.length_cons, Nat.add_comm content.length, ← Nat.add_assoc]
          exact inductionHypothesis rest
      | hide _ isMask _ =>
          obtain ⟨body, rfl⟩ := isMask.exists_cons
          obtain ⟨equal, _⟩ := List.cons.inj whole
          exact absurd (congrArg Cell.mark equal) (by simp)

/-- A hidden part up to the next shown item. -/
theorem Masked.exists_region (masked : Masked left right plain source offset cells)
    (nonempty : cells ≠ []) (hidden : ∀ cell ∈ cells.head?, cell.mark = none) :
    ∃ next mask back, cells = stamp none mask ++ back ∧ offset < next ∧
      Mask left right plain mask ∧ Masked left right plain source next back ∧
      ∀ cell ∈ back.head?, cell.mark ≠ none := by
  induction masked with
  | nil => contradiction
  | keep =>
      have isNone := hidden _ rfl
      contradiction
  | @hide offset next mask cells later isMask masked inductionHypothesis =>
      cases masked with
      | nil => exact ⟨_, mask, [], rfl, later, isMask, .nil, by simp⟩
      | keep shows masked => exact ⟨next, mask, _, rfl, later, isMask, .keep shows masked, by simp⟩
      | @hide _ other otherMask cells otherLater isOther masked =>
          obtain ⟨body, isCons⟩ := isOther.exists_cons
          obtain ⟨last, rest, back, split, behind, isRest, final, shown⟩ :=
            inductionHypothesis (by simp [isCons]) (by simp [isCons])
          refine ⟨last, mask ++ rest, back, ?_, later.trans behind, isMask.append isRest, final,
            shown⟩
          rw [split]
          simp [stamp]

end Masked

/-! ## Rewriting masked texts -/

/-- A matcher stays in its input, and what it finds within a prefix it finds in
the prefix alone. -/
structure Matcher (find : List α → Nat) : Prop where
  bounded : ∀ input, find input ≤ input.length
  front : ∀ {front back : List α}, find (front ++ back) ≤ front.length →
    find front = find (front ++ back)

theorem matcher_find (pattern : List (Piece α)) : Matcher (find pattern) :=
  ⟨find_le_length pattern, find_append⟩

/-- No match joins shown items with pieces of masks. -/
def Unmixed (find : List α → Nat) (cells : List (Cell α (Option Nat))) : Prop :=
  ∀ matched ∈ hits (onItems find) cells, ∀ first ∈ matched, ∀ second ∈ matched,
    first.mark.isSome = second.mark.isSome

instance (find : List α → Nat) (cells : List (Cell α (Option Nat))) :
    Decidable (Unmixed find cells) :=
  inferInstanceAs (Decidable (∀ matched ∈ hits (onItems find) cells, ∀ first ∈ matched,
    ∀ second ∈ matched, first.mark.isSome = second.mark.isSome))

/-- From the offset on, every span is shown as a whole or not at all. -/
def Whole (spans : List (Nat × Nat)) (offset : Nat) (cells : List (Cell α (Option Nat))) : Prop :=
  ∀ span ∈ spans, (offset ≤ span.1 ∧ ∀ position, Within span position → Kept cells position) ∨
    ∀ position, Within span position → ¬Kept cells position

/-- Shown items stay marked, and masks have no position. -/
abbrev conceal (find : List α → Nat) (replace : List α → List α)
    (cells : List (Cell α (Option Nat))) : List (Cell α (Option Nat)) :=
  rewriteCells find replace (fun _ => none) cells

section Rewriting

variable {left right : α} {plain : α → Bool} {source : List α} {offset position : Nat}
  {find : List α → Nat} {replace : List α → List α} {cells back : List (Cell α (Option Nat))}

theorem Unmixed.of_keep {cell : Cell α (Option Nat)} (unmixed : Unmixed find (cell :: cells))
    (nothing : find (items (cell :: cells)) = 0) : Unmixed find cells := by
  have kept : onItems find (cell :: cells) = 0 := nothing
  rw [Unmixed, hits_keep kept] at unmixed
  exact unmixed

theorem Unmixed.of_hit {cell : Cell α (Option Nat)} {count : Nat}
    (unmixed : Unmixed find (cell :: cells)) (found : find (items (cell :: cells)) = count + 1) :
    (∀ other ∈ cells.take count, other.mark.isSome = cell.mark.isSome) ∧
      Unmixed find (cells.drop count) := by
  have isFound : onItems find (cell :: cells) = count + 1 := found
  rw [Unmixed, hits_hit isFound] at unmixed
  constructor
  · intro other member
    exact unmixed _ List.mem_cons_self other (List.mem_cons_of_mem _ member) cell
      List.mem_cons_self
  · exact fun matched member => unmixed matched (List.mem_cons_of_mem _ member)

theorem Unmixed.of_append {front rest : List (Cell α (Option Nat))}
    (unmixed : Unmixed find (front ++ rest)) (nonempty : front ≠ [])
    (found : find (items (front ++ rest)) = front.length) : Unmixed find rest := by
  obtain ⟨cell, front, rfl⟩ := List.exists_cons_of_ne_nil nonempty
  rw [List.cons_append] at unmixed found
  have later := (unmixed.of_hit found).2
  rwa [List.drop_left] at later

/-- A match that begins on one side of a border stays on it. -/
theorem Unmixed.find_le (unmixed : Unmixed find (cells ++ back))
    (bounded : ∀ input, find input ≤ input.length) (nonempty : cells ≠ []) {shown : Bool}
    (same : ∀ cell ∈ cells, cell.mark.isSome = shown)
    (border : ∀ cell ∈ back.head?, cell.mark.isSome ≠ shown) :
    find (items (cells ++ back)) ≤ cells.length := by
  by_contra beyond
  rw [not_le] at beyond
  have within := bounded (items (cells ++ back))
  rw [length_items, List.length_append] at within
  obtain ⟨first, cells, rfl⟩ := List.exists_cons_of_ne_nil nonempty
  cases back with
  | nil =>
      rw [List.length_nil] at within
      omega
  | cons next back =>
      obtain ⟨count, found⟩ := Nat.exists_eq_add_one_of_ne_zero (Nat.ne_zero_of_lt beyond)
      rw [found, List.length_cons] at beyond
      have inside : next ∈ (cells ++ next :: back).take count := by
        have split : count = cells.length + (count - cells.length - 1 + 1) := by omega
        rw [split, List.take_append, List.take_of_length_le (by omega)]
        simp
      have crossed := (unmixed.of_hit found).1 next inside
      rw [same first List.mem_cons_self] at crossed
      exact border next rfl crossed

/-- What rewriting keeps of fences and plainness. -/
structure Extends (left right : α) (plain : α → Bool) (before after : List α) : Prop where
  empty : before = [] → after = []
  first : before.head? = some left → after.head? = some left
  last : before.getLast? = some right → after.getLast? = some right
  plain : (∀ item ∈ before, plain item = true) → ∀ item ∈ after, plain item = true

theorem Extends.nil : Extends left right plain [] [] :=
  ⟨id, id, id, id⟩

theorem Extends.keep (item : α) {before after : List α}
    (extended : Extends left right plain before after) :
    Extends left right plain (item :: before) (item :: after) := by
  refine ⟨nofun, id, fun last => ?_, fun all other member => ?_⟩
  · rw [List.getLast?_cons] at last ⊢
    cases ending : before.getLast? with
    | none =>
        rw [extended.empty (List.getLast?_eq_none_iff.mp ending)]
        rwa [ending] at last
    | some item =>
        rw [ending, Option.getD_some] at last
        rw [extended.last (ending.trans last)]
        rfl
  · rcases List.mem_cons.mp member with rfl | later
    · exact all _ List.mem_cons_self
    · exact extended.plain (fun inner inside => all inner (List.mem_cons_of_mem _ inside)) other
        later

theorem Extends.put {matched mask before after : List α}
    (extended : Extends left right plain before after) (isMask : Mask left right plain mask)
    (nonempty : matched ≠ []) : Extends left right plain (matched ++ before) (mask ++ after) := by
  obtain ⟨body, isCons⟩ := isMask.exists_cons
  refine ⟨fun none => absurd (List.append_eq_nil_iff.mp none).1 nonempty, fun _ => ?_,
    fun last => ?_, fun all other member => ?_⟩
  · rw [isCons, List.cons_append, List.head?_cons]
  · rw [List.getLast?_append] at last ⊢
    cases ending : before.getLast? with
    | none =>
        rw [extended.empty (List.getLast?_eq_none_iff.mp ending), isMask.last]
        rfl
    | some item =>
        rw [ending, Option.some_or] at last
        rw [extended.last (ending.trans last), Option.some_or]
  · rcases List.mem_append.mp member with inMask | later
    · exact isMask.plain other inMask
    · exact extended.plain (fun inner inside => all inner (List.mem_append_right _ inside)) other
        later

theorem Mask.extend {mask rewritten : List α} (isMask : Mask left right plain mask)
    (extended : Extends left right plain mask rewritten) : Mask left right plain rewritten :=
  ⟨extended.first isMask.first, extended.last isMask.last, extended.plain isMask.plain⟩

/-- Hidden items are rewritten apart from the shown items behind them. -/
theorem conceal_stamp {content : List α} (bounded : ∀ input, find input ≤ input.length)
    (unmixed : Unmixed find (stamp none content ++ back))
    (shown : ∀ cell ∈ back.head?, cell.mark ≠ none)
    (replaced : ∀ matched, Mask left right plain (replace matched)) :
    ∃ rewritten, conceal find replace (stamp none content ++ back) =
        stamp none rewritten ++ conceal find replace back ∧
      Unmixed find back ∧ Extends left right plain content rewritten := by
  induction size : content.length using Nat.strong_induction_on generalizing content with
  | _ size inductionHypothesis =>
      cases content with
      | nil => exact ⟨[], rfl, unmixed, .nil⟩
      | cons item content =>
          have within := unmixed.find_le bounded (List.cons_ne_nil _ _)
            (fun cell member => by rw [(mem_stamp member).1, Option.isSome_none])
            (fun cell member => by
              rw [ne_eq, Option.isSome_eq_false_iff, Option.isNone_iff_eq_none]
              exact shown cell member)
          rw [stamp_cons, List.length_cons, length_stamp] at within
          rw [List.length_cons] at size
          rw [stamp_cons, List.cons_append] at unmixed ⊢
          cases found : find (items (⟨item, none⟩ :: (stamp none content ++ back))) with
          | zero =>
              obtain ⟨rewritten, equal, later, extended⟩ :=
                inductionHypothesis content.length (by omega) (unmixed.of_keep found) rfl
              refine ⟨item :: rewritten, ?_, later, extended.keep item⟩
              rw [conceal, rewriteCells_keep found, ← conceal, equal, ← List.cons_append,
                ← stamp_cons]
          | succ count =>
              rw [List.cons_append, found] at within
              have fits : count ≤ (stamp (none : Option Nat) content).length := by
                rw [length_stamp]
                omega
              have behind : (stamp none content ++ back).drop count =
                  stamp none (content.drop count) ++ back := by
                rw [List.drop_append_of_le_length fits, stamp, ← List.map_drop]
                rfl
              have front : (stamp none content ++ back).take count =
                stamp none (content.take count) := by
                rw [List.take_append_of_le_length fits, stamp, ← List.map_take]
                rfl
              have unmixedRest := (unmixed.of_hit found).2
              rw [behind] at unmixedRest
              obtain ⟨rewritten, equal, later, extended⟩ :=
                inductionHypothesis (content.drop count).length
                  (by rw [List.length_drop]; omega) unmixedRest rfl
              refine ⟨replace (item :: content.take count) ++ rewritten, ?_, later, ?_⟩
              · rw [conceal, rewriteCells_hit found, behind, ← conceal, equal, front, items_cons,
                  items_stamp, stamp_append, List.append_assoc]
              · have whole :
                    item :: content = (item :: content.take count) ++ content.drop count := by
                  rw [List.cons_append, List.take_append_drop]
                rw [whole]
                exact extended.put (replaced _) (List.cons_ne_nil _ _)

theorem isSome_of_mem_numbered {content : List α} {cell : Cell α (Option Nat)}
    (member : cell ∈ numbered offset content) : cell.mark.isSome = true := by
  induction content generalizing offset with
  | nil => contradiction
  | cons item content inductionHypothesis =>
      rcases List.mem_cons.mp member with rfl | later
      · rfl
      · exact inductionHypothesis later

/-- A match at shown items in front of a mask does not reach into the mask. -/
theorem Unmixed.find_le_numbered {content : List α}
    (unmixed : Unmixed find (numbered offset content ++ back))
    (bounded : ∀ input, find input ≤ input.length) (nonempty : content ≠ [])
    (hidden : ∀ cell ∈ back.head?, cell.mark = none) :
    find (items (numbered offset content ++ back)) ≤ content.length := by
  have numberedNonempty : numbered offset content ≠ [] := by
    rwa [← List.length_pos_iff, length_numbered, List.length_pos_iff]
  have within := unmixed.find_le bounded numberedNonempty
    (fun cell member => isSome_of_mem_numbered member)
    fun cell member => by rw [hidden cell member]; decide
  rwa [length_numbered] at within

/-- **Induction along a rewriting**: a mask is rewritten to a mask, a shown item stays, and shown
items that are a match are replaced by a mask. -/
theorem Masked.rewriting_induction {P : Nat → List (Cell α (Option Nat)) → Prop}
    (masked : Masked left right plain source offset cells)
    (bounded : ∀ input, find input ≤ input.length) (unmixed : Unmixed find cells)
    (replaced : ∀ matched, Mask left right plain (replace matched))
    (nil : P source.length [])
    (mask : ∀ {offset next : Nat} {mask rewritten : List α} {back : List (Cell α (Option Nat))},
      offset < next → Mask left right plain mask → Extends left right plain mask rewritten →
      conceal find replace (stamp none mask ++ back) =
        stamp none rewritten ++ conceal find replace back →
      Masked left right plain source next back → P next back → P offset (stamp none mask ++ back))
    (item : ∀ {offset : Nat} {item : α} {back : List (Cell α (Option Nat))},
      source[offset]? = some item → Masked left right plain source (offset + 1) back →
      Unmixed find (⟨item, some offset⟩ :: back) →
      find (items (⟨item, some offset⟩ :: back)) = 0 → P (offset + 1) back →
      P offset (⟨item, some offset⟩ :: back))
    (matched : ∀ {offset : Nat} {content : List α} {back : List (Cell α (Option Nat))},
      content ≠ [] → Masked left right plain source offset (numbered offset content ++ back) →
      Unmixed find (numbered offset content ++ back) →
      find (items (numbered offset content ++ back)) = content.length →
      P (offset + content.length) back → P offset (numbered offset content ++ back)) :
    P offset cells := by
  induction size : cells.length using Nat.strong_induction_on generalizing cells offset with
  | _ size inductionHypothesis =>
      by_cases isEmpty : cells = []
      · subst isEmpty
        rwa [masked.of_nil]
      by_cases hiddenFirst : ∀ cell ∈ cells.head?, cell.mark = none
      · obtain ⟨next, region, back, rfl, later, isMask, rest, shown⟩ :=
          masked.exists_region isEmpty hiddenFirst
        obtain ⟨body, isCons⟩ := isMask.exists_cons
        obtain ⟨rewritten, equal, unmixedRest, extended⟩ :=
          conceal_stamp bounded unmixed shown replaced
        apply mask later isMask extended equal rest
        apply inductionHypothesis back.length _ rest unmixedRest rfl
        rw [← size, isCons, List.length_append, length_stamp, List.length_cons]
        omega
      · obtain ⟨front, back, rfl, _, agrees, hidden, _⟩ := masked.exists_front
        have nonempty : front ≠ [] := by
          rintro rfl
          exact hiddenFirst hidden
        have fits := unmixed.find_le_numbered bounded nonempty hidden
        cases found : find (items (numbered offset front ++ back)) with
        | zero =>
            obtain ⟨first, front, rfl⟩ := List.exists_cons_of_ne_nil nonempty
            have shows : source[offset]? = some first := by
              rw [← List.head?_drop, agrees]
              rfl
            have single : Masked left right plain source offset
                (numbered offset [first] ++ (numbered (offset + 1) front ++ back)) := masked
            have rest := single.of_numbered_append
            apply item shows rest unmixed found
            apply inductionHypothesis _ _ rest (unmixed.of_keep found) rfl
            rw [← size]
            simp [numbered]
        | succ count =>
            rw [found] at fits
            have length : (front.take (count + 1)).length = count + 1 :=
              List.length_take_of_le fits
            have split : numbered offset front ++ back =
                numbered offset (front.take (count + 1)) ++
                  (numbered (offset + (front.take (count + 1)).length)
                    (front.drop (count + 1)) ++ back) := by
              rw [← List.append_assoc, ← numbered_append, List.take_append_drop]
            rw [split] at masked unmixed size found ⊢
            generalize front.take (count + 1) = first at *
            generalize front.drop (count + 1) = others at *
            rw [← length] at found
            have positive : 0 < first.length := by omega
            apply matched (List.length_pos_iff.mp positive) masked unmixed found
            apply inductionHypothesis _ _ masked.of_numbered_append _ rfl
            · rw [← size]
              simp only [List.length_append, length_numbered]
              omega
            · apply unmixed.of_append
              · rwa [← List.length_pos_iff, length_numbered]
              · rw [found, length_numbered]

/-- A span that is found at a shown item begins there and is shown as a whole. -/
theorem Whole.exists_span (whole : Whole (spans find 0 source) offset cells)
    (bounded : ∀ input, find input ≤ input.length) (kept : Kept cells offset)
    (inside : offset < source.length) (found : find (source.drop offset) ≠ 0) :
    ∃ span ∈ spans find 0 source, span.1 = offset ∧
      span.2 = offset + find (source.drop offset) ∧
      ∀ position, Within span position → Kept cells position := by
  have covered : ∃ span ∈ spans find 0 source, Within span offset := by
    by_contra outside
    have nothing := find_eq_zero_of_outside bounded (Nat.zero_le offset) (by omega)
      fun span member within => outside ⟨span, member, within⟩
    rw [Nat.sub_zero] at nothing
    exact found nothing
  obtain ⟨span, member, within⟩ := covered
  rcases whole span member with ⟨begins, shown⟩ | gone
  · obtain ⟨_, nonempty, _, length⟩ := of_mem_spans bounded member
    have start : span.1 = offset := le_antisymm within.1 begins
    rw [Nat.sub_zero, start] at length
    exact ⟨span, member, start, by omega, shown⟩
  · exact absurd kept (gone offset within)

/-- A text in which nothing is hidden mixes nothing. -/
theorem unmixed_numbered (bounded : ∀ input, find input ≤ input.length) (offset : Nat)
    (content : List α) : Unmixed find (numbered offset content) := by
  intro matched found first inFirst second inSecond
  have bounds : ∀ cells : List (Cell α (Option Nat)), onItems find cells ≤ cells.length :=
    fun cells => (bounded _).trans (length_items cells).le
  obtain ⟨_, front, back, whole, _⟩ := of_mem_hits bounds found
  have shown : ∀ cell ∈ matched, cell.mark.isSome = true := fun cell member =>
    isSome_of_mem_numbered
      (whole ▸ List.mem_append_right front (List.mem_append_left back member))
  rw [shown first inFirst, shown second inSecond]

/-- At a shown item a matcher finds what it finds in the source. -/
theorem Masked.find_eq_source (masked : Masked left right plain source offset cells)
    (matcher : Matcher find) (unmixed : Unmixed find cells)
    (whole : Whole (spans find 0 source) offset cells) (kept : Kept cells offset)
    (inside : offset < source.length) : find (items cells) = find (source.drop offset) := by
  obtain ⟨front, back, rfl, _, agrees, hidden, absent⟩ := masked.exists_front
  have nonempty : front ≠ [] := by
    rintro rfl
    exact absent kept
  have here := unmixed.find_le_numbered matcher.bounded nonempty hidden
  have positive := List.length_pos_iff.mpr nonempty
  have there : find (source.drop offset) ≤ front.length := by
    by_contra beyond
    rw [not_le] at beyond
    obtain ⟨span, _, start, stop, shown⟩ :=
      whole.exists_span matcher.bounded kept inside (by omega)
    rcases kept_append.mp (shown (offset + front.length) ⟨by omega, by omega⟩) with
      inFront | inBack
    · have before := (kept_numbered_iff.mp inFront).2
      omega
    · exact absent inBack
  have left : find front = find (items (numbered offset front ++ back)) := by
    rw [items_append, items_numbered] at here ⊢
    exact matcher.front here
  have right : find front = find (source.drop offset) := by
    rw [agrees] at there ⊢
    exact matcher.front there
  rw [← left, right]

/-- Behind a mask the spans are as before. -/
theorem Whole.of_stamp_append {spans : List (Nat × Nat)} {next : Nat} {mask : List α}
    (whole : Whole spans offset (stamp none mask ++ back))
    (nonempty : ∀ span ∈ spans, span.1 < span.2)
    (masked : Masked left right plain source next back) : Whole spans next back := by
  intro span member
  rcases whole span member with ⟨_, shown⟩ | gone
  · have behind : ∀ position, Within span position → Kept back position := fun position within =>
      (kept_append.mp (shown position within)).resolve_left (not_kept_stamp _)
    exact .inl ⟨masked.le_of_kept (behind span.1 ⟨le_rfl, nonempty span member⟩), behind⟩
  · exact .inr fun position within kept => gone position within (kept_append.mpr (.inr kept))

/-- Behind shown items that are in no span, or are one span, the spans are as before. -/
theorem Whole.of_numbered_append {spans : List (Nat × Nat)} {front : List α}
    (whole : Whole spans offset (numbered offset front ++ back))
    (nonempty : ∀ span ∈ spans, span.1 < span.2)
    (masked : Masked left right plain source (offset + front.length) back)
    (apart : ∀ span ∈ spans, offset ≤ span.1 → span.1 < offset + front.length →
      span.2 ≤ offset + front.length) : Whole spans (offset + front.length) back := by
  intro span member
  have positive := nonempty span member
  rcases whole span member with ⟨begins, shown⟩ | gone
  · by_cases inFront : span.1 < offset + front.length
    · have ends := apart span member begins inFront
      refine .inr fun position within kept => ?_
      have behind := masked.le_of_kept kept
      exact absurd within.2 (by omega)
    · refine .inl ⟨by omega, fun position within => ?_⟩
      refine (kept_append.mp (shown position within)).resolve_left fun kept => ?_
      have before := (kept_numbered_iff.mp kept).2
      exact absurd within.1 (by omega)
  · exact .inr fun position within kept => gone position within (kept_append.mpr (.inr kept))

/-- What rewriting leaves is masked, and shows what was shown outside all spans. -/
structure Hides (left right : α) (plain : α → Bool) (source : List α) (find : List α → Nat)
    (replace : List α → List α) (offset : Nat) (cells : List (Cell α (Option Nat))) : Prop where
  masked : Masked left right plain source offset (conceal find replace cells)
  kept : ∀ position, Kept (conceal find replace cells) position ↔
    Kept cells position ∧ ∀ span ∈ spans find 0 source, ¬Within span position

/-- A mask is rewritten to a mask. -/
theorem Hides.mask {next : Nat} {mask rewritten : List α} (later : offset < next)
    (isMask : Mask left right plain mask) (extended : Extends left right plain mask rewritten)
    (equal : conceal find replace (stamp none mask ++ back) =
      stamp none rewritten ++ conceal find replace back)
    (hides : Hides left right plain source find replace next back) :
    Hides left right plain source find replace offset (stamp none mask ++ back) := by
  constructor
  · rw [equal]
    exact .hide later (isMask.extend extended) hides.masked
  · intro position
    rw [equal]
    simpa using hides.kept position

/-- A shown item outside all spans stays. -/
theorem Hides.item {item : α} (shows : source[offset]? = some item)
    (nothing : find (items (⟨item, some offset⟩ :: cells)) = 0)
    (outside : ∀ span ∈ spans find 0 source, ¬Within span offset)
    (hides : Hides left right plain source find replace (offset + 1) cells) :
    Hides left right plain source find replace offset (⟨item, some offset⟩ :: cells) := by
  have equal : conceal find replace (⟨item, some offset⟩ :: cells) =
      ⟨item, some offset⟩ :: conceal find replace cells := rewriteCells_keep nothing
  constructor
  · rw [equal]
    exact .keep shows hides.masked
  · intro position
    rw [equal, kept_cons, kept_cons, hides.kept]
    constructor
    · rintro (first | ⟨kept, none⟩)
      · obtain rfl := Option.some.inj first
        exact ⟨.inl rfl, outside⟩
      · exact ⟨.inr kept, none⟩
    · rintro ⟨first | kept, none⟩
      · exact .inl first
      · exact .inr ⟨kept, none⟩

/-- A span of shown items is replaced by a mask. -/
theorem Hides.span {content : List α} {span : Nat × Nat} (nonempty : content ≠ [])
    (found : find (items (numbered offset content ++ cells)) = content.length)
    (member : span ∈ spans find 0 source) (start : span.1 = offset)
    (stop : span.2 = offset + content.length)
    (replaced : ∀ matched, Mask left right plain (replace matched))
    (hides : Hides left right plain source find replace (offset + content.length) cells) :
    Hides left right plain source find replace offset (numbered offset content ++ cells) := by
  have positive := List.length_pos_iff.mpr nonempty
  have equal : conceal find replace (numbered offset content ++ cells) =
      stamp none (replace content) ++ conceal find replace cells := by
    have isFound : find (items (numbered offset content ++ cells)) =
        (numbered offset content).length := by rw [found, length_numbered]
    have frontNonempty : numbered offset content ≠ [] := by
      rwa [← List.length_pos_iff, length_numbered]
    rw [conceal, rewriteCells_append frontNonempty isFound, items_numbered]
  constructor
  · rw [equal]
    exact .hide (by omega) (replaced content) hides.masked
  · intro position
    rw [equal, kept_append, kept_append, hides.kept, kept_numbered_iff]
    constructor
    · rintro (impossible | ⟨kept, none⟩)
      · exact absurd impossible (not_kept_stamp _)
      · exact ⟨.inr kept, none⟩
    · rintro ⟨⟨after, before⟩ | kept, none⟩
      · exact absurd ⟨by omega, by omega⟩ (none span member)
      · exact .inr ⟨kept, none⟩

/-- **Rewriting a masked text** hides exactly the spans of the source that are
still shown. -/
theorem Masked.hides (masked : Masked left right plain source offset cells)
    (matcher : Matcher find) (unmixed : Unmixed find cells)
    (whole : Whole (spans find 0 source) offset cells)
    (replaced : ∀ matched, Mask left right plain (replace matched)) :
    Hides left right plain source find replace offset cells := by
  have bounded := matcher.bounded
  have nonempty : ∀ span ∈ spans find 0 source, span.1 < span.2 := fun span member =>
    (of_mem_spans bounded member).2.1
  revert whole
  refine masked.rewriting_induction (P := fun offset cells => Whole (spans find 0 source) offset
    cells → Hides left right plain source find replace offset cells) bounded unmixed replaced
    ?nil ?mask ?item ?matched
  case nil =>
    intro _
    exact ⟨.nil, by simp [conceal]⟩
  case mask =>
    intro offset next mask rewritten back later isMask extended equal rest hides whole
    exact .mask later isMask extended equal (hides (whole.of_stamp_append nonempty rest))
  case item =>
    intro offset item back shows rest unmixed nothing hides whole
    have keptFirst : Kept (⟨item, some offset⟩ :: back) offset := kept_cons.mpr (.inl rfl)
    have inside := (List.getElem?_eq_some_iff.mp shows).1
    have found := (Masked.keep shows rest).find_eq_source matcher unmixed whole keptFirst inside
    have outside : ∀ span ∈ spans find 0 source, ¬Within span offset := by
      intro span member within
      obtain ⟨_, isNonempty, _, length⟩ := of_mem_spans bounded member
      rcases whole span member with ⟨begins, _⟩ | gone
      · rw [Nat.sub_zero, le_antisymm within.1 begins, ← found, nothing] at length
        have before := within.2
        omega
      · exact gone offset within keptFirst
    have single : Whole (spans find 0 source) offset (numbered offset [item] ++ back) := whole
    refine .item shows nothing outside (hides (single.of_numbered_append nonempty rest ?_))
    intro span member begins ends
    rw [List.length_singleton] at ends
    exact absurd ⟨by omega, (nonempty span member).trans_le' (by omega)⟩ (outside span member)
  case matched =>
    intro offset content back contentNonempty masked unmixed found hides whole
    have positive := List.length_pos_iff.mpr contentNonempty
    have keptFirst : Kept (numbered offset content ++ back) offset :=
      kept_append.mpr (.inl (kept_numbered_iff.mpr ⟨le_rfl, by omega⟩))
    have inside : offset < source.length := by
      have within := masked.of_numbered_append.offset_le
      omega
    have same := masked.find_eq_source matcher unmixed whole keptFirst inside
    rw [found] at same
    obtain ⟨span, member, start, stop, _⟩ :=
      whole.exists_span bounded keptFirst inside (by omega)
    rw [← same] at stop
    refine .span contentNonempty found member start stop replaced (hides
      (whole.of_numbered_append nonempty masked.of_numbered_append
        fun other inSpans begins ends => ?_))
    have sameSpan := eq_of_within bounded inSpans member
      ⟨le_rfl, nonempty other inSpans⟩ ⟨by omega, by omega⟩
    rw [sameSpan, stop]

end Rewriting

/-! ## Patterns that avoid the fences -/

section Fences

variable {left right : α} {plain : α → Bool} {source : List α} {offset : Nat}
  {cells front word back : List (Cell α (Option Nat))}

/-- What is hidden begins with a fence. -/
theorem Masked.eq_left {cell : Cell α (Option Nat)}
    (masked : Masked left right plain source offset (cell :: cells)) (hidden : cell.mark = none) :
    cell.item = left := by
  generalize whole : cell :: cells = target at masked
  cases masked with
  | nil => contradiction
  | keep =>
      obtain ⟨rfl, _⟩ := List.cons.inj whole
      contradiction
  | hide _ isMask _ =>
      obtain ⟨body, rfl⟩ := isMask.exists_cons
      obtain ⟨rfl, _⟩ := List.cons.inj whole
      rfl

/-- A part of a masked text without fences is shown or hidden as a whole. -/
theorem Masked.same_of_free
    (masked : Masked left right plain source offset (front ++ (word ++ back)))
    (freeLeft : left ∉ items word) (freeRight : right ∉ items word) :
    ∀ first ∈ word, ∀ second ∈ word, first.mark.isSome = second.mark.isSome := by
  generalize whole : front ++ (word ++ back) = target at masked
  induction masked generalizing front word with
  | nil =>
      obtain ⟨_, inner⟩ := List.append_eq_nil_iff.mp whole
      obtain ⟨rfl, _⟩ := List.append_eq_nil_iff.mp inner
      simp
  | @keep offset item cells _ rest inductionHypothesis =>
      cases front with
      | nil =>
          cases word with
          | nil => simp
          | cons cell word =>
              obtain ⟨rfl, rfl⟩ := List.cons.inj whole
              rw [items_cons, List.mem_cons, not_or] at freeLeft freeRight
              have inner := inductionHypothesis freeLeft.2 freeRight.2 (List.nil_append _)
              have shown : ∀ other ∈ word, other.mark.isSome = true := by
                intro other member
                obtain ⟨next, word, rfl⟩ := List.exists_cons_of_ne_nil (List.ne_nil_of_mem member)
                rw [inner other member next List.mem_cons_self]
                cases mark : next.mark with
                | some position => rfl
                | none =>
                    have isLeft := rest.eq_left mark
                    exact absurd (by simp [isLeft]) freeLeft.2
              have all : ∀ other ∈ (⟨item, some offset⟩ : Cell α (Option Nat)) :: word,
                  other.mark.isSome = true := by
                intro other member
                rcases List.mem_cons.mp member with rfl | later
                · rfl
                · exact shown other later
              intro first inFirst second inSecond
              rw [all first inFirst, all second inSecond]
      | cons cell front =>
          obtain ⟨rfl, remaining⟩ := List.cons.inj whole
          exact inductionHypothesis freeLeft freeRight remaining
  | @hide offset next mask cells _ isMask _ inductionHypothesis =>
      rcases List.append_eq_append_iff.mp whole with ⟨middle, isStamp, split⟩ | ⟨middle, rfl, split⟩
      · rcases List.append_eq_append_iff.mp split with ⟨inner, rfl, _⟩ | ⟨inner, rfl, ends⟩
        · have hidden : ∀ cell ∈ word, cell.mark = none := fun cell member =>
            (mem_stamp (isStamp ▸ List.mem_append_right _ (List.mem_append_left _ member))).1
          intro first inFirst second inSecond
          rw [hidden first inFirst, hidden second inSecond]
        · -- The part reaches from the mask into what follows.
          by_cases isEmpty : middle = []
          · subst isEmpty
            exact inductionHypothesis freeLeft freeRight ((List.nil_append _).trans ends.symm)
          · have ending := isMask.last
            have spelled := congrArg items isStamp
            rw [items_stamp, items_append] at spelled
            rw [spelled, List.getLast?_append] at ending
            have inside : right ∈ items middle := by
              cases last : (items middle).getLast? with
              | none =>
                  have noItems := congrArg List.length (List.getLast?_eq_none_iff.mp last)
                  rw [length_items] at noItems
                  exact absurd (List.eq_nil_of_length_eq_zero noItems) isEmpty
              | some item =>
                  rw [last, Option.some_or] at ending
                  exact List.mem_of_getLast? (last.trans ending)
            exact absurd (by rw [items_append]; exact List.mem_append_left _ inside) freeRight
      · exact inductionHypothesis freeLeft freeRight split.symm

/-- A pattern that avoids the fences joins nothing. -/
theorem Masked.unmixed (masked : Masked left right plain source offset cells)
    {pattern : List (Piece α)} (avoidsLeft : Avoids pattern left)
    (avoidsRight : Avoids pattern right) : Unmixed (find pattern) cells := by
  intro matched found
  obtain ⟨nonempty, front, back, rfl, length⟩ := of_mem_hits_onItems (find_le_length pattern) found
  have free : ∀ edge, Avoids pattern edge → edge ∉ items matched := by
    intro edge avoids inside
    obtain ⟨before, after, split⟩ := List.append_of_mem inside
    rw [items_append, split, List.append_assoc, List.cons_append,
      find_append_edge avoids] at length
    have short := find_le_length pattern before
    have lengths := congrArg List.length split
    rw [length_items, List.length_append, List.length_cons] at lengths
    omega
  exact masked.same_of_free (free left avoidsLeft) (free right avoidsRight)

end Fences

end ZkLlmGateway.Matching
