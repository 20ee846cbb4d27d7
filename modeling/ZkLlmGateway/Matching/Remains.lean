import ZkLlmGateway.Matching.Swept

/-!
# What stays shown

A rewriting of a masked text leaves a masked text, whole matches or not.  An item
stays shown unless it lies in a match, and a match among shown items is a part of
the source that is shown as a whole.
-/

namespace ZkLlmGateway.Matching

universe u

variable {α : Type u} {left right : α} {plain : α → Bool} {source : List α} {offset position : Nat}
  {find : List α → Nat} {replace : List α → List α} {cell : Cell α (Option Nat)}
  {cells front word back : List (Cell α (Option Nat))}

/-- A cell is left as it is, or lies in a match. -/
theorem mem_conceal_or_hit (find : List α → Nat) (replace : List α → List α)
    (member : cell ∈ cells) :
    cell ∈ conceal find replace cells ∨ ∃ matched ∈ hits (onItems find) cells, cell ∈ matched := by
  induction cells using scan_induction (onItems find) with
  | nil => contradiction
  | keep first rest nothing inductionHypothesis =>
      rw [hits_keep nothing, conceal, rewriteCells_keep nothing]
      rcases List.mem_cons.mp member with rfl | later
      · exact .inl List.mem_cons_self
      · exact (inductionHypothesis later).imp_left (List.mem_cons_of_mem first)
  | hit first rest count found inductionHypothesis =>
      rw [hits_hit found, conceal, rewriteCells_hit found]
      rw [← List.take_append_drop count rest, ← List.cons_append] at member
      rcases List.mem_append.mp member with inMatch | later
      · exact .inr ⟨_, List.mem_cons_self, inMatch⟩
      · rcases inductionHypothesis later with left | ⟨matched, isHit, inside⟩
        · exact .inl (List.mem_append_right _ left)
        · exact .inr ⟨matched, List.mem_cons_of_mem _ isHit, inside⟩

/-- Nothing that was hidden comes back. -/
theorem Kept.of_conceal (kept : Kept (conceal find replace cells) position) :
    Kept cells position := by
  obtain ⟨cell, member, marked⟩ := kept
  rcases of_mem_conceal member with before | hidden
  · exact ⟨cell, before, marked⟩
  · rw [hidden] at marked
    contradiction

/-! ### The rest of a mask

A match may take the beginning of a mask and leave its end.  What is put in for the match
and the end that is left make a mask again. -/

/-- The cells begin inside a mask, with its end. -/
inductive Closing (left right : α) (plain : α → Bool) (source : List α) (offset : Nat) :
    List (Cell α (Option Nat)) → Prop
  | intro {next : Nat} {body : List α} {back : List (Cell α (Option Nat))} : offset < next →
      body.getLast? = some right → (∀ item ∈ body, plain item = true) →
      Masked left right plain source next back →
      Closing left right plain source offset (stamp none body ++ back)

/-- What can remain behind a match: the end of a mask, or a masked text. -/
inductive Behind (left right : α) (plain : α → Bool) (source : List α) (offset : Nat)
    (cells : List (Cell α (Option Nat))) : Prop
  | inside : Closing left right plain source offset cells →
      Behind left right plain source offset cells
  | outside {next : Nat} : offset < next → Masked left right plain source next cells →
      Behind left right plain source offset cells

theorem Behind.anti {next : Nat} (behind : Behind left right plain source next cells)
    (later : offset < next) : Behind left right plain source offset cells := by
  cases behind with
  | inside closing =>
      cases closing with
      | intro further last isPlain rest => exact .inside (.intro (by omega) last isPlain rest)
  | outside further rest => exact .outside (by omega) rest

theorem Closing.behind (closing : Closing left right plain source offset (cell :: cells)) :
    Behind left right plain source offset cells := by
  generalize whole : cell :: cells = target at closing
  cases closing with
  | @intro next body back later last isPlain rest =>
      cases body with
      | nil => contradiction
      | cons item body =>
          obtain ⟨rfl, rfl⟩ := List.cons.inj whole
          cases body with
          | nil => exact .outside later rest
          | cons second body =>
              refine .inside (.intro later ?_ (fun other member => ?_) rest)
              · rwa [List.getLast?_cons_cons] at last
              · exact isPlain other (List.mem_cons_of_mem item member)

theorem Masked.behind (masked : Masked left right plain source offset (cell :: cells)) :
    Behind left right plain source offset cells := by
  generalize whole : cell :: cells = target at masked
  cases masked with
  | nil => contradiction
  | keep _ rest =>
      obtain ⟨rfl, rfl⟩ := List.cons.inj whole
      exact .outside (Nat.lt_succ_self offset) rest
  | hide later isMask rest =>
      have closing := Closing.intro later isMask.last isMask.plain rest
      rw [← whole] at closing
      exact closing.behind

theorem Behind.tail (behind : Behind left right plain source offset (cell :: cells)) :
    Behind left right plain source offset cells := by
  cases behind with
  | inside closing => exact closing.behind
  | outside later rest => exact rest.behind.anti later

theorem Behind.drop (behind : Behind left right plain source offset cells) (count : Nat) :
    Behind left right plain source offset (cells.drop count) := by
  induction count generalizing cells with
  | zero => exact behind
  | succ count inductionHypothesis =>
      cases cells with
      | nil => exact behind
      | cons cell cells => exact inductionHypothesis behind.tail

/-- What is put in for a match closes what the match opened. -/
theorem Behind.put {mask : List α} (isMask : Mask left right plain mask)
    (behind : Behind left right plain source offset cells) :
    ∃ whole next back, stamp none mask ++ cells = stamp none whole ++ back ∧ offset < next ∧
      Mask left right plain whole ∧ Masked left right plain source next back := by
  cases behind with
  | outside later rest => exact ⟨mask, _, _, rfl, later, isMask, rest⟩
  | inside closing =>
      cases closing with
      | @intro next body back later last isPlain rest =>
          refine ⟨mask ++ body, next, back, ?_, later, ⟨?_, ?_, ?_⟩, rest⟩
          · rw [stamp_append, List.append_assoc]
          · rw [List.head?_append, isMask.first, Option.some_or]
          · rw [List.getLast?_append, last, Option.some_or]
          · exact List.forall_mem_append.mpr ⟨isMask.plain, isPlain⟩

/-- A rewriting keeps what a text is, whether it begins inside a mask or not. -/
structure Closes (left right : α) (plain : α → Bool) (source : List α)
    (before after : List (Cell α (Option Nat))) : Prop where
  masked : ∀ offset, Masked left right plain source offset before →
    Masked left right plain source offset after
  closing : ∀ offset, Closing left right plain source offset before →
    Closing left right plain source offset after

theorem Closes.behind {after : List (Cell α (Option Nat))}
    (closes : Closes left right plain source cells after)
    (behind : Behind left right plain source offset cells) :
    Behind left right plain source offset after := by
  cases behind with
  | inside closing => exact .inside (closes.closing offset closing)
  | outside later rest => exact .outside later (closes.masked _ rest)

/-- An item that is left alone. -/
theorem Closes.keep {after : List (Cell α (Option Nat))}
    (closes : Closes left right plain source cells after) :
    Closes left right plain source (cell :: cells) (cell :: after) := by
  have closing : ∀ offset, Closing left right plain source offset (cell :: cells) →
      Closing left right plain source offset (cell :: after) := by
    intro offset isClosing
    generalize whole : cell :: cells = target at isClosing
    cases isClosing with
    | @intro next body back later last isPlain rest =>
        cases body with
        | nil => contradiction
        | cons item body =>
            obtain ⟨rfl, rfl⟩ := List.cons.inj whole
            cases body with
            | nil =>
                have ends : Closing left right plain source offset
                    (stamp none [item] ++ after) :=
                  .intro later last isPlain (closes.masked next rest)
                exact ends
            | cons second body =>
                rw [List.getLast?_cons_cons] at last
                have inner := closes.closing offset (.intro later last
                  (fun other member => isPlain other (List.mem_cons_of_mem item member)) rest)
                generalize after = target at inner
                cases inner with
                | @intro further inner back onward isLast allPlain behind =>
                    have isRight : (item :: inner).getLast? = some right := by
                      cases inner with
                      | nil => contradiction
                      | cons => rwa [List.getLast?_cons_cons]
                    have ends : Closing left right plain source offset
                        (stamp none (item :: inner) ++ back) :=
                      .intro onward isRight
                        (List.forall_mem_cons.mpr ⟨isPlain item List.mem_cons_self, allPlain⟩)
                        behind
                    exact ends
  refine ⟨fun offset masked => ?_, closing⟩
  generalize whole : cell :: cells = target at masked
  cases masked with
  | nil => contradiction
  | keep shows rest =>
      obtain ⟨rfl, rfl⟩ := List.cons.inj whole
      exact .keep shows (closes.masked _ rest)
  | hide later isMask rest =>
      -- The mask keeps its first item.
      have isClosing := Closing.intro later isMask.last isMask.plain rest
      obtain ⟨body, rfl⟩ := isMask.exists_cons
      rw [← whole] at isClosing
      obtain ⟨rfl, _⟩ := List.cons.inj whole
      have closed := closing offset isClosing
      generalize whole' : (⟨left, none⟩ :: after : List (Cell α (Option Nat))) = target at closed
      cases closed with
      | @intro next inner back onward isLast allPlain behind =>
          refine .hide onward ⟨?_, isLast, allPlain⟩ behind
          cases inner with
          | nil => contradiction
          | cons item inner =>
              have first : left = item := congrArg Cell.item (List.cons.inj whole').1
              rw [List.head?_cons, first]

/-- A match that is replaced. -/
theorem Closes.hit {count : Nat} {after : List (Cell α (Option Nat))} {mask : List α}
    (isMask : Mask left right plain mask)
    (closes : Closes left right plain source (cells.drop count) after) :
    Closes left right plain source (cell :: cells) (stamp none mask ++ after) := by
  constructor
  · intro offset masked
    obtain ⟨whole, next, back, equal, later, isWhole, rest⟩ :=
      (closes.behind (masked.behind.drop count)).put isMask
    rw [equal]
    exact .hide later isWhole rest
  · intro offset closing
    obtain ⟨whole, next, back, equal, later, isWhole, rest⟩ :=
      (closes.behind (closing.behind.drop count)).put isMask
    rw [equal]
    exact .intro later isWhole.last isWhole.plain rest

theorem closes_conceal (find : List α → Nat)
    (replaced : ∀ matched, Mask left right plain (replace matched)) :
    Closes left right plain source cells (conceal find replace cells) := by
  induction cells using scan_induction (onItems find) with
  | nil => exact ⟨fun _ => id, fun _ => id⟩
  | keep first rest nothing inductionHypothesis =>
      have isKept : conceal find replace (first :: rest) = first :: conceal find replace rest :=
        rewriteCells_keep nothing
      rw [isKept]
      exact inductionHypothesis.keep
  | hit first rest count found inductionHypothesis =>
      rw [conceal, rewriteCells_hit found]
      exact .hit (replaced _) inductionHypothesis

/-- **A rewriting leaves a masked text**, whatever its matches take. -/
theorem Masked.conceal (masked : Masked left right plain source offset cells)
    (find : List α → Nat) (replaced : ∀ matched, Mask left right plain (replace matched)) :
    Masked left right plain source offset (conceal find replace cells) :=
  (closes_conceal find replaced).masked offset masked

/-- Shown items at the front are those of the source. -/
theorem Masked.eq_numbered (masked : Masked left right plain source offset (word ++ back))
    (shown : ∀ cell ∈ word, cell.mark.isSome = true) :
    word = numbered offset (items word) ∧ items word <+: source.drop offset := by
  induction word generalizing offset with
  | nil => exact ⟨rfl, List.nil_prefix⟩
  | cons first word inductionHypothesis =>
      have isShown : first.mark ≠ none := by
        rw [← Option.isSome_iff_ne_none]
        exact shown first List.mem_cons_self
      have isFirst := masked.mark_eq isShown
      have shows := (masked.of_mem List.mem_cons_self).2 offset isFirst
      have behind : Masked left right plain source (offset + 1) (word ++ back) := by
        have single : first :: (word ++ back) = numbered offset [first.item] ++ (word ++ back) := by
          rw [numbered, numbered, ← isFirst]
          rfl
        rw [List.cons_append, single] at masked
        exact masked.of_numbered_append
      obtain ⟨equal, spelled⟩ :=
        inductionHypothesis behind fun cell member => shown cell (List.mem_cons_of_mem _ member)
      obtain ⟨inside, isItem⟩ := List.getElem?_eq_some_iff.mp shows
      constructor
      · rw [items_cons, numbered, ← equal, ← isFirst]
      · rw [items_cons, List.drop_eq_getElem_cons inside, isItem]
        exact (List.prefix_cons_inj _).mpr spelled

/-- A shown word stands in the source, behind what is shown in front of it. -/
theorem Masked.exists_start
    (masked : Masked left right plain source offset (front ++ (word ++ back)))
    (nonempty : word ≠ []) (shown : ∀ cell ∈ word, cell.mark.isSome = true) :
    ∃ start, items word <+: source.drop start ∧
      (∀ other, Kept word other ↔ start ≤ other ∧ other < start + word.length) ∧
      ∀ other, Kept front other → other < start := by
  have headShown : ∀ first ∈ (word ++ back).head?, first.mark ≠ none := by
    intro first isFirst
    obtain ⟨head, rest, rfl⟩ := List.exists_cons_of_ne_nil nonempty
    rw [List.cons_append, List.head?_cons] at isFirst
    rw [← Option.some.inj isFirst, ← Option.isSome_iff_ne_none]
    exact shown head List.mem_cons_self
  obtain ⟨start, _, rest, before⟩ := masked.part headShown
  obtain ⟨isNumbered, spelled⟩ := rest.eq_numbered shown
  refine ⟨start, spelled, fun other => ?_, before⟩
  rw [isNumbered, kept_numbered_iff, length_items, length_numbered, length_items]

/-- **A match that takes a shown item** is a part of the source, and all of it is shown. -/
theorem Masked.exists_word (masked : Masked left right plain source offset cells)
    (bounded : ∀ input, find input ≤ input.length) (unmixed : Unmixed find cells)
    {matched : List (Cell α (Option Nat))} (isHit : matched ∈ hits (onItems find) cells)
    (taken : Kept matched position) :
    ∃ start, items matched <+: source.drop start ∧
      ∀ other, Kept matched other ↔ start ≤ other ∧ other < start + matched.length := by
  obtain ⟨cell, member, marked⟩ := taken
  obtain ⟨nonempty, before, after, rfl, _⟩ := of_mem_hits_onItems bounded isHit
  have shown : ∀ other ∈ matched, other.mark.isSome = true := by
    intro other inside
    rw [unmixed matched isHit other inside cell member, marked]
    rfl
  obtain ⟨start, spelled, keptIff, _⟩ := masked.exists_start nonempty shown
  exact ⟨start, spelled, keptIff⟩

theorem subset_of_mem_hits {find : List α → Nat} {input matched : List α}
    (found : matched ∈ hits find input) : matched ⊆ input := by
  induction input using scan_induction find with
  | nil => contradiction
  | keep item rest nothing inductionHypothesis =>
      rw [hits_keep nothing] at found
      exact fun inner inside => List.mem_cons_of_mem _ (inductionHypothesis found inside)
  | hit item rest count isFound inductionHypothesis =>
      rw [hits_hit isFound] at found
      rcases List.mem_cons.mp found with rfl | later
      · exact List.cons_subset_cons item (List.take_subset count rest)
      · exact fun inner inside =>
          List.mem_cons_of_mem _ (List.mem_of_mem_drop (inductionHypothesis later inside))

theorem Kept.mono (kept : Kept front position) (subset : front ⊆ back) : Kept back position := by
  obtain ⟨cell, member, marked⟩ := kept
  exact ⟨cell, subset member, marked⟩

/-- A shown item stays shown when every match that could take it is broken. -/
theorem Masked.kept_conceal (masked : Masked left right plain source offset cells)
    (bounded : ∀ input, find input ≤ input.length) (unmixed : Unmixed find cells)
    (kept : Kept cells position)
    (broken : ∀ matched ∈ hits (onItems find) cells, ∀ start,
      items matched <+: source.drop start → start ≤ position → position < start + matched.length →
      ∃ other, start ≤ other ∧ other < start + matched.length ∧ ¬Kept cells other) :
    Kept (Matching.conceal find replace cells) position := by
  obtain ⟨cell, member, marked⟩ := kept
  rcases mem_conceal_or_hit find replace member with stays | ⟨matched, isHit, inside⟩
  · exact ⟨cell, stays, marked⟩
  · obtain ⟨start, spelled, keptIff⟩ :=
      masked.exists_word bounded unmixed isHit ⟨cell, inside, marked⟩
    obtain ⟨begins, ends⟩ := (keptIff position).mp ⟨cell, inside, marked⟩
    obtain ⟨other, first, last, gone⟩ := broken matched isHit start spelled begins ends
    exact absurd (((keptIff other).mpr ⟨first, last⟩).mono (subset_of_mem_hits isHit)) gone

/-! ## What a match takes -/

theorem mem_marks_iff : position ∈ cells.filterMap Cell.mark ↔ Kept cells position := by
  simp [Kept]

theorem Masked.nodup_marks (masked : Masked left right plain source offset cells) :
    (cells.filterMap Cell.mark).Nodup := by
  induction masked with
  | nil => simp
  | @keep offset item cells shows rest inductionHypothesis =>
      have isCons :
          (⟨item, some offset⟩ :: cells : List (Cell α (Option Nat))).filterMap Cell.mark =
            offset :: cells.filterMap Cell.mark := by simp
      rw [isCons, List.nodup_cons]
      refine ⟨fun inside => ?_, inductionHypothesis⟩
      have behind := rest.le_of_kept (mem_marks_iff.mp inside)
      omega
  | @hide offset next mask cells later isMask rest inductionHypothesis =>
      have none : (stamp (none : Option Nat) mask).filterMap Cell.mark = [] := by
        rw [List.filterMap_eq_nil_iff]
        exact fun cell member => (mem_stamp member).1
      rwa [List.filterMap_append, none, List.nil_append]

/-- What lies in a match is not shown afterwards. -/
theorem not_kept_of_hit (replace : List α → List α) (distinct : (cells.filterMap Cell.mark).Nodup)
    {matched : List (Cell α (Option Nat))} (isHit : matched ∈ hits (onItems find) cells)
    (taken : Kept matched position) : ¬Kept (Matching.conceal find replace cells) position := by
  -- A position is shown once.
  have once : ∀ {front back : List (Cell α (Option Nat))},
      ((front ++ back).filterMap Cell.mark).Nodup → Kept front position → ¬Kept back position := by
    intro front back nodup inFront inBack
    rw [List.filterMap_append, List.nodup_append] at nodup
    exact nodup.2.2 position (mem_marks_iff.mpr inFront) position (mem_marks_iff.mpr inBack) rfl
  induction cells using scan_induction (onItems find) with
  | nil => contradiction
  | keep first rest nothing inductionHypothesis =>
      rw [hits_keep nothing] at isHit
      rw [Matching.conceal, rewriteCells_keep nothing, kept_cons, not_or]
      rw [← List.singleton_append] at distinct
      refine ⟨fun marked => ?_, inductionHypothesis ?_ isHit⟩
      · exact once distinct (kept_cons.mpr (.inl marked)) (taken.mono (subset_of_mem_hits isHit))
      · rw [List.filterMap_append, List.nodup_append] at distinct
        exact distinct.2.1
  | hit first rest count found inductionHypothesis =>
      rw [hits_hit found] at isHit
      rw [Matching.conceal, rewriteCells_hit found, kept_append, not_or]
      rw [← List.take_append_drop count rest, ← List.cons_append] at distinct
      refine ⟨not_kept_stamp _, ?_⟩
      rcases List.mem_cons.mp isHit with rfl | later
      · exact fun kept => once distinct taken kept.of_conceal
      · refine inductionHypothesis ?_ later
        rw [List.filterMap_append, List.nodup_append] at distinct
        exact distinct.2.1

/-- **What a rewriting hides** lies in a word of the source that it hides as a whole. -/
theorem Masked.exists_word_of_hidden (masked : Masked left right plain source offset cells)
    (bounded : ∀ input, find input ≤ input.length) (unmixed : Unmixed find cells)
    (kept : Kept cells position) (gone : ¬Kept (Matching.conceal find replace cells) position) :
    ∃ matched ∈ hits (onItems find) cells, ∃ start, items matched <+: source.drop start ∧
      start ≤ position ∧ position < start + matched.length ∧
      ∀ other, start ≤ other → other < start + matched.length →
        ¬Kept (Matching.conceal find replace cells) other := by
  obtain ⟨cell, member, marked⟩ := kept
  rcases mem_conceal_or_hit find replace member with stays | ⟨matched, isHit, inside⟩
  · exact absurd ⟨cell, stays, marked⟩ gone
  · obtain ⟨start, spelled, keptIff⟩ :=
      masked.exists_word bounded unmixed isHit ⟨cell, inside, marked⟩
    obtain ⟨begins, ends⟩ := (keptIff position).mp ⟨cell, inside, marked⟩
    exact ⟨matched, isHit, start, spelled, begins, ends, fun other first last =>
      not_kept_of_hit replace masked.nodup_marks isHit ((keptIff other).mpr ⟨first, last⟩)⟩

end ZkLlmGateway.Matching
