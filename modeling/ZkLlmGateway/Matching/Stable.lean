import ZkLlmGateway.Matching.Remains

/-!
# What a second rewriting finds

A rewriting leaves no match among the items that stay shown, and later rewritings
make none.  A word that cannot reach across the border of a mask was there
before, or lies in what was put in.
-/

namespace ZkLlmGateway.Matching

universe u

variable {α : Type u}

/-! ## Matches at the front -/

section Patterns

variable {pattern front back : List (Piece α)} {piece : Piece α} {input rest : List α}
    {length : Nat}
  {item : α}

/-- What matches a text matches every continuation of it. -/
theorem mem_lengths_append (more : List α) (reached : length ∈ lengths front input) :
    length ∈ lengths front (input ++ more) := by
  rw [← lengths_append front input more] at reached
  exact (List.mem_filter.mp reached).1

theorem mem_lengths_of_prefix (isPrefix : input <+: rest) (reached : length ∈ lengths front input) :
    length ∈ lengths front rest := by
  obtain ⟨more, rfl⟩ := isPrefix
  exact mem_lengths_append more reached

/-- What a match takes is matched on its own. -/
theorem mem_lengths_take (reached : length ∈ lengths front input) :
    length ∈ lengths front (input.take length) := by
  have fits := length_le_of_mem_lengths reached
  rw [← lengths_append front (input.take length) (input.drop length), List.take_append_drop]
  exact List.mem_filter.mpr ⟨reached, by simp [fits]⟩

theorem find_ne_zero_append (demands : 0 < (pattern.map Piece.least).sum) (more : List α)
    (found : find pattern input ≠ 0) : find pattern (input ++ more) ≠ 0 := by
  rw [find_ne_zero_iff demands] at found ⊢
  obtain ⟨length, reached⟩ := List.exists_mem_of_ne_nil _ found
  exact List.ne_nil_of_mem (mem_lengths_append more reached)

/-- Patterns one behind the other. -/
theorem mem_lengths_parts :
    length ∈ lengths (front ++ back) input ↔
      ∃ first second, first ∈ lengths front input ∧ second ∈ lengths back (input.drop first) ∧
        length = first + second := by
  induction front generalizing input length with
  | nil => simp [lengths]
  | cons piece front inductionHypothesis =>
      rw [List.cons_append, mem_lengths_cons]
      constructor
      · rintro ⟨count, remaining, counted, later, rfl⟩
        obtain ⟨first, second, inFront, inBack, rfl⟩ := inductionHypothesis.mp later
        refine ⟨count + first, second, mem_lengths_cons.mpr ⟨count, first, counted, inFront, rfl⟩,
          ?_, by omega⟩
        rwa [← List.drop_drop]
      · rintro ⟨first, second, inFront, inBack, rfl⟩
        obtain ⟨count, remaining, counted, later, rfl⟩ := mem_lengths_cons.mp inFront
        refine ⟨count, remaining + second, counted,
          inductionHypothesis.mpr ⟨remaining, second, later, ?_, rfl⟩, by omega⟩
        rwa [List.drop_drop]

/-- What a match takes is in the classes of the pattern. -/
theorem exists_mem_of_mem_take (reached : length ∈ lengths pattern input)
    (taken : item ∈ input.take length) : ∃ piece ∈ pattern, piece.mem item = true := by
  induction pattern generalizing input length with
  | nil =>
      rw [lengths, List.mem_singleton] at reached
      rw [reached, List.take_zero] at taken
      contradiction
  | cons piece pattern inductionHypothesis =>
      obtain ⟨count, remaining, counted, later, rfl⟩ := mem_lengths_cons.mp reached
      rw [List.take_add, List.mem_append] at taken
      rcases taken with first | second
      · have inReach : item ∈ input.take (piece.reach input) :=
          List.take_subset_take_left input (Piece.mem_counts.mp counted).2 first
        exact ⟨piece, List.mem_cons_self, Piece.mem_of_lt_reach inReach⟩
      · obtain ⟨other, member, inside⟩ := inductionHypothesis later second
        exact ⟨other, List.mem_cons_of_mem _ member, inside⟩

/-- Every class that must occur occurs. -/
theorem exists_taken_of_mem (reached : length ∈ lengths pattern input) (member : piece ∈ pattern)
    (demanded : 1 ≤ piece.least) : ∃ item ∈ input.take length, piece.mem item = true := by
  induction pattern generalizing input length with
  | nil => contradiction
  | cons first pattern inductionHypothesis =>
      obtain ⟨count, remaining, counted, later, rfl⟩ := mem_lengths_cons.mp reached
      rw [List.take_add]
      rcases List.mem_cons.mp member with rfl | behind
      · obtain ⟨atLeast, reach⟩ := Piece.mem_counts.mp counted
        have nonempty : input.take count ≠ [] := by
          rw [← List.length_pos_iff, List.length_take_of_le (reach.trans (piece.reach_le input))]
          omega
        obtain ⟨item, inside⟩ := List.exists_mem_of_ne_nil _ nonempty
        exact ⟨item, List.mem_append_left _ inside,
          Piece.mem_of_lt_reach (List.take_subset_take_left input reach inside)⟩
      · obtain ⟨item, inside, isMember⟩ := inductionHypothesis later behind
        exact ⟨item, List.mem_append_right _ inside, isMember⟩

/-- A piece reaches over items of its class. -/
theorem Piece.le_reach {count : Nat} (fits : count ≤ input.length)
    (inside : ∀ item ∈ input.take count, piece.mem item = true)
    (most : ∀ most ∈ piece.most, count ≤ most) : count ≤ piece.reach input := by
  have run : count ≤ (input.takeWhile piece.mem).length := by
    rw [← List.take_append_drop count input, List.takeWhile_append_of_pos inside,
      List.length_append, List.length_take_of_le fits]
    exact Nat.le_add_right _ _
  unfold Piece.reach
  cases bound : piece.most with
  | none => exact run
  | some limit => exact le_min run (most limit bound)

theorem not_mem_take_of_avoids (avoids : Avoids pattern item)
    (reached : length ∈ lengths pattern input) : item ∉ input.take length := by
  intro taken
  obtain ⟨piece, member, inside⟩ := exists_mem_of_mem_take reached taken
  rw [avoids piece member] at inside
  contradiction

end Patterns

/-! ## Words of a rewritten text -/

section Words

variable {left right : α} {plain : α → Bool} {find : List α → Nat} {replace : List α → List α}
  {cells word : List (Cell α (Option Nat))}

/-- The border of what is put in does not lie inside a word. -/
structure Apart (replace : List α → List α) (word : List (Cell α (Option Nat))) : Prop where
  first : ∀ matched, ∃ cell body, stamp none (replace matched) = cell :: body ∧ cell ∉ word.tail
  last : ∀ matched, ∃ body cell, stamp none (replace matched) = body ++ [cell] ∧
    cell ∉ word.dropLast

/-- A word at the front that holds nothing that is put in was there. -/
theorem prefix_of_prefix_conceal
    (foreign : ∀ matched, ∃ cell body, stamp none (replace matched) = cell :: body ∧ cell ∉ word)
    (isPrefix : word <+: conceal find replace cells) : word <+: cells := by
  induction cells using scan_induction (onItems find) generalizing word with
  | nil => exact isPrefix
  | keep first rest nothing inductionHypothesis =>
      rw [conceal, rewriteCells_keep nothing] at isPrefix
      cases word with
      | nil => exact List.nil_prefix
      | cons cell word =>
          obtain ⟨rfl, later⟩ := List.cons_prefix_cons.mp isPrefix
          refine (List.prefix_cons_inj cell).mpr (inductionHypothesis (fun matched => ?_) later)
          obtain ⟨edge, body, isCons, outside⟩ := foreign matched
          exact ⟨edge, body, isCons, fun inside => outside (List.mem_cons_of_mem _ inside)⟩
  | hit first rest count found _ =>
      rw [conceal, rewriteCells_hit found] at isPrefix
      obtain ⟨edge, body, isCons, outside⟩ := foreign (items (first :: rest.take count))
      rw [isCons] at isPrefix
      cases word with
      | nil => exact List.nil_prefix
      | cons cell word =>
          rw [List.cons_append] at isPrefix
          obtain ⟨rfl, _⟩ := List.cons_prefix_cons.mp isPrefix
          exact absurd List.mem_cons_self outside

/-- **A word of a rewritten text** was there, or lies in what was put in. -/
theorem infix_of_infix_conceal (apart : Apart replace word)
    (isInfix : word <:+: conceal find replace cells) :
    word <:+: cells ∨
      ∃ matched ∈ hits (onItems find) cells, word <:+: stamp none (replace (items matched)) := by
  induction cells using scan_induction (onItems find) with
  | nil => exact .inl isInfix
  | keep first rest nothing inductionHypothesis =>
      rw [conceal, rewriteCells_keep nothing] at isInfix
      rw [hits_keep nothing]
      rcases List.infix_cons_iff.mp isInfix with isPrefix | later
      · left
        cases word with
        | nil => exact List.nil_infix
        | cons cell word =>
            obtain ⟨rfl, behind⟩ := List.cons_prefix_cons.mp isPrefix
            exact ((List.prefix_cons_inj cell).mpr
              (prefix_of_prefix_conceal apart.first behind)).isInfix
      · exact (inductionHypothesis later).imp_left fun inside =>
          inside.trans (List.suffix_cons first rest).isInfix
  | hit first rest count found inductionHypothesis =>
      rw [conceal, rewriteCells_hit found] at isInfix
      rw [hits_hit found]
      rcases List.infix_append_iff_ne_nil.mp isInfix with put | later | across
      · exact .inr ⟨_, List.mem_cons_self, put⟩
      · rcases inductionHypothesis later with inside | ⟨matched, isHit, put⟩
        · exact .inl (inside.trans ((List.drop_suffix count rest).trans
            (List.suffix_cons first rest)).isInfix)
        · exact .inr ⟨matched, List.mem_cons_of_mem _ isHit, put⟩
      · -- What reaches across has the end of what is put in inside.
        obtain ⟨front, back, frontNonempty, backNonempty, rfl, isSuffix, _⟩ := across
        obtain ⟨body, edge, isConcat, outside⟩ := apart.last (items (first :: rest.take count))
        rw [isConcat] at isSuffix
        rw [List.dropLast_append_of_ne_nil backNonempty, List.mem_append, not_or] at outside
        have isLast := isSuffix.getLast frontNonempty
        rw [List.getLast_concat] at isLast
        exact absurd (isLast ▸ List.getLast_mem frontNonempty) outside.1

/-- No match among shown items. -/
def Clear (find : List α → Nat) (cells : List (Cell α (Option Nat))) : Prop :=
  ∀ word, word <:+: cells → (∀ cell ∈ word, cell.mark.isSome = true) → find (items word) = 0

theorem Mask.exists_concat {mask : List α} (isMask : Mask left right plain mask) :
    ∃ body, mask = body ++ [right] :=
  List.getLast?_eq_some_iff.mp isMask.last

/-- A shown word holds nothing that is put in. -/
theorem apart_of_shown (replaced : ∀ matched, Mask left right plain (replace matched))
    (shown : ∀ cell ∈ word, cell.mark.isSome = true) : Apart replace word := by
  have outside : ∀ item : α, (⟨item, none⟩ : Cell α (Option Nat)) ∉ word := by
    intro item inside
    have isShown := shown _ inside
    contradiction
  constructor
  · intro matched
    obtain ⟨body, isCons⟩ := (replaced matched).exists_cons
    exact ⟨_, _, by rw [isCons, stamp_cons], fun inside => outside _ (List.mem_of_mem_tail inside)⟩
  · intro matched
    obtain ⟨body, isConcat⟩ := (replaced matched).exists_concat
    refine ⟨stamp none body, ⟨right, none⟩, by rw [isConcat, stamp_append]; rfl, fun inside => ?_⟩
    exact outside _ (List.dropLast_subset word inside)

/-- Shown words of a rewritten text were there. -/
theorem shown_part_of_shown (replaced : ∀ matched, Mask left right plain (replace matched))
    (shown : ∀ cell ∈ word, cell.mark.isSome = true)
    (isInfix : word <:+: conceal find replace cells) : word <:+: cells := by
  rcases infix_of_infix_conceal (apart_of_shown replaced shown) isInfix with inside | ⟨_, _, put⟩
  · exact inside
  · cases word with
    | nil => exact List.nil_infix
    | cons cell word =>
        have hidden := (mem_stamp (put.subset List.mem_cons_self)).1
        have isShown := shown cell List.mem_cons_self
        rw [hidden] at isShown
        contradiction

/-- A later rewriting makes no match among shown items. -/
theorem Clear.conceal {other : List α → Nat} (clear : Clear other cells)
    (replaced : ∀ matched, Mask left right plain (replace matched)) :
    Clear other (conceal find replace cells) :=
  fun word isInfix shown => clear word (shown_part_of_shown replaced shown isInfix) shown

/-- **A rewriting leaves no match among shown items.** -/
theorem clear_conceal (empty : find [] = 0)
    (steady : ∀ input more, find input ≠ 0 → find (input ++ more) ≠ 0)
    (replaced : ∀ matched, Mask left right plain (replace matched)) :
    Clear find (Matching.conceal find replace cells) := by
  intro word isInfix shown
  induction cells using scan_induction (onItems find) with
  | nil =>
      rw [conceal, rewriteCells_nil, List.infix_nil] at isInfix
      rw [isInfix]
      exact empty
  | keep first rest nothing inductionHypothesis =>
      have isZero : find (items (first :: rest)) = 0 := nothing
      rw [Matching.conceal, rewriteCells_keep nothing] at isInfix
      rcases List.infix_cons_iff.mp isInfix with isPrefix | later
      · cases word with
        | nil => exact empty
        | cons cell word =>
            obtain ⟨rfl, behind⟩ := List.cons_prefix_cons.mp isPrefix
            have shownRest : ∀ other ∈ word, other.mark.isSome = true := fun other member =>
              shown other (List.mem_cons_of_mem _ member)
            have isPrefix : word <+: Matching.conceal find replace rest := behind
            obtain ⟨more, rfl⟩ := prefix_of_prefix_conceal
              (fun matched => by
                obtain ⟨body, isCons⟩ := (replaced matched).exists_cons
                refine ⟨_, _, by rw [isCons, stamp_cons], fun inside => ?_⟩
                have isShown := shownRest _ inside
                contradiction) isPrefix
            by_contra found
            apply steady _ (items more) found
            rwa [← items_append]
      · exact inductionHypothesis later
  | hit first rest count found inductionHypothesis =>
      rw [Matching.conceal, rewriteCells_hit found] at isInfix
      obtain ⟨body, isConcat⟩ := (replaced (items (first :: rest.take count))).exists_concat
      rcases List.infix_append_iff_ne_nil.mp isInfix with put | later | across
      · cases word with
        | nil => exact empty
        | cons cell word =>
            have isShown := shown cell List.mem_cons_self
            rw [(mem_stamp (put.subset List.mem_cons_self)).1] at isShown
            contradiction
      · exact inductionHypothesis later
      · obtain ⟨front, back, frontNonempty, _, rfl, isSuffix, _⟩ := across
        obtain ⟨cell, inside⟩ := List.exists_mem_of_ne_nil _ frontNonempty
        have isShown := shown cell (List.mem_append_left _ inside)
        rw [(mem_stamp (isSuffix.subset inside)).1] at isShown
        contradiction

/-- In a text without matches among shown items, what is found is hidden. -/
theorem Clear.hidden_of_mem_hits (clear : Clear find cells) (matcher : Matcher find)
    (unmixed : Unmixed find cells) {matched : List (Cell α (Option Nat))}
    (isHit : matched ∈ hits (onItems find) cells) : ∀ cell ∈ matched, cell.mark = none := by
  intro cell member
  by_contra isShown
  rw [← ne_eq, ← Option.isSome_iff_ne_none] at isShown
  have shown : ∀ other ∈ matched, other.mark.isSome = true := fun other inside => by
    rw [unmixed matched isHit other inside cell member, isShown]
  obtain ⟨nonempty, front, back, rfl, length⟩ := of_mem_hits_onItems matcher.bounded isHit
  have nothing := clear matched (List.infix_append' front matched back) shown
  rw [items_append] at length
  have alone : find (items matched) = find (items matched ++ items back) :=
    matcher.front (by rw [length, length_items])
  rw [nothing, length] at alone
  exact nonempty (List.eq_nil_of_length_eq_zero alone.symm)

end Words

/-! ## Counting items -/

section Counting

variable [DecidableEq α] {find : List α → Nat} {replace : List α → List α}

/-- A rewriting takes the items of what it finds away, and adds those that it puts in. -/
theorem count_rewrite {item : α} {added : Nat}
    (puts : ∀ matched, (replace matched).count item = added)
    (input : List α) :
    (rewrite find replace input).count item + ((hits find input).map (List.count item)).sum =
      input.count item + (hits find input).length * added := by
  induction input using scan_induction find with
  | nil => simp [hits]
  | keep first rest nothing inductionHypothesis =>
      rw [rewrite_keep nothing, hits_keep nothing, List.count_cons, List.count_cons]
      omega
  | hit first rest count found inductionHypothesis =>
      have split : (first :: rest).count item =
          (first :: rest.take count).count item + (rest.drop count).count item := by
        rw [← List.count_append, List.cons_append, List.take_append_drop]
      rw [rewrite_hit found, hits_hit found, List.count_append, split, List.map_cons, List.sum_cons,
        puts, List.length_cons, Nat.succ_mul]
      omega

theorem sum_count_le {item : α} {bound : Nat} {found : List (List α)}
    (few : ∀ matched ∈ found, matched.count item ≤ bound) :
    (found.map (List.count item)).sum ≤ found.length * bound := by
  induction found with
  | nil => simp
  | cons matched found inductionHypothesis =>
      have first := few matched List.mem_cons_self
      have rest := inductionHypothesis fun other member => few other (List.mem_cons_of_mem _ member)
      rw [List.map_cons, List.sum_cons, List.length_cons, Nat.succ_mul]
      omega

theorem sum_count_pos {item : α} {found : List (List α)} (nonempty : found ≠ [])
    (some : ∀ matched ∈ found, item ∈ matched) : 0 < (found.map (List.count item)).sum := by
  obtain ⟨matched, found, rfl⟩ := List.exists_cons_of_ne_nil nonempty
  have first := List.count_pos_iff.mpr (some matched List.mem_cons_self)
  rw [List.map_cons, List.sum_cons]
  omega

end Counting

end ZkLlmGateway.Matching
