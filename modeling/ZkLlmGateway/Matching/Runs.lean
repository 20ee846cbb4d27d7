import ZkLlmGateway.Matching.Masked

/-!
# Matches that end with a run

Where every match runs to the end of the plain items at its place, it does not
matter what a rewriting did to the run behind the beginning of the match: a
masked run is still taken to its end.
-/

namespace ZkLlmGateway.Matching

universe u

variable {α : Type u}

/-- Every match is the whole run of plain items at its place. -/
def Runs (plain : α → Bool) (find : List α → Nat) : Prop :=
  ∀ input, find input ≠ 0 → find input = (input.takeWhile plain).length

theorem length_takeWhile_append {plain : α → Bool} {front : List α} (back : List α)
    (all : ∀ item ∈ front, plain item = true) :
    ((front ++ back).takeWhile plain).length = front.length + (back.takeWhile plain).length := by
  rw [List.takeWhile_append_of_pos all, List.length_append]

/-- Items within the length of a run are plain. -/
theorem plain_of_le_takeWhile {plain : α → Bool} {front : List α} (back : List α)
    (long : front.length ≤ ((front ++ back).takeWhile plain).length) :
    ∀ item ∈ front, plain item = true := by
  intro item inside
  have isPrefix : front <+: (front ++ back).takeWhile plain :=
    List.prefix_of_prefix_length_le (List.prefix_append front back)
      (List.takeWhile_prefix plain) long
  exact List.mem_takeWhile_imp (isPrefix.subset inside)

/-- A greedy piece first tries to reach as far as it can. -/
theorem Piece.head_counts {piece : Piece α} (greedy : piece.greedy = true) {input : List α}
    {count : Nat} (tried : count ∈ (piece.counts input).head?) : count = piece.reach input := by
  have bounds := Piece.mem_counts.mp (List.mem_of_head? tried)
  have enough : piece.least ≤ piece.reach input := bounds.1.trans bounds.2
  rw [Piece.counts, greedy, if_pos rfl, List.range_succ, List.filter_append] at tried
  simp [enough] at tried
  exact tried.symm

/-- A pattern of plain classes that ends with an unbounded greedy repetition of
plain items runs. -/
theorem runs_find {plain : α → Bool} {pieces : List (Piece α)} (least : Nat)
    (within : ∀ piece ∈ pieces, ∀ item, piece.mem item = true → plain item = true) :
    Runs plain (find (pieces ++ [⟨plain, least, none, true⟩])) := by
  have first : ∀ input, ∀ length ∈ (lengths (pieces ++ [⟨plain, least, none, true⟩]) input).head?,
      length = (input.takeWhile plain).length := by
    induction pieces with
    | nil =>
        intro input length tried
        have only : lengths ([] ++ [⟨plain, least, none, true⟩]) input =
            Piece.counts ⟨plain, least, none, true⟩ input := by
          simp [lengths]
        rw [only] at tried
        exact Piece.head_counts rfl tried
    | cons piece pieces inductionHypothesis =>
        intro input length tried
        rw [List.cons_append, lengths, List.head?_flatMap, Option.mem_def] at tried
        obtain ⟨count, counted, later⟩ := List.exists_of_findSome?_eq_some tried
        rw [List.head?_map, Option.map_eq_some_iff] at later
        obtain ⟨remaining, triedLater, rfl⟩ := later
        have reached := (Piece.mem_counts.mp counted).2
        have plainFront : ∀ item ∈ input.take count, plain item = true := fun item taken =>
          within piece List.mem_cons_self item
            (Piece.mem_of_lt_reach (List.take_subset_take_left input reached taken))
        have behind := inductionHypothesis
          (fun other member => within other (List.mem_cons_of_mem _ member)) _ _ triedLater
        have whole : (input.takeWhile plain).length =
            count + ((input.drop count).takeWhile plain).length := by
          have split := length_takeWhile_append (input.drop count) plainFront
          rwa [List.take_append_drop, List.length_take,
            min_eq_left (reached.trans (piece.reach_le input))] at split
        rw [behind, whole]
  intro input found
  unfold find at found ⊢
  cases tried : (lengths (pieces ++ [⟨plain, least, none, true⟩]) input).head? with
  | none =>
      rw [tried] at found
      contradiction
  | some length => exact first input length tried

section Covering

variable {plain : α → Bool} {find : List α → Nat} {replace : List α → List α}
  {front run back cells : List (Cell α (Option Nat))} {cell : Cell α (Option Nat)}

/-- What a rewriting leaves was there, or is put in. -/
theorem of_mem_conceal (member : cell ∈ conceal find replace cells) :
    cell ∈ cells ∨ cell.mark = none := by
  induction cells using scan_induction (onItems find) with
  | nil => exact .inl member
  | keep first rest nothing inductionHypothesis =>
      rw [conceal, rewriteCells_keep nothing] at member
      rcases List.mem_cons.mp member with rfl | later
      · exact .inl List.mem_cons_self
      · exact (inductionHypothesis later).imp_left (List.mem_cons_of_mem _)
  | hit first rest count found inductionHypothesis =>
      rw [conceal, rewriteCells_hit found] at member
      rcases List.mem_append.mp member with put | later
      · exact .inr (mem_stamp put).1
      · exact (inductionHypothesis later).imp_left fun inside =>
          List.mem_cons_of_mem _ (List.mem_of_mem_drop inside)

/-- What a match at the front takes is gone. -/
theorem of_mem_conceal_front (nonempty : front ≠ [])
    (taken : front.length ≤ find (items (front ++ back)))
    (member : cell ∈ conceal find replace (front ++ back)) : cell ∈ back ∨ cell.mark = none := by
  obtain ⟨first, front, rfl⟩ := List.exists_cons_of_ne_nil nonempty
  rw [List.cons_append, List.length_cons] at taken
  obtain ⟨count, found⟩ := Nat.exists_eq_add_one_of_ne_zero (Nat.ne_zero_of_lt taken)
  rw [List.cons_append, conceal, rewriteCells_hit found] at member
  rcases List.mem_append.mp member with put | later
  · exact .inr (mem_stamp put).1
  · rw [List.drop_append, List.drop_of_length_le (by omega), List.nil_append] at later
    exact (of_mem_conceal later).imp_left List.mem_of_mem_drop

/-- A run at whose beginning something is found is taken as a whole. -/
theorem of_mem_conceal_run (runs : Runs plain find)
    (plainRun : ∀ item ∈ items run, plain item = true)
    (nonempty : run ≠ []) (found : find (items (run ++ back)) ≠ 0)
    (member : cell ∈ conceal find replace (front ++ (run ++ back))) :
    cell ∈ front ∨ cell ∈ back ∨ cell.mark = none := by
  -- A match that reaches into the run takes all of it.
  have reaches : ∀ before, (∀ item ∈ items before, plain item = true) →
      find (items (before ++ (run ++ back))) ≠ 0 →
      (before ++ run).length ≤ find (items ((before ++ run) ++ back)) := by
    intro before plainBefore isFound
    rw [← List.append_assoc] at isFound
    rw [runs _ isFound, items_append, length_takeWhile_append, length_items]
    · exact Nat.le_add_right _ _
    · intro item inside
      rw [items_append] at inside
      exact (List.mem_append.mp inside).elim (plainBefore item) (plainRun item)
  induction size : front.length using Nat.strong_induction_on generalizing front with
  | _ size inductionHypothesis =>
      cases front with
      | nil => exact .inr (of_mem_conceal_front nonempty (reaches [] (by simp) found) member)
      | cons first front =>
          rw [List.length_cons] at size
          cases isFound : find (items (first :: (front ++ (run ++ back)))) with
          | zero =>
              rw [List.cons_append, conceal, rewriteCells_keep isFound] at member
              rcases List.mem_cons.mp member with rfl | later
              · exact .inl List.mem_cons_self
              · exact (inductionHypothesis front.length (by omega) later rfl).imp_left
                  (List.mem_cons_of_mem _)
          | succ count =>
              by_cases inFront : count ≤ front.length
              · rw [List.cons_append, conceal, rewriteCells_hit isFound] at member
                rcases List.mem_append.mp member with put | later
                · exact .inr (.inr (mem_stamp put).1)
                rw [List.drop_append_of_le_length inFront] at later
                have shorter : (front.drop count).length ≤ front.length := by simp
                exact (inductionHypothesis _ (by omega) later rfl).imp_left fun inside =>
                  List.mem_cons_of_mem _ (List.mem_of_mem_drop inside)
              · rw [← List.cons_append] at isFound
                have something : find (items (first :: front ++ (run ++ back))) ≠ 0 := by
                  rw [isFound]
                  exact Nat.succ_ne_zero count
                have ends := runs _ something
                rw [isFound, items_append] at ends
                have plainFront : ∀ item ∈ items (first :: front), plain item = true := by
                  apply plain_of_le_takeWhile (items (run ++ back))
                  rw [← ends, length_items, List.length_cons]
                  omega
                rw [← List.append_assoc] at member
                exact .inr (of_mem_conceal_front (by simp)
                  (reaches (first :: front) plainFront something) member)

end Covering

/-! ## Runs of a masked text -/

section MaskedRuns

variable {left right : α} {plain : α → Bool} {source : List α} {offset start stop : Nat}
  {find : List α → Nat} {replace : List α → List α} {cells : List (Cell α (Option Nat))}

/-- A masked text can be parted in front of a shown item. -/
theorem Masked.split_at (masked : Masked left right plain source offset cells)
    (kept : Kept cells start) :
    ∃ front back, cells = front ++ back ∧ Masked left right plain source start back ∧
      Kept back start ∧ ∀ position, Kept front position → position < start := by
  induction masked with
  | nil => exact absurd kept not_kept_nil
  | @keep offset item cells shows rest inductionHypothesis =>
      rw [kept_cons] at kept
      rcases kept with first | later
      · obtain rfl := Option.some.inj first
        exact ⟨[], _, rfl, .keep shows rest, kept_cons.mpr (.inl rfl), fun _ none =>
          absurd none not_kept_nil⟩
      · obtain ⟨front, back, rfl, masked, keptBack, before⟩ := inductionHypothesis later
        have behind := rest.le_of_kept later
        refine ⟨⟨item, some offset⟩ :: front, back, rfl, masked, keptBack,
          fun position inFront => ?_⟩
        rcases kept_cons.mp inFront with here | inside
        · have same : offset = position := Option.some.inj here
          omega
        · exact before position inside
  | @hide offset next mask cells later isMask rest inductionHypothesis =>
      obtain ⟨front, back, rfl, masked, keptBack, before⟩ :=
        inductionHypothesis ((kept_append.mp kept).resolve_left (not_kept_stamp _))
      refine ⟨stamp none mask ++ front, back, (List.append_assoc _ _ _).symm, masked, keptBack,
        fun position inFront => ?_⟩
      exact before position ((kept_append.mp inFront).resolve_left (not_kept_stamp _))

/-- Masks and plain items make a plain run. -/
theorem Masked.exists_run (masked : Masked left right plain source offset cells)
    (plainSource : ∀ position item, offset ≤ position → position < stop →
      source[position]? = some item → plain item = true) :
    ∃ run back, cells = run ++ back ∧ (∀ item ∈ items run, plain item = true) ∧
      ∀ position, Kept back position → stop ≤ position := by
  induction masked with
  | nil => exact ⟨[], [], rfl, by simp, fun _ none => absurd none not_kept_nil⟩
  | @keep offset item cells shows rest inductionHypothesis =>
      by_cases ended : stop ≤ offset
      · exact ⟨[], _, rfl, by simp, fun position kept =>
          ended.trans ((Masked.keep shows rest).le_of_kept kept)⟩
      · obtain ⟨run, back, rfl, plainRun, behind⟩ := inductionHypothesis
          fun position item after => plainSource position item (by omega)
        refine ⟨⟨item, some offset⟩ :: run, back, rfl, fun other inside => ?_, behind⟩
        rcases List.mem_cons.mp inside with rfl | later
        · exact plainSource offset _ le_rfl (by omega) shows
        · exact plainRun other later
  | @hide offset next mask cells later isMask rest inductionHypothesis =>
      obtain ⟨run, back, rfl, plainRun, behind⟩ := inductionHypothesis
        fun position item after => plainSource position item (by omega)
      refine ⟨stamp none mask ++ run, back, (List.append_assoc _ _ _).symm, fun item inside => ?_,
        behind⟩
      rw [items_append, items_stamp] at inside
      exact (List.mem_append.mp inside).elim (isMask.plain item) (plainRun item)

theorem Masked.plain_of_hidden {cell : Cell α (Option Nat)}
    (masked : Masked left right plain source offset (cell :: cells)) (hidden : cell.mark = none) :
    plain cell.item = true := by
  generalize whole : cell :: cells = target at masked
  cases masked with
  | nil => contradiction
  | keep =>
      obtain ⟨rfl, _⟩ := List.cons.inj whole
      contradiction
  | hide _ isMask _ =>
      obtain ⟨body, rfl⟩ := isMask.exists_cons
      obtain ⟨rfl, _⟩ := List.cons.inj whole
      exact isMask.plain _ List.mem_cons_self

/-- After shown items comes an item of the source or a mask. -/
theorem Masked.exists_next {count : Nat} (masked : Masked left right plain source offset cells)
    (shown : ∀ position, offset ≤ position → position < offset + count → Kept cells position)
    (inside : offset + count < source.length)
    (plainNext : ∀ item, source[offset + count]? = some item → plain item = true) :
    ∃ next rest, items cells = (source.drop offset).take count ++ next :: rest ∧
      plain next = true := by
  obtain ⟨front, back, rfl, rest, agrees, hidden, absent⟩ := masked.exists_front
  have long : count ≤ front.length := by
    by_contra short
    rcases kept_append.mp (shown (offset + front.length) (by omega) (by omega)) with inFront
      | inBack
    · have before := (kept_numbered_iff.mp inFront).2
      omega
    · exact absent inBack
  rw [agrees, List.take_append_of_le_length long, items_append, items_numbered]
  rcases Nat.eq_or_lt_of_le long with rfl | longer
  · rw [List.take_length]
    cases back with
    | nil =>
        have ended := rest.of_nil
        omega
    | cons cell back =>
        exact ⟨cell.item, items back, rfl, rest.plain_of_hidden (hidden cell rfl)⟩
  · have split : front = front.take count ++ front[count] :: front.drop (count + 1) := by
      rw [← List.drop_eq_getElem_cons longer, List.take_append_drop]
    refine ⟨front[count], front.drop (count + 1) ++ items back, ?_, plainNext _ ?_⟩
    · rw [← List.cons_append, ← List.append_assoc, ← split]
    · rw [← List.getElem?_drop, agrees, List.getElem?_append_left longer,
        List.getElem?_eq_getElem longer]

/-- **A run that begins with shown items is hidden** as a whole. -/
theorem Masked.hidden_run (masked : Masked left right plain source offset cells)
    (runs : Runs plain find) (kept : Kept cells start)
    (found : ∀ back, Masked left right plain source start back →
      (∀ position, start ≤ position → Kept cells position → Kept back position) →
      find (items back) ≠ 0)
    (plainSource : ∀ position item, start ≤ position → position < stop →
      source[position]? = some item → plain item = true) {position : Nat}
    (after : start ≤ position) (before : position < stop) :
    ¬Kept (conceal find replace cells) position := by
  rintro ⟨cell, member, mark⟩
  obtain ⟨front, tail, rfl, maskedTail, keptTail, beforeStart⟩ := masked.split_at kept
  have isFound : find (items tail) ≠ 0 := by
    refine found tail maskedTail fun position behind keptHere => ?_
    refine (kept_append.mp keptHere).resolve_left fun inFront => ?_
    have early := beforeStart position inFront
    omega
  obtain ⟨run, back, rfl, plainRun, behind⟩ := maskedTail.exists_run plainSource
  have nonempty : run ≠ [] := by
    rintro rfl
    have late := behind start keptTail
    omega
  rcases of_mem_conceal_run runs plainRun nonempty isFound member with inFront | inBack | none
  · have early := beforeStart position ⟨cell, inFront, mark⟩
    omega
  · have late := behind position ⟨cell, inBack, mark⟩
    omega
  · rw [none] at mark
    contradiction

end MaskedRuns

end ZkLlmGateway.Matching
