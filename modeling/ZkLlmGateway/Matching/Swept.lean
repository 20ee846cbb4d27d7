import ZkLlmGateway.Matching.Runs

/-!
# What a sweep takes from a masked text

Where every match is a whole run and begins at a shown item, a rewriting of a
masked text hides exactly the shown positions that a run from the beginning of a
match reaches.  Masks lie inside the runs, so a run goes on behind them.
-/

namespace ZkLlmGateway.Matching

universe u

variable {α : Type u}

/-- A match begins at the shown item of this position. -/
def Begins (find : List α → Nat) (cells : List (Cell α (Option Nat))) (start : Nat) : Prop :=
  ∃ front cell tail, cells = front ++ cell :: tail ∧ cell.mark = some start ∧
    find (items (cell :: tail)) ≠ 0

/-- What is shown from one position to another is plain. -/
def ShownRun (plain : α → Bool) (source : List α) (cells : List (Cell α (Option Nat)))
    (start stop : Nat) : Prop :=
  ∀ position item, start ≤ position → position ≤ stop → Kept cells position →
    source[position]? = some item → plain item = true

/-- A run from the beginning of a match reaches a position. -/
def Swept (plain : α → Bool) (find : List α → Nat) (source : List α)
    (cells : List (Cell α (Option Nat))) (position : Nat) : Prop :=
  ∃ start ≤ position, Begins find cells start ∧ ShownRun plain source cells start position

section Begins

variable {find : List α → Nat} {cell : Cell α (Option Nat)}
  {front back cells : List (Cell α (Option Nat))} {start : Nat}

theorem begins_cons : Begins find (cell :: cells) start ↔
    (cell.mark = some start ∧ find (items (cell :: cells)) ≠ 0) ∨ Begins find cells start := by
  constructor
  · rintro ⟨front, first, tail, whole, marked, found⟩
    cases front with
    | nil =>
        obtain ⟨rfl, rfl⟩ := List.cons.inj whole
        exact .inl ⟨marked, found⟩
    | cons other front =>
        obtain ⟨_, rfl⟩ := List.cons.inj whole
        exact .inr ⟨front, first, tail, rfl, marked, found⟩
  · rintro (⟨marked, found⟩ | ⟨front, first, tail, rfl, marked, found⟩)
    · exact ⟨[], cell, cells, rfl, marked, found⟩
    · exact ⟨cell :: front, first, tail, rfl, marked, found⟩

theorem Begins.append_left (front : List (Cell α (Option Nat))) (begins : Begins find back start) :
    Begins find (front ++ back) start := by
  induction front with
  | nil => exact begins
  | cons cell front inductionHypothesis => exact begins_cons.mpr (.inr inductionHypothesis)

theorem Begins.of_append (begins : Begins find (front ++ back) start) :
    Kept front start ∨ Begins find back start := by
  induction front with
  | nil => exact .inr begins
  | cons cell front inductionHypothesis =>
      rw [List.cons_append, begins_cons] at begins
      rw [kept_cons, or_assoc]
      exact begins.imp And.left inductionHypothesis

theorem Begins.kept (begins : Begins find cells start) : Kept cells start := by
  obtain ⟨front, cell, tail, rfl, marked, _⟩ := begins
  exact ⟨cell, by simp, marked⟩

end Begins

section Masked

variable {left right : α} {plain visible : α → Bool} {source : List α} {offset position : Nat}
  {cells front back : List (Cell α (Option Nat))} {cell : Cell α (Option Nat)}

/-- Masks of a narrower class. -/
theorem Masked.imp (masked : Masked left right plain source offset cells)
    (wider : ∀ item, plain item = true → visible item = true) :
    Masked left right visible source offset cells := by
  induction masked with
  | nil => exact .nil
  | keep shows _ inductionHypothesis => exact .keep shows inductionHypothesis
  | hide later isMask _ inductionHypothesis =>
      exact .hide later ⟨isMask.first, isMask.last, fun item member =>
        wider item (isMask.plain item member)⟩ inductionHypothesis

/-- Hidden items are plain, shown items are those of the source. -/
theorem Masked.of_mem (masked : Masked left right plain source offset cells)
    (member : cell ∈ cells) :
    (cell.mark = none → plain cell.item = true) ∧
      ∀ position, cell.mark = some position → source[position]? = some cell.item := by
  induction masked with
  | nil => contradiction
  | keep shows _ inductionHypothesis =>
      rcases List.mem_cons.mp member with rfl | later
      · refine ⟨nofun, fun position marked => ?_⟩
        rw [← Option.some.inj marked]
        exact shows
      · exact inductionHypothesis later
  | hide _ isMask _ inductionHypothesis =>
      rcases List.mem_append.mp member with inMask | later
      · obtain ⟨marked, inside⟩ := mem_stamp inMask
        refine ⟨fun _ => isMask.plain _ inside, fun position shown => ?_⟩
        rw [marked] at shown
        contradiction
      · exact inductionHypothesis later

/-- A masked text can be parted in front of a shown item, and at its end. -/
theorem Masked.part (masked : Masked left right plain source offset (front ++ back))
    (shown : ∀ cell ∈ back.head?, cell.mark ≠ none) :
    ∃ next, offset ≤ next ∧ Masked left right plain source next back ∧
      ∀ position, Kept front position → position < next := by
  generalize whole : front ++ back = target at masked
  induction masked generalizing front with
  | nil =>
      obtain ⟨rfl, rfl⟩ := List.append_eq_nil_iff.mp whole
      exact ⟨_, le_rfl, .nil, fun _ none => absurd none not_kept_nil⟩
  | @keep offset item cells shows rest inductionHypothesis =>
      cases front with
      | nil =>
          rw [List.nil_append] at whole
          exact ⟨offset, le_rfl, whole ▸ .keep shows rest, fun _ none => absurd none not_kept_nil⟩
      | cons first front =>
          obtain ⟨rfl, split⟩ := List.cons.inj whole
          obtain ⟨next, later, masked, before⟩ := inductionHypothesis split
          refine ⟨next, by omega, masked, fun position kept => ?_⟩
          rcases kept_cons.mp kept with here | inFront
          · have same : offset = position := Option.some.inj here
            omega
          · exact before position inFront
  | @hide offset next mask cells later isMask rest inductionHypothesis =>
      rcases List.append_eq_append_iff.mp whole with
        ⟨between, isMaskCells, rfl⟩ | ⟨between, rfl, split⟩
      · cases between with
        | nil =>
            rw [List.append_nil] at isMaskCells
            refine ⟨next, later.le, rest, fun position kept => ?_⟩
            rw [← isMaskCells] at kept
            exact absurd kept (not_kept_stamp _)
        | cons first between =>
            have inMask : first ∈ stamp none mask := by
              rw [isMaskCells]
              exact List.mem_append_right _ List.mem_cons_self
            exact absurd (mem_stamp inMask).1 (shown first rfl)
      · obtain ⟨after, behind, masked, before⟩ := inductionHypothesis split.symm
        refine ⟨after, by omega, masked, fun position kept => ?_⟩
        exact before position ((kept_append.mp kept).resolve_left (not_kept_stamp _))

/-- A shown item at the front has the position of the front. -/
theorem Masked.mark_eq (masked : Masked left right plain source offset (cell :: cells))
    (shown : cell.mark ≠ none) : cell.mark = some offset := by
  generalize whole : cell :: cells = target at masked
  cases masked with
  | nil => contradiction
  | keep =>
      obtain ⟨rfl, _⟩ := List.cons.inj whole
      rfl
  | hide _ isMask _ =>
      obtain ⟨body, rfl⟩ := isMask.exists_cons
      obtain ⟨rfl, _⟩ := List.cons.inj whole
      exact absurd rfl shown

/-- A position that is shown right away is that of the first item. -/
theorem Masked.mark_of_kept (masked : Masked left right plain source offset (cell :: cells))
    (kept : Kept (cell :: cells) offset) : cell.mark = some offset := by
  generalize whole : cell :: cells = target at masked kept
  cases masked with
  | nil => contradiction
  | keep =>
      obtain ⟨rfl, _⟩ := List.cons.inj whole
      rfl
  | hide later _ rest =>
      have behind := rest.le_of_kept ((kept_append.mp kept).resolve_left (not_kept_stamp _))
      omega

end Masked

/-! ## A sweep -/

section Sweeping

variable {left right : α} {plain visible : α → Bool} {source : List α} {offset position : Nat}
  {find : List α → Nat} {replace : List α → List α} {cells front back : List (Cell α (Option Nat))}

/-- A rewriting hides what its matches sweep over, and nothing else. -/
structure Sweeps (left right : α) (plain visible : α → Bool) (source : List α)
    (find : List α → Nat) (replace : List α → List α) (offset : Nat)
    (cells : List (Cell α (Option Nat))) : Prop where
  masked : Masked left right plain source offset (conceal find replace cells)
  kept : ∀ position, Kept (conceal find replace cells) position ↔
    Kept cells position ∧ ¬Swept visible find source cells position

/-- A position behind some shown items is swept from behind them. -/
theorem swept_append_iff {next : Nat} (before : ∀ position, Kept front position → position < next)
    (apart : ∀ start, Kept front start →
      Begins find (front ++ back) start → ¬ShownRun visible source (front ++ back) start position)
    (masked : Masked left right plain source next back) :
    Swept visible find source (front ++ back) position ↔
      Swept visible find source back position := by
  constructor
  · rintro ⟨start, early, begins, run⟩
    rcases begins.of_append with inFront | inBack
    · exact absurd run (apart start inFront begins)
    · exact ⟨start, early, inBack, fun other item after stop kept =>
        run other item after stop (kept_append.mpr (.inr kept))⟩
  · rintro ⟨start, early, begins, run⟩
    refine ⟨start, early, begins.append_left front, fun other item after stop kept => ?_⟩
    refine run other item after stop ((kept_append.mp kept).resolve_left fun inFront => ?_)
    have first := masked.le_of_kept begins.kept
    have last := before other inFront
    omega

/-- Nothing begins in a mask. -/
theorem conceal_stamp_clear (replace : List α → List α) (cells : List (Cell α (Option Nat)))
    (clear : ∀ item tail, plain item = true → find (item :: tail) = 0)
    {mask : List α} (isPlain : ∀ item ∈ mask, plain item = true) :
    conceal find replace (stamp none mask ++ cells) =
      stamp none mask ++ conceal find replace cells := by
  induction mask with
  | nil => rfl
  | cons item mask inductionHypothesis =>
      have nothing : find (items (⟨item, none⟩ :: (stamp none mask ++ cells))) = 0 :=
        clear item _ (isPlain item List.mem_cons_self)
      have rest := inductionHypothesis fun other member =>
        isPlain other (List.mem_cons_of_mem _ member)
      rw [stamp_cons, List.cons_append, conceal, rewriteCells_keep nothing, List.cons_append,
        ← conceal, rest]

/-- Runs are swept as wholes: the rest of the text begins with a shown item that is not plain. -/
theorem exists_sweep (masked : Masked left right plain source offset cells)
    (wider : ∀ item, plain item = true → visible item = true) (runs : Runs visible find)
    (found : find (items cells) ≠ 0) :
    ∃ hit back next, cells = hit ++ back ∧ hit.length = find (items cells) ∧
      (∀ cell ∈ hit, visible cell.item = true) ∧ Masked left right plain source next back ∧
      (∀ position, Kept hit position → position < next) ∧
      ∀ cell ∈ back.head?, cell.mark = some next ∧ visible cell.item = false := by
  have length := runs _ found
  generalize find (items cells) = count at length found
  have split : (items cells).takeWhile visible ++ (items cells).dropWhile visible = items cells :=
    List.takeWhile_append_dropWhile
  have isRun : items (cells.take count) = (items cells).takeWhile visible := by
    rw [items_take, ← split, length, List.take_left, split]
  have isRest : items (cells.drop count) = (items cells).dropWhile visible := by
    rw [items_drop, ← split, length, List.drop_left, split]
  have inside : count ≤ cells.length := by
    rw [length, ← length_items]
    exact (List.takeWhile_prefix visible).length_le
  have ends : ∀ cell ∈ (cells.drop count).head?, visible cell.item = false := by
    intro cell isHead
    have notVisible := List.head?_dropWhile_not visible (items cells)
    rw [← isRest, items, List.head?_map, Option.mem_def.mp isHead] at notVisible
    exact notVisible
  have shown : ∀ cell ∈ (cells.drop count).head?, cell.mark ≠ none := by
    intro cell isHead hidden
    have member := List.mem_of_mem_drop (List.mem_of_head? isHead)
    have isVisible := wider _ ((masked.of_mem member).1 hidden)
    rw [ends cell isHead] at isVisible
    contradiction
  rw [← List.take_append_drop count cells] at masked
  obtain ⟨next, _, rest, before⟩ := masked.part shown
  refine ⟨_, _, next, (List.take_append_drop count cells).symm, List.length_take_of_le inside,
    fun cell member => ?_, rest, before, fun cell isHead => ⟨?_, ends cell isHead⟩⟩
  · have inRun := List.mem_map_of_mem (f := Cell.item) member
    rw [← items, isRun] at inRun
    exact List.mem_takeWhile_imp inRun
  · obtain ⟨tail, isCons⟩ := List.head?_eq_some_iff.mp isHead
    rw [isCons] at rest
    exact rest.mark_eq (shown cell isHead)

/-- A shown item at which nothing begins. -/
theorem Sweeps.item {item : α} (shows : source[offset]? = some item)
    (rest : Masked left right plain source (offset + 1) cells)
    (nothing : find (items (⟨item, some offset⟩ :: cells)) = 0)
    (sweeps : Sweeps left right plain visible source find replace (offset + 1) cells) :
    Sweeps left right plain visible source find replace offset
      (⟨item, some offset⟩ :: cells) := by
  have equal : conceal find replace (⟨item, some offset⟩ :: cells) =
      ⟨item, some offset⟩ :: conceal find replace cells := rewriteCells_keep nothing
  have later : ∀ start, Begins find (⟨item, some offset⟩ :: cells) start →
      Begins find cells start ∧ offset < start := by
    intro start begins
    rcases begins_cons.mp begins with ⟨_, found⟩ | behind
    · exact absurd nothing found
    · exact ⟨behind, rest.le_of_kept behind.kept⟩
  have single : ∀ position, Kept [(⟨item, some offset⟩ : Cell α (Option Nat))] position →
      position = offset := by
    intro position kept
    rcases kept_cons.mp kept with here | none
    · exact (Option.some.inj here).symm
    · exact absurd none not_kept_nil
  refine ⟨equal ▸ .keep shows sweeps.masked, fun position => ?_⟩
  have same : Swept visible find source (⟨item, some offset⟩ :: cells) position ↔
      Swept visible find source cells position :=
    swept_append_iff (fun other kept => (single other kept).le.trans_lt (Nat.lt_succ_self offset))
      (fun start kept begins => absurd (later start begins).2 (by rw [single start kept]; omega))
      rest
  rw [equal, kept_cons, kept_cons, sweeps.kept, same]
  constructor
  · rintro (here | ⟨kept, notSwept⟩)
    · refine ⟨.inl here, ?_⟩
      rintro ⟨start, early, begins, _⟩
      have after := rest.le_of_kept begins.kept
      have isHere : offset = position := Option.some.inj here
      omega
    · exact ⟨.inr kept, notSwept⟩
  · rintro ⟨here | kept, notSwept⟩
    · exact .inl here
    · exact .inr ⟨kept, notSwept⟩

/-- A run that is swept as a whole. -/
theorem Sweeps.run {next : Nat} {item : α}
    (masked : Masked left right plain source offset (front ++ back))
    (first : ∃ tail, front = ⟨item, some offset⟩ :: tail)
    (length : front.length = find (items (front ++ back)))
    (plainFront : ∀ cell ∈ front, visible cell.item = true)
    (rest : Masked left right plain source next back)
    (before : ∀ position, Kept front position → position < next)
    (behind : ∀ cell ∈ back.head?, cell.mark = some next ∧ visible cell.item = false)
    (replaced : ∀ matched, Mask left right plain (replace matched))
    (sweeps : Sweeps left right plain visible source find replace next back) :
    Sweeps left right plain visible source find replace offset (front ++ back) := by
  obtain ⟨tail, rfl⟩ := first
  have begins : Begins find (⟨item, some offset⟩ :: tail ++ back) offset := by
    refine ⟨[], _, tail ++ back, rfl, rfl, ?_⟩
    rw [← List.cons_append, ← length]
    exact Nat.succ_ne_zero _
  have equal : conceal find replace (⟨item, some offset⟩ :: tail ++ back) =
      stamp none (replace (items (⟨item, some offset⟩ :: tail))) ++ conceal find replace back := by
    rw [List.cons_append, List.length_cons] at length
    rw [List.cons_append, conceal, rewriteCells_hit length.symm, List.take_left, List.drop_left,
      items_cons]
  have later : offset < next := before offset (kept_cons.mpr (.inl rfl))
  -- No run from the front gets behind the item at `next`.
  have apart : ∀ position, Kept back position → ∀ start,
      Kept (⟨item, some offset⟩ :: tail) start →
      Begins find (⟨item, some offset⟩ :: tail ++ back) start →
      ¬ShownRun visible source (⟨item, some offset⟩ :: tail ++ back) start position := by
    intro position kept start inFront _ run
    cases back with
    | nil => exact not_kept_nil kept
    | cons cell back =>
        obtain ⟨marked, hidden⟩ := behind cell rfl
        have keptNext : Kept (cell :: back) next := kept_cons.mpr (.inl marked)
        have shows := (rest.of_mem List.mem_cons_self).2 next marked
        have isVisible := run next cell.item (before start inFront).le (rest.le_of_kept kept)
          (kept_append.mpr (.inr keptNext)) shows
        rw [hidden] at isVisible
        contradiction
  refine ⟨equal ▸ .hide later (replaced _) sweeps.masked, fun position => ?_⟩
  rw [equal, kept_append, kept_append, sweeps.kept]
  constructor
  · rintro (none | ⟨kept, notSwept⟩)
    · exact absurd none (not_kept_stamp _)
    · refine ⟨.inr kept, ?_⟩
      rwa [swept_append_iff before (apart position kept) rest]
  · rintro ⟨inFront | kept, notSwept⟩
    · refine absurd ⟨offset, masked.le_of_kept (kept_append.mpr (.inl inFront)), begins, ?_⟩
        notSwept
      intro other shown after stop keptOther shows
      have early := before position inFront
      rcases kept_append.mp keptOther with ⟨cell, member, marked⟩ | inBack
      · have isShown := (masked.of_mem (List.mem_append_left back member)).2 other marked
        rw [isShown, Option.some.injEq] at shows
        rw [← shows]
        exact plainFront cell member
      · have late := rest.le_of_kept inBack
        omega
    · rw [swept_append_iff before (apart position kept) rest] at notSwept
      exact .inr ⟨kept, notSwept⟩

/-- **A sweep hides exactly what its runs reach.** -/
theorem Masked.sweeps (masked : Masked left right plain source offset cells)
    (wider : ∀ item, plain item = true → visible item = true) (runs : Runs visible find)
    (clear : ∀ item tail, plain item = true → find (item :: tail) = 0)
    (replaced : ∀ matched, Mask left right plain (replace matched)) :
    Sweeps left right plain visible source find replace offset cells := by
  induction size : cells.length using Nat.strong_induction_on generalizing offset cells with
  | _ size inductionHypothesis =>
      cases masked with
      | nil => exact ⟨.nil, fun position => by simp [conceal, rewriteCells]⟩
      | @hide _ next mask cells later isMask rest =>
          have longer : mask.length ≠ 0 := by
            obtain ⟨body, rfl⟩ := isMask.exists_cons
            exact Nat.succ_ne_zero _
          rw [List.length_append, length_stamp] at size
          have sweeps := inductionHypothesis cells.length (by omega) rest rfl
          have hiddenFront : ∀ position, ¬Kept (stamp none mask) position :=
            fun position => not_kept_stamp mask
          have equal := conceal_stamp_clear replace cells clear isMask.plain
          refine ⟨equal ▸ .hide later isMask sweeps.masked, fun position => ?_⟩
          rw [equal, kept_append, kept_append, sweeps.kept,
            swept_append_iff (fun position kept => absurd kept (hiddenFront position))
              (fun start kept => absurd kept (hiddenFront start)) rest]
          simp only [hiddenFront, false_or]
      | @keep _ item cells shows rest =>
          cases found : find (items (⟨item, some offset⟩ :: cells)) with
          | zero =>
              rw [List.length_cons] at size
              exact .item shows rest found (inductionHypothesis cells.length (by omega) rest rfl)
          | succ count =>
              have something : find (items (⟨item, some offset⟩ :: cells)) ≠ 0 := by
                rw [found]
                exact Nat.succ_ne_zero count
              obtain ⟨hit, back, next, whole, length, plainHit, masked, before, behind⟩ :=
                exists_sweep (.keep shows rest) wider runs something
              rw [whole] at size something length ⊢
              have nonempty : hit ≠ [] := by
                rintro rfl
                rw [← length] at something
                exact something rfl
              have positive := List.length_pos_iff.mpr nonempty
              rw [List.length_append] at size
              have first : ∃ tail, hit = ⟨item, some offset⟩ :: tail := by
                obtain ⟨cell, tail, rfl⟩ := List.exists_cons_of_ne_nil nonempty
                exact ⟨tail, by rw [(List.cons.inj whole).1]⟩
              exact .run (whole ▸ .keep shows rest) first length plainHit masked before behind
                replaced (inductionHypothesis back.length (by omega) masked rfl)

end Sweeping

/-! ## Matches beside a mask -/

section Edges

variable {left right : α} {plain : α → Bool} {source : List α} {offset : Nat}
  {first second : Cell α (Option Nat)} {front word back : List (Cell α (Option Nat))}

/-- Between a mask and a shown item lies a fence. -/
theorem Masked.fence_between
    (masked : Masked left right plain source offset (front ++ first :: second :: back))
    (differ : first.mark.isSome ≠ second.mark.isSome) :
    first.item = right ∨ second.item = left := by
  generalize whole : front ++ first :: second :: back = target at masked
  induction masked generalizing front with
  | nil => simp at whole
  | @keep offset item cells shows rest inductionHypothesis =>
      cases front with
      | nil =>
          obtain ⟨rfl, rfl⟩ := List.cons.inj whole
          refine .inr (rest.eq_left ?_)
          cases isMark : second.mark with
          | none => rfl
          | some position =>
              rw [isMark] at differ
              exact absurd rfl differ
      | cons other front =>
          obtain ⟨_, split⟩ := List.cons.inj whole
          exact inductionHypothesis split
  | @hide offset next mask cells later isMask rest inductionHypothesis =>
      rcases List.append_eq_append_iff.mp whole with
        ⟨between, isStamp, split⟩ | ⟨between, isStamp, split⟩
      · match between, split with
        | [], split =>
            exact inductionHypothesis (show [] ++ first :: second :: back = cells from split)
        | [_], split =>
            obtain ⟨rfl, _⟩ := List.cons.inj split
            have isLast := isMask.last
            rw [← items_stamp (none : Option Nat) mask, isStamp, items_append,
              List.getLast?_append] at isLast
            exact .inl (Option.some.inj isLast)
        | other :: another :: between, split =>
            obtain ⟨isFirst, split⟩ := List.cons.inj split
            obtain ⟨isSecond, _⟩ := List.cons.inj split
            have hidden : ∀ cell ∈ stamp (none : Option Nat) mask, cell.mark = none :=
              fun cell member => (mem_stamp member).1
            rw [isFirst, isSecond, hidden other (by rw [isStamp]; simp),
              hidden another (by rw [isStamp]; simp)] at differ
            exact absurd rfl differ
      · exact inductionHypothesis split.symm

/-- A word with no fence inside lies in a mask or among the shown items. -/
theorem Masked.same_of_edges
    (masked : Masked left right plain source offset (front ++ (word ++ back)))
    (freeLeft : left ∉ (items word).tail) (freeRight : right ∉ (items word).dropLast) :
    ∀ first ∈ word, ∀ second ∈ word, first.mark.isSome = second.mark.isSome := by
  have alike : ∀ cell rest, word = cell :: rest → ∀ other ∈ word,
      other.mark.isSome = cell.mark.isSome := by
    intro cell rest isCons
    subst isCons
    induction rest generalizing front cell with
    | nil =>
        intro other member
        rw [List.mem_singleton.mp member]
    | cons next rest inductionHypothesis =>
        have same : cell.mark.isSome = next.mark.isSome := by
          by_contra differ
          rcases masked.fence_between differ with isRight | isLeft
          · exact freeRight (by rw [← isRight]; simp [items])
          · exact freeLeft (by rw [← isLeft]; simp [items])
        have shifted : Masked left right plain source offset
            ((front ++ [cell]) ++ (next :: rest ++ back)) := by
          rwa [List.append_assoc]
        have later := inductionHypothesis next shifted
          (fun inside => freeLeft (List.mem_of_mem_tail inside))
          (fun inside => freeRight (by
            rw [items_cons, items_cons, List.dropLast_cons_cons, ← items_cons]
            exact List.mem_cons_of_mem _ inside))
        intro other member
        rcases List.mem_cons.mp member with rfl | behind
        · rfl
        · rw [later other behind, same]
  intro first inFirst second inSecond
  cases word with
  | nil => contradiction
  | cons cell rest => rw [alike cell rest rfl first inFirst, alike cell rest rfl second inSecond]

end Edges

/-! ## Words in a masked text -/

section Words

variable {left right : α} {plain visible : α → Bool} {source word : List α} {start : Nat}
  {cells : List (Cell α (Option Nat))}

/-- A word of the source stands there, all of it shown, in front of a plain item or a mask. -/
structure Stands (visible : α → Bool) (source word : List α) (start : Nat)
    (kept : Nat → Prop) : Prop where
  spelled : word <+: source.drop start
  shown : ∀ position, start ≤ position → position < start + word.length → kept position
  inside : start + word.length < source.length
  followed : ∀ item, kept (start + word.length) → source[start + word.length]? = some item →
    visible item = true

theorem stands_congr {kept other : Nat → Prop}
    (same : ∀ position, start ≤ position → (kept position ↔ other position)) :
    Stands visible source word start kept ↔ Stands visible source word start other := by
  constructor
  · rintro ⟨spelled, shown, inside, followed⟩
    exact ⟨spelled, fun position after before => (same position after).mp
      (shown position after before), inside, fun item kept =>
        followed item ((same _ (Nat.le_add_right _ _)).mpr kept)⟩
  · rintro ⟨spelled, shown, inside, followed⟩
    exact ⟨spelled, fun position after before => (same position after).mpr
      (shown position after before), inside, fun item kept =>
        followed item ((same _ (Nat.le_add_right _ _)).mp kept)⟩

theorem kept_cons_of_lt {item : α} {position : Nat} (later : start < position) :
    Kept (⟨item, some start⟩ :: cells) position ↔ Kept cells position := by
  rw [kept_cons, or_iff_right]
  intro here
  have same : start = position := Option.some.inj here
  omega

theorem Masked.followed_iff (masked : Masked left right plain source start cells)
    (wider : ∀ item, plain item = true → visible item = true) :
    (∃ next rest, items cells = next :: rest ∧ visible next = true) ↔
      start < source.length ∧
        ∀ item, Kept cells start → source[start]? = some item → visible item = true := by
  cases masked with
  | nil =>
      constructor
      · rintro ⟨next, rest, impossible, _⟩
        contradiction
      · rintro ⟨impossible, _⟩
        exact absurd impossible (Nat.lt_irrefl _)
  | @keep _ item cells shows rest =>
      obtain ⟨inside, _⟩ := List.getElem?_eq_some_iff.mp shows
      rw [items_cons, shows]
      constructor
      · rintro ⟨next, rest, equal, isVisible⟩
        obtain ⟨rfl, _⟩ := List.cons.inj equal
        refine ⟨inside, fun other _ same => ?_⟩
        rwa [← Option.some.inj same]
      · rintro ⟨_, shown⟩
        exact ⟨item, items cells, rfl, shown item (kept_cons.mpr (.inl rfl)) rfl⟩
  | @hide _ next mask cells later isMask rest =>
      obtain ⟨body, rfl⟩ := isMask.exists_cons
      refine ⟨fun _ => ⟨later.trans_le rest.offset_le, fun item kept _ => ?_⟩, fun _ => ?_⟩
      · have behind := rest.le_of_kept ((kept_append.mp kept).resolve_left (not_kept_stamp _))
        omega
      · rw [items_append, items_stamp]
        exact ⟨left, _, rfl, wider left (isMask.plain left List.mem_cons_self)⟩

/-- **A word that no mask holds** is found where it stands. -/
theorem Masked.word_iff (masked : Masked left right plain source start cells)
    (wider : ∀ item, plain item = true → visible item = true)
    (foreign : ∀ item ∈ word, plain item = false) :
    (∃ next rest, items cells = word ++ next :: rest ∧ visible next = true) ↔
      Stands visible source word start (Kept cells) := by
  induction word generalizing start cells with
  | nil =>
      rw [show (∃ next rest, items cells = [] ++ next :: rest ∧ visible next = true) ↔ _
        from masked.followed_iff wider]
      constructor
      · rintro ⟨inside, followed⟩
        exact ⟨List.nil_prefix, fun position after before => absurd before (not_lt.mpr after),
          inside, followed⟩
      · rintro ⟨_, _, inside, followed⟩
        exact ⟨inside, followed⟩
  | cons first word inductionHypothesis =>
      have isForeign := foreign first List.mem_cons_self
      cases masked with
      | nil =>
          constructor
          · rintro ⟨next, rest, impossible, _⟩
            contradiction
          · rintro ⟨_, shown, _, _⟩
            exact absurd (shown source.length le_rfl (by simp)) not_kept_nil
      | @hide _ next mask cells later isMask rest =>
          constructor
          · rintro ⟨other, tail, equal, _⟩
            obtain ⟨body, rfl⟩ := isMask.exists_cons
            rw [items_append, items_stamp] at equal
            have isLeft := isMask.plain left List.mem_cons_self
            rw [(List.cons.inj equal).1, isForeign] at isLeft
            contradiction
          · rintro ⟨_, shown, _, _⟩
            have kept := shown start le_rfl (by simp)
            have behind := rest.le_of_kept ((kept_append.mp kept).resolve_left (not_kept_stamp _))
            omega
      | @keep _ item cells shows rest =>
          have behind := inductionHypothesis rest fun other member =>
            foreign other (List.mem_cons_of_mem _ member)
          obtain ⟨bound, isItem⟩ := List.getElem?_eq_some_iff.mp shows
          have shift : start + (first :: word).length = start + 1 + word.length := by
            rw [List.length_cons]
            omega
          have dropped : source.drop start = item :: source.drop (start + 1) := by
            rw [List.drop_eq_getElem_cons bound, isItem]
          constructor
          · rintro ⟨next, tail, equal, isVisible⟩
            rw [items_cons, List.cons_append, List.cons.injEq] at equal
            obtain ⟨rfl, equal⟩ := equal
            obtain ⟨spelled, shown, inside, followed⟩ :=
              behind.mp ⟨next, tail, equal, isVisible⟩
            refine ⟨dropped ▸ (List.prefix_cons_inj item).mpr spelled,
              fun position after before => ?_,
              shift ▸ inside, fun other kept => ?_⟩
            · rcases Nat.eq_or_lt_of_le after with rfl | later
              · exact kept_cons.mpr (.inl rfl)
              · exact (kept_cons_of_lt later).mpr (shown position later (shift ▸ before))
            · rw [shift] at kept ⊢
              exact followed other ((kept_cons_of_lt (by omega)).mp kept)
          · rintro ⟨spelled, shown, inside, followed⟩
            rw [dropped, List.cons_prefix_cons] at spelled
            obtain ⟨rfl, spelled⟩ := spelled
            obtain ⟨next, tail, equal, isVisible⟩ := behind.mpr
              ⟨spelled, fun position after before => (kept_cons_of_lt (by omega)).mp
                (shown position (by omega) (by omega)), shift ▸ inside, fun other kept => by
                  rw [← shift] at kept ⊢
                  exact followed other ((kept_cons_of_lt (by omega)).mpr kept)⟩
            exact ⟨next, tail, by rw [items_cons, equal]; rfl, isVisible⟩

end Words

end ZkLlmGateway.Matching
