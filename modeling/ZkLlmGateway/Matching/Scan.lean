import ZkLlmGateway.Matching.Pattern

/-!
# Scanning and rewriting

A scan goes through an input from the left: where the matcher finds something
it takes a segment and goes on behind it, elsewhere it keeps one item.
Rewriting replaces every segment that was found.  Marked items carry along
where they come from; marks do not influence what is found.
-/

namespace ZkLlmGateway.Matching

universe u v

variable {α : Type u} {μ : Type v}

/-- A part of a scanned input. -/
inductive Segment (α : Type u)
  | keep (item : α)
  | hit (items : List α)

def scan (find : List α → Nat) : Nat → List α → List (Segment α)
  | 0, _ => []
  | _ + 1, [] => []
  | fuel + 1, item :: rest =>
      match find (item :: rest) with
      | 0 => .keep item :: scan find fuel rest
      | count + 1 => .hit (item :: rest.take count) :: scan find fuel (rest.drop count)

/-- The segments of an input, from the left. -/
def segments (find : List α → Nat) (input : List α) : List (Segment α) :=
  scan find input.length input

section Segments

variable {find : List α → Nat}

theorem scan_of_length_le {fuel : Nat} {input : List α} (enough : input.length ≤ fuel) :
    scan find fuel input = segments find input := by
  have stable : ∀ fuel other : Nat, ∀ input : List α, input.length ≤ fuel →
      input.length ≤ other → scan find fuel input = scan find other input := by
    intro fuel
    induction fuel with
    | zero =>
        intro other input first _
        obtain rfl := List.eq_nil_of_length_eq_zero (Nat.le_zero.mp first)
        cases other <;> rfl
    | succ fuel inductionHypothesis =>
        intro other input first second
        cases input with
        | nil => cases other <;> rfl
        | cons item rest =>
            cases other with
            | zero => contradiction
            | succ other =>
                simp only [List.length_cons] at first second
                unfold scan
                split
                next => rw [inductionHypothesis other rest (by omega) (by omega)]
                next count _ =>
                  have shorter := (List.drop_sublist count rest).length_le
                  rw [inductionHypothesis other (rest.drop count) (by omega) (by omega)]
  exact stable fuel input.length input enough le_rfl

@[simp]
theorem segments_nil : segments find [] = [] :=
  rfl

theorem segments_keep {item : α} {rest : List α} (nothing : find (item :: rest) = 0) :
    segments find (item :: rest) = .keep item :: segments find rest := by
  rw [segments, List.length_cons, scan, nothing]
  rfl

theorem segments_hit {item : α} {rest : List α} {count : Nat}
    (found : find (item :: rest) = count + 1) :
    segments find (item :: rest) =
      .hit (item :: rest.take count) :: segments find (rest.drop count) := by
  rw [segments, List.length_cons, scan, found]
  simp only
  rw [scan_of_length_le (by simp)]

/-- Induction along a scan. -/
theorem scan_induction (find : List α → Nat) {motive : List α → Prop} (nil : motive [])
    (keep : ∀ item rest, find (item :: rest) = 0 → motive rest → motive (item :: rest))
    (hit : ∀ item rest count, find (item :: rest) = count + 1 → motive (rest.drop count) →
      motive (item :: rest)) (input : List α) : motive input := by
  induction bound : input.length using Nat.strong_induction_on generalizing input with
  | _ size inductionHypothesis =>
      cases input with
      | nil => exact nil
      | cons item rest =>
          rw [List.length_cons] at bound
          cases found : find (item :: rest) with
          | zero => exact keep item rest found (inductionHypothesis rest.length (by omega) rest rfl)
          | succ count =>
              have shorter := (List.drop_sublist count rest).length_le
              exact hit item rest count found
                (inductionHypothesis _ (by omega) (rest.drop count) rfl)

end Segments

/-- The segments that were found. -/
def Segment.hit? : Segment α → Option (List α)
  | keep _ => none
  | hit items => some items

def hits (find : List α → Nat) (input : List α) : List (List α) :=
  (segments find input).filterMap Segment.hit?

theorem hits_keep {find : List α → Nat} {item : α} {rest : List α}
    (nothing : find (item :: rest) = 0) : hits find (item :: rest) = hits find rest := by
  rw [hits, segments_keep nothing]
  rfl

theorem hits_hit {find : List α → Nat} {item : α} {rest : List α} {count : Nat}
    (found : find (item :: rest) = count + 1) :
    hits find (item :: rest) = (item :: rest.take count) :: hits find (rest.drop count) := by
  rw [hits, segments_hit found]
  rfl

/-- What is found stands in the input. -/
theorem of_mem_hits {find : List α → Nat} (bounded : ∀ input, find input ≤ input.length)
    {input matched : List α} (found : matched ∈ hits find input) :
    matched ≠ [] ∧ ∃ front back, input = front ++ (matched ++ back) ∧
      find (matched ++ back) = matched.length := by
  induction input using scan_induction find with
  | nil => contradiction
  | keep item rest nothing inductionHypothesis =>
      rw [hits_keep nothing] at found
      obtain ⟨nonempty, front, back, rfl, length⟩ := inductionHypothesis found
      exact ⟨nonempty, item :: front, back, rfl, length⟩
  | hit item rest count isFound inductionHypothesis =>
      rw [hits_hit isFound, List.mem_cons] at found
      rcases found with rfl | later
      · have within := bounded (item :: rest)
        rw [isFound, List.length_cons] at within
        refine ⟨List.cons_ne_nil _ _, [], rest.drop count, ?_, ?_⟩
        · rw [List.nil_append, List.cons_append, List.take_append_drop]
        · rw [List.cons_append, List.take_append_drop, isFound, List.length_cons,
            List.length_take]
          omega
      · obtain ⟨nonempty, front, back, split, length⟩ := inductionHypothesis later
        refine ⟨nonempty, item :: (rest.take count ++ front), back, ?_, length⟩
        rw [List.cons_append, List.append_assoc, ← split, List.take_append_drop]

/-- Where nothing is found there is nothing to find. -/
theorem find_eq_zero_of_hits_eq_nil {find : List α → Nat} {input back : List α}
    (nothing : hits find input = []) (nonempty : back ≠ []) (suffix : back <:+ input) :
    find back = 0 := by
  induction input using scan_induction find with
  | nil => exact absurd (List.suffix_nil.mp suffix) nonempty
  | keep item rest none inductionHypothesis =>
      rw [hits_keep none] at nothing
      rcases List.suffix_cons_iff.mp suffix with rfl | later
      · exact none
      · exact inductionHypothesis nothing later
  | hit item rest count found _ =>
      rw [hits_hit found] at nothing
      contradiction

/-- Every found segment is replaced. -/
def rewrite (find : List α → Nat) (replace : List α → List α) (input : List α) : List α :=
  (segments find input).flatMap fun
    | .keep item => [item]
    | .hit items => replace items

section Rewriting

variable {find : List α → Nat} {replace : List α → List α}

@[simp]
theorem rewrite_nil : rewrite find replace [] = [] :=
  rfl

theorem rewrite_keep {item : α} {rest : List α} (nothing : find (item :: rest) = 0) :
    rewrite find replace (item :: rest) = item :: rewrite find replace rest := by
  rw [rewrite, segments_keep nothing]
  rfl

theorem rewrite_hit {item : α} {rest : List α} {count : Nat}
    (found : find (item :: rest) = count + 1) :
    rewrite find replace (item :: rest) =
      replace (item :: rest.take count) ++ rewrite find replace (rest.drop count) := by
  rw [rewrite, segments_hit found]
  rfl

/-- A part that is found as a whole is replaced as a whole. -/
theorem rewrite_append {front rest : List α} (nonempty : front ≠ [])
    (found : find (front ++ rest) = front.length) :
    rewrite find replace (front ++ rest) = replace front ++ rewrite find replace rest := by
  obtain ⟨item, front, rfl⟩ := List.exists_cons_of_ne_nil nonempty
  rw [List.cons_append] at found ⊢
  rw [rewrite_hit found, List.take_left, List.drop_left]

/-- What a rewriting does with texts that are not found does not matter. -/
theorem rewrite_congr {other : List α → List α} {input : List α}
    (same : ∀ matched ∈ hits find input, replace matched = other matched) :
    rewrite find replace input = rewrite find other input := by
  induction input using scan_induction find with
  | nil => rfl
  | keep item rest nothing inductionHypothesis =>
      rw [hits_keep nothing] at same
      rw [rewrite_keep nothing, rewrite_keep nothing, inductionHypothesis same]
  | hit item rest count found inductionHypothesis =>
      rw [hits_hit found] at same
      rw [rewrite_hit found, rewrite_hit found, same _ List.mem_cons_self,
        inductionHypothesis fun matched member => same matched (List.mem_cons_of_mem _ member)]

theorem rewrite_of_hits_eq_nil {input : List α} (nothing : hits find input = []) :
    rewrite find replace input = input := by
  induction input using scan_induction find with
  | nil => rfl
  | keep item rest none inductionHypothesis =>
      rw [hits_keep none] at nothing
      rw [rewrite_keep none, inductionHypothesis nothing]
  | hit item rest count found _ =>
      rw [hits_hit found] at nothing
      contradiction

end Rewriting

/-! ## Marked items -/

/-- An item and where it comes from. -/
structure Cell (α : Type u) (μ : Type v) where
  item : α
  mark : μ

/-- The items alone. -/
def items (cells : List (Cell α μ)) : List α :=
  cells.map Cell.item

/-- Items with one mark. -/
def stamp (mark : μ) (content : List α) : List (Cell α μ) :=
  content.map fun item => ⟨item, mark⟩

@[simp]
theorem items_nil : items ([] : List (Cell α μ)) = [] :=
  rfl

@[simp]
theorem items_cons (cell : Cell α μ) (cells : List (Cell α μ)) :
    items (cell :: cells) = cell.item :: items cells :=
  rfl

@[simp]
theorem items_append (left right : List (Cell α μ)) :
    items (left ++ right) = items left ++ items right := by
  simp [items]

@[simp]
theorem items_stamp (mark : μ) (content : List α) : items (stamp mark content) = content := by
  simp [items, stamp, Function.comp_def]

@[simp]
theorem stamp_cons (mark : μ) (item : α) (content : List α) :
    stamp mark (item :: content) = ⟨item, mark⟩ :: stamp mark content :=
  rfl

@[simp]
theorem stamp_append (mark : μ) (left right : List α) :
    stamp mark (left ++ right) = stamp mark left ++ stamp mark right := by
  simp [stamp]

@[simp]
theorem length_stamp (mark : μ) (content : List α) :
    (stamp mark content).length = content.length := by
  simp [stamp]

@[simp]
theorem length_items (cells : List (Cell α μ)) : (items cells).length = cells.length := by
  simp [items]

@[simp]
theorem items_take (count : Nat) (cells : List (Cell α μ)) :
    items (cells.take count) = (items cells).take count := by
  simp [items]

@[simp]
theorem items_drop (count : Nat) (cells : List (Cell α μ)) :
    items (cells.drop count) = (items cells).drop count := by
  simp [items]

theorem mem_stamp {mark : μ} {content : List α} {cell : Cell α μ}
    (member : cell ∈ stamp mark content) :
    cell.mark = mark ∧ cell.item ∈ content := by
  obtain ⟨item, inside, rfl⟩ := List.mem_map.mp member
  exact ⟨rfl, inside⟩

/-- A matcher that ignores marks. -/
def onItems (find : List α → Nat) (cells : List (Cell α μ)) : Nat :=
  find (items cells)

/-- What is found in marked items stands in them, and is found in what follows it. -/
theorem of_mem_hits_onItems {find : List α → Nat} (bounded : ∀ input, find input ≤ input.length)
    {cells matched : List (Cell α μ)} (found : matched ∈ hits (onItems find) cells) :
    matched ≠ [] ∧ ∃ front back, cells = front ++ (matched ++ back) ∧
      find (items (matched ++ back)) = matched.length :=
  of_mem_hits (fun input => (bounded _).trans (length_items input).le) found

/-- Rewriting marked items; what is put in carries a mark of its own. -/
def rewriteCells (find : List α → Nat) (replace : List α → List α) (mark : List α → μ)
    (cells : List (Cell α μ)) : List (Cell α μ) :=
  (segments (onItems find) cells).flatMap fun
    | .keep cell => [cell]
    | .hit matched => stamp (mark (items matched)) (replace (items matched))

section Marked

variable {find : List α → Nat} {replace : List α → List α} {mark : List α → μ}

@[simp]
theorem rewriteCells_nil : rewriteCells find replace mark ([] : List (Cell α μ)) = [] :=
  rfl

theorem rewriteCells_keep {cell : Cell α μ} {rest : List (Cell α μ)}
    (nothing : find (items (cell :: rest)) = 0) :
    rewriteCells find replace mark (cell :: rest) =
      cell :: rewriteCells find replace mark rest := by
  have kept : onItems find (cell :: rest) = 0 := nothing
  rw [rewriteCells, segments_keep kept]
  rfl

theorem rewriteCells_hit {cell : Cell α μ} {rest : List (Cell α μ)} {count : Nat}
    (found : find (items (cell :: rest)) = count + 1) :
    rewriteCells find replace mark (cell :: rest) =
      stamp (mark (items (cell :: rest.take count))) (replace (items (cell :: rest.take count))) ++
        rewriteCells find replace mark (rest.drop count) := by
  have matched : onItems find (cell :: rest) = count + 1 := found
  rw [rewriteCells, segments_hit matched]
  rfl

/-- A part that is found as a whole is replaced as a whole. -/
theorem rewriteCells_append {front rest : List (Cell α μ)} (nonempty : front ≠ [])
    (found : find (items (front ++ rest)) = front.length) :
    rewriteCells find replace mark (front ++ rest) =
      stamp (mark (items front)) (replace (items front)) ++
      rewriteCells find replace mark rest := by
  obtain ⟨cell, front, rfl⟩ := List.exists_cons_of_ne_nil nonempty
  rw [List.cons_append] at found ⊢
  rw [rewriteCells_hit found, List.take_left, List.drop_left]

/-- Without its marks, a marked rewriting is the rewriting. -/
theorem items_rewriteCells (cells : List (Cell α μ)) :
    items (rewriteCells find replace mark cells) = rewrite find replace (items cells) := by
  induction cells using scan_induction (onItems find) with
  | nil => rfl
  | keep cell rest nothing inductionHypothesis =>
      have nothingItems : find (cell.item :: items rest) = 0 := nothing
      rw [rewriteCells_keep nothing, items_cons, inductionHypothesis, items_cons,
        rewrite_keep nothingItems]
  | hit cell rest count found inductionHypothesis =>
      have foundItems : find (cell.item :: items rest) = count + 1 := found
      rw [rewriteCells_hit found, items_append, inductionHypothesis, items_stamp, items_cons,
        items_cons, rewrite_hit foundItems, items_drop, items_take]

/-- What is found among marked items is what is found among the items. -/
theorem map_items_hits (cells : List (Cell α μ)) :
    (hits (onItems find) cells).map items = hits find (items cells) := by
  induction cells using scan_induction (onItems find) with
  | nil => rfl
  | keep cell rest nothing inductionHypothesis =>
      have nothingItems : find (cell.item :: items rest) = 0 := nothing
      rw [hits_keep nothing, inductionHypothesis, items_cons, hits_keep nothingItems]
  | hit cell rest count found inductionHypothesis =>
      have foundItems : find (cell.item :: items rest) = count + 1 := found
      rw [hits_hit found, List.map_cons, inductionHypothesis, items_cons, items_take, items_drop]
      exact (hits_hit foundItems).symm

end Marked

end ZkLlmGateway.Matching
