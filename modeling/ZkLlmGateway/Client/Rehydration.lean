import ZkLlmGateway.Client.Mapping
import ZkLlmGateway.Matching.Growth
import Mathlib.Data.List.Nodup

/-!
# Rehydration

Every pass works on what the passes before it left, placeholders included.
Rehydration replaces longer placeholders first, each once, so it undoes a
redaction exactly when no placeholder was put in for a part that holds a piece
of another placeholder of the same length or longer.
-/

namespace ZkLlmGateway.Client

open ZkLlmGateway.Encoding ZkLlmGateway.Matching

/-! ## Redaction as growth -/

section Growing

variable (engine : Engine) (salt : Block 32)

/-- A pass over a text whose characters know their placeholder. -/
def Pass.mark (pass : Pass) (cells : List (Cell Char (Option Text))) :
    List (Cell Char (Option Text)) :=
  rewriteCells (find pass.pattern) (placeholderFor engine salt pass.tag)
    (fun matched => some (placeholderFor engine salt pass.tag matched)) cells

/-- What a pass replaces, with the placeholders it puts in. -/
def Pass.entries (pass : Pass) (cells : List (Cell Char (Option Text))) : List (Entry Char) :=
  (hits (onItems (find pass.pattern)) cells).map fun matched =>
    ⟨placeholderFor engine salt pass.tag (items matched), matched⟩

/-- What passes replace, the last pass first. -/
def growth : List Pass → List (Cell Char (Option Text)) → List (Entry Char)
  | [], _ => []
  | pass :: rest, cells =>
      growth rest (pass.mark engine salt cells) ++ pass.entries engine salt cells

/-- Every placeholder is longer than those of which it replaces a piece. -/
def Nested (list : List Pass) (content : Text) : Prop :=
  ∀ entry ∈ growth engine salt list (stamp none content), ∀ cell ∈ entry.matched,
    ∀ key ∈ cell.mark, key.length < entry.key.length

instance (list : List Pass) (content : Text) : Decidable (Nested engine salt list content) :=
  inferInstanceAs (Decidable (∀ entry ∈ growth engine salt list (stamp none content),
    ∀ cell ∈ entry.matched, ∀ key ∈ cell.mark, key.length < entry.key.length))

@[simp]
theorem items_mark (pass : Pass) (cells : List (Cell Char (Option Text))) :
    items (pass.mark engine salt cells) = pass.text engine salt (items cells) :=
  items_rewriteCells cells

variable {engine salt} in
/-- What is replaced in marked text is recorded as used. -/
theorem growth_uses {list : List Pass} {cells : List (Cell Char (Option Text))}
    {entry : Entry Char} (member : entry ∈ growth engine salt list cells) :
    (entry.key, items entry.matched) ∈ usesOf engine salt list (items cells) := by
  induction list generalizing cells with
  | nil => contradiction
  | cons pass list inductionHypothesis =>
      rw [usesOf, List.mem_append]
      rcases List.mem_append.mp member with later | now
      · right
        rw [← items_mark]
        exact inductionHypothesis later
      · left
        obtain ⟨matched, found, rfl⟩ := List.mem_map.mp now
        refine List.mem_map.mpr ⟨items matched, ?_, rfl⟩
        rw [← map_items_hits]
        exact List.mem_map_of_mem found

/-- Passes let a text grow. -/
theorem exists_grown {list : List Pass} (tagged : ∀ pass ∈ list, pass.tag ∈ tags)
    {base : Text} {record : List (Entry Char)} {cells : List (Cell Char (Option Text))}
    (grown : Grown '<' '>' base record cells) :
    ∃ later grownCells, Grown '<' '>' base later grownCells ∧
      items grownCells = textOf engine salt list (items cells) ∧
      later.Perm (growth engine salt list cells ++ record) := by
  induction list generalizing record cells with
  | nil => exact ⟨record, cells, grown, rfl, List.Perm.refl _⟩
  | cons pass list inductionHypothesis =>
      have started : Grown '<' '>' base record ([] ++ cells) := grown
      obtain ⟨marked, regrown, perm⟩ := Grown.rewriteCells (find pass.pattern)
        (placeholderFor engine salt pass.tag) started fun matched _ =>
          (isPlaceholder_placeholderFor (tagged pass List.mem_cons_self) (items matched)).fenced
      obtain ⟨later, grownCells, final, leaves, permLater⟩ := inductionHypothesis
        (fun other member => tagged other (List.mem_cons_of_mem _ member)) regrown
      refine ⟨later, grownCells, final, ?_, ?_⟩
      · rw [leaves]
        simp only [List.nil_append, items_rewriteCells]
        rfl
      · apply permLater.trans
        rw [growth, List.append_assoc]
        exact perm.append_left _

end Growing

/-! ## Rehydration as restoring -/

theorem replace_eq_replaceAll (input pattern replacement : Text) :
    replace input pattern replacement = replaceAll pattern replacement input := by
  have same : find (literally pattern) = occurs pattern := funext fun input => find_literally _ _
  rw [replace, replaceAll, same]

/-- What a placeholder is mapped to. -/
def Redactor.meaning (red : Redactor) (placeholder : Text) : Option Text :=
  red.rev.lookup placeholder

theorem Redactor.exists_meaning_iff {red : Redactor} {placeholder : Text} :
    (∃ original, red.meaning placeholder = some original) ↔
      placeholder ∈ red.rev.map Prod.fst :=
  Option.isSome_iff_exists.symm.trans isSome_lookup_iff

/-- The order in which placeholders are replaced. -/
def longestFirst (order : List Text) : List Text :=
  order.mergeSort fun left right => byteLen right ≤ byteLen left

theorem Redactor.rehydrate_eq {red : Redactor} {order : List Text}
    (all : order.Perm (red.rev.map Prod.fst)) (content : Text) :
    red.rehydrate order content =
      restoreAll red.meaning (longestFirst order) content := by
  rw [Redactor.rehydrate]
  split
  next empty =>
    rw [List.isEmpty_iff] at empty
    rw [empty] at all
    rw [all.eq_nil, longestFirst, List.mergeSort_nil, restoreAll, List.foldl_nil]
  next =>
    simp only [restoreAll, longestFirst, replace_eq_replaceAll]
    congr 1
    funext out placeholder
    rw [Redactor.meaning]
    cases red.rev.lookup placeholder <;> rfl

section Orders

variable {order : List Text} {left right : Text}

theorem byteLen_trans (first second third : Text)
    (left : decide (byteLen second ≤ byteLen first) = true)
    (right : decide (byteLen third ≤ byteLen second) = true) :
    decide (byteLen third ≤ byteLen first) = true := by
  rw [decide_eq_true_eq] at left right ⊢
  exact right.trans left

theorem byteLen_total (first second : Text) :
    (decide (byteLen second ≤ byteLen first) || decide (byteLen first ≤ byteLen second)) =
      true := by
  rw [Bool.or_eq_true, decide_eq_true_eq, decide_eq_true_eq]
  exact Nat.le_total _ _

/-- Two members of a list stand in one order or the other. -/
theorem sublist_or_sublist {α : Type} {list : List α} {left right : α} (differ : left ≠ right)
    (hasLeft : left ∈ list) (hasRight : right ∈ list) :
    [left, right].Sublist list ∨ [right, left].Sublist list := by
  induction list with
  | nil => contradiction
  | cons item list inductionHypothesis =>
      rcases List.mem_cons.mp hasLeft with rfl | leftLater
      · have later := (List.mem_cons.mp hasRight).resolve_left fun same => differ same.symm
        exact .inl ((List.singleton_sublist.mpr later).cons_cons _)
      · rcases List.mem_cons.mp hasRight with rfl | rightLater
        · exact .inr ((List.singleton_sublist.mpr leftLater).cons_cons _)
        · exact (inductionHypothesis leftLater rightLater).imp (.cons item) (.cons item)

/-- In a list without repetitions they do not stand in both. -/
theorem not_sublist_of_sublist {α : Type} {list : List α} {left right : α} (distinct : list.Nodup)
    (first : [left, right].Sublist list) : ¬[right, left].Sublist list := by
  intro second
  induction list with
  | nil => exact absurd first (by simp)
  | cons item list inductionHypothesis =>
      obtain ⟨isFirst, distinctRest⟩ := List.nodup_cons.mp distinct
      rcases List.sublist_cons_iff.mp first with firstLater | ⟨_, split, firstLater⟩ <;>
        rcases List.sublist_cons_iff.mp second with secondLater | ⟨_, other, secondLater⟩
      · exact inductionHypothesis distinctRest firstLater secondLater
      · obtain ⟨rfl, rfl⟩ := List.cons.inj other
        exact isFirst (firstLater.subset (by simp))
      · obtain ⟨rfl, rfl⟩ := List.cons.inj split
        exact isFirst (secondLater.subset (by simp))
      · obtain ⟨rfl, rfl⟩ := List.cons.inj split
        obtain ⟨rfl, rfl⟩ := List.cons.inj other
        exact isFirst (firstLater.subset List.mem_cons_self)

/-- Longer placeholders come first. -/
theorem sublist_longestFirst (longer : byteLen right < byteLen left) (hasLeft : left ∈ order)
    (hasRight : right ∈ order) : [left, right].Sublist (longestFirst order) := by
  have differ : left ≠ right := by
    rintro rfl
    exact lt_irrefl _ longer
  rcases sublist_or_sublist differ (List.mem_mergeSort.mpr hasLeft)
    (List.mem_mergeSort.mpr hasRight) with ordered | reversed
  · exact ordered
  · have sorted := List.pairwise_mergeSort byteLen_trans byteLen_total order
    have notLonger := of_decide_eq_true (List.pairwise_iff_forall_sublist.mp sorted reversed)
    omega

/-- Some order of the map takes a placeholder before another that is not longer. -/
theorem exists_order {keys : List Text} (hasLeft : left ∈ keys)
    (hasRight : right ∈ keys) (differ : left ≠ right) (notLonger : byteLen right ≤ byteLen left) :
    ∃ order, order.Perm keys ∧ [left, right].Sublist (longestFirst order) := by
  refine ⟨left :: keys.erase left, (List.perm_cons_erase hasLeft).symm, ?_⟩
  have later : right ∈ keys.erase left :=
    (List.mem_erase_of_ne fun same => differ same.symm).mpr hasRight
  exact List.pair_sublist_mergeSort byteLen_trans byteLen_total (decide_eq_true notLonger)
    ((List.singleton_sublist.mpr later).cons_cons left)

end Orders

/-! ## The round trip -/

/-- No placeholder stands for two originals. -/
def CollisionFree (pairs : List (Text × Text)) : Prop :=
  ∀ left ∈ pairs, ∀ right ∈ pairs, left.1 = right.1 → left.2 = right.2

instance (pairs : List (Text × Text)) : Decidable (CollisionFree pairs) :=
  inferInstanceAs (Decidable (∀ left ∈ pairs, ∀ right ∈ pairs, left.1 = right.1 →
    left.2 = right.2))

theorem CollisionFree.lookup_eq {pairs : List (Text × Text)} (free : CollisionFree pairs)
    {pair : Text × Text} (member : pair ∈ pairs) : pairs.lookup pair.1 = some pair.2 := by
  have present : (pairs.lookup pair.1).isSome = true :=
    isSome_lookup_iff.mpr (List.mem_map_of_mem member)
  obtain ⟨original, found⟩ := Option.isSome_iff_exists.mp present
  obtain ⟨front, back, rfl, _⟩ := List.lookup_eq_some_iff.mp found
  exact found.trans (congrArg some (free (pair.1, original) (by simp) pair member rfl))

section RoundTrip

variable {engine : Engine} {red : Redactor} {mode : RedactMode} {extraTerms : List Text}
  {content : Text} {order : List Text}

/-- A redaction is growth, and the redactor knows what every placeholder replaced. -/
theorem Redactor.exists_record
    (collisionFree : CollisionFree (red.rev ++ usesOf engine red.salt
      (passes engine mode (red.state.customTerms ++ extraTerms)) content)) :
    ∃ record cells, Grown '<' '>' content record cells ∧
      items cells = (red.redact engine content mode extraTerms).1 ∧
      record.Perm (growth engine red.salt
        (passes engine mode (red.state.customTerms ++ extraTerms)) (stamp none content)) ∧
      Meant (red.redact engine content mode extraTerms).2.meaning record := by
  rw [Redactor.redact_eq]
  obtain ⟨leaves, looks⟩ := foldl_run engine
    (passes engine mode (red.state.customTerms ++ extraTerms)) content red
  have started : Grown '<' '>' content [] (stamp none content) := .base
  obtain ⟨record, cells, grown, final, perm⟩ := exists_grown engine red.salt
    (fun pass member => tag_mem_tags member) started
  rw [List.append_nil] at perm
  rw [items_stamp] at final
  refine ⟨record, cells, grown, final.trans leaves.symm, perm, fun entry member => ?_⟩
  have used := growth_uses (perm.mem_iff.mp member)
  rw [items_stamp] at used
  rw [Redactor.meaning, looks]
  exact collisionFree.lookup_eq (List.mem_append_right _ used)

/-- What a sound redactor maps is foreign to a text without placeholders. -/
theorem Redactor.Sound.foreign (sound : red.Sound engine)
    (foreign : ∀ placeholder ∈ red.rev.map Prod.fst, ¬placeholder <:+: content) :
    Foreign '<' '>' content red.meaning := by
  intro key original found
  have member : key ∈ red.rev.map Prod.fst :=
    Redactor.exists_meaning_iff.mp ⟨original, found⟩
  obtain ⟨pair, inside, rfl⟩ := List.mem_map.mp member
  exact ⟨(sound.rev pair inside).fenced, foreign _ member⟩

theorem Redactor.Sound.byteLen_key (sound : red.Sound engine) {key : Text}
    (member : key ∈ red.rev.map Prod.fst) : byteLen key = key.length := by
  obtain ⟨pair, inside, rfl⟩ := List.mem_map.mp member
  exact (sound.rev pair inside).byteLen_eq

theorem nodup_longestFirst {keys : List Text} (all : order.Perm keys) (distinct : keys.Nodup) :
    (longestFirst order).Nodup :=
  ((List.mergeSort_perm order _).trans all).nodup_iff.mpr distinct

theorem mem_longestFirst {keys : List Text} (all : order.Perm keys) {key : Text} :
    key ∈ longestFirst order ↔ key ∈ keys :=
  ((List.mergeSort_perm order _).trans all).mem_iff

/-- **Rehydration undoes redaction** in every order of the map exactly when
every placeholder is longer than those of which it replaced a piece. -/
theorem rehydrate_redact_iff (reachable : Redactor.Reachable engine red)
    (collisionFree : CollisionFree (red.rev ++ usesOf engine red.salt
      (passes engine mode (red.state.customTerms ++ extraTerms)) content))
    (foreign : ∀ placeholder ∈ (red.redact engine content mode extraTerms).2.rev.map Prod.fst,
      ¬placeholder <:+: content) :
    (∀ order : List Text,
      order.Perm ((red.redact engine content mode extraTerms).2.rev.map Prod.fst) →
      (red.redact engine content mode extraTerms).2.rehydrate order
        (red.redact engine content mode extraTerms).1 = content) ↔
      Nested engine red.salt (passes engine mode (red.state.customTerms ++ extraTerms))
        content := by
  have sound := reachable.sound.redact content mode extraTerms
  obtain ⟨record, cells, grown, final, perm, means⟩ :=
    Redactor.exists_record collisionFree
  rw [← final]
  generalize (red.redact engine content mode extraTerms).2 = after at *
  have complete : ∀ entry ∈ record, entry.key ∈ after.rev.map Prod.fst := fun entry member =>
    Redactor.exists_meaning_iff.mp ⟨_, means entry member⟩
  have undone : ∀ order : List Text, order.Perm (after.rev.map Prod.fst) →
      (after.rehydrate order (items cells) = content ↔
        InOrder (longestFirst order) record) := by
    intro order all
    rw [Redactor.rehydrate_eq all]
    refine grown.restoreAll_eq_iff (sound.foreign foreign) means ?_
      (nodup_longestFirst all sound.distinct)
      fun entry member => (mem_longestFirst all).mpr (complete entry member)
    intro key member
    exact Redactor.exists_meaning_iff.mpr ((mem_longestFirst all).mp member)
  constructor
  · intro restores entry member cell inside key mark
    have onRecord := perm.mem_iff.mpr member
    have hasKey : key ∈ after.rev.map Prod.fst := by
      obtain ⟨source, known, rfl⟩ := grown.matched_on_record onRecord inside mark
      exact complete source known
    have ordered : ∀ order : List Text, order.Perm (after.rev.map Prod.fst) →
        [entry.key, key].Sublist (longestFirst order) := fun order all =>
      (undone order all).mp (restores order all) entry onRecord cell inside key mark
    by_contra short
    rw [not_lt, ← sound.byteLen_key hasKey, ← sound.byteLen_key (complete entry onRecord)] at short
    by_cases same : key = entry.key
    · have twice := ordered _ (List.Perm.refl _)
      rw [same] at twice
      exact List.nodup_iff_sublist.mp (nodup_longestFirst (List.Perm.refl _) sound.distinct) _ twice
    · obtain ⟨order, all, reversed⟩ := exists_order hasKey (complete entry onRecord) same short
      exact not_sublist_of_sublist (nodup_longestFirst all sound.distinct) reversed
        (ordered order all)
  · intro nested order all
    refine (undone order all).mpr fun entry onRecord cell inside key mark => ?_
    obtain ⟨source, known, rfl⟩ := grown.matched_on_record onRecord inside mark
    have longer := nested entry (perm.mem_iff.mp onRecord) cell inside _ mark
    refine sublist_longestFirst ?_ (all.mem_iff.mpr (complete entry onRecord))
      (all.mem_iff.mpr (complete source known))
    rwa [sound.byteLen_key (complete source known), sound.byteLen_key (complete entry onRecord)]

end RoundTrip

/-- SHA-256 where a URL around an e-mail address needs it, under a salt of zeros. -/
def urlEngine : Engine := .ofTable [
  (List.replicate 32 0 ++ utf8 (text "EMAILa@b.co"),
    ⟨[0xb3, 0xfb, 0x1d, 0xf0, 0x07, 0x4a, 0x07, 0xfe, 0xa0, 0xe7, 0xa1,
      0x1a, 0x32, 0x93, 0xe9, 0x91, 0xd4, 0xd6, 0x6a, 0x16, 0x25, 0x7a,
      0x12, 0x32, 0xf2, 0x3a, 0xf6, 0xa4, 0xf8, 0x55, 0xd8, 0x15], rfl⟩),
  (List.replicate 32 0 ++ utf8 (text "URLhttps://x/<EMAIL_b3fb1df0074a07fe>"),
    ⟨[0x5d, 0xf5, 0x1d, 0xa2, 0xfe, 0xc8, 0x7d, 0xc2, 0x9c, 0x27, 0x1c,
      0x36, 0xdc, 0x2b, 0x87, 0xf4, 0x86, 0x67, 0x11, 0x1e, 0xac, 0x25,
      0xc4, 0xbe, 0xe3, 0x36, 0xec, 0x4c, 0xba, 0x82, 0xa7, 0xcc], rfl⟩)]

/-- In basic mode the address alone is replaced, and comes back. -/
theorem rehydrate_redact_basic :
    ((Redactor.new (Block.replicate 32 0)).redact urlEngine
      (text "https://x/a@b.co") .basic []).2.rehydrate [text "<EMAIL_b3fb1df0074a07fe>"]
      ((Redactor.new (Block.replicate 32 0)).redact urlEngine
        (text "https://x/a@b.co") .basic []).1 = text "https://x/a@b.co" :=
  (rehydrate_redact_iff (reachable_new urlEngine (Block.replicate 32 0)) (by decide +kernel)
    (by decide +kernel)).mpr (by decide +kernel) [text "<EMAIL_b3fb1df0074a07fe>"]
    (by decide +kernel)

/-- A URL whose placeholder is shorter than that of the address in it. -/
theorem rehydrate_redact_url : ¬∀ (engine : Engine) (red : Redactor) (mode : RedactMode)
    (extraTerms : List Text) (content : Text) (order : List Text),
    Redactor.Reachable engine red →
    CollisionFree (red.rev ++ usesOf engine red.salt
      (passes engine mode (red.state.customTerms ++ extraTerms)) content) →
    (∀ placeholder ∈ (red.redact engine content mode extraTerms).2.rev.map Prod.fst,
      ¬placeholder <:+: content) →
    order.Perm ((red.redact engine content mode extraTerms).2.rev.map Prod.fst) →
    (red.redact engine content mode extraTerms).2.rehydrate order
      (red.redact engine content mode extraTerms).1 = content := by
  intro claim
  have all : [text "<EMAIL_b3fb1df0074a07fe>", text "<URL_5df51da2fec87dc2>"].Perm
      (((Redactor.new (Block.replicate 32 0)).redact urlEngine
        (text "https://x/a@b.co") .strict []).2.rev.map Prod.fst) := by
    decide +kernel
  have restored := claim urlEngine (.new (Block.replicate 32 0)) .strict []
    (text "https://x/a@b.co") _ (reachable_new _ _) (by decide +kernel) (by decide +kernel) all
  have sorted : longestFirst [text "<EMAIL_b3fb1df0074a07fe>", text "<URL_5df51da2fec87dc2>"] =
      [text "<EMAIL_b3fb1df0074a07fe>", text "<URL_5df51da2fec87dc2>"] :=
    List.mergeSort_of_pairwise (by decide)
  rw [Redactor.rehydrate_eq all, sorted] at restored
  exact absurd restored (by decide +kernel)

end ZkLlmGateway.Client
