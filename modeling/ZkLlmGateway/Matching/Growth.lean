import ZkLlmGateway.Matching.Scan
import Mathlib.Data.List.Infix
import Mathlib.Data.List.Perm.Basic

/-!
# Replacements one over the other, and how they are undone

A key is a word in fences: it begins with one and ends with the other, and has
no fence inside.  A text grows when a part of it is replaced by a key; the part
may hold pieces of keys that were put in before.  The marks of the items tell
with which key they came in, and the record tells what every key replaced.

Keys are replaced back by what they stand for, one key after the other, each
once.  That leads back to the first text exactly when every key is taken before
all keys of which it replaced a piece (`Grown.restoreAll_eq_iff`).
-/

namespace ZkLlmGateway.Matching

universe u v

variable {α : Type u} {β : Type v}

/-! ## Keys -/

/-- A word in fences. -/
structure Fenced (left right : α) (key : List α) : Prop where
  distinct : left ≠ right
  body : ∃ body, key = left :: (body ++ [right]) ∧ left ∉ body ∧ right ∉ body

section Keys

variable {left right : α} {key other rest : List α}

/-- After its first item a key has no opening fence. -/
theorem Fenced.exists_tail (fenced : Fenced left right key) :
    ∃ tail, key = left :: tail ∧ left ∉ tail := by
  obtain ⟨body, rfl, leftOutside, _⟩ := fenced.body
  refine ⟨body ++ [right], rfl, ?_⟩
  rw [List.mem_append, List.mem_singleton]
  rintro (inside | equal)
  · exact leftOutside inside
  · exact fenced.distinct equal

theorem Fenced.ne_nil (fenced : Fenced left right key) : key ≠ [] := by
  obtain ⟨tail, rfl, _⟩ := fenced.exists_tail
  exact List.cons_ne_nil _ _

theorem append_cons_inj {separator : α} {first second firstRest secondRest : List α}
    (firstFree : separator ∉ first) (secondFree : separator ∉ second)
    (equal : first ++ separator :: firstRest = second ++ separator :: secondRest) :
    first = second := by
  induction first generalizing second with
  | nil =>
      cases second with
      | nil => rfl
      | cons item second =>
          obtain ⟨rfl, _⟩ := List.cons.inj equal
          exact absurd List.mem_cons_self secondFree
  | cons item first inductionHypothesis =>
      cases second with
      | nil =>
          obtain ⟨rfl, _⟩ := List.cons.inj equal
          exact absurd List.mem_cons_self firstFree
      | cons other second =>
          obtain ⟨rfl, tails⟩ := List.cons.inj equal
          rw [inductionHypothesis (fun inside => firstFree (List.mem_cons_of_mem _ inside))
            (fun inside => secondFree (List.mem_cons_of_mem _ inside)) tails]

/-- Keys that begin at one place are the same. -/
theorem Fenced.eq_of_append_eq {otherRest : List α} (fenced : Fenced left right key)
    (otherFenced : Fenced left right other) (equal : key ++ rest = other ++ otherRest) :
    key = other := by
  obtain ⟨body, rfl, _, bodyFree⟩ := fenced.body
  obtain ⟨otherBody, rfl, _, otherFree⟩ := otherFenced.body
  simp only [List.cons_append, List.append_assoc, List.cons.injEq, true_and,
    List.nil_append] at equal
  rw [append_cons_inj bodyFree otherFree equal]

/-- Two words whose images are keys are the same or lie apart. -/
theorem Fenced.apart {image : β → α} {word target front back after : List β}
    (wordFenced : Fenced left right (word.map image))
    (targetFenced : Fenced left right (target.map image))
    (equal : word ++ back = front ++ (target ++ after)) :
    (front = [] ∧ word = target ∧ back = after) ∨
      ∃ middle, front = word ++ middle ∧ back = middle ++ (target ++ after) := by
  cases front with
  | nil =>
      rw [List.nil_append] at equal
      have images := congrArg (List.map image) equal
      rw [List.map_append, List.map_append] at images
      have same := wordFenced.eq_of_append_eq targetFenced images
      have lengths : word.length = target.length := by
        simpa only [List.length_map] using congrArg List.length same
      obtain ⟨words, rests⟩ := List.append_inj equal lengths
      exact .inl ⟨rfl, words, rests⟩
  | cons item front =>
      obtain ⟨tail, wordTail, tailFree⟩ := wordFenced.exists_tail
      obtain ⟨targetTail, targetSplit, _⟩ := targetFenced.exists_tail
      obtain ⟨first, others, rfl, _, rfl⟩ := List.map_eq_cons_iff.mp wordTail
      obtain ⟨start, targets, rfl, startImage, _⟩ := List.map_eq_cons_iff.mp targetSplit
      obtain ⟨rfl, remaining⟩ := List.cons.inj equal
      rcases List.append_eq_append_iff.mp remaining with
        ⟨middle, rfl, split⟩ | ⟨middle, rfl, split⟩
      · exact .inr ⟨middle, rfl, split⟩
      · cases middle with
        | nil =>
            rw [List.nil_append] at split
            exact .inr ⟨[], by simp, split.symm⟩
        | cons inside middle =>
            obtain ⟨rfl, _⟩ := List.cons.inj split
            refine absurd ?_ tailFree
            rw [List.map_append, List.map_cons, startImage]
            exact List.mem_append_right _ List.mem_cons_self

/-- A word lies behind another with which it shares no item. -/
theorem exists_behind {word target front back after : List β} (disjoint : word.Disjoint target)
    (nonempty : target ≠ []) (equal : word ++ back = front ++ (target ++ after)) :
    ∃ middle, front = word ++ middle ∧ back = middle ++ (target ++ after) := by
  rcases List.append_eq_append_iff.mp equal with ⟨middle, rfl, rfl⟩ | ⟨middle, rfl, split⟩
  · exact ⟨middle, rfl, rfl⟩
  · cases middle with
    | nil =>
        rw [List.nil_append] at split
        exact ⟨[], by simp, split.symm⟩
    | cons item middle =>
        obtain ⟨first, others, rfl⟩ := List.exists_cons_of_ne_nil nonempty
        obtain ⟨rfl, _⟩ := List.cons.inj split
        exact absurd List.mem_cons_self
          (disjoint (List.mem_append_right _ List.mem_cons_self))

end Keys

/-! ## Growth -/

/-- A key, and the marked items it replaced. -/
structure Entry (α : Type u) where
  key : List α
  matched : List (Cell α (Option (List α)))

/-- `Grown left right base record cells`: the cells come from `base` by the
replacements on record, the last one first. -/
inductive Grown (left right : α) (base : List α) :
    List (Entry α) → List (Cell α (Option (List α))) → Prop
  | base : Grown left right base [] (stamp none base)
  | put {record : List (Entry α)} {front matched back : List (Cell α (Option (List α)))}
      {key : List α} :
      Grown left right base record (front ++ (matched ++ back)) → matched ≠ [] →
      Fenced left right key →
      Grown left right base (⟨key, matched⟩ :: record) (front ++ (stamp (some key) key ++ back))

section Growth

variable {left right : α} {base key : List α} {record : List (Entry α)}
  {cells front word back : List (Cell α (Option (List α)))}

theorem map_item_stamp (mark : Option (List α)) (content : List α) :
    (stamp mark content).map Cell.item = content :=
  items_stamp mark content

/-- An occurrence of a key that is not in the base was put in as a whole, and
it can be taken back. -/
theorem Grown.take_back (grown : Grown left right base record (front ++ (word ++ back)))
    (spells : items word = key) (fenced : Fenced left right key) (absent : ¬key <:+: base) :
    word = stamp (some key) key ∧ ∃ matched earlier, matched ≠ [] ∧
      record.Perm (⟨key, matched⟩ :: earlier) ∧
      Grown left right base earlier (front ++ (matched ++ back)) := by
  generalize whole : front ++ (word ++ back) = cells at grown
  induction grown generalizing front word back with
  | base =>
      refine absurd ?_ absent
      have spelled := congrArg items whole
      rw [items_stamp, items_append, items_append, spells] at spelled
      exact ⟨items front, items back, by rw [← spelled, List.append_assoc]⟩
  | @put record outerFront matched outerBack other grown nonempty otherFenced inductionHypothesis =>
      have wordFenced : Fenced left right (word.map Cell.item) := by
        rw [← items, spells]
        exact fenced
      have stampFenced : Fenced left right ((stamp (some other) other).map Cell.item) :=
        (map_item_stamp (some other) other).symm ▸ otherFenced
      -- The new key is the occurrence, or it lies behind it, or in front of it.
      rcases List.append_eq_append_iff.mp whole with
        ⟨between, rfl, split⟩ | ⟨between, rfl, split⟩
      · rcases wordFenced.apart stampFenced split with
          ⟨rfl, rfl, rfl⟩ | ⟨middle, rfl, rfl⟩
        · rw [items_stamp] at spells
          subst spells
          rw [List.append_nil] at grown
          exact ⟨rfl, matched, record, nonempty, List.Perm.refl _, grown⟩
        · have regrouped : front ++ (word ++ (middle ++ (matched ++ outerBack))) =
              (front ++ (word ++ middle)) ++ (matched ++ outerBack) := by
            simp only [List.append_assoc]
          obtain ⟨stamped, taken, earlier, takenNonempty, perm, before⟩ :=
            inductionHypothesis spells regrouped
          refine ⟨stamped, taken, ⟨other, matched⟩ :: earlier, takenNonempty,
            (perm.cons _).trans (.swap _ _ _), ?_⟩
          have again : Grown left right base earlier
              ((front ++ (taken ++ middle)) ++ (matched ++ outerBack)) := by
            simpa only [List.append_assoc] using before
          simpa only [List.append_assoc] using again.put nonempty otherFenced
      · rcases stampFenced.apart wordFenced split with
          ⟨rfl, rfl, rfl⟩ | ⟨middle, rfl, rfl⟩
        · rw [items_stamp] at spells
          subst spells
          rw [List.append_nil]
          exact ⟨rfl, matched, record, nonempty, List.Perm.refl _, grown⟩
        · have regrouped : (outerFront ++ (matched ++ middle)) ++ (word ++ back) =
              outerFront ++ (matched ++ (middle ++ (word ++ back))) := by
            simp only [List.append_assoc]
          obtain ⟨stamped, taken, earlier, takenNonempty, perm, before⟩ :=
            inductionHypothesis spells regrouped
          refine ⟨stamped, taken, ⟨other, matched⟩ :: earlier, takenNonempty,
            (perm.cons _).trans (.swap _ _ _), ?_⟩
          have again : Grown left right base earlier
              (outerFront ++ (matched ++ (middle ++ (taken ++ back)))) := by
            simpa only [List.append_assoc] using before
          simpa only [List.append_assoc] using again.put nonempty otherFenced

/-- The last key that was put in is still there. -/
theorem Grown.last_infix {entry : Entry α}
    (grown : Grown left right base (entry :: record) cells) : entry.key <:+: items cells := by
  cases grown with
  | @put _ front matched back key =>
      refine ⟨items front, items back, ?_⟩
      simp only [items_append, items_stamp, List.append_assoc]

/-- Every mark is the key of an entry. -/
theorem Grown.mark_on_record (grown : Grown left right base record cells)
    {cell : Cell α (Option (List α))} (member : cell ∈ cells) (mark : cell.mark = some key) :
    ∃ entry ∈ record, entry.key = key := by
  induction grown with
  | base =>
      rw [(mem_stamp member).1] at mark
      contradiction
  | put _ _ _ inductionHypothesis =>
      simp only [List.mem_append] at member inductionHypothesis
      rcases member with inFront | inKey | inBack
      · obtain ⟨entry, inside, same⟩ := inductionHypothesis (.inl inFront)
        exact ⟨entry, List.mem_cons_of_mem _ inside, same⟩
      · exact ⟨_, List.mem_cons_self, Option.some.inj ((mem_stamp inKey).1.symm.trans mark)⟩
      · obtain ⟨entry, inside, same⟩ := inductionHypothesis (.inr (.inr inBack))
        exact ⟨entry, List.mem_cons_of_mem _ inside, same⟩

/-- So is every mark among what was replaced. -/
theorem Grown.matched_on_record (grown : Grown left right base record cells) {entry : Entry α}
    (member : entry ∈ record) {cell : Cell α (Option (List α))} (inside : cell ∈ entry.matched)
    (mark : cell.mark = some key) : ∃ source ∈ record, source.key = key := by
  induction grown with
  | base => contradiction
  | put grown _ _ inductionHypothesis =>
      rcases List.mem_cons.mp member with rfl | earlier
      · obtain ⟨source, known, same⟩ := grown.mark_on_record
          (List.mem_append_right _ (List.mem_append_left _ inside)) mark
        exact ⟨source, List.mem_cons_of_mem _ known, same⟩
      · obtain ⟨source, known, same⟩ := inductionHypothesis earlier
        exact ⟨source, List.mem_cons_of_mem _ known, same⟩

/-- A key none of which was ever replaced is still there. -/
theorem Grown.exists_whole (grown : Grown left right base record cells)
    (onRecord : ∃ entry ∈ record, entry.key = key) (fenced : Fenced left right key)
    (spared : ∀ entry ∈ record, ∀ cell ∈ entry.matched, cell.mark ≠ some key) :
    ∃ front back, cells = front ++ (stamp (some key) key ++ back) := by
  induction grown with
  | base =>
      obtain ⟨entry, member, _⟩ := onRecord
      contradiction
  | @put record outerFront matched outerBack other _ nonempty _ inductionHypothesis =>
      by_cases same : other = key
      · subst same
        exact ⟨outerFront, outerBack, rfl⟩
      · have earlier : ∃ entry ∈ record, entry.key = key := by
          obtain ⟨entry, member, isKey⟩ := onRecord
          rcases List.mem_cons.mp member with rfl | inside
          · exact absurd isKey same
          · exact ⟨entry, inside, isKey⟩
        obtain ⟨front, back, split⟩ := inductionHypothesis earlier
          fun entry member => spared entry (List.mem_cons_of_mem _ member)
        have disjoint : matched.Disjoint (stamp (some key) key) := fun cell inMatched inStamp =>
          spared _ List.mem_cons_self cell inMatched (mem_stamp inStamp).1
        have stampNonempty : stamp (some key) key ≠ [] := by
          simpa [stamp] using fenced.ne_nil
        rcases List.append_eq_append_iff.mp split with
          ⟨middle, rfl, remaining⟩ | ⟨middle, rfl, remaining⟩
        · obtain ⟨between, rfl, rfl⟩ := exists_behind disjoint stampNonempty remaining
          exact ⟨outerFront ++ (stamp (some other) other ++ between), back, by simp⟩
        · obtain ⟨between, rfl, rfl⟩ := exists_behind
            (fun cell inStamp inMatched => disjoint inMatched inStamp) nonempty remaining
          exact ⟨front, between ++ (stamp (some other) other ++ outerBack), by simp⟩

/-- Rewriting by keys is growth. -/
theorem Grown.rewriteCells (find : List α → Nat) (replace : List α → List α)
    (grown : Grown left right base record (front ++ cells))
    (fenced : ∀ matched ∈ hits (onItems find) cells, Fenced left right (replace (items matched))) :
    ∃ later, Grown left right base later
        (front ++ rewriteCells find replace (fun matched => some (replace matched)) cells) ∧
      later.Perm
        ((hits (onItems find) cells).map (fun matched => ⟨replace (items matched), matched⟩) ++
          record) := by
  induction cells using scan_induction (onItems find) generalizing front record with
  | nil => exact ⟨record, grown, List.Perm.refl _⟩
  | keep cell rest nothing inductionHypothesis =>
      rw [rewriteCells_keep nothing]
      rw [hits_keep nothing] at fenced ⊢
      have shifted : Grown left right base record ((front ++ [cell]) ++ rest) := by
        simpa using grown
      obtain ⟨later, regrown, perm⟩ := inductionHypothesis shifted fenced
      exact ⟨later, by simpa using regrown, perm⟩
  | hit cell rest count found inductionHypothesis =>
      rw [rewriteCells_hit found]
      rw [hits_hit found] at fenced ⊢
      have whole : cell :: rest = (cell :: rest.take count) ++ rest.drop count := by
        rw [List.cons_append, List.take_append_drop]
      rw [whole] at grown
      have put := grown.put (List.cons_ne_nil _ _) (fenced _ List.mem_cons_self)
      rw [← List.append_assoc] at put
      obtain ⟨later, regrown, perm⟩ := inductionHypothesis put fun matched member =>
        fenced matched (List.mem_cons_of_mem _ member)
      refine ⟨later, by simpa using regrown, perm.trans ?_⟩
      rw [List.map_cons, List.cons_append]
      exact List.perm_middle

end Growth

/-! ## Replacing keys -/

section Replacing

variable [DecidableEq α] {left right : α} {key replacement rest : List α}

/-- The length of a word at the front of an input, and `0` if it is not there. -/
def occurs (word input : List α) : Nat :=
  if word <+: input then word.length else 0

/-- The input with every occurrence of a word replaced. -/
def replaceAll (word replacement input : List α) : List α :=
  rewrite (occurs word) (fun _ => replacement) input

@[simp]
theorem replaceAll_nil : replaceAll key replacement [] = [] :=
  rfl

theorem replaceAll_cons {item : α} (absent : ¬key <+: item :: rest) :
    replaceAll key replacement (item :: rest) = item :: replaceAll key replacement rest :=
  rewrite_keep (if_neg absent)

theorem replaceAll_append_self (nonempty : key ≠ []) :
    replaceAll key replacement (key ++ rest) = replacement ++ replaceAll key replacement rest := by
  obtain ⟨item, tail, rfl⟩ := List.exists_cons_of_ne_nil nonempty
  have found : occurs (item :: tail) (item :: (tail ++ rest)) = tail.length + 1 :=
    if_pos (List.prefix_append (item :: tail) rest)
  rw [replaceAll, List.cons_append, rewrite_hit found, List.drop_left, replaceAll]

/-- Replace keys by their meanings, one key after the other. -/
def restoreAll (meaning : List α → Option (List α)) (keys : List (List α)) (input : List α) :
    List α :=
  keys.foldl (fun out key =>
    match meaning key with
    | some original => replaceAll key original out
    | none => out) input

end Replacing

/-! ## Taking a key back -/

/-- `TakenBack key gone before after`: every occurrence of the key is replaced
by what it replaced. -/
inductive TakenBack (key : List α) :
    List (Entry α) → List (Cell α (Option (List α))) → List (Cell α (Option (List α))) → Prop
  | nil : TakenBack key [] [] []
  | keep (cell : Cell α (Option (List α))) {gone : List (Entry α)}
      {before after : List (Cell α (Option (List α)))} :
      ¬key <+: items (cell :: before) → TakenBack key gone before after →
      TakenBack key gone (cell :: before) (cell :: after)
  | swap {matched : List (Cell α (Option (List α)))} {gone : List (Entry α)}
      {before after : List (Cell α (Option (List α)))} :
      matched ≠ [] → TakenBack key gone before after →
      TakenBack key (⟨key, matched⟩ :: gone) (stamp (some key) key ++ before) (matched ++ after)

section TakingBack

variable {left right : α} {base key : List α} {record gone : List (Entry α)}
  {cells before after front : List (Cell α (Option (List α)))}

theorem TakenBack.key_eq (taken : TakenBack key gone before after) {entry : Entry α}
    (member : entry ∈ gone) : entry.key = key := by
  induction taken with
  | nil => contradiction
  | keep _ _ _ inductionHypothesis => exact inductionHypothesis member
  | swap _ _ inductionHypothesis =>
      rcases List.mem_cons.mp member with rfl | later
      · rfl
      · exact inductionHypothesis later

/-- What a key replaced stands there again. -/
theorem TakenBack.mem_after (taken : TakenBack key gone before after) {entry : Entry α}
    (member : entry ∈ gone) {cell : Cell α (Option (List α))} (inside : cell ∈ entry.matched) :
    cell ∈ after := by
  induction taken with
  | nil => contradiction
  | keep _ _ _ inductionHypothesis => exact List.mem_cons_of_mem _ (inductionHypothesis member)
  | swap _ _ inductionHypothesis =>
      rw [List.mem_append]
      rcases List.mem_cons.mp member with rfl | later
      · exact .inl inside
      · exact .inr (inductionHypothesis later)

/-- Items with the key's mark in front were not put there. -/
theorem TakenBack.split_after {block : List (Cell α (Option (List α)))}
    (taken : TakenBack key gone before (block ++ after))
    (full : ∀ cell ∈ block, cell.mark = some key)
    (spared : ∀ entry ∈ gone, ∀ cell ∈ entry.matched, cell.mark ≠ some key) :
    ∃ rest, before = block ++ rest := by
  induction block generalizing before with
  | nil => exact ⟨before, rfl⟩
  | cons cell block inductionHypothesis =>
      generalize whole : cell :: block ++ after = target at taken
      cases taken with
      | nil => contradiction
      | keep kept _ remaining =>
          obtain ⟨rfl, rfl⟩ := List.cons.inj whole
          obtain ⟨rest, rfl⟩ := inductionHypothesis remaining fun other member =>
            full other (List.mem_cons_of_mem _ member)
          exact ⟨rest, rfl⟩
      | @swap matched _ _ _ nonempty _ =>
          obtain ⟨first, others, rfl⟩ := List.exists_cons_of_ne_nil nonempty
          obtain ⟨rfl, _⟩ := List.cons.inj whole
          exact absurd (full _ List.mem_cons_self)
            (spared _ List.mem_cons_self _ List.mem_cons_self)

/-- A key none of which was replaced by itself is gone. -/
theorem TakenBack.absent (taken : TakenBack key gone before after) (nonempty : key ≠ [])
    (spared : ∀ entry ∈ gone, ∀ cell ∈ entry.matched, cell.mark ≠ some key) (front) (back) :
    after ≠ front ++ (stamp (some key) key ++ back) := by
  have stampNonempty : stamp (some key) key ≠ [] := by
    simpa [stamp] using nonempty
  induction taken generalizing front with
  | nil =>
      intro equal
      exact stampNonempty (List.append_eq_nil_iff.mp (List.append_eq_nil_iff.mp equal.symm).2).1
  | @keep cell _ before after free taken inductionHypothesis =>
      intro equal
      cases front with
      | nil =>
          obtain ⟨item, tail, rfl⟩ := List.exists_cons_of_ne_nil nonempty
          rw [List.nil_append, stamp_cons, List.cons_append] at equal
          obtain ⟨rfl, rfl⟩ := List.cons.inj equal
          obtain ⟨rest, rfl⟩ := taken.split_after (fun other member => (mem_stamp member).1) spared
          refine free ⟨items rest, ?_⟩
          simp
      | cons first front =>
          obtain ⟨rfl, remaining⟩ := List.cons.inj equal
          exact inductionHypothesis spared front remaining
  | @swap matched _ _ _ _ _ inductionHypothesis =>
      intro equal
      have disjoint : matched.Disjoint (stamp (some key) key) := fun cell inMatched inStamp =>
        spared _ List.mem_cons_self cell inMatched (mem_stamp inStamp).1
      obtain ⟨middle, rfl, remaining⟩ := exists_behind disjoint stampNonempty equal
      exact inductionHypothesis (fun entry member => spared entry (List.mem_cons_of_mem _ member))
        middle remaining

variable [DecidableEq α]

/-- Taking a key back is replacing it by what it stands for. -/
theorem TakenBack.items_eq {original : List α} (taken : TakenBack key gone before after)
    (nonempty : key ≠ []) (means : ∀ entry ∈ gone, items entry.matched = original) :
    items after = replaceAll key original (items before) := by
  induction taken with
  | nil => rfl
  | keep cell free _ inductionHypothesis =>
      rw [items_cons] at free
      rw [items_cons, inductionHypothesis means, items_cons, replaceAll_cons free]
  | swap _ _ inductionHypothesis =>
      rw [items_append, inductionHypothesis fun entry member =>
        means entry (List.mem_cons_of_mem _ member), items_append, items_stamp,
        replaceAll_append_self nonempty, means _ List.mem_cons_self]

/-- A key can be taken back from whatever has grown. -/
theorem Grown.exists_takenBack (grown : Grown left right base record (front ++ cells))
    (fenced : Fenced left right key) (absent : ¬key <:+: base) :
    ∃ gone earlier after, TakenBack key gone cells after ∧ record.Perm (gone ++ earlier) ∧
      Grown left right base earlier (front ++ after) := by
  induction cells using scan_induction (onItems (occurs key)) generalizing front record with
  | nil => exact ⟨[], record, [], .nil, List.Perm.refl _, grown⟩
  | keep cell rest nothing inductionHypothesis =>
      have free : ¬key <+: items (cell :: rest) := by
        intro isPrefix
        rw [onItems, occurs, if_pos isPrefix] at nothing
        exact fenced.ne_nil (List.eq_nil_of_length_eq_zero nothing)
      have shifted : Grown left right base record ((front ++ [cell]) ++ rest) := by
        simpa using grown
      obtain ⟨gone, earlier, after, taken, perm, before⟩ := inductionHypothesis shifted
      exact ⟨gone, earlier, cell :: after, .keep cell free taken, perm, by simpa using before⟩
  | hit cell rest count found inductionHypothesis =>
      have isPrefix : key <+: items (cell :: rest) ∧ key.length = count + 1 := by
        rw [onItems, occurs] at found
        split at found
        next isPrefix => exact ⟨isPrefix, found⟩
        next => contradiction
      have spells : items (cell :: rest.take count) = key := by
        have same := List.prefix_iff_eq_take.mp isPrefix.1
        rw [isPrefix.2] at same
        rw [same, items_cons, items_cons, items_take, List.take_succ_cons]
      have whole : cell :: rest = (cell :: rest.take count) ++ rest.drop count := by
        rw [List.cons_append, List.take_append_drop]
      rw [whole] at grown
      obtain ⟨stamped, matched, record', nonempty, perm, before⟩ :=
        grown.take_back spells fenced absent
      rw [← List.append_assoc] at before
      obtain ⟨gone, earlier, after, taken, permLater, beforeAll⟩ := inductionHypothesis before
      refine ⟨⟨key, matched⟩ :: gone, earlier, matched ++ after, ?_,
        perm.trans (permLater.cons _), by simpa using beforeAll⟩
      rw [whole, stamped]
      exact .swap nonempty taken

end TakingBack

/-! ## Taking all keys back -/

/-- A key comes before all keys of which it replaced a piece. -/
def InOrder (keys : List (List α)) (record : List (Entry α)) : Prop :=
  ∀ entry ∈ record, ∀ cell ∈ entry.matched, ∀ key, cell.mark = some key →
    [entry.key, key].Sublist keys

/-- Every key on record means what it replaced. -/
def Meant (meaning : List α → Option (List α)) (record : List (Entry α)) : Prop :=
  ∀ entry ∈ record, meaning entry.key = some (items entry.matched)

/-- Keys with a meaning are fenced and not in the base. -/
def Foreign (left right : α) (base : List α) (meaning : List α → Option (List α)) : Prop :=
  ∀ key content, meaning key = some content → Fenced left right key ∧ ¬key <:+: base

section Restoring

variable [DecidableEq α] {left right : α} {base : List α} {meaning : List α → Option (List α)}
  {record : List (Entry α)} {cells : List (Cell α (Option (List α)))} {key : List α}
  {keys : List (List α)}

/-- Replacing one key by its meaning takes it back. -/
theorem Grown.restore_one (grown : Grown left right base record cells)
    (foreign : Foreign left right base meaning) (means : Meant meaning record) {original : List α}
    (known : meaning key = some original) (keys : List (List α)) :
    ∃ gone earlier after, TakenBack key gone cells after ∧ record.Perm (gone ++ earlier) ∧
      Grown left right base earlier after ∧
      restoreAll meaning (key :: keys) (items cells) = restoreAll meaning keys (items after) := by
  obtain ⟨fenced, absent⟩ := foreign key original known
  have started : Grown left right base record ([] ++ cells) := grown
  obtain ⟨gone, earlier, after, taken, perm, before⟩ := started.exists_takenBack fenced absent
  refine ⟨gone, earlier, after, taken, perm, before, ?_⟩
  have replaced : items after = replaceAll key original (items cells) := by
    refine taken.items_eq fenced.ne_nil fun entry member => ?_
    have meant := means entry (perm.mem_iff.mpr (List.mem_append_left _ member))
    rw [taken.key_eq member, known] at meant
    exact (Option.some.inj meant).symm
  rw [replaced, restoreAll, List.foldl_cons, known, restoreAll]

/-- If the base comes back, every key was taken, and in order. -/
theorem Grown.inOrder_of_restoreAll (grown : Grown left right base record cells)
    (foreign : Foreign left right base meaning) (means : Meant meaning record)
    (known : ∀ key ∈ keys, ∃ content, meaning key = some content)
    (restored : restoreAll meaning keys (items cells) = base) :
    (∀ entry ∈ record, entry.key ∈ keys) ∧ InOrder keys record := by
  induction keys generalizing record cells with
  | nil =>
      cases record with
      | nil => exact ⟨fun _ member => absurd member List.not_mem_nil,
          fun _ member => absurd member List.not_mem_nil⟩
      | cons entry record =>
          have still := grown.last_infix
          rw [restoreAll, List.foldl_nil] at restored
          rw [restored] at still
          exact absurd still (foreign _ _ (means entry List.mem_cons_self)).2
  | cons key keys inductionHypothesis =>
      obtain ⟨original, isKnown⟩ := known key List.mem_cons_self
      obtain ⟨gone, earlier, after, taken, perm, before, step⟩ :=
        grown.restore_one foreign means isKnown keys
      rw [step] at restored
      have meansEarlier : Meant meaning earlier := fun entry member =>
        means entry (perm.mem_iff.mpr (List.mem_append_right _ member))
      obtain ⟨complete, ordered⟩ := inductionHypothesis before meansEarlier
        (fun other member => known other (List.mem_cons_of_mem _ member)) restored
      constructor
      · intro entry member
        rcases List.mem_append.mp (perm.mem_iff.mp member) with isGone | isEarlier
        · rw [taken.key_eq isGone]
          exact List.mem_cons_self
        · exact List.mem_cons_of_mem _ (complete entry isEarlier)
      · intro entry member cell inside other mark
        rcases List.mem_append.mp (perm.mem_iff.mp member) with isGone | isEarlier
        · -- What this key replaced stands there again, so its marks are taken later.
          obtain ⟨source, onRecord, rfl⟩ :=
            before.mark_on_record (taken.mem_after isGone inside) mark
          rw [taken.key_eq isGone]
          exact (List.singleton_sublist.mpr (complete source onRecord)).cons_cons key
        · exact (ordered entry isEarlier cell inside other mark).cons key

/-- If every key is taken in order, the base comes back. -/
theorem Grown.restoreAll_eq (grown : Grown left right base record cells)
    (foreign : Foreign left right base meaning) (means : Meant meaning record)
    (known : ∀ key ∈ keys, ∃ content, meaning key = some content) (distinct : keys.Nodup)
    (complete : ∀ entry ∈ record, entry.key ∈ keys) (ordered : InOrder keys record) :
    restoreAll meaning keys (items cells) = base := by
  induction keys generalizing record cells with
  | nil =>
      cases grown with
      | base => exact items_stamp none base
      | put => exact absurd (complete _ List.mem_cons_self) List.not_mem_nil
  | cons key keys inductionHypothesis =>
      obtain ⟨original, isKnown⟩ := known key List.mem_cons_self
      obtain ⟨fenced, _⟩ := foreign key original isKnown
      obtain ⟨gone, earlier, after, taken, perm, before, step⟩ :=
        grown.restore_one foreign means isKnown keys
      obtain ⟨isFirst, distinctRest⟩ := List.nodup_cons.mp distinct
      -- Nothing replaced a piece of the first key, so all of it is taken back.
      have spared : ∀ entry ∈ record, ∀ cell ∈ entry.matched, cell.mark ≠ some key := by
        intro entry member cell inside mark
        rcases List.sublist_cons_iff.mp (ordered entry member cell inside key mark) with
          later | ⟨rest, split, later⟩
        · exact isFirst (later.subset (by simp))
        · obtain ⟨_, rfl⟩ := List.cons.inj split
          exact isFirst (later.subset List.mem_cons_self)
      have sparedGone : ∀ entry ∈ gone, ∀ cell ∈ entry.matched, cell.mark ≠ some key :=
        fun entry member => spared entry (perm.mem_iff.mpr (List.mem_append_left _ member))
      have isEarlier : ∀ entry ∈ earlier, entry ∈ record := fun entry member =>
        perm.mem_iff.mpr (List.mem_append_right _ member)
      have others : ∀ entry ∈ earlier, entry.key ≠ key := by
        intro entry member same
        obtain ⟨front, back, split⟩ := before.exists_whole ⟨entry, member, same⟩ fenced
          fun other inside => spared other (isEarlier other inside)
        exact taken.absent fenced.ne_nil sparedGone front back split
      rw [step]
      refine inductionHypothesis before (fun entry member => means entry (isEarlier entry member))
        (fun other member => known other (List.mem_cons_of_mem _ member)) distinctRest ?_ ?_
      · intro entry member
        exact (List.mem_cons.mp (complete entry (isEarlier entry member))).resolve_left
          (others entry member)
      · intro entry member cell inside other mark
        rcases List.sublist_cons_iff.mp
          (ordered entry (isEarlier entry member) cell inside other mark) with
          later | ⟨rest, split, _⟩
        · exact later
        · exact absurd (List.cons.inj split).1 (others entry member)

/-- **Undoing growth.**  Replacing all keys by what they stand for, one after
the other, gives the base back exactly when every key comes before the keys of
which it replaced a piece. -/
theorem Grown.restoreAll_eq_iff (grown : Grown left right base record cells)
    (foreign : Foreign left right base meaning) (means : Meant meaning record)
    (known : ∀ key ∈ keys, ∃ content, meaning key = some content) (distinct : keys.Nodup)
    (complete : ∀ entry ∈ record, entry.key ∈ keys) :
    restoreAll meaning keys (items cells) = base ↔ InOrder keys record := by
  constructor
  · intro restored
    exact (grown.inOrder_of_restoreAll foreign means known restored).2
  · intro ordered
    exact grown.restoreAll_eq foreign means known distinct complete ordered

end Restoring

end ZkLlmGateway.Matching
