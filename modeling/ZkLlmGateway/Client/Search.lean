import ZkLlmGateway.Client.MemoryStore
import Mathlib.Algebra.Order.BigOperators.Group.List
import Mathlib.Analysis.SpecialFunctions.Log.Basic

/-!
# What a search finds

In an index that is exact a search never panics.  It finds the documents that pass
the filters and share a token with the query, ranked by BM25, and keeps the best.
-/

namespace ZkLlmGateway.Client

open ZkLlmGateway.Encoding ZkLlmGateway.Common ZkLlmGateway.Ranking

/-- The filters let a document through. -/
def admits (kindFilter : Option DocKind) (excludeMessagesFromIndex : Option Nat)
    (doc : StoredDoc) : Bool :=
  kindFilter.all (fun kind => doc.kind = kind) &&
    !excludeMessagesFromIndex.any fun cutoff =>
      doc.kind = .message && doc.msgIndex.any fun mi => decide (cutoff ≤ mi)

theorem admits_iff {kindFilter : Option DocKind} {excludeMessagesFromIndex : Option Nat}
    {doc : StoredDoc} :
    admits kindFilter excludeMessagesFromIndex doc = true ↔
      (∀ kind ∈ kindFilter, doc.kind = kind) ∧
        ∀ cutoff ∈ excludeMessagesFromIndex, doc.kind = .message →
          ∀ mi ∈ doc.msgIndex, mi < cutoff := by
  simp [admits, Option.all_eq_true, Option.any_eq_false]

/-! ## BM25 -/

section Relevance

variable {F : Type} [Zero F] [One F] [Add F] [Sub F] [Mul F] [Div F] [NatCast F] [LinearOrder F]
  (library : IndexLibrary F) (docs : List StoredDoc)

/-- In how many documents a token is. -/
def documentFrequency (unicode : Unicode) (term : Text) : Nat :=
  docs.countP fun doc => term ∈ tokensOf unicode doc

/-- How rare a token is. -/
def inverseFrequency (term : Text) : F :=
  let nDocs : F := (docs.length : Nat)
  let df : F := (documentFrequency docs library.unicode term : Nat)
  MemoryStore.inverseFrequencyOf library.ln nDocs df

/-- How much of a document a token is, with the constants of a new index. -/
def saturation (doc : StoredDoc) (term : Text) : F :=
  let k1 := (MemoryStore.new : MemoryStore F).k1
  let b := (MemoryStore.new : MemoryStore F).b
  let tf : F := (frequency (tokensOf library.unicode doc) term : Nat)
  let dl : F := (max (tokensOf library.unicode doc).length 1 : Nat)
  let avgdl : F := max (MemoryStore.averageLength library.unicode docs) 1
  tf * (k1 + 1) / (tf + k1 * (1 - b + b * (dl / avgdl)))

/-- The relevance of a document for a query: the tokens they share, added up. -/
def bm25 (query : Text) (doc : StoredDoc) : F :=
  addUp (((library.unicode.tokenizeQuery query).filter fun term =>
    term ∈ tokensOf library.unicode doc).map fun term =>
      inverseFrequency library docs term * saturation library docs doc term)

/-- A document that a search can find. -/
structure Eligible (query : Text) (kindFilter : Option DocKind)
    (excludeMessagesFromIndex : Option Nat) (doc : StoredDoc) : Prop where
  ofKind : ∀ kind ∈ kindFilter, doc.kind = kind
  before : ∀ cutoff ∈ excludeMessagesFromIndex, doc.kind = .message →
    ∀ mi ∈ doc.msgIndex, mi < cutoff
  shares : ∃ term ∈ library.unicode.tokenizeQuery query, term ∈ tokensOf library.unicode doc

/-- The best of the eligible documents, with their relevance. -/
structure Answers (query : Text) (limit : Nat) (kindFilter : Option DocKind)
    (excludeMessagesFromIndex : Option Nat) (hits : List (SearchResult F)) : Prop where
  short : hits.length ≤ limit
  falling : hits.Pairwise fun left right => right.score ≤ left.score
  positive : ∀ hit ∈ hits, 0 < hit.score
  /-- The hits are different documents, and those left out score no higher. -/
  picks : ∃ indices : List Nat, indices.Nodup ∧
    List.Forall₂ (fun idx hit => docs[idx]? = some hit.doc ∧
      Eligible library query kindFilter excludeMessagesFromIndex hit.doc ∧
      hit.score = bm25 library docs query hit.doc) indices hits ∧
    ∀ idx doc, docs[idx]? = some doc →
      Eligible library query kindFilter excludeMessagesFromIndex doc → idx ∉ indices →
      hits.length = limit ∧ ∀ hit ∈ hits, bm25 library docs query doc ≤ hit.score

variable {library docs}

/-- What a search finds is an eligible document, with its relevance. -/
theorem Answers.of_mem {query : Text} {limit : Nat} {kindFilter : Option DocKind}
    {excludeMessagesFromIndex : Option Nat} {hits : List (SearchResult F)}
    (answers : Answers library docs query limit kindFilter excludeMessagesFromIndex hits)
    {hit : SearchResult F} (member : hit ∈ hits) :
    hit.doc ∈ docs ∧ Eligible library query kindFilter excludeMessagesFromIndex hit.doc ∧
      hit.score = bm25 library docs query hit.doc := by
  obtain ⟨indices, _, isPicked, _⟩ := answers.picks
  obtain ⟨i, inside, rfl⟩ := List.mem_iff_getElem.mp member
  obtain ⟨isAt, isEligible, isScore⟩ := (List.forall₂_iff_get.mp isPicked).2 i
    (by rw [isPicked.length_eq]; exact inside) inside
  exact ⟨List.mem_of_getElem? isAt, isEligible, isScore⟩

end Relevance

section Positive

variable {F : Type} [Field F] [LinearOrder F] [IsStrictOrderedRing F] {library : IndexLibrary F}
  {docs : List StoredDoc} {query term : Text} {doc : StoredDoc}

theorem inverseFrequency_pos (library : IndexLibrary F) (docs : List StoredDoc) (term : Text) :
    0 < inverseFrequency library docs term := by
  have few : (documentFrequency docs library.unicode term : F) ≤ (docs.length : F) :=
    Nat.cast_le.mpr List.countP_le_length
  have count : (0 : F) ≤ (documentFrequency docs library.unicode term : F) := Nat.cast_nonneg _
  refine library.ln_pos _ (lt_add_of_pos_left 1 (div_pos ?_ ?_))
  · linarith
  · linarith

theorem frequency_pos {tokens : List Text} (inside : term ∈ tokens) : 0 < frequency tokens term :=
  List.countP_pos_iff.mpr ⟨term, inside, decide_eq_true rfl⟩

theorem saturation_pos (library : IndexLibrary F) (docs : List StoredDoc)
    (inside : term ∈ tokensOf library.unicode doc) : 0 < saturation library docs doc term := by
  have isFrequent : (0 : F) < (frequency (tokensOf library.unicode doc) term : F) :=
    Nat.cast_pos.mpr (frequency_pos inside)
  have isLong : (0 : F) ≤ (max (tokensOf library.unicode doc).length 1 : Nat) := Nat.cast_nonneg _
  have average : (0 : F) < max (MemoryStore.averageLength library.unicode docs) 1 :=
    lt_max_of_lt_right one_pos
  have ratio := div_nonneg isLong average.le
  have isK1 : (MemoryStore.new : MemoryStore F).k1 = 6 / 5 := rfl
  have isB : (MemoryStore.new : MemoryStore F).b = 3 / 4 := rfl
  rw [saturation, isK1, isB]
  refine div_pos (mul_pos isFrequent (by norm_num)) (add_pos isFrequent (mul_pos (by norm_num) ?_))
  linarith

/-- A document that shares a token is relevant. -/
theorem bm25_pos (shares : ∃ term ∈ library.unicode.tokenizeQuery query,
    term ∈ tokensOf library.unicode doc) : 0 < bm25 library docs query doc := by
  obtain ⟨term, inQuery, inside⟩ := shares
  rw [bm25, addUp_eq_sum]
  refine List.sum_pos _ (fun weight member => ?_) ?_
  · obtain ⟨other, isShared, rfl⟩ := List.mem_map.mp member
    have inDoc := of_decide_eq_true (List.mem_filter.mp isShared).2
    exact mul_pos (inverseFrequency_pos library docs other) (saturation_pos library docs inDoc)
  · rw [ne_eq, List.map_eq_nil_iff]
    exact List.ne_nil_of_mem (List.mem_filter.mpr ⟨inQuery, decide_eq_true inside⟩)

end Positive

/-! ## The scoring loops -/

/-- Only nothing counts as zero. -/
class Counts (F : Type) [Zero F] [NatCast F] : Prop where
  eq_zero : ∀ {count : Nat}, (count : F) = 0 → count = 0

instance {F : Type} [Field F] [LinearOrder F] [IsStrictOrderedRing F] : Counts F where
  eq_zero := Nat.cast_eq_zero.mp

namespace MemoryStore

section Scoring

variable {F : Type} [Zero F] [One F] [Add F] [Sub F] [Mul F] [Div F] [NatCast F] [LinearOrder F]
  {library : IndexLibrary F} {store : MemoryStore F}
  {kindFilter : Option DocKind} {excludeMessagesFromIndex : Option Nat} {query term : Text}

/-- The filters at a position of the index. -/
def admitsAt (store : MemoryStore F) (kindFilter : Option DocKind)
    (excludeMessagesFromIndex : Option Nat) (idx : Nat) : Bool :=
  (store.docs[idx]?).any (admits kindFilter excludeMessagesFromIndex)

/-- What a posting of a token adds. -/
def weight (library : IndexLibrary F) (store : MemoryStore F) (term : Text) (posting : Nat × Nat) :
    F :=
  store.contribution (max store.avgDocLen 1) (inverseFrequency library store.docs term) posting

/-- The map of scores when all tokens of a query had their turn. -/
def scores (library : IndexLibrary F) (store : MemoryStore F) (query : Text)
    (kindFilter : Option DocKind) (excludeMessagesFromIndex : Option Nat) : List (Nat × F) :=
  tally (credits (contents library.unicode store.docs)
    (store.admitsAt kindFilter excludeMessagesFromIndex) (store.weight library)
    (library.unicode.tokenizeQuery query))

omit [Zero F] [One F] [Add F] [Sub F] [Mul F] [Div F] [NatCast F] [LinearOrder F] in
theorem skips_eq {idx : Nat} {doc : StoredDoc} (isAt : store.docs[idx]? = some doc) :
    store.skips kindFilter excludeMessagesFromIndex idx =
      some (!admits kindFilter excludeMessagesFromIndex doc) := by
  obtain ⟨shown, kind, id, createdAtMs, msgIndex⟩ := doc
  have decided : ∀ cutoff mi : Nat, (if cutoff ≤ mi then some true else some false) =
      some (decide (cutoff ≤ mi)) := by
    intro cutoff mi
    split <;> simp [*]
  simp only [skips, admits, isAt]
  cases kindFilter with
  | none =>
      cases excludeMessagesFromIndex with
      | none => rfl
      | some cutoff => cases kind <;> cases msgIndex <;> simp [decided]
  | some wanted =>
      by_cases same : kind = wanted
      · subst same
        cases excludeMessagesFromIndex with
        | none => simp
        | some cutoff => cases kind <;> cases msgIndex <;> simp [decided]
      · simp [same]

omit [LinearOrder F] in
theorem scorePosting_eq {avgdl idf : F} {posting : Nat × Nat}
    (inRange : posting.1 < store.docs.length) (totals : List (Nat × F)) :
    store.scorePosting kindFilter excludeMessagesFromIndex avgdl idf totals posting =
      some (if store.admitsAt kindFilter excludeMessagesFromIndex posting.1 then
        credit posting.1 (store.contribution avgdl idf posting) totals else totals) := by
  have isAt := List.getElem?_eq_getElem inRange
  rw [scorePosting, skips_eq isAt, admitsAt, isAt, Option.any_some]
  cases admits kindFilter excludeMessagesFromIndex store.docs[posting.1] <;> rfl

omit [LinearOrder F] in
/-- The postings of a token are credited one after the other. -/
theorem foldlM_scorePosting {avgdl idf : F} {postings : List (Nat × Nat)}
    (inRange : ∀ posting ∈ postings, posting.1 < store.docs.length) (totals : List (Nat × F)) :
    postings.foldlM (store.scorePosting kindFilter excludeMessagesFromIndex avgdl idf) totals =
      some (((postings.filter fun posting =>
          store.admitsAt kindFilter excludeMessagesFromIndex posting.1).map fun posting =>
        (posting.1, store.contribution avgdl idf posting)).foldl
          (fun totals entry => credit entry.1 entry.2 totals) totals) := by
  induction postings generalizing totals with
  | nil => rfl
  | cons posting postings inductionHypothesis =>
      have rest := inductionHypothesis fun other member =>
        inRange other (List.mem_cons_of_mem posting member)
      rw [List.foldlM_cons, scorePosting_eq (inRange posting List.mem_cons_self)]
      apply (rest _).trans
      cases isAdmitted : store.admitsAt kindFilter excludeMessagesFromIndex posting.1 <;>
        simp [isAdmitted]

/-- The result at an entry of the scores. -/
def resultOf (store : MemoryStore F) (entry : Nat × F) : SearchResult F :=
  ⟨entry.2, store.docs.getD entry.1 default⟩

omit [Zero F] [One F] [Add F] [Sub F] [Mul F] [Div F] [NatCast F] [LinearOrder F] in
theorem mapM_resultOf {entries : List (Nat × F)}
    (inRange : ∀ entry ∈ entries, entry.1 < store.docs.length) :
    entries.mapM (fun (idx, score) =>
      (store.docs[idx]?).map fun doc => (⟨score, doc⟩ : SearchResult F)) =
        some (entries.map store.resultOf) := by
  induction entries with
  | nil => rfl
  | cons entry entries inductionHypothesis =>
      have isAt := List.getElem?_eq_getElem (inRange entry List.mem_cons_self)
      rw [List.mapM_cons, inductionHypothesis fun other member =>
        inRange other (List.mem_cons_of_mem entry member)]
      simp [isAt, resultOf]

/-- What the tokens of a query credit a document with is its relevance. -/
theorem score_eq_bm25 (exact : Exact library.unicode store) {idx : Nat} {doc : StoredDoc}
    (isAt : store.docs[idx]? = some doc) :
    Ranking.score (store.weight library) (library.unicode.tokenizeQuery query) idx
        (tokensOf library.unicode doc) = bm25 library store.docs query doc := by
  have length : store.docLen[idx]? = some (max (tokensOf library.unicode doc).length 1) := by
    rw [exact.docLen, List.getElem?_map, isAt, Option.map_some]
  have isWeight : ∀ term, store.weight library term (idx, frequency (tokensOf library.unicode doc)
      term) = inverseFrequency library store.docs term *
      saturation library store.docs doc term := by
    intro term
    have isK1 : store.k1 = (MemoryStore.new : MemoryStore F).k1 := exact.k1
    have isB : store.b = (MemoryStore.new : MemoryStore F).b := exact.b
    rw [weight, contribution, saturation]
    simp only [length, Option.getD_some, isK1, isB, exact.avgDocLen]
  simp only [Ranking.score, bm25, isWeight]
  refine congrArg addUp (congrArg (List.map _) (List.filter_congr fun term _ => ?_))
  exact decide_eq_decide.mpr Iff.rfl

/-- The entries of the scores: the documents that are found, with their relevance. -/
theorem mem_scores_iff (exact : Exact library.unicode store) {idx : Nat} {value : F} :
    (idx, value) ∈ store.scores library query kindFilter excludeMessagesFromIndex ↔
      ∃ doc, store.docs[idx]? = some doc ∧
        Eligible library query kindFilter excludeMessagesFromIndex doc ∧
        value = bm25 library store.docs query doc := by
  rw [scores, (accounts_tally _).mem, mem_keys_credits_iff]
  simp only [contents, List.getElem?_map, Option.map_eq_some_iff]
  constructor
  · rintro ⟨⟨isAdmitted, _, ⟨doc, isAt, rfl⟩, shares⟩, rfl⟩
    have isContent : (contents library.unicode store.docs)[idx]? =
        some (tokensOf library.unicode doc) := by
      rw [contents, List.getElem?_map, isAt, Option.map_some]
    have filters := isAdmitted
    rw [admitsAt, isAt, Option.any_some, admits_iff] at filters
    exact ⟨doc, isAt, ⟨filters.1, filters.2, shares⟩,
      (total_credits isAdmitted isContent _ _).trans (score_eq_bm25 exact isAt)⟩
  · rintro ⟨doc, isAt, ⟨ofKind, before, shares⟩, rfl⟩
    have isContent : (contents library.unicode store.docs)[idx]? =
        some (tokensOf library.unicode doc) := by
      rw [contents, List.getElem?_map, isAt, Option.map_some]
    have isAdmitted : store.admitsAt kindFilter excludeMessagesFromIndex idx = true := by
      rw [admitsAt, isAt, Option.any_some, admits_iff]
      exact ⟨ofKind, before⟩
    exact ⟨⟨isAdmitted, _, ⟨doc, isAt, rfl⟩, shares⟩,
      ((total_credits isAdmitted isContent _ _).trans (score_eq_bm25 exact isAt)).symm⟩

theorem nodup_scores (library : IndexLibrary F) (store : MemoryStore F) (query : Text)
    (kindFilter : Option DocKind) (excludeMessagesFromIndex : Option Nat) :
    ((store.scores library query kindFilter excludeMessagesFromIndex).map Prod.fst).Nodup :=
  (accounts_tally _).nodup

variable [Counts F]

theorem scoreTerm_eq (exact : Exact library.unicode store) (totals : List (Nat × F)) :
    store.scoreTerm library.ln kindFilter excludeMessagesFromIndex totals term =
      some ((credits (contents library.unicode store.docs)
        (store.admitsAt kindFilter excludeMessagesFromIndex) (store.weight library) [term]).foldl
          (fun totals entry => credit entry.1 entry.2 totals) totals) := by
  have postings : store.inverted term = occurrences (contents library.unicode store.docs) term :=
    congrFun exact.inverted term
  have frequent : (store.inverted term).length =
      documentFrequency store.docs library.unicode term := by
    rw [postings, length_occurrences, contents, List.countP_map]
    exact List.countP_congr fun doc _ => by simp
  have isIdf : inverseFrequency library store.docs term =
      inverseFrequencyOf library.ln ((store.docs.length : Nat) : F)
        ((store.inverted term).length : Nat) := by
    rw [frequent]
    rfl
  rw [scoreTerm, credits, List.flatMap_singleton]
  simp only [← isIdf]
  split
  next isZero =>
    have isEmpty := Counts.eq_zero isZero
    rw [postings] at isEmpty
    rw [List.eq_nil_of_length_eq_zero isEmpty]
    rfl
  next =>
    rw [foldlM_scorePosting fun posting => exact.indexes.inRange term posting, postings]
    rfl

/-- The tokens of a query have their turn one after the other. -/
theorem foldlM_scoreTerm (exact : Exact library.unicode store) (terms : List Text)
    (totals : List (Nat × F)) :
    terms.foldlM (store.scoreTerm library.ln kindFilter excludeMessagesFromIndex) totals =
      some ((credits (contents library.unicode store.docs)
        (store.admitsAt kindFilter excludeMessagesFromIndex) (store.weight library) terms).foldl
          (fun totals entry => credit entry.1 entry.2 totals) totals) := by
  induction terms generalizing totals with
  | nil => rfl
  | cons term terms inductionHypothesis =>
      have split : credits (contents library.unicode store.docs)
          (store.admitsAt kindFilter excludeMessagesFromIndex) (store.weight library)
            (term :: terms) =
          credits (contents library.unicode store.docs)
            (store.admitsAt kindFilter excludeMessagesFromIndex) (store.weight library) [term] ++
          credits (contents library.unicode store.docs)
            (store.admitsAt kindFilter excludeMessagesFromIndex) (store.weight library) terms := by
        simp [credits]
      rw [List.foldlM_cons, scoreTerm_eq exact, split, List.foldl_append]
      exact inductionHypothesis _

/-- **A search keeps the best of the scores**, and never panics. -/
theorem search_eq (exact : Exact library.unicode store) (order : HashOrder Nat F) (limit : Nat) :
    store.search library order query limit kindFilter excludeMessagesFromIndex =
      some ((top Prod.snd limit (order.iterate
        (store.scores library query kindFilter excludeMessagesFromIndex))).map store.resultOf) := by
  have perm := order.perm (store.scores library query kindFilter excludeMessagesFromIndex)
  have nothing : store.scores library query kindFilter excludeMessagesFromIndex = [] →
      some [] = some ((top Prod.snd limit (order.iterate
        (store.scores library query kindFilter excludeMessagesFromIndex))).map store.resultOf) := by
    intro isNil
    rw [isNil] at perm ⊢
    rw [perm.eq_nil, top_nil, List.map_nil]
  rw [search]
  split
  next isZero => rw [isZero, top, List.take_zero, List.map_nil]
  next =>
    simp only
    split
    next isEmpty =>
      apply nothing
      rw [scores, List.isEmpty_iff.mp isEmpty]
      rfl
    next =>
      split
      next isEmpty =>
        have noDocs : store.docs = [] := List.eq_nil_of_length_eq_zero (Counts.eq_zero isEmpty)
        refine nothing (List.eq_nil_iff_forall_not_mem.mpr fun entry member => ?_)
        obtain ⟨doc, isAt, _⟩ := (mem_scores_iff exact).mp member
        rw [noDocs] at isAt
        contradiction
      next =>
        have inRange : ∀ entry ∈ order.iterate
            (store.scores library query kindFilter excludeMessagesFromIndex),
            entry.1 < store.docs.length := by
          intro entry member
          obtain ⟨doc, isAt, _⟩ := (mem_scores_iff exact).mp (perm.mem_iff.mp member)
          exact (List.getElem?_eq_some_iff.mp isAt).1
        have credited : (library.unicode.tokenizeQuery query).foldlM
            (store.scoreTerm library.ln kindFilter excludeMessagesFromIndex) [] =
              some (store.scores library query kindFilter excludeMessagesFromIndex) :=
          foldlM_scoreTerm exact _ []
        rw [credited, Option.bind_eq_bind, Option.bind_some, mapM_resultOf inRange,
          Option.bind_eq_bind, Option.bind_some]
        exact congrArg some (top_map store.resultOf (fun entry => rfl) limit _).symm

end Scoring

section Exact

variable {F : Type} [Field F] [LinearOrder F] [IsStrictOrderedRing F] {library : IndexLibrary F}
  {store : MemoryStore F}

/-- An exact index answers every query. -/
theorem search_answers (exact : Exact library.unicode store) (order : HashOrder Nat F)
    (query : Text) (limit : Nat) (kindFilter : Option DocKind)
    (excludeMessagesFromIndex : Option Nat) :
    ∃ hits, store.search library order query limit kindFilter excludeMessagesFromIndex =
        some hits ∧
      Answers library store.docs query limit kindFilter excludeMessagesFromIndex hits := by
  have perm := order.perm (store.scores library query kindFilter excludeMessagesFromIndex)
  have nodup := nodup_scores library store query kindFilter excludeMessagesFromIndex
  obtain ⟨entries, isEntries⟩ : ∃ entries, entries = order.iterate
    (store.scores library query kindFilter excludeMessagesFromIndex) := ⟨_, rfl⟩
  refine ⟨_, search_eq exact order limit, ?_⟩
  rw [← isEntries] at perm ⊢
  have ofEntry : ∀ entry ∈ entries, ∃ doc, store.docs[entry.1]? = some doc ∧
      Eligible library query kindFilter excludeMessagesFromIndex doc ∧
      entry.2 = bm25 library store.docs query doc := fun entry member =>
    (mem_scores_iff exact).mp (perm.mem_iff.mp member)
  have nodupEntries : (entries.map Prod.fst).Nodup := (perm.map Prod.fst).nodup_iff.mpr nodup
  have ofResult : ∀ entry ∈ top Prod.snd limit entries,
      store.docs[entry.1]? = some (store.resultOf entry).doc ∧
        Eligible library query kindFilter excludeMessagesFromIndex (store.resultOf entry).doc ∧
        (store.resultOf entry).score =
        bm25 library store.docs query (store.resultOf entry).doc := by
    intro entry member
    obtain ⟨doc, isAt, eligible, isScore⟩ := ofEntry entry (mem_of_mem_top member)
    have isDoc : (store.resultOf entry).doc = doc := by
      rw [resultOf, List.getD_eq_getElem?_getD, isAt, Option.getD_some]
    rw [isDoc]
    exact ⟨isAt, eligible, isScore⟩
  refine ⟨?_, ?_, ?_, (top Prod.snd limit entries).map Prod.fst, ?_, ?_, ?_⟩
  · rw [List.length_map]
    exact length_top_le Prod.snd limit entries
  · rw [List.pairwise_map]
    exact pairwise_top Prod.snd limit entries
  · intro hit member
    obtain ⟨entry, isEntry, rfl⟩ := List.mem_map.mp member
    obtain ⟨_, eligible, isScore⟩ := ofResult entry isEntry
    rw [isScore]
    exact bm25_pos eligible.shares
  · exact nodup_map_top nodupEntries
  · rw [List.forall₂_map_left_iff, List.forall₂_map_right_iff, List.forall₂_same]
    exact ofResult
  · intro idx doc isAt eligible leftOut
    have isEntry : (idx, bm25 library store.docs query doc) ∈ entries :=
      perm.mem_iff.mpr ((mem_scores_iff exact).mpr ⟨doc, isAt, eligible, rfl⟩)
    have notTop : (idx, bm25 library store.docs query doc) ∉ top Prod.snd limit entries :=
      fun member => leftOut (List.mem_map_of_mem (f := Prod.fst) member)
    obtain ⟨full, higher⟩ := of_left_out isEntry notTop
    refine ⟨by rw [List.length_map, full], fun hit member => ?_⟩
    obtain ⟨entry, isKept, rfl⟩ := List.mem_map.mp member
    exact higher entry isKept

/-- **Retrieval is sound and complete.**  After any calls the tables say which documents have a
token, and every search returns the best of the eligible documents. -/
theorem search_sound_complete (library : IndexLibrary F) (calls : List IndexCall) :
    Indexes library.unicode (after library.unicode calls : MemoryStore F) ∧
      ∀ (order : HashOrder Nat F) (query : Text) (limit : Nat) (kindFilter : Option DocKind)
        (excludeMessagesFromIndex : Option Nat),
        ∃ hits, (after library.unicode calls).search library order query limit kindFilter
            excludeMessagesFromIndex = some hits ∧
          Answers library (after library.unicode calls : MemoryStore F).docs query limit kindFilter
            excludeMessagesFromIndex hits :=
  ⟨(exact_after library.unicode calls).indexes, fun order query limit kindFilter
    excludeMessagesFromIndex => search_answers (exact_after library.unicode calls) order query limit
      kindFilter excludeMessagesFromIndex⟩

end Exact

end MemoryStore

/-- Real numbers and their logarithm. -/
noncomputable def realLibrary : IndexLibrary ℝ where
  unicode := asciiTables
  ln := Real.log
  ln_pos := fun _ => Real.log_pos

/-- The order of the map itself. -/
def HashOrder.asStored (κ ν : Type) : HashOrder κ ν where
  iterate := id
  perm := fun _ => .rfl

/-- A memory item and a message about tea. -/
def teaCalls : List MemoryStore.IndexCall := [
  .addMemoryItem ⟨Block.replicate 16 0, 0, text "Bob drinks green tea", []⟩,
  .addMessage 0 ⟨text "user", text "Tea, please", []⟩]

theorem search_sound_complete_tea :
    ∃ hits, (MemoryStore.after asciiTables teaCalls).search realLibrary (.asStored Nat ℝ)
        (text "more tea") 1 none none = some hits ∧
      Answers realLibrary (MemoryStore.after asciiTables teaCalls : MemoryStore ℝ).docs
        (text "more tea") 1 none none hits :=
  (MemoryStore.search_sound_complete realLibrary teaCalls).2 (.asStored Nat ℝ) (text "more tea") 1
    none none

end ZkLlmGateway.Client
