import ZkLlmGateway.Client.Search

/-!
# Ties and tags

The order of the map of scores shows in what is retrieved exactly where documents
with the same relevance meet the cut.  Tags are indexed under tokens that no query
has, so a document is found by a tag only if the word is in its text.
-/

namespace ZkLlmGateway.Client

open ZkLlmGateway.Encoding ZkLlmGateway.Common ZkLlmGateway.Ranking

section Definitions

variable {F : Type} [Zero F] [One F] [Add F] [Sub F] [Mul F] [Div F] [NatCast F] [LinearOrder F]
  (library : IndexLibrary F) (docs : List StoredDoc) (query : Text)
  (kindFilter : Option DocKind) (excludeMessagesFromIndex : Option Nat)

/-- The filters let a document through, and it shares a token with the query. -/
def eligible (doc : StoredDoc) : Bool :=
  admits kindFilter excludeMessagesFromIndex doc &&
    (library.unicode.tokenizeQuery query).any fun term => term ∈ tokensOf library.unicode doc

/-- How many eligible documents are more relevant. -/
def moreRelevant (doc : StoredDoc) : Nat :=
  docs.countP fun other => eligible library query kindFilter excludeMessagesFromIndex other &&
    decide (bm25 library docs query doc < bm25 library docs query other)

/-- Two eligible documents are as relevant as each other, look different, and at least one of
them is kept. -/
def TiesAtCut {β : Type} (view : StoredDoc → β) (limit : Nat) : Prop :=
  ∃ first ∈ docs, ∃ second ∈ docs,
    eligible library query kindFilter excludeMessagesFromIndex first = true ∧
    eligible library query kindFilter excludeMessagesFromIndex second = true ∧
    bm25 library docs query first = bm25 library docs query second ∧ view first ≠ view second ∧
    moreRelevant library docs query kindFilter excludeMessagesFromIndex first < limit

end Definitions

/-- The order that yields the entries of one map as given. -/
def HashOrder.yielding {κ ν : Type} [DecidableEq κ] [DecidableEq ν] {source yielded : List (κ × ν)}
    (same : yielded.Perm source) : HashOrder κ ν where
  iterate := fun entries => if entries = source then yielded else entries
  perm := fun entries => by
    split
    next isSource => exact isSource ▸ same
    next => exact .rfl

theorem HashOrder.iterate_yielding {κ ν : Type} [DecidableEq κ] [DecidableEq ν]
    {source yielded : List (κ × ν)} (same : yielded.Perm source) :
    (HashOrder.yielding same).iterate source = yielded :=
  if_pos rfl

namespace MemoryStore

section Ties

variable {F : Type} [Zero F] [One F] [Add F] [Sub F] [Mul F] [Div F] [NatCast F] [LinearOrder F]
  {library : IndexLibrary F} {store : MemoryStore F}
  {kindFilter : Option DocKind} {excludeMessagesFromIndex : Option Nat} {query : Text}
  {limit : Nat}

omit [Add F] [Sub F] [Mul F] [Div F] [NatCast F] in
theorem eligible_iff {doc : StoredDoc} :
    eligible library query kindFilter excludeMessagesFromIndex doc = true ↔
      Eligible library query kindFilter excludeMessagesFromIndex doc := by
  rw [eligible, Bool.and_eq_true, admits_iff, List.any_eq_true]
  simp only [decide_eq_true_eq]
  exact ⟨fun ⟨⟨ofKind, before⟩, shares⟩ => ⟨ofKind, before, shares⟩,
    fun isEligible => ⟨⟨isEligible.ofKind, isEligible.before⟩, isEligible.shares⟩⟩

/-- The scores are those of the eligible documents. -/
theorem scores_perm (exact : Exact library.unicode store) (query : Text)
    (kindFilter : Option DocKind) (excludeMessagesFromIndex : Option Nat) :
    (store.scores library query kindFilter excludeMessagesFromIndex).Perm
      ((store.docs.zipIdx.filter fun entry =>
        eligible library query kindFilter excludeMessagesFromIndex entry.1).map fun entry =>
          (entry.2, bm25 library store.docs query entry.1)) := by
  have nodup : (store.scores library query kindFilter excludeMessagesFromIndex).Nodup :=
    (nodup_scores library store query kindFilter excludeMessagesFromIndex).of_map
  have indices : (store.docs.zipIdx.map Prod.snd).Nodup := by
    rw [List.zipIdx_map_snd]
    exact List.nodup_range'
  have nodupEntries : ((store.docs.zipIdx.filter fun entry =>
      eligible library query kindFilter excludeMessagesFromIndex entry.1).map fun entry =>
        (entry.2, bm25 library store.docs query entry.1)).Nodup := by
    apply List.Nodup.of_map Prod.fst
    rw [List.map_map]
    exact indices.sublist (List.filter_sublist.map Prod.snd)
  refine (List.perm_ext_iff_of_nodup nodup nodupEntries).mpr fun (idx, value) => ?_
  rw [mem_scores_iff exact]
  simp only [List.mem_map, List.mem_filter, Prod.exists, List.mem_zipIdx_iff_getElem?,
    eligible_iff, Prod.mk.injEq]
  constructor
  · rintro ⟨doc, isAt, isEligible, rfl⟩
    exact ⟨doc, idx, ⟨isAt, isEligible⟩, rfl, rfl⟩
  · rintro ⟨doc, _, ⟨isAt, isEligible⟩, rfl, rfl⟩
    exact ⟨doc, isAt, isEligible, rfl⟩

/-- The results of all scores: the eligible documents, with their relevance. -/
theorem results_perm (exact : Exact library.unicode store) (query : Text)
    (kindFilter : Option DocKind) (excludeMessagesFromIndex : Option Nat) :
    ((store.scores library query kindFilter excludeMessagesFromIndex).map store.resultOf).Perm
      ((store.docs.filter fun doc =>
        eligible library query kindFilter excludeMessagesFromIndex doc).map fun doc =>
          ⟨bm25 library store.docs query doc, doc⟩) := by
  have fields : (store.docs.filter fun doc =>
      eligible library query kindFilter excludeMessagesFromIndex doc) =
        (store.docs.zipIdx.filter fun entry =>
          eligible library query kindFilter excludeMessagesFromIndex entry.1).map Prod.fst := by
    conv_lhs => rw [← List.zipIdx_map_fst 0 store.docs, List.filter_map]
    rfl
  refine ((scores_perm exact query kindFilter excludeMessagesFromIndex).map store.resultOf).trans
    (List.Perm.of_eq ?_)
  rw [fields, List.map_map, List.map_map]
  refine List.map_congr_left fun entry member => ?_
  have isAt := List.mem_zipIdx_iff_getElem?.mp (List.mem_filter.mp member).1
  simp only [Function.comp_apply, resultOf, List.getD_eq_getElem?_getD, isAt, Option.getD_some]

theorem countP_scores (exact : Exact library.unicode store) (doc : StoredDoc) :
    (store.scores library query kindFilter excludeMessagesFromIndex).countP
        (fun entry => bm25 library store.docs query doc < entry.2) =
      moreRelevant library store.docs query kindFilter excludeMessagesFromIndex doc := by
  have fields : store.docs.countP (fun other =>
      eligible library query kindFilter excludeMessagesFromIndex other &&
        decide (bm25 library store.docs query doc < bm25 library store.docs query other)) =
      (store.docs.zipIdx.map Prod.fst).countP fun other =>
        eligible library query kindFilter excludeMessagesFromIndex other &&
          decide (bm25 library store.docs query doc < bm25 library store.docs query other) := by
    rw [List.zipIdx_map_fst]
  rw [(scores_perm exact query kindFilter excludeMessagesFromIndex).countP_eq, List.countP_map,
    List.countP_filter, moreRelevant, fields, List.countP_map]
  exact List.countP_congr fun entry _ => by simp [and_comm]

/-- A tie among the scores is one among the documents. -/
theorem tieAtCut_scores_iff (exact : Exact library.unicode store) {β : Type}
    (view : StoredDoc → β) :
    TieAtCut Prod.snd (fun entry => view (store.resultOf entry).doc) limit
        (store.scores library query kindFilter excludeMessagesFromIndex) ↔
      TiesAtCut library store.docs query kindFilter excludeMessagesFromIndex view limit := by
  have docOf : ∀ {idx : Nat} {value : F} {doc : StoredDoc}, store.docs[idx]? = some doc →
      (store.resultOf (idx, value)).doc = doc := by
    intro idx value doc isAt
    rw [resultOf, List.getD_eq_getElem?_getD, isAt, Option.getD_some]
  constructor
  · rintro ⟨⟨i, _⟩, isFirst, ⟨k, _⟩, isSecond, even, differ, few⟩
    obtain ⟨first, atFirst, eligibleFirst, rfl⟩ := (mem_scores_iff exact).mp isFirst
    obtain ⟨second, atSecond, eligibleSecond, rfl⟩ := (mem_scores_iff exact).mp isSecond
    simp only [docOf atFirst, docOf atSecond] at differ
    rw [countP_scores exact first] at few
    exact ⟨first, List.mem_of_getElem? atFirst, second, List.mem_of_getElem? atSecond,
      eligible_iff.mpr eligibleFirst, eligible_iff.mpr eligibleSecond, even, differ, few⟩
  · rintro ⟨first, isFirst, second, isSecond, eligibleFirst, eligibleSecond, even, differ, few⟩
    obtain ⟨i, atFirst⟩ := List.mem_iff_getElem?.mp isFirst
    obtain ⟨k, atSecond⟩ := List.mem_iff_getElem?.mp isSecond
    refine ⟨(i, _), (mem_scores_iff exact).mpr ⟨first, atFirst, eligible_iff.mp eligibleFirst, rfl⟩,
      (k, _), (mem_scores_iff exact).mpr ⟨second, atSecond, eligible_iff.mp eligibleSecond, rfl⟩,
      even, ?_, ?_⟩
    · simp only [docOf atFirst, docOf atSecond]
      exact differ
    · rwa [countP_scores exact first]

variable [Counts F]

/-- **What a search shows is the same in every order exactly when no tie is at the cut.** -/
theorem forall_order_iff (exact : Exact library.unicode store) {β : Type} (view : StoredDoc → β) :
    (∀ first second : HashOrder Nat F,
      (store.search library first query limit kindFilter excludeMessagesFromIndex).map
          (List.map fun hit => view hit.doc) =
        (store.search library second query limit kindFilter excludeMessagesFromIndex).map
          (List.map fun hit => view hit.doc)) ↔
      ¬TiesAtCut library store.docs query kindFilter excludeMessagesFromIndex view limit := by
  rw [← tieAtCut_scores_iff exact, ← forall_perm_iff]
  simp only [search_eq exact, Option.map_some, Option.some.injEq, List.map_map, Function.comp_def]
  constructor
  · intro same first second permFirst permSecond
    have equal := same (.yielding permFirst) (.yielding permSecond)
    rwa [HashOrder.iterate_yielding, HashOrder.iterate_yielding] at equal
  · intro same first second
    exact same _ _ (first.perm _) (second.perm _)

/-- A search never panics, and gives every document its relevance. -/
theorem exists_hits (exact : Exact library.unicode store) (order : HashOrder Nat F) (query : Text)
    (limit : Nat) (kindFilter : Option DocKind) (excludeMessagesFromIndex : Option Nat) :
    ∃ hits, store.search library order query limit kindFilter excludeMessagesFromIndex =
        some hits ∧ ∀ hit ∈ hits, hit.score = bm25 library store.docs query hit.doc := by
  refine ⟨_, search_eq exact order limit, fun hit member => ?_⟩
  obtain ⟨entry, isTop, rfl⟩ := List.mem_map.mp member
  have scored := (order.perm _).mem_iff.mp (mem_of_mem_top isTop)
  obtain ⟨doc, isAt, _, isScore⟩ := (mem_scores_iff exact).mp scored
  rw [resultOf, List.getD_eq_getElem?_getD, isAt, Option.getD_some]
  exact isScore

/-- Two searches return the same where they find the same documents. -/
theorem search_eq_iff (exact : Exact library.unicode store) (first second : HashOrder Nat F) :
    (store.search library first query limit kindFilter excludeMessagesFromIndex =
        store.search library second query limit kindFilter excludeMessagesFromIndex) ↔
      (store.search library first query limit kindFilter excludeMessagesFromIndex).map
          (List.map SearchResult.doc) =
        (store.search library second query limit kindFilter excludeMessagesFromIndex).map
          (List.map SearchResult.doc) := by
  have rebuild : ∀ hits : List (SearchResult F),
      (∀ hit ∈ hits, hit.score = bm25 library store.docs query hit.doc) →
      hits = (hits.map SearchResult.doc).map fun doc =>
        ⟨bm25 library store.docs query doc, doc⟩ := by
    intro hits isScore
    rw [List.map_map]
    conv_lhs => rw [← List.map_id hits]
    refine List.map_congr_left fun hit member => ?_
    rw [Function.comp_apply, ← isScore hit member]
    rfl
  obtain ⟨hits, isFirst, scoresFirst⟩ := exists_hits exact first query limit kindFilter
    excludeMessagesFromIndex
  obtain ⟨others, isSecond, scoresSecond⟩ := exists_hits exact second query limit kindFilter
    excludeMessagesFromIndex
  have sameHits := rebuild hits scoresFirst
  have sameOthers := rebuild others scoresSecond
  rw [isFirst, isSecond, Option.map_some, Option.map_some, Option.some.injEq, Option.some.injEq]
  refine ⟨fun same => by rw [same], fun same => ?_⟩
  rw [sameHits, sameOthers, same]

/-- What a search shows, by the documents it finds. -/
def shown {β : Type} (library : IndexLibrary F) (store : MemoryStore F) (query : Text)
    (limit : Nat) (kindFilter : Option DocKind) (excludeMessagesFromIndex : Option Nat)
    (view : StoredDoc → β) (order : HashOrder Nat F) : List β :=
  ((store.search library order query limit kindFilter excludeMessagesFromIndex).getD []).map
    fun hit => view hit.doc

omit [Counts F] in
theorem search_zero (library : IndexLibrary F) (store : MemoryStore F) (query : Text)
    (kindFilter : Option DocKind) (excludeMessagesFromIndex : Option Nat)
    (order : HashOrder Nat F) :
    store.search library order query 0 kindFilter excludeMessagesFromIndex = some [] :=
  if_pos rfl

/-- A retrieval shows what its two searches find. -/
theorem retrieveContext_eq (exact : Exact library.unicode store)
    (memoryOrder recallOrder : HashOrder Nat F) (query : Text)
    (maxMemoryItems maxRecallSnippets : Nat) (cutoff : Option Nat) :
    store.retrieveContext library memoryOrder recallOrder query maxMemoryItems maxRecallSnippets
        cutoff =
      some ⟨store.shown library query maxMemoryItems (some .memory) none id memoryOrder,
        store.shown library query maxRecallSnippets (some .message) cutoff
          (fun doc => recallMessage doc.toDoc) recallOrder⟩ := by
  obtain ⟨memories, isMemories, _⟩ := exists_hits exact memoryOrder query maxMemoryItems
    (some .memory) none
  obtain ⟨recalled, isRecall, _⟩ := exists_hits exact recallOrder query maxRecallSnippets
    (some .message) cutoff
  have searched : (if maxRecallSnippets > 0 then
      store.search library recallOrder query maxRecallSnippets (some .message) cutoff
        else some []) = some recalled := by
    rcases Nat.eq_zero_or_pos maxRecallSnippets with rfl | positive
    · rw [search_zero] at isRecall
      rw [if_neg (Nat.lt_irrefl 0), isRecall]
    · rw [if_pos positive, isRecall]
  rw [retrieveContext, isMemories, searched, shown, shown, isMemories, isRecall]
  rfl

theorem forall_shown_iff (exact : Exact library.unicode store) {β : Type} (view : StoredDoc → β) :
    (∀ first second : HashOrder Nat F,
      store.shown library query limit kindFilter excludeMessagesFromIndex view first =
        store.shown library query limit kindFilter excludeMessagesFromIndex view second) ↔
      ¬TiesAtCut library store.docs query kindFilter excludeMessagesFromIndex view limit := by
  rw [← forall_order_iff exact]
  refine forall_congr' fun first => forall_congr' fun second => ?_
  obtain ⟨hits, isFirst, _⟩ := exists_hits exact first query limit kindFilter
    excludeMessagesFromIndex
  obtain ⟨others, isSecond, _⟩ := exists_hits exact second query limit kindFilter
    excludeMessagesFromIndex
  rw [shown, shown, isFirst, isSecond, Option.map_some, Option.map_some, Option.some.injEq]
  rfl

/-- **Retrieval does not depend on the order of its maps exactly when** no two documents tie at
the cut; for the prompt, no two memory items and no two messages whose snippets differ. -/
theorem search_order_iff (library : IndexLibrary F) (calls : List IndexCall) :
    (∀ query limit kindFilter excludeMessagesFromIndex,
      (∀ first second : HashOrder Nat F,
        (after library.unicode calls).search library first query limit kindFilter
            excludeMessagesFromIndex =
          (after library.unicode calls).search library second query limit kindFilter
            excludeMessagesFromIndex) ↔
        ¬TiesAtCut library (after library.unicode calls : MemoryStore F).docs query kindFilter
          excludeMessagesFromIndex id limit) ∧
      ∀ query maxMemoryItems maxRecallSnippets cutoff,
        (∀ firstMemory firstRecall secondMemory secondRecall : HashOrder Nat F,
          (after library.unicode calls).retrieveContext library firstMemory firstRecall query
              maxMemoryItems maxRecallSnippets cutoff =
            (after library.unicode calls).retrieveContext library secondMemory secondRecall query
              maxMemoryItems maxRecallSnippets cutoff) ↔
          ¬TiesAtCut library (after library.unicode calls : MemoryStore F).docs query (some .memory)
              none id maxMemoryItems ∧
            ¬TiesAtCut library (after library.unicode calls : MemoryStore F).docs query
              (some .message) cutoff (fun doc => recallMessage doc.toDoc) maxRecallSnippets := by
  have exact := exact_after (F := F) library.unicode calls
  generalize (after library.unicode calls : MemoryStore F) = store at *
  refine ⟨fun query limit kindFilter excludeMessagesFromIndex => ?_,
    fun query maxMemoryItems maxRecallSnippets cutoff => ?_⟩
  · rw [← forall_order_iff exact]
    exact forall_congr' fun first => forall_congr' fun second =>
      search_eq_iff exact first second
  · rw [← forall_shown_iff exact, ← forall_shown_iff exact]
    simp only [retrieveContext_eq exact, Option.some.injEq, RetrievedBundle.mk.injEq]
    constructor
    · intro same
      exact ⟨fun first second => (same first first second first).1,
        fun first second => (same first first first second).2⟩
    · rintro ⟨sameMemory, sameRecall⟩ firstMemory firstRecall secondMemory secondRecall
      exact ⟨sameMemory firstMemory secondMemory, sameRecall firstRecall secondRecall⟩

end Ties

/-! ## The order of the documents -/

section Documents

variable {F : Type} [Field F] [LinearOrder F] {library : IndexLibrary F} {store : MemoryStore F}
  {kindFilter : Option DocKind} {excludeMessagesFromIndex : Option Nat} {query : Text}
  {limit : Nat}

/-- Relevance does not depend on the order of the documents. -/
theorem bm25_perm (library : IndexLibrary F) {docs other : List StoredDoc}
    (same : other.Perm docs) (query : Text) (doc : StoredDoc) :
    bm25 library other query doc = bm25 library docs query doc := by
  have average : (MemoryStore.averageLength library.unicode other : F) =
      MemoryStore.averageLength library.unicode docs := by
    have isEmpty : other.isEmpty = docs.isEmpty := by
      rw [Bool.eq_iff_iff, List.isEmpty_iff, List.isEmpty_iff, ← List.length_eq_zero_iff,
        same.length_eq, List.length_eq_zero_iff]
    rw [MemoryStore.averageLength, MemoryStore.averageLength, same.length_eq, isEmpty,
      addUp_eq_sum, addUp_eq_sum, (same.map _).sum_eq]
  simp only [bm25, inverseFrequency, saturation, documentFrequency, same.length_eq,
    same.countP_eq, average]

/-- What a search can return, in one order or another. -/
def possible (library : IndexLibrary F) (store : MemoryStore F) (query : Text) (limit : Nat)
    (kindFilter : Option DocKind) (excludeMessagesFromIndex : Option Nat) :
    Set (Option (List (SearchResult F))) :=
  Set.range fun order : HashOrder Nat F =>
    store.search library order query limit kindFilter excludeMessagesFromIndex

variable [IsStrictOrderedRing F]

theorem possible_subset {other : MemoryStore F} (exact : Exact library.unicode store)
    (exactOther : Exact library.unicode other) (same : other.docs.Perm store.docs) :
    store.possible library query limit kindFilter excludeMessagesFromIndex ⊆
      other.possible library query limit kindFilter excludeMessagesFromIndex := by
  rintro _ ⟨first, rfl⟩
  have found : ∀ (store : MemoryStore F) (entries : List (Nat × F)),
      (top Prod.snd limit entries).map store.resultOf =
        top SearchResult.score limit (entries.map store.resultOf) := by
    intro store entries
    have agree : ∀ entry : Nat × F, entry.2 = (store.resultOf entry).score := fun _ => rfl
    exact top_map store.resultOf agree limit entries
  have images :
      ((first.iterate (store.scores library query kindFilter excludeMessagesFromIndex)).map
          store.resultOf).Perm
        ((other.scores library query kindFilter excludeMessagesFromIndex).map other.resultOf) := by
    refine ((first.perm _).map store.resultOf).trans
      ((results_perm exact query kindFilter excludeMessagesFromIndex).trans
        (List.Perm.trans ?_
          (results_perm exactOther query kindFilter excludeMessagesFromIndex).symm))
    simp only [bm25_perm library same]
    exact (same.symm.filter _).map _
  obtain ⟨entries, isOrder, isImage⟩ := exists_perm_map_eq images
  refine ⟨.yielding isOrder, ?_⟩
  simp only [search_eq exact, search_eq exactOther, HashOrder.iterate_yielding, found, isImage]

/-- **The order of the documents does not matter** for what a search can return. -/
theorem possible_eq_of_perm {other : MemoryStore F} (exact : Exact library.unicode store)
    (exactOther : Exact library.unicode other) (same : other.docs.Perm store.docs) :
    store.possible library query limit kindFilter excludeMessagesFromIndex =
      other.possible library query limit kindFilter excludeMessagesFromIndex :=
  Set.Subset.antisymm (possible_subset exact exactOther same)
    (possible_subset exactOther exact same.symm)

/-- What a retrieval can return, in one pair of orders or another. -/
def possibleContexts (library : IndexLibrary F) (store : MemoryStore F) (query : Text)
    (maxMemoryItems maxRecallSnippets : Nat) (cutoff : Option Nat) :
    Set (Option RetrievedBundle) :=
  Set.range fun orders : HashOrder Nat F × HashOrder Nat F =>
    store.retrieveContext library orders.1 orders.2 query maxMemoryItems maxRecallSnippets cutoff

theorem exists_shown_eq {other : MemoryStore F} (exact : Exact library.unicode store)
    (exactOther : Exact library.unicode other) (same : other.docs.Perm store.docs) {β : Type}
    (view : StoredDoc → β) (query : Text) (limit : Nat) (kindFilter : Option DocKind)
    (excludeMessagesFromIndex : Option Nat) (order : HashOrder Nat F) :
    ∃ otherOrder : HashOrder Nat F,
      other.shown library query limit kindFilter excludeMessagesFromIndex view otherOrder =
        store.shown library query limit kindFilter excludeMessagesFromIndex view order := by
  obtain ⟨otherOrder, isSame⟩ := possible_subset exact exactOther same ⟨order, rfl⟩
  exact ⟨otherOrder, congrArg (fun hits => (hits.getD []).map fun hit => view hit.doc) isSame⟩

theorem possibleContexts_subset {other : MemoryStore F} (exact : Exact library.unicode store)
    (exactOther : Exact library.unicode other) (same : other.docs.Perm store.docs) (query : Text)
    (maxMemoryItems maxRecallSnippets : Nat) (cutoff : Option Nat) :
    store.possibleContexts library query maxMemoryItems maxRecallSnippets cutoff ⊆
      other.possibleContexts library query maxMemoryItems maxRecallSnippets cutoff := by
  rintro _ ⟨⟨memoryOrder, recallOrder⟩, rfl⟩
  obtain ⟨memoryOther, sameMemories⟩ := exists_shown_eq exact exactOther same id query
    maxMemoryItems (some .memory) none memoryOrder
  obtain ⟨recallOther, sameRecalled⟩ := exists_shown_eq exact exactOther same
    (fun doc => recallMessage doc.toDoc) query maxRecallSnippets (some .message) cutoff recallOrder
  refine ⟨(memoryOther, recallOther), ?_⟩
  simp only [retrieveContext_eq exact, retrieveContext_eq exactOther, sameMemories, sameRecalled]

/-- **Nor does it matter** for what a retrieval can return. -/
theorem possibleContexts_eq_of_perm {other : MemoryStore F} (exact : Exact library.unicode store)
    (exactOther : Exact library.unicode other) (same : other.docs.Perm store.docs) (query : Text)
    (maxMemoryItems maxRecallSnippets : Nat) (cutoff : Option Nat) :
    store.possibleContexts library query maxMemoryItems maxRecallSnippets cutoff =
      other.possibleContexts library query maxMemoryItems maxRecallSnippets cutoff :=
  Set.Subset.antisymm
    (possibleContexts_subset exact exactOther same query maxMemoryItems maxRecallSnippets cutoff)
    (possibleContexts_subset exactOther exact same.symm query maxMemoryItems maxRecallSnippets
      cutoff)

end Documents

/-! ## Tags -/

section Tags

variable {F : Type} [Field F] [LinearOrder F] [IsStrictOrderedRing F] {library : IndexLibrary F}
  {store : MemoryStore F} {kindFilter : Option DocKind} {excludeMessagesFromIndex : Option Nat}
  {query tag w : Text} {limit : Nat} {doc : StoredDoc} {item : MemoryItem}

/-- A search returns a document. -/
def Returns (library : IndexLibrary F) (store : MemoryStore F) (order : HashOrder Nat F)
    (query : Text) (limit : Nat) (kindFilter : Option DocKind)
    (excludeMessagesFromIndex : Option Nat) (doc : StoredDoc) : Prop :=
  ∃ hits, store.search library order query limit kindFilter excludeMessagesFromIndex = some hits ∧
    doc ∈ hits.map SearchResult.doc

/-- With room for all documents a search returns the eligible ones. -/
theorem returns_iff (exact : Exact library.unicode store) (order : HashOrder Nat F)
    (stored : doc ∈ store.docs) (room : store.docs.length ≤ limit) :
    store.Returns library order query limit kindFilter excludeMessagesFromIndex doc ↔
      Eligible library query kindFilter excludeMessagesFromIndex doc := by
  obtain ⟨hits, isFound, answers⟩ := search_answers exact order query limit kindFilter
    excludeMessagesFromIndex
  obtain ⟨indices, nodup, isPicked, complete⟩ := answers.picks
  have ofIndex := List.forall₂_iff_get.mp isPicked
  rw [Returns, isFound]
  constructor
  · rintro ⟨_, same, member⟩
    obtain rfl := Option.some.inj same
    obtain ⟨hit, inHits, rfl⟩ := List.mem_map.mp member
    exact (answers.of_mem inHits).2.1
  · intro isEligible
    obtain ⟨idx, isAt⟩ := List.mem_iff_getElem?.mp stored
    have kept : idx ∈ indices := by
      by_contra leftOut
      have full := (complete idx doc isAt isEligible leftOut).1
      have inRange : idx :: indices ⊆ List.range store.docs.length := by
        intro other member
        rw [List.mem_range]
        rcases List.mem_cons.mp member with rfl | later
        · exact (List.getElem?_eq_some_iff.mp isAt).1
        · obtain ⟨i, inside, rfl⟩ := List.mem_iff_getElem.mp later
          exact (List.getElem?_eq_some_iff.mp
            (ofIndex.2 i inside (by rw [← ofIndex.1]; exact inside)).1).1
      have few := ((List.nodup_cons.mpr ⟨leftOut, nodup⟩).subperm inRange).length_le
      rw [List.length_cons, List.length_range, ofIndex.1, full] at few
      omega
    obtain ⟨i, inside, rfl⟩ := List.mem_iff_getElem.mp kept
    have hasHit : i < hits.length := by
      rw [← ofIndex.1]
      exact inside
    have isDoc := (ofIndex.2 i inside hasHit).1
    refine ⟨hits, rfl, List.mem_map.mpr ⟨hits[i], List.getElem_mem hasHit, ?_⟩⟩
    exact Option.some.inj (isDoc.symm.trans isAt)

/-- What a query shares with a document is in its text, not in its tags. -/
theorem mem_tokensOf_iff {unicode : Unicode} (isToken : w ∈ unicode.tokenize query) :
    w ∈ tokensOf unicode doc ↔ w ∈ unicode.tokenize doc.text := by
  rw [tokensOf, Unicode.tokenizeForIndex, List.mem_append, or_iff_left]
  intro isTagToken
  obtain ⟨tag, _, composed⟩ := List.mem_filterMap.mp isTagToken
  exact Unicode.tagToken_not_mem_tokenize composed isToken

omit [IsStrictOrderedRing F] in
/-- A memory item is found by the words of its text alone. -/
theorem eligible_memoryDoc_iff :
    Eligible library query (some .memory) none (memoryDoc item) ↔
      ∃ word ∈ library.unicode.tokenize query, word ∈ library.unicode.tokenize item.text := by
  constructor
  · rintro ⟨_, _, word, inQuery, inDoc⟩
    rw [Unicode.mem_tokenizeQuery] at inQuery
    exact ⟨word, inQuery, (mem_tokensOf_iff inQuery).mp inDoc⟩
  · rintro ⟨word, inQuery, inText⟩
    exact ⟨fun kind isKind => Option.some.inj isKind, nofun, word,
      Unicode.mem_tokenizeQuery.mpr inQuery, (mem_tokensOf_iff inQuery).mpr inText⟩

/-- **A memory item is retrieved by a tag exactly when** the word is in its text. -/
theorem returns_tag_iff (calls : List IndexCall)
    (stored : memoryDoc item ∈ (after library.unicode calls : MemoryStore F).docs)
    (tagged : tag ∈ item.tags) (isTagWord : library.unicode.IsTagWord tag w)
    (order : HashOrder Nat F)
    (room : (after library.unicode calls : MemoryStore F).docs.length ≤ limit) :
    ((after library.unicode calls).Returns library order w limit (some .memory) none
          (memoryDoc item) ∧
        (after library.unicode calls).Returns library order (text "tag:" ++ w) limit (some .memory)
          none (memoryDoc item) ↔
        w ∈ library.unicode.tokenize item.text) ∧
      ((after library.unicode calls).Returns library order (text "tag:" ++ w) limit (some .memory)
          none (memoryDoc item) ↔
        text "tag" ∈ library.unicode.tokenize item.text ∨
          w ∈ library.unicode.tokenize item.text) ∧
      text "tag:" ++ w ∈ tokensOf library.unicode (memoryDoc item) ∧
      ∀ query, text "tag:" ++ w ∉ library.unicode.tokenizeQuery query := by
  have exact := exact_after (F := F) library.unicode calls
  have bare : (after library.unicode calls).Returns library order w limit (some .memory) none
      (memoryDoc item) ↔ w ∈ library.unicode.tokenize item.text := by
    rw [returns_iff exact order stored room, eligible_memoryDoc_iff, isTagWord.tokenize_eq]
    simp only [List.mem_singleton, exists_eq_left]
  have written : (after library.unicode calls).Returns library order (text "tag:" ++ w) limit
      (some .memory) none (memoryDoc item) ↔
        text "tag" ∈ library.unicode.tokenize item.text ∨
          w ∈ library.unicode.tokenize item.text := by
    rw [returns_iff exact order stored room, eligible_memoryDoc_iff, isTagWord.tokenize_tag]
    simp only [List.mem_cons, List.not_mem_nil, or_false, exists_eq_or_imp, exists_eq_left]
  have composed : library.unicode.tagToken tag = some (text "tag:" ++ w) := by
    have nonempty : w.isEmpty = false := by
      cases w with
      | nil => exact absurd isTagWord.long (by decide)
      | cons char w => rfl
    rw [Unicode.tagToken, ← isTagWord.isTag, nonempty]
    rfl
  refine ⟨?_, written, ?_, fun query isToken => ?_⟩
  · rw [bare, written]
    exact ⟨And.left, fun inText => ⟨inText, .inr inText⟩⟩
  · exact List.mem_append_right _ (List.mem_filterMap.mpr ⟨tag, tagged, composed⟩)
  · exact Unicode.tagToken_not_mem_tokenize composed (Unicode.mem_tokenizeQuery.mp isToken)

end Tags

end MemoryStore

/-- Documents with the same tokens are as relevant as each other. -/
theorem bm25_congr {F : Type} [Zero F] [One F] [Add F] [Sub F] [Mul F] [Div F] [NatCast F]
    [LinearOrder F]
    (library : IndexLibrary F) (docs : List StoredDoc) (query : Text) {left right : StoredDoc}
    (same : tokensOf library.unicode left = tokensOf library.unicode right) :
    bm25 library docs query left = bm25 library docs query right := by
  simp only [bm25, saturation, same]

/-! ## Memory items of a session -/

/-- Memory items with the identifiers `0`, `1` and so on. -/
def storedItems (items : List (Text × List Text)) : List MemoryItem :=
  items.mapIdx fun i entry => ⟨Block.replicate 16 (UInt8.ofNat i), 0, entry.1, entry.2⟩

def itemCalls (items : List (Text × List Text)) : List MemoryStore.IndexCall :=
  (storedItems items).map .addMemoryItem

/-- Their documents. -/
theorem docs_itemCalls (unicode : Unicode) (items : List (Text × List Text)) :
    (MemoryStore.after unicode (itemCalls items) : MemoryStore ℝ).docs =
      (storedItems items).map memoryDoc := by
  rw [MemoryStore.after, itemCalls, List.foldl_map]
  exact (MemoryStore.foldl_addDoc memoryDoc (storedItems items)
    (MemoryStore.exact_new (F := ℝ) unicode)).2

/-- A hash map whose iteration goes backwards. -/
def HashOrder.backwards (κ ν : Type) : HashOrder κ ν where
  iterate := List.reverse
  perm := List.reverse_perm

/-- Two memory items, of which one says more about tea. -/
def teas : List (Text × List Text) :=
  [(text "green tea", []), (text "tea tea milk", [])]

def greenTea : StoredDoc :=
  memoryDoc ⟨Block.replicate 16 0, 0, text "green tea", []⟩

def milkTea : StoredDoc :=
  memoryDoc ⟨Block.replicate 16 1, 0, text "tea tea milk", []⟩

/-- The relevance for one token. -/
theorem bm25_of_token (library : IndexLibrary ℝ) (docs : List StoredDoc) {query term : Text}
    {doc : StoredDoc} (isToken : library.unicode.tokenizeQuery query = [term])
    (inside : term ∈ tokensOf library.unicode doc) :
    bm25 library docs query doc =
      inverseFrequency library docs term * saturation library docs doc term := by
  simp [bm25, isToken, inside, addUp]

theorem bm25_teas_ne : bm25 realLibrary [greenTea, milkTea] (text "tea") greenTea ≠
    bm25 realLibrary [greenTea, milkTea] (text "tea") milkTea := by
  have isToken : asciiTables.tokenizeQuery (text "tea") = [text "tea"] := by decide +kernel
  have average : (MemoryStore.averageLength asciiTables [greenTea, milkTea] : ℝ) = 5 / 2 := by
    have isGreen : max (tokensOf asciiTables greenTea).length 1 = 2 := by decide +kernel
    have isMilk : max (tokensOf asciiTables milkTea).length 1 = 3 := by decide +kernel
    simp only [MemoryStore.averageLength, List.isEmpty_cons, List.map_cons, List.map_nil, isGreen,
      isMilk, addUp, List.foldl_cons, List.foldl_nil, List.length_cons, List.length_nil]
    norm_num
  have saturationOf : ∀ (doc : StoredDoc) (often long : Nat),
      frequency (tokensOf asciiTables doc) (text "tea") = often →
      max (tokensOf asciiTables doc).length 1 = long →
      saturation realLibrary [greenTea, milkTea] doc (text "tea") =
        often * (11 / 5) / (often + 6 / 5 * (1 / 4 + 3 / 4 * (long / (5 / 2)))) := by
    intro doc often long isOften isLong
    rw [saturation]
    simp only [realLibrary, isOften, isLong, average, MemoryStore.new]
    norm_num
  have isGreen := saturationOf greenTea 1 2 (by decide +kernel) (by decide +kernel)
  have isMilk := saturationOf milkTea 2 3 (by decide +kernel) (by decide +kernel)
  rw [bm25_of_token realLibrary _ isToken (by decide +kernel),
    bm25_of_token realLibrary _ isToken (by decide +kernel), isGreen, isMilk]
  intro same
  have even := mul_left_cancel₀ (inverseFrequency_pos realLibrary _ _).ne' same
  norm_num at even

/-- The better of two memory items is found in every order. -/
theorem search_order_iff_teas :
    (MemoryStore.after asciiTables (itemCalls teas)).search realLibrary (.asStored Nat ℝ)
        (text "tea") 1 none none =
      (MemoryStore.after asciiTables (itemCalls teas)).search realLibrary (.backwards Nat ℝ)
        (text "tea") 1 none none := by
  refine ((MemoryStore.search_order_iff realLibrary (itemCalls teas)).1 (text "tea") 1 none
    none).mpr ?_ (.asStored Nat ℝ) (.backwards Nat ℝ)
  have isDocs : (MemoryStore.after realLibrary.unicode (itemCalls teas) : MemoryStore ℝ).docs =
      [greenTea, milkTea] := docs_itemCalls asciiTables teas
  rintro ⟨left, isLeft, right, isRight, _, _, even, differ, _⟩
  rw [isDocs] at isLeft isRight even
  simp only [List.mem_cons, List.not_mem_nil, or_false] at isLeft isRight
  rcases isLeft with rfl | rfl <;> rcases isRight with rfl | rfl
  · exact differ rfl
  · exact bm25_teas_ne even
  · exact bm25_teas_ne even.symm
  · exact differ rfl

def twins : List (Text × List Text) :=
  [(text "green tea", []), (text "green tea", [])]

/-- Two memory items with the same text, and room for one. -/
theorem search_order_twins : ¬∀ (library : IndexLibrary ℝ) (calls : List MemoryStore.IndexCall)
    (query : Text) (limit : Nat) (kindFilter : Option DocKind)
    (excludeMessagesFromIndex : Option Nat) (first second : HashOrder Nat ℝ),
    (MemoryStore.after library.unicode calls).search library first query limit kindFilter
        excludeMessagesFromIndex =
      (MemoryStore.after library.unicode calls).search library second query limit kindFilter
        excludeMessagesFromIndex := by
  intro claim
  have noTie : ¬TiesAtCut realLibrary
      (MemoryStore.after asciiTables (itemCalls twins) : MemoryStore ℝ).docs (text "tea") none none
      id 1 :=
    (MemoryStore.forall_order_iff (MemoryStore.exact_after asciiTables (itemCalls twins)) id).mp
      fun first second => congrArg (Option.map (List.map fun hit => id hit.doc))
        (claim realLibrary (itemCalls twins) (text "tea") 1 none none first second)
  have sameTokens : ∀ left ∈ (storedItems twins).map memoryDoc,
      ∀ right ∈ (storedItems twins).map memoryDoc,
      tokensOf asciiTables left = tokensOf asciiTables right := by
    decide +kernel
  rw [docs_itemCalls] at noTie
  have first : memoryDoc ⟨Block.replicate 16 0, 0, text "green tea", []⟩ ∈
      (storedItems twins).map memoryDoc := List.mem_of_getElem? (i := 0) rfl
  have second : memoryDoc ⟨Block.replicate 16 1, 0, text "green tea", []⟩ ∈
      (storedItems twins).map memoryDoc := List.mem_of_getElem? (i := 1) rfl
  refine noTie ⟨_, first, _, second, by decide +kernel, by decide +kernel,
    bm25_congr realLibrary _ _ (sameTokens _ first _ second),
    fun same => absurd (congrArg StoredDoc.id same) (by decide +kernel), ?_⟩
  rw [moreRelevant, Nat.lt_one_iff, List.countP_eq_zero]
  intro other member higher
  rw [Bool.and_eq_true, decide_eq_true_eq,
    bm25_congr realLibrary _ _ (sameTokens _ first other member)] at higher
  exact lt_irrefl _ higher.2

/-- A tag that is in the text as well. -/
theorem returns_tag_inText :
    let calls := itemCalls [(text "buy groceries", [text "Groceries"])]
    (MemoryStore.after realLibrary.unicode calls).Returns realLibrary (.asStored Nat ℝ)
        (text "groceries") 1 (some .memory) none
        (memoryDoc ⟨Block.replicate 16 0, 0, text "buy groceries", [text "Groceries"]⟩) ∧
      (MemoryStore.after realLibrary.unicode calls).Returns realLibrary (.asStored Nat ℝ)
        (text "tag:groceries") 1 (some .memory) none
        (memoryDoc ⟨Block.replicate 16 0, 0, text "buy groceries", [text "Groceries"]⟩) := by
  intro calls
  have isDocs := docs_itemCalls realLibrary.unicode [(text "buy groceries", [text "Groceries"])]
  have isTagWord : realLibrary.unicode.IsTagWord (text "Groceries") (text "groceries") :=
    ⟨by decide +kernel, List.all_eq_true.mp (by decide), by decide, by decide +kernel⟩
  have stored : memoryDoc ⟨Block.replicate 16 0, 0, text "buy groceries", [text "Groceries"]⟩ ∈
      (MemoryStore.after realLibrary.unicode calls : MemoryStore ℝ).docs := by
    rw [isDocs]
    exact List.mem_of_getElem? (i := 0) rfl
  have room : (MemoryStore.after realLibrary.unicode calls : MemoryStore ℝ).docs.length ≤ 1 := by
    rw [isDocs]
    exact le_rfl
  exact (MemoryStore.returns_tag_iff calls stored (List.mem_singleton_self _) isTagWord
    (.asStored Nat ℝ) room).1.mpr (by decide +kernel)

/-- A tag that is not in the text. -/
theorem not_returns_tag : ¬∀ (library : IndexLibrary ℝ) (calls : List MemoryStore.IndexCall)
    (item : MemoryItem) (tag w : Text) (order : HashOrder Nat ℝ) (limit : Nat),
    memoryDoc item ∈ (MemoryStore.after library.unicode calls : MemoryStore ℝ).docs →
    tag ∈ item.tags → library.unicode.IsTagWord tag w →
    (MemoryStore.after library.unicode calls : MemoryStore ℝ).docs.length ≤ limit →
    (MemoryStore.after library.unicode calls).Returns library order w limit (some .memory) none
        (memoryDoc item) ∧
      (MemoryStore.after library.unicode calls).Returns library order (text "tag:" ++ w) limit
        (some .memory) none (memoryDoc item) := by
  intro claim
  have isDocs := docs_itemCalls realLibrary.unicode [(text "buy milk", [text "groceries"])]
  have stored : memoryDoc ⟨Block.replicate 16 0, 0, text "buy milk", [text "groceries"]⟩ ∈
      (MemoryStore.after realLibrary.unicode (itemCalls [(text "buy milk", [text "groceries"])]) :
        MemoryStore ℝ).docs := by
    rw [isDocs]
    exact List.mem_of_getElem? (i := 0) rfl
  have room : (MemoryStore.after realLibrary.unicode
      (itemCalls [(text "buy milk", [text "groceries"])]) : MemoryStore ℝ).docs.length ≤ 1 := by
    rw [isDocs]
    exact le_rfl
  have returned := (claim realLibrary (itemCalls [(text "buy milk", [text "groceries"])]) _
    (text "groceries") (text "groceries") (.asStored Nat ℝ) 1 stored (List.mem_singleton_self _)
    ⟨by decide +kernel, List.all_eq_true.mp (by decide), by decide, by decide +kernel⟩ room).1
  rw [MemoryStore.returns_iff (MemoryStore.exact_after realLibrary.unicode _) _ stored room,
    MemoryStore.eligible_memoryDoc_iff] at returned
  exact absurd returned (by decide +kernel)

end ZkLlmGateway.Client
