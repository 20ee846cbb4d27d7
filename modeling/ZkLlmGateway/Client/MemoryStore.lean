import ZkLlmGateway.Client.Prompt
import ZkLlmGateway.Client.Tokens
import ZkLlmGateway.Ranking.Inverted
import ZkLlmGateway.Ranking.Top
import Mathlib.Algebra.Order.Field.Basic

/-!
# The local index

Memory items and messages are documents of an inverted index.  A search scores the
documents that share a token with the query, one query token after the other, and
keeps the best.  Scores are numbers that can be added, multiplied and compared, whether
exactly or with rounding; the map of scores yields its entries in an order that is not
known.
-/

namespace ZkLlmGateway.Client

open ZkLlmGateway.Encoding ZkLlmGateway.Common ZkLlmGateway.Ranking

/-! ## Documents -/

inductive DocKind
  | memory
  | message
  deriving DecidableEq, Inhabited

/-- A document of the index; the other fields are those that a prompt shows. -/
structure StoredDoc extends Doc where
  kind : DocKind
  id : Text
  createdAtMs : Int
  /-- For messages, the index into the session's messages. -/
  msgIndex : Option Nat

instance : Inhabited StoredDoc :=
  ⟨⟨⟨none, [], []⟩, .memory, [], 0, none⟩⟩

def memoryDoc (item : MemoryItem) : StoredDoc where
  kind := .memory
  id := item.id.toText
  createdAtMs := item.createdAtMs
  role := none
  msgIndex := none
  text := item.text
  tags := item.tags

def messageDoc (msgIndex : Nat) (msg : ChatMessage) : StoredDoc where
  kind := .message
  id := text "msg:" ++ decimal msgIndex
  createdAtMs := 0
  role := some msg.role
  msgIndex := some msgIndex
  text := msg.content
  tags := []

def tokensOf (unicode : Unicode) (doc : StoredDoc) : List Text :=
  unicode.tokenizeForIndex doc.text doc.tags

structure SearchResult (F : Type) where
  score : F
  doc : StoredDoc

/-- What is retrieved for a prompt: documents, and snippets of older messages. -/
structure RetrievedBundle where
  memories : List StoredDoc
  recalled : List ChatMessage

/-- The fields that a prompt shows. -/
def RetrievedBundle.context (bundle : RetrievedBundle) : RetrievedContext where
  memories := bundle.memories.map StoredDoc.toDoc
  recalled := bundle.recalled

/-- An order in which a hash map yields its entries. -/
structure HashOrder (κ ν : Type) where
  iterate : List (κ × ν) → List (κ × ν)
  perm : ∀ entries, (iterate entries).Perm entries

/-- The library functions of the index; of the logarithm only its sign is relied on. -/
structure IndexLibrary (F : Type) [Zero F] [One F] [LinearOrder F] where
  unicode : Unicode
  ln : F → F
  ln_pos : ∀ x, 1 < x → 0 < ln x

/-- A small index in the manner of BM25: for every token the documents that have it, with how
often, and for every document its length in tokens.  Counts are natural numbers. -/
structure MemoryStore (F : Type) where
  docs : List StoredDoc
  inverted : Text → List (Nat × Nat)
  docLen : List Nat
  avgDocLen : F
  k1 : F
  b : F

namespace MemoryStore

variable {F : Type} [Zero F] [Add F] [Div F] [NatCast F]

/-! ## Building the index -/

/-- `MemoryStore::default` -/
def new : MemoryStore F where
  docs := []
  inverted := fun _ => []
  docLen := []
  avgDocLen := 0
  k1 := 6 / 5
  b := 3 / 4

def recomputeAvgLen (store : MemoryStore F) : MemoryStore F :=
  if store.docLen.isEmpty then { store with avgDocLen := 0 }
  else
    let sum := addUp (store.docLen.map fun v : Nat => (v : F))
    { store with avgDocLen := sum / (store.docLen.length : F) }

def addDoc (unicode : Unicode) (store : MemoryStore F) (doc : StoredDoc) : MemoryStore F :=
  let idx := store.docs.length
  let tf := tally ((unicode.tokenizeForIndex doc.text doc.tags).map fun t => (t, 1))
  let len := (tf.map Prod.snd).sum
  recomputeAvgLen { store with
    docLen := store.docLen ++ [max len 1]
    inverted := post idx store.inverted tf
    docs := store.docs ++ [doc] }

def addMemoryItem (unicode : Unicode) (store : MemoryStore F) (item : MemoryItem) : MemoryStore F :=
  store.addDoc unicode (memoryDoc item)

def addMessage (unicode : Unicode) (store : MemoryStore F) (msgIndex : Nat) (msg : ChatMessage) :
    MemoryStore F :=
  store.addDoc unicode (messageDoc msgIndex msg)

/-- The index of a session; only the last `maxMessages` messages are indexed. -/
def rebuildFromSession (unicode : Unicode) (memory : List MemoryItem) (messages : List ChatMessage)
    (indexMessages : Bool) (maxMessages : Nat) : MemoryStore F :=
  let store := memory.foldl (addMemoryItem unicode) new
  let store :=
    if indexMessages then
      let start := messages.length - maxMessages
      (messages.zipIdx.drop start).foldl
        (fun store (msg, i) => store.addMessage unicode i msg) store
    else store
  recomputeAvgLen store

/-! ## Searching -/

section Searching

variable [One F] [Sub F] [Mul F] [LinearOrder F]

/-- Whether a posting is passed over; looking at a document that is not there panics. -/
def skips (store : MemoryStore F) (kindFilter : Option DocKind)
    (excludeMessagesFromIndex : Option Nat) (docIdx : Nat) : Option Bool := do
  if let some k := kindFilter then
    let doc ← store.docs[docIdx]?
    if doc.kind ≠ k then return true
  if let some cutoff := excludeMessagesFromIndex then
    let doc ← store.docs[docIdx]?
    if doc.kind = .message then
      if let some mi := doc.msgIndex then
        if mi ≥ cutoff then return true
  return false

/-- What a posting adds to the score of its document. -/
def contribution (store : MemoryStore F) (avgdl idf : F) (posting : Nat × Nat) : F :=
  let dl : F := ((store.docLen[posting.1]?).getD 1 : Nat)
  let tf : F := (posting.2 : Nat)
  let denom := tf + store.k1 * (1 - store.b + store.b * (dl / avgdl))
  let tfNorm := (tf * (store.k1 + 1)) / denom
  idf * tfNorm

def scorePosting (store : MemoryStore F) (kindFilter : Option DocKind)
    (excludeMessagesFromIndex : Option Nat) (avgdl idf : F) (scores : List (Nat × F))
    (posting : Nat × Nat) : Option (List (Nat × F)) := do
  if ← store.skips kindFilter excludeMessagesFromIndex posting.1 then return scores
  return credit posting.1 (store.contribution avgdl idf posting) scores

/-- The weight of a term that `df` of `nDocs` documents have. -/
def inverseFrequencyOf (ln : F → F) (nDocs df : F) : F :=
  ln ((nDocs - df + 1 / 2) / (df + 1 / 2) + 1)

def scoreTerm (ln : F → F) (store : MemoryStore F) (kindFilter : Option DocKind)
    (excludeMessagesFromIndex : Option Nat) (scores : List (Nat × F)) (term : Text) :
    Option (List (Nat × F)) :=
  let nDocs : F := (store.docs.length : Nat)
  let avgdl := max store.avgDocLen 1
  let postings := store.inverted term
  let df : F := (postings.length : Nat)
  if df = 0 then some scores
  else
    let idf := inverseFrequencyOf ln nDocs df
    postings.foldlM (store.scorePosting kindFilter excludeMessagesFromIndex avgdl idf) scores

/-- The search, or `none` when it panics. -/
def search (library : IndexLibrary F) (order : HashOrder Nat F) (store : MemoryStore F)
    (query : Text) (limit : Nat) (kindFilter : Option DocKind)
    (excludeMessagesFromIndex : Option Nat) : Option (List (SearchResult F)) :=
  if limit = 0 then some []
  else
    let qterms := library.unicode.tokenizeQuery query
    if qterms.isEmpty then some []
    else if ((store.docs.length : Nat) : F) = 0 then some []
    else do
      let scores ← qterms.foldlM
        (store.scoreTerm library.ln kindFilter excludeMessagesFromIndex) []
      let out ← (order.iterate scores).mapM fun (idx, score) =>
        (store.docs[idx]?).map fun doc => (⟨score, doc⟩ : SearchResult F)
      return top SearchResult.score limit out

/-- The bundle for a prompt; the two searches have maps of their own. -/
def retrieveContext (library : IndexLibrary F) (memoryOrder recallOrder : HashOrder Nat F)
    (store : MemoryStore F) (query : Text) (maxMemoryItems maxRecallSnippets : Nat)
    (excludeRecentMessagesCutoff : Option Nat) : Option RetrievedBundle := do
  let memories ← store.search library memoryOrder query maxMemoryItems (some .memory) none
  let searched :=
    if maxRecallSnippets > 0 then
      store.search library recallOrder query maxRecallSnippets (some .message)
        excludeRecentMessagesCutoff
    else some []
  let recalled ← searched
  return ⟨memories.map SearchResult.doc, recalled.map fun r => recallMessage r.doc.toDoc⟩

end Searching

/-! ## The index is that of its documents -/

/-- The tokens of all documents. -/
def contents (unicode : Unicode) (docs : List StoredDoc) : List (List Text) :=
  docs.map (tokensOf unicode)

/-- The mean length of the documents, where a document without tokens counts for one. -/
def averageLength (unicode : Unicode) (docs : List StoredDoc) : F :=
  if docs.isEmpty then 0
  else addUp (docs.map fun doc => ((max (tokensOf unicode doc).length 1 : Nat) : F)) /
    ((docs.length : Nat) : F)

/-- The tables of the index are those of its documents. -/
structure Exact (unicode : Unicode) (store : MemoryStore F) : Prop where
  inverted : store.inverted = occurrences (contents unicode store.docs)
  docLen : store.docLen = store.docs.map fun doc => max (tokensOf unicode doc).length 1
  avgDocLen : store.avgDocLen = averageLength unicode store.docs
  k1 : store.k1 = 6 / 5
  b : store.b = 3 / 4

section Exact

variable {unicode : Unicode} {store : MemoryStore F}

@[simp]
theorem docs_recomputeAvgLen (store : MemoryStore F) : store.recomputeAvgLen.docs = store.docs := by
  unfold recomputeAvgLen
  split <;> rfl

theorem recomputeAvgLen_exact {docs : List StoredDoc} {inverted : Text → List (Nat × Nat)}
    (avgDocLen : F) (isInverted : inverted = occurrences (contents unicode docs)) :
    Exact unicode (recomputeAvgLen
      { docs := docs
        inverted := inverted
        docLen := docs.map fun doc => max (tokensOf unicode doc).length 1
        avgDocLen := avgDocLen
        k1 := 6 / 5
        b := 3 / 4 }) := by
  unfold recomputeAvgLen
  cases docs with
  | nil => exact ⟨isInverted, rfl, rfl, rfl, rfl⟩
  | cons doc docs =>
      refine ⟨isInverted, rfl, ?_, rfl, rfl⟩
      simp only [List.map_cons, List.isEmpty_cons, Bool.false_eq_true, if_false, averageLength,
        List.length_cons, List.length_map, List.map_map, Function.comp_def]

theorem exact_new (unicode : Unicode) : Exact unicode (new : MemoryStore F) :=
  ⟨rfl, rfl, rfl, rfl, rfl⟩

theorem Exact.recomputeAvgLen (exact : Exact unicode store) :
    Exact unicode store.recomputeAvgLen := by
  have isExact := recomputeAvgLen_exact store.avgDocLen exact.inverted
  rwa [← exact.docLen, ← exact.k1, ← exact.b] at isExact

theorem sum_tally_ones (tokens : List Text) :
    ((tally (tokens.map fun t => (t, 1))).map Prod.snd).sum = tokens.length := by
  rw [sum_tally, List.map_map]
  induction tokens with
  | nil => rfl
  | cons token tokens inductionHypothesis =>
      rw [List.map_cons, List.sum_cons, inductionHypothesis, List.length_cons, Nat.add_comm]
      rfl

/-- A document that is added is indexed, and the others stay. -/
theorem Exact.addDoc (exact : Exact unicode store) (doc : StoredDoc) :
    Exact unicode (store.addDoc unicode doc) := by
  have length : (contents unicode store.docs).length = store.docs.length := by
    rw [contents, List.length_map]
  have posted := post_occurrences (contents unicode store.docs) (tokensOf unicode doc)
  have appended : contents unicode store.docs ++ [tokensOf unicode doc] =
      contents unicode (store.docs ++ [doc]) := by
    rw [contents, contents, List.map_append, List.map_singleton]
  rw [length, ← exact.inverted, appended] at posted
  have isExact := recomputeAvgLen_exact store.avgDocLen posted
  rw [List.map_append, List.map_singleton, ← exact.docLen, ← exact.k1, ← exact.b] at isExact
  rw [MemoryStore.addDoc, sum_tally_ones]
  exact isExact

@[simp]
theorem docs_addDoc (store : MemoryStore F) (doc : StoredDoc) :
    (store.addDoc unicode doc).docs = store.docs ++ [doc] := by
  simp [MemoryStore.addDoc]

theorem foldl_addDoc {α : Type} (docOf : α → StoredDoc) (items : List α)
    (exact : Exact unicode store) :
    Exact unicode (items.foldl (fun store item => store.addDoc unicode (docOf item)) store) ∧
      (items.foldl (fun store item => store.addDoc unicode (docOf item)) store).docs =
        store.docs ++ items.map docOf := by
  induction items generalizing store with
  | nil => exact ⟨exact, (List.append_nil _).symm⟩
  | cons item items inductionHypothesis =>
      obtain ⟨isExact, isDocs⟩ := inductionHypothesis (exact.addDoc (docOf item))
      refine ⟨isExact, isDocs.trans ?_⟩
      rw [docs_addDoc, List.append_assoc, List.map_cons]
      rfl

/-- The documents of a session: its memory, and the last messages if they are indexed. -/
def sessionDocs (memory : List MemoryItem) (messages : List ChatMessage) (indexMessages : Bool)
    (maxMessages : Nat) : List StoredDoc :=
  memory.map memoryDoc ++
    if indexMessages then
      (messages.zipIdx.drop (messages.length - maxMessages)).map fun (msg, i) => messageDoc i msg
    else []

/-- **A rebuilt index has the documents of the session.** -/
theorem rebuildFromSession_exact (unicode : Unicode) (memory : List MemoryItem)
    (messages : List ChatMessage) (indexMessages : Bool) (maxMessages : Nat) :
    Exact unicode (rebuildFromSession unicode memory messages indexMessages maxMessages :
        MemoryStore F) ∧
      (rebuildFromSession unicode memory messages indexMessages maxMessages : MemoryStore F).docs =
        sessionDocs memory messages indexMessages maxMessages := by
  obtain ⟨exactMemory, docsMemory⟩ := foldl_addDoc memoryDoc memory (exact_new (F := F) unicode)
  unfold rebuildFromSession sessionDocs
  cases indexMessages with
  | false => exact ⟨exactMemory.recomputeAvgLen, by
      rw [docs_recomputeAvgLen]
      exact docsMemory.trans (List.append_nil _).symm⟩
  | true =>
      obtain ⟨exactMessages, docsMessages⟩ := foldl_addDoc
        (fun (entry : ChatMessage × Nat) => messageDoc entry.2 entry.1)
        (messages.zipIdx.drop (messages.length - maxMessages)) exactMemory
      exact ⟨exactMessages.recomputeAvgLen, by
        rw [docs_recomputeAvgLen]
        exact docsMessages.trans (congrArg (· ++ _) docsMemory)⟩

end Exact

/-! ## Runs -/

/-- A call that changes the index. -/
inductive IndexCall
  | addMemoryItem (item : MemoryItem)
  | addMessage (msgIndex : Nat) (msg : ChatMessage)
  | rebuildFromSession (memory : List MemoryItem) (messages : List ChatMessage)
      (indexMessages : Bool) (maxMessages : Nat)

def call (unicode : Unicode) (store : MemoryStore F) : IndexCall → MemoryStore F
  | .addMemoryItem item => store.addMemoryItem unicode item
  | .addMessage msgIndex msg => store.addMessage unicode msgIndex msg
  | .rebuildFromSession memory messages indexMessages maxMessages =>
      rebuildFromSession unicode memory messages indexMessages maxMessages

/-- The index after some calls. -/
def after (unicode : Unicode) (calls : List IndexCall) : MemoryStore F :=
  calls.foldl (call unicode) new

theorem Exact.call {unicode : Unicode} {store : MemoryStore F} (exact : Exact unicode store)
    (indexCall : IndexCall) : Exact unicode (store.call unicode indexCall) := by
  cases indexCall with
  | addMemoryItem item => exact exact.addDoc _
  | addMessage msgIndex msg => exact exact.addDoc _
  | rebuildFromSession memory messages indexMessages maxMessages =>
      exact (rebuildFromSession_exact unicode memory messages indexMessages maxMessages).1

/-- **Every call keeps the index exact.** -/
theorem exact_after (unicode : Unicode) (calls : List IndexCall) :
    Exact unicode (after unicode calls : MemoryStore F) := by
  have kept : ∀ (calls : List IndexCall) (store : MemoryStore F), Exact unicode store →
      Exact unicode (calls.foldl (MemoryStore.call unicode) store) := by
    intro calls
    induction calls with
    | nil => exact fun store exact => exact
    | cons first calls inductionHypothesis =>
        exact fun store exact => inductionHypothesis _ (exact.call first)
  exact kept calls new (exact_new unicode)

/-! ## What the tables say -/

/-- The index lists for every token the documents that have it, each once and with how often,
and the lengths of the documents. -/
structure Indexes (unicode : Unicode) (store : MemoryStore F) : Prop where
  postings : ∀ term idx freq, (idx, freq) ∈ store.inverted term ↔
    ∃ doc, store.docs[idx]? = some doc ∧ term ∈ tokensOf unicode doc ∧
      freq = frequency (tokensOf unicode doc) term
  once : ∀ term, ((store.inverted term).map Prod.fst).Nodup
  inRange : ∀ term, ∀ posting ∈ store.inverted term, posting.1 < store.docs.length
  docLen : store.docLen = store.docs.map fun doc => max 1 (tokensOf unicode doc).length

theorem Exact.indexes {unicode : Unicode} {store : MemoryStore F} (exact : Exact unicode store) :
    Indexes unicode store := by
  have postings : ∀ term idx freq, (idx, freq) ∈ store.inverted term ↔
      ∃ doc, store.docs[idx]? = some doc ∧ term ∈ tokensOf unicode doc ∧
        freq = frequency (tokensOf unicode doc) term := by
    intro term idx freq
    rw [exact.inverted, mem_occurrences_iff]
    simp only [contents, List.getElem?_map, Option.map_eq_some_iff]
    constructor
    · rintro ⟨_, ⟨doc, isAt, rfl⟩, has, isCount⟩
      exact ⟨doc, isAt, has, isCount⟩
    · rintro ⟨doc, isAt, has, isCount⟩
      exact ⟨_, ⟨doc, isAt, rfl⟩, has, isCount⟩
  refine ⟨postings, fun term => ?_, fun term posting member => ?_, ?_⟩
  · rw [exact.inverted]
    exact (pairwise_occurrences _ term).imp Nat.ne_of_lt
  · obtain ⟨doc, isAt, _⟩ := (postings term posting.1 posting.2).mp member
    exact (List.getElem?_eq_some_iff.mp isAt).1
  · simp only [exact.docLen, max_comm]

end MemoryStore

end ZkLlmGateway.Client
