import ZkLlmGateway.Gateway.Outcome
import ZkLlmGateway.Gateway.Payment

/-!
# Refused tickets

A request is refused for its ticket only when the ticket is in use: its key was in the store
at first, or another request has entered it.  A ticket that one request has to itself is
never refused, whatever the store, the clock, the relay and the other requests do.
-/

namespace ZkLlmGateway.Gateway

open ZkLlmGateway.Encoding ZkLlmGateway.Common ZkLlmGateway.Interaction ZkLlmGateway.Transition

/-! ## Entries and refusals -/

/-- The code of a refused ticket. -/
def doubleSpend : Text :=
  text "double_spend"

/-- A swap that found another value than it expected. -/
def isMissed (event : Program.Event Call Answer) : Bool :=
  match event with
  | ⟨.compareAndSwap _ _ _, .ok false⟩ => true
  | _ => false

/-- The request has entered a value for the key, as far as it was told. -/
def Task.Enters (key : Bytes) (task : Task) : Prop :=
  ∃ event ∈ task.events, isMissed event = false ∧
    ∃ old new, event.query = .compareAndSwap key old (some new)

/-- The request is refused, or on its way to be. -/
def Progress.Contests (key : Bytes) : Progress → Prop
  | .waiting (.looking rkey _) => rkey = key
  | .waiting (.checkingStale rkey _ _) => rkey = key
  | .waiting (.replacing rkey _ _) => rkey = key
  | .answered (some rkey) (.error problem) => rkey = key ∧ problem.code = doubleSpend
  | _ => False

/-- The request has not asked for its key yet. -/
def Progress.asks : Progress → Bool
  | .waiting .verifying | .waiting (.stamping _) | .waiting (.reserving _ _) => true
  | _ => false

/-- What goes wrong without the key being in use has another code. -/
def Progress.Plain : Progress → Prop
  | .waiting (.releasing _ _ problem) => problem.code ≠ doubleSpend
  | .waiting (.flushingRelease _ _ problem) => problem.code ≠ doubleSpend
  | .answered none (.error problem) => problem.code ≠ doubleSpend
  | _ => True

/-- Another request than `id` has entered the key. -/
def World.Rivalled (world : World) (key : Bytes) (id : Nat) : Prop :=
  ∃ other, other ≠ id ∧ ∃ rival, world.tasks other = some rival ∧ rival.Enters key

/-! ## What requests do -/

theorem code_readProviderAnswer {library : Library} {requestId : Uuid} {answer : HttpAnswer}
    {problem : EncryptedError}
    (failed : readProviderAnswer library requestId answer = .error problem) :
    problem.code ≠ doubleSpend := by
  have network : text "upstream_network" ≠ doubleSpend := by decide
  have read : text "upstream_read" ≠ doubleSpend := by decide
  have parse : text "upstream_parse" ≠ doubleSpend := by decide
  have status : text "upstream_error" ≠ doubleSpend := by decide
  cases answer with
  | sendFailed =>
      cases failed
      exact network
  | readFailed _ =>
      cases failed
      exact read
  | response _ bytes =>
      rw [readProviderAnswer] at failed
      split at failed
      next =>
        split at failed
        next =>
          cases failed
          exact parse
        next => contradiction
      next =>
        cases failed
        exact status

theorem code_checkRequest {env : Envelope} {req : InferenceRequest} {problem : EncryptedError}
    (failed : checkRequest env req = .error problem) : problem.code ≠ doubleSpend := by
  have mismatch : text "token_class_mismatch" ≠ doubleSpend := by decide
  have tooLarge : text "prompt_too_large" ≠ doubleSpend := by decide
  have unsupported : text "stream_unsupported" ≠ doubleSpend := by decide
  unfold checkRequest at failed
  split at failed
  next =>
    cases failed
    exact mismatch
  next =>
    split at failed
    next =>
      cases failed
      exact mismatch
    next =>
      split at failed
      next =>
        cases failed
        exact tooLarge
      next =>
        split at failed
        next =>
          cases failed
          exact unsupported
        next => contradiction

theorem code_mapZkError (requestId : Uuid) (error : ZkVerifyError) :
    (mapZkError requestId error).code ≠ doubleSpend := by
  have invalid : text "invalid_proof" ≠ doubleSpend := by decide
  have internal : text "internal_error" ≠ doubleSpend := by decide
  cases error with
  | invalidProof => exact invalid
  | internal problem => exact internal

/-- An error of the store says nothing of the key. -/
theorem not_contests_dbError (req : InferenceRequest) (rkey key : Bytes) :
    ¬(dbError req rkey).Contests key := by
  have internal : text "internal_error" ≠ doubleSpend := by decide
  exact fun contests => internal contests.2

theorem contests_alreadyUsed {req : InferenceRequest} {rkey key : Bytes}
    (contests : (alreadyUsed req rkey).Contests key) : rkey = key :=
  contests.1

/-- A request comes to contest its key only when its first swap misses. -/
theorem Stage.contests_resume {state : AppState} {req : InferenceRequest} {stage : Stage}
    {answer : Answer (stage.query state req)} {key : Bytes}
    (plain : (Progress.waiting stage).Plain)
    (contests : (stage.resume state req answer).Contests key) :
    (Progress.waiting stage).Contests key ∨ ∃ stamp, stage = .reserving key stamp ∧
      isMissed ⟨stage.query state req, answer⟩ = true := by
  cases stage with
  | verifying => rcases answer with e | verified <;> exact contests.elim
  | stamping rkey => exact contests.elim
  | reserving rkey stamp =>
      rcases answer with e | _ | _
      · exact absurd contests (not_contests_dbError req rkey key)
      · cases contests
        exact .inr ⟨stamp, rfl, rfl⟩
      · exact contests.elim
  | flushingReserve rkey stamp =>
      rcases answer with e | _
      · exact absurd contests (not_contests_dbError req rkey key)
      · exact contests.elim
  | looking rkey stamp =>
      left
      rcases answer with e | stored
      · exact absurd contests (not_contests_dbError req rkey key)
      · simp only [Stage.resume, Stage.afterLook] at contests
        split at contests
        next => exact contests_alreadyUsed contests
        next =>
          split at contests
          next => exact contests_alreadyUsed contests
          next =>
            split at contests
            next => exact contests
            next => exact contests_alreadyUsed contests
  | checkingStale rkey stamp existing =>
      left
      simp only [Stage.resume] at contests
      split at contests
      next => exact contests
      next => exact contests_alreadyUsed contests
  | replacing rkey stamp existing =>
      left
      rcases answer with e | _ | _
      · exact absurd contests (not_contests_dbError req rkey key)
      · exact contests_alreadyUsed contests
      · exact contests.elim
  | calling rkey stamp =>
      simp only [Stage.resume] at contests
      split at contests <;> exact contests.elim
  | releasing rkey stamp problem =>
      rcases answer with e | _ | _
      · exact absurd contests.2 plain
      · exact absurd contests.2 plain
      · exact contests.elim
  | flushingRelease rkey stamp problem => exact absurd contests.2 plain
  | stampingSpent rkey stamp response => exact contests.elim
  | marking rkey stamp response spentStamp =>
      rcases answer with e | _ | _
      · exact absurd contests (not_contests_dbError req rkey key)
      · exact absurd contests (not_contests_dbError req rkey key)
      · exact contests.elim
  | flushingMark rkey response =>
      rcases answer with e | _
      · exact absurd contests (not_contests_dbError req rkey key)
      · exact contests.elim

/-- What goes wrong after an answer has another code, too. -/
theorem Stage.plain_resume {state : AppState} {req : InferenceRequest} {stage : Stage}
    (answer : Answer (stage.query state req)) (plain : (Progress.waiting stage).Plain) :
    (stage.resume state req answer).Plain := by
  cases stage with
  | verifying =>
      rcases answer with e | verified
      · exact code_mapZkError req.requestId e
      · trivial
  | looking rkey stamp =>
      rcases answer with e | stored
      · trivial
      · simp only [Stage.resume, Stage.afterLook]
        split
        next => trivial
        next =>
          split
          next => trivial
          next => split <;> trivial
  | checkingStale rkey stamp existing =>
      simp only [Stage.resume]
      split <;> trivial
  | calling rkey stamp =>
      simp only [Stage.resume]
      split
      next problem failed => exact code_readProviderAnswer failed
      next => trivial
  | releasing rkey stamp problem =>
      rcases answer with e | _ | _
      · trivial
      · trivial
      · exact plain
  | stamping rkey => trivial
  | stampingSpent rkey stamp response => trivial
  | flushingRelease rkey stamp problem => trivial
  | flushingReserve rkey stamp => rcases answer with e | _ <;> trivial
  | flushingMark rkey response => rcases answer with e | _ <;> trivial
  | reserving rkey stamp => rcases answer with e | _ | _ <;> trivial
  | replacing rkey stamp existing => rcases answer with e | _ | _ <;> trivial
  | marking rkey stamp response spentStamp => rcases answer with e | _ | _ <;> trivial

/-- Only a call that is no swap leads to the point where a request asks for its key. -/
theorem Stage.query_of_asks_resume {state : AppState} {req : InferenceRequest} {stage : Stage}
    {answer : Answer (stage.query state req)} (asks : (stage.resume state req answer).asks = true) :
    (Progress.waiting stage).asks = true ∧
      ∀ key old new, stage.query state req ≠ .compareAndSwap key old new := by
  cases stage with
  | verifying => exact ⟨rfl, fun key old new same => by contradiction⟩
  | stamping rkey => exact ⟨rfl, fun key old new same => by contradiction⟩
  | looking rkey stamp =>
      rcases answer with e | stored
      · contradiction
      · simp only [Stage.resume, Stage.afterLook] at asks
        split at asks
        next => contradiction
        next =>
          split at asks
          next => contradiction
          next => split at asks <;> contradiction
  | checkingStale rkey stamp existing =>
      simp only [Stage.resume] at asks
      split at asks <;> contradiction
  | calling rkey stamp =>
      simp only [Stage.resume] at asks
      split at asks <;> contradiction
  | stampingSpent rkey stamp response => contradiction
  | flushingRelease rkey stamp problem => contradiction
  | flushingReserve rkey stamp => rcases answer with e | _ <;> contradiction
  | flushingMark rkey response => rcases answer with e | _ <;> contradiction
  | reserving rkey stamp => rcases answer with e | _ | _ <;> contradiction
  | replacing rkey stamp existing => rcases answer with e | _ | _ <;> contradiction
  | releasing rkey stamp problem => rcases answer with e | _ | _ <;> contradiction
  | marking rkey stamp response spentStamp => rcases answer with e | _ | _ <;> contradiction

section Requests

variable {state : AppState} {initial : Store → Prop} {allowed : World → WorldEvent → Prop}
  {world : World}

/-- A request that has not asked for its key has not swapped anything. -/
def Task.Unswapped (task : Task) : Prop :=
  task.progress.asks = true →
    ∀ event ∈ task.events, ∀ key old new, event.query ≠ .compareAndSwap key old new

theorem unswapped_of_reachable (reachable : (World.system state initial).Reachable allowed world) :
    world.All Task.Unswapped := by
  refine all_of_reachable ?_ ?_ ?_ reachable
  · exact fun envelope request _ event member => absurd member List.not_mem_nil
  · intro task stage clock writes answer unswapped waits asks event member
    obtain ⟨asked, isOther⟩ := Stage.query_of_asks_resume asks
    rw [← waits] at asked
    rcases List.mem_append.mp member with before | isLast
    · exact unswapped asked event before
    · cases List.mem_singleton.mp isLast
      exact isOther
  · intro task unswapped
    unfold Task.lose
    split <;> exact unswapped

theorem plain_of_reachable (reachable : (World.system state initial).Reachable allowed world) :
    world.All fun task => task.progress.Plain := by
  refine all_of_reachable ?_ ?_ ?_ reachable
  · intro envelope request
    simp only [Task.arrived, Progress.start]
    split
    next problem failed => exact code_checkRequest failed
    next => trivial
  · intro task stage clock writes answer plain waits
    rw [waits] at plain
    exact Stage.plain_resume answer plain
  · intro task plain
    unfold Task.lose
    split <;> exact plain

end Requests

/-! ## Entries and who made them -/

section Entries

variable {state : AppState} {initial : Store → Prop} {allowed : World → WorldEvent → Prop}
  {start world target : World} {event : WorldEvent} {key : Bytes} {id : Nat}

/-- What a served call does to the store; a swap that writes has not missed. -/
theorem serveCall_writes {db next : Db} {clock : UInt64} {query : Call} {reply : Reply}
    {answer : Answer query} (served : serveCall db clock id query reply = some (answer, next)) :
    next = db ∨ next = db.flushed ∨ ∃ key old new, query = .compareAndSwap key old new ∧
      isMissed ⟨query, answer⟩ = false ∧ next = db.write id key new := by
  cases query with
  | compareAndSwap key old new =>
      rcases serveCall_compareAndSwap.mp served with
        ⟨_, _, rfl, rfl⟩ | ⟨_, _, _, rfl⟩ | ⟨_, _, rfl⟩ | ⟨_, _, rfl, rfl⟩
      · exact .inr (.inr ⟨key, old, new, rfl, rfl, rfl⟩)
      · exact .inl rfl
      · exact .inl rfl
      · exact .inr (.inr ⟨key, old, new, rfl, rfl, rfl⟩)
  | _ =>
      rcases serveCall_effect served with same | flushed | ⟨_, _, _, isSwap, _⟩
      · exact .inl same
      · exact .inr (.inl flushed)
      · contradiction

/-- A request stays, and what it has called stays called. -/
theorem exists_later {task : Task} (stepped : World.step state world event = some target)
    (found : world.tasks id = some task) :
    ∃ later, target.tasks id = some later ∧ task.events <+: later.events := by
  have lost : ∀ task : Task, task.events <+: task.lose.events := by
    intro task
    unfold Task.lose
    split <;> exact List.prefix_refl _
  cases event with
  | arrive other envelope request =>
      obtain ⟨isNone, ⟨⟩⟩ := Option.ite_none_right_eq_some.mp stepped
      have differ : id ≠ other := by
        rintro rfl
        rw [found] at isNone
        contradiction
      exact ⟨task, (Function.update_of_ne differ ..).trans found, List.prefix_refl _⟩
  | serve other reply =>
      obtain ⟨served, stage, isServed, _, answer, db, _, rfl⟩ := World.serve_eq_some_iff.mp stepped
      by_cases same : id = other
      · subst same
        cases found.symm.trans isServed
        exact ⟨_, Function.update_self .., List.prefix_append ..⟩
      · exact ⟨task, (Function.update_of_ne same ..).trans found, List.prefix_refl _⟩
  | tick clock =>
      cases stepped
      exact ⟨task, found, List.prefix_refl _⟩
  | cancel other =>
      obtain ⟨cancelled, isCancelled, rfl⟩ := Option.map_eq_some_iff.mp stepped
      by_cases same : id = other
      · subst same
        cases found.symm.trans isCancelled
        exact ⟨_, Function.update_self .., lost _⟩
      · exact ⟨task, (Function.update_of_ne same ..).trans found, List.prefix_refl _⟩
  | crash age =>
      simp only [World.step] at stepped
      split at stepped
      next => contradiction
      next =>
        cases stepped
        exact ⟨task.lose, congrArg (Option.map Task.lose) found, lost task⟩

/-- A request has entered the key. -/
def World.Entered (world : World) (key : Bytes) : Prop :=
  ∃ id task, world.tasks id = some task ∧ task.Enters key

theorem Task.Enters.later {task later : Task} (enters : task.Enters key)
    (isPrefix : task.events <+: later.events) : later.Enters key := by
  obtain ⟨event, member, swapped⟩ := enters
  exact ⟨event, isPrefix.subset member, swapped⟩

theorem World.Entered.step (entered : world.Entered key)
    (stepped : World.step state world event = some target) : target.Entered key := by
  obtain ⟨id, task, found, enters⟩ := entered
  obtain ⟨later, isLater, isPrefix⟩ := exists_later stepped found
  exact ⟨id, later, isLater, enters.later isPrefix⟩

theorem World.Rivalled.step (rivalled : world.Rivalled key id)
    (stepped : World.step state world event = some target) : target.Rivalled key id := by
  obtain ⟨other, differ, rival, found, enters⟩ := rivalled
  obtain ⟨later, isLater, isPrefix⟩ := exists_later stepped found
  exact ⟨other, differ, later, isLater, enters.later isPrefix⟩

/-- Every entry was there at first or was made by a request, and a request that contests a key
contests such an entry. -/
structure Attributed (start world : World) : Prop where
  entries : ∀ store ∈ world.db.store :: world.db.unflushed, ∀ key, store key ≠ none →
    start.db.store key ≠ none ∨ world.Entered key
  contested : ∀ id task key, world.tasks id = some task → task.progress.Contests key →
    start.db.store key ≠ none ∨ world.Rivalled key id

/-- What is stored after a step was stored before, or a request has entered it. -/
theorem Attributed.entries_step (attributed : Attributed start world)
    (stepped : World.step state world event = some target) :
    ∀ store ∈ target.db.store :: target.db.unflushed, ∀ key, store key ≠ none →
      start.db.store key ≠ none ∨ target.Entered key := by
  have kept : ∀ store ∈ world.db.store :: world.db.unflushed, ∀ key, store key ≠ none →
      start.db.store key ≠ none ∨ target.Entered key := by
    intro store member key stored
    exact (attributed.entries store member key stored).imp_right fun entered => entered.step stepped
  cases event with
  | arrive other envelope request =>
      obtain ⟨_, ⟨⟩⟩ := Option.ite_none_right_eq_some.mp stepped
      exact kept
  | serve id reply =>
      obtain ⟨task, stage, found, running, answer, db, served, rfl⟩ :=
        World.serve_eq_some_iff.mp stepped
      rcases serveCall_writes served with rfl | rfl | ⟨written, old, new, isSwap, swapped, rfl⟩
      · exact kept
      · intro store member
        cases List.mem_singleton.mp member
        exact kept world.db.store List.mem_cons_self
      · intro store member key stored
        rcases List.mem_cons.mp member with rfl | before
        · by_cases same : key = written
          · subst same
            cases new with
            | none => exact absurd (Function.update_self ..) stored
            | some value =>
                right
                refine ⟨id, _, Function.update_self .., _, ?_, swapped, old, value, isSwap⟩
                exact List.mem_append_right _ (List.mem_singleton_self _)
          · apply kept world.db.store List.mem_cons_self key
            intro absent
            exact stored ((Function.update_of_ne same ..).trans absent)
        · exact kept store before key stored
  | tick clock =>
      cases stepped
      exact kept
  | cancel other =>
      obtain ⟨cancelled, _, rfl⟩ := Option.map_eq_some_iff.mp stepped
      exact kept
  | crash age =>
      simp only [World.step] at stepped
      split at stepped
      next => contradiction
      next store unflushed isDrop =>
        cases stepped
        intro other member
        apply kept other
        apply List.mem_of_mem_drop (i := age)
        rw [isDrop]
        exact member

/-- What the first swap of a request finds was not entered by the request itself. -/
theorem Attributed.rivalled_of_missed (attributed : Attributed start world)
    (unswapped : world.All Task.Unswapped) {task : Task} (found : world.tasks id = some task)
    {stamp : UInt64} (waits : task.progress = .waiting (.reserving key stamp)) {reply : Reply}
    {db : Db} {answer : Answer (Stage.query state task.request (.reserving key stamp))}
    (served : serveCall world.db world.clock id
      (Stage.query state task.request (.reserving key stamp)) reply = some (answer, db))
    (missed : isMissed ⟨Stage.query state task.request (.reserving key stamp), answer⟩ = true) :
    start.db.store key ≠ none ∨ world.Rivalled key id := by
  have stored : world.db.store key ≠ none := by
    intro absent
    rcases serveCall_compareAndSwap.mp served with
      ⟨_, _, rfl, _⟩ | ⟨_, differs, _⟩ | ⟨_, rfl, _⟩ | ⟨_, _, rfl, _⟩
    · contradiction
    · exact differs (congrArg (Option.map StoredValue.value) absent)
    · contradiction
    · contradiction
  rcases attributed.entries world.db.store List.mem_cons_self key stored with before | entered
  · exact .inl before
  · right
    obtain ⟨other, rival, foundRival, enters⟩ := entered
    refine ⟨other, ?_, rival, foundRival, enters⟩
    rintro rfl
    cases found.symm.trans foundRival
    obtain ⟨event, member, _, old, new, isSwap⟩ := enters
    have asks : task.progress.asks = true := by
      rw [waits]
      rfl
    exact unswapped other task found asks event member key old (some new) isSwap

/-- A request that contests its key after a step contested it before, or its first swap has found
the entry of another. -/
theorem Attributed.contested_step (attributed : Attributed start world)
    (unswapped : world.All Task.Unswapped) (plain : world.All fun task => task.progress.Plain)
    (stepped : World.step state world event = some target) :
    ∀ id task key, target.tasks id = some task → task.progress.Contests key →
      start.db.store key ≠ none ∨ target.Rivalled key id := by
  have kept : ∀ id task key, world.tasks id = some task → task.progress.Contests key →
      start.db.store key ≠ none ∨ target.Rivalled key id := by
    intro id task key found contests
    exact (attributed.contested id task key found contests).imp_right
      fun rivalled => rivalled.step stepped
  have lost : ∀ (task : Task) key, task.lose.progress.Contests key →
      task.progress.Contests key := by
    intro task key contests
    unfold Task.lose at contests
    split at contests <;> exact contests
  cases event with
  | arrive other envelope request =>
      obtain ⟨_, ⟨⟩⟩ := Option.ite_none_right_eq_some.mp stepped
      intro id task key found contests
      simp only [Function.update_apply] at found
      split at found
      next =>
        cases found
        simp only [Task.arrived, Progress.start] at contests
        split at contests <;> exact contests.elim
      next => exact kept id task key found contests
  | serve id reply =>
      obtain ⟨task, stage, found, running, answer, db, served, rfl⟩ :=
        World.serve_eq_some_iff.mp stepped
      obtain ⟨_, waits⟩ := Task.stage?_eq_some_iff.mp running
      intro other later key foundLater contests
      by_cases same : other = id
      · subst same
        cases (Function.update_self ..).symm.trans foundLater
        have isPlain : task.progress.Plain := plain other task found
        rw [waits] at isPlain
        rcases Stage.contests_resume isPlain contests with already | ⟨stamp, rfl, missed⟩
        · rw [← waits] at already
          exact kept other task key found already
        · exact (attributed.rivalled_of_missed unswapped found waits served missed).imp_right
            fun rivalled => rivalled.step stepped
      · exact kept other later key ((Function.update_of_ne same ..).symm.trans foundLater) contests
  | tick clock =>
      cases stepped
      exact kept
  | cancel other =>
      obtain ⟨cancelled, isCancelled, rfl⟩ := Option.map_eq_some_iff.mp stepped
      intro id task key found contests
      by_cases same : id = other
      · subst same
        cases (Function.update_self ..).symm.trans found
        exact kept id cancelled key isCancelled (lost cancelled key contests)
      · exact kept id task key ((Function.update_of_ne same ..).symm.trans found) contests
  | crash age =>
      simp only [World.step] at stepped
      split at stepped
      next => contradiction
      next =>
        cases stepped
        intro id task key found contests
        obtain ⟨before, isBefore, rfl⟩ := Option.map_eq_some_iff.mp found
        exact kept id before key isBefore (lost before key contests)

/-- A run attributes all entries and all refusals. -/
theorem Attributed.run {middle : World} {events : List WorldEvent}
    (reachable : (World.system state initial).Reachable (fun _ _ => True) middle)
    (attributed : Attributed start middle)
    (replayed : (World.system state initial).run middle events = some world) :
    Attributed start world := by
  induction events generalizing middle with
  | nil =>
      cases replayed
      exact attributed
  | cons event events inductionHypothesis =>
      obtain ⟨next, stepped, rest⟩ := Option.bind_eq_some_iff.mp replayed
      apply inductionHypothesis (reachable.next trivial stepped) ?_ rest
      constructor
      · exact attributed.entries_step stepped
      · exact attributed.contested_step (unswapped_of_reachable reachable)
          (plain_of_reachable reachable) stepped

/-- **A ticket is refused only if it is in use**: when a request is answered with `double_spend`,
its key was in the store from the beginning, or another request has entered it. -/
theorem shared_of_refused {events : List WorldEvent} (isNew : ∀ id, start.tasks id = none)
    (flushed : start.db.unflushed = [])
    (replayed : (World.system state fun _ => True).run start events = some world) {task : Task}
    (found : world.tasks id = some task) {rkey : Option Bytes} {problem : EncryptedError}
    (refused : task.progress = .answered rkey (.error problem))
    (code : problem.code = doubleSpend) :
    ∃ key, task.resolvedKey state = some key ∧
      (start.db.store key ≠ none ∨ world.Rivalled key id) := by
  have begins : (World.system state fun _ => True).Reachable (fun _ _ => True) start :=
    .start ⟨trivial, isNew⟩
  have first : Attributed start start := by
    constructor
    · intro store member key stored
      rw [flushed] at member
      cases List.mem_singleton.mp member
      exact .inl stored
    · intro id task key foundFirst
      rw [isNew id] at foundFirst
      contradiction
  have reachable := begins.of_run (System.admits_of_forall (fun _ _ _ => trivial) start) replayed
  have resolved := (worksOnKey_of_reachable reachable id task found).1
  have plain : task.progress.Plain := plain_of_reachable reachable id task found
  rw [refused] at resolved plain
  cases rkey with
  | none => exact absurd code plain
  | some key =>
      have contests : task.progress.Contests key := by
        rw [refused]
        exact ⟨rfl, code⟩
      have attributed := Attributed.run begins first replayed
      exact ⟨key, resolved.symm, attributed.contested id task key found contests⟩

end Entries

/-- The ticket that was paid and is sent again. -/
theorem rivalled_replayed : replayedWorld.Rivalled [7] 1 := by
  have replayed : (World.system plainState fun _ => True).run emptyWorld replayedTicket =
      some replayedWorld := (Option.some_get _).symm
  obtain ⟨task, found, isKey, rkey, refused⟩ : ∃ task, replayedWorld.tasks 1 = some task ∧
      task.resolvedKey plainState = some [7] ∧ ∃ rkey, task.progress =
        .answered rkey (.error (mapReserveError plainRequest.requestId .alreadyUsed)) :=
    ⟨_, rfl, rfl, _, rfl⟩
  obtain ⟨key, resolved, shared⟩ :=
    shared_of_refused (fun _ => rfl) rfl replayed found refused rfl
  cases isKey.symm.trans resolved
  rcases shared with before | rivalled
  · exact absurd rfl before
  · exact rivalled

end ZkLlmGateway.Gateway
