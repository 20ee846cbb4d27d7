import ZkLlmGateway.Client.Creation
import ZkLlmGateway.Client.Mapping

/-!
# One agent for each session

An agent in memory is shared: every call for its session gets the same one.  Runs
are traced with the identity of the agents, which the steps of the manager do not
depend on.
-/

namespace ZkLlmGateway.Client

open ZkLlmGateway.Encoding ZkLlmGateway.Common ZkLlmGateway.Transition

/-! ## Instances -/

/-- Where an agent comes from: it was there before the first call, or a call has built it. -/
inductive Instance
  | prebuilt (sessionId : Text)
  | built (call : Nat)
  deriving DecidableEq

/-- A manager with the agents that are in memory, those that calls have returned, and the calls
that have put one in memory, with the session it is for, the last one first. -/
structure TracedManager where
  manager : Manager
  held : Text → Option Instance
  given : Nat → Option Instance
  inserted : List (Nat × Text)

/-- The call has failed to load its session or to build an agent for it. -/
def ManagerError.isBuild : ManagerError → Bool
  | loadSession | initRedactor | buildHttpClient => true
  | sessionId _ | alreadyExists | saveNewSession => false

namespace TracedManager

def give (traced : TracedManager) (n : Nat) (given : Option Instance) : TracedManager :=
  { traced with given := Function.update traced.given n given }

def hold (traced : TracedManager) (n : Nat) (sessionId : Text) : TracedManager :=
  { traced with
    held := Function.update traced.held sessionId (some (.built n))
    inserted := (n, sessionId) :: traced.inserted }

/-- What becomes of the agents when a call goes on: one that finds an agent returns it, and one
that has built an agent puts it in memory and returns it. -/
def track (traced : TracedManager) (n : Nat) (call : SessionCall) : TracedManager :=
  match call.phase with
  | .reading | .locking =>
      if (traced.manager.sessions call.sessionId).isSome then
        traced.give n (traced.held call.sessionId)
      else traced
  | .inserting _ _ => (traced.hold n call.sessionId).give n (some (.built n))
  | _ => traced

variable (settings : ManagerSettings)

def step (traced : TracedManager) (event : ManagerEvent) : Option TracedManager :=
  (traced.manager.step settings event).map fun next =>
    match event with
    | .advance n _ =>
        match traced.manager.calls n with
        | some call => { traced.track n call with manager := next }
        | none => { traced with manager := next }
    | _ => { traced with manager := next }

def system : System TracedManager ManagerEvent where
  init traced := (Manager.system settings).init traced.manager ∧
    (∀ sessionId, traced.held sessionId =
      (traced.manager.sessions sessionId).map fun _ => .prebuilt sessionId) ∧
    (∀ n, traced.given n = none) ∧ traced.inserted = []
  step := TracedManager.step settings

/-- Call `n` for the session has succeeded. -/
def Succeeds (traced : TracedManager) (n : Nat) (sessionId : Text) : Prop :=
  ∃ call, traced.manager.calls n = some call ∧ call.sessionId = sessionId ∧
    call.phase = .returned (.ok ())

/-- A file from which an agent can be built, or none. -/
def Usable (content : Option SessionFile) : Prop :=
  ∀ file, content = some file → ∀ nowMs salt, ∃ session,
    loadSession file nowMs salt = some session ∧ (Redactor.fromState session.redaction).isSome

/-- Whatever becomes of the files, as long as that of the session is usable a new call for it
can succeed, with an agent that it builds. -/
def Retries (traced : TracedManager) (sessionId : Text) : Prop :=
  ∀ files n, traced.manager.calls n = none → Usable (files (settings.fileOf sessionId)) →
    ∃ events target, (∀ event ∈ events, event = Manager.smoothly n) ∧
      (system settings).run { traced with manager := { traced.manager with files := files } }
        (.getOrLoad n sessionId :: events) = some target ∧
      target.Succeeds n sessionId ∧ target.given n = some (.built n)

/-- Calls for one session return the same agent, one call for it at most builds and inserts an
agent, and a call that fails inserts none and leaves the session to later calls. -/
structure Unique (traced : TracedManager) : Prop where
  same : ∀ left right sessionId, traced.Succeeds left sessionId →
    traced.Succeeds right sessionId →
      ∃ agent, traced.given left = some agent ∧ traced.given right = some agent
  once : (traced.inserted.map Prod.snd).Nodup
  failed : ∀ n draw target call problem, traced.step settings (.advance n draw) = some target →
    target.manager.calls n = some call → call.phase = .returned (.error problem) →
      target.manager.sessions = traced.manager.sessions ∧ target.held = traced.held ∧
      target.inserted = traced.inserted ∧
      (problem.isBuild = true → target.Retries settings call.sessionId)

/-! ## Steps of a call -/

variable {settings} {traced target : TracedManager} {n : Nat} {call : SessionCall}

/-- What a step of a call can do: it goes on, it finds an agent, it takes the lock, it fails
under the lock, or it puts an agent in memory. -/
inductive Move (traced : TracedManager) (n : Nat) (call next : SessionCall) :
    TracedManager → Prop
  | go {manager : Manager} (sessions : manager.sessions = traced.manager.sessions)
      (lockedBy : manager.lockedBy = traced.manager.lockedBy)
      (isLocked : next.phase.isLocked = call.phase.isLocked)
      (unfinished : next.phase ≠ .returned (.ok ()))
      (notBuild : ∀ problem, next.phase = .returned (.error problem) →
        problem.isBuild = false) :
      Move traced n call next { traced with manager := manager }
  | find (isLoaded : traced.manager.sessions call.sessionId ≠ none)
      (isDone : next.phase = .returned (.ok ())) :
      Move traced n call next { traced.give n (traced.held call.sessionId) with
        manager := traced.manager.setCall n next }
  | lock (isFree : traced.manager.lockedBy = none)
      (unloaded : traced.manager.sessions call.sessionId = none)
      (isLocked : next.phase.isLocked = true) :
      Move traced n call next { traced with manager := (traced.manager.setCall n next).lock n }
  | fail (isLocked : call.phase.isLocked = true) {problem : ManagerError}
      (isFailed : next.phase = .returned (.error problem)) :
      Move traced n call next { traced with manager := (traced.manager.setCall n next).unlock }
  | insert (isLocked : call.phase.isLocked = true) (loaded : LoadedAgent)
      (isDone : next.phase = .returned (.ok ())) :
      Move traced n call next { (traced.hold n call.sessionId).give n (some (.built n)) with
        manager := ((traced.manager.insert call.sessionId loaded).setCall n next).unlock }

/-- A step that saves a session goes on. -/
theorem exists_move_of_save {next : SessionCall} (writer : Writer) (file : Location)
    (session : Session) (write : SessionWrite) (sameId : next.sessionId = call.sessionId)
    (isLocked : next.phase.isLocked = call.phase.isLocked)
    (unfinished : next.phase ≠ .returned (.ok ()))
    (notBuild : ∀ problem, next.phase = .returned (.error problem) → problem.isBuild = false) :
    ∃ after, ((traced.manager.save writer file session write).setCall n next).calls =
        Function.update traced.manager.calls n (some after) ∧
      after.sessionId = call.sessionId ∧ Move traced n call after
        { traced with
          manager := (traced.manager.save writer file session write).setCall n next } := by
  refine ⟨next, ?_, sameId, .go ?_ ?_ isLocked unfinished notBuild⟩
  · rw [Manager.setCall, Manager.calls_save]
  · exact Manager.sessions_save ..
  · exact Manager.lockedBy_save ..

/-- Nothing becomes of the agents when the session is not in memory and none is built. -/
theorem track_eq_self (unloaded : call.phase = .reading ∨ call.phase = .locking →
      traced.manager.sessions call.sessionId = none)
    (notInserting : ∀ origin agent, call.phase ≠ .inserting origin agent) :
    traced.track n call = traced := by
  cases isPhase : call.phase with
  | reading | locking => simp [track, isPhase, unloaded]
  | inserting origin agent => exact absurd isPhase (notInserting origin agent)
  | _ => simp only [track, isPhase]

/-- Every step of a call is one of these. -/
theorem exists_move {manager : Manager} {draw : Draw}
    (advances : Manager.Advances settings traced.manager n call draw manager) :
    ∃ next, manager.calls = Function.update traced.manager.calls n (some next) ∧
      next.sessionId = call.sessionId ∧
      Move traced n call next { traced.track n call with manager := manager } := by
  cases advances with
  | refuse isPhase | check isPhase | findFile isPhase | findNoFile isPhase | load isPhase =>
      rw [track_eq_self (by simp [isPhase]) (by simp [isPhase])]
      exact ⟨_, rfl, rfl, .go rfl rfl (by rw [isPhase]; rfl) (by simp)
        (by simp [ManagerError.isBuild])⟩
  | create isPhase | failToCreate isPhase | start isPhase | merge _ isPhase
  | build _ _ _ isPhase =>
      rw [track_eq_self (by simp [isPhase]) (by simp [isPhase])]
      apply exists_move_of_save
      · rfl
      · rw [isPhase]
        rfl
      · simp
      · simp [ManagerError.isBuild]
  | find isPhase isFree isLoaded =>
      have tracked : traced.track n call = traced.give n (traced.held call.sessionId) := by
        rcases isPhase with isPhase | isPhase <;> simp only [track, isPhase] <;>
          exact if_pos (Option.isSome_iff_ne_none.mpr isLoaded)
      rw [tracked]
      exact ⟨_, rfl, rfl, .find isLoaded rfl⟩
  | miss isPhase isFree unloaded =>
      rw [track_eq_self (fun _ => unloaded) (by simp [isPhase])]
      exact ⟨_, rfl, rfl, .go rfl rfl (by rw [isPhase]; rfl) (by simp) (by simp)⟩
  | lock isPhase isFree unloaded =>
      rw [track_eq_self (fun _ => unloaded) (by simp [isPhase])]
      exact ⟨_, rfl, rfl, .lock isFree unloaded rfl⟩
  | failToLoad isPhase | failToRestore _ isPhase | failToBuild _ _ _ isPhase =>
      rw [track_eq_self (by simp [isPhase]) (by simp [isPhase])]
      exact ⟨_, rfl, rfl, .fail (by rw [isPhase]; rfl) rfl⟩
  | insert origin agent isPhase =>
      simp only [track, isPhase]
      exact ⟨_, rfl, rfl, .insert (by rw [isPhase]; rfl) ⟨agent, origin⟩ rfl⟩

/-! ## What every step keeps -/

/-- Only the call with the lock inserts an agent, for a session without one, and later calls
find it. -/
structure Sound (traced : TracedManager) : Prop where
  held : ∀ sessionId, traced.held sessionId = none ↔ traced.manager.sessions sessionId = none
  locked : ∀ n call, traced.manager.calls n = some call → call.phase.isLocked = true →
    traced.manager.lockedBy = some n ∧ traced.manager.sessions call.sessionId = none
  valid : ∀ n call, traced.manager.calls n = some call → call.Alive →
    ValidSessionId call.sessionId
  loaded : ∀ sessionId, traced.manager.sessions sessionId ≠ none → ValidSessionId sessionId
  given : ∀ n sessionId, traced.Succeeds n sessionId →
    traced.manager.sessions sessionId ≠ none ∧ traced.given n = traced.held sessionId
  inserted : ∀ insertion ∈ traced.inserted, traced.manager.sessions insertion.2 ≠ none
  once : (traced.inserted.map Prod.snd).Nodup

section Update

variable {next : SessionCall}

/-- A call after a step is the one that has gone on, or as before. -/
theorem call_of_update {before after : Manager} {m : Nat} {other : SessionCall}
    (calls : after.calls = Function.update before.calls n (some next))
    (found : after.calls m = some other) :
    m = n ∧ other = next ∨ m ≠ n ∧ before.calls m = some other := by
  rw [calls] at found
  exact Manager.calls_setCall found

theorem succeeds_of_update {m : Nat} {sessionId : Text}
    (calls : target.manager.calls = Function.update traced.manager.calls n (some next))
    (succeeds : target.Succeeds m sessionId) :
    (m = n ∧ next.sessionId = sessionId ∧ next.phase = .returned (.ok ())) ∨
      m ≠ n ∧ traced.Succeeds m sessionId := by
  obtain ⟨call, found, isFor, isDone⟩ := succeeds
  rcases call_of_update calls found with ⟨same, rfl⟩ | ⟨different, was⟩
  · exact .inl ⟨same, isFor, isDone⟩
  · exact .inr ⟨different, call, was, isFor, isDone⟩

namespace Sound

/-- Two calls do not both have the lock. -/
theorem not_locked_of_locked (sound : traced.Sound) (found : traced.manager.calls n = some call)
    (isLocked : call.phase.isLocked = true) {m : Nat} {other : SessionCall} (different : m ≠ n)
    (foundOther : traced.manager.calls m = some other) : other.phase.isLocked = false := by
  apply Bool.eq_false_of_not_eq_true
  intro otherLocked
  apply different
  exact Option.some.inj ((sound.locked m other foundOther otherLocked).1.symm.trans
    (sound.locked n call found isLocked).1)

/-- A call goes on, or takes the lock or returns it. -/
theorem goes (sound : traced.Sound) {manager : Manager}
    (calls : manager.calls = Function.update traced.manager.calls n (some next))
    (sessions : manager.sessions = traced.manager.sessions)
    (unfinished : next.phase ≠ .returned (.ok ()))
    (isValid : next.Alive → ValidSessionId next.sessionId)
    (isLocked : next.phase.isLocked = true →
      manager.lockedBy = some n ∧ traced.manager.sessions next.sessionId = none)
    (others : ∀ m other, m ≠ n → traced.manager.calls m = some other →
      other.phase.isLocked = true → manager.lockedBy = traced.manager.lockedBy) :
    Sound { traced with manager := manager } where
  held sessionId := by
    rw [sessions]
    exact sound.held sessionId
  locked m other found otherLocked := by
    rw [sessions]
    rcases call_of_update calls found with ⟨rfl, rfl⟩ | ⟨different, was⟩
    · exact isLocked otherLocked
    · rw [others m other different was otherLocked]
      exact sound.locked m other was otherLocked
  valid m other found alive := by
    rcases call_of_update calls found with ⟨_, rfl⟩ | ⟨_, was⟩
    · exact isValid alive
    · exact sound.valid m other was alive
  loaded := by
    rw [sessions]
    exact sound.loaded
  given m sessionId succeeds := by
    rw [sessions]
    rcases succeeds_of_update calls succeeds with ⟨_, _, isDone⟩ | ⟨_, was⟩
    · exact absurd isDone unfinished
    · exact sound.given m sessionId was
  inserted := by
    rw [sessions]
    exact sound.inserted
  once := sound.once

/-- A call finds an agent and returns it. -/
theorem find (sound : traced.Sound) (isValid : ValidSessionId call.sessionId)
    (sameId : next.sessionId = call.sessionId)
    (isLoaded : traced.manager.sessions call.sessionId ≠ none)
    (isDone : next.phase = .returned (.ok ())) :
    Sound { traced.give n (traced.held call.sessionId) with
      manager := traced.manager.setCall n next } := by
  have calls : (traced.manager.setCall n next).calls =
      Function.update traced.manager.calls n (some next) := rfl
  exact {
    held := sound.held
    locked m other found otherLocked := by
      rcases call_of_update calls found with ⟨_, rfl⟩ | ⟨_, was⟩
      · rw [isDone] at otherLocked
        contradiction
      · exact sound.locked m other was otherLocked
    valid m other found alive := by
      rcases call_of_update calls found with ⟨_, rfl⟩ | ⟨_, was⟩
      · rw [sameId]
        exact isValid
      · exact sound.valid m other was alive
    loaded := sound.loaded
    given m sessionId succeeds := by
      rcases succeeds_of_update calls succeeds with ⟨rfl, rfl, _⟩ | ⟨different, was⟩
      · rw [sameId]
        exact ⟨isLoaded, Function.update_self ..⟩
      · obtain ⟨present, same⟩ := sound.given m sessionId was
        exact ⟨present, (Function.update_of_ne different ..).trans same⟩
    inserted := sound.inserted
    once := sound.once }

/-- The call with the lock inserts the agent that it has built and returns it. -/
theorem insert (sound : traced.Sound) (found : traced.manager.calls n = some call)
    (isValid : ValidSessionId call.sessionId)
    (isLocked : call.phase.isLocked = true) (sameId : next.sessionId = call.sessionId)
    (loaded : LoadedAgent) (isDone : next.phase = .returned (.ok ())) :
    Sound { (traced.hold n call.sessionId).give n (some (.built n)) with
      manager := ((traced.manager.insert call.sessionId loaded).setCall n next).unlock } := by
  obtain ⟨_, unloaded⟩ := sound.locked n call found isLocked
  have calls : ((traced.manager.insert call.sessionId loaded).setCall n next).unlock.calls =
      Function.update traced.manager.calls n (some next) := rfl
  exact {
    held sessionId := by
      by_cases same : sessionId = call.sessionId
      · subst same
        simp [hold, give, Manager.unlock, Manager.setCall, Manager.insert]
      · simp only [hold, give, Manager.unlock, Manager.setCall, Manager.insert,
          Function.update_of_ne same]
        exact sound.held sessionId
    locked m other foundOther otherLocked := by
      rcases call_of_update calls foundOther with ⟨_, rfl⟩ | ⟨different, was⟩
      · rw [isDone] at otherLocked
        contradiction
      · rw [sound.not_locked_of_locked found isLocked different was] at otherLocked
        contradiction
    valid m other foundOther alive := by
      rcases call_of_update calls foundOther with ⟨_, rfl⟩ | ⟨_, was⟩
      · rw [sameId]
        exact isValid
      · exact sound.valid m other was alive
    loaded sessionId present := by
      by_cases same : sessionId = call.sessionId
      · rw [same]
        exact isValid
      · apply sound.loaded
        simpa [Manager.unlock, Manager.setCall, Manager.insert, same] using present
    given m sessionId succeeds := by
      rcases succeeds_of_update calls succeeds with ⟨rfl, rfl, _⟩ | ⟨different, was⟩
      · rw [sameId]
        simp [hold, give, Manager.unlock, Manager.setCall, Manager.insert]
      · obtain ⟨present, same⟩ := sound.given m sessionId was
        have others : sessionId ≠ call.sessionId := by
          rintro rfl
          exact present unloaded
        simp only [hold, give, Manager.unlock, Manager.setCall, Manager.insert,
          Function.update_of_ne others, Function.update_of_ne different]
        exact ⟨present, same⟩
    inserted insertion member := by
      rcases List.mem_cons.mp member with rfl | was
      · simp [Manager.unlock, Manager.setCall, Manager.insert]
      · by_cases same : insertion.2 = call.sessionId
        · rw [same]
          simp [Manager.unlock, Manager.setCall, Manager.insert]
        · simp only [Manager.unlock, Manager.setCall, Manager.insert, Function.update_of_ne same]
          exact sound.inserted insertion was
    once := by
      apply List.nodup_cons.mpr
      constructor
      · intro member
        obtain ⟨insertion, was, same⟩ := List.mem_map.mp member
        apply sound.inserted insertion was
        rw [same]
        exact unloaded
      · exact sound.once }

/-- Every step of a call. -/
theorem move (sound : traced.Sound) (found : traced.manager.calls n = some call)
    (running : call.phase.isReturned = false)
    (calls : target.manager.calls = Function.update traced.manager.calls n (some next))
    (sameId : next.sessionId = call.sessionId) (move : Move traced n call next target) :
    target.Sound := by
  have isValid := sound.valid n call found (SessionCall.alive_of_running running)
  have nextValid : next.Alive → ValidSessionId next.sessionId := fun _ => sameId ▸ isValid
  cases move with
  | go sessions lockedBy isLocked unfinished =>
      apply sound.goes calls sessions unfinished nextValid
      · intro nextLocked
        rw [lockedBy, sameId]
        exact sound.locked n call found (isLocked.symm.trans nextLocked)
      · exact fun _ _ _ _ _ => lockedBy
  | find isLoaded isDone => exact sound.find isValid sameId isLoaded isDone
  | lock isFree unloaded isLocked =>
      apply sound.goes calls rfl
      · intro isDone
        rw [isDone] at isLocked
        contradiction
      · exact nextValid
      · exact fun _ => ⟨rfl, sameId ▸ unloaded⟩
      · intro m other _ was otherLocked
        rw [(sound.locked m other was otherLocked).1] at isFree
        contradiction
  | fail isLocked isFailed =>
      apply sound.goes calls rfl
      · rw [isFailed]
        simp
      · exact nextValid
      · rw [isFailed]
        exact fun nextLocked => by contradiction
      · intro m other different was otherLocked
        rw [sound.not_locked_of_locked found isLocked different was] at otherLocked
        contradiction
  | insert isLocked loaded isDone => 
      exact sound.insert found isValid isLocked sameId loaded isDone

end Sound

end Update

/-- A new call. -/
theorem Sound.begin (sound : traced.Sound) (unfinished : call.phase ≠ .returned (.ok ()))
    (isValid : call.Alive → ValidSessionId call.sessionId)
    (unlocked : call.phase.isLocked = false) :
    Sound { traced with manager := traced.manager.setCall n call } := by
  have calls : (traced.manager.setCall n call).calls =
      Function.update traced.manager.calls n (some call) := rfl
  apply sound.goes calls rfl unfinished isValid
  · intro isLocked
    rw [unlocked] at isLocked
    contradiction
  · exact fun _ _ _ _ _ => rfl

theorem Sound.start (sound : traced.Sound) {sessionId : Text} {request : SessionRequest}
    {phase : Phase} (early : phase = .checking ∨ phase = .reading) {manager : Manager}
    (started : traced.manager.start n sessionId request phase = some manager) :
    Sound { traced with manager := manager } := by
  obtain ⟨_, created⟩ := Option.ite_none_left_eq_some.mp started
  split at created <;> cases created
  next problem _ => exact sound.begin (by simp) (fun alive => absurd rfl (alive _)) rfl
  next isValid => rcases early with rfl | rfl <;> exact sound.begin (by simp) (fun _ => isValid) rfl

/-- An agent works on its session, and remains the agent that it is. -/
theorem Sound.work (sound : traced.Sound) {sessionId : Text} {loaded : LoadedAgent}
    (isLoaded : traced.manager.sessions sessionId = some loaded) (next : LoadedAgent) :
    Sound { traced with manager := traced.manager.insert sessionId next } := by
  have sessions : ∀ other, (traced.manager.insert sessionId next).sessions other = none ↔
      traced.manager.sessions other = none := by
    intro other
    by_cases same : other = sessionId
    · subst same
      simp [Manager.insert, isLoaded]
    · simp [Manager.insert, same]
  exact {
    held other := (sound.held other).trans (sessions other).symm
    locked m call found isLocked := by
      obtain ⟨isHolder, unloaded⟩ := sound.locked m call found isLocked
      exact ⟨isHolder, (sessions _).mpr unloaded⟩
    valid := sound.valid
    loaded other present := sound.loaded other fun absent => present ((sessions other).mpr absent)
    given m other succeeds := by
      obtain ⟨present, same⟩ := sound.given m other succeeds
      exact ⟨fun absent => present ((sessions _).mp absent), same⟩
    inserted insertion member absent :=
      sound.inserted insertion member ((sessions _).mp absent)
    once := sound.once }

theorem Sound.persist (sound : traced.Sound) (writer : Writer) (file : Location)
    (session : Session) (write : SessionWrite) :
    Sound { traced with manager := traced.manager.save writer file session write } where
  held := by
    rw [Manager.sessions_save]
    exact sound.held
  locked := by
    rw [Manager.sessions_save, Manager.calls_save, Manager.lockedBy_save]
    exact sound.locked
  valid := by
    rw [Manager.calls_save]
    exact sound.valid
  loaded := by
    rw [Manager.sessions_save]
    exact sound.loaded
  given n sessionId succeeds := by
    rw [Succeeds, Manager.calls_save] at succeeds
    rw [Manager.sessions_save]
    exact sound.given n sessionId succeeds
  inserted := by
    rw [Manager.sessions_save]
    exact sound.inserted
  once := sound.once

/-- A step of a call is a step of the manager, with its agents. -/
theorem step_advance_eq_some_iff {draw : Draw} :
    traced.step settings (.advance n draw) = some target ↔ ∃ call manager,
      traced.manager.calls n = some call ∧
      traced.manager.advance settings n call draw = some manager ∧
      { traced.track n call with manager := manager } = target := by
  simp only [step, Manager.step, Option.map_eq_some_iff, Option.bind_eq_some_iff]
  constructor
  · rintro ⟨manager, ⟨call, found, advanced⟩, rfl⟩
    simp only [found]
    exact ⟨call, manager, rfl, advanced, rfl⟩
  · rintro ⟨call, manager, found, advanced, rfl⟩
    refine ⟨manager, ⟨call, found, advanced⟩, ?_⟩
    simp only [found]

theorem Sound.step (sound : traced.Sound) {event : ManagerEvent}
    (stepped : traced.step settings event = some target) : target.Sound := by
  cases event with
  | advance n draw =>
      obtain ⟨call, manager, found, advanced, rfl⟩ := step_advance_eq_some_iff.mp stepped
      have advances := Manager.advances_of_advance advanced
      obtain ⟨_, _, _, running, _⟩ := advances.exists_shape
      obtain ⟨next, calls, sameId, move⟩ := exists_move advances
      exact sound.move found running calls sameId move
  | createSession n sessionId fresh systemPrompt =>
      obtain ⟨manager, started, rfl⟩ := Option.map_eq_some_iff.mp stepped
      exact sound.start (.inl rfl) started
  | getOrLoad n sessionId =>
      obtain ⟨manager, started, rfl⟩ := Option.map_eq_some_iff.mp stepped
      exact sound.start (.inr rfl) started
  | work sessionId session redactor =>
      obtain ⟨manager, worked, rfl⟩ := Option.map_eq_some_iff.mp stepped
      obtain ⟨loaded, isLoaded, rfl⟩ := Option.map_eq_some_iff.mp worked
      exact sound.work isLoaded _
  | persist sessionId write =>
      obtain ⟨manager, persisted, rfl⟩ := Option.map_eq_some_iff.mp stepped
      obtain ⟨loaded, _, rfl⟩ := Option.map_eq_some_iff.mp persisted
      exact sound.persist ..

theorem sound_of_init (isInitial : (system settings).init traced) : traced.Sound := by
  obtain ⟨⟨_, idle, _, prebuilt⟩, held, _, inserted⟩ := isInitial
  exact {
    held sessionId := by
      rw [held sessionId, Option.map_eq_none_iff]
    locked n call found := by
      rw [idle n] at found
      contradiction
    valid n call found := by
      rw [idle n] at found
      contradiction
    loaded sessionId present := by
      obtain ⟨loaded, isLoaded⟩ := Option.ne_none_iff_exists'.mp present
      exact (prebuilt sessionId loaded isLoaded).1
    given n sessionId succeeds := by
      obtain ⟨call, found, _⟩ := succeeds
      rw [idle n] at found
      contradiction
    inserted := by
      rw [inserted]
      exact fun _ member => absurd member List.not_mem_nil
    once := by
      rw [inserted]
      exact List.nodup_nil }

/-! ## A call that runs alone -/

/-- What a call needs to insert an agent, by its phase. -/
def Ready (settings : ManagerSettings) (manager : Manager) (sessionId : Text) : Phase → Prop
  | .reading | .locking => manager.lockedBy = none ∧ manager.sessions sessionId = none ∧
      Usable (manager.files (settings.fileOf sessionId))
  | .opening => Usable (manager.files (settings.fileOf sessionId))
  | .loading => manager.files (settings.fileOf sessionId) ≠ none ∧
      Usable (manager.files (settings.fileOf sessionId))
  | .building origin => (Redactor.fromState origin.redaction).isSome
  | .starting | .merged _ _ _ | .inserting _ _ => True
  | .checking | .saving | .returned _ => False

/-- How many steps are left for such a call, at most. -/
def stepsLeft : Phase → Nat
  | .reading => 7
  | .locking => 6
  | .opening => 5
  | .loading | .starting => 4
  | .building _ => 3
  | .merged _ _ _ => 2
  | .inserting _ _ => 1
  | .checking | .saving | .returned _ => 0

def rank (n : Nat) (traced : TracedManager) : Nat :=
  (traced.manager.calls n).elim 0 fun call => stepsLeft call.phase

/-- The call has inserted an agent and returned it. -/
def Builds (n : Nat) (sessionId : Text) (traced : TracedManager) : Prop :=
  traced.Succeeds n sessionId ∧ traced.given n = some (.built n)

def OnWay (settings : ManagerSettings) (n : Nat) (sessionId : Text) (traced : TracedManager) :
    Prop :=
  traced.Builds n sessionId ∨ ∃ call, traced.manager.calls n = some call ∧
    call.sessionId = sessionId ∧ Ready settings traced.manager sessionId call.phase

theorem rank_lt {before : SessionCall} (found : traced.manager.calls n = some before)
    (next : target.manager.calls n = some call)
    (nearer : stepsLeft call.phase < stepsLeft before.phase) : rank n target < rank n traced := by
  simp only [rank, next, found]
  exact nearer

/-- A step in which everything works. -/
theorem smoothly_eq_some {before : SessionCall} (found : traced.manager.calls n = some before)
    {manager : Manager}
    (advances : Manager.Advances settings traced.manager n before
      ⟨0, Block.replicate 32 0, .written, true⟩ manager) :
    traced.step settings (Manager.smoothly n) =
      some { traced.track n before with manager := manager } :=
  step_advance_eq_some_iff.mpr ⟨before, manager, found, advances.advance_eq, rfl⟩

/-- A step to a phase with fewer steps left. -/
theorem advances_of_ready {before : SessionCall} (found : traced.manager.calls n = some before)
    {manager : Manager}
    (advances : Manager.Advances settings traced.manager n before
      ⟨0, Block.replicate 32 0, .written, true⟩ manager)
    (next : manager.calls n = some call) (untracked : traced.track n before = traced)
    (ready : Ready settings manager call.sessionId call.phase)
    (nearer : stepsLeft call.phase < stepsLeft before.phase) :
    ∃ event target, event = Manager.smoothly n ∧ traced.step settings event = some target ∧
      OnWay settings n call.sessionId target ∧ rank n target < rank n traced := by
  have stepped := smoothly_eq_some found advances
  rw [untracked] at stepped
  exact ⟨_, _, rfl, stepped, .inr ⟨call, next, rfl, ready⟩, rank_lt found next nearer⟩

/-- A call that is ready has a step to where it is ready again, or has returned its agent. -/
theorem exists_step_of_ready (found : traced.manager.calls n = some call)
    (ready : Ready settings traced.manager call.sessionId call.phase) :
    ∃ event target, event = Manager.smoothly n ∧ traced.step settings event = some target ∧
      OnWay settings n call.sessionId target ∧ rank n target < rank n traced := by
  have self : ∀ {manager : Manager} {next : SessionCall},
      (manager.setCall n next).calls n = some next := Function.update_self ..
  cases isPhase : call.phase <;> simp only [isPhase, Ready] at ready
  case reading =>
    obtain ⟨isFree, unloaded, usable⟩ := ready
    apply advances_of_ready found (.miss isPhase isFree unloaded) self
    · exact track_eq_self (fun _ => unloaded) (by simp [isPhase])
    · exact ⟨isFree, unloaded, usable⟩
    · simp [isPhase, stepsLeft]
  case locking =>
    obtain ⟨isFree, unloaded, usable⟩ := ready
    apply advances_of_ready found (.lock isPhase isFree unloaded) self
    · exact track_eq_self (fun _ => unloaded) (by simp [isPhase])
    · exact usable
    · simp [isPhase, stepsLeft]
  case opening =>
    have untracked : traced.track n call = traced :=
      track_eq_self (by simp [isPhase]) (by simp [isPhase])
    by_cases noFile : traced.manager.files (settings.fileOf call.sessionId) = none
    · apply advances_of_ready found (.findNoFile isPhase noFile) self untracked
      · trivial
      · simp [isPhase, stepsLeft]
    · apply advances_of_ready found (.findFile isPhase noFile) self untracked
      · exact ⟨noFile, ready⟩
      · simp [isPhase, stepsLeft]
  case loading =>
    obtain ⟨present, usable⟩ := ready
    obtain ⟨file, isFile⟩ := Option.ne_none_iff_exists'.mp present
    obtain ⟨session, isSession, isBuilt⟩ := usable file isFile 0 (Block.replicate 32 0)
    apply advances_of_ready found (.load isPhase file session isFile isSession) self
    · exact track_eq_self (by simp [isPhase]) (by simp [isPhase])
    · exact isBuilt
    · simp [isPhase, stepsLeft]
  case starting =>
    apply advances_of_ready found (.start isPhase _ rfl) self
    · exact track_eq_self (by simp [isPhase]) (by simp [isPhase])
    · change (Redactor.fromState (.new _)).isSome
      rw [fromState_new]
      rfl
    · simp [isPhase, stepsLeft]
  case building origin =>
    obtain ⟨restored, isRestored⟩ := Option.isSome_iff_exists.mp ready
    apply advances_of_ready found (.merge origin isPhase restored isRestored _ _ rfl) self
    · exact track_eq_self (by simp [isPhase]) (by simp [isPhase])
    · trivial
    · simp [isPhase, stepsLeft]
  case merged origin session redactor =>
    apply advances_of_ready found (.build origin session redactor isPhase rfl _ rfl) self
    · exact track_eq_self (by simp [isPhase]) (by simp [isPhase])
    · trivial
    · simp [isPhase, stepsLeft]
  case inserting origin agent =>
    have inserts : Manager.Advances settings traced.manager n call
        ⟨0, Block.replicate 32 0, .written, true⟩ _ := .insert origin agent isPhase
    have stepped := smoothly_eq_some found inserts
    simp only [track, isPhase] at stepped
    refine ⟨_, _, rfl, stepped, .inl ⟨⟨_, self, rfl, rfl⟩, Function.update_self ..⟩,
      rank_lt found self ?_⟩
    simp [isPhase, stepsLeft]

/-- With the lock free and no agent in memory, a new call for the session can succeed. -/
theorem retries_of_free {sessionId : Text} (isValid : ValidSessionId sessionId)
    (isFree : traced.manager.lockedBy = none)
    (unloaded : traced.manager.sessions sessionId = none) :
    traced.Retries settings sessionId := by
  intro files n fresh usable
  let call : SessionCall := ⟨sessionId, .load, .reading, false, none⟩
  let manager : Manager := { traced.manager with files := files }
  let started : TracedManager := { traced with manager := manager.setCall n call }
  have starts : TracedManager.step settings { traced with manager := manager }
      (.getOrLoad n sessionId) = some started := by
    have start : manager.start n sessionId .load .reading = some (manager.setCall n call) := by
      rw [Manager.start, if_neg (by rw [fresh]; simp), isValid]
    rw [step, Manager.step, start]
    rfl
  have onWay : OnWay settings n sessionId started :=
    .inr ⟨call, Function.update_self .., rfl, isFree, unloaded, usable⟩
  have progress : ∀ state, OnWay settings n sessionId state → Builds n sessionId state ∨
      ∃ event target, event = Manager.smoothly n ∧
        (system settings).step state event = some target ∧
        OnWay settings n sessionId target ∧ rank n target < rank n state := by
    rintro state (builds | ⟨call, found, rfl, ready⟩)
    · exact .inl builds
    · exact .inr (exists_step_of_ready found ready)
  obtain ⟨events, target, smooth, replayed, builds⟩ :=
    System.exists_run_of_rank (rank n) progress onWay
  refine ⟨events, target, smooth, ?_, builds⟩
  rw [System.run]
  exact Option.bind_eq_some_iff.mpr ⟨started, starts, replayed⟩

/-- A step with which a call fails leaves the agents as they are, and when it is under the lock
the lock is returned. -/
theorem Move.failed {next : SessionCall} {problem : ManagerError}
    (move : Move traced n call next target)
    (isFailed : next.phase = .returned (.error problem)) :
    target.manager.sessions = traced.manager.sessions ∧ target.held = traced.held ∧
      target.inserted = traced.inserted ∧
      (problem.isBuild = true →
        call.phase.isLocked = true ∧ target.manager.lockedBy = none) := by
  cases move with
  | go sessions _ _ _ notBuild =>
      refine ⟨sessions, rfl, rfl, fun isBuild => ?_⟩
      rw [notBuild problem isFailed] at isBuild
      contradiction
  | find _ isDone => cases isFailed.symm.trans isDone
  | lock _ _ isLocked =>
      rw [isFailed] at isLocked
      contradiction
  | fail isLocked _ => exact ⟨rfl, rfl, rfl, fun _ => ⟨isLocked, rfl⟩⟩
  | insert _ _ isDone => cases isFailed.symm.trans isDone

/-- A call that fails inserts no agent, and leaves a session that it could not load or build to
later calls. -/
theorem Sound.failed (sound : traced.Sound) {draw : Draw} {problem : ManagerError}
    (stepped : traced.step settings (.advance n draw) = some target)
    (found : target.manager.calls n = some call)
    (isFailed : call.phase = .returned (.error problem)) :
    target.manager.sessions = traced.manager.sessions ∧ target.held = traced.held ∧
      target.inserted = traced.inserted ∧
      (problem.isBuild = true → target.Retries settings call.sessionId) := by
  obtain ⟨before, manager, was, advanced, rfl⟩ := step_advance_eq_some_iff.mp stepped
  have advances := Manager.advances_of_advance advanced
  obtain ⟨_, _, _, running, _⟩ := advances.exists_shape
  obtain ⟨next, calls, sameId, move⟩ := exists_move advances
  have isNext : next = call := by
    rw [calls, Function.update_self] at found
    exact Option.some.inj found
  subst isNext
  obtain ⟨sessions, held, inserted, returned⟩ := move.failed isFailed
  refine ⟨sessions, held, inserted, fun isBuild => ?_⟩
  obtain ⟨isLocked, isFree⟩ := returned isBuild
  have isValid := sound.valid n before was (SessionCall.alive_of_running running)
  have unloaded := (sound.locked n before was isLocked).2
  rw [sameId]
  exact retries_of_free isValid isFree ((congrFun sessions _).trans unloaded)

/-- The agents are a trace: a run of the manager is a run with its agents, and no step depends
on them. -/
theorem reachable_manager {allowed : Manager → ManagerEvent → Prop}
    (reachable : (system settings).Reachable (fun traced => allowed traced.manager) traced) :
    (Manager.system settings).Reachable allowed traced.manager := by
  have initial : ∀ state, (system settings).init state →
      (Manager.system settings).init state.manager :=
    fun _ isInitial => isInitial.1
  apply reachable.simulated manager initial
  intro state event after _ isAllowed stepped
  obtain ⟨next, managed, isAfter⟩ := Option.map_eq_some_iff.mp stepped
  have same : after.manager = next := by
    subst isAfter
    cases event with
    | advance n draw =>
        obtain ⟨call, found, _⟩ := Option.bind_eq_some_iff.mp managed
        simp only [found]
    | _ => rfl
  rw [same]
  exact .inr ⟨event, isAllowed, managed⟩

theorem exists_reachable {allowed : Manager → ManagerEvent → Prop} {manager : Manager}
    (reachable : (Manager.system settings).Reachable allowed manager) :
    ∃ traced : TracedManager, traced.manager = manager ∧
      (system settings).Reachable (fun traced => allowed traced.manager) traced := by
  induction reachable with
  | @start manager isInitial =>
      let held sessionId := (manager.sessions sessionId).map fun _ => Instance.prebuilt sessionId
      exact ⟨⟨manager, held, fun _ => none, []⟩, rfl,
        .start ⟨isInitial, fun _ => rfl, fun _ => rfl, rfl⟩⟩
  | @next _ target event _ isAllowed stepped inductionHypothesis =>
      obtain ⟨traced, rfl, reachable⟩ := inductionHypothesis
      refine ⟨_, ?_, .next reachable isAllowed
        (Option.map_eq_some_iff.mpr ⟨target, stepped, rfl⟩)⟩
      cases event with
      | advance n draw =>
          obtain ⟨call, found, _⟩ := Option.bind_eq_some_iff.mp stepped
          simp only [found]
      | _ => rfl

theorem sound_of_reachable {allowed : TracedManager → ManagerEvent → Prop}
    (reachable : (system settings).Reachable allowed traced) : traced.Sound :=
  reachable.invariant (fun _ => sound_of_init) fun _ _ _ sound _ stepped => sound.step stepped

/-- **There is one agent for each session** in every run of any number of calls. -/
theorem unique_of_reachable
    (reachable : (system settings).Reachable (fun _ _ => True) traced) :
    traced.Unique settings := by
  have sound := sound_of_reachable reachable
  constructor
  · intro left right sessionId leftSucceeds rightSucceeds
    obtain ⟨present, sameLeft⟩ := sound.given left sessionId leftSucceeds
    obtain ⟨_, sameRight⟩ := sound.given right sessionId rightSucceeds
    have isHeld : traced.held sessionId ≠ none :=
      fun absent => present ((sound.held sessionId).mp absent)
    obtain ⟨agent, isAgent⟩ := Option.ne_none_iff_exists'.mp isHeld
    exact ⟨agent, sameLeft.trans isAgent, sameRight.trans isAgent⟩
  · exact sound.once
  · intro n draw target call problem stepped found isFailed
    exact sound.failed stepped found isFailed

/-- Only sessions with valid ids are in memory. -/
theorem valid_of_loaded {allowed : Manager → ManagerEvent → Prop} {manager : Manager}
    (reachable : (Manager.system settings).Reachable allowed manager) {sessionId : Text}
    (isLoaded : manager.sessions sessionId ≠ none) : ValidSessionId sessionId := by
  obtain ⟨traced, rfl, traces⟩ := exists_reachable reachable
  exact (sound_of_reachable traces).loaded sessionId isLoaded

/-! ## Two calls at once -/

def idleTraced : TracedManager where
  manager := Manager.idleManager
  held _ := none
  given _ := none
  inserted := []

/-- Two calls look for the session and do not find it; the one that gets the lock first builds
the agent for both.  A call for another session fails to build one. -/
def loadedTwice : List ManagerEvent :=
  [.getOrLoad 0 (text "a"), .getOrLoad 1 (text "a"), .getOrLoad 2 (text "b"),
    Manager.smoothly 0, Manager.smoothly 1, Manager.smoothly 0, Manager.smoothly 0,
    Manager.smoothly 0, Manager.smoothly 0, Manager.smoothly 0, Manager.smoothly 0,
    Manager.smoothly 1, Manager.smoothly 2, Manager.smoothly 2, Manager.smoothly 2,
    Manager.smoothly 2, Manager.smoothly 2,
    .advance 2 ⟨0, Block.replicate 32 0, .notOpened, false⟩]

def twiceLoaded : TracedManager :=
  ((system Manager.plainSettings).run idleTraced loadedTwice).get (by decide +kernel)

theorem unique_loadedTwice :
    twiceLoaded.Succeeds 0 (text "a") ∧ twiceLoaded.Succeeds 1 (text "a") ∧
      twiceLoaded.inserted = [(0, text "a")] ∧ twiceLoaded.Unique Manager.plainSettings := by
  have initial : (system Manager.plainSettings).Reachable (fun _ _ => True) idleTraced :=
    .start ⟨⟨rfl, fun _ => rfl, rfl, fun _ _ found => by contradiction⟩, fun _ => rfl,
      fun _ => rfl, rfl⟩
  have always : (system Manager.plainSettings).Admits (fun _ _ => True) idleTraced loadedTwice :=
    System.admits_of_forall (fun _ _ _ => trivial) idleTraced
  exact ⟨⟨_, rfl, rfl, rfl⟩, ⟨_, rfl, rfl, rfl⟩, rfl,
    unique_of_reachable (.of_run initial always (Option.some_get _).symm)⟩

end TracedManager

end ZkLlmGateway.Client
