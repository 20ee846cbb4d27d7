import ZkLlmGateway.Client.Manager

/-!
# One session among many

Seen from one session, the manager is a slot: its file, its agent in memory and
the calls for its id.  The calls of other sessions leave the slot alone, as long
as no other session is given its file.
-/

namespace ZkLlmGateway.Client

open ZkLlmGateway.Encoding ZkLlmGateway.Common ZkLlmGateway.Transition

/-! ## Slots -/

namespace Phase

/-- The call has found a file, or has gone on without one. -/
def isOpened : Phase → Bool
  | loading | building _ | merged _ _ _ | inserting _ _ => true
  | _ => false

/-- The call may have saved the session it has loaded. -/
def hasWritten : Phase → Bool
  | merged _ _ _ | inserting _ _ => true
  | _ => false

/-- What the agent that is being built is built from. -/
def origin? : Phase → Option Session
  | building origin | merged origin _ _ | inserting origin _ => some origin
  | _ => none

/-- The call has saved a new session, or does not create one. -/
def isLate : Phase → Bool
  | checking | saving | starting | returned (.error _) => false
  | _ => true

variable {phase : Phase}

theorem isOpened_of_hasWritten (hasWritten : phase.hasWritten = true) :
    phase.isOpened = true := by
  cases phase <;> first | rfl | contradiction

theorem isOpened_of_origin {origin : Session} (isOrigin : phase.origin? = some origin) :
    phase.isOpened = true := by
  cases phase <;> first | rfl | contradiction

theorem isLocked_of_isOpened (isOpened : phase.isOpened = true) : phase.isLocked = true := by
  cases phase <;> first | rfl | contradiction

end Phase

namespace SessionCall

/-- The call has not failed. -/
def Alive (call : SessionCall) : Prop :=
  ∀ problem, call.phase ≠ .returned (.error problem)

/-- The call has found no file and makes one, or has created the session. -/
structure Engaged (call : SessionCall) : Prop where
  foundNone : call.foundNone = true
  alive : call.Alive
  running : call.request = .load → call.phase.isReturned = false

/-- What a call has done so far, by its control point. -/
def Proper (call : SessionCall) : Prop :=
  match call.request, call.phase with
  | _, .returned (.error _) => True
  | .load, .checking | .load, .saving => False
  | .load, .starting => call.created = none ∧ call.foundNone = true
  | .load, _ => call.created = none
  | .create _, .checking => call.created = none
  | .create _, .saving => call.created = none ∧ call.foundNone = true
  | .create _, .starting => False
  | .create systemPrompt, _ => call.foundNone = true ∧
      ∃ session, call.created = some session ∧ session.systemPrompt = systemPrompt

end SessionCall

/-- What concerns one session. -/
structure Slot where
  content : Option SessionFile
  loaded : Option LoadedAgent
  writers : List Writer
  calls : Nat → Option SessionCall

namespace Slot

def setCall (slot : Slot) (n : Nat) (call : SessionCall) : Slot :=
  { slot with calls := Function.update slot.calls n (some call) }

def save (slot : Slot) (writer : Writer) (session : Session) (write : SessionWrite) : Slot :=
  match write.leaves session with
  | none => slot
  | some content => { slot with content := some content, writers := writer :: slot.writers }

def insert (slot : Slot) (loaded : LoadedAgent) : Slot :=
  { slot with loaded := some loaded }

def HasWritten (slot : Slot) (n : Nat) : Prop :=
  ∃ call, slot.calls n = some call ∧ call.phase.hasWritten = true

/-- The session that call `n` has created is the one in memory, or the one in the file unless
it is about to be in memory. -/
structure Kept (slot : Slot) (n : Nat) (session : Session) : Prop where
  content : slot.content ≠ none
  loaded : ∀ loaded, slot.loaded = some loaded → loaded.origin = session
  origin : ∀ other call origin, slot.calls other = some call →
    call.phase.origin? = some origin → origin = session
  clean : slot.loaded = none → (∃ other, other ≠ n ∧ slot.HasWritten other) ∨
    (∀ writer ∈ slot.writers, writer = .create n) ∧
      (slot.HasWritten n ∨ slot.content = some (.session session))
  done : ∀ call, slot.calls n = some call → call.phase = .returned (.ok ()) → slot.loaded ≠ none

/-- The creation of the session is not disturbed. -/
structure Sound (slot : Slot) (lockedBy : Option Nat) : Prop where
  locked : ∀ n call, slot.calls n = some call → call.phase.isLocked = true →
    lockedBy = some n ∧ slot.loaded = none
  written : slot.content = none → slot.writers = []
  opened : ∀ n call, slot.calls n = some call → call.phase.isOpened = true →
    call.foundNone = true ∨ slot.content ≠ none
  single : ∀ left right leftCall rightCall, slot.calls left = some leftCall →
    slot.calls right = some rightCall → leftCall.Engaged → rightCall.Engaged → left = right
  saving : ∀ n call, slot.calls n = some call → call.phase = .saving →
    slot.content = none ∧ slot.loaded = none
  proper : ∀ n call, slot.calls n = some call → call.Proper
  kept : ∀ n call session, slot.calls n = some call → call.created = some session →
    call.Alive → slot.Kept n session
  intact : slot.writers.Pairwise fun later earlier => ∀ n, later = .create n → earlier = .create n

end Slot

/-! ## Facts about calls -/

section Calls

variable {call : SessionCall}

theorem SessionCall.alive_of_running (running : call.phase.isReturned = false) : call.Alive := by
  intro problem failed
  rw [failed] at running
  contradiction

/-- A call that has created its session is engaged in it. -/
theorem SessionCall.Proper.engaged (proper : call.Proper) {session : Session}
    (created : call.created = some session) (alive : call.Alive) : call.Engaged := by
  obtain ⟨sessionId, request, phase, foundNone, history⟩ := call
  cases created
  cases request with
  | load => cases phase <;> simp_all [Proper, Alive]
  | create systemPrompt =>
      refine ⟨?_, alive, fun isLoad => by contradiction⟩
      cases phase <;> simp_all [Proper, Alive]

/-- What a call has done does not change any more. -/
theorem SessionCall.Proper.late (proper : call.Proper) (late : call.phase.isLate = true)
    {phase : Phase} (nextLate : phase.isLate = true) :
    Proper { call with phase := phase } := by
  have same : ∀ {phase : Phase}, phase.isLate = true →
      (Proper { call with phase := phase } ↔ match call.request with
        | .load => call.created = none
        | .create systemPrompt => call.foundNone = true ∧
            ∃ session, call.created = some session ∧ session.systemPrompt = systemPrompt) := by
    intro phase isLate
    cases request : call.request <;>
      rcases phase with _ | _ | _ | _ | _ | _ | _ | _ | _ | _ | (_ | _) <;>
      first | contradiction | simp [Proper]
  exact (same nextLate).mpr ((same late).mp proper)

end Calls

namespace Slot

section Slots

variable {slot : Slot} {lockedBy : Option Nat} {n : Nat} {before call : SessionCall}

/-- A call of a changed slot is the one that has changed, or as before. -/
theorem calls_setCall {m : Nat} {other : SessionCall}
    (found : (slot.setCall n call).calls m = some other) :
    m = n ∧ other = call ∨ m ≠ n ∧ slot.calls m = some other := by
  by_cases same : m = n
  · subst same
    simp only [setCall, Function.update_self, Option.some.injEq] at found
    exact .inl ⟨rfl, found.symm⟩
  · simp only [setCall, Function.update_of_ne same] at found
    exact .inr ⟨same, found⟩

theorem hasWritten_setCall (written : slot.HasWritten n → call.phase.hasWritten = true) {m : Nat}
    (before : slot.HasWritten m) : (slot.setCall n call).HasWritten m := by
  by_cases same : m = n
  · subst same
    exact ⟨call, Function.update_self .., written before⟩
  · obtain ⟨other, found, hasWritten⟩ := before
    exact ⟨other, (Function.update_of_ne same ..).trans found, hasWritten⟩

namespace Sound

/-- Only one call is engaged, so that no other call has created the session. -/
theorem eq_of_engaged (sound : slot.Sound lockedBy) (found : slot.calls n = some call)
    (engaged : call.Engaged) {m : Nat} {other : SessionCall} {session : Session}
    (foundOther : slot.calls m = some other) (created : other.created = some session)
    (alive : other.Alive) : m = n :=
  sound.single m n other call foundOther found
    ((sound.proper m other foundOther).engaged created alive) engaged

/-- Only one call has the lock. -/
theorem eq_of_locked (sound : slot.Sound lockedBy) (found : slot.calls n = some call)
    (isLocked : call.phase.isLocked = true) {m : Nat} {other : SessionCall}
    (foundOther : slot.calls m = some other) (otherLocked : other.phase.isLocked = true) : m = n :=
  Option.some.inj ((sound.locked m other foundOther otherLocked).1.symm.trans
    (sound.locked n call found isLocked).1)

/-- The session in a file that has not been saved again. -/
theorem clean_of_locked (sound : slot.Sound lockedBy) (found : slot.calls n = some call)
    (isLocked : call.phase.isLocked = true) {m : Nat} {session : Session}
    (kept : slot.Kept m session) (reading : m ≠ n → call.phase.hasWritten = false) :
    (∀ writer ∈ slot.writers, writer = .create m) ∧
      (slot.HasWritten m ∨ slot.content = some (.session session)) := by
  apply (kept.clean (sound.locked n call found isLocked).2).resolve_left
  rintro ⟨other, different, otherCall, foundOther, hasWritten⟩
  have same := sound.eq_of_locked found isLocked foundOther
    (Phase.isLocked_of_isOpened (Phase.isOpened_of_hasWritten hasWritten))
  subst same
  rw [found] at foundOther
  cases foundOther
  rw [reading different.symm] at hasWritten
  contradiction

/-- The lock is taken or released for another session. -/
theorem relock (sound : slot.Sound lockedBy) {next : Option Nat}
    (same : ∀ n call, slot.calls n = some call → lockedBy = some n → next = lockedBy) :
    slot.Sound next :=
  { sound with
    locked := fun n call found isLocked => by
      obtain ⟨holds, unloaded⟩ := sound.locked n call found isLocked
      exact ⟨(same n call found holds).trans holds, unloaded⟩ }

end Sound

/-- What a call keeps when another one goes on. -/
theorem Kept.setCall {m : Nat} {session : Session} (kept : slot.Kept m session)
    (origin : ∀ origin, call.phase.origin? = some origin → origin = session)
    (written : slot.HasWritten n → call.phase.hasWritten = true)
    (done : m = n → call.phase = .returned (.ok ()) → slot.loaded ≠ none) :
    (slot.setCall n call).Kept m session where
  content := kept.content
  loaded := kept.loaded
  origin other otherCall isFrom found isOrigin := by
    rcases calls_setCall found with ⟨_, rfl⟩ | ⟨_, found⟩
    · exact origin isFrom isOrigin
    · exact kept.origin other otherCall isFrom found isOrigin
  clean unloaded := by
    rcases kept.clean unloaded with ⟨other, different, hasWritten⟩ | ⟨writers, hasWritten | same⟩
    · exact .inl ⟨other, different, hasWritten_setCall written hasWritten⟩
    · exact .inr ⟨writers, .inl (hasWritten_setCall written hasWritten)⟩
    · exact .inr ⟨writers, .inr same⟩
  done other found isDone := by
    rcases calls_setCall found with ⟨same, rfl⟩ | ⟨_, found⟩
    · exact done same isDone
    · exact kept.done other found isDone

/-- A step of a call that touches neither the file nor the map. -/
theorem Sound.setCall (sound : slot.Sound lockedBy) {next : Option Nat}
    (others : ∀ m other, m ≠ n → slot.calls m = some other → other.phase.isLocked = true →
      next = lockedBy)
    (locked : call.phase.isLocked = true → next = some n ∧ slot.loaded = none)
    (opened : call.phase.isOpened = true → call.foundNone = true ∨ slot.content ≠ none)
    (single : call.Engaged → ∀ m other, m ≠ n → slot.calls m = some other → ¬other.Engaged)
    (saving : call.phase = .saving → slot.content = none ∧ slot.loaded = none)
    (proper : call.Proper)
    (kept : ∀ m other session, (slot.setCall n call).calls m = some other →
      other.created = some session → other.Alive → (slot.setCall n call).Kept m session) :
    (slot.setCall n call).Sound next where
  locked m other found isLocked := by
    rcases calls_setCall found with ⟨rfl, rfl⟩ | ⟨different, found⟩
    · exact locked isLocked
    · obtain ⟨holds, unloaded⟩ := sound.locked m other found isLocked
      exact ⟨(others m other different found isLocked).trans holds, unloaded⟩
  written := sound.written
  opened m other found isOpened := by
    rcases calls_setCall found with ⟨rfl, rfl⟩ | ⟨_, found⟩
    · exact opened isOpened
    · exact sound.opened m other found isOpened
  single left right leftCall rightCall foundLeft foundRight leftEngaged rightEngaged := by
    rcases calls_setCall foundLeft with ⟨rfl, rfl⟩ | ⟨leftDifferent, wasLeft⟩ <;>
      rcases calls_setCall foundRight with ⟨rfl, rfl⟩ | ⟨rightDifferent, wasRight⟩
    · rfl
    · exact absurd rightEngaged (single leftEngaged right rightCall rightDifferent wasRight)
    · exact absurd leftEngaged (single rightEngaged left leftCall leftDifferent wasLeft)
    · exact sound.single left right leftCall rightCall wasLeft wasRight leftEngaged rightEngaged
  saving m other found isSaving := by
    rcases calls_setCall found with ⟨rfl, rfl⟩ | ⟨_, found⟩
    · exact saving isSaving
    · exact sound.saving m other found isSaving
  proper m other found := by
    rcases calls_setCall found with ⟨_, rfl⟩ | ⟨_, found⟩
    · exact proper
    · exact sound.proper m other found
  kept := kept
  intact := sound.intact

/-- Such a step of a call that goes on with what it has created. -/
theorem Sound.move (sound : slot.Sound lockedBy) {next : Option Nat}
    (found : slot.calls n = some before) (running : before.phase.isReturned = false)
    (sameCreated : call.created = before.created)
    (others : ∀ m other, m ≠ n → slot.calls m = some other → other.phase.isLocked = true →
      next = lockedBy)
    (locked : call.phase.isLocked = true → next = some n ∧ slot.loaded = none)
    (opened : call.phase.isOpened = true → call.foundNone = true ∨ slot.content ≠ none)
    (single : call.Engaged → before.Engaged ∨
      ∀ m other, m ≠ n → slot.calls m = some other → ¬other.Engaged)
    (saving : call.phase = .saving → slot.content = none ∧ slot.loaded = none)
    (proper : call.Proper)
    (origin : ∀ m other session, slot.calls m = some other → other.created = some session →
      other.Alive → ∀ origin, call.phase.origin? = some origin → origin = session)
    (written : before.phase.hasWritten = true → call.phase.hasWritten = true ∨
      ¬call.Alive ∧ ∀ m other, m ≠ n → slot.calls m = some other → other.Alive →
        other.created = none)
    (done : call.phase = .returned (.ok ()) → slot.loaded ≠ none) :
    (slot.setCall n call).Sound next := by
  refine sound.setCall others locked opened ?_ saving proper ?_
  · intro engaged m other different foundOther otherEngaged
    rcases single engaged with beforeEngaged | alone
    · exact different (sound.single m n other before foundOther found otherEngaged beforeEngaged)
    · exact alone m other different foundOther otherEngaged
  · intro m other session foundOther created alive
    have writes : slot.HasWritten n → call.phase.hasWritten = true := by
      rintro ⟨current, foundCurrent, hasWritten⟩
      rw [found] at foundCurrent
      cases foundCurrent
      rcases written hasWritten with stays | ⟨failed, alone⟩
      · exact stays
      · rcases calls_setCall foundOther with ⟨_, rfl⟩ | ⟨different, foundOther⟩
        · exact absurd alive failed
        · rw [alone m other different foundOther alive] at created
          contradiction
    obtain ⟨was, wasFound, wasCreated, wasAlive⟩ : ∃ was, slot.calls m = some was ∧
        was.created = some session ∧ was.Alive := by
      rcases calls_setCall foundOther with ⟨rfl, rfl⟩ | ⟨_, wasOther⟩
      · exact ⟨before, found, sameCreated ▸ created, SessionCall.alive_of_running running⟩
      · exact ⟨other, wasOther, created, alive⟩
    exact (sound.kept m was session wasFound wasCreated wasAlive).setCall
      (origin m was session wasFound wasCreated wasAlive) writes fun _ => done

/-- A call that fails. -/
theorem Sound.fail (sound : slot.Sound lockedBy) {next : Option Nat}
    (found : slot.calls n = some before) (running : before.phase.isReturned = false)
    (others : ∀ m other, m ≠ n → slot.calls m = some other → other.phase.isLocked = true →
      next = lockedBy)
    (written : before.phase.hasWritten = true → ∀ m other, m ≠ n → slot.calls m = some other →
      other.Alive → other.created = none) (problem : ManagerError) :
    (slot.setCall n { before with phase := .returned (.error problem) }).Sound next := by
  refine sound.move found running rfl others ?_ ?_ ?_ ?_ ?_ ?_ ?_ ?_
  · intro isLocked
    contradiction
  · intro isOpened
    contradiction
  · intro engaged
    exact absurd rfl (engaged.alive problem)
  · intro isSaving
    contradiction
  · cases request : before.request <;> simp [SessionCall.Proper]
  · intro _ _ _ _ _ _ origin isOrigin
    contradiction
  · intro hasWritten
    exact .inr ⟨fun alive => alive problem rfl, written hasWritten⟩
  · intro isDone
    cases isDone

/-- A call that goes on, past its check of the file. -/
theorem Sound.proceed (sound : slot.Sound lockedBy) {next : Option Nat}
    (found : slot.calls n = some before) (running : before.phase.isReturned = false)
    (late : before.phase.isLate = true) {phase : Phase} (nextLate : phase.isLate = true)
    (others : ∀ m other, m ≠ n → slot.calls m = some other → other.phase.isLocked = true →
      next = lockedBy)
    (locked : phase.isLocked = true → next = some n ∧ slot.loaded = none)
    (opened : phase.isOpened = true → before.foundNone = true ∨ slot.content ≠ none)
    (origin : ∀ m other session, slot.calls m = some other → other.created = some session →
      other.Alive → ∀ origin, phase.origin? = some origin → origin = session)
    (written : before.phase.hasWritten = true → phase.hasWritten = true)
    (done : phase = .returned (.ok ()) → slot.loaded ≠ none) :
    (slot.setCall n { before with phase := phase }).Sound next := by
  refine sound.move found running rfl others locked opened ?_ ?_
    ((sound.proper n before found).late late nextLate) origin
    (fun hasWritten => .inl (written hasWritten)) done
  · intro engaged
    exact .inl ⟨engaged.foundNone, SessionCall.alive_of_running running, fun _ => running⟩
  · rintro rfl
    contradiction

/-- A call that goes on before it has read the file. -/
theorem Sound.look (sound : slot.Sound lockedBy) {next : Option Nat}
    (found : slot.calls n = some before)
    (looking : before.phase = .reading ∨ before.phase = .locking ∨ before.phase = .opening)
    {phase : Phase} (nextLate : phase.isLate = true) (noOrigin : phase.origin? = none)
    (others : ∀ m other, m ≠ n → slot.calls m = some other → other.phase.isLocked = true →
      next = lockedBy)
    (locked : phase.isLocked = true → next = some n ∧ slot.loaded = none)
    (opened : phase.isOpened = true → slot.content ≠ none)
    (done : phase = .returned (.ok ()) → slot.loaded ≠ none) :
    (slot.setCall n { before with phase := phase }).Sound next := by
  obtain ⟨running, late, notWritten⟩ : before.phase.isReturned = false ∧
      before.phase.isLate = true ∧ before.phase.hasWritten = false := by
    rcases looking with isPhase | isPhase | isPhase <;> rw [isPhase] <;> exact ⟨rfl, rfl, rfl⟩
  refine sound.proceed found running late nextLate others locked
    (fun isOpened => .inr (opened isOpened)) ?_ ?_ done
  · intro _ _ _ _ _ _ origin isOrigin
    rw [noOrigin] at isOrigin
    contradiction
  · intro hasWritten
    rw [notWritten] at hasWritten
    contradiction

/-- A new call. -/
theorem Sound.begin (sound : slot.Sound lockedBy) (fresh : slot.calls n = none)
    (notCreated : call.created = none) (notFound : call.foundNone = false)
    (unlocked : call.phase.isLocked = false) (notSaving : call.phase ≠ .saving)
    (proper : call.Proper) : (slot.setCall n call).Sound lockedBy := by
  have notOpened : call.phase.isOpened ≠ true := fun isOpened => by
    rw [Phase.isLocked_of_isOpened isOpened] at unlocked
    contradiction
  refine sound.setCall (fun _ _ _ _ _ => rfl) ?_ ?_ ?_ (fun isSaving => absurd isSaving notSaving)
    proper ?_
  · intro isLocked
    rw [unlocked] at isLocked
    contradiction
  · intro isOpened
    exact absurd isOpened notOpened
  · intro engaged
    have foundNone := engaged.foundNone
    rw [notFound] at foundNone
    contradiction
  · intro m other session found created alive
    rcases calls_setCall found with ⟨rfl, rfl⟩ | ⟨different, found⟩
    · rw [notCreated] at created
      contradiction
    · refine (sound.kept m other session found created alive).setCall ?_ ?_
        fun same => absurd same different
      · intro origin isOrigin
        exact absurd (Phase.isOpened_of_origin isOrigin) notOpened
      · rintro ⟨current, foundCurrent, _⟩
        rw [fresh] at foundCurrent
        contradiction

/-- A write that no call is about to do first: by the call that has the lock or by an agent. -/
theorem Sound.save (sound : slot.Sound lockedBy) {writer : Writer}
    (idle : ∀ m other, slot.calls m = some other → other.phase ≠ .saving)
    (ours : ∀ m other session, slot.calls m = some other → other.created = some session →
      other.Alive → slot.loaded = none →
        (∃ third, third ≠ m ∧ slot.HasWritten third) ∨ writer = .create m ∧ slot.HasWritten m)
    (intact : ∀ m, writer = .create m → ∀ earlier ∈ slot.writers, earlier = .create m)
    (session : Session) (write : SessionWrite) :
    (slot.save writer session write).Sound lockedBy := by
  rw [Slot.save]
  split
  next => exact sound
  next content _ =>
    have changed : ∀ {m session}, slot.Kept m session → (slot.loaded = none →
        (∃ third, third ≠ m ∧ slot.HasWritten third) ∨ writer = .create m ∧ slot.HasWritten m) →
        Kept { slot with content := some content, writers := writer :: slot.writers } m
          session := by
      intro m session kept ours
      refine ⟨Option.some_ne_none _, kept.loaded, kept.origin, fun unloaded => ?_, kept.done⟩
      rcases ours unloaded with elsewhere | ⟨rfl, hasWritten⟩
      · exact .inl elsewhere
      · rcases kept.clean unloaded with elsewhere | ⟨writers, _⟩
        · exact .inl elsewhere
        · exact .inr ⟨List.forall_mem_cons.mpr ⟨rfl, writers⟩, .inl hasWritten⟩
    exact {
      locked := sound.locked
      written := fun unwritten => absurd unwritten (Option.some_ne_none _)
      opened := fun _ _ _ _ => .inr (Option.some_ne_none _)
      single := sound.single
      saving := fun m other found isSaving => absurd isSaving (idle m other found)
      proper := sound.proper
      kept := fun m other session found created alive =>
        changed (sound.kept m other session found created alive)
          (ours m other session found created alive)
      intact := List.pairwise_cons.mpr
        ⟨fun earlier member m isCreate => intact m isCreate earlier member, sound.intact⟩ }

/-- A call that is about to save a new session is engaged. -/
theorem Sound.engaged_of_saving (sound : slot.Sound lockedBy) (found : slot.calls n = some call)
    (isSaving : call.phase = .saving) : call.Engaged := by
  have proper := sound.proper n call found
  obtain ⟨sessionId, request, phase, foundNone, created⟩ := call
  cases isSaving
  cases request with
  | load => cases proper
  | create systemPrompt => exact ⟨proper.2, fun _ failed => by contradiction, fun _ => rfl⟩

/-- A call that goes on without a file is engaged. -/
theorem engaged_of_opened (foundNone : call.foundNone = true)
    (running : call.phase.isReturned = false) : call.Engaged :=
  ⟨foundNone, SessionCall.alive_of_running running, fun _ => running⟩

theorem isReturned_of_isOpened {phase : Phase} (isOpened : phase.isOpened = true) :
    phase.isReturned = false := by
  cases phase <;> first | rfl | contradiction

/-- No call is about to save a new session while another one has gone past its file. -/
theorem Sound.not_saving (sound : slot.Sound lockedBy) (found : slot.calls n = some call)
    (isOpened : call.phase.isOpened = true) {m : Nat} {other : SessionCall}
    (foundOther : slot.calls m = some other) : other.phase ≠ .saving := by
  intro isSaving
  rcases sound.opened n call found isOpened with foundNone | exists_content
  · have engaged := engaged_of_opened foundNone (isReturned_of_isOpened isOpened)
    have same := sound.single m n other call foundOther found
      (sound.engaged_of_saving foundOther isSaving) engaged
    subst same
    rw [found] at foundOther
    cases foundOther
    rw [isSaving] at isOpened
    contradiction
  · exact exists_content (sound.saving m other foundOther isSaving).1

/-- A new session is saved. -/
theorem Sound.create (sound : slot.Sound lockedBy) (found : slot.calls n = some before)
    (isSaving : before.phase = .saving) (session : Session)
    (proper : SessionCall.Proper { before with phase := .reading, created := some session }) :
    ((slot.save (.create n) session .written).setCall n
      { before with phase := .reading, created := some session }).Sound lockedBy := by
  obtain ⟨noContent, unloaded⟩ := sound.saving n before found isSaving
  have engaged := sound.engaged_of_saving found isSaving
  have alone : ∀ m other, m ≠ n → slot.calls m = some other → ¬other.Engaged :=
    fun m other different foundOther otherEngaged =>
      different (sound.single m n other before foundOther found otherEngaged engaged)
  have unwritten : slot.writers = [] := sound.written noContent
  have saved : slot.save (.create n) session .written =
      { slot with content := some (.session session), writers := [.create n] } := by
    rw [Slot.save, SessionWrite.leaves, unwritten]
  rw [saved]
  refine ⟨?_, fun none => absurd none (Option.some_ne_none _),
    fun _ _ _ _ => .inr (Option.some_ne_none _), ?_, ?_, ?_, ?_, List.pairwise_singleton _ _⟩
  · intro m other foundOther isLocked
    rcases calls_setCall foundOther with ⟨rfl, rfl⟩ | ⟨_, wasOther⟩
    · contradiction
    · exact sound.locked m other wasOther isLocked
  · intro left right leftCall rightCall foundLeft foundRight leftEngaged rightEngaged
    rcases calls_setCall foundLeft with ⟨rfl, rfl⟩ | ⟨leftDifferent, wasLeft⟩
    · rcases calls_setCall foundRight with ⟨rfl, rfl⟩ | ⟨rightDifferent, wasRight⟩
      · rfl
      · exact absurd rightEngaged (alone right rightCall rightDifferent wasRight)
    · exact absurd leftEngaged (alone left leftCall leftDifferent wasLeft)
  · intro m other foundOther otherSaving
    rcases calls_setCall foundOther with ⟨rfl, rfl⟩ | ⟨different, wasOther⟩
    · contradiction
    · exact absurd (sound.engaged_of_saving wasOther otherSaving)
        (alone m other different wasOther)
  · intro m other foundOther
    rcases calls_setCall foundOther with ⟨_, rfl⟩ | ⟨_, wasOther⟩
    · exact proper
    · exact sound.proper m other wasOther
  · intro m other created foundOther isCreated alive
    rcases calls_setCall foundOther with ⟨rfl, rfl⟩ | ⟨different, wasOther⟩
    · cases isCreated
      refine ⟨Option.some_ne_none _, ?_, ?_, fun _ => .inr ⟨fun _ member =>
        List.mem_singleton.mp member, .inr rfl⟩, ?_⟩
      · intro loaded isLoaded
        rw [unloaded] at isLoaded
        contradiction
      · intro other otherCall origin foundOther isOrigin
        rcases calls_setCall foundOther with ⟨rfl, rfl⟩ | ⟨different, wasOther⟩
        · contradiction
        · exact absurd isSaving
            (sound.not_saving wasOther (Phase.isOpened_of_origin isOrigin) found)
      · intro other foundOther isDone
        rcases calls_setCall foundOther with ⟨_, rfl⟩ | ⟨different, _⟩
        · contradiction
        · exact absurd rfl different
    · exact absurd ((sound.proper m other wasOther).engaged isCreated alive)
        (alone m other different wasOther)

/-- The agent that has been built is put in memory. -/
theorem Sound.insert (sound : slot.Sound lockedBy) (found : slot.calls n = some before)
    {origin : Session} {agent : AgentRuntime} (isInserting : before.phase = .inserting origin agent)
    (proper : SessionCall.Proper { before with phase := .returned (.ok ()) }) :
    ((slot.insert ⟨agent, origin⟩).setCall n
      { before with phase := .returned (.ok ()) }).Sound none := by
  have isLocked : before.phase.isLocked = true := by rw [isInserting]; rfl
  have isOpened : before.phase.isOpened = true := by rw [isInserting]; rfl
  have wasEngaged : SessionCall.Engaged { before with phase := .returned (.ok ()) } →
      before.Engaged := fun engaged =>
    engaged_of_opened engaged.foundNone (isReturned_of_isOpened isOpened)
  refine ⟨?_, sound.written, ?_, ?_, ?_, ?_, ?_, sound.intact⟩
  · intro m other foundOther otherLocked
    rcases calls_setCall foundOther with ⟨rfl, rfl⟩ | ⟨different, wasOther⟩
    · contradiction
    · exact absurd (sound.eq_of_locked found isLocked wasOther otherLocked) different
  · intro m other foundOther otherOpened
    rcases calls_setCall foundOther with ⟨rfl, rfl⟩ | ⟨_, wasOther⟩
    · contradiction
    · exact sound.opened m other wasOther otherOpened
  · intro left right leftCall rightCall foundLeft foundRight leftEngaged rightEngaged
    rcases calls_setCall foundLeft with ⟨rfl, rfl⟩ | ⟨_, wasLeft⟩ <;>
      rcases calls_setCall foundRight with ⟨rfl, rfl⟩ | ⟨_, wasRight⟩
    · rfl
    · exact sound.single _ _ _ _ found wasRight (wasEngaged leftEngaged) rightEngaged
    · exact sound.single _ _ _ _ wasLeft found leftEngaged (wasEngaged rightEngaged)
    · exact sound.single _ _ _ _ wasLeft wasRight leftEngaged rightEngaged
  · intro m other foundOther isSaving
    rcases calls_setCall foundOther with ⟨rfl, rfl⟩ | ⟨_, wasOther⟩
    · contradiction
    · exact absurd isSaving (sound.not_saving found isOpened wasOther)
  · intro m other foundOther
    rcases calls_setCall foundOther with ⟨_, rfl⟩ | ⟨_, wasOther⟩
    · exact proper
    · exact sound.proper m other wasOther
  · intro m other session foundOther created alive
    have kept : slot.Kept m session := by
      rcases calls_setCall foundOther with ⟨rfl, rfl⟩ | ⟨_, wasOther⟩
      · exact sound.kept m before session found created
          (SessionCall.alive_of_running (isReturned_of_isOpened isOpened))
      · exact sound.kept m other session wasOther created alive
    have isOrigin : before.phase.origin? = some origin := by rw [isInserting]; rfl
    refine ⟨kept.content, ?_, ?_, fun unloaded => absurd unloaded (Option.some_ne_none _),
      fun _ _ _ => Option.some_ne_none _⟩
    · rintro loaded ⟨⟩
      exact kept.origin n before origin found isOrigin
    · intro third thirdCall thirdOrigin foundThird isThird
      rcases calls_setCall foundThird with ⟨rfl, rfl⟩ | ⟨_, wasThird⟩
      · contradiction
      · exact kept.origin third thirdCall thirdOrigin wasThird isThird

/-- An agent in memory works on its session. -/
theorem Sound.work (sound : slot.Sound lockedBy) {loaded next : LoadedAgent}
    (isLoaded : slot.loaded = some loaded) (sameOrigin : next.origin = loaded.origin) :
    (slot.insert next).Sound lockedBy := by
  have inMemory : slot.loaded ≠ none := by rw [isLoaded]; exact Option.some_ne_none _
  refine { sound with
    locked := fun m other found isLocked => absurd (sound.locked m other found isLocked).2 inMemory
    saving := fun m other found isSaving => absurd (sound.saving m other found isSaving).2 inMemory
    kept := fun m other session found created alive => ?_ }
  have kept := sound.kept m other session found created alive
  refine ⟨kept.content, ?_, kept.origin, fun unloaded => absurd unloaded (Option.some_ne_none _),
    fun _ _ _ => Option.some_ne_none _⟩
  rintro _ ⟨⟩
  exact sameOrigin.trans (kept.loaded loaded isLoaded)

/-! ## What a call does to its slot -/

theorem setCall_save (writer : Writer) (session : Session) (write : SessionWrite) :
    (slot.save writer session write).setCall n call =
      (slot.setCall n call).save writer session write := by
  cases leaves : write.leaves session <;> simp [Slot.save, Slot.setCall, leaves]

/-- While the file does not exist, nobody is engaged but who has found that and is running. -/
theorem Sound.not_engaged (sound : slot.Sound lockedBy) (noContent : slot.content = none)
    (others : ∀ m other, m ≠ n → slot.calls m = some other → other.phase.isReturned = false →
      other.foundNone = false) :
    ∀ m other, m ≠ n → slot.calls m = some other → ¬other.Engaged := by
  intro m other different found engaged
  have proper := sound.proper m other found
  have foundNone := engaged.foundNone
  cases phase : other.phase with
  | returned result =>
      cases result with
      | error problem => exact engaged.alive problem phase
      | ok value =>
          cases request : other.request with
          | load =>
              have running := engaged.running request
              rw [phase] at running
              contradiction
          | create systemPrompt =>
              rw [SessionCall.Proper, request, phase] at proper
              obtain ⟨_, session, created, _⟩ := proper
              exact (sound.kept m other session found created engaged.alive).content noContent
  | _ =>
      rw [others m other different found (by rw [phase]; rfl)] at foundNone
      contradiction

/-- A call finds that there is no file yet. -/
theorem Sound.checkAbsent (sound : slot.Sound lockedBy) (found : slot.calls n = some before)
    (isChecking : before.phase = .checking) (noContent : slot.content = none)
    (unloaded : slot.loaded = none)
    (others : ∀ m other, m ≠ n → slot.calls m = some other → other.phase.isReturned = false →
      other.foundNone = false) :
    (slot.setCall n { before with phase := .saving, foundNone := true }).Sound lockedBy := by
  have proper := sound.proper n before found
  refine sound.move found (by rw [isChecking]; rfl) rfl (fun _ _ _ _ _ => rfl) ?_ ?_
    (fun _ => .inr (sound.not_engaged noContent others)) (fun _ => ⟨noContent, unloaded⟩)
    ?_ ?_ ?_ ?_
  · intro isLocked
    contradiction
  · intro isOpened
    contradiction
  · cases request : before.request <;> rw [SessionCall.Proper, request, isChecking] at proper
    · rw [SessionCall.Proper]
      exact ⟨proper, rfl⟩
    · contradiction
  · intro _ _ _ _ _ _ origin isOrigin
    contradiction
  · intro hasWritten
    rw [isChecking] at hasWritten
    contradiction
  · intro isDone
    cases isDone

/-- A call that has the lock finds that there is no file. -/
theorem Sound.openAbsent (sound : slot.Sound lockedBy) (found : slot.calls n = some before)
    (isOpening : before.phase = .opening) (noContent : slot.content = none)
    (others : ∀ m other, m ≠ n → slot.calls m = some other → other.phase.isReturned = false →
      other.foundNone = false) :
    (slot.setCall n { before with phase := .starting, foundNone := true }).Sound lockedBy := by
  have proper := sound.proper n before found
  have running : before.phase.isReturned = false := by rw [isOpening]; rfl
  refine sound.move found running rfl (fun _ _ _ _ _ => rfl) ?_ ?_
    (fun _ => .inr (sound.not_engaged noContent others)) ?_ ?_ ?_ ?_ ?_
  · intro _
    exact sound.locked n before found (by rw [isOpening]; rfl)
  · intro isOpened
    contradiction
  · intro isSaving
    contradiction
  · cases request : before.request <;> rw [SessionCall.Proper, request, isOpening] at proper
    · obtain ⟨_, session, created, _⟩ := proper
      exact absurd noContent
        (sound.kept n before session found created (SessionCall.alive_of_running running)).content
    · exact ⟨proper, rfl⟩
  · intro _ _ _ _ _ _ origin isOrigin
    contradiction
  · intro hasWritten
    rw [isOpening] at hasWritten
    contradiction
  · intro isDone
    cases isDone

/-- A call makes a session of its own, and saves it if it can. -/
theorem Sound.startSession (sound : slot.Sound lockedBy) (found : slot.calls n = some before)
    (isStarting : before.phase = .starting) (session : Session) (write : SessionWrite) :
    ((slot.save (before.writer n) session write).setCall n
      { before with phase := .building session }).Sound lockedBy := by
  have proper := sound.proper n before found
  have running : before.phase.isReturned = false := by rw [isStarting]; rfl
  obtain ⟨isLoad, notCreated, foundNone⟩ : before.request = .load ∧ before.created = none ∧
      before.foundNone = true := by
    cases request : before.request <;> rw [SessionCall.Proper, request, isStarting] at proper
    · contradiction
    · exact ⟨rfl, proper⟩
  have engaged := engaged_of_opened foundNone running
  have alone : ∀ m other session, slot.calls m = some other → other.created = some session →
      ¬other.Alive := by
    intro m other session foundOther created alive
    have same := sound.eq_of_engaged found engaged foundOther created alive
    subst same
    rw [found] at foundOther
    cases foundOther
    rw [notCreated] at created
    contradiction
  have moved : (slot.setCall n { before with phase := .building session }).Sound lockedBy := by
    refine sound.move found running rfl (fun _ _ _ _ _ => rfl) ?_ (fun _ => .inl foundNone)
      (fun _ => .inl engaged) ?_ ?_ ?_ ?_ ?_
    · intro _
      exact sound.locked n before found (by rw [isStarting]; rfl)
    · intro isSaving
      contradiction
    · rw [SessionCall.Proper, isLoad]
      exact notCreated
    · intro m other session foundOther created alive
      exact absurd alive (alone m other session foundOther created)
    · intro hasWritten
      rw [isStarting] at hasWritten
      contradiction
    · intro isDone
      cases isDone
  rw [setCall_save]
  refine moved.save ?_ ?_ ?_ session write
  · intro m other foundOther
    exact moved.not_saving (Function.update_self ..) rfl foundOther
  · intro m other session foundOther created alive
    rcases calls_setCall foundOther with ⟨rfl, rfl⟩ | ⟨_, wasOther⟩
    · rw [notCreated] at created
      contradiction
    · exact absurd alive (alone m other session wasOther created)
  · intro m isCreate
    rw [SessionCall.writer, isLoad] at isCreate
    contradiction

/-- The call that creates a session is the only one that has written its file before it has
put the agent in memory. -/
theorem Sound.writers_of_locked (sound : slot.Sound lockedBy) (found : slot.calls n = some call)
    (isLocked : call.phase.isLocked = true) (late : call.phase.isLate = true)
    (running : call.phase.isReturned = false) {m : Nat} (isCreate : call.writer n = .create m) :
    n = m ∧ ∀ writer ∈ slot.writers, writer = .create m := by
  have proper := sound.proper n call found
  cases request : call.request with
  | load =>
      rw [SessionCall.writer, request] at isCreate
      contradiction
  | create systemPrompt =>
      rw [SessionCall.writer, request] at isCreate
      cases isCreate
      obtain ⟨session, created⟩ : ∃ session, call.created = some session := by
        cases phase : call.phase <;> rw [SessionCall.Proper, request, phase] at proper <;>
          rw [phase] at late running <;> first | contradiction | exact ⟨_, proper.2.choose_spec.1⟩
      exact ⟨rfl, (sound.clean_of_locked found isLocked (sound.kept n call session found created
        (SessionCall.alive_of_running running)) fun different => absurd rfl different).1⟩

/-- A call saves the session it has loaded, on the way to its agent. -/
theorem Sound.saveBuilt (sound : slot.Sound lockedBy) (found : slot.calls n = some before)
    (isOpened : before.phase.isOpened = true) (late : before.phase.isLate = true) {phase : Phase}
    (hasWritten : phase.hasWritten = true) (sameOrigin : phase.origin? = before.phase.origin?)
    (session : Session) (write : SessionWrite) :
    ((slot.save (before.writer n) session write).setCall n
      { before with phase := phase }).Sound lockedBy := by
  have isLocked := Phase.isLocked_of_isOpened isOpened
  have running := isReturned_of_isOpened isOpened
  have nextLate : phase.isLate = true := by
    cases phase <;> first | rfl | contradiction
  have moved : (slot.setCall n { before with phase := phase }).Sound lockedBy := by
    refine sound.proceed found running late nextLate (fun _ _ _ _ _ => rfl) ?_ ?_ ?_
      (fun _ => hasWritten) ?_
    · intro _
      exact sound.locked n before found isLocked
    · intro _
      exact sound.opened n before found isOpened
    · intro m other session foundOther created alive origin isOrigin
      exact (sound.kept m other session foundOther created alive).origin n before origin found
        (sameOrigin ▸ isOrigin)
    · rintro rfl
      contradiction
  have isNext : (slot.setCall n { before with phase := phase }).calls n =
      some { before with phase := phase } := Function.update_self ..
  rw [setCall_save]
  refine moved.save ?_ ?_ ?_ session write
  · intro m other foundOther
    exact moved.not_saving isNext (Phase.isOpened_of_hasWritten hasWritten) foundOther
  · intro m other session foundOther created alive _
    by_cases same : m = n
    · subst same
      rw [isNext] at foundOther
      cases foundOther
      have isCreate : before.writer m = .create m := by
        have proper := sound.proper m before found
        cases request : before.request with
        | create systemPrompt => rw [SessionCall.writer, request]
        | load =>
            cases isPhase : before.phase <;> rw [SessionCall.Proper, request, isPhase] at proper <;>
              rw [isPhase] at late running <;> first
                | contradiction
                | exact absurd (proper.symm.trans created) (by simp)
      exact .inr ⟨isCreate, _, isNext, hasWritten⟩
    · exact .inl ⟨n, Ne.symm same, _, isNext, hasWritten⟩
  · intro m isCreate
    exact (sound.writers_of_locked found isLocked late running isCreate).2

/-- A call that has the lock fails before it has saved the session. -/
theorem Sound.failLocked (sound : slot.Sound lockedBy) (found : slot.calls n = some before)
    (isLocked : before.phase.isLocked = true)
    (written : before.phase.hasWritten = true → ∀ m other, m ≠ n → slot.calls m = some other →
      other.Alive → other.created = none) (problem : ManagerError) :
    (slot.setCall n { before with phase := .returned (.error problem) }).Sound none := by
  have running : before.phase.isReturned = false := by
    cases isPhase : before.phase with
    | returned result =>
        rw [isPhase] at isLocked
        contradiction
    | _ => rfl
  refine sound.fail found running ?_ written problem
  intro m other different foundOther otherLocked
  exact absurd (sound.eq_of_locked found isLocked foundOther otherLocked) different

/-- The HTTP client of an agent cannot be built, while no creation is in progress. -/
theorem Sound.buildFails (sound : slot.Sound lockedBy) (found : slot.calls n = some before)
    {origin session : Session} {redactor : Redactor}
    (isMerged : before.phase = .merged origin session redactor)
    (others : ∀ m other, m ≠ n → slot.calls m = some other → other.phase.isReturned = false →
      other.created = none) :
    (slot.setCall n { before with phase := .returned (.error .buildHttpClient) }).Sound none := by
  have isLocked : before.phase.isLocked = true := by rw [isMerged]; rfl
  refine sound.failLocked found isLocked (fun _ m other different foundOther alive => ?_) _
  cases ended : other.phase with
  | returned result =>
      cases created : other.created with
      | none => rfl
      | some made =>
          have isDone : other.phase = .returned (.ok ()) := by
            cases result with
            | ok value => exact ended
            | error problem => exact absurd ended (alive problem)
          exact absurd (sound.locked n before found isLocked).2
            ((sound.kept m other made foundOther created alive).done other foundOther isDone)
  | _ => exact others m other different foundOther (by rw [ended]; rfl)

/-- A call loads the session from the file; if it has been created, it is still there. -/
theorem Sound.load (sound : slot.Sound lockedBy) (found : slot.calls n = some before)
    (isLoading : before.phase = .loading) {content : SessionFile} {nowMs : Int} {salt : Block 32}
    {session : Session} (isContent : slot.content = some content)
    (read : loadSession content nowMs salt = some session) :
    (slot.setCall n { before with phase := .building session }).Sound lockedBy := by
  have isLocked : before.phase.isLocked = true := by rw [isLoading]; rfl
  have notWritten : before.phase.hasWritten = false := by rw [isLoading]; rfl
  refine sound.proceed found (by rw [isLoading]; rfl) (by rw [isLoading]; rfl) rfl
    (fun _ _ _ _ _ => rfl) (fun _ => sound.locked n before found isLocked)
    (fun _ => sound.opened n before found (by rw [isLoading]; rfl)) ?_ ?_ ?_
  · intro m other created foundOther isCreated alive origin isOrigin
    cases isOrigin
    rcases (sound.clean_of_locked found isLocked (sound.kept m other created foundOther isCreated
      alive) fun _ => notWritten).2 with ⟨third, foundThird, hasWritten⟩ | isCreation
    · have same := sound.eq_of_locked found isLocked foundThird
        (Phase.isLocked_of_isOpened (Phase.isOpened_of_hasWritten hasWritten))
      subst same
      rw [found] at foundThird
      cases foundThird
      rw [notWritten] at hasWritten
      contradiction
    · rw [isContent, Option.some.injEq] at isCreation
      rw [isCreation] at read
      cases read
      rfl
  · intro hasWritten
    rw [notWritten] at hasWritten
    contradiction
  · intro isDone
    cases isDone

/-- A new session cannot be saved. -/
theorem Sound.createFails (sound : slot.Sound lockedBy) (found : slot.calls n = some before)
    (isSaving : before.phase = .saving) (session : Session) (write : SessionWrite) :
    ((slot.save (before.writer n) session write).setCall n
      { before with phase := .returned (.error .saveNewSession) }).Sound lockedBy := by
  have engaged := sound.engaged_of_saving found isSaving
  have moved : (slot.setCall n { before with
      phase := .returned (.error .saveNewSession) }).Sound lockedBy := by
    refine sound.fail found (by rw [isSaving]; rfl) (fun _ _ _ _ _ => rfl) ?_ _
    intro hasWritten
    rw [isSaving] at hasWritten
    contradiction
  rw [setCall_save]
  refine moved.save ?_ ?_ ?_ session write
  · intro m other foundOther otherSaving
    rcases calls_setCall foundOther with ⟨_, rfl⟩ | ⟨different, wasOther⟩
    · contradiction
    · exact different (sound.single m n other before wasOther found
        (sound.engaged_of_saving wasOther otherSaving) engaged)
  · intro m other session foundOther created alive
    rcases calls_setCall foundOther with ⟨_, rfl⟩ | ⟨different, wasOther⟩
    · exact absurd rfl (alive _)
    · exact absurd (sound.eq_of_engaged found engaged wasOther created alive) different
  · intro m _ earlier member
    have unwritten : slot.writers = [] := sound.written (sound.saving n before found isSaving).1
    have inNone : earlier ∈ slot.writers := member
    rw [unwritten] at inNone
    contradiction

end Slots

end Slot

/-! ## The slots of a manager -/

namespace Manager

variable {settings : ManagerSettings} {manager : Manager} {sessionId : Text} {n : Nat}
  {call : SessionCall}

def slot (settings : ManagerSettings) (manager : Manager) (sessionId : Text) : Slot where
  content := manager.files (settings.fileOf sessionId)
  loaded := manager.sessions sessionId
  writers := manager.writersOf (settings.fileOf sessionId)
  calls n := (manager.calls n).filter fun call => call.sessionId = sessionId

theorem calls_slot_eq_some_iff : (manager.slot settings sessionId).calls n = some call ↔
    manager.calls n = some call ∧ call.sessionId = sessionId := by
  simp [slot, Option.filter_eq_some_iff]

theorem slot_setCall_self (same : call.sessionId = sessionId) :
    (manager.setCall n call).slot settings sessionId =
      (manager.slot settings sessionId).setCall n call := by
  subst same
  simp only [slot, Slot.setCall, setCall, writersOf, Slot.mk.injEq, true_and]
  funext m
  by_cases isCall : m = n <;> simp [isCall]

theorem slot_setCall_other (differ : call.sessionId ≠ sessionId)
    (was : ∀ before, manager.calls n = some before → before.sessionId ≠ sessionId) :
    (manager.setCall n call).slot settings sessionId = manager.slot settings sessionId := by
  simp only [slot, setCall, writersOf, Slot.mk.injEq, true_and]
  funext m
  by_cases isCall : m = n
  · subst isCall
    cases found : manager.calls m with
    | none => simp [Option.filter, differ]
    | some before => simp [Option.filter, differ, was before found]
  · simp [isCall]

theorem slot_save_self (writer : Writer) (session : Session) (write : SessionWrite) :
    (manager.save writer (settings.fileOf sessionId) session write).slot settings sessionId =
      (manager.slot settings sessionId).save writer session write := by
  cases leaves : write.leaves session <;>
    simp [slot, writersOf, save, Slot.save, leaves]

theorem slot_save_other {file : Location} (differ : file ≠ settings.fileOf sessionId)
    (writer : Writer) (session : Session) (write : SessionWrite) :
    (manager.save writer file session write).slot settings sessionId =
      manager.slot settings sessionId := by
  cases leaves : write.leaves session <;>
    simp [slot, writersOf, save, leaves, differ, Function.update_of_ne differ.symm]

theorem slot_insert_self (loaded : LoadedAgent) :
    (manager.insert sessionId loaded).slot settings sessionId =
      (manager.slot settings sessionId).insert loaded := by
  simp [slot, insert, Slot.insert, writersOf]

theorem slot_insert_other {other : Text} (differ : other ≠ sessionId) (loaded : LoadedAgent) :
    (manager.insert other loaded).slot settings sessionId = manager.slot settings sessionId := by
  simp [slot, insert, writersOf, Function.update_of_ne differ.symm]

@[simp]
theorem lockedBy_setCall : (manager.setCall n call).lockedBy = manager.lockedBy :=
  rfl

theorem slot_unlock : manager.unlock.slot settings sessionId = manager.slot settings sessionId :=
  rfl

theorem slot_lock : (manager.lock n).slot settings sessionId = manager.slot settings sessionId :=
  rfl

section Save

variable (writer : Writer) (file : Location) (session : Session) (write : SessionWrite)

@[simp]
theorem lockedBy_save : (manager.save writer file session write).lockedBy = manager.lockedBy := by
  cases leaves : write.leaves session <;> simp [save, leaves]

@[simp]
theorem calls_save : (manager.save writer file session write).calls = manager.calls := by
  cases leaves : write.leaves session <;> simp [save, leaves]

@[simp]
theorem sessions_save : (manager.save writer file session write).sessions = manager.sessions := by
  cases leaves : write.leaves session <;> simp [save, leaves]

end Save

/-! ## Steps of a call -/

section Advance

variable (settings) (manager) (n) (call) (draw : Draw)

/-- Every step of a call, with what it needs. -/
inductive Advances : Manager → Prop
  | refuse (isPhase : call.phase = .checking)
      (isFile : manager.files (settings.fileOf call.sessionId) ≠ none) :
      Advances (manager.setCall n { call with phase := .returned (.error .alreadyExists) })
  | check (isPhase : call.phase = .checking)
      (noFile : manager.files (settings.fileOf call.sessionId) = none) :
      Advances (manager.setCall n { call with phase := .saving, foundNone := true })
  | create (isPhase : call.phase = .saving) (systemPrompt : Text) (session : Session)
      (isCreate : call.request = .create systemPrompt) (isWritten : draw.write = .written)
      (isNew : session = Session.new systemPrompt draw.nowMs draw.salt) :
      Advances ((manager.save (call.writer n) (settings.fileOf call.sessionId) session
        .written).setCall n { call with phase := .reading, created := some session })
  | failToCreate (isPhase : call.phase = .saving) (systemPrompt : Text)
      (isCreate : call.request = .create systemPrompt) (notWritten : draw.write ≠ .written) :
      Advances ((manager.save (call.writer n) (settings.fileOf call.sessionId)
        (Session.new systemPrompt draw.nowMs draw.salt) draw.write).setCall n { call with
          phase := .returned (.error .saveNewSession) })
  | find (isPhase : call.phase = .reading ∨ call.phase = .locking)
      (isFree : manager.lockedBy = none) (isLoaded : manager.sessions call.sessionId ≠ none) :
      Advances (manager.setCall n { call with phase := .returned (.ok ()) })
  | miss (isPhase : call.phase = .reading) (isFree : manager.lockedBy = none)
      (unloaded : manager.sessions call.sessionId = none) :
      Advances (manager.setCall n { call with phase := .locking })
  | lock (isPhase : call.phase = .locking) (isFree : manager.lockedBy = none)
      (unloaded : manager.sessions call.sessionId = none) :
      Advances ((manager.setCall n { call with phase := .opening }).lock n)
  | findFile (isPhase : call.phase = .opening)
      (isFile : manager.files (settings.fileOf call.sessionId) ≠ none) :
      Advances (manager.setCall n { call with phase := .loading })
  | findNoFile (isPhase : call.phase = .opening)
      (noFile : manager.files (settings.fileOf call.sessionId) = none) :
      Advances (manager.setCall n { call with phase := .starting, foundNone := true })
  | load (isPhase : call.phase = .loading) (content : SessionFile) (session : Session)
      (isFile : manager.files (settings.fileOf call.sessionId) = some content)
      (isLoaded : loadSession content draw.nowMs draw.salt = some session) :
      Advances (manager.setCall n { call with phase := .building session })
  | failToLoad (isPhase : call.phase = .loading)
      (notLoaded : ((manager.files (settings.fileOf call.sessionId)).bind fun content =>
        loadSession content draw.nowMs draw.salt) = none) :
      Advances (manager.setCall n { call with phase := .returned (.error .loadSession) }).unlock
  | start (isPhase : call.phase = .starting) (session : Session)
      (isNew : session = Session.new settings.defaultSystemPrompt draw.nowMs draw.salt) :
      Advances ((manager.save (call.writer n) (settings.fileOf call.sessionId) session
        draw.write).setCall n { call with phase := .building session })
  | merge (origin : Session) (isPhase : call.phase = .building origin) (restored : Redactor)
      (isRestored : Redactor.fromState origin.redaction = some restored) (session : Session)
      (redactor : Redactor)
      (isMerged : origin.mergeTerms restored settings.extraTerms = (session, redactor)) :
      Advances ((manager.save (call.writer n) (settings.fileOf call.sessionId) session
        draw.write).setCall n { call with phase := .merged origin session redactor })
  | failToRestore (origin : Session) (isPhase : call.phase = .building origin)
      (notRestored : Redactor.fromState origin.redaction = none) :
      Advances (manager.setCall n { call with phase := .returned (.error .initRedactor) }).unlock
  | build (origin session : Session) (redactor : Redactor)
      (isPhase : call.phase = .merged origin session redactor) (isBuilt : draw.clientBuilt = true)
      (agent : AgentRuntime)
      (isAgent : agent = .new settings.toAgentSettings (settings.sessionPathFor call.sessionId)
        session redactor) :
      Advances ((manager.save (call.writer n) (settings.fileOf call.sessionId) agent.session
        draw.write).setCall n { call with phase := .inserting origin agent })
  | failToBuild (origin session : Session) (redactor : Redactor)
      (isPhase : call.phase = .merged origin session redactor)
      (notBuilt : draw.clientBuilt = false) :
      Advances (manager.setCall n { call with
        phase := .returned (.error .buildHttpClient) }).unlock
  | insert (origin : Session) (agent : AgentRuntime)
      (isPhase : call.phase = .inserting origin agent) :
      Advances ((manager.insert call.sessionId ⟨agent, origin⟩).setCall n { call with
        phase := .returned (.ok ()) }).unlock

end Advance

section Advance

variable {draw : Draw} {target : Manager}

theorem advances_of_advance (advanced : manager.advance settings n call draw = some target) :
    Advances settings manager n call draw target := by
  cases isPhase : call.phase <;> simp only [advance, isPhase] at advanced
  case checking =>
    split at advanced <;> cases advanced
    next isFile => exact .refuse isPhase (Option.isSome_iff_ne_none.mp isFile)
    next noFile => exact .check isPhase (Option.not_isSome_iff_eq_none.mp noFile)
  case saving =>
    split at advanced
    next => contradiction
    next systemPrompt isCreate isWritten =>
      cases advanced
      exact .create isPhase systemPrompt _ isCreate isWritten rfl
    next systemPrompt isCreate notWritten =>
      cases advanced
      exact .failToCreate isPhase systemPrompt isCreate notWritten
  case reading =>
    split at advanced
    next => contradiction
    next isFree =>
      have unlocked := Option.not_isSome_iff_eq_none.mp isFree
      split at advanced <;> cases advanced
      next isLoaded => exact .find (.inl isPhase) unlocked (Option.isSome_iff_ne_none.mp isLoaded)
      next unloaded => exact .miss isPhase unlocked (Option.not_isSome_iff_eq_none.mp unloaded)
  case locking =>
    split at advanced
    next => contradiction
    next isFree =>
      have unlocked := Option.not_isSome_iff_eq_none.mp isFree
      split at advanced <;> cases advanced
      next isLoaded => exact .find (.inr isPhase) unlocked (Option.isSome_iff_ne_none.mp isLoaded)
      next unloaded => exact .lock isPhase unlocked (Option.not_isSome_iff_eq_none.mp unloaded)
  case opening =>
    split at advanced <;> cases advanced
    next isFile => exact .findFile isPhase (Option.isSome_iff_ne_none.mp isFile)
    next noFile => exact .findNoFile isPhase (Option.not_isSome_iff_eq_none.mp noFile)
  case loading =>
    split at advanced <;> cases advanced
    next notLoaded => exact .failToLoad isPhase notLoaded
    next session read =>
      obtain ⟨content, isFile, isLoaded⟩ := Option.bind_eq_some_iff.mp read
      exact .load isPhase content session isFile isLoaded
  case starting =>
    cases advanced
    exact .start isPhase _ rfl
  case building origin =>
    split at advanced <;> cases advanced
    next notRestored => exact .failToRestore origin isPhase notRestored
    next restored isRestored => exact .merge origin isPhase restored isRestored _ _ rfl
  case merged origin session redactor =>
    split at advanced <;> cases advanced
    next isBuilt => exact .build origin session redactor isPhase isBuilt _ rfl
    next notBuilt =>
      exact .failToBuild origin session redactor isPhase (Bool.eq_false_of_not_eq_true notBuilt)
  case inserting origin agent =>
    cases advanced
    exact .insert origin agent isPhase
  case returned result => contradiction

theorem Advances.advance_eq (advances : Advances settings manager n call draw target) :
    manager.advance settings n call draw = some target := by
  cases advances with
  | refuse isPhase isFile | findFile isPhase isFile =>
      simp only [advance, isPhase]
      exact if_pos (Option.isSome_iff_ne_none.mpr isFile)
  | check isPhase noFile | findNoFile isPhase noFile =>
      simp [advance, isPhase, noFile]
  | create isPhase systemPrompt session isCreate isWritten isNew =>
      simp [advance, isPhase, isCreate, isWritten, isNew]
  | failToCreate isPhase systemPrompt isCreate notWritten =>
      cases isWrite : draw.write <;> simp_all [advance]
  | find isPhase isFree isLoaded =>
      rcases isPhase with isPhase | isPhase <;>
        simp [advance, isPhase, isFree, Option.isSome_iff_ne_none.mpr isLoaded]
  | miss isPhase isFree unloaded | lock isPhase isFree unloaded =>
      simp [advance, isPhase, isFree, unloaded]
  | load isPhase content session isFile isLoaded =>
      simp [advance, isPhase, isFile, isLoaded]
  | failToLoad isPhase notLoaded => simp only [advance, isPhase, notLoaded]
  | start isPhase session isNew => simp only [advance, isPhase, isNew]
  | merge origin isPhase restored isRestored session redactor isMerged =>
      simp only [advance, isPhase, isRestored, isMerged]
  | failToRestore origin isPhase notRestored => simp only [advance, isPhase, notRestored]
  | build origin session redactor isPhase isBuilt agent isAgent =>
      simp only [advance, isPhase, isBuilt, isAgent, if_true]
  | failToBuild origin session redactor isPhase notBuilt =>
      simp [advance, isPhase, notBuilt]
  | insert origin agent isPhase => simp only [advance, isPhase]

/-- What a call that is not disturbed does to the slot of its session. -/
theorem sound_advance_self
    (sound : (manager.slot settings call.sessionId).Sound manager.lockedBy)
    (found : manager.calls n = some call)
    (undisturbed : manager.Undisturbed settings (.advance n draw))
    (advances : Advances settings manager n call draw target) :
    (target.slot settings call.sessionId).Sound target.lockedBy := by
  have foundSlot : (manager.slot settings call.sessionId).calls n = some call :=
    calls_slot_eq_some_iff.mpr ⟨found, rfl⟩
  have isProper := sound.proper n call foundSlot
  obtain ⟨notLoaded, others⟩ := undisturbed call found
  have alone : call.phase = .checking ∨ call.phase = .opening →
      (manager.slot settings call.sessionId).content = none →
      ∀ m other, m ≠ n → (manager.slot settings call.sessionId).calls m = some other →
        other.phase.isReturned = false → other.foundNone = false := by
    intro isPhase noContent m other different foundOther running
    obtain ⟨isOther, same⟩ := calls_slot_eq_some_iff.mp foundOther
    exact (others m other isOther different same running).1 isPhase noContent
  cases advances with
  | refuse isPhase _ =>
      rw [slot_setCall_self rfl]
      apply sound.fail foundSlot (by rw [isPhase]; rfl) (fun _ _ _ _ _ => rfl)
      intro hasWritten
      rw [isPhase] at hasWritten
      contradiction
  | check isPhase noFile =>
      rw [slot_setCall_self rfl]
      exact sound.checkAbsent foundSlot isPhase noFile (notLoaded isPhase noFile)
        (alone (.inl isPhase) noFile)
  | create isPhase systemPrompt session isCreate _ isNew =>
      have isWriter : call.writer n = .create n := by rw [SessionCall.writer, isCreate]
      rw [slot_setCall_self rfl, slot_save_self, lockedBy_setCall, lockedBy_save, isWriter]
      rw [SessionCall.Proper, isCreate, isPhase] at isProper
      apply sound.create foundSlot isPhase
      rw [SessionCall.Proper, isCreate]
      exact ⟨isProper.2, session, rfl, isNew ▸ rfl⟩
  | failToCreate isPhase =>
      rw [slot_setCall_self rfl, slot_save_self, lockedBy_setCall, lockedBy_save]
      exact sound.createFails foundSlot isPhase _ draw.write
  | find isPhase _ isLoaded =>
      rw [slot_setCall_self rfl]
      apply sound.look foundSlot _ rfl rfl (fun _ _ _ _ _ => rfl)
      · intro isLocked
        contradiction
      · intro isOpened
        contradiction
      · exact fun _ => isLoaded
      · exact isPhase.imp_right .inl
  | miss isPhase _ _ =>
      rw [slot_setCall_self rfl]
      apply sound.look foundSlot (.inl isPhase) rfl rfl (fun _ _ _ _ _ => rfl)
      all_goals
        intro impossible
        cases impossible
  | lock isPhase isFree unloaded =>
      rw [slot_lock, slot_setCall_self rfl]
      apply sound.look foundSlot (.inr (.inl isPhase)) rfl rfl
      · intro m other _ foundOther isLocked
        rw [(sound.locked m other foundOther isLocked).1] at isFree
        contradiction
      · exact fun _ => ⟨rfl, unloaded⟩
      all_goals
        intro impossible
        cases impossible
  | findFile isPhase isFile =>
      rw [slot_setCall_self rfl]
      apply sound.look foundSlot (.inr (.inr isPhase)) rfl rfl (fun _ _ _ _ _ => rfl)
      · exact fun _ => sound.locked n call foundSlot (by rw [isPhase]; rfl)
      · exact fun _ => isFile
      · intro isDone
        cases isDone
  | findNoFile isPhase noFile =>
      rw [slot_setCall_self rfl]
      exact sound.openAbsent foundSlot isPhase noFile (alone (.inr isPhase) noFile)
  | load isPhase content session isFile isLoaded =>
      rw [slot_setCall_self rfl]
      exact sound.load foundSlot isPhase isFile isLoaded
  | start isPhase session =>
      rw [slot_setCall_self rfl, slot_save_self, lockedBy_setCall, lockedBy_save]
      exact sound.startSession foundSlot isPhase session draw.write
  | merge origin isPhase | build origin _ _ isPhase =>
      rw [slot_setCall_self rfl, slot_save_self, lockedBy_setCall, lockedBy_save]
      apply sound.saveBuilt foundSlot _ _ rfl <;> rw [isPhase] <;> rfl
  | failToLoad isPhase | failToRestore _ isPhase =>
      rw [slot_unlock, slot_setCall_self rfl]
      apply sound.failLocked foundSlot
      · rw [isPhase]
        rfl
      · intro hasWritten
        rw [isPhase] at hasWritten
        contradiction
  | failToBuild origin session redactor isPhase notBuilt =>
      rw [slot_unlock, slot_setCall_self rfl]
      apply sound.buildFails foundSlot isPhase
      intro m other different foundOther running
      obtain ⟨isOther, same⟩ := calls_slot_eq_some_iff.mp foundOther
      exact (others m other isOther different same running).2 origin session redactor isPhase
        notBuilt
  | insert origin agent isPhase =>
      rw [slot_unlock, slot_setCall_self rfl, slot_insert_self]
      apply sound.insert foundSlot isPhase
      exact isProper.late (by rw [isPhase]; rfl) rfl

/-- What a step of a call can do: it goes on, with the lock or without, or it saves the session,
or it puts the agent in memory. -/
inductive Shape (settings : ManagerSettings) (manager : Manager) (n : Nat)
    (call next : SessionCall) :
    Manager → Prop
  | move : Shape settings manager n call next (manager.setCall n next)
  | lock : manager.lockedBy = none →
      Shape settings manager n call next ((manager.setCall n next).lock n)
  | unlock : call.phase.isLocked = true →
      Shape settings manager n call next (manager.setCall n next).unlock
  | save (writer : Writer) (session : Session) (write : SessionWrite) :
      Shape settings manager n call next
        ((manager.save writer (settings.fileOf call.sessionId) session write).setCall n next)
  | insert (origin : Session) (agent : AgentRuntime) : call.phase = .inserting origin agent →
      Shape settings manager n call next
        ((manager.insert call.sessionId ⟨agent, origin⟩).setCall n next).unlock

/-- Every step has a shape; a call does not go back to its check, and an agent is built with the
file of its session. -/
theorem Advances.exists_shape
    (advances : Advances settings manager n call draw target) :
    ∃ next, Shape settings manager n call next target ∧ next.sessionId = call.sessionId ∧
      call.phase.isReturned = false ∧ next.phase ≠ .checking ∧
      ∀ origin agent, next.phase = .inserting origin agent →
        agent.sessionPath = settings.sessionPathFor call.sessionId := by
  cases advances with
  | refuse isPhase | check isPhase | miss isPhase | findFile isPhase | findNoFile isPhase
  | load isPhase =>
      exact ⟨_, .move, rfl, by rw [isPhase]; rfl, by simp, by simp⟩
  | find isPhase =>
      refine ⟨_, .move, rfl, ?_, by simp, by simp⟩
      rcases isPhase with isPhase | isPhase <;> rw [isPhase] <;> rfl
  | lock isPhase isFree => exact ⟨_, .lock isFree, rfl, by rw [isPhase]; rfl, by simp, by simp⟩
  | create isPhase | failToCreate isPhase | start isPhase | merge _ isPhase =>
      exact ⟨_, .save .., rfl, by rw [isPhase]; rfl, by simp, by simp⟩
  | build origin session redactor isPhase _ agent isAgent =>
      refine ⟨_, .save .., rfl, by rw [isPhase]; rfl, by simp, ?_⟩
      rintro _ _ ⟨⟩
      rw [isAgent]
      rfl
  | failToLoad isPhase | failToRestore _ isPhase | failToBuild _ _ _ isPhase =>
      exact ⟨_, .unlock (by rw [isPhase]; rfl), rfl, by rw [isPhase]; rfl, by simp, by simp⟩
  | insert origin agent isPhase =>
      exact ⟨_, .insert origin agent isPhase, rfl, by rw [isPhase]; rfl, by simp, by simp⟩

end Advance

section Shape

variable {next : SessionCall} {target : Manager}

theorem Shape.calls_eq (shape : Shape settings manager n call next target) :
    target.calls = Function.update manager.calls n (some next) := by
  cases shape with
  | save writer session write => rw [setCall, calls_save]
  | _ => rfl

/-- A call leaves the slots of other sessions alone, and takes or returns the lock itself. -/
theorem Shape.slot_other (shape : Shape settings manager n call next target)
    (sameId : next.sessionId = call.sessionId) (differ : call.sessionId ≠ sessionId)
    (apart : settings.fileOf call.sessionId ≠ settings.fileOf sessionId)
    (found : manager.calls n = some call) :
    target.slot settings sessionId = manager.slot settings sessionId ∧
      (target.lockedBy = manager.lockedBy ∨ manager.lockedBy = none ∨
        call.phase.isLocked = true) := by
  have quiet : ∀ base : Manager, base.calls = manager.calls →
      (base.setCall n next).slot settings sessionId = base.slot settings sessionId := by
    intro base sameCalls
    refine slot_setCall_other (sameId ▸ differ) fun before isBefore => ?_
    rw [sameCalls, found] at isBefore
    cases isBefore
    exact differ
  cases shape with
  | move => exact ⟨quiet _ rfl, .inl rfl⟩
  | lock free => exact ⟨quiet _ rfl, .inr (.inl free)⟩
  | unlock isLocked => exact ⟨quiet _ rfl, .inr (.inr isLocked)⟩
  | save writer session write =>
      exact ⟨(quiet _ (calls_save ..)).trans (slot_save_other apart writer session write),
        .inl (lockedBy_save ..)⟩
  | insert origin agent isPhase =>
      have kept := quiet (manager.insert call.sessionId ⟨agent, origin⟩) rfl
      rw [slot_unlock, kept, slot_insert_other differ]
      exact ⟨rfl, .inr (.inr (by rw [isPhase]; rfl))⟩

end Shape

/-- Every session is created without disturbance, and agents have the files of their sessions. -/
structure Sound (settings : ManagerSettings) (manager : Manager) : Prop where
  slots : ∀ sessionId, ValidSessionId sessionId →
    (manager.slot settings sessionId).Sound manager.lockedBy
  valid : ∀ n call, manager.calls n = some call → call.Alive → ValidSessionId call.sessionId
  paths : ∀ sessionId loaded, manager.sessions sessionId = some loaded →
    ValidSessionId sessionId ∧ loaded.agent.sessionPath = settings.sessionPathFor sessionId
  building : ∀ n call origin agent, manager.calls n = some call →
    call.phase = .inserting origin agent →
      agent.sessionPath = settings.sessionPathFor call.sessionId

theorem calls_setCall {m : Nat} {other : SessionCall}
    (found : (manager.setCall n call).calls m = some other) :
    m = n ∧ other = call ∨ m ≠ n ∧ manager.calls m = some other := by
  by_cases same : m = n
  · subst same
    simp only [setCall, Function.update_self, Option.some.injEq] at found
    exact .inl ⟨rfl, found.symm⟩
  · simp only [setCall, Function.update_of_ne same] at found
    exact .inr ⟨same, found⟩

/-- Calls start without disturbing anything. -/
theorem Sound.start (sound : manager.Sound settings) {target : Manager} {request : SessionRequest}
    {phase : Phase} (proper : SessionCall.Proper ⟨sessionId, request, phase, false, none⟩)
    (early : phase = .checking ∨ phase = .reading)
    (started : manager.start n sessionId request phase = some target) : target.Sound settings := by
  obtain ⟨fresh, created⟩ := Option.ite_none_left_eq_some.mp started
  have isFresh : manager.calls n = none := Option.not_isSome_iff_eq_none.mp fresh
  obtain ⟨next, isValid, unlocked, notSaving, notInserting, isProper, rfl⟩ : ∃ next : Phase,
      ((∀ problem, next ≠ .returned (.error problem)) → ValidSessionId sessionId) ∧
      next.isLocked = false ∧ next ≠ .saving ∧ (∀ origin agent, next ≠ .inserting origin agent) ∧
      SessionCall.Proper ⟨sessionId, request, next, false, none⟩ ∧
      target = manager.setCall n ⟨sessionId, request, next, false, none⟩ := by
    split at created
    next problem _ =>
      cases created
      refine ⟨.returned (.error (.sessionId problem)), fun alive => absurd rfl (alive _), rfl,
        by simp, by simp, ?_, rfl⟩
      cases request <;> simp [SessionCall.Proper]
    next valid =>
      cases created
      refine ⟨phase, fun _ => valid, ?_, ?_, ?_, proper, rfl⟩ <;>
        rcases early with rfl | rfl <;> simp [Phase.isLocked]
  refine ⟨fun other isSession => ?_, ?_, sound.paths, ?_⟩
  · by_cases same : sessionId = other
    · subst same
      rw [slot_setCall_self rfl]
      refine (sound.slots sessionId isSession).begin ?_ rfl rfl unlocked notSaving isProper
      simp [slot, isFresh]
    · rw [slot_setCall_other same fun before isBefore => by
        rw [isFresh] at isBefore
        contradiction]
      exact sound.slots other isSession
  · intro m call found alive
    rcases calls_setCall found with ⟨_, rfl⟩ | ⟨_, was⟩
    · exact isValid alive
    · exact sound.valid m call was alive
  · intro m call origin agent found isInserting
    rcases calls_setCall found with ⟨_, rfl⟩ | ⟨_, was⟩
    · exact absurd isInserting (notInserting origin agent)
    · exact sound.building m call origin agent was isInserting

/-- A step of a call that is not disturbed. -/
theorem Sound.advance (sound : manager.Sound settings)
    (apart : settings.OverrideApart settings.current) {target : Manager} {draw : Draw}
    (found : manager.calls n = some call)
    (undisturbed : manager.Undisturbed settings (.advance n draw))
    (advanced : manager.advance settings n call draw = some target) : target.Sound settings := by
  obtain ⟨next, shape, sameId, running, _, built⟩ :=
    (advances_of_advance advanced).exists_shape
  have isSession := sound.valid n call found (SessionCall.alive_of_running running)
  have own := sound.slots call.sessionId isSession
  have calls : ∀ m other, target.calls m = some other →
      m = n ∧ other = next ∨ m ≠ n ∧ manager.calls m = some other := by
    intro m other foundOther
    rw [shape.calls_eq] at foundOther
    exact calls_setCall foundOther
  refine ⟨fun other isOther => ?_, ?_, ?_, ?_⟩
  · by_cases same : call.sessionId = other
    · subst same
      exact sound_advance_self own found undisturbed (advances_of_advance advanced)
    · obtain ⟨sameSlot, lock⟩ := shape.slot_other sameId same
        (locate_ne apart isSession isOther same) found
      rw [sameSlot]
      refine (sound.slots other isOther).relock fun m otherCall foundOther holds => ?_
      rcases lock with unchanged | free | isLocked
      · exact unchanged
      · rw [free] at holds
        contradiction
      · -- The lock is held by this call, which is for another session.
        have holder := (own.locked n call (calls_slot_eq_some_iff.mpr ⟨found, rfl⟩) isLocked).1
        have sameCall : n = m := Option.some.inj (holder.symm.trans holds)
        subst sameCall
        obtain ⟨isCall, isFor⟩ := calls_slot_eq_some_iff.mp foundOther
        rw [found] at isCall
        cases isCall
        exact absurd isFor same
  · intro m other foundOther alive
    rcases calls m other foundOther with ⟨_, rfl⟩ | ⟨_, was⟩
    · exact sameId ▸ isSession
    · exact sound.valid m other was alive
  · intro other loaded isLoaded
    cases shape with
    | insert origin agent isPhase =>
        by_cases same : other = call.sessionId
        · subst same
          have inserted : some ⟨agent, origin⟩ = some loaded := by
            rw [← isLoaded]
            simp [unlock, setCall, insert]
          cases inserted
          exact ⟨isSession, sound.building n call origin agent found isPhase⟩
        · exact sound.paths other loaded ((Function.update_of_ne same ..).symm.trans isLoaded)
    | save writer session write =>
        apply sound.paths other loaded
        rw [← isLoaded]
        exact (congrFun (sessions_save ..) other).symm
    | _ => exact sound.paths other loaded isLoaded
  · intro m other origin agent foundOther isInserting
    rcases calls m other foundOther with ⟨_, rfl⟩ | ⟨_, was⟩
    · rw [sameId]
      exact built origin agent isInserting
    · exact sound.building m other origin agent was isInserting

/-- An agent works on its session, and on no other. -/
theorem Sound.work (sound : manager.Sound settings) {loaded next : LoadedAgent}
    (isLoaded : manager.sessions sessionId = some loaded) (sameOrigin : next.origin = loaded.origin)
    (samePath : next.agent.sessionPath = loaded.agent.sessionPath) :
    (manager.insert sessionId next).Sound settings := by
  refine ⟨fun other isOther => ?_, sound.valid, fun other others isOthers => ?_, sound.building⟩
  · by_cases same : sessionId = other
    · subst same
      rw [slot_insert_self]
      exact (sound.slots sessionId isOther).work isLoaded sameOrigin
    · rw [slot_insert_other same]
      exact sound.slots other isOther
  · by_cases same : other = sessionId
    · subst same
      have inserted : some next = some others := by
        rw [← isOthers]
        simp [insert]
      cases inserted
      obtain ⟨isSession, isPath⟩ := sound.paths other loaded isLoaded
      exact ⟨isSession, samePath.trans isPath⟩
    · exact sound.paths other others (by simpa [insert, same] using isOthers)

/-- An agent saves its session, which is in memory. -/
theorem Sound.persist (sound : manager.Sound settings)
    (apart : settings.OverrideApart settings.current) {loaded : LoadedAgent}
    (isLoaded : manager.sessions sessionId = some loaded) (write : SessionWrite) :
    (manager.save (.agent sessionId) (Path.locate settings.current loaded.agent.sessionPath)
      loaded.agent.session write).Sound settings := by
  obtain ⟨isSession, isPath⟩ := sound.paths sessionId loaded isLoaded
  rw [isPath]
  refine ⟨fun other isOther => ?_, ?_, ?_, ?_⟩
  · rw [lockedBy_save]
    by_cases same : sessionId = other
    · subst same
      have inMemory : (manager.slot settings sessionId).loaded ≠ none := by
        rw [slot, isLoaded]
        exact Option.some_ne_none _
      have own := sound.slots sessionId isSession
      refine (slot_save_self ..).symm ▸ own.save ?_ ?_ ?_ _ _
      · intro m call found isSaving
        exact inMemory (own.saving m call found isSaving).2
      · intro _ _ _ _ _ _ unloaded
        exact absurd unloaded inMemory
      · intro _ isCreate
        contradiction
    · rw [slot_save_other (locate_ne apart isSession isOther same)]
      exact sound.slots other isOther
  · rw [calls_save]
    exact sound.valid
  · rw [sessions_save]
    exact sound.paths
  · rw [calls_save]
    exact sound.building

/-- Every step of an undisturbed run. -/
theorem Sound.step (sound : manager.Sound settings)
    (apart : settings.OverrideApart settings.current) {event : ManagerEvent} {target : Manager}
    (undisturbed : manager.Undisturbed settings event)
    (stepped : manager.step settings event = some target) : target.Sound settings := by
  cases event with
  | createSession n sessionId fresh systemPrompt =>
      refine sound.start ?_ (.inl rfl) stepped
      rfl
  | getOrLoad n sessionId =>
      refine sound.start ?_ (.inr rfl) stepped
      rfl
  | advance n draw =>
      obtain ⟨call, found, advanced⟩ := Option.bind_eq_some_iff.mp stepped
      exact sound.advance apart found undisturbed advanced
  | work sessionId session redactor =>
      obtain ⟨loaded, isLoaded, rfl⟩ := Option.map_eq_some_iff.mp stepped
      exact sound.work isLoaded rfl rfl
  | persist sessionId write =>
      obtain ⟨loaded, isLoaded, rfl⟩ := Option.map_eq_some_iff.mp stepped
      exact sound.persist apart isLoaded write

theorem sound_of_init (isInitial : (system settings).init manager) : manager.Sound settings := by
  obtain ⟨free, idle, unwritten, paths⟩ := isInitial
  have noCalls : ∀ {sessionId n call},
      (manager.slot settings sessionId).calls n = some call → False := by
    intro sessionId n call found
    rw [calls_slot_eq_some_iff, idle n] at found
    exact absurd found.1 (by simp)
  have noWriters : ∀ sessionId, (manager.slot settings sessionId).writers = [] := by
    intro sessionId
    simp [slot, writersOf, unwritten]
  refine ⟨fun sessionId _ => ?_, ?_, paths, ?_⟩
  · exact {
      locked := fun _ _ found => (noCalls found).elim
      written := fun _ => noWriters sessionId
      opened := fun _ _ found => (noCalls found).elim
      single := fun _ _ _ _ found => (noCalls found).elim
      saving := fun _ _ found => (noCalls found).elim
      proper := fun _ _ found => (noCalls found).elim
      kept := fun _ _ _ found => (noCalls found).elim
      intact := by
        rw [noWriters]
        exact List.Pairwise.nil }
  · intro n call found
    rw [idle n] at found
    contradiction
  · intro n call _ _ found
    rw [idle n] at found
    contradiction

/-- A call that has created a session is known to its slot. -/
theorem Sound.created (sound : manager.Sound settings) (found : manager.calls n = some call)
    {systemPrompt : Text} (creates : call.Creates systemPrompt) :
    ∃ session, call.created = some session ∧ session.systemPrompt = systemPrompt ∧
      call.Engaged ∧ ValidSessionId call.sessionId ∧
      (manager.slot settings call.sessionId).Kept n session := by
  obtain ⟨isCreate, isDone⟩ := creates
  have alive : call.Alive := by
    intro problem failed
    rw [isDone] at failed
    cases failed
  have isSession := sound.valid n call found alive
  have own := sound.slots call.sessionId isSession
  have foundSlot : (manager.slot settings call.sessionId).calls n = some call :=
    calls_slot_eq_some_iff.mpr ⟨found, rfl⟩
  have proper := own.proper n call foundSlot
  rw [SessionCall.Proper, isCreate, isDone] at proper
  obtain ⟨_, session, created, isPrompt⟩ := proper
  exact ⟨session, created, isPrompt, (own.proper n call foundSlot).engaged created alive, isSession,
    own.kept n call session foundSlot created alive⟩

/-- **Sessions are created exclusively** in every run in which no other session is given the
file of the default one and no call is disturbed. -/
theorem exclusive_of_reachable (apart : settings.OverrideApart settings.current)
    (reachable : (system settings).Reachable (Undisturbed settings) manager) :
    manager.Exclusive settings := by
  have sound : manager.Sound settings :=
    reachable.invariant (fun _ => sound_of_init)
      fun _ _ _ sound undisturbed stepped => sound.step apart undisturbed stepped
  refine ⟨?_, fun sessionId isSession => (sound.slots sessionId isSession).intact, ?_⟩
  · intro left right leftCall rightCall leftPrompt rightPrompt foundLeft foundRight leftCreates
      rightCreates sameId
    obtain ⟨_, _, _, leftEngaged, isSession, _⟩ := sound.created foundLeft leftCreates
    obtain ⟨_, _, _, rightEngaged, _, _⟩ := sound.created foundRight rightCreates
    exact (sound.slots leftCall.sessionId isSession).single left right leftCall rightCall
      (calls_slot_eq_some_iff.mpr ⟨foundLeft, rfl⟩)
      (calls_slot_eq_some_iff.mpr ⟨foundRight, sameId.symm⟩) leftEngaged rightEngaged
  · intro n call systemPrompt found creates
    obtain ⟨session, created, isPrompt, _, _, kept⟩ := sound.created found creates
    have inMemory := kept.done call (calls_slot_eq_some_iff.mpr ⟨found, rfl⟩) creates.2
    obtain ⟨loaded, isLoaded⟩ := Option.ne_none_iff_exists'.mp inMemory
    exact ⟨session, loaded, created, isPrompt, isLoaded, kept.loaded loaded isLoaded⟩

/-! ## Two creations at once -/

/-- A manager without a path that is set apart. -/
def plainSettings : ManagerSettings where
  sessionsDir := utf8 (text "s")
  defaultSystemPrompt := text "p"
  defaultSessionId := text "d"
  defaultSessionPathOverride := none
  endpointUrl := text "http://localhost:8080/v1/infer"
  gatewayPublicBytes := Block.replicate 32 1
  model := text "m"
  tokenClass := .c256
  redactMode := .basic
  extraTerms := []
  current := []

def idleManager : Manager where
  files _ := none
  sessions _ := none
  lockedBy := none
  calls _ := none
  writes := []

theorem reachable_idle (allowed : Manager → ManagerEvent → Prop) :
    (system plainSettings).Reachable allowed idleManager :=
  .start ⟨rfl, fun _ => rfl, rfl, fun _ _ found => by contradiction⟩

/-- A step in which everything works. -/
def smoothly (n : Nat) : ManagerEvent :=
  .advance n ⟨0, Block.replicate 32 0, .written, true⟩

/-- Calls of different sessions do not disturb each other. -/
structure Separate (manager : Manager) : Prop where
  different : ∀ n other call otherCall, manager.calls n = some call →
    manager.calls other = some otherCall → other ≠ n → otherCall.sessionId ≠ call.sessionId
  unloaded : ∀ n call, manager.calls n = some call → call.phase = .checking →
    manager.sessions call.sessionId = none

theorem Shape.sessions_of_ne (shape : Shape settings manager n call next target)
    {sessionId : Text} (differ : sessionId ≠ call.sessionId) :
    target.sessions sessionId = manager.sessions sessionId := by
  cases shape with
  | save writer session write =>
      unfold Manager.setCall Manager.save
      split <;> rfl
  | insert => exact Function.update_of_ne differ ..
  | _ => rfl

theorem Separate.advance {draw : Draw} (separate : manager.Separate)
    (found : manager.calls n = some call)
    (advances : Advances settings manager n call draw target) : target.Separate := by
  obtain ⟨next, shape, sameId, _, notChecking, _⟩ := advances.exists_shape
  have calls : ∀ m other, target.calls m = some other →
      m = n ∧ other = next ∨ m ≠ n ∧ manager.calls m = some other := by
    intro m other foundOther
    rw [shape.calls_eq] at foundOther
    exact calls_setCall foundOther
  constructor
  · intro first second firstCall secondCall foundFirst foundSecond distinct
    rcases calls first firstCall foundFirst with ⟨rfl, rfl⟩ | ⟨_, before⟩
    · rcases calls second secondCall foundSecond with ⟨rfl, rfl⟩ | ⟨_, beforeSecond⟩
      · exact absurd rfl distinct
      · rw [sameId]
        exact separate.different first second call secondCall found beforeSecond distinct
    · rcases calls second secondCall foundSecond with ⟨rfl, rfl⟩ | ⟨_, beforeSecond⟩
      · rw [sameId]
        exact separate.different first second firstCall call before found distinct
      · exact separate.different first second firstCall secondCall before beforeSecond distinct
  · intro m other foundOther isChecking
    rcases calls m other foundOther with ⟨rfl, rfl⟩ | ⟨isOther, before⟩
    · exact absurd isChecking notChecking
    · rw [shape.sessions_of_ne (separate.different n m call other found before isOther)]
      exact separate.unloaded m other before isChecking

theorem admits_separate {events : List ManagerEvent}
    (smooth : ∀ event ∈ events, ∃ n, event = smoothly n) (separate : manager.Separate) :
    (system settings).Admits (Undisturbed settings) manager events := by
  induction events generalizing manager with
  | nil => trivial
  | cons event later inductionHypothesis =>
      obtain ⟨⟨n, rfl⟩, smoothLater⟩ := List.forall_mem_cons.mp smooth
      refine ⟨fun call found => ⟨fun isChecking _ => separate.unloaded n call found isChecking, ?_⟩,
        fun target stepped => inductionHypothesis smoothLater ?_⟩
      · intro other otherCall foundOther distinct sameId
        exact absurd sameId (separate.different n other call otherCall found foundOther distinct)
      · obtain ⟨call, found, advanced⟩ := Option.bind_eq_some_iff.mp stepped
        exact separate.advance found (advances_of_advance advanced)

/-- Two calls have begun to create a session each. -/
def bothStarted : List ManagerEvent :=
  [.createSession 0 (some (text "a")) (Block.replicate 16 0) none,
    .createSession 1 (some (text "b")) (Block.replicate 16 0) none]

def startedBoth : Manager :=
  ((system plainSettings).run idleManager bothStarted).get (by decide +kernel)

/-- They go on in turns. -/
def inTurns : List ManagerEvent :=
  [0, 1, 1, 0, 0, 1, 0, 0, 0, 0, 0, 0, 1, 1, 1, 1, 1, 1].map smoothly

def bothCreated : Manager :=
  ((system plainSettings).run startedBoth inTurns).get (by decide +kernel)

theorem separate_startedBoth : startedBoth.Separate := by
  have calls : ∀ n call, startedBoth.calls n = some call →
      n = 0 ∧ call.sessionId = text "a" ∨ n = 1 ∧ call.sessionId = text "b" := by
    intro n call found
    match n, found with
    | 0, found => exact .inl ⟨rfl, by cases found; rfl⟩
    | 1, found => exact .inr ⟨rfl, by cases found; rfl⟩
    | n + 2, found => cases found
  constructor
  · intro n other call otherCall found foundOther distinct
    rcases calls n call found with ⟨rfl, isA⟩ | ⟨rfl, isB⟩ <;>
      rcases calls other otherCall foundOther with ⟨rfl, otherA⟩ | ⟨rfl, otherB⟩
    · contradiction
    · rw [isA, otherB]
      decide +kernel
    · rw [isB, otherA]
      decide +kernel
    · contradiction
  · intro n call found isChecking
    rfl

theorem exclusive_createdInTurns :
    (∃ call, bothCreated.calls 0 = some call ∧ call.Creates (text "p")) ∧
      (∃ call, bothCreated.calls 1 = some call ∧ call.Creates (text "p")) ∧
      bothCreated.Exclusive plainSettings := by
  have started : (system plainSettings).Admits (Undisturbed plainSettings) idleManager
      bothStarted :=
    ⟨trivial, fun _ _ => ⟨trivial, fun _ _ => trivial⟩⟩
  have reachable : (system plainSettings).Reachable (Undisturbed plainSettings) startedBoth :=
    .of_run (reachable_idle _) started (Option.some_get _).symm
  have admitted : (system plainSettings).Admits (Undisturbed plainSettings) startedBoth
      inTurns := by
    refine admits_separate (fun event isEvent => ?_) separate_startedBoth
    obtain ⟨n, _, rfl⟩ := List.mem_map.mp isEvent
    exact ⟨n, rfl⟩
  exact ⟨⟨_, rfl, rfl, rfl⟩, ⟨_, rfl, rfl, rfl⟩,
    exclusive_of_reachable (fun _ _ override => by contradiction)
      (.of_run reachable admitted (Option.some_get _).symm)⟩

/-- Two calls check that the session does not exist, and then both create it. -/
def createdTwice : List ManagerEvent :=
  [.createSession 0 (some (text "a")) (Block.replicate 16 0) none,
    .createSession 1 (some (text "a")) (Block.replicate 16 0) none,
    smoothly 0, smoothly 1, smoothly 0, smoothly 1, smoothly 0, smoothly 0, smoothly 0,
    smoothly 0, smoothly 0, smoothly 0, smoothly 0, smoothly 1]

def twiceCreated : Manager :=
  ((system plainSettings).run idleManager createdTwice).get (by decide +kernel)

/-- Both calls return the id, and the second has written over the file of the first. -/
theorem not_exclusive_createdTwice : ¬∀ (settings : ManagerSettings) (manager : Manager),
    (system settings).Reachable (fun _ _ => True) manager → manager.Exclusive settings := by
  intro always
  have reachable : (system plainSettings).Reachable (fun _ _ => True) twiceCreated :=
    .of_run (reachable_idle _) (System.admits_of_forall (fun _ _ _ => trivial) idleManager)
      (Option.some_get _).symm
  obtain ⟨first, foundFirst, firstCreates, firstId⟩ : ∃ call, twiceCreated.calls 0 = some call ∧
      call.Creates (text "p") ∧ call.sessionId = text "a" := ⟨_, rfl, ⟨rfl, rfl⟩, rfl⟩
  obtain ⟨second, foundSecond, secondCreates, secondId⟩ : ∃ call,
      twiceCreated.calls 1 = some call ∧ call.Creates (text "p") ∧ call.sessionId = text "a" :=
    ⟨_, rfl, ⟨rfl, rfl⟩, rfl⟩
  have same := (always plainSettings twiceCreated reachable).once 0 1 first second _ _ foundFirst
    foundSecond firstCreates secondCreates (firstId.trans secondId.symm)
  contradiction

end Manager

end ZkLlmGateway.Client
