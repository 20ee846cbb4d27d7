import ZkLlmGateway.Common.Types
import Mathlib.Data.List.Perm.Basic

/-!
# Tickets from a file

The client takes a pre-minted ticket for every request out of a list that it
keeps in memory, and then writes what is left to the file the list came from.
All sessions share one source and a lock makes every call a single step.
-/

namespace ZkLlmGateway.Client

open ZkLlmGateway.Encoding ZkLlmGateway.Common

/-- What the ticket file is read as; `none` when it is not a list of tickets. -/
abbrev TicketFile := Option (List ZkTicket)

structure FileTicketSource where
  file : TicketFile
  tickets : List ZkTicket
  deriving DecidableEq

/-- How a write to the ticket file ends.  A failed write may leave anything. -/
inductive FileWrite
  | written
  | failed (left : TicketFile)
  deriving DecidableEq

inductive TicketError
  | empty
  | notBound
  deriving DecidableEq

def TicketError.message : TicketError → Text
  | empty => text "ticket file is empty"
  | notBound => text "issued ticket is not bound to the exact inference request"

namespace FileTicketSource

def load (file : TicketFile) : Option FileTicketSource :=
  file.map fun tickets => ⟨file, tickets⟩

/-- Best effort: a failure is not reported. -/
def persist (source : FileTicketSource) : FileWrite → FileTicketSource
  | .written => { source with file := some source.tickets }
  | .failed left => { source with file := left }

/-- The first ticket of the class, or else the first of all. -/
def selectIdx (tickets : List ZkTicket) (tokenClass : TokenClass) : Option Nat :=
  (tickets.findIdx? fun ticket => ticket.tokenClass = tokenClass).or
    (tickets.findIdx? fun _ => true)

/-- `Vec::remove` -/
def remove (tickets : List ZkTicket) (i : Nat) : Option (ZkTicket × List ZkTicket) :=
  tickets[i]?.map fun ticket => (ticket, tickets.eraseIdx i)

def nextTicket (source : FileTicketSource) (tokenClass : TokenClass) (requestCommitment : Bytes)
    (write : FileWrite) : Except TicketError ZkTicket × FileTicketSource :=
  match (selectIdx source.tickets tokenClass).bind (remove source.tickets) with
  | none => (.error .empty, source)
  | some (ticket, rest) =>
      let taken := { source with tickets := rest }
      if ticket.commitmentRoot ≠ requestCommitment then (.error .notBound, taken)
      else (.ok ticket, taken.persist write)

/-! ## Selection -/

/-- The ticket that is taken out, and where it was. -/
theorem selected_cases (source : FileTicketSource) (tokenClass : TokenClass) :
    (source.tickets = [] ∧
      (selectIdx source.tickets tokenClass).bind (remove source.tickets) = none) ∨
    ∃ i ticket, source.tickets[i]? = some ticket ∧
      (selectIdx source.tickets tokenClass).bind (remove source.tickets) =
        some (ticket, source.tickets.eraseIdx i) ∧
      ((source.tickets.find? fun ticket => ticket.tokenClass = tokenClass) = some ticket ∨
        ∀ other ∈ source.tickets, other.tokenClass ≠ tokenClass) := by
  cases ofClass : source.tickets.findIdx? fun ticket => ticket.tokenClass = tokenClass with
  | some i =>
      have inside := (List.findIdx?_eq_some_iff_findIdx_eq.mp ofClass).1
      have shown : source.tickets[i]? = some source.tickets[i] := List.getElem?_eq_getElem inside
      refine .inr ⟨i, source.tickets[i], shown, ?_, .inl ?_⟩
      · simp [selectIdx, ofClass, remove, shown]
      · rw [List.find?_eq_bind_findIdx?_getElem?, ofClass, Option.bind_some, shown]
  | none =>
      have noneOfClass : ∀ other ∈ source.tickets, other.tokenClass ≠ tokenClass := by
        simpa using List.findIdx?_eq_none_iff.mp ofClass
      cases isList : source.tickets with
      | nil => exact .inl ⟨rfl, rfl⟩
      | cons first rest =>
          rw [isList] at ofClass noneOfClass
          refine .inr ⟨0, first, rfl, ?_, .inr noneOfClass⟩
          have any : (first :: rest).findIdx? (fun _ => true) = some 0 := rfl
          rw [selectIdx, ofClass, any]
          rfl

/-! ## Exact selection -/

/-- What a call is to do: hand out a matching ticket if there is one and take it
out of the list and the file, or else leave all as it was. -/
structure Exact (source : FileTicketSource) (tokenClass : TokenClass) (requestCommitment : Bytes)
    (write : FileWrite) : Prop where
  isOk_iff : (source.nextTicket tokenClass requestCommitment write).1.isOk = true ↔
    ∃ ticket ∈ source.tickets, ticket.tokenClass = tokenClass ∧
      ticket.commitmentRoot = requestCommitment
  ok : ∀ ticket, (source.nextTicket tokenClass requestCommitment write).1 = .ok ticket →
    ticket.tokenClass = tokenClass ∧ ticket.commitmentRoot = requestCommitment ∧
      (∃ i, source.tickets[i]? = some ticket ∧
        (source.nextTicket tokenClass requestCommitment write).2.tickets =
          source.tickets.eraseIdx i) ∧
      (write = .written → (source.nextTicket tokenClass requestCommitment write).2.file =
        some (source.nextTicket tokenClass requestCommitment write).2.tickets)
  error : ∀ problem, (source.nextTicket tokenClass requestCommitment write).1 = .error problem →
    (source.nextTicket tokenClass requestCommitment write).2 = source

/-- There is no ticket at all, or the first of the class is bound to the request. -/
def FirstBound (source : FileTicketSource) (tokenClass : TokenClass)
    (requestCommitment : Bytes) : Prop :=
  source.tickets = [] ∨ ∃ ticket,
    (source.tickets.find? fun ticket => ticket.tokenClass = tokenClass) = some ticket ∧
      ticket.commitmentRoot = requestCommitment

section Selection

variable {source : FileTicketSource} {tokenClass : TokenClass} {requestCommitment : Bytes}
  {write : FileWrite}

theorem nextTicket_of_none
    (none : (selectIdx source.tickets tokenClass).bind (remove source.tickets) = none) :
    source.nextTicket tokenClass requestCommitment write = (.error .empty, source) := by
  rw [nextTicket, none]

theorem nextTicket_of_bound {ticket : ZkTicket} {rest : List ZkTicket}
    (taken : (selectIdx source.tickets tokenClass).bind (remove source.tickets) =
      some (ticket, rest)) (bound : ticket.commitmentRoot = requestCommitment)
    (write : FileWrite) :
    source.nextTicket tokenClass requestCommitment write =
      (.ok ticket, { source with tickets := rest }.persist write) := by
  simp [nextTicket, taken, bound]

theorem nextTicket_of_unbound {ticket : ZkTicket} {rest : List ZkTicket}
    (taken : (selectIdx source.tickets tokenClass).bind (remove source.tickets) =
      some (ticket, rest)) (unbound : ticket.commitmentRoot ≠ requestCommitment)
    (write : FileWrite) :
    source.nextTicket tokenClass requestCommitment write =
      (.error .notBound, { source with tickets := rest }) := by
  simp [nextTicket, taken, unbound]

@[simp]
theorem tickets_persist (source : FileTicketSource) (write : FileWrite) :
    (source.persist write).tickets = source.tickets := by
  cases write <;> rfl

/-- **Selection is exact** if and only if the first ticket of the class is bound to the
request, or there is no ticket at all. -/
theorem exact_iff_firstBound : source.Exact tokenClass requestCommitment write ↔
    source.FirstBound tokenClass requestCommitment := by
  rcases source.selected_cases tokenClass with
    ⟨isEmpty, none⟩ | ⟨i, ticket, shown, taken, ofClass⟩
  · refine ⟨fun _ => .inl isEmpty, fun _ => ⟨?_, ?_, ?_⟩⟩
    · simp [nextTicket_of_none none, isEmpty, Except.isOk, Except.toBool]
    · intro ticket isOk
      rw [nextTicket_of_none none] at isOk
      contradiction
    · intro _ _
      rw [nextTicket_of_none none]
  have inside : i < source.tickets.length := (List.getElem?_eq_some_iff.mp shown).1
  have nonempty : source.tickets ≠ [] := List.ne_nil_of_length_pos (Nat.zero_lt_of_lt inside)
  by_cases bound : ticket.commitmentRoot = requestCommitment
  · have outcome := nextTicket_of_bound taken bound write
    constructor
    · intro isExact
      obtain ⟨rightClass, _⟩ := isExact.ok ticket (by rw [outcome])
      rcases ofClass with found | noneOfClass
      · exact .inr ⟨ticket, found, bound⟩
      · exact absurd rightClass (noneOfClass ticket (List.mem_of_getElem? shown))
    · rintro (isEmpty | ⟨first, found, firstBound⟩)
      · exact absurd isEmpty nonempty
      · have member := List.mem_of_find?_eq_some found
        have rightClass : first.tokenClass = tokenClass := by
          simpa using List.find?_some found
        have same : ticket = first := by
          rcases ofClass with alsoFound | noneOfClass
          · rw [found, Option.some.injEq] at alsoFound
            exact alsoFound.symm
          · exact absurd rightClass (noneOfClass first member)
        subst same
        refine ⟨?_, ?_, ?_⟩
        · rw [outcome]
          exact ⟨fun _ => ⟨ticket, member, rightClass, bound⟩, fun _ => rfl⟩
        · intro other isOther
          rw [outcome] at isOther ⊢
          cases isOther
          refine ⟨rightClass, bound, ⟨i, shown, tickets_persist _ _⟩, ?_⟩
          rintro rfl
          rfl
        · intro problem failed
          rw [outcome] at failed
          contradiction
  · have outcome := nextTicket_of_unbound taken bound write
    constructor
    · intro isExact
      have unchanged := isExact.error .notBound (by rw [outcome])
      rw [outcome] at unchanged
      have lengths := congrArg (fun source => source.tickets.length) unchanged
      simp only [List.length_eraseIdx_of_lt inside] at lengths
      omega
    · rintro (isEmpty | ⟨first, found, firstBound⟩)
      · exact absurd isEmpty nonempty
      · have rightClass : first.tokenClass = tokenClass := by
          simpa using List.find?_some found
        rcases ofClass with alsoFound | noneOfClass
        · rw [found, Option.some.injEq] at alsoFound
          exact absurd (alsoFound ▸ firstBound) bound
        · exact absurd rightClass (noneOfClass first (List.mem_of_find?_eq_some found))

end Selection

/-! ## Sequences of calls -/

/-- A call, with the way its write to the file ends. -/
structure TicketCall where
  tokenClass : TokenClass
  requestCommitment : Bytes
  write : FileWrite

def call (source : FileTicketSource) (request : TicketCall) :
    Except TicketError ZkTicket × FileTicketSource :=
  source.nextTicket request.tokenClass request.requestCommitment request.write

/-- The tickets that are handed out, and the source in the end. -/
def calls : FileTicketSource → List TicketCall → List ZkTicket × FileTicketSource
  | source, [] => ([], source)
  | source, request :: later =>
      let (handed, final) := (source.call request).2.calls later
      match (source.call request).1 with
      | .ok ticket => (ticket :: handed, final)
      | .error _ => (handed, final)

/-- Every call finds the source in a state of which `holds` is true. -/
def Always (holds : FileTicketSource → TicketCall → Prop) :
    FileTicketSource → List TicketCall → Prop
  | _, [] => True
  | source, request :: later => holds source request ∧ (source.call request).2.Always holds later

theorem always_congr {left right : FileTicketSource → TicketCall → Prop}
    (same : ∀ source request, left source request ↔ right source request)
    (source : FileTicketSource) (requests : List TicketCall) :
    source.Always left requests ↔ source.Always right requests := by
  induction requests generalizing source with
  | nil => exact Iff.rfl
  | cons request later inductionHypothesis =>
      rw [Always, Always, same, inductionHypothesis]

def ExactCall (source : FileTicketSource) (request : TicketCall) : Prop :=
  source.Exact request.tokenClass request.requestCommitment request.write

def FirstBoundCall (source : FileTicketSource) (request : TicketCall) : Prop :=
  source.FirstBound request.tokenClass request.requestCommitment

/-- Exact calls lose no ticket and hand none out twice. -/
theorem perm_of_exact {source : FileTicketSource} {requests : List TicketCall}
    (always : source.Always ExactCall requests) :
    ((source.calls requests).1 ++ (source.calls requests).2.tickets).Perm source.tickets := by
  induction requests generalizing source with
  | nil => exact List.Perm.refl _
  | cons request later inductionHypothesis =>
      obtain ⟨isExact, rest⟩ := always
      have conserved := inductionHypothesis rest
      cases outcome : (source.call request).1 with
      | ok ticket =>
          obtain ⟨_, _, ⟨i, shown, removed⟩, _⟩ := isExact.ok ticket outcome
          have inside := (List.getElem?_eq_some_iff.mp shown).1
          have isTicket := (List.getElem?_eq_some_iff.mp shown).2
          have back : (ticket :: source.tickets.eraseIdx i).Perm source.tickets := by
            rw [← isTicket]
            exact List.getElem_cons_eraseIdx_perm inside
          rw [call, removed, ← call] at conserved
          rw [calls, outcome]
          exact (conserved.cons ticket).trans back
      | error problem =>
          have unchanged := isExact.error problem outcome
          rw [call] at outcome
          rw [calls, call, outcome]
          rw [call, unchanged] at conserved
          rw [unchanged]
          exact conserved

/-- **Tickets are handed out exactly**, and none is lost or handed out twice, if and only
if every call finds the first ticket of its class bound to its request, or no ticket. -/
theorem exact_iff_firstBound_always (source : FileTicketSource) (requests : List TicketCall) :
    source.Always ExactCall requests ∧
        ((source.calls requests).1 ++ (source.calls requests).2.tickets).Perm source.tickets ↔
      source.Always FirstBoundCall requests := by
  have same : source.Always ExactCall requests ↔ source.Always FirstBoundCall requests :=
    always_congr (fun _ _ => exact_iff_firstBound) source requests
  constructor
  · rintro ⟨always, _⟩
    exact same.mp always
  · intro always
    exact ⟨same.mpr always, perm_of_exact (same.mpr always)⟩

/-- Two tickets of one class, each for a request of its own. -/
def twoTickets : List ZkTicket := [
  ⟨[1], [1], .c256, []⟩,
  ⟨[2], [2], .c256, []⟩]

/-- The ticket for the second request is there but not handed out. -/
theorem exact_second_request : ¬∀ (source : FileTicketSource) (tokenClass : TokenClass)
    (requestCommitment : Bytes) (write : FileWrite),
    source.Exact tokenClass requestCommitment write := by
  intro claim
  have isExact := claim ⟨some twoTickets, twoTickets⟩ .c256 [2] .written
  have isOk := isExact.isOk_iff.mpr ⟨⟨[2], [2], .c256, []⟩, by decide, rfl, rfl⟩
  exact absurd isOk (by decide)

end FileTicketSource

end ZkLlmGateway.Client
