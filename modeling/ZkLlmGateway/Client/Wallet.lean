import ZkLlmGateway.Client.Tickets
import ZkLlmGateway.Transition.System

/-!
# Tickets over restarts

A client that is started again reads its tickets from the file.  Every ticket is then in one
place: it was handed out, or is to be handed out, or was refused because it was bound to
another request.  A refused ticket is in the file until the file is written again.
-/

namespace ZkLlmGateway.Client

open ZkLlmGateway.Encoding ZkLlmGateway.Common ZkLlmGateway.Transition
open FileTicketSource (load selectIdx remove TicketCall)

/-! ## The client -/

inductive TicketProcess
  | stopped (file : TicketFile)
  | running (source : FileTicketSource)
  deriving DecidableEq

/-- Where the tickets went.  `refused` are those that were refused since the file was written;
`torn` tells that the write for the last ticket failed. -/
structure TicketHistory where
  handed : List ZkTicket
  refused : List ZkTicket
  lost : List ZkTicket
  torn : Bool
  deriving DecidableEq

structure Wallet where
  process : TicketProcess
  history : TicketHistory
  deriving DecidableEq

inductive WalletEvent
  | start
  | next (request : TicketCall)
  /-- The process ends, or is ended. -/
  | stop

namespace TicketHistory

def empty : TicketHistory where
  handed := []
  refused := []
  lost := []
  torn := false

/-- A call that has handed out a ticket, or has refused the one that it took. -/
def record (history : TicketHistory) (taken : Option ZkTicket) (write : FileWrite) :
    Except TicketError ZkTicket → TicketHistory
  | .ok ticket =>
      match write with
      | .written => ⟨history.handed ++ [ticket], [], history.lost ++ history.refused, false⟩
      | .failed _ => { history with handed := history.handed ++ [ticket], torn := true }
  | .error _ => { history with refused := history.refused ++ taken.toList }

end TicketHistory

namespace Wallet

/-- The ticket that a call takes out of the list. -/
def taken (source : FileTicketSource) (tokenClass : TokenClass) : Option ZkTicket :=
  ((selectIdx source.tickets tokenClass).bind (remove source.tickets)).map Prod.fst

def step (wallet : Wallet) : WalletEvent → Option Wallet
  | .start =>
      match wallet.process with
      | .running _ => none
      | .stopped file =>
          some { wallet with process := (load file).elim wallet.process .running }
  | .next request =>
      match wallet.process with
      | .stopped _ => none
      | .running source =>
          let (result, next) := source.call request
          some {
            process := .running next
            history := wallet.history.record (taken source request.tokenClass) request.write
              result }
  | .stop =>
      match wallet.process with
      | .stopped _ => none
      | .running source => some {
          process := .stopped source.file
          history := { wallet.history with refused := [] } }

/-- A client that has not been started yet, with this file. -/
def system (tickets : List ZkTicket) : System Wallet WalletEvent where
  init wallet := wallet = ⟨.stopped (some tickets), .empty⟩
  step := step

/-- The process does not end while the file lacks the last write. -/
def Untorn (wallet : Wallet) : WalletEvent → Prop
  | .stop => wallet.history.torn = false
  | _ => True

/-- Every ticket is in one place.  In a file that is not torn are the tickets to be handed out
and those that were refused since it was written. -/
structure Conserved (tickets : List ZkTicket) (wallet : Wallet) : Prop where
  running : ∀ source, wallet.process = .running source →
    (wallet.history.handed ++ (source.tickets ++ (wallet.history.refused ++
      wallet.history.lost))).Perm tickets ∧
    (wallet.history.torn = false → ∃ stored, source.file = some stored ∧
      stored.Perm (source.tickets ++ wallet.history.refused))
  stopped : ∀ file, wallet.process = .stopped file → wallet.history.refused = [] ∧
    wallet.history.torn = false ∧ ∃ stored, file = some stored ∧
      (wallet.history.handed ++ (stored ++ wallet.history.lost)).Perm tickets

end Wallet

/-! ## Conservation -/

section Conservation

variable {tickets : List ZkTicket} {wallet target : Wallet} {source : FileTicketSource}

/-- A call takes no ticket, or hands out the one that it takes, or refuses it. -/
theorem call_cases (source : FileTicketSource) (request : TicketCall) :
    (source.call request = (.error .empty, source) ∧
      Wallet.taken source request.tokenClass = none) ∨
    ∃ ticket rest, Wallet.taken source request.tokenClass = some ticket ∧
      (ticket :: rest).Perm source.tickets ∧
      (source.call request = (.ok ticket, { source with tickets := rest }.persist request.write) ∨
        source.call request = (.error .notBound, { source with tickets := rest })) := by
  rcases FileTicketSource.selected_cases source request.tokenClass with
    ⟨_, none⟩ | ⟨i, ticket, shown, taken, _⟩
  · left
    refine ⟨FileTicketSource.nextTicket_of_none none, ?_⟩
    rw [Wallet.taken, none]
    rfl
  · right
    obtain ⟨inside, isTicket⟩ := List.getElem?_eq_some_iff.mp shown
    refine ⟨ticket, source.tickets.eraseIdx i, ?_, ?_, ?_⟩
    · rw [Wallet.taken, taken]
      rfl
    · rw [← isTicket]
      exact List.getElem_cons_eraseIdx_perm inside
    · by_cases bound : ticket.commitmentRoot = request.requestCommitment
      · exact .inl (FileTicketSource.nextTicket_of_bound taken bound request.write)
      · exact .inr (FileTicketSource.nextTicket_of_unbound taken bound request.write)

/-- Places may be told in another order. -/
theorem perm_places (handed left refused lost : List ZkTicket) (ticket : ZkTicket) :
    (handed ++ [ticket] ++ (left ++ (refused ++ lost))).Perm
      (handed ++ ((ticket :: left) ++ (refused ++ lost))) := by
  rw [List.append_assoc]
  rfl

/-- A ticket that is handed out. -/
theorem Wallet.Conserved.hand {history : TicketHistory} {ticket : ZkTicket}
    {rest : List ZkTicket} (conserved : Wallet.Conserved tickets ⟨.running source, history⟩)
    (isRest : (ticket :: rest).Perm source.tickets) (taken : Option ZkTicket) (write : FileWrite) :
    Wallet.Conserved tickets ⟨.running ({ source with tickets := rest }.persist write),
      history.record taken write (.ok ticket)⟩ := by
  obtain ⟨places, stored⟩ := conserved.running source rfl
  have moved : (history.handed ++ [ticket] ++ (rest ++ (history.refused ++ history.lost))).Perm
      tickets :=
    (perm_places ..).trans (((isRest.append_right _).append_left _).trans places)
  constructor
  · rintro _ ⟨⟩
    cases write with
    | written =>
        refine ⟨?_, fun _ => ⟨rest, rfl, ?_⟩⟩
        · apply List.Perm.trans _ moved
          change (history.handed ++ [ticket] ++ (rest ++ (history.lost ++ history.refused))).Perm _
          exact (List.perm_append_comm.append_left rest).append_left _
        · rw [TicketHistory.record, List.append_nil]
          rfl
    | failed left => exact ⟨moved, fun untorn => by contradiction⟩
  · rintro _ ⟨⟩

/-- A ticket that is refused. -/
theorem Wallet.Conserved.refuse {history : TicketHistory} {ticket : ZkTicket}
    {rest : List ZkTicket} (conserved : Wallet.Conserved tickets ⟨.running source, history⟩)
    (isRest : (ticket :: rest).Perm source.tickets) (write : FileWrite) (problem : TicketError) :
    Wallet.Conserved tickets ⟨.running { source with tickets := rest },
      history.record (some ticket) write (.error problem)⟩ := by
  obtain ⟨places, stored⟩ := conserved.running source rfl
  have moved : (rest ++ (history.refused ++ [ticket])).Perm
      (source.tickets ++ history.refused) := by
    rw [← List.append_assoc]
    exact List.perm_append_comm.trans (isRest.append_right _)
  constructor
  · rintro _ ⟨⟩
    constructor
    · apply List.Perm.trans _ places
      have assoc := moved.append_right history.lost
      simp only [List.append_assoc] at assoc
      simp only [TicketHistory.record, Option.toList_some, List.append_assoc]
      exact assoc.append_left _
    · intro untorn
      obtain ⟨inFile, isFile, same⟩ := stored untorn
      exact ⟨inFile, isFile, same.trans moved.symm⟩
  · rintro _ ⟨⟩

/-- Every event keeps every ticket in one place. -/
theorem Wallet.Conserved.step {event : WalletEvent} (conserved : wallet.Conserved tickets)
    (untorn : wallet.Untorn event) (stepped : wallet.step event = some target) :
    target.Conserved tickets := by
  obtain ⟨process, history⟩ := wallet
  cases process with
  | stopped file =>
      cases event with
      | start =>
          obtain ⟨refused, isWhole, stored, rfl, places⟩ := conserved.stopped file rfl
          cases stepped
          constructor
          · rintro _ ⟨⟩
            refine ⟨?_, fun _ => ⟨stored, rfl, ?_⟩⟩
            · rw [refused, List.nil_append]
              exact places
            · rw [refused, List.append_nil]
          · rintro _ ⟨⟩
      | next request => contradiction
      | stop => contradiction
  | running source =>
      cases event with
      | start => contradiction
      | next request =>
          have isTarget : target = ⟨.running (source.call request).2,
              history.record (taken source request.tokenClass) request.write
                (source.call request).1⟩ := (Option.some.inj stepped).symm
          rw [isTarget]
          rcases call_cases source request with
            ⟨called, none⟩ | ⟨ticket, rest, taken, isRest, called | called⟩
          · rw [called, none]
            rwa [TicketHistory.record, Option.toList_none, List.append_nil]
          · rw [called]
            exact conserved.hand isRest _ request.write
          · rw [called, taken]
            exact conserved.refuse isRest request.write .notBound
      | stop =>
          cases stepped
          obtain ⟨places, stored⟩ := conserved.running source rfl
          obtain ⟨inFile, isFile, same⟩ := stored untorn
          constructor
          · rintro _ ⟨⟩
          · rintro _ ⟨⟩
            refine ⟨rfl, untorn, inFile, isFile, ?_⟩
            apply List.Perm.trans _ places
            have assoc := same.append_right history.lost
            rw [List.append_assoc] at assoc
            exact assoc.append_left _

/-- **No ticket is handed out twice**, however often the client ends and is started again: every
ticket of the file was handed out once, or is to be handed out, or was refused, as long as the
process does not end while the file lacks the last write. -/
theorem conserved_of_reachable
    (reachable : (Wallet.system tickets).Reachable Wallet.Untorn wallet) :
    wallet.Conserved tickets := by
  apply reachable.invariant
  · rintro _ rfl
    constructor
    · rintro _ ⟨⟩
    · rintro _ ⟨⟩
      refine ⟨rfl, rfl, tickets, rfl, ?_⟩
      rw [TicketHistory.empty, List.nil_append, List.append_nil]
  · exact fun _ _ _ conserved untorn stepped => conserved.step untorn stepped

end Conservation

/-! ## Two tickets -/

/-- A ticket is refused, and the client is started again. -/
def refusedAndStopped : List WalletEvent :=
  [.start, .next ⟨.c256, [9], .written⟩, .stop, .start, .next ⟨.c256, [1], .written⟩]

def twoTicketWallet : Wallet :=
  ((Wallet.system FileTicketSource.twoTickets).run
    ⟨.stopped (some FileTicketSource.twoTickets), .empty⟩ refusedAndStopped).get (by decide)

theorem conserved_refused : twoTicketWallet.Conserved FileTicketSource.twoTickets ∧
    twoTicketWallet.history.handed = [⟨[1], [1], .c256, []⟩] := by
  refine ⟨conserved_of_reachable ?_, by decide⟩
  apply System.Reachable.of_run (.start rfl) _ (Option.some_get _).symm
  refine ⟨trivial, fun _ started => ⟨trivial, fun _ refused => ⟨?_, fun _ _ =>
    ⟨trivial, fun _ _ => ⟨trivial, fun _ _ => trivial⟩⟩⟩⟩⟩
  cases started
  cases refused
  rfl

end ZkLlmGateway.Client
