import Mathlib.Data.List.Infix

/-!
# Objects that are saved

An object that is changed in memory and saved now and then is lost in a crash, and loaded
from its file again.  A journal tells the operations that are in the file from those that
are in memory only, so that the object is always what its journal makes of it.
-/

namespace ZkLlmGateway.Transition

universe u v w

/-- What an operation does to the file: it may leave it alone, store the object in it, or
leave it half written. -/
inductive Saves
  | nothing
  | whole
  | torn

/-- The operations that the file has, and those that were made since it was stored. -/
structure Journal (ε : Type u) where
  saved : List ε
  pending : List ε
  torn : Bool

namespace Journal

variable {ε : Type u}

def empty : Journal ε where
  saved := []
  pending := []
  torn := false

/-- All operations that the object has been through. -/
def made (journal : Journal ε) : List ε :=
  journal.saved ++ journal.pending

def perform (journal : Journal ε) (operation : ε) : Saves → Journal ε
  | .nothing => { journal with pending := journal.pending ++ [operation] }
  | .whole => ⟨journal.made ++ [operation], [], false⟩
  | .torn => { journal with pending := journal.pending ++ [operation], torn := true }

/-- The object is lost, and with it what was not saved. -/
def crash (journal : Journal ε) : Journal ε :=
  { journal with pending := [] }

theorem made_perform (journal : Journal ε) (operation : ε) (saves : Saves) :
    (journal.perform operation saves).made = journal.made ++ [operation] := by
  cases saves with
  | nothing => exact (List.append_assoc ..).symm
  | whole => exact List.append_nil _
  | torn => exact (List.append_assoc ..).symm

/-- What is saved stays. -/
theorem saved_isPrefix_perform (journal : Journal ε) (operation : ε) (saves : Saves) :
    journal.saved <+: (journal.perform operation saves).saved := by
  cases saves with
  | nothing => exact List.prefix_refl _
  | whole => exact (List.prefix_append ..).trans (List.prefix_append ..)
  | torn => exact List.prefix_refl _

end Journal

section Recovers

variable {σ : Type u} {τ : Type v} {φ : Type w} {ε : Type*} (spec : τ → ε → τ)
  (refines : σ → τ → Prop) (loads : φ → σ → Prop)

/-- The object is what its journal says, and so is the one that is loaded from its file, as long
as the file is not torn. -/
structure Recovers (start : τ) (journal : Journal ε) (file : φ) (object : Option σ) : Prop where
  live : ∀ current ∈ object, refines current (journal.made.foldl spec start)
  stored : journal.torn = false →
    ∃ loaded, loads file loaded ∧ refines loaded (journal.saved.foldl spec start)
  lost : object = none → journal.pending = []

variable {spec refines loads} {start : τ} {current target : σ} {journal : Journal ε} {file next : φ}
  {object : Option σ}

/-- An operation of the object that is one of the specification, and that stores what can be
loaded. -/
theorem Recovers.perform {operation : ε} {saves : Saves}
    (recovers : Recovers spec refines loads start journal file (some current))
    (simulates : ∀ state, refines current state → refines target (spec state operation))
    (unchanged : saves = .nothing → next = file)
    (whole : saves = .whole → ∀ state, refines target state →
      ∃ loaded, loads next loaded ∧ refines loaded state) :
    Recovers spec refines loads start (journal.perform operation saves) next (some target) := by
  have performed : refines target ((journal.made ++ [operation]).foldl spec start) := by
    rw [List.foldl_append]
    exact simulates _ (recovers.live current rfl)
  constructor
  · rintro _ ⟨⟩
    rw [Journal.made_perform]
    exact performed
  · intro untorn
    cases saves with
    | nothing =>
        rw [unchanged rfl]
        exact recovers.stored untorn
    | whole => exact whole rfl _ performed
    | torn => contradiction
  · intro isLost
    contradiction

theorem Recovers.crash (recovers : Recovers spec refines loads start journal file object) :
    Recovers spec refines loads start journal.crash file none where
  live := by
    intro _ isSome
    contradiction
  stored := recovers.stored
  lost := fun _ => rfl

/-- An object that is lost is loaded again. -/
theorem Recovers.load (recovers : Recovers spec refines loads start journal file none)
    (untorn : journal.torn = false) :
    ∃ loaded, loads file loaded ∧
      Recovers spec refines loads start journal file (some loaded) := by
  obtain ⟨loaded, isLoaded, same⟩ := recovers.stored untorn
  refine ⟨loaded, isLoaded, ?_, recovers.stored, ?_⟩
  · rintro _ ⟨⟩
    rw [Journal.made, recovers.lost rfl, List.append_nil]
    exact same
  · intro isLost
    contradiction

end Recovers

end ZkLlmGateway.Transition
