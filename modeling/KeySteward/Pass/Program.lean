import KeySteward.Pass.Failure
import KeySteward.Service.Request

/-! What a pass does, as a tree of calls. A program ends with a value, or it makes a call and has a
program for every result of the call. The result of a call may also be that the pass may no longer
go on, so a program is free to choose what follows from that. -/

namespace KeySteward

inductive Program (α : Type) where
  | done (value : α)
  | call (request : Request) (next : Except Failure request.Answer → Program α)
  /-- More pages were to be read than the program has room for. -/
  | unfinished

namespace Program

variable {α β γ : Type}

def bind : Program α → (α → Program β) → Program β
  | done value, next => next value
  | call request rest, next => call request fun result => (rest result).bind next
  | unfinished, _ => unfinished

instance : Monad Program where
  pure := done
  bind := bind

theorem bind_done (program : Program α) : program.bind done = program := by
  induction program with
  | done value => rfl
  | call request next ih => simp only [bind, ih]
  | unfinished => rfl

theorem bind_assoc (program : Program α) (first : α → Program β) (second : β → Program γ) :
    (program.bind first).bind second = program.bind fun value => (first value).bind second := by
  induction program with
  | done value => rfl
  | call request next ih => simp only [bind, ih]
  | unfinished => rfl

instance : LawfulMonad Program :=
  LawfulMonad.mk' Program bind_done (fun _ _ => rfl) bind_assoc

end Program

/-- A part of a pass, which ends with a value or fails. -/
abbrev Pass := ExceptT Failure Program

/-- A part of a pass that may also fail with a resource that has converged in part. -/
abbrev Update (ρ : Type) := ExceptT (FailedUpdate ρ) Program

namespace Pass

def call (request : Request) : Pass request.Answer :=
  ExceptT.mk (.call request .done)

def unfinished {α : Type} : Pass α :=
  ExceptT.mk .unfinished

/-- Gives back the result of a part, which is no failure of what it is a part of. -/
def result {ε α : Type} (pass : Pass α) : ExceptT ε Program (Except Failure α) :=
  ExceptT.lift pass.run

/-- A look-up, where all ways of not being found are one. -/
def lookup {α : Type} (pass : Pass α) : Pass α :=
  pass.adapt Failure.ofLookup

/-- A deletion, which has succeeded where there is nothing to delete. -/
def deletion (pass : Pass Unit) : Pass Unit :=
  tryCatch pass fun failure => if failure.isNotFound then pure () else throw failure

end Pass

/-- A part that fails leaves nothing converged. -/
instance {ρ : Type} : MonadLift Pass (Update ρ) where
  monadLift pass := pass.adapt fun failure => ⟨none, failure⟩

end KeySteward
