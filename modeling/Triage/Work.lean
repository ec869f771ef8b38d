import Triage.Log
import Triage.Store

/-!
# Work on the stores

A piece of work asks the stores one question after another, hands messages to a transport and
writes log records.  It is a value: the same work can be run to its end, run against stores that
fail, or broken off between two of its steps.  `Work.run` carries it out with a `Handler`.
-/

namespace Triage

/-- A message for one address. -/
structure Message where
  address : String
  subject : String
  body : String
  deriving DecidableEq, Repr

inductive Work (α : Type) : Type where
  | done (a : α)
  | call (c : Call) (next : Except StorageError c.Answer → Work α)
  | send (m : Message) (next : Except ServiceError Unit → Work α)
  | log (r : LogRecord) (next : Work α)

namespace Work

variable {α β σ : Type}

def bind : Work α → (α → Work β) → Work β
  | done a, f => f a
  | call c next, f => call c fun r => (next r).bind f
  | send m next, f => send m fun r => (next r).bind f
  | log r next, f => log r (next.bind f)

instance : Monad Work where
  pure := done
  bind := bind

/-- How the steps of a piece of work are carried out, on a state `σ`. -/
structure Handler (σ : Type) where
  answer : (c : Call) → σ → Except StorageError c.Answer × σ
  deliver : Message → σ → Except ServiceError Unit × σ
  record : LogRecord → σ → σ

def run (h : Handler σ) : Work α → σ → α × σ
  | done a, s => (a, s)
  | call c next, s =>
    match h.answer c s with
    | (r, s') => (next r).run h s'
  | send m next, s =>
    match h.deliver m s with
    | (r, s') => (next r).run h s'
  | log r next, s => next.run h (h.record r s)

theorem run_bind (h : Handler σ) (w : Work α) (f : α → Work β) (s : σ) :
    (w.bind f).run h s = (f (w.run h s).1).run h (w.run h s).2 := by
  induction w generalizing s with
  | done a => rfl
  | call c next ih => exact ih _ _
  | send m next ih => exact ih _ _
  | log r next ih => exact ih _

theorem bind_done (w : Work α) : w.bind done = w := by
  induction w with
  | done a => rfl
  | call c next ih => exact congrArg _ (funext ih)
  | send m next ih => exact congrArg _ (funext ih)
  | log r next ih => exact congrArg _ ih

theorem bind_assoc {γ : Type} (w : Work α) (f : α → Work β) (g : β → Work γ) :
    (w.bind f).bind g = w.bind fun a => (f a).bind g := by
  induction w with
  | done a => rfl
  | call c next ih => exact congrArg _ (funext ih)
  | send m next ih => exact congrArg _ (funext ih)
  | log r next ih => exact congrArg _ ih

instance : LawfulMonad Work :=
  LawfulMonad.mk' Work (fun w => bind_done w) (fun _ _ => rfl) (fun w f g => bind_assoc w f g)

end Work

/-- Why a pass over the stores ends early: it fails, or the window of time that it looks at
cannot be computed. -/
inductive Failure where
  | error (e : ServiceError)
  | crash (o : Timestamp.Overflow)
  deriving DecidableEq, Repr

abbrev Pass (α : Type) := ExceptT Failure Work α

namespace Pass

def fail {α : Type} (e : ServiceError) : Pass α := throw (.error e)

/-- Asks the stores; a failed request ends the pass. -/
def ask (c : Call) : Pass c.Answer :=
  ExceptT.mk (.call c fun
    | .ok a => .done (.ok a)
    | .error e => .done (.error (.error (.storage e))))

/-- Asks the stores and goes on whatever they answer. -/
def tryAsk (c : Call) : Pass (Except StorageError c.Answer) :=
  ExceptT.mk (.call c fun r => .done (.ok r))

def send (m : Message) : Pass (Except ServiceError Unit) :=
  ExceptT.mk (.send m fun r => .done (.ok r))

def log (r : LogRecord) : Pass Unit := ExceptT.mk (.log r (.done (.ok ())))

/-- Runs a pass and goes on whatever comes of it, unless it breaks off. -/
def attempt {α : Type} (p : Pass α) : Pass (Except ServiceError α) :=
  ExceptT.mk (p.run.bind fun
    | .ok a => .done (.ok (.ok a))
    | .error (.error e) => .done (.ok (.error e))
    | .error (.crash o) => .done (.error (.crash o)))

def ofTime (t : Except Timestamp.Overflow Timestamp) : Pass Timestamp :=
  match t with
  | .ok t => pure t
  | .error o => throw (.crash o)

end Pass

end Triage
