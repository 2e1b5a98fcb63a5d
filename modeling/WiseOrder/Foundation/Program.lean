import Mathlib.Init

/-! Coroutines as trees of awaited calls. A program has ended, with a value or an
exception, or it awaits one call and goes on with whatever the call replies; a
reply may itself be an exception. The code between two awaits is not visible:
only calls interleave with other programs. -/
namespace Coroutine

/-- The calls a program may await, what each replies, and the exceptions. -/
structure Signature where
  Call : Type
  Reply : Call → Type
  Error : Type

inductive Program (calls : Signature) (α : Type) where
  | done (result : Except calls.Error α)
  | await (call : calls.Call) (resume : Except calls.Error (calls.Reply call) → Program calls α)

namespace Program
variable {calls : Signature} {α β γ : Type}

/-- Go on with the outcome of a program, whether it is a value or an exception. -/
def andThen : Program calls α → (Except calls.Error α → Program calls β) → Program calls β
  | .done result, next => next result
  | .await call resume, next => .await call fun reply => (resume reply).andThen next

def ret (a : α) : Program calls α := .done (.ok a)

def raise (e : calls.Error) : Program calls α := .done (.error e)

def call (c : calls.Call) : Program calls (calls.Reply c) := .await c .done

def ofExcept (result : Except calls.Error α) : Program calls α := .done result

instance : Monad (Program calls) where
  pure := ret
  bind m f := m.andThen fun
    | .ok a => f a
    | .error e => raise e

/-- `except` clause: handle the exceptions that `caught` selects, let the others pass. -/
def catching (caught : calls.Error → Bool) (body : Program calls α)
    (handler : calls.Error → Program calls α) : Program calls α :=
  body.andThen fun
    | .ok a => ret a
    | .error e => if caught e then handler e else raise e

/-- `finally` clause: run the closing program on every outcome; its own exception wins. -/
def finallyDo (body : Program calls α) (closing : Program calls β) : Program calls α :=
  body.andThen fun result => closing.andThen fun
    | .ok _ => .done result
    | .error e => raise e

/-- The program with each of its calls made as a call of a wider signature. -/
def embed {wider : Signature} (as : calls.Call → wider.Call)
    (back : ∀ c, Except wider.Error (wider.Reply (as c)) → Except calls.Error (calls.Reply c))
    (ends : Except calls.Error α → Except wider.Error β) : Program calls α → Program wider β
  | .done result => .done (ends result)
  | .await c resume => .await (as c) fun reply => (resume (back c reply)).embed as back ends

/-- Whether a program has yet to come to its end. -/
def Waiting : Program calls α → Prop
  | .done _ => False
  | .await _ _ => True

theorem Waiting.await {m : Program calls α} (waiting : m.Waiting) :
    ∃ call resume, m = .await call resume := by
  cases m with
  | done result => exact waiting.elim
  | await call resume => exact ⟨call, resume, rfl⟩

end Program

/-- One awaited call together with its reply. -/
structure Interaction (calls : Signature) where
  call : calls.Call
  reply : Except calls.Error (calls.Reply call)

/-- The exception that the call raised, if it raised one. -/
def Interaction.raised {calls : Signature} (x : Interaction calls) : Option calls.Error :=
  match x.reply with
  | .ok _ => none
  | .error e => some e

end Coroutine
