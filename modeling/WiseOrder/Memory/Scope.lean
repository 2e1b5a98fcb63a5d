import WiseOrder.Foundation.Contract
import WiseOrder.Memory.Session

/-! The statements of a `session_scope` block, one by one. They act on what the
transaction sees; the database has them when it commits, and what raises before
that rolls them back. -/
namespace WiseOrder.Scope
open Coroutine Coroutine.Program Relational

inductive Statement where
  | now
  | begin
  | selectOrphans (cutoff : Time)
  | updateWorkflow (id : Nat) (status : Status) (completedAt : Time) (logs : List LogEntry)
  | interruptTasks (workflowId : Nat) (completedAt : Time)
  | commit
  | rollback

def Statement.Reply : Statement → Type
  | .now => Time
  | .selectOrphans _ => List (Nat × Workflow)
  | _ => Unit

abbrev sql : Signature := ⟨Statement, Statement.Reply, PyException⟩

/-- What is committed, and what the open transaction sees. -/
structure Store where
  clock : Time
  db : Db
  pending : Db

def Store.write (w : Store) (pending : Db) : Store := { w with pending := pending }

def setWorkflow (id : Nat) (status : Status) (completedAt : Time) (logs : List LogEntry) (db : Db) :
    Db :=
  { db with workflows := db.workflows.updateAt id fun row =>
      { row with status := status, completedAt := some completedAt, logs := logs } }

def runningIn (workflowId : Nat) (e : Entry CallId Task) : Bool :=
  e.row.workflowId = some workflowId && e.row.status = .running

def interruptTasks (workflowId : Nat) (completedAt : Time) (db : Db) : Db :=
  { db with tasks := db.tasks.update (runningIn workflowId) (Task.interrupt completedAt) }

/-- The rows of a select come in no particular order. A statement may raise instead, as may a
commit, which has then taken effect or not. -/
def perform : (c : Statement) → Store → Except PyException c.Reply → Store → Prop
  | .now, w, .ok now, w' => w.clock ≤ now ∧ w' = { w with clock := now }
  | .now, _, .error _, _ => False
  | .begin, w, .ok _, w' => w' = w.write w.db
  | .selectOrphans cutoff, w, .ok rows, w' =>
      rows.Perm ((w.pending.workflows.entries.filter fun e => Transaction.orphan cutoff e.row).map
        fun e => (e.id, e.row)) ∧ w' = w
  | .updateWorkflow id status completedAt logs, w, .ok _, w' =>
      w' = w.write (setWorkflow id status completedAt logs w.pending)
  | .interruptTasks workflowId completedAt, w, .ok _, w' =>
      w' = w.write (interruptTasks workflowId completedAt w.pending)
  | .commit, w, .ok _, w' => w' = { w with db := w.pending }
  | .commit, w, .error _, w' => w' = w ∨ w' = { w with db := w.pending }
  | .rollback, w, _, w' => w' = w.write w.db
  | _, w, .error _, w' => w' = w

/-- Every statement may be sent; what it does is as performed. -/
def rules : Protocol sql Store := ⟨fun _ _ _ => True, perform⟩

def statement (c : Statement) : Program sql c.Reply := @call sql c

/-- The end of a block that has raised. -/
def abandon (e : PyException) : Program sql α := do
  statement .rollback
  Program.raise e

/-- `async with session_scope() as session: …` -/
def sessionScope (block : Program sql α) : Program sql α := do
  statement .begin
  (block.andThen fun
    | .ok a => (statement .commit).andThen fun
      | .ok _ => .ret a
      | .error e => abandon e
    | .error e => abandon e)

/-- Some statement raised. -/
def Raised (seen : List (Interaction sql)) : Prop := ∃ x ∈ seen, x.raised.isSome

theorem raised_here {seen : List (Interaction sql)} {c : Statement} {e : PyException} :
    Raised (seen ++ [⟨c, .error e⟩]) :=
  ⟨_, List.mem_append_right _ (List.mem_singleton.mpr rfl), rfl⟩

theorem Raised.later {seen : List (Interaction sql)} (raised : Raised seen) :
    Raised (seen ++ more) := by
  obtain ⟨x, member, some⟩ := raised
  exact ⟨x, List.mem_append_left _ member, some⟩

/-- The commit raised. -/
def Unheard (seen : List (Interaction sql)) : Prop :=
  ∃ e, (⟨.commit, .error e⟩ : Interaction sql) ∈ seen

theorem unheard_here {seen : List (Interaction sql)} {e : PyException} :
    Unheard (seen ++ [⟨.commit, .error e⟩] ++ more) :=
  ⟨e, List.mem_append_left _ (List.mem_append_right _ (List.mem_singleton.mpr rfl))⟩

/-- What holds of a block that began on a store: nothing is committed, and where it ends by an
exception a statement raised it. -/
def Uncommitted (b : Store) (P : α → Store → Prop) : Post sql Store α :=
  ending (fun a _ w => P a w ∧ w.db = b.db) fun _ seen w => w.db = b.db ∧ Raised seen

section
variable {w w' : Store} {seen : List (Interaction sql)} {block : Program sql α}

/-- A statement and what comes after it. -/
theorem obeys_statement {c : Statement} {f : c.Reply → Program sql α} {post : Post sql Store α}
    (raises : ∀ e after, perform c w' (.error e) after →
      post (.error e) (seen ++ [⟨c, .error e⟩]) after)
    (replies : ∀ x after, perform c w' (.ok x) after →
      (f x).Obeys rules post (seen ++ [⟨c, .ok x⟩]) after) :
    (statement c >>= f).Obeys rules post seen w' := by
  refine obeys_bind_iff.mpr (obeys_call trivial fun reply after performed => ?_)
  cases reply with
  | ok x => exact replies x after performed
  | error e => exact raises e after performed

theorem obeys_abandon {e : PyException} {post : Post sql Store α}
    (ends : ∀ e more, post (.error e) (seen ++ more) (w'.write w'.db)) :
    (abandon e : Program sql α).Obeys rules post seen w' := by
  refine obeys_statement (fun e' after performed => ?_) fun _ after performed => ?_
  · cases performed
    exact ends _ _
  · cases performed
    exact ends _ _

/-- What a scope commits: all that its block has made. -/
def Commits (P : α → Store → Prop) (a : α) (w : Store) : Prop :=
  ∃ v, P a v ∧ w.db = v.pending ∧ w.clock = v.clock

/-- A scope commits what its block has made, or raises and leaves everything as it was. Where it is
the commit that raises, it may have taken effect. -/
theorem obeys_scope {P : α → Store → Prop} {seen : List (Interaction sql)}
    (body : ∀ seen, block.Obeys rules (Uncommitted w P) seen (w.write w.db)) :
    (sessionScope block).Obeys rules (ending (fun a _ w' => Commits P a w')
      fun _ seen w' => Raised seen ∧
      (w'.db = w.db ∨ Unheard seen ∧ ∃ a, Commits P a w')) seen w := by
  refine obeys_statement (fun e after performed => ?_) fun _ after performed => ?_
  · cases performed
    exact ⟨raised_here, .inl rfl⟩
  · cases performed
    refine obeys_andThen.mpr ((body _).mono fun result later v holds => ?_)
    cases result with
    | error e =>
        obtain ⟨db, raised⟩ := holds
        exact obeys_abandon fun e more => ⟨raised.later, .inl db⟩
    | ok a =>
        obtain ⟨made, db⟩ := holds
        refine obeys_andThen.mpr (obeys_call trivial fun reply after performed => ?_)
        cases reply with
        | ok _ =>
            cases performed
            exact ⟨v, made, rfl, rfl⟩
        | error e =>
            rcases performed with rfl | rfl
            · exact obeys_abandon fun e more => ⟨raised_here.later, .inl db⟩
            · exact obeys_abandon fun e more =>
                ⟨raised_here.later, .inr ⟨unheard_here, a, v, made, rfl, rfl⟩⟩

end

end WiseOrder.Scope
