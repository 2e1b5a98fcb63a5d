import WiseOrder.Memory.Ownership
import WiseOrder.Workflows.DemoForge

/-! The protocol that a pipeline keeps on its own rows: one workflow, started once
and finished once, with no task left running when it is finished; and rows touched
only by the call that inserted them. -/
namespace WiseOrder
open Coroutine Relational

abbrev History := List (Interaction calls)

/-- The call has set the key where it was not set. -/
def Won (h : History) (key : String) : Prop :=
  ∃ value ex, (⟨.redis (.setNx key value ex), .ok true⟩ : Interaction calls) ∈ h

theorem Won.append (won : Won h key) : Won (h ++ more) key := by
  obtain ⟨value, ex, member⟩ := won
  exact ⟨value, ex, List.mem_append_left _ member⟩

namespace OwnRows

/-- The one workflow of the call, still running. -/
def Running (v : OwnRows) (id : Nat) : Prop := ∃ w, v.workflows = [(id, w)] ∧ w.status = .running

def Quiet (v : OwnRows) : Prop := ∀ t ∈ v.tasks, t.2.status ≠ .running

end OwnRows

/-- The workflow row of a commit: its first log entry carries the repository and the sha. -/
def Workflow.Of (repo sha : Json) (w : Workflow) : Prop :=
  w.workflowName = "commit_pipeline" ∧
    ∃ ts rest, w.logs = ⟨ts, "workflow_started", .obj [("repo", repo), ("sha", sha)]⟩ :: rest

/-- The call has inserted the workflow of a commit, under this id. -/
structure Inserted (h : History) (v : OwnRows) (id : Nat) (repo sha : Json) : Prop where
  added : ∃ chain ts, (⟨.session (.addWorkflow "commit_pipeline" chain
    [⟨ts, "workflow_started", .obj [("repo", repo), ("sha", sha)]⟩]),
      .ok id⟩ : Interaction calls) ∈ h
  row : ∃ w, (id, w) ∈ v.workflows ∧ w.Of repo sha

namespace Transaction

def Lawful (h : History) (v : OwnRows) : Transaction → Prop
  | .addWorkflow name _ logs => v = OwnRows.none ∧ (name = "commit_pipeline" → ∃ ts repo sha,
      logs = [⟨ts, "workflow_started", .obj [("repo", repo), ("sha", sha)]⟩] ∧
        Won h (Dedup.key repo sha))
  | .createTask _ id _ | .appendLog id _ => v.Running id
  | .failWorkflow id _ _ | .completeWorkflow id _ _ => v.Running id ∧ v.Quiet
  | .completeTask id _ | .failTask id _ => v.tasks.Holds id
  | .addMemory .. => True
  | .setEmbedding id _ => v.memory.Holds id
  | .addApproval req => v.approvals = [] ∧ ∃ id, req.workflowId = some id ∧ v.Running id
  | .setDelivered id _ => v.approvals.Holds id
  | .findApproval _ | .updateDecision .. | .reap .. => False

theorem Lawful.mine (lawful : Lawful h v t) : t.Mine v := by
  have held {id : Nat} (running : v.Running id) : v.workflows.Holds id := by
    obtain ⟨w, same, -⟩ := running
    exact ⟨w, by rw [same]; exact List.mem_singleton.mpr rfl⟩
  cases t with
  | createTask type id payload => exact held lawful
  | appendLog id entry => exact held lawful
  | failWorkflow id event error => exact held lawful.1
  | completeWorkflow id event data => exact held lawful.1
  | completeTask id result => exact lawful
  | failTask id error => exact lawful
  | setEmbedding id embeddingId => exact lawful
  | setDelivered id via => exact lawful
  | addWorkflow name chain logs => trivial
  | addMemory category content metadata => trivial
  | addApproval req => trivial
  | findApproval id => trivial
  | updateDecision id decision decidedAt => trivial
  | reap cutoff marker => exact lawful.elim

end Transaction

/-- What a pipeline may call. It claims with the common lifetime, once, and attaches
its workflow to a claim that it won; it never drops a claim and has no hand in lanes and workers. -/
def pipelineAllowed (s : Settings) (h : History) (c : Call) (v : OwnRows) : Prop :=
  match c with
  | .session t => t.Lawful h v
  | .redis (.setNx _ value ex) => value = Dedup.pending ∧ ex = s.dedupTtlSeconds ∧ h = []
  | .redis (.setEx key value ex) => ex = s.dedupTtlSeconds ∧ Won h key ∧
      ∃ repo sha id, key = Dedup.key repo sha ∧ value = toString id ∧ Inserted h v id repo sha
  | .redis (.get _) => True
  | .redis _ => False
  | .createWorkers _ | .startServices | .handler .. | .stopIsSet => False
  | _ => True

/-- What an orchestrator coming up may call: it reaps before it creates workers. -/
def starterAllowed (h : History) (c : Call) (v : OwnRows) : Prop :=
  match c with
  | .session (.reap ..) => v = OwnRows.none ∧ ∀ x ∈ h, ∀ n, x.call ≠ .createWorkers n
  | .session _ | .redis _ => False
  | _ => True

/-- What a worker may call: jobs, but no transaction and no command on a claim. -/
def workerAllowed (c : Call) : Prop :=
  match c with
  | .session _ => False
  | .redis (.setNx ..) | .redis (.setEx ..) | .redis (.delete _) => False
  | .createWorkers _ => False
  | _ => True

/-- What a visitor may call: it decides, too. -/
def visitorAllowed (c : Call) : Prop :=
  match c with
  | .session t => t.Decides
  | c => workerAllowed c

def operatorAllowed (c : Call) : Prop :=
  match c with
  | .redis (.delete _) => True
  | _ => False

/-- The caller's own rows after a transaction that raised: it was rolled back, or it had
committed. -/
def Transaction.Unanswered (t : Transaction) (v v' : OwnRows) : Prop :=
  v' = v ∨ ∃ x now, t.New v x ∧ v' = t.commit now v x

theorem Transaction.Unanswered.workflows {t : Transaction} (unanswered : t.Unanswered v v')
    (same : ∀ x now, (t.commit now v x).workflows = v.workflows) : v'.workflows = v.workflows := by
  rcases unanswered with rfl | ⟨x, now, -, rfl⟩
  · rfl
  · exact same x now

theorem Transaction.Unanswered.tasks {t : Transaction} (unanswered : t.Unanswered v v')
    (same : ∀ x now, (t.commit now v x).tasks = v.tasks) : v'.tasks = v.tasks := by
  rcases unanswered with rfl | ⟨x, now, -, rfl⟩
  · rfl
  · exact same x now

theorem Transaction.Unanswered.running {t : Transaction} {id : Nat} (unanswered : t.Unanswered v v')
    (running : v.Running id) (same : ∀ x now, (t.commit now v x).workflows = v.workflows) :
    v'.Running id := by
  obtain ⟨w, only, status⟩ := running
  exact ⟨w, (unanswered.workflows same).trans only, status⟩

/-- What a call does to the caller's own rows. -/
def ownEffect (c : Call) (v : OwnRows) (reply : Except PyException c.Reply) (v' : OwnRows) : Prop :=
  match c, reply with
  | .session t, .ok x => ∃ now, t.New v x ∧ v' = t.commit now v x
  | .session t, .error _ => t.Unanswered v v'
  | .now, .error _ => False
  | _, _ => v' = v

def pipelineProtocol (s : Settings) : Protocol calls OwnRows := ⟨pipelineAllowed s, ownEffect⟩

def starterProtocol : Protocol calls OwnRows := ⟨starterAllowed, ownEffect⟩

def workerProtocol : Protocol calls OwnRows := ⟨fun _ c _ => workerAllowed c, ownEffect⟩

def visitorProtocol : Protocol calls OwnRows := ⟨fun _ c _ => visitorAllowed c, ownEffect⟩

def operatorProtocol : Protocol calls OwnRows := ⟨fun _ c _ => operatorAllowed c, ownEffect⟩

def protocol (s : Settings) (i : CallId) : Protocol calls OwnRows :=
  match i.role with
  | .pipeline => pipelineProtocol s
  | .starter => starterProtocol
  | .worker => workerProtocol
  | .visitor => visitorProtocol
  | .operator => operatorProtocol

end WiseOrder
