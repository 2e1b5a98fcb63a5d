import WiseOrder.Foundation.Budget
import WiseOrder.Queues.Slot
import WiseOrder.Workflows.CardStatus

/-! The logs of the workflows. A pipeline adds a bounded number of entries to the log of its
workflow, and the reaper one more at most; each entry bears a time that was read from the clock. -/
namespace WiseOrder
open Coroutine Coroutine.Program Relational

/-- The entries that a call brings along. -/
def Call.entries : Call → List LogEntry
  | .session (.addWorkflow _ _ logs) => logs
  | .session (.appendLog _ entry) => [entry]
  | .session (.reap _ marker) => [marker]
  | _ => []

/-- How many entries a call adds to the log of the caller's workflow. -/
def Call.logs : Call → Nat
  | .session (.appendLog ..) | .session (.failWorkflow ..) | .session (.completeWorkflow ..) => 1
  | _ => 0

def Read (h : History) (t : Time) : Prop := (⟨.now, .ok t⟩ : Interaction calls) ∈ h

/-- One entry is brought along at most, with a time that was read. -/
def stamped : Protocol calls Unit :=
  ⟨fun h c _ => c.entries.length ≤ 1 ∧ ∀ entry ∈ c.entries, Read h entry.ts, fun _ _ _ _ => True⟩

/-- A call that has nothing to do with logs. -/
def Silent (c : Call) : Prop := c.entries = [] ∧ c.logs = 0

/-! ### Programs -/

/-- Adds at most so many entries, all with times that were read. -/
structure Logs {α : Type} (n : Nat) (m : Async α) : Prop where
  stamps : ∀ h, m.Obeys stamped (fun _ _ _ => True) h ()
  costs : m.Costs Call.logs n

namespace Logs
variable {α β : Type} {n k : Nat} {event : String} {data : Json} {workflowId : Nat}

theorem ret (a : α) : Logs 0 (pure a : Async α) := ⟨fun _ => trivial, trivial⟩

theorem raise (e : PyException) : Logs 0 (WiseOrder.raise e : Async α) :=
  ⟨fun _ => trivial, trivial⟩

theorem bind {m : Async α} {f : α → Async β} (first : Logs n m) (next : ∀ a, Logs k (f a)) :
    Logs (k + n) (m >>= f) where
  stamps h := obeys_bind (first.stamps h) (fun a h _ _ => (next a).stamps h) fun _ _ _ _ => trivial
  costs := costs_bind first.costs fun a => (next a).costs

theorem catching {m : Async α} {handler : PyException → Async α} (body : Logs n m)
    (handles : ∀ e, Logs k (handler e)) : Logs (k + n) (tryExcept m handler) where
  stamps h := obeys_catching (body.stamps h) (fun _ _ _ _ => trivial) (fun e h _ _ _ =>
    (handles e).stamps h) fun _ _ _ _ _ => trivial
  costs := costs_catching body.costs fun e => (handles e).costs

theorem ite {p : Prop} [Decidable p] {yes no : Async α} (left : Logs n yes) (right : Logs n no) :
    Logs n (if p then yes else no) := by
  split
  · exact left
  · exact right

theorem mono {m : Async α} (logs : Logs n m) (more : n ≤ k) : Logs k m :=
  ⟨logs.stamps, logs.costs.mono more⟩

theorem silent {m : Async α} (within : m.Within Silent) : Logs 0 m where
  stamps h := within.obeys (fun _ c _ silent => by simp [stamped, silent.1]) h ()
  costs := (within.mono fun _ silent => silent.2).costs

theorem calm {c : Call} (bare : c.entries = []) (free : c.logs = 0) : Logs 0 (await c) :=
  silent (within_call ⟨bare, free⟩)

/-- One entry is added, with the time of the transaction. -/
theorem added {c : Call} (bare : c.entries = []) (one : c.logs = 1) : Logs 1 (await c) where
  stamps h := obeys_call (by simp [stamped, bare]) fun _ _ _ => trivial
  costs := costs_call one.le

/-- What has a new entry has one with a time that was read. -/
theorem logging {f : LogEntry → Async β}
    (next : ∀ entry h, Read h entry.ts → (f entry).Obeys stamped (fun _ _ _ => True) h ())
    (costs : ∀ entry, (f entry).Costs Call.logs n) : Logs n (logEntry event data >>= f) where
  stamps h := by
    refine ⟨by simp [stamped, Call.entries], fun reply _ _ => ?_⟩
    cases reply with
    | ok now =>
        exact next ⟨now, event, data⟩ _ (List.mem_append_right _ (List.mem_singleton.mpr rfl))
    | error e => trivial
  costs := by
    have reads : (logEntry event data).Within Silent :=
      within_bind (within_call ⟨rfl, rfl⟩) fun _ => trivial
    exact costs_bind (silent reads).costs costs

theorem append (event : String) (data : Json) (a : α) : Logs 1 (do
    let entry ← logEntry event data
    appendLog workflowId entry
    return a : Async α) := by
  apply logging
  · intro entry h read
    refine ⟨⟨Nat.le_refl 1, by simpa [Call.entries] using read⟩, fun reply _ _ => ?_⟩
    cases reply <;> trivial
  · intro entry
    have paid : (appendLog workflowId entry).Costs Call.logs 1 := costs_call (Nat.le_refl 1)
    exact costs_bind paid fun _ => costs_ret a

/-- A workflow is started with one entry. -/
theorem start (event name : String) (data : Json) (chain : List String) {f : Nat → Async β}
    (next : ∀ id, Logs n (f id)) : Logs n (do
    let entry ← logEntry event data
    let id ← session (.addWorkflow name chain [entry])
    f id) := by
  apply logging
  · intro entry h read
    refine ⟨⟨Nat.le_refl 1, by simpa [Call.entries] using read⟩, fun reply _ _ => ?_⟩
    cases reply with
    | ok id => exact (next id).stamps _
    | error e => trivial
  · intro entry
    have free : (session (.addWorkflow name chain [entry])).Costs Call.logs 0 :=
      costs_call (Nat.le_refl 0)
    exact costs_bind free fun id => (next id).costs

end Logs

section
variable {s : Settings} {α : Type} {n workflowId taskId : Nat} {repo sha : Json}

namespace CommitPipeline

theorem logs_orFail (label : String) {body : Async α} (logs : Logs n body) :
    Logs (1 + n) (orFail taskId workflowId label body) :=
  logs.catching fun e => .bind (.calm rfl rfl) fun _ => .bind (.added rfl rfl) fun _ => .raise e

theorem logs_summarizeStep (subject author diff : Json) :
    Logs 2 (summarizeStep workflowId repo sha subject author diff) :=
  .bind (.calm rfl rfl) fun _ => logs_orFail _ (.bind (.calm rfl rfl) fun eng =>
    .bind (.calm rfl rfl) fun _ => .append _ _ eng)

theorem logs_draftStep (eng : EngineeringSummary) : Logs 2 (draftStep workflowId sha eng) :=
  .bind (.calm rfl rfl) fun _ => logs_orFail _ (.bind (.calm rfl rfl) fun soc =>
    .bind (.calm rfl rfl) fun _ => .append _ _ soc)

theorem logs_saveStep (subject author : Json) (eng : EngineeringSummary) :
    Logs 1 (saveStep workflowId repo sha subject author eng) := by
  refine .bind (.calm rfl rfl) fun taskId => logs_orFail _ (.silent ?_)
  apply within_bind (by trivial)
  intro shortSha
  apply within_bind (within_call ⟨rfl, rfl⟩)
  intro memoryId
  apply within_bind
  · exact within_catching (within_bind (within_call ⟨rfl, rfl⟩) fun _ =>
      within_call ⟨rfl, rfl⟩) fun _ => trivial
  · exact fun _ => within_call ⟨rfl, rfl⟩

end CommitPipeline

/-- Asking for an approval is not logged. -/
theorem ApprovalGateway.silent_send (req : ApprovalRequest) :
    (ApprovalGateway.send s req).Within Silent := by
  apply within_send
  · intro c delivery
    cases c with
    | session | redis => exact delivery.elim
    | _ => exact ⟨rfl, rfl⟩
  · exact ⟨rfl, rfl⟩
  · exact fun _ _ => ⟨rfl, rfl⟩

namespace CommitPipeline

theorem logs_approvalStep (subject : Json) (eng : EngineeringSummary) (soc : SocialDraft) :
    Logs 2 (approvalStep s workflowId repo sha subject eng soc) :=
  .bind (.calm rfl rfl) fun _ => logs_orFail _ (.bind (.silent (by trivial)) fun req =>
    .bind (.silent (ApprovalGateway.silent_send req)) fun id => .bind (.calm rfl rfl) fun _ =>
      .append _ _ id)

theorem logs_runPipelineSteps (subject author diff : Json) :
    Logs 8 (runPipelineSteps s workflowId repo sha subject author diff) :=
  .bind (logs_summarizeStep _ _ _) fun eng => .bind (logs_draftStep eng) fun soc =>
      .bind (logs_saveStep _ _ eng) fun _ =>
    .bind (logs_approvalStep _ eng soc) fun _ => .bind (.added rfl rfl) fun _ => .ret _

theorem silent_acquire : (Dedup.acquire s repo sha).Within Silent := by
  apply within_bind (within_call ⟨rfl, rfl⟩)
  intro (won : Bool)
  cases won with
  | true => trivial
  | false => exact within_bind (within_call ⟨rfl, rfl⟩) fun _ => trivial

theorem logs_runClaimed (subject author diff : Json) :
    Logs 8 (runClaimed s repo sha subject author diff) := by
  let f (workflowId : Nat) : Async Returned := do
    Dedup.attachWorkflowId s repo sha workflowId
    runPipelineSteps s workflowId repo sha subject author diff
  have next (workflowId : Nat) : Logs 8 (f workflowId) :=
    .bind (.calm rfl rfl) fun _ => logs_runPipelineSteps _ _ _
  exact Logs.start (f := f) _ _ _ _ next

theorem logs_runCommitPipeline (payload : Json) : Logs 8 (runCommitPipeline s payload) := by
  refine .bind (.silent (by cases requireKeys payload ["repo", "sha"] <;> trivial)) fun fields => ?_
  refine .bind (.silent silent_acquire) fun claim => ?_
  refine .ite ?_ ((Logs.ret _).mono (Nat.zero_le _))
  exact logs_runClaimed _ _ _

end CommitPipeline

namespace DemoForge

theorem logs_checkTools (dir scenario : String) : Logs 1 (checkTools dir workflowId scenario) :=
  .bind (.calm rfl rfl) fun _ => .bind (.calm rfl rfl) fun _ => .ite
    (.bind (.calm rfl rfl) fun _ => .bind (.added rfl rfl) fun _ =>
      .raise _) ((Logs.calm rfl rfl).mono (Nat.zero_le _))

theorem logs_capture (dir scenario : String) : Logs 1 (capture dir workflowId scenario) :=
  .bind (.calm rfl rfl) fun _ => .bind (.calm rfl rfl) fun _ => .ite
    (.bind (.calm rfl rfl) fun _ => .bind (.added rfl rfl) fun _ =>
      .raise _) ((Logs.calm rfl rfl).mono (Nat.zero_le _))

theorem logs_renderMp4 (dir scenario : String) : Logs 0 (renderMp4 dir workflowId scenario) :=
  .bind (.calm rfl rfl) fun _ => .bind (.calm rfl rfl) fun _ => .ite (.calm rfl rfl) (.calm rfl rfl)

theorem silent_readArtifacts (dir : String) (names : List String) :
    (readArtifacts dir names).Within Silent := by
  induction names with
  | nil => trivial
  | cons name names ih =>
      refine within_bind (within_call ⟨rfl, rfl⟩) fun (file : Bool) => ?_
      exact within_ite (fun _ => within_bind (within_call ⟨rfl, rfl⟩) fun _ =>
        within_bind ih fun _ => trivial) fun _ => ih

theorem logs_manifestStep (dir scenario : String) :
    Logs 1 (manifestStep dir workflowId scenario) := by
  refine .bind (.calm rfl rfl) fun _ => .bind (.calm rfl rfl) fun (there : Bool) => .ite ?_ ?_
  · have builds : (buildManifest dir scenario).Within Silent :=
      within_bind (within_call ⟨rfl, rfl⟩) fun _ =>
      within_bind (silent_readArtifacts _ _) fun _ => within_bind (within_call ⟨rfl, rfl⟩) fun _ =>
        trivial
    exact (Logs.bind (.silent builds) fun _ => .bind (.calm rfl rfl) fun _ =>
      .ret _).mono (Nat.zero_le _)
  · exact .bind (.calm rfl rfl) fun _ => .bind (.added rfl rfl) fun _ => .raise _

theorem silent_approve (dir scenario trigger : String) (m : Manifest) :
    (approve s dir workflowId scenario trigger m).Within Silent := by
  apply within_bind (within_call ⟨rfl, rfl⟩)
  intro taskId
  have formats : (formatOutputsForApproval m dir).Within Silent := by
    apply within_bind (within_call ⟨rfl, rfl⟩)
    intro file
    split
    · exact within_bind (within_call ⟨rfl, rfl⟩) fun _ => trivial
    · trivial
  exact within_bind formats fun _ => within_bind (ApprovalGateway.silent_send _) fun _ =>
    within_bind (within_call ⟨rfl, rfl⟩) fun _ => trivial

theorem logs_runSteps (scenario trigger : String) (skipRender : Bool) :
    Logs 4 (runSteps s workflowId scenario trigger skipRender) := by
  let outDir := s.demoForgeDir ++ "/outputs/DEMO_" ++ scenario
  have rest : Logs 2 (do
      let manifest ← manifestStep outDir workflowId scenario
      let _ ← session (.addMemory "demo_forge_manifest" (memoryContent scenario manifest)
        manifest.json)
      let approvalId ← approve s outDir workflowId scenario trigger manifest
      session (.completeWorkflow workflowId "demo_request_completed"
        (.obj [("approval_id", .int (Int.ofNat approvalId))]))
      return Returned.demo workflowId approvalId scenario manifest.artifacts.length) :=
    .bind (logs_manifestStep _ _) fun _ => .bind (.calm rfl rfl) fun _ =>
        .bind (.silent (silent_approve _ _ _ _)) fun _ =>
      .bind (.added rfl rfl) fun _ => .ret _
  refine .bind (logs_checkTools _ _) fun _ => .bind (logs_capture _ _) fun _ => ?_
  dsimp only
  split
  · exact rest
  · exact .bind (logs_renderMp4 _ _) fun _ => rest

theorem logs_runDemoForgeRequest (payload : Json) : Logs 4 (runDemoForgeRequest s payload) := by
  refine .bind (.silent (by cases payloadFields payload <;> trivial)) fun fields => ?_
  refine .ite ?_ ((Logs.raise _).mono (Nat.zero_le _))
  refine .bind (.calm rfl rfl) fun (makefile : Bool) =>
    .ite ?_ ((Logs.raise _).mono (Nat.zero_le _))
  exact Logs.start (f := fun workflowId => runSteps s workflowId _ _ _) _ _ _ _ fun _ =>
    logs_runSteps _ _ _

end DemoForge

/-- The reaper's marker bears a time that it has read. -/
theorem Orchestrator.logs_reap (maxAgeSeconds : Int) :
    Logs 0 (reapOrphanWorkflows maxAgeSeconds) := by
  refine .bind (.calm rfl rfl) fun now =>
    ⟨fun h => ⟨by simp [stamped, Call.entries], fun reply _ _ => ?_⟩, ?_⟩
  · cases reply with
    | ok markedAt =>
        have read : Read (h ++ [⟨.now, .ok markedAt⟩]) markedAt :=
          List.mem_append_right _ (List.mem_singleton.mpr rfl)
        exact obeys_call ⟨Nat.le_refl 1, by simpa [Call.entries, interruptedMarker] using read⟩
          fun _ _ _ => trivial
    | error e => trivial
  · exact costs_bind (Logs.calm rfl rfl).costs fun markedAt => costs_call (Nat.le_refl 0)

theorem Orchestrator.logs_start (numWorkers : Nat) : Logs 0 (start s numWorkers) := by
  refine .bind (.calm rfl rfl) fun (database : Bool) => .ite ?_ (.raise _)
  refine .bind (.calm rfl rfl) fun _ => .bind (.calm rfl rfl) fun (answered : Bool) =>
    .ite ?_ (.raise _)
  exact .bind (Orchestrator.logs_reap _) fun _ => .bind (.calm rfl rfl) fun _ =>
    .bind (.calm rfl rfl) fun _ => .ret _

theorem silent_visitor {c : Call} (allowed : visitorAllowed c) : Silent c := by
  cases c with
  | session t =>
      cases t with
      | findApproval | updateDecision => exact ⟨rfl, rfl⟩
      | _ => exact allowed.elim
  | _ => exact ⟨rfl, rfl⟩

theorem silent_worker {c : Call} (allowed : workerAllowed c) : Silent c := by
  cases c with
  | session t => exact allowed.elim
  | _ => exact ⟨rfl, rfl⟩

theorem Entry.logs (entry : Entry) : Logs 8 (entry.program s) := by
  have visits {m : Async Returned} (within : m.Within visitorAllowed) : Logs 8 m :=
    (Logs.silent (within.mono fun _ => silent_visitor)).mono (Nat.zero_le _)
  cases entry with
  | commitPipeline payload => exact CommitPipeline.logs_runCommitPipeline payload
  | demoRequest payload => exact (DemoForge.logs_runDemoForgeRequest payload).mono (by decide)
  | start numWorkers => exact (Orchestrator.logs_start numWorkers).mono (Nat.zero_le _)
  | worker =>
      exact (Logs.silent ((within_workerPass _).mono fun _ => silent_worker)).mono (Nat.zero_le _)
  | enqueue job queue =>
      exact visits (within_bind (RedisQueue.within_enqueue fun _ => trivial) fun _ => trivial)
  | decide approvalId decision =>
      exact visits (within_bind (within_decide (fun _ => trivial) trivial
        (fun _ decides => decides) _ _) fun _ => trivial)
  | release repo sha => exact (Logs.bind (.calm rfl rfl) fun _ => .ret _).mono (Nat.zero_le _)

end

end WiseOrder
