import WiseOrder.Approvals.Delivery

/-! Which calls a commit pipeline makes: of the commands to Redis only those on the
slot of its own commit, and of the new workflow rows only one for its own commit. -/
namespace WiseOrder.CommitPipeline
open Coroutine Coroutine.Program

/-- The repository and the sha that a payload names. -/
def commitOf (payload : Json) : Option (Json × Json) :=
  match requireKeys payload ["repo", "sha"] with
  | .ok fields =>
      some ((Json.lookup "repo" fields).getD .null, (Json.lookup "sha" fields).getD .null)
  | .error _ => none

def CallOf (repo sha : Json) : Call → Prop
  | .redis (.setNx k _ _) | .redis (.setEx k _ _) | .redis (.get k) => k = Dedup.key repo sha
  | .redis _ => False
  | .session (.addWorkflow _ _ logs) =>
      ∃ ts, logs = [⟨ts, "workflow_started", .obj [("repo", repo), ("sha", sha)]⟩]
  | .session (.reap ..) => False
  | _ => True

variable {s : Settings} {repo sha : Json} {α : Type}

/-- The calls of the first three steps. -/
def StepCall : Call → Prop
  | .now | .summarize .. | .draft .. | .upsert .. => True
  | .session (.createTask ..) | .session (.completeTask ..) | .session (.failTask ..) | .session
      (.appendLog ..)
  | .session (.failWorkflow ..) | .session (.addMemory ..) | .session (.setEmbedding ..) => True
  | _ => False

theorem StepCall.of {c : Call} (step : StepCall c) : CallOf repo sha c := by
  cases c with
  | session t => cases t <;> trivial
  | redis command => exact step.elim
  | _ => trivial

theorem steps_orFail (taskId workflowId : Nat) (label : String) {body : Async α}
    (runs : body.Within StepCall) : (orFail taskId workflowId label body).Within StepCall :=
  within_catching runs fun _ => within_bind (within_call trivial) fun _ =>
    within_bind (within_call trivial) fun _ => trivial

theorem steps_log (event : String) (data : Json) : (logEntry event data).Within StepCall :=
  within_bind (within_call trivial) fun _ => trivial

theorem steps_summarizeStep (workflowId : Nat) (repo sha subject author diff : Json) :
    (summarizeStep workflowId repo sha subject author diff).Within StepCall := by
  apply within_bind (within_call trivial)
  intro taskId
  apply steps_orFail
  apply within_bind (within_call trivial)
  intro eng
  exact within_bind (within_call trivial) fun _ => within_bind (steps_log _ _) fun _ =>
    within_bind (within_call trivial) fun _ => trivial

theorem steps_draftStep (workflowId : Nat) (sha : Json) (eng : EngineeringSummary) :
    (draftStep workflowId sha eng).Within StepCall := by
  apply within_bind (within_call trivial)
  intro taskId
  apply steps_orFail
  apply within_bind (within_call trivial)
  intro soc
  exact within_bind (within_call trivial) fun _ => within_bind (steps_log _ _) fun _ =>
    within_bind (within_call trivial) fun _ => trivial

theorem steps_saveStep (workflowId : Nat) (repo sha subject author : Json)
    (eng : EngineeringSummary) :
    (saveStep workflowId repo sha subject author eng).Within StepCall := by
  apply within_bind (within_call trivial)
  intro taskId
  apply steps_orFail
  apply within_bind (by trivial)
  intro shortSha
  apply within_bind (within_call trivial)
  intro memoryId
  apply within_bind
  · exact within_catching (within_bind (within_call trivial) fun _ => within_call trivial) fun _ =>
      trivial
  · exact fun _ => within_call trivial

theorem within_log (event : String) (data : Json) :
    (logEntry event data).Within (CallOf repo sha) :=
  (steps_log event data).mono fun _ => StepCall.of

theorem within_orFail (taskId workflowId : Nat) (label : String) {body : Async α}
    (runs : body.Within (CallOf repo sha)) :
    (orFail taskId workflowId label body).Within (CallOf repo sha) :=
  within_catching runs fun _ => within_bind (within_call trivial) fun _ =>
    within_bind (within_call trivial) fun _ => trivial

theorem within_summarizeStep (workflowId : Nat) (repo' sha' subject author diff : Json) :
    (summarizeStep workflowId repo' sha' subject author diff).Within (CallOf repo sha) :=
  (steps_summarizeStep _ _ _ _ _ _).mono fun _ => StepCall.of

theorem within_draftStep (workflowId : Nat) (sha' : Json) (eng : EngineeringSummary) :
    (draftStep workflowId sha' eng).Within (CallOf repo sha) :=
  (steps_draftStep _ _ _).mono fun _ => StepCall.of

theorem within_saveStep (workflowId : Nat) (repo' sha' subject author : Json)
    (eng : EngineeringSummary) :
    (saveStep workflowId repo' sha' subject author eng).Within (CallOf repo sha) :=
  (steps_saveStep _ _ _ _ _ _).mono fun _ => StepCall.of

theorem within_send (req : ApprovalRequest) :
    (ApprovalGateway.send s req).Within (CallOf repo sha) := by
  apply ApprovalGateway.within_send
  · intro c delivery
    cases c with
    | redis | session => exact delivery.elim
    | _ => trivial
  · trivial
  · exact fun _ _ => trivial

theorem within_approvalStep (workflowId : Nat) (repo' sha' subject : Json)
    (eng : EngineeringSummary) (soc : SocialDraft) :
    (approvalStep s workflowId repo' sha' subject eng soc).Within (CallOf repo sha) := by
  apply within_bind (within_call trivial)
  intro taskId
  apply within_orFail
  apply within_bind (by trivial)
  intro req
  apply within_bind (within_send _)
  intro approvalId
  exact within_bind (within_call trivial) fun _ => within_bind (within_log _ _) fun _ =>
    within_bind (within_call trivial) fun _ => trivial

theorem within_runPipelineSteps (workflowId : Nat) (repo' sha' subject author diff : Json) :
    (runPipelineSteps s workflowId repo' sha' subject author diff).Within (CallOf repo sha) := by
  apply within_bind (within_summarizeStep _ _ _ _ _ _)
  intro eng
  apply within_bind (within_draftStep _ _ _)
  intro soc
  apply within_bind (within_saveStep _ _ _ _ _ _)
  intro _
  apply within_bind (within_approvalStep _ _ _ _ _ _)
  intro approvalId
  exact within_bind (within_call trivial) fun _ => trivial

theorem within_acquire : (Dedup.acquire s repo sha).Within (CallOf repo sha) := by
  have claims : CallOf repo sha
    (.redis (.setNx (Dedup.key repo sha) Dedup.pending s.dedupTtlSeconds)) := rfl
  have reads : CallOf repo sha (.redis (.get (Dedup.key repo sha))) := rfl
  apply within_bind (within_call claims)
  intro (won : Bool)
  cases won with
  | true => trivial
  | false => exact within_bind (within_call reads) fun _ => trivial

theorem within_runClaimed (subject author diff : Json) :
    (runClaimed s repo sha subject author diff).Within (CallOf repo sha) := by
  refine ⟨trivial, fun reply => ?_⟩
  cases reply with
  | error e => trivial
  | ok ts =>
      apply within_bind (within_call ⟨ts, rfl⟩)
      intro workflowId
      have attaches : CallOf repo sha
        (.redis (.setEx (Dedup.key repo sha) (toString (α := Nat) workflowId)
        s.dedupTtlSeconds)) := rfl
      exact within_bind (within_call attaches) fun _ => within_runPipelineSteps _ _ _ _ _ _

theorem within_runCommitPipeline {payload : Json} (names : commitOf payload = some (repo, sha)) :
    (runCommitPipeline s payload).Within (CallOf repo sha) := by
  unfold commitOf at names
  cases required : requireKeys payload ["repo", "sha"] with
  | error e => simp [required] at names
  | ok fields =>
      rw [required] at names
      cases names
      unfold runCommitPipeline
      rw [required]
      apply within_bind within_acquire
      intro claim
      exact within_ite (fun _ => within_runClaimed _ _ _) fun _ => by trivial

/-- A payload that names no commit is refused before any call. -/
theorem within_unnamed {payload : Json} (unnamed : commitOf payload = none) :
    (runCommitPipeline s payload).Within fun _ => False := by
  unfold commitOf at unnamed
  cases required : requireKeys payload ["repo", "sha"] with
  | error e =>
      unfold runCommitPipeline
      rw [required]
      trivial
  | ok fields => simp [required] at unnamed

end WiseOrder.CommitPipeline
