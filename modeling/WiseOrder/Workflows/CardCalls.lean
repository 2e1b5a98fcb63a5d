import WiseOrder.Approvals.Cards
import WiseOrder.Workflows.CommitCalls
import WiseOrder.Workflows.DemoForge

/-! The pipelines under the protocol of cards: no card before the row of its approval, and
no workflow marked failed with a card out but for what was raised since. -/
namespace WiseOrder
open Coroutine Coroutine.Program ApprovalGateway History
variable {s : Settings} {h : History} {α β : Type}

/-- How a program ends that has come to ask: an exception finds it not asking yet, or hurt. -/
def careful : Post calls Unit α := ending (fun _ _ _ => True) fun e h _ =>
      e.isException = true → Failing h

def Careful (m : Async α) : Prop := ∀ h, ¬ Asked h → m.Obeys cardProtocol careful h ()

theorem Careful.plain {m : Async α} {f : α → Async β} (plain : m.Within Call.Plain)
    (next : ∀ a, Careful (f a)) : Careful (m >>= f) :=
  fun _ unasked => obeys_bind (obeys_plain plain unasked) (fun a h _ unasked => next a h unasked)
    fun _ _ _ unasked _ asked => absurd asked unasked

theorem Careful.of_plain {m : Async α} (plain : m.Within Call.Plain) : Careful m := by
  intro h unasked
  apply (obeys_plain plain unasked).mono
  rintro r h - unasked
  cases r with
  | ok a => trivial
  | error e => exact fun _ asked => absurd asked unasked

theorem blamed_careful {r : Except PyException α} (blames : blamed r h ()) : careful r h () := by
  cases r with
  | ok a => trivial
  | error e => exact fun caught _ => blames.2 e rfl caught

/-- What follows on asking. -/
theorem careful_send {req : ApprovalRequest} {f : Nat → Async β} (next : ∀ id, Blames (f id)) :
    Careful (send s req >>= f) := by
  intro h unasked
  apply obeys_bind (obeys_sendCard unasked)
  · intro id h _ asked
    exact (next id h asked).mono fun _ _ _ blames => blamed_careful blames
  · exact fun e h _ failing => failing

/-- A handler that only marks rows. -/
theorem Careful.catching {m : Async α} {handler : PyException → Async α} (body : Careful m)
    (handles : ∀ e, (handler e).Within Call.Plain) : Careful (tryExcept m handler) := by
  intro h unasked
  apply obeys_catching (body h unasked)
  · exact fun a h _ _ => trivial
  · intro e h _ caught failing
    apply (obeys_failing (handles e) (failing caught)).mono
    rintro r h - failing
    cases r with
    | ok a => trivial
    | error e => exact fun _ => failing
  · exact fun e h _ _ failing => failing

/-- Keeps the protocol of cards to its end. -/
def Keeps (m : Async α) : Prop := ∀ h, ¬ Asked h → m.Obeys cardProtocol (fun _ _ _ => True) h ()

theorem Keeps.plain {m : Async α} {f : α → Async β} (plain : m.Within Call.Plain)
    (next : ∀ a, Keeps (f a)) : Keeps (m >>= f) :=
  fun _ unasked => obeys_bind (obeys_plain plain unasked) (fun a h _ unasked =>
    next a h unasked) fun _ _ _ _ => trivial

theorem Keeps.of_plain {m : Async α} (plain : m.Within Call.Plain) : Keeps m :=
  fun _ unasked => (obeys_plain plain unasked).mono fun _ _ _ _ => trivial

/-- A workflow is completed after its approval was asked for. -/
theorem Keeps.completes {m : Async Nat} (first : Careful m) (id : Nat) (event : String)
    (data : Nat → Json) (f : Nat → β) :
    Keeps (do
      let approvalId ← m
      session (.completeWorkflow id event (data approvalId))
      return f approvalId) := by
  intro h unasked
  apply obeys_bind (first h unasked)
  · intro approvalId h _ _
    refine ⟨trivial, fun reply _ _ => ?_⟩
    cases reply <;> trivial
  · exact fun _ _ _ _ => trivial

namespace CommitPipeline
variable {repo sha : Json}

theorem StepCall.plain {c : Call} (step : StepCall c) : c.Plain := by
  cases c with
  | session t => cases t <;> trivial
  | appendFile | httpPost => exact step.elim
  | _ => trivial

theorem careful_approvalStep (workflowId : Nat) (subject : Json) (eng : EngineeringSummary)
    (soc : SocialDraft) : Careful (approvalStep s workflowId repo sha subject eng soc) := by
  refine .plain (within_call trivial) fun taskId => .catching ?_ fun e => ?_
  · refine .plain (by trivial) fun req => careful_send fun id => ?_
    exact .bind (.call trivial fun card => card) fun _ =>
      .bind (.bind (.call trivial fun card => card) fun _ => .pure _)
      fun _ => .bind (.call trivial fun card => card) fun _ => .pure _
  · exact within_bind (within_call trivial) fun _ => within_bind (within_call trivial) fun _ =>
      trivial

theorem keeps_runPipelineSteps (workflowId : Nat) (subject author diff : Json) :
    Keeps (runPipelineSteps s workflowId repo sha subject author diff) := by
  refine .plain ((steps_summarizeStep _ _ _ _ _ _).mono fun _ => StepCall.plain) fun eng => ?_
  refine .plain ((steps_draftStep _ _ _).mono fun _ => StepCall.plain) fun soc => ?_
  refine .plain ((steps_saveStep _ _ _ _ _ _).mono fun _ => StepCall.plain) fun _ => ?_
  exact .completes (careful_approvalStep workflowId subject eng soc) workflowId "workflow_completed"
    (fun _ => .obj [])
    fun id => Returned.commit workflowId id eng soc.post

theorem plain_acquire : (Dedup.acquire s repo sha).Within Call.Plain := by
  apply within_bind (within_call trivial)
  intro (won : Bool)
  cases won with
  | true => trivial
  | false => exact within_bind (within_call trivial) fun _ => trivial

theorem keeps_runCommitPipeline (payload : Json) : Keeps (runCommitPipeline s payload) := by
  refine .plain (by cases requireKeys payload ["repo", "sha"] <;> trivial) fun fields => ?_
  refine .plain plain_acquire fun claim => ?_
  split
  · refine .plain ((steps_log _ _).mono fun _ => StepCall.plain) fun entry => ?_
    exact .plain (within_call trivial) fun workflowId => .plain (within_call trivial) fun _ =>
      keeps_runPipelineSteps _ _ _ _
  · exact .of_plain trivial

end CommitPipeline

namespace DemoForge

theorem plain_checkTools (dir : String) (workflowId : Nat) (scenario : String) :
    (checkTools dir workflowId scenario).Within Call.Plain := by
  refine within_bind (within_call trivial) fun taskId =>
    within_bind (within_call trivial) fun (rc, out, err) => ?_
  exact within_ite (fun _ => within_bind (within_call trivial) fun _ =>
    within_bind (within_call trivial) fun _ => trivial)
    fun _ => within_call trivial

theorem plain_capture (dir : String) (workflowId : Nat) (scenario : String) :
    (capture dir workflowId scenario).Within Call.Plain := by
  refine within_bind (within_call trivial) fun taskId =>
    within_bind (within_call trivial) fun (rc, out, err) => ?_
  exact within_ite (fun _ => within_bind (within_call trivial) fun _ =>
    within_bind (within_call trivial) fun _ => trivial)
    fun _ => within_call trivial

theorem plain_renderMp4 (dir : String) (workflowId : Nat) (scenario : String) :
    (renderMp4 dir workflowId scenario).Within Call.Plain := by
  refine within_bind (within_call trivial) fun taskId =>
    within_bind (within_call trivial) fun (rc, out, err) => ?_
  exact within_ite (fun _ => within_call trivial) fun _ => within_call trivial

theorem plain_readArtifacts (outDir : String) (names : List String) :
    (readArtifacts outDir names).Within Call.Plain := by
  induction names with
  | nil => trivial
  | cons name names ih =>
      refine within_bind (within_call trivial) fun (file : Bool) => ?_
      exact within_ite (fun _ => within_bind (within_call trivial) fun _ => within_bind ih fun _ =>
        trivial) fun _ => ih

theorem plain_manifestStep (outDir : String) (workflowId : Nat) (scenario : String) :
    (manifestStep outDir workflowId scenario).Within Call.Plain := by
  refine within_bind (within_call trivial) fun taskId =>
    within_bind (within_call trivial) fun (dir : Bool) => ?_
  refine within_ite (fun _ => ?_) fun _ => ?_
  · refine within_bind ?_ fun manifest => within_bind (within_call trivial) fun _ => trivial
    exact within_bind (within_call trivial) fun names =>
        within_bind (plain_readArtifacts _ _) fun _ =>
      within_bind (within_call trivial) fun _ => trivial
  · exact within_bind (within_call trivial) fun _ => within_bind (within_call trivial) fun _ =>
      trivial

theorem plain_formatOutputs (m : Manifest) (outDir : String) :
    (formatOutputsForApproval m outDir).Within Call.Plain := by
  apply within_bind (within_call trivial)
  intro file
  split
  · exact within_bind (within_call trivial) fun _ => trivial
  · trivial

theorem careful_approve (outDir : String) (workflowId : Nat) (scenario trigger : String)
    (m : Manifest) : Careful (approve s outDir workflowId scenario trigger m) :=
  .plain (within_call trivial) fun _ => .plain (plain_formatOutputs _ _) fun _ =>
    careful_send fun _ => .bind (.call trivial fun card => card) fun _ => .pure _

theorem keeps_runSteps (workflowId : Nat) (scenario trigger : String) (skipRender : Bool) :
    Keeps (runSteps s workflowId scenario trigger skipRender) := by
  let outDir := s.demoForgeDir ++ "/outputs/DEMO_" ++ scenario
  have rest : Keeps (do
      let manifest ← manifestStep outDir workflowId scenario
      let _ ← session (.addMemory "demo_forge_manifest" (memoryContent scenario manifest)
        manifest.json)
      let approvalId ← approve s outDir workflowId scenario trigger manifest
      session (.completeWorkflow workflowId "demo_request_completed"
        (.obj [("approval_id", .int (Int.ofNat approvalId))]))
      return Returned.demo workflowId approvalId scenario manifest.artifacts.length) := by
    refine .plain (plain_manifestStep _ _ _) fun manifest =>
      .plain (within_call trivial) fun _ => ?_
    exact .completes (careful_approve _ _ _ _ _) workflowId "demo_request_completed"
      (fun id => .obj [("approval_id", .int (Int.ofNat id))]) fun id =>
        Returned.demo workflowId id scenario manifest.artifacts.length
  refine .plain (plain_checkTools _ _ _) fun _ => .plain (plain_capture _ _ _) fun _ => ?_
  dsimp only
  split
  · exact rest
  · exact .plain (plain_renderMp4 _ _ _) fun _ => rest

theorem keeps_runDemoForgeRequest (payload : Json) : Keeps (runDemoForgeRequest s payload) := by
  refine .plain (by cases payloadFields payload <;> trivial) fun fields => ?_
  dsimp only
  split
  · refine .plain (within_call trivial) fun (makefile : Bool) => ?_
    split
    · refine .plain (within_bind (within_call trivial) fun _ => trivial) fun entry => ?_
      exact .plain (within_call trivial) fun workflowId => keeps_runSteps _ _ _ _
    · exact .of_plain trivial
  · exact .of_plain trivial

end DemoForge

end WiseOrder
