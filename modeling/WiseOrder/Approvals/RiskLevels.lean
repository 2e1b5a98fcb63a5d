import WiseOrder.Agents.Summarizer
import WiseOrder.Workflows.CardStatus

/-! The risk level of an approval. It comes from the summary of a commit or is a demo's own, so it
is one of three at any time, whatever the model answers and however the calls interleave. -/
namespace WiseOrder
open Coroutine Coroutine.Program Relational ApprovalGateway Summarizer
variable {s : Settings} {i : CallId} {c c' : Pool} {e : RunEvent} {trace : List RunEvent}
    {db db' : Db} {now : Time} {h : History}

/-- A summary comes from an answer of the model. -/
def Answering (_ : Pool) (e : RunEvent) (_ : Pool) : Prop :=
  ∀ i subject author sha diff eng before, e =
    .call i ⟨.summarize subject author sha diff, .ok eng⟩ before →
    ∃ wording limits content, summaryOf wording limits content = .ok eng

theorem summaryOf_level {wording : Json.Scanner.Failure → String} {limits : Json.Scanner.Limits}
    {content : String} {eng : EngineeringSummary}
    (made : summaryOf wording limits content = .ok eng) : eng.riskLevel ∈ riskLevels := by
  unfold summaryOf summaryOfData at made
  obtain ⟨data, -, made⟩ := Transaction.bind_ok made
  obtain ⟨summary, -, made⟩ := Transaction.bind_ok made
  obtain ⟨files, -, made⟩ := Transaction.bind_ok made
  obtain ⟨changedFiles, -, made⟩ := Transaction.bind_ok made
  obtain ⟨changelog, -, made⟩ := Transaction.bind_ok made
  obtain ⟨riskLevel, -, made⟩ := Transaction.bind_ok made
  cases made
  exact summarized_level _ _ _ _

/-! ### Programs -/

def Call.Rated : Call → Prop
  | .session (.addApproval req) => req.riskLevel ∈ riskLevels
  | _ => True

/-- What may be replied to a call, when summaries come from answers. -/
def rates (c : Call) (reply : Except PyException c.Reply) : Prop :=
  match c, reply with
  | .summarize .., .ok eng => EngineeringSummary.riskLevel eng ∈ riskLevels
  | _, _ => True

def rateProtocol : Protocol calls Unit := ⟨fun _ c _ => c.Rated, fun c _ reply _ => rates c reply⟩

theorem Call.Plain.rated {c : Call} (plain : c.Plain) : c.Rated := by
  cases c with
  | session t => cases t <;> first | exact plain.elim | trivial
  | _ => trivial

/-- Asks only with a level that there is, and returns what `Q` holds of. -/
def Rates (m : Async α) (Q : α → Prop) : Prop :=
  ∀ h, m.Obeys rateProtocol (ending (fun a _ _ => Q a) fun _ _ _ => True) h ()

section
variable {Q : α → Prop} {R : β → Prop} {m : Async α} {f : α → Async β}

theorem Rates.bind (first : Rates m Q) (next : ∀ a, Q a → Rates (f a) R) : Rates (m >>= f) R :=
  fun h => obeys_bind (first h) (fun a h _ holds => next a holds h) fun _ _ _ _ => trivial

theorem Rates.within (within : m.Within Call.Rated) : Rates m fun _ => True := by
  intro h
  refine (within.obeys (fun _ _ _ rated => rated) h ()).mono fun r h _ _ => ?_
  cases r <;> trivial

theorem Rates.plain (plain : m.Within Call.Plain) (next : ∀ a, Rates (f a) R) : Rates (m >>= f) R :=
  .bind (.within (plain.mono fun _ => Call.Plain.rated)) fun a _ => next a

theorem Rates.of_plain (plain : m.Within Call.Plain) : Rates m fun _ => True :=
  .within (plain.mono fun _ => Call.Plain.rated)

theorem Rates.catching {handler : PyException → Async α} (body : Rates m Q)
    (handles : ∀ e, Rates (handler e) Q) : Rates (tryExcept m handler) Q :=
  fun h => obeys_catching (body h) (fun _ _ _ holds => holds)
    (fun e h _ _ _ => handles e h) fun _ _ _ _ _ => trivial

end

theorem within_rated {req : ApprovalRequest} (level : req.riskLevel ∈ riskLevels) :
    (send s req).Within Call.Rated := by
  refine within_send (fun c delivery => ?_) level fun _ _ => trivial
  cases c with
  | session => exact delivery.elim
  | _ => trivial

namespace CommitPipeline

theorem rates_summarizeStep (workflowId : Nat) (repo sha subject author diff : Json) :
    Rates (summarizeStep workflowId repo sha subject author diff) fun eng =>
      eng.riskLevel ∈ riskLevels := by
  refine .plain (within_call trivial) fun taskId => .catching ?_ fun e => ?_
  · have answered : Rates (await (.summarize subject author sha diff)) fun eng =>
      EngineeringSummary.riskLevel eng ∈ riskLevels := by
      refine fun h => ⟨trivial, fun reply _ rated => ?_⟩
      cases reply with
      | error e => trivial
      | ok eng => exact rated
    refine .bind answered fun eng level => .plain (within_call trivial) fun _ =>
      .plain (within_bind (within_call trivial) fun _ => trivial) fun _ => ?_
    exact .plain (within_call trivial) fun _ _ => level
  · exact .plain (within_call trivial) fun _ => .plain (within_call trivial) fun _ _ => trivial

theorem rates_approvalStep (workflowId : Nat) (repo sha subject : Json) {eng : EngineeringSummary}
    (soc : SocialDraft) (level : eng.riskLevel ∈ riskLevels) :
    Rates (approvalStep s workflowId repo sha subject eng soc) fun _ => True := by
  refine .plain (within_call trivial) fun taskId => .catching ?_ fun e => ?_
  · cases requested : approvalRequest workflowId taskId repo sha subject eng soc with
    | error e => exact fun _ => trivial
    | ok req =>
        have same : req.riskLevel = eng.riskLevel := by
          obtain ⟨shortSha, -, made⟩ := Transaction.bind_ok requested
          obtain ⟨name, -, made⟩ := Transaction.bind_ok made
          cases made
          rfl
        have asks : Rates (send s req >>= fun approvalId => do
            completeTask taskId (.obj [("approval_id", .int approvalId)])
            let entry ← logEntry "approval_sent" (.obj [("id", .int approvalId)])
            appendLog workflowId entry
            return approvalId) fun _ => True := by
          refine .bind (.within (within_rated (same ▸ level))) fun id _ => .of_plain ?_
          exact within_bind (within_call trivial) fun _ =>
            within_bind (within_bind (within_call trivial) fun _ => trivial)
            fun _ => within_bind (within_call trivial) fun _ => trivial
        exact asks
  · exact .of_plain (within_bind (within_call trivial) fun _ =>
      within_bind (within_call trivial) fun _ => trivial)

theorem rates_runCommitPipeline (payload : Json) : Rates (runCommitPipeline s payload) fun _ =>
      True := by
  have steps (workflowId : Nat) (repo sha subject author diff : Json) :
      Rates (runPipelineSteps s workflowId repo sha subject author diff) fun _ => True := by
    refine .bind (rates_summarizeStep _ _ _ _ _ _) fun eng level => ?_
    refine .plain ((steps_draftStep _ _ _).mono fun _ => StepCall.plain) fun soc => ?_
    refine .plain ((steps_saveStep _ _ _ _ _ _).mono fun _ => StepCall.plain) fun _ => ?_
    exact .bind (rates_approvalStep _ _ _ _ _ level) fun _ _ =>
      .of_plain (within_bind (within_call trivial) fun _ => trivial)
  refine .plain (by cases requireKeys payload ["repo", "sha"] <;> trivial) fun fields => ?_
  refine .plain plain_acquire fun claim => ?_
  split
  · refine .plain ((steps_log _ _).mono fun _ => StepCall.plain) fun entry => ?_
    exact .plain (within_call trivial) fun workflowId => .plain (within_call trivial) fun _ =>
      steps _ _ _ _ _ _
  · exact .of_plain trivial

end CommitPipeline

namespace DemoForge

theorem rates_approve (outDir : String) (workflowId : Nat) (scenario trigger : String)
    (m : Manifest) : Rates (approve s outDir workflowId scenario trigger m) fun _ => True := by
  refine .plain (within_call trivial) fun taskId => .plain (plain_formatOutputs _ _) fun outputs =>
    ?_
  exact .bind (.within (within_rated (show "low" ∈ riskLevels by decide))) fun _ _ =>
    .of_plain (within_bind (within_call trivial) fun _ => trivial)

theorem rates_runDemoForgeRequest (payload : Json) : Rates (runDemoForgeRequest s payload) fun _ =>
      True := by
  have rest (outDir : String) (workflowId : Nat) (scenario trigger : String) : Rates (do
      let manifest ← manifestStep outDir workflowId scenario
      let _ ← session (.addMemory "demo_forge_manifest" (memoryContent scenario manifest)
        manifest.json)
      let approvalId ← approve s outDir workflowId scenario trigger manifest
      session (.completeWorkflow workflowId "demo_request_completed"
        (.obj [("approval_id", .int (Int.ofNat approvalId))]))
      return Returned.demo workflowId approvalId scenario manifest.artifacts.length) fun _ =>
          True := by
    refine .plain (plain_manifestStep _ _ _) fun manifest =>
      .plain (within_call trivial) fun _ => ?_
    exact .bind (rates_approve _ _ _ _ _) fun _ _ =>
      .of_plain (within_bind (within_call trivial) fun _ => trivial)
  have steps (workflowId : Nat) (scenario trigger : String) (skipRender : Bool) :
      Rates (runSteps s workflowId scenario trigger skipRender) fun _ => True := by
    refine .plain (plain_checkTools _ _ _) fun _ => .plain (plain_capture _ _ _) fun _ => ?_
    dsimp only
    split
    · exact rest _ _ _ _
    · exact .plain (plain_renderMp4 _ _ _) fun _ => rest _ _ _ _
  refine .plain (by cases payloadFields payload <;> trivial) fun fields => ?_
  dsimp only
  split
  · refine .plain (within_call trivial) fun (makefile : Bool) => ?_
    split
    · refine .plain (within_bind (within_call trivial) fun _ => trivial) fun entry => ?_
      exact .plain (within_call trivial) fun workflowId => steps _ _ _ _
    · exact .of_plain trivial
  · exact .of_plain trivial

end DemoForge

/-! ### Runs -/

def ratesOf (i : CallId) : Protocol calls Unit :=
  ⟨fun _ c _ => i.role = .pipeline → c.Rated, fun c _ reply _ => rates c reply⟩

theorem Entry.obeys_rates (entry : Entry) (role : entry.role = i.role) :
    (entry.program s).Obeys (ratesOf i) (fun _ _ _ => True) [] () := by
  have rated {p : Async Returned} (rates : Rates p fun _ => True) : p.Obeys (ratesOf i)
      (fun _ _ _ => True) [] () :=
    ((rates []).mono fun _ _ _ _ => trivial).relax
      (fun _ _ _ allowed _ => allowed) fun _ _ _ _ moved => moved
  by_cases pipeline : i.role = .pipeline
  · rw [pipeline] at role
    cases entry with
    | commitPipeline payload => exact rated (CommitPipeline.rates_runCommitPipeline payload)
    | demoRequest payload => exact rated (DemoForge.rates_runDemoForgeRequest payload)
    | start | worker | enqueue | decide | release => contradiction
  · exact obeys_free (F := fun _ => True) (fun _ _ _ => trivial) (fun _ _ _ _ role =>
      absurd role pipeline) trivial

/-- The program where summaries come from answers. -/
def answering (s : Settings) : Machine CallId World calls Returned :=
  { runtime s with
    perform := fun i call w reply w' => perform i call w reply w' ∧ rates call reply }

theorem step_answering (step : Step s c e c') (answered : Answering c e c') :
    (answering s).Step c e c' := by
  cases step with
  | spawn unused entry => exact .spawn unused entry
  | @call i seen call onReply reply world awaiting performed =>
      refine .call awaiting ⟨performed, ?_⟩
      cases call with
      | summarize subject author sha diff =>
          cases reply with
          | error e => trivial
          | ok eng =>
              obtain ⟨wording, limits, content, made⟩ :=
                answered i subject author sha diff eng _ rfl
              exact summaryOf_level made
      | _ => cases reply <;> trivial
  | again returned next => exact .again returned next
  | drift moved => exact .drift moved
  | crash fell killed spared => exact .crash fell killed spared

theorem tracks_answering : Tracks (answering s) ratesOf fun _ _ => () := by
  refine ⟨fun _ performed => ?_⟩
  exact performed.2

structure Rated (s : Settings) (c : Pool) : Prop where
  shadowed : ∃ g, Shadowed s c g
  obeys : c.Obeys ratesOf (fun _ _ _ _ => True) fun _ _ => ()
  levels : ∀ a ∈ c.world.db.approvals.entries, a.row.riskLevel ∈ riskLevels

theorem step_rated (rated : Rated s c) (step : Step s c e c') (answered : Answering c e c') :
    Rated s c' := by
  obtain ⟨⟨g, shadowed⟩, obeys, levels⟩ := rated
  refine ⟨step_shadowed shadowed step, ?_, ?_⟩
  · refine (step_answering step answered).obeys tracks_answering ?_ ?_
      (fun _ _ _ _ _ holds => holds) obeys
    · rintro i p rfl
      cases step with
      | spawn unused entry =>
          obtain ⟨-, entry, role, rfl⟩ := entry
          exact entry.obeys_rates role
    · rintro i p seen a rfl - -
      cases step with
      | again returned next =>
          obtain ⟨worker, -, -⟩ := next
          exact obeys_free (F := fun _ => True) (fun _ _ _ => trivial) (fun _ _ _ _ role =>
            absurd role (by simp [worker])) trivial
  · intro a member
    rcases step_shadow shadowed step with ⟨same, -⟩ | ⟨i, t, x, reply, rfl, permitted, ran⟩
    · rw [same] at member
      exact levels a member
    · rcases approvals_run ran member with ⟨b, old, -, -, same⟩ | ⟨req, rfl, -, -, same⟩
      · exact same ▸ levels b old
      · cases permitted with
        | decision decides => exact decides.elim
        | pipeline role lawful =>
            have rated : Call.Rated (.session (.addApproval req)) := step.allowed obeys role
            exact same ▸ rated

theorem run_rated (fresh : Fresh c) (none : c.world.db.approvals = .empty)
    (run : Transition.Run (Transition.Guarded (Step s) Answering) c trace c') : Rated s c' := by
  refine run.invariant (fun rated taken => step_rated rated taken.1 taken.2)
    ⟨⟨_, fresh.shadowed fun _ => OwnRows.none⟩, ?_, ?_⟩
  · intro i seen rest active
    rw [fresh i] at active
    contradiction
  · intro a member
    rw [none] at member
    exact absurd member List.not_mem_nil

end WiseOrder
