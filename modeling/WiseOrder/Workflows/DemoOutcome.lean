import WiseOrder.Approvals.Delivery
import WiseOrder.Runtime.Faults

/-! A demo request under the protocol: it has at most one task running, its
workflow is finished only when none is, and in between it only looks outside. What
a look outside raises is caught nowhere, so that it ends the request as it stands. -/
namespace WiseOrder.DemoForge
open Coroutine Coroutine.Program Relational
variable {s : Settings} {id taskId : Nat} {h : History} {v : OwnRows} {e : PyException} {c : Call}
    {α β : Type}

/-- The workflow runs and no task does. -/
structure Calm (id : Nat) (v : OwnRows) : Prop where
  running : v.Running id
  quiet : v.Quiet
  approvals : v.approvals = []

/-- The last task, with all others stopped. -/
def Last (taskId : Nat) (status : Status) (v : OwnRows) : Prop :=
  ∃ (rows : Rows Task) (t : Task), v.tasks = rows.add taskId t ∧ ¬ rows.Holds taskId ∧
    t.status = status ∧
    ∀ t ∈ rows, t.2.status ≠ .running

/-- The workflow runs and so does its last task. -/
structure Busy (id taskId : Nat) (v : OwnRows) : Prop where
  running : v.Running id
  task : Last taskId .running v
  approvals : v.approvals = []

/-! ### What is raised -/

/-- The transactions of the request itself. Those of `send` are a part of `send`. -/
def Own : Call → Prop
  | .session (.addApproval _) | .session (.setDelivered ..) => False
  | .session _ => True
  | _ => False

/-- The exception of a delivery that is only attempted. -/
def Caught (x : Interaction calls) : Prop := ∃ e, x.raised = some e ∧ e.isException = true ∧
    ApprovalGateway.Attempt x.call

/-- Whatever was raised was caught. -/
def Clean (h : History) : Prop := ∀ x ∈ h, x.raised = none ∨ Caught x

/-- No transaction of the request itself was rolled back. -/
def Committed (h : History) : Prop := ∀ x ∈ h, Own x.call → x.raised = none

theorem clean_nil : Clean [] := fun _ member => absurd member List.not_mem_nil

theorem Clean.ok {x : calls.Reply c} (clean : Clean h) : Clean (h ++ [⟨c, .ok x⟩]) := by
  intro y member
  rcases List.mem_append.mp member with old | new
  · exact clean y old
  · rw [List.mem_singleton.mp new]
    exact .inl rfl

theorem Clean.caught (clean : Clean h) (attempt : ApprovalGateway.Attempt c)
    (caught : e.isException = true) : Clean (h ++ [⟨c, .error e⟩]) := by
  intro y member
  rcases List.mem_append.mp member with old | new
  · exact clean y old
  · rw [List.mem_singleton.mp new]
    exact .inr ⟨e, rfl, caught, attempt⟩

theorem unclean (passes : ApprovalGateway.Attempt c → e.isException = false) :
    ¬ Clean (h ++ [⟨c, .error e⟩]) := by
  intro clean
  rcases clean ⟨c, .error e⟩ (List.mem_append_right _ (List.mem_singleton.mpr rfl)) with
    none | ⟨e', raised, caught, attempt⟩
  · contradiction
  · cases raised
    rw [passes attempt] at caught
    contradiction

theorem Clean.left (clean : Clean (h ++ more)) : Clean h :=
  fun x member => clean x (List.mem_append_left _ member)

/-- The workflow is finished in a status, and no task runs. -/
def Finished (id : Nat) (status : Status) (v : OwnRows) : Prop :=
  (∃ w, v.workflows = [(id, w)] ∧ w.status = status) ∧ v.Quiet

/-- How a request that raises stands: it gave up and marked the step and the workflow failed, or
nothing was marked since what was raised met no handler, or a transaction of its own did not
commit. -/
def Stopped (id : Nat) (h : History) (v : OwnRows) : Prop :=
  Clean h ∧ Finished id .failed v ∧ (∃ taskId, Last taskId .failed v) ∨ ¬ Clean h ∧
    v.Running id ∨ ¬ Committed h

def goingOn (id : Nat) (good : α → OwnRows → Prop) : Post calls OwnRows α :=
  ending (fun a h v => Clean h ∧ good a v) fun _ h v => Stopped id h v

theorem uncommitted (own : Own c) : ¬ Committed (h ++ [⟨c, .error e⟩]) := by
  intro committed
  have none := committed ⟨c, .error e⟩ (List.mem_append_right _ (List.mem_singleton.mpr rfl)) own
  contradiction

theorem obeys_then {m : Async α} {f : α → Async β} (middle : α → OwnRows → Prop)
    {good : β → OwnRows → Prop} (first : m.Obeys (pipelineProtocol s) (goingOn id middle) h v)
    (next : ∀ a h v, Clean h → middle a v →
      (f a).Obeys (pipelineProtocol s) (goingOn id good) h v) :
    (m >>= f).Obeys (pipelineProtocol s) (goingOn id good) h v :=
  obeys_bind first (fun a h v holds => next a h v holds.1 holds.2) fun _ _ _ stopped => stopped

/-- A transaction of the request itself. -/
theorem obeys_own {t : Transaction} {good : t.Reply → OwnRows → Prop}
    (clean : Clean h) (own : Own (.session t)) (lawful : t.Lawful h v)
    (commits : ∀ x now, t.New v x → good x (t.commit now v x)) :
    (session t).Obeys (pipelineProtocol s) (goingOn id good) h v := by
  apply obeys_session lawful
  · exact fun x now new => ⟨clean.ok, commits x now new⟩
  · exact fun e v' unanswered => .inr (.inr (uncommitted own))

/-- A part that changes none of the rows and catches nothing. -/
def Passive (s : Settings) (m : Async α) : Prop :=
  ∀ h v, Clean h → m.Obeys (pipelineProtocol s)
    (ending (fun _ h' v' => Clean h' ∧ v' = v) fun _ h' v' => ¬ Clean h' ∧ v' = v) h v

theorem Passive.pure (a : α) : Passive s (Pure.pure a : Async α) := fun _ _ clean => ⟨clean, rfl⟩

theorem Passive.bind {m : Async α} {f : α → Async β} (first : Passive s m)
    (next : ∀ a, Passive s (f a)) : Passive s (m >>= f) := by
  intro h v clean
  apply obeys_bind (first h v clean)
  · rintro a h' v' ⟨clean, rfl⟩
    exact next a h' v' clean
  · exact fun _ _ _ raised => raised

theorem Passive.await (outside : c.Outside) (allowed : ∀ h v, pipelineAllowed s h c v)
    (passes : ¬ ApprovalGateway.Attempt c) : Passive s (WiseOrder.await c) := by
  intro h v clean
  refine obeys_await outside (allowed h v) fun reply => ?_
  cases reply with
  | ok x => exact ⟨clean.ok, rfl⟩
  | error e => exact ⟨unclean fun attempt => absurd attempt passes, rfl⟩

theorem Passive.utcnow : Passive s WiseOrder.utcnow :=
  fun _ _ clean => obeys_utcnow trivial fun _ => ⟨clean.ok, rfl⟩

theorem Passive.use {m : Async α} {f : α → Async β} {good : β → OwnRows → Prop}
    (passive : Passive s m) (clean : Clean h) (running : v.Running id)
    (next : ∀ a h, Clean h → (f a).Obeys (pipelineProtocol s) (goingOn id good) h v) :
    (m >>= f).Obeys (pipelineProtocol s) (goingOn id good) h v := by
  apply obeys_bind (passive h v clean)
  · rintro a h' v' ⟨clean, rfl⟩
    exact next a h' clean
  · rintro e h' v' ⟨unclean, rfl⟩
    exact .inr (.inl ⟨unclean, running⟩)

theorem passive_readArtifacts (outDir : String) (names : List String) :
    Passive s (readArtifacts outDir names) := by
  induction names with
  | nil => exact .pure _
  | cons name names ih =>
      apply Passive.bind (.await (by trivial) (fun _ _ => by trivial)
        (by exact fun attempt => attempt))
      intro file
      split
      · apply Passive.bind (.await (by trivial) (fun _ _ => by trivial)
          (by exact fun attempt => attempt))
        exact fun body => .bind ih fun rest => .pure _
      · exact ih

theorem passive_buildManifest (outDir scenario : String) :
    Passive s (buildManifest outDir scenario) :=
  .bind (.await (by trivial) (fun _ _ => by trivial) (by exact fun attempt => attempt)) fun _ =>
    .bind (passive_readArtifacts _ _) fun _ => .bind .utcnow fun _ => .pure _

theorem passive_formatOutputs (m : Manifest) (outDir : String) :
    Passive s (formatOutputsForApproval m outDir) := by
  apply Passive.bind (.await (by trivial) (fun _ _ => by trivial) (by exact fun attempt => attempt))
  intro file
  split
  · exact .bind (.await (by trivial) (fun _ _ => by trivial) (by exact fun attempt => attempt))
      fun _ => .pure _
  · exact .bind (.pure _) fun _ => .pure _

theorem passive_run (cmd : List String) (cwd : String) (timeout : Nat) :
    Passive s (run cmd cwd timeout) :=
  .await (by trivial) (fun _ _ => by trivial) (by exact fun attempt => attempt)

/-! ### Tasks -/

theorem Last.holds (last : Last taskId status v) : v.tasks.Holds taskId := by
  obtain ⟨rows, t, same, -⟩ := last
  exact ⟨t, by rw [same]; exact List.mem_append_right _ (List.mem_singleton.mpr rfl)⟩

theorem Last.quiet (last : Last taskId status v) (stopped : status ≠ .running) : v.Quiet := by
  obtain ⟨rows, t, same, -, rfl, others⟩ := last
  intro task member
  rw [same] at member
  rcases List.mem_append.mp member with old | new
  · exact others task old
  · rw [List.mem_singleton.mp new]
    exact stopped

/-- The last task changes its status. -/
theorem Last.change {f : Task → Task} {v' : OwnRows} (last : Last taskId status v)
    (status' : Status) (moved : ∀ t, (f t).status = status')
    (tasks : v'.tasks = v.tasks.change taskId f) : Last taskId status' v' := by
  obtain ⟨rows, t, same, new, -, others⟩ := last
  exact ⟨rows, f t, by rw [tasks, same, Rows.change_last new], new, moved t, others⟩

theorem obeys_createTask (clean : Clean h) (calm : Calm id v) (type : String) (payload : Json) :
    (createTask type id payload).Obeys (pipelineProtocol s)
    (goingOn id fun taskId v => Busy id taskId v) h v := by
  apply obeys_own clean (by trivial)
  · exact calm.running
  · exact fun taskId now new => ⟨calm.running, ⟨v.tasks, _, rfl, new, rfl, calm.quiet⟩,
      calm.approvals⟩

theorem obeys_completeTask (clean : Clean h) (busy : Busy id taskId v) (result : Json) :
    (completeTask taskId result).Obeys (pipelineProtocol s)
    (goingOn id fun _ v => Calm id v) h v := by
  apply obeys_own clean (by trivial)
  · exact busy.task.holds
  · intro x now _
    have last : Last taskId .completed (Transaction.commit now v (.completeTask taskId result) x) :=
      busy.task.change .completed (fun _ => by simp) rfl
    exact ⟨busy.running, last.quiet (by decide), busy.approvals⟩

theorem obeys_failTask (clean : Clean h) (busy : Busy id taskId v) (error : String) :
    (failTask taskId error).Obeys (pipelineProtocol s)
      (goingOn id fun _ v => Calm id v ∧ Last taskId .failed v) h v := by
  apply obeys_own clean (by trivial)
  · exact busy.task.holds
  · intro x now _
    have last : Last taskId .failed (Transaction.commit now v (.failTask taskId error) x) :=
      busy.task.change .failed (fun _ => by simp) rfl
    exact ⟨⟨busy.running, last.quiet (by decide), busy.approvals⟩, last⟩

/-- The workflow is finished, with its tasks as they are. -/
theorem Calm.finish (running : v.Running id) (quiet : v.Quiet) (status : Status)
    (now : Time) (entry : LogEntry) :
    Finished id status
    { v with workflows := v.workflows.change id (Workflow.finish status now entry) } := by
  obtain ⟨w, only, -⟩ := running
  refine ⟨⟨w.finish status now entry, ?_, by simp⟩, quiet⟩
  simp only [only, Rows.change, List.map_cons, List.map_nil, if_true]

/-- A step gives up: its task fails, then the workflow. -/
theorem obeys_giveUp {good : α → OwnRows → Prop} (clean : Clean h) (busy : Busy id taskId v)
    (error text : String) (e : PyException) :
    (do failTask taskId error
        failWorkflow id text
        raise e : Async α).Obeys (pipelineProtocol s) (goingOn id good) h v := by
  apply obeys_then _ (obeys_failTask clean busy error)
  rintro _ h v clean ⟨calm, last⟩
  apply obeys_then fun _ v => Finished id .failed v ∧ Last taskId .failed v
  · apply obeys_own clean (by trivial)
    · exact ⟨calm.running, calm.quiet⟩
    · exact fun x now _ => ⟨Calm.finish calm.running calm.quiet .failed now _, last⟩
  · rintro _ h v clean ⟨finished, last⟩
    exact .inl ⟨clean, finished, taskId, last⟩

/-! ### Steps -/

theorem obeys_checkTools (clean : Clean h) (calm : Calm id v) (dir scenario : String) :
    (checkTools dir id scenario).Obeys (pipelineProtocol s)
    (goingOn id fun _ v => Calm id v) h v := by
  apply obeys_then _ (obeys_createTask clean calm _ _)
  intro taskId h v clean busy
  apply (passive_run _ _ _).use clean busy.running
  intro (rc, out, err) h clean
  dsimp only
  split
  · exact obeys_giveUp clean busy _ _ _
  · exact obeys_completeTask clean busy _

theorem obeys_capture (clean : Clean h) (calm : Calm id v) (dir scenario : String) :
    (capture dir id scenario).Obeys (pipelineProtocol s) (goingOn id fun _ v => Calm id v) h v := by
  apply obeys_then _ (obeys_createTask clean calm _ _)
  intro taskId h v clean busy
  apply (passive_run _ _ _).use clean busy.running
  intro (rc, out, err) h clean
  dsimp only
  split
  · exact obeys_giveUp clean busy _ _ _
  · exact obeys_completeTask clean busy _

theorem obeys_renderMp4 (clean : Clean h) (calm : Calm id v) (dir scenario : String) :
    (renderMp4 dir id scenario).Obeys (pipelineProtocol s)
    (goingOn id fun _ v => Calm id v) h v := by
  apply obeys_then _ (obeys_createTask clean calm _ _)
  intro taskId h v clean busy
  apply (passive_run _ _ _).use clean busy.running
  intro (rc, out, err) h clean
  dsimp only
  split
  · apply (obeys_failTask clean busy _).mono
    intro r h v ended
    cases r with
    | ok x => exact ⟨ended.1, ended.2.1⟩
    | error e => exact ended
  · exact obeys_completeTask clean busy _

theorem obeys_manifestStep (clean : Clean h) (calm : Calm id v) (outDir scenario : String) :
    (manifestStep outDir id scenario).Obeys (pipelineProtocol s)
    (goingOn id fun _ v => Calm id v) h v := by
  apply obeys_then _ (obeys_createTask clean calm _ _)
  intro taskId h v clean busy
  apply Passive.use (.await (by trivial) (fun _ _ => by trivial) (by exact fun attempt => attempt))
    clean busy.running
  intro dir h clean
  split
  · apply (passive_buildManifest outDir scenario).use clean busy.running
    intro manifest h clean
    apply obeys_then _ (obeys_completeTask clean busy _)
    exact fun _ _ _ clean calm => ⟨clean, calm⟩
  · exact obeys_giveUp clean busy _ _ _

/-- Inside the approval step with the approval row inserted. -/
structure Requested (id taskId approvalId : Nat) (h : History) (v : OwnRows) : Prop where
  clean : Clean h
  running : v.Running id
  task : Last taskId .running v
  held : v.approvals.Holds approvalId

theorem requested_outlives (id taskId approvalId : Nat) :
    ApprovalGateway.Outlives (Requested id taskId approvalId)
    (fun _ h v => ¬ Clean h ∧ v.Running id) where
  replied := fun _ _ holds => ⟨holds.clean.ok, holds.running, holds.task, holds.held⟩
  swallowed := fun _ attempt caught holds => ⟨holds.clean.caught attempt caught,
    holds.running, holds.task, holds.held⟩
  raised := fun _ _ _ passes holds => ⟨unclean passes, holds.running⟩
  closed := fun ⟨unclean, running⟩ => ⟨fun clean => unclean clean.left, running⟩
  unclosed := fun _ ⟨unclean, running⟩ => ⟨fun clean => unclean clean.left, running⟩

theorem obeys_send (clean : Clean h) (busy : Busy id taskId v) (req : ApprovalRequest)
    (home : req.workflowId = some id) : (ApprovalGateway.send s req).Obeys (pipelineProtocol s)
      (goingOn id fun _ v => v.Running id ∧ Last taskId .running v) h v := by
  have sent : (ApprovalGateway.send s req).Obeys (pipelineProtocol s)
      (ending (fun _ h v => Clean h ∧ v.Running id ∧ Last taskId .running v) fun _ h v =>
          ¬ Clean h ∧ v.Running id) h v := by
    apply ApprovalGateway.obeys_send (Requested id taskId) ⟨busy.approvals, id, home, busy.running⟩
      (requested_outlives id taskId)
    · exact fun approvalId now =>
        ⟨clean.ok, busy.running, busy.task, _, List.mem_append_right _ (List.mem_singleton.mpr rfl)⟩
    · exact fun e v' unanswered => ⟨unclean fun attempt => attempt.elim,
        unanswered.running busy.running fun _ _ => rfl⟩
    · exact fun _ _ _ requested => requested.held
    · exact fun approvalId via now h v requested =>
        ⟨requested.clean.ok, requested.running, requested.task⟩
    · exact fun approvalId via e h v v' requested unanswered =>
        ⟨unclean fun attempt => attempt.elim, unanswered.running requested.running fun _ _ => rfl⟩
  apply sent.mono
  intro r h v ended
  cases r with
  | ok approvalId => exact ended
  | error e => exact .inr (.inl ended)

theorem obeys_approve (clean : Clean h) (calm : Calm id v) (outDir scenario trigger : String)
    (m : Manifest) : (approve s outDir id scenario trigger m).Obeys (pipelineProtocol s)
      (goingOn id fun _ v => v.Running id ∧ v.Quiet) h v := by
  apply obeys_then _ (obeys_createTask clean calm _ _)
  intro taskId h v clean busy
  apply (passive_formatOutputs m outDir).use clean busy.running
  intro outputs h clean
  apply obeys_then _ (obeys_send clean busy _ rfl)
  rintro approvalId h v clean ⟨running, task⟩
  apply obeys_then fun _ v => v.Running id ∧ v.Quiet
  · apply obeys_own clean (by trivial)
    · exact task.holds
    · intro x now _
      have last : Last taskId .completed (Transaction.commit now v (.completeTask taskId _) x) :=
        task.change .completed (fun _ => by simp) rfl
      exact ⟨running, last.quiet (by decide)⟩
  · exact fun _ _ _ clean done => ⟨clean, done⟩

theorem obeys_runSteps (clean : Clean h) (calm : Calm id v) (scenario trigger : String)
    (skipRender : Bool) : (runSteps s id scenario trigger skipRender).Obeys (pipelineProtocol s)
      (goingOn id fun _ v => Finished id .completed v) h v := by
  apply obeys_then _ (obeys_checkTools clean calm _ _)
  intro _ h v clean calm
  apply obeys_then _ (obeys_capture clean calm _ _)
  intro _ h v clean calm
  have rest (h : History) (v : OwnRows) (clean : Clean h) (calm : Calm id v) (outDir : String) : (do
      let manifest ← manifestStep outDir id scenario
      let _ ← session (.addMemory "demo_forge_manifest" (memoryContent scenario manifest)
        manifest.json)
      let approvalId ← approve s outDir id scenario trigger manifest
      session (.completeWorkflow id "demo_request_completed"
        (.obj [("approval_id", .int (Int.ofNat approvalId))]))
      return .demo id approvalId scenario manifest.artifacts.length : Async Returned).Obeys
        (pipelineProtocol s) (goingOn id fun _ v => Finished id .completed v) h v := by
    apply obeys_then _ (obeys_manifestStep clean calm outDir scenario)
    intro manifest h v clean calm
    apply obeys_then fun _ v => Calm id v
    · apply obeys_own clean (by trivial)
      · trivial
      · exact fun x now _ => ⟨calm.running, calm.quiet, calm.approvals⟩
    · intro _ h v clean calm
      apply obeys_then _ (obeys_approve clean calm outDir scenario trigger manifest)
      rintro approvalId h v clean ⟨running, quiet⟩
      apply obeys_then fun _ v => Finished id .completed v
      · apply obeys_own clean (by trivial)
        · exact ⟨running, quiet⟩
        · exact fun x now _ => Calm.finish running quiet .completed now _
      · exact fun _ _ _ clean finished => ⟨clean, finished⟩
  split
  · exact rest h v clean calm _
  · exact obeys_then _ (obeys_renderMp4 clean calm _ _) fun _ h v clean calm =>
      rest h v clean calm _

/-- How a request ends: completed, or without a row, or stopped. -/
def outcome : Post calls OwnRows Returned :=
  ending (fun _ h v => Clean h ∧ ∃ id, Finished id .completed v)
    fun _ h v => History.recorded h = false ∨ ∃ id, Stopped id h v

theorem obeys_runDemoForgeRequest (payload : Json) :
    (runDemoForgeRequest s payload).Obeys (pipelineProtocol s) outcome [] OwnRows.none := by
  apply obeys_bind_iff.mpr
  apply obeys_ofExcept
  cases payloadFields payload with
  | error e => exact .inl rfl
  | ok fields =>
      dsimp only [ending]
      split
      · apply obeys_bind_iff.mpr
        apply obeys_await
        · trivial
        · trivial
        · intro reply
          cases reply with
          | error e => exact .inl rfl
          | ok makefile =>
              dsimp only [ending]
              split
              · apply obeys_bind_iff.mpr
                apply obeys_bind_iff.mpr
                apply obeys_utcnow trivial
                intro now
                apply obeys_bind_iff.mpr
                apply obeys_session
                · exact ⟨rfl, fun commit => absurd commit (by decide)⟩
                · intro id now' _
                  have calm : Calm id (Transaction.commit now' OwnRows.none _ id) :=
                    ⟨⟨_, rfl, rfl⟩, fun t member => absurd member List.not_mem_nil, rfl⟩
                  apply (obeys_runSteps clean_nil.ok.ok.ok calm _ _ _).mono
                  intro r h v ended
                  cases r with
                  | ok r => exact ⟨ended.1, id, ended.2⟩
                  | error e => exact .inr ⟨id, ended⟩
                · exact fun e v' unanswered => .inl rfl
              · exact .inl rfl
      · exact .inl rfl

end WiseOrder.DemoForge
