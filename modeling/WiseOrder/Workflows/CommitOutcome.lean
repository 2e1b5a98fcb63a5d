import WiseOrder.Workflows.CommitSteps
import WiseOrder.Approvals.Delivery
import WiseOrder.Workflows.CommitCalls

/-! The four steps of a commit pipeline, and what a run of it comes to: whatever
its calls reply, its rows and its history end in one of a few exact ways. -/
namespace WiseOrder.CommitPipeline
open Coroutine Coroutine.Program Relational
variable {s : Settings} {repo sha : Json} {id n taskId : Nat} {type label : String} {h : History}
    {v : OwnRows}
  {e : PyException} {α : Type}

theorem obeys_summarizeStep (phase : Phase repo sha id 0 h v) (subject author diff : Json) :
    (summarizeStep id repo sha subject author diff).Obeys (pipelineProtocol s)
      (ending (fun _ => Phase repo sha id 1) fun e h v => Halted repo sha id 0 0 h v e) h v := by
  apply obeys_step phase rfl (by decide)
  intro taskId h v entered
  exact obeys_consult (c := .summarize subject author sha diff) entered rfl (by decide) trivial
    (fun _ _ => trivial) trivial rfl (fun reply => by cases reply <;> exact ⟨rfl, rfl, rfl⟩)
    EngineeringSummary.toDict _ "summary_done" rfl

theorem obeys_draftStep (phase : Phase repo sha id 1 h v) (eng : EngineeringSummary) :
    (draftStep id sha eng).Obeys (pipelineProtocol s)
      (ending (fun _ => Phase repo sha id 2) fun e h v => Halted repo sha id 1 0 h v e) h v := by
  apply obeys_step phase rfl (by decide)
  intro taskId h v entered
  exact obeys_consult (c := .draft eng.summary eng.changelog eng.riskLevel)
    entered rfl (by decide) trivial
    (fun _ _ => trivial) trivial rfl (fun reply => by cases reply <;> exact ⟨rfl, rfl, rfl⟩)
    SocialDraft.toDict _ "social_done" rfl

/-! ### Saving -/

theorem short_isException (failed : short sha = .error e) : e.isException = true := by
  cases sha with
  | str text | arr items => cases failed
  | null | bool b | int z | float x | obj fields => cases failed; rfl

theorem stored_three : Stored sha 3 h v ↔ ∃ memoryId m, v.memory = [(memoryId, m)] ∧
    Embedded sha h m := Iff.rfl

theorem obeys_index {events : List String} {k : Nat}
    (inside : Inside repo sha id n taskId type .running events k h v)
    (memory : v.memory = [(memoryId, m)]) (plain : m.embeddingId = none)
    (fresh : h.upserted = false) (intact : h.unembedded = false) (content : String)
    (eng : EngineeringSummary) : (index memoryId content repo sha eng).Obeys (pipelineProtocol s)
      (ending (fun _ h' v' => Inside repo sha id n taskId type .running events k h' v' ∧
          v'.approvals = v.approvals ∧ Stored sha 3 h' v')
        fun e h' v' => Thrown repo sha id n taskId type k h' v' e) h v := by
  apply obeys_swallow
  apply obeys_bind_iff.mpr
  apply obeys_await
  · trivial
  · trivial
  · intro reply
    cases reply with
    | error e =>
        refine ⟨⟨inside.swallow trivial rfl, rfl, stored_three.mpr ⟨memoryId, m, memory, .inl ?_⟩⟩,
          inside.throw trivial rfl⟩
        simp [History.isUpserted, fresh, plain]
    | ok x =>
        have inside := inside.reply (c := .upsert [embeddingId sha] [content]
          [.obj [("repo", repo), ("sha", sha), ("risk", .str eng.riskLevel)]]) (x := x) rfl rfl
        apply obeys_session
        · exact ⟨m, by rw [memory]; exact List.mem_singleton.mpr rfl⟩
        · intro y now _
          refine ⟨⟨inside.smooth.ok, ⟨inside.row.row⟩, ⟨inside.task.last⟩, ?_, ?_⟩, rfl,
            stored_three.mpr ⟨memoryId, m.embed (embeddingId sha), ?_, .inl ?_⟩⟩
          · simpa [Call.isSend] using inside.sends
          · simpa [History.isCreated] using inside.created
          · simp only [Transaction.commit, memory, Rows.change,
              List.map_cons, List.map_nil, if_true]
          · simp [History.isUpserted, History.isUnembedded, intact, Memory.embed]
        · intro e v' unanswered
          have raised := inside.unanswered (t := .setEmbedding memoryId (embeddingId sha)) (e :=
            e) trivial rfl unanswered (fun _ _ => ⟨_, ⟨inside.row.row⟩⟩) fun _ _ =>
            ⟨_, ⟨inside.task.last⟩⟩
          have still :=
            (inside.swallow (e := e) (c := .session (.setEmbedding memoryId (embeddingId sha)))
            trivial rfl).rows
            (unanswered.workflows fun _ _ => rfl) (unanswered.tasks fun _ _ => rfl)
          rcases unanswered with rfl | ⟨y, now, -, rfl⟩
          · refine ⟨⟨still, rfl, stored_three.mpr ⟨memoryId, m, memory, .inl ?_⟩⟩, raised⟩
            simp [History.isUnembedded, plain]
          · refine ⟨⟨still, rfl, stored_three.mpr ⟨memoryId, m.embed (embeddingId sha), ?_,
              .inr ⟨?_, ?_, rfl⟩⟩⟩, raised⟩
            · simp only [Transaction.commit, memory, Rows.change,
                List.map_cons, List.map_nil, if_true]
            · simp [History.isUpserted]
            · simp [History.isUnembedded]

theorem obeys_saveStep (phase : Phase repo sha id 2 h v) (subject author : Json)
    (eng : EngineeringSummary) :
    (saveStep id repo sha subject author eng).Obeys (pipelineProtocol s)
      (ending (fun _ => Phase repo sha id 3) fun e h v => Halted repo sha id 2 0 h v e) h v := by
  apply obeys_step phase rfl (by decide)
  intro taskId h v entered
  obtain ⟨empty, fresh, intact⟩ : v.memory = [] ∧ h.upserted = false ∧ h.unembedded = false :=
    entered.stored
  apply obeys_bind_iff.mpr
  apply obeys_ofExcept
  cases cut : short sha with
  | error e => exact entered.inside.raise (short_isException cut)
  | ok shortSha =>
      apply obeys_bind_iff.mpr
      apply obeys_session
      · trivial
      · intro memoryId now _
        let t : Transaction := .addMemory "commit_summary" (memoryContent shortSha subject eng)
          (memoryMetadata repo sha subject author eng)
        have inside : Inside repo sha id 2 taskId "save" .running (eventsDone 2) 0 (h ++
          [⟨.session t, .ok memoryId⟩])
            (t.commit now v memoryId) := (entered.inside.reply rfl rfl).rows rfl rfl
        apply obeys_bind (obeys_index inside (by simp [t, Transaction.commit, empty, Rows.add]; rfl)
          rfl
          (by simp [fresh, History.isUpserted]) (by simp [intact, History.isUnembedded]) _ eng)
        · rintro - h v ⟨inside, same, stored⟩
          apply (obeys_completeTask inside _).mono
          intro r h' v' ended
          cases r with
          | error e => exact ended
          | ok x =>
              obtain ⟨inside, kept⟩ := ended
              exact inside.phase rfl rfl (fun _ =>
                (kept.approvals.trans same).trans entered.approvals)
                (stored.same kept.memory kept.upserted kept.unembedded)
        · exact fun e h v thrown => thrown
      · intro e v' unanswered
        exact entered.inside.unanswered trivial rfl unanswered (fun _ _ => ⟨_, ⟨entered.row.row⟩⟩)
          fun _ _ => ⟨_, ⟨entered.task.last⟩⟩

/-! ### Asking for approval -/

/-- Whether the text of an approval request can be made of the payload. -/
def requestable (repo sha : Json) : Bool := (short sha).isOk && (repoName repo).isOk

/-- How often `send` is called when the approval step is reached. -/
def requests (repo sha : Json) : Nat := if requestable repo sha then 1 else 0

theorem repoName_isException (failed : repoName repo = .error e) : e.isException = true := by
  cases repo with
  | str text => cases failed
  | null | bool b | int z | float x | arr items | obj fields => cases failed; rfl

theorem approvalRequest_error {subject : Json} {eng : EngineeringSummary} {soc : SocialDraft}
    (failed : approvalRequest id taskId repo sha subject eng soc = .error e) :
    e.isException = true ∧ requests repo sha = 0 := by
  unfold approvalRequest at failed
  cases cut : short sha with
  | error e' =>
      rw [cut] at failed
      cases failed
      exact ⟨short_isException cut, by simp [requests, requestable, cut,
        Except.isOk, Except.toBool]⟩
  | ok shortSha =>
      cases named : repoName repo with
      | error e' =>
          rw [cut, named] at failed
          cases failed
          exact ⟨repoName_isException named, by simp [requests, requestable, named,
            Except.isOk, Except.toBool]⟩
      | ok name =>
          rw [cut, named] at failed
          cases failed

theorem approvalRequest_ok {subject : Json} {eng : EngineeringSummary} {soc : SocialDraft}
    (made : approvalRequest id taskId repo sha subject eng soc = .ok req) :
    req.workflowId = some id ∧ requests repo sha = 1 := by
  unfold approvalRequest at made
  cases cut : short sha with
  | error e => rw [cut] at made; cases made
  | ok shortSha =>
      cases named : repoName repo with
      | error e => rw [cut, named] at made; cases made
      | ok name =>
          rw [cut, named] at made
          cases made
          exact ⟨rfl, by simp [requests, requestable, cut, named, Except.isOk, Except.toBool]⟩

theorem Thrown.closed {k : Nat} (thrown : Thrown repo sha id n taskId type k h v e) :
    Thrown repo sha id n taskId type k (h ++ [⟨.httpClose, .ok ()⟩]) v e where
  raised := by
    rcases thrown.raised with ⟨smooth, caught⟩ | ⟨c, handled, last⟩
    · exact .inl ⟨smooth.ok, caught⟩
    · exact .inr ⟨c, handled, last.ok⟩
  row := thrown.row
  task := thrown.task
  sends := by simpa [Call.isSend] using thrown.sends
  created := by simpa [History.isCreated] using thrown.created

theorem Thrown.unclosed {k : Nat} (thrown : Thrown repo sha id n taskId type k h v e) :
    Thrown repo sha id n taskId type k (h ++ [⟨.httpClose, .error e'⟩]) v e' where
  raised := History.raised_fault trivial
  row := thrown.row
  task := thrown.task
  sends := by simpa [Call.isSend] using thrown.sends
  created := by simpa [History.isCreated] using thrown.created

/-- Inside the approval step with the approval row inserted. -/
def Requested (repo sha : Json) (id taskId approvalId : Nat) (h : History) (v : OwnRows) : Prop :=
  Inside repo sha id 3 taskId "request_approval" .running (eventsDone 3) 1 h v ∧ Stored sha 3 h v ∧
    v.approvals.Holds approvalId

theorem requested_outlives (approvalId : Nat) :
    ApprovalGateway.Outlives (Requested repo sha id taskId approvalId)
      (fun e h v => Thrown repo sha id 3 taskId "request_approval" 1 h v e) where
  replied := by
    intro h v c x delivery ⟨inside, stored, held⟩
    cases c with
    | now | appendFile line | httpOpen | httpPost url body | httpClose =>
        exact ⟨inside.reply rfl rfl, stored.same rfl (by simp [History.isUpserted])
          (by simp [History.isUnembedded]), held⟩
    | _ => exact delivery.elim
  swallowed := by
    intro h v c e attempt _ ⟨inside, stored, held⟩
    cases c with
    | appendFile line | httpPost url body =>
        exact ⟨inside.swallow trivial rfl, stored.same rfl (by simp [History.isUpserted])
          (by simp [History.isUnembedded]), held⟩
    | _ => exact attempt.elim
  raised := by
    intro h v c e delivery outside _ ⟨inside, _, _⟩
    cases c with
    | appendFile line | httpOpen | httpPost url body | httpClose => exact inside.throw trivial rfl
    | now => exact outside.elim
    | _ => exact delivery.elim
  closed := Thrown.closed
  unclosed := fun _ => Thrown.unclosed

/-- Inside the approval step once the request was sent. -/
def Sent (repo sha : Json) (id taskId : Nat) (h : History) (v : OwnRows) : Prop :=
  Inside repo sha id 3 taskId "request_approval" .running (eventsDone 3) 1 h v ∧ Stored sha 3 h v

theorem obeys_send (entered : Entered repo sha id 3 taskId "request_approval" h v)
    (req : ApprovalRequest) (home : req.workflowId = some id) :
    (ApprovalGateway.send s req).Obeys (pipelineProtocol s)
      (ending (fun _ => Sent repo sha id taskId)
        fun e h v => Thrown repo sha id 3 taskId "request_approval" 1 h v e) h v := by
  have inside := entered.inside
  apply ApprovalGateway.obeys_send (Requested repo sha id taskId)
  · exact ⟨entered.approvals, id, home, inside.row.running⟩
  · exact requested_outlives
  · intro approvalId now
    refine ⟨⟨inside.smooth.ok, ⟨inside.row.row⟩,
      ⟨inside.task.last⟩, by simp [Call.isSend, inside.sends],
      by simpa [History.isCreated] using inside.created⟩,
      entered.stored.same rfl (by simp [History.isUpserted]) (by simp [History.isUnembedded]), ?_⟩
    exact ⟨_, List.mem_append_right _ (List.mem_singleton.mpr rfl)⟩
  · intro e v' unanswered
    exact ⟨History.raised_fault trivial,
      ⟨_, ⟨unanswered.workflows (fun _ _ => rfl) ▸ inside.row.row⟩⟩,
      ⟨_, ⟨unanswered.tasks (fun _ _ => rfl) ▸ inside.task.last⟩⟩, 
      by simp [Call.isSend, inside.sends],
      by simpa [History.isCreated] using inside.created⟩
  · exact fun _ _ _ requested => requested.2.2
  · rintro approvalId via now h v ⟨inside, stored, -⟩
    have inside := inside.reply (c := .session (.setDelivered approvalId via)) (x := ()) rfl rfl
    exact ⟨inside.rows rfl rfl, stored.same rfl (by simp [History.isUpserted])
      (by simp [History.isUnembedded])⟩
  · rintro approvalId via e h v v' ⟨inside, -, -⟩ unanswered
    exact inside.unanswered trivial rfl unanswered (fun _ _ => ⟨_, ⟨inside.row.row⟩⟩) fun _ _ =>
      ⟨_, ⟨inside.task.last⟩⟩

theorem obeys_approvalStep (phase : Phase repo sha id 3 h v)
    (subject : Json) (eng : EngineeringSummary) (soc : SocialDraft) :
    (approvalStep s id repo sha subject eng soc).Obeys (pipelineProtocol s)
      (ending (fun _ => Phase repo sha id 4) fun e h v =>
        Halted repo sha id 3 (requests repo sha) h v e) h v := by
  apply obeys_step phase rfl (by decide)
  intro taskId h v entered
  apply obeys_bind_iff.mpr
  apply obeys_ofExcept
  cases made : approvalRequest id taskId repo sha subject eng soc with
  | error e =>
      obtain ⟨caught, none⟩ := approvalRequest_error made
      rw [none]
      exact entered.inside.raise caught
  | ok req =>
      obtain ⟨home, one⟩ := approvalRequest_ok made
      rw [one]
      apply obeys_bind (obeys_send entered req home)
      · intro approvalId h v ⟨inside, stored⟩
        apply (obeys_closing inside (.obj [("approval_id", .int approvalId)]) "approval_sent"
          (.obj [("id", .int approvalId)]) approvalId).mono
        intro r h v closed
        cases r with
        | error e => exact closed
        | ok a =>
            obtain ⟨-, inside, kept⟩ := closed
            exact inside.phase rfl rfl (fun early => absurd early (by decide))
              (stored_three.mp (stored.same kept.memory kept.upserted kept.unembedded))
      · exact fun e h v thrown => thrown

/-! ### The whole run -/

/-- All four steps done, and nothing raised but what was swallowed. -/
structure Completed (repo sha : Json) (id : Nat) (h : History) (v : OwnRows) : Prop where
  smooth : h.Smooth
  row : RowIs repo sha id .completed (eventsDone 4 ++ ["workflow_completed"]) v
  tasks : kinds v.tasks = tasksDone 4
  sends : h.sends = 1
  stored : Stored sha 4 h v

/-- The pipeline raised, with `n` steps done. -/
def Broken (repo sha : Json) (id : Nat) (h : History) (v : OwnRows) (e : PyException) : Prop :=
  (∃ n < 4, Failed repo sha id n (if n = 3 then requests repo sha else 0) h v e) ∨
    Stuck repo sha id h v e

theorem Halted.broken {n : Nat} (halted : Halted repo sha id n k h v e) (early : n < 4)
    (sent : k = if n = 3 then requests repo sha else 0) : Broken repo sha id h v e := by
  subst sent
  rcases halted with failed | stuck
  · exact .inl ⟨n, early, failed⟩
  · exact .inr stuck

/-- The run of a claimed commit after its row was inserted. -/
def stepsOutcome (repo sha : Json) (id : Nat) : Post calls OwnRows Returned :=
  ending (fun r h v => (∃ approvalId eng post, r = .commit id approvalId eng post) ∧
    Completed repo sha id h v)
    fun e h v => Broken repo sha id h v e

theorem obeys_runPipelineSteps (phase : Phase repo sha id 0 h v) (subject author diff : Json) :
    (runPipelineSteps s id repo sha subject author diff).Obeys (pipelineProtocol s)
      (stepsOutcome repo sha id) h v := by
  apply obeys_bind (obeys_summarizeStep phase subject author diff)
  · intro eng h v phase
    apply obeys_bind (obeys_draftStep phase eng)
    · intro soc h v phase
      apply obeys_bind (obeys_saveStep phase subject author eng)
      · intro _ h v phase
        apply obeys_bind (obeys_approvalStep phase subject eng soc)
        · intro approvalId h v phase
          apply obeys_bind_iff.mpr
          apply obeys_session
          · exact ⟨phase.row.running, tasksDone_quiet phase.tasks⟩
          · intro x now _
            have row := phase.row.finish .completed now (by decide)
              ⟨now, "workflow_completed", .obj []⟩
            exact ⟨⟨approvalId, eng, soc.post, rfl⟩, phase.smooth.ok, row, phase.tasks,
              by simpa [Call.isSend] using phase.sends,
              phase.stored.same rfl (by simp [History.isUpserted]) (by simp [History.isUnembedded])⟩
          · intro e v' unanswered
            refine .inr (stuck_finish phase.row trivial (.inl rfl) unanswered fun x now => ?_)
            exact ⟨⟨_, phase.row.finish .completed now (by decide) _⟩, tasksDone_quiet phase.tasks⟩
        · exact fun e h v halted => halted.broken (by decide) rfl
      · exact fun e h v halted => halted.broken (by decide) rfl
    · exact fun e h v halted => halted.broken (by decide) rfl
  · exact fun e h v halted => halted.broken (by decide) rfl

/-- The call was not told that its workflow row was inserted: there is none, or the reply of the
insert was lost. -/
def Unrecorded (h : History) (v : OwnRows) : Prop := History.recorded h = false ∧
    (v = OwnRows.none ∨ ∃ id, v.Running id)

/-- A run that won the claim: it ends without a row, or as the steps end. -/
def claimedOutcome (repo sha : Json) : Post calls OwnRows Returned :=
  ending (fun r h v => ∃ id approvalId eng post, r = .commit id approvalId eng post ∧
    Completed repo sha id h v)
    fun e h v => Unrecorded h v ∨ ∃ id, Broken repo sha id h v e

/-- A history before the workflow row is inserted. -/
structure Untouched (h : History) : Prop where
  smooth : h.Smooth
  sends : h.sends = 0
  created : h.created = 0
  recorded : h.recorded = false
  upserted : h.upserted = false
  unembedded : h.unembedded = false

theorem obeys_runClaimed (won : Won h (Dedup.key repo sha)) (untouched : Untouched h)
    (subject author diff : Json) :
    (runClaimed s repo sha subject author diff).Obeys (pipelineProtocol s)
    (claimedOutcome repo sha) h
      OwnRows.none := by
  apply obeys_bind_iff.mpr
  apply obeys_bind_iff.mpr
  apply obeys_utcnow trivial
  intro ts
  apply obeys_bind_iff.mpr
  apply obeys_session
  · exact ⟨rfl, fun _ => ⟨ts, repo, sha, rfl, won.append⟩⟩
  · intro id now _
    have started : RowIs repo sha id .running (eventsDone 0) (Transaction.commit now OwnRows.none
        (.addWorkflow "commit_pipeline" taskChain
          [⟨ts, "workflow_started", .obj [("repo", repo), ("sha", sha)]⟩]) id) :=
      ⟨_, rfl, rfl, rfl, ⟨rfl, ts, [], rfl⟩, by simp [Transaction.newWorkflow]⟩
    apply obeys_bind_iff.mpr
    apply obeys_await
    · trivial
    · obtain ⟨w, only, -, -, commit, -⟩ := started.row
      have row : ∃ w, (id, w) ∈ OwnRows.workflows _ ∧ w.Of repo sha :=
        ⟨w, by rw [only]; exact List.mem_singleton.mpr rfl, commit⟩
      exact ⟨rfl, won.append.append, repo, sha, id, rfl, rfl,
        ⟨_, ts, List.mem_append_right _ (List.mem_singleton.mpr rfl)⟩, row⟩
    · intro reply
      cases reply with
      | error e =>
          have unhandled (value : String) : ¬ (Call.redis (.setEx (Dedup.key repo sha) value
              s.dedupTtlSeconds)).Handled :=
            fun handled => handled
          exact .inr ⟨id, .inr (stuck_running started (.inl (unhandled _)) History.lastFault_error)⟩
      | ok x =>
          refine (obeys_runPipelineSteps ?phase subject author diff).mono ?_
          case phase => exact {
            smooth := untouched.smooth.ok.ok.ok
            row := started
            tasks := rfl
            home := fun t member => absurd member List.not_mem_nil
            sends := by simp [untouched.sends, Call.isSend]
            created := by simp [untouched.created, History.isCreated]
            approvals := fun _ => rfl
            stored := ⟨rfl, by simp [untouched.upserted, History.isUpserted],
              by simp [untouched.unembedded, History.isUnembedded]⟩ }
          intro r h v ended
          cases r with
          | ok r =>
              obtain ⟨⟨approvalId, eng, post, same⟩, completed⟩ := ended
              exact ⟨id, approvalId, eng, post, same, completed⟩
          | error e => exact .inr ⟨id, ended⟩
  · intro e v' unanswered
    refine Or.inl ⟨by simp [untouched.recorded, History.isRecorded], ?_⟩
    rcases unanswered with rfl | ⟨id, now, -, rfl⟩
    · exact .inl rfl
    · exact .inr ⟨id, _, rfl, rfl⟩

/-- The call found the claim taken, and was told what the claim held. -/
def Skipped (repo sha : Json) (r : Returned) (h : History) : Prop :=
  ∃ value ex existing, r = skip ⟨false, existing⟩ ∧
    h = [⟨.redis (.setNx (Dedup.key repo sha) value ex), .ok false⟩,
      ⟨.redis (.get (Dedup.key repo sha)), .ok existing⟩]

/-- What a call of the pipeline comes to. It may be refused for its payload, fail
to claim, be skipped, or run. -/
def outcome (payload : Json) : Post calls OwnRows Returned :=
  ending
    (fun r h v => ∃ repo sha, commitOf payload = some (repo, sha) ∧
      ((v = OwnRows.none ∧ Skipped repo sha r h) ∨
        Won h (Dedup.key repo sha) ∧ claimedOutcome repo sha (.ok r) h v))
    fun e h v => Unrecorded h v ∨
      ∃ repo sha, commitOf payload = some (repo, sha) ∧ Won h (Dedup.key repo sha) ∧
        ∃ id, Broken repo sha id h v e

theorem obeys_runCommitPipeline (payload : Json) :
    (runCommitPipeline s payload).Obeys (pipelineProtocol s) (outcome payload) [] OwnRows.none := by
  apply obeys_bind_iff.mpr
  apply obeys_ofExcept
  cases required : requireKeys payload ["repo", "sha"] with
  | error e => exact Or.inl ⟨rfl, .inl rfl⟩
  | ok fields =>
      have names : commitOf payload =
          some ((Json.lookup "repo" fields).getD .null, (Json.lookup "sha" fields).getD .null) := by
        simp only [commitOf, required]
      apply obeys_bind_iff.mpr
      apply obeys_bind_iff.mpr
      apply obeys_await
      · trivial
      · exact ⟨rfl, rfl, rfl⟩
      · intro reply
        cases reply with
        | error e => exact Or.inl ⟨rfl, .inl rfl⟩
        | ok won =>
            cases won with
            | false =>
                apply obeys_bind_iff.mpr
                apply obeys_await
                · trivial
                · trivial
                · intro reply
                  cases reply with
                  | error e => exact Or.inl ⟨rfl, .inl rfl⟩
                  | ok existing => exact ⟨_, _, names, .inl ⟨rfl, _, _, existing, rfl, rfl⟩⟩
            | true =>
                have won (repo sha : Json) : Won [⟨.redis (.setNx (Dedup.key repo sha) Dedup.pending
                    s.dedupTtlSeconds), .ok true⟩] (Dedup.key repo sha) :=
                      ⟨_, _, List.mem_singleton.mpr rfl⟩
                apply (obeys_runClaimed (won _ _) ?untouched _ _ _).grows.mono
                case untouched => exact {
                  smooth := History.smooth_nil.ok
                  sends := rfl
                  created := rfl
                  recorded := rfl
                  upserted := rfl
                  unembedded := rfl }
                intro r h v ⟨ended, grown⟩
                obtain ⟨more, rfl⟩ := grown
                cases r with
                | ok r => exact ⟨_, _, names, .inr ⟨(won _ _).append, ended⟩⟩
                | error e =>
                    rcases ended with none | ⟨id, broken⟩
                    · exact Or.inl none
                    · exact Or.inr ⟨_, _, names, (won _ _).append, id, broken⟩

end WiseOrder.CommitPipeline
