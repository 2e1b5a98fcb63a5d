import WiseOrder.Agents.LlmCall
import WiseOrder.Runtime.System
import WiseOrder.Workflows.CommitCalls
import WiseOrder.Workflows.FailureCounts

/-! What the daily summary makes of the failures of the language model. The pipeline keeps
the bare text of the exception on the failed task, and the classifier looks for words in it.
Of what it finds a summary keeps the most common labels. -/
namespace WiseOrder.CommitPipeline
open Coroutine Coroutine.Program DailySummary LlmCall

/-! ### The labels -/

/-- The labels that say something. -/
def shapes : List String :=
  ["timeout", "connection_refused", "permission_denied", "json_parse", "no_handler", "llm_failed"]

/-- The label of a failure of the language model, by what made it give up. -/
def Counted (cause : Clause) (label : String) : Prop :=
  match cause with
  | .timeout => label = "timeout"
  | _ => label ∈ shapes

/-- The text says by itself that something has timed out. -/
def SaysTimeout (text : String) : Prop := contains "timeout" text.toLower ∨
    contains "timed out" text.toLower

/-- The words of one of the other shapes are in the text. -/
def SaysShape (text : String) : Prop :=
  let has (word : String) : Prop := contains word text.toLower
  has "connection" ∧ (has "refused" ∨ has "reset") ∨ (has "permission" ∨ has "authoriz") ∨
    has "invalid" ∧ has "json" ∨
    has "no handler" ∨ (has "summarize failed" ∨ has "draft failed")

/-- The text has words that the classifier looks for, and where the cause is a timeout those of a
timeout. -/
def Telling (cause : Clause) (text : String) : Prop :=
  match cause with
  | .timeout => SaysTimeout text
  | _ => SaysTimeout text ∨ SaysShape text

theorem classifyError_timeout (text : String) :
    classifyError text = "timeout" ↔ SaysTimeout text := by
  simp only [classifyError, SaysTimeout, ← Bool.or_eq_true]
  split
  · simp_all
  · rename_i silent
    simp only [silent]
    split_ifs <;> decide

theorem classifyError_shapes (text : String) : classifyError text ∈ shapes ↔
    SaysTimeout text ∨ SaysShape text := by
  simp only [classifyError, SaysTimeout, SaysShape, ← Bool.or_eq_true, ← Bool.and_eq_true]
  split_ifs with timeout connection permission json handler failed
  · simp [timeout, shapes]
  · simp [connection, shapes]
  · simp [permission, shapes]
  · simp [json, shapes]
  · simp [handler, shapes]
  · simp [failed, shapes]
  · simp [timeout, connection, permission, json, handler, failed, shapes]

theorem counted_iff (cause : Clause) (text : String) :
    Counted cause (classifyError text) ↔ Telling cause text := by
  cases cause with
  | timeout => exact classifyError_timeout text
  | transient | none => exact classifyError_shapes text

/-! ### The text on the task -/

/-- The calls of the two agents, each of which calls the language model. -/
def Agent : Call → Prop
  | .summarize .. | .draft .. => True
  | _ => False

/-- The task of the step is there, and its agent has just raised. -/
structure Raised (h : History) (taskId : Nat) (e : PyException) : Prop where
  last : ∃ (before : History) (type : String) (workflowId : Nat) (payload : Json)
    (x : Interaction calls),
    h = before ++ [⟨.session (.createTask type workflowId payload), .ok taskId⟩, x] ∧
      Agent x.call ∧ x.raised = some e

/-- No agent has just raised. -/
def Unraised (h : History) : Prop := ∀ before x, h = before ++ [x] → Agent x.call → x.raised = none

/-- Once an agent has raised, the text of the exception is put on the task of the step. -/
def shapesProtocol : Protocol calls Unit :=
  ⟨fun h c _ => Unraised h ∨ ∃ taskId e, Raised h taskId e ∧ c = .session (.failTask taskId e.text),
    fun _ _ _ _ => True⟩

/-- Calls no agent. -/
def NoAgent (c : Call) : Prop := ¬ Agent c

section
variable {s : Settings} {h : History} {α : Type} {workflowId taskId : Nat}

theorem unraised_snoc {x : Interaction calls} (fine : Agent x.call → x.raised = none) :
    Unraised (h ++ [x]) := by
  intro before y same agent
  obtain ⟨-, rfl⟩ := List.append_inj' same rfl |>.imp_right List.singleton_inj.mp
  exact fine agent

theorem unraised_nil : Unraised [] := fun _ _ same => by simp at same

theorem shapes_quiet {m : Async α} (within : m.Within NoAgent) (calm : Unraised h) :
    m.Obeys shapesProtocol (fun _ h _ => Unraised h) h () :=
  within.obeys_since (F := Unraised) (fun _ _ apart _ => unraised_snoc fun agent =>
    absurd agent apart)
    (fun _ _ _ calm _ => .inl calm) calm

/-- A step whose body begins with an agent. -/
theorem shapes_step {agent : Call} (isAgent : Agent agent) (type label : String) (payload : Json)
    {rest : Nat → agent.Reply → Async α} (apart : ∀ taskId a, (rest taskId a).Within NoAgent)
    (calm : Unraised h) : (createTask type workflowId payload >>= fun taskId =>
      orFail taskId workflowId label (await agent >>= rest taskId)).Obeys
      shapesProtocol (ending (fun _ h _ => Unraised h) fun _ _ _ => True) h () := by
  have creates : (createTask type workflowId payload).Obeys shapesProtocol (fun r h' _ => ∀ taskId,
    r = .ok taskId →
      h' = h ++ [⟨.session (.createTask type workflowId payload), .ok taskId⟩]) h () := by
    refine obeys_call (.inl calm) fun reply _ _ taskId same => ?_
    subst same
    rfl
  apply obeys_bind creates
  · intro taskId h' _ created
    cases created taskId rfl
    have fresh : Unraised (h ++ [⟨.session (.createTask type workflowId payload), .ok taskId⟩]) :=
      unraised_snoc fun agent => agent.elim
    have asks : (await agent).Obeys shapesProtocol (ending (fun _ h _ => Unraised h) fun e h _ =>
      Raised h taskId e)
        (h ++ [⟨.session (.createTask type workflowId payload), .ok taskId⟩]) () := by
      refine obeys_call (.inl fresh) fun reply _ _ => ?_
      cases reply with
      | ok a => exact unraised_snoc fun _ => rfl
      | error e => exact ⟨h, type, workflowId, payload, _, List.append_assoc .., isAgent, rfl⟩
    have body : (await agent >>= rest taskId).Obeys shapesProtocol
        (ending (fun _ h _ => Unraised h) fun e h _ => Unraised h ∨ Raised h taskId e)
        (h ++ [⟨.session (.createTask type workflowId payload), .ok taskId⟩]) () := by
      apply obeys_bind asks
      · intro a h _ calm
        apply (shapes_quiet (apart taskId a) calm).mono
        intro r h _ calm
        cases r with
        | ok a => exact calm
        | error e => exact .inl calm
      · exact fun e h _ raised => .inr raised
    apply obeys_catching body
    · exact fun a h _ calm => calm
    · intro e h _ _ ends
      have fails : (failTask taskId e.text).Obeys shapesProtocol
          (fun _ h _ => Unraised h) h () := by
        refine obeys_call ?_ fun reply _ _ => unraised_snoc fun agent => agent.elim
        rcases ends with calm | raised
        · exact .inl calm
        · exact .inr ⟨taskId, e, raised, rfl⟩
      apply obeys_bind fails
      · intro _ h _ calm
        apply (shapes_quiet (within_bind (within_call (by simp [NoAgent, Agent]))
          fun _ => by trivial) calm).mono
        intro r h _ calm
        cases r with
        | ok a => exact calm
        | error e => trivial
      · exact fun _ _ _ _ => trivial
    · exact fun _ _ _ _ _ => trivial
  · exact fun _ _ _ _ => trivial

theorem noAgent_log (event : String) (data : Json) : (logEntry event data).Within NoAgent :=
  within_bind (within_call (by simp [NoAgent, Agent])) fun _ => trivial

theorem noAgent_orFail (label : String) {body : Async α} (runs : body.Within NoAgent) :
    (orFail taskId workflowId label body).Within NoAgent :=
  within_catching runs fun _ => within_bind (within_call (by simp [NoAgent, Agent])) fun _ =>
    within_bind (within_call (by simp [NoAgent, Agent])) fun _ => trivial

theorem shapes_summarizeStep (repo sha subject author diff : Json) (calm : Unraised h) :
    (summarizeStep workflowId repo sha subject author diff).Obeys shapesProtocol
    (ending (fun _ h _ => Unraised h) fun _ _ _ => True) h () := by
  apply @shapes_step _ _ _ (.summarize subject author sha diff) trivial
  · intro taskId eng
    exact within_bind (within_call (by simp [NoAgent, Agent])) fun _ =>
        within_bind (noAgent_log _ _) fun _ =>
      within_bind (within_call (by simp [NoAgent, Agent])) fun _ => trivial
  · exact calm

theorem shapes_draftStep (sha : Json) (eng : EngineeringSummary) (calm : Unraised h) :
    (draftStep workflowId sha eng).Obeys shapesProtocol
    (ending (fun _ h _ => Unraised h) fun _ _ _ => True) h () := by
  apply @shapes_step _ _ _ (.draft eng.summary eng.changelog eng.riskLevel) trivial
  · intro taskId soc
    exact within_bind (within_call (by simp [NoAgent, Agent])) fun _ =>
        within_bind (noAgent_log _ _) fun _ =>
      within_bind (within_call (by simp [NoAgent, Agent])) fun _ => trivial
  · exact calm

theorem noAgent_saveStep (repo sha subject author : Json) (eng : EngineeringSummary) :
    (saveStep workflowId repo sha subject author eng).Within NoAgent := by
  apply within_bind (within_call (by simp [NoAgent, Agent]))
  intro taskId
  apply noAgent_orFail
  apply within_bind (by trivial)
  intro shortSha
  apply within_bind (within_call (by simp [NoAgent, Agent]))
  intro memoryId
  apply within_bind
  · exact within_catching (within_bind (within_call (by simp [NoAgent, Agent])) fun _ =>
      within_call (by simp [NoAgent, Agent])) fun _ => trivial
  · exact fun _ => within_call (by simp [NoAgent, Agent])

theorem noAgent_approvalStep (repo sha subject : Json) (eng : EngineeringSummary)
    (soc : SocialDraft) : (approvalStep s workflowId repo sha subject eng soc).Within NoAgent := by
  apply within_bind (within_call (by simp [NoAgent, Agent]))
  intro taskId
  apply noAgent_orFail
  apply within_bind (by trivial)
  intro req
  have sends : (ApprovalGateway.send s req).Within NoAgent := by
    apply ApprovalGateway.within_send
    · intro c delivery
      cases c with
      | summarize | draft => exact delivery.elim
      | _ => simp [NoAgent, Agent]
    · simp [NoAgent, Agent]
    · simp [NoAgent, Agent]
  apply within_bind sends
  intro approvalId
  exact within_bind (within_call (by simp [NoAgent, Agent])) fun _ =>
      within_bind (noAgent_log _ _) fun _ =>
    within_bind (within_call (by simp [NoAgent, Agent])) fun _ => trivial

theorem shapes_runPipelineSteps (repo sha subject author diff : Json) (calm : Unraised h) :
    (runPipelineSteps s workflowId repo sha subject author diff).Obeys shapesProtocol
    (fun _ _ _ => True) h () := by
  apply obeys_bind (shapes_summarizeStep repo sha subject author diff calm)
  · intro eng h _ calm
    apply obeys_bind (shapes_draftStep sha eng calm)
    · intro soc h _ calm
      have rest : (do
          saveStep workflowId repo sha subject author eng
          let approvalId ← approvalStep s workflowId repo sha subject eng soc
          session (.completeWorkflow workflowId "workflow_completed" (.obj []))
          return .commit workflowId approvalId eng soc.post : Async Returned).Within NoAgent := by
        apply within_bind (noAgent_saveStep _ _ _ _ _)
        intro _
        apply within_bind (noAgent_approvalStep _ _ _ _ _)
        intro approvalId
        exact within_bind (within_call (by simp [NoAgent, Agent])) fun _ => trivial
      exact (shapes_quiet rest calm).mono fun _ _ _ _ => trivial
    · exact fun _ _ _ _ => trivial
  · exact fun _ _ _ _ => trivial

theorem shapes_next {β : Type} {first : Async β} {f : β → Async α} (within : first.Within NoAgent)
    (calm : Unraised h)
    (rest : ∀ b h, Unraised h → (f b).Obeys shapesProtocol (fun _ _ _ => True) h ()) :
    (first >>= f).Obeys shapesProtocol (fun _ _ _ => True) h () :=
  obeys_bind (shapes_quiet within calm) (fun b h _ calm => rest b h calm) fun _ _ _ _ => trivial

theorem shapes_runCommitPipeline (payload : Json) :
    (runCommitPipeline s payload).Obeys shapesProtocol (fun _ _ _ => True) [] () := by
  apply shapes_next (by cases requireKeys payload ["repo", "sha"] <;> trivial) unraised_nil
  intro fields h calm
  have acquires (repo sha : Json) : (Dedup.acquire s repo sha).Within NoAgent := by
    apply within_bind (within_call (by simp [NoAgent, Agent]))
    intro won
    split
    · trivial
    · exact within_bind (within_call (by simp [NoAgent, Agent])) fun _ => trivial
  apply shapes_next (acquires _ _) calm
  intro claim h calm
  split
  · apply shapes_next (noAgent_log _ _) calm
    intro entry h calm
    apply shapes_next (within_call (by simp [NoAgent, Agent])) calm
    intro workflowId h calm
    apply shapes_next (within_call (by simp [NoAgent, Agent])) calm
    exact fun _ h calm => shapes_runPipelineSteps _ _ _ _ _ calm
  · trivial

end

/-! ### Runs -/

/-- The loop around the language model may end with an exception. -/
def GivesUp (clause : PyException → Clause) (e : PyException) : Prop :=
  ∃ (r : Request) (maxRetries : Int) (outcome : Nat → Except PyException Json),
    ((llmCall clause r maxRetries).eval (answer outcome) ⟨0, 0⟩).1 = .error e

/-- It may with any exception: one attempt is made, and fails. -/
theorem givesUp (clause : PyException → Clause) (e : PyException) : GivesUp clause e := by
  refine ⟨⟨"", "", .nan, 0, .nan⟩, 0, fun _ => .error e, ?_⟩
  have spent : ((0 : Nat) : Int) + 1 > 0 := by decide
  rw [llmCall, eval_attempts]
  cases selected : clause e <;> simp [Except.bind, selected]

section
variable {s : Settings} {c c' : Pool} {trace : List RunEvent} {i : CallId} {payload : Json}
    {taskId : Nat} {e : PyException}

theorem Raised.unique {h : History} {taskId' : Nat} {e' : PyException} (raised : Raised h taskId e)
    (other : Raised h taskId' e') : taskId' = taskId ∧ e' = e := by
  obtain ⟨before, type, workflowId, payload, x, rfl, -, raises⟩ := raised
  obtain ⟨before', type', workflowId', payload', x', same, -, raises'⟩ := other
  obtain ⟨-, same⟩ := List.append_inj' same rfl
  simp only [List.cons.injEq, and_true] at same
  obtain ⟨created, rfl⟩ := same
  cases created
  exact ⟨rfl, Option.some.inj (raises'.symm.trans raises)⟩

/-- What a pipeline calls next once an agent has raised. -/
theorem run_fails {x : Interaction calls} {before : World}
    (run : Transition.Run (Step s) Pool.initial trace c) (role : i.role = .pipeline)
    (spawned : .spawn i (runCommitPipeline s payload) ∈ trace)
    (raised : Raised (c.threads i).past taskId e) (step : Step s c (.call i x before) c') :
    x.call = .session (.failTask taskId e.text) := by
  have once : ∀ w a q, ¬ (runtime s).again w i a q := by
    rintro w a q ⟨worker, -⟩
    rw [role] at worker
    contradiction
  have obeys := (Machine.run_thread (m := runtime s) (K := fun seen rest =>
    rest.Obeys shapesProtocol (fun _ _ _ => True) seen ())
    (Q := fun _ => True) (fun taken => taken) run spawned once (shapes_runCommitPipeline payload)
    (fun _ _ _ reply ready => ready.2 reply () trivial) fun _ _ _ => trivial).2
  cases step with
  | call awaiting performed =>
      rw [awaiting] at raised
      rcases (obeys _ _ awaiting).1 with calm | ⟨taskId', e', raised', same⟩
      · obtain ⟨before, type, workflowId, payload, x, split, agent, raises⟩ := raised.last
        have split : (_ : History) =
            (before ++ [⟨.session (.createTask type workflowId payload), .ok taskId⟩]) ++ [x] :=
          split.trans (by simp)
        rw [calm _ x split agent] at raises
        contradiction
      · obtain ⟨rfl, rfl⟩ := raised.unique raised'
        exact same

/-- A task that is failed has the text. -/
theorem failTask_row {now : Time} {db db' : Db} {text : String}
    (ran : (Transaction.failTask taskId text).run i now db = .ok ((), db')) :
    ∃ t, db'.tasks.find? taskId = some t ∧ t.row.status = .failed ∧ t.row.error = some text := by
  simp only [Transaction.run, Transaction.updateOne] at ran
  cases found : db.tasks.find? taskId with
  | none => simp [found, bind, Except.bind] at ran
  | some t =>
      simp only [found, bind, Except.bind, Except.ok.injEq] at ran
      obtain ⟨-, rfl⟩ := Prod.mk.inj ran
      refine ⟨{ t with row := t.row.fail now text }, ?_, rfl, rfl⟩
      have here : t.id = taskId := (Relational.Table.find?_mem found).2
      simp [Relational.Table.updateAt, Relational.Table.find?_update, found, here]

/-- The failure shapes of a summary account for a failure with that text: it is counted as what it
was, with all of its day. -/
def AccountsFor (metadata : Json) (host : Host) (cause : Clause) (text : String) : Prop :=
  Counted cause (classifyError text) ∧
    Lists metadata (classifyError text) (dayCount host host.world.clock (classifyError text))

/-- What a summary makes of a failed task of its 24 hours. -/
theorem accounts_iff {host host' : Host} {logDir : String}
    {script : List (Interaction serviceCalls)} {rest : Service Json}
    {content text : String} {metadata : Json} {reply : Except PyException Nat} {j : CallId}
    {t : Relational.Entry CallId Task} {cause : Clause}
    (plays : Plays (fun c h r h' => h.perform j c r h') (runDailySummary logDir) host script
      rest host')
    (written : ⟨.run (.session (.addMemory "daily_summary" content metadata)), reply⟩ ∈ script)
    (found : host.world.db.tasks.find? taskId = some t) (failed : t.row.status = .failed)
    (error : t.row.error = some text) (recent : OfLastDay host.world.clock t.row.createdAt) :
    (AccountsFor metadata host cause text ↔ Telling cause text ∧
      Room host host.world.clock 5 (classifyError text)) ∧
      (Room host host.world.clock 3 (classifyError text) →
        Names content (classifyError text)
        (dayCount host host.world.clock (classifyError text))) := by
  obtain ⟨stats, counts, gathered, rfl, rfl⟩ := gathered_of_plays plays written
  have member : text ∈ dayFailures host host.world.clock := by
    refine List.mem_filterMap.mpr ⟨(t.id, t.row),
      List.mem_filter.mpr ⟨List.mem_filter.mpr ⟨?_, ?_⟩, by simp [failed]⟩, error⟩
    · exact List.mem_map.mpr ⟨t, (Relational.Table.find?_mem found).1, rfl⟩
    · simp [recent.1, recent.2]
  constructor
  · have listed := listed_iff gathered (Nat.le_refl 5) member
    have all : stats.mostCommonFailureTypes.take 5 = stats.mostCommonFailureTypes := by
      rw [gathered.failures, mostCommon, List.take_take, Nat.min_self]
    rw [all] at listed
    rw [AccountsFor, lists_iff, counted_iff, listed]
  · intro room
    exact names_formatSummary ((listed_iff gathered (by decide) member).mpr room)

/-- A transaction that returned, or changed the database and then raised, was run to its end. -/
theorem step_committed {t : Transaction} {reply : Except PyException t.Reply} {before : World}
    (step : Step s c (.call i ⟨.session t, reply⟩ before) c')
    (committed : (∃ y, reply = .ok y) ∨ c'.world.db ≠ c.world.db) :
    ∃ y, t.run i c.world.clock c.world.db = .ok (y, c'.world.db) := by
  cases step with
  | call awaiting performed =>
      cases reply with
      | ok y =>
          obtain ⟨db, ran, rfl⟩ := performed
          exact ⟨y, ran⟩
      | error e =>
          rcases performed with rfl | ⟨y, db, ran, rfl⟩
          · rcases committed with ⟨y, same⟩ | changed
            · cases same
            · exact absurd rfl changed
          · exact ⟨y, ran⟩

/-- Once the language model has given up in a step of a pipeline, with whatever exception, the next
thing that the pipeline does is to fail the task of the step with the bare text of the exception. It
is counted as what it was exactly if that text says so; and the summaries written while the task is
of their 24 hours account for it exactly if they have room for its label besides. The text names the
first three labels. -/
theorem failures_counted {clause : PyException → Clause} {x : Interaction calls} {before : World}
    (run : Transition.Run (Step s) Pool.initial trace c) (role : i.role = .pipeline)
    (spawned : .spawn i (runCommitPipeline s payload) ∈ trace)
    (raised : Raised (c.threads i).past taskId e) (step : Step s c (.call i x before) c') :
    GivesUp clause e ∧ ∃ reply, x = ⟨.session (.failTask taskId e.text), reply⟩ ∧
      ((∃ y, reply = .ok y) ∨ c'.world.db ≠ c.world.db → ∃ t text,
      c'.world.db.tasks.find? taskId = some t ∧ t.row.status = .failed ∧ t.row.error = some text ∧
      (Counted (clause e) (classifyError text) ↔ Telling (clause e) e.text) ∧
      ∀ (j : CallId) (logDir : String) (host host' : Host) (script : List
        (Interaction serviceCalls)) (rest : Service Json)
        (content : String) (metadata : Json) (written : Except PyException Nat),
        Plays (fun c h r h' => h.perform j c r h') (runDailySummary logDir) host script rest host' →
        ⟨.run (.session (.addMemory "daily_summary" content metadata)), written⟩ ∈ script →
        host.world.db.tasks.find? taskId = some t → OfLastDay host.world.clock t.row.createdAt →
        (AccountsFor metadata host (clause e) text ↔
          Telling (clause e) e.text ∧ Room host host.world.clock 5 (classifyError e.text)) ∧
        (Room host host.world.clock 3 (classifyError e.text) →
          Names content (classifyError text)
          (dayCount host host.world.clock (classifyError text)))) := by
  have same := run_fails run role spawned raised step
  obtain ⟨call, reply⟩ := x
  cases same
  refine ⟨givesUp clause e, reply, rfl, ?_⟩
  intro committed
  obtain ⟨y, ran⟩ := step_committed step committed
  obtain ⟨t, found, failed, error⟩ := failTask_row ran
  refine ⟨t, e.text, found, failed, error, counted_iff _ _, ?_⟩
  intro j logDir host host' script rest content metadata written plays member there recent
  exact accounts_iff plays member there failed error recent

end

/-! ### A timeout without words -/

/-- What a pipeline does for the sample commit until its first agent raises. -/
def raiseScript (e : PyException) : List (Interaction calls) :=
  openingScript "4c1d" 0 1 1 ++ [⟨.summarize (.str "") (.str "") (.str "4c1d") (.str ""), .error e⟩]

/-- The pipeline of the sample commit. -/
def sampleCall : CallId := ⟨1, 1, .pipeline⟩

/-- The host an hour later. -/
def hourLater (w : World) : Host := ⟨{ w with clock := 3600 * second }, ⟨none, none⟩, []⟩

/-- A pipeline whose first agent raises, in a run from the beginning, and the step that fails its
task: the only one of its day. -/
theorem run_raises (name text : String) : ∃ trace c c',
    Transition.Run (Step (.defaults "/root")) Pool.initial trace c ∧
    .spawn sampleCall (runCommitPipeline (.defaults "/root") samplePayload) ∈ trace ∧
    Raised (c.threads sampleCall).past 1 ⟨.other name, text⟩ ∧
    Step (.defaults "/root") c (.call sampleCall ⟨.session (.failTask 1 text), .ok ()⟩ c.world) c' ∧
    c'.world.db.memory = .empty ∧ dayFailures (hourLater c'.world) (3600 * second) = [text] ∧
    ∀ t, c'.world.db.tasks.find? 1 = some t → t.row.createdAt = 0 := by
  have opening : Plays (perform sampleCall) ((Entry.commitPipeline samplePayload).program
    (.defaults "/root")) World.initial
      (openingScript "4c1d" 0 1 1) _ _ := (plays_attach rfl).trans (.call ⟨_, rfl, rfl⟩ (.stop _ _))
  obtain ⟨_, -, raised⟩ :=
    run_entry (run_start (.defaults "/root") (fun _ _ _ => True) Pool.initial) sampleCall
    (.commitPipeline samplePayload) (raiseScript ⟨.other name, text⟩)
    (opening.trans (.call rfl (.stop _ _))) rfl rfl rfl (fun _ => trivial) fun _ _ _ _ _ => trivial
  refine ⟨_, _, _, raised.unguard, List.mem_cons_self, ?_, .call rfl ⟨_, rfl, rfl⟩, rfl, rfl, ?_⟩
  · exact ⟨attachScript "4c1d" 0 1, "summarize", 1, _,
      ⟨.summarize (.str "") (.str "") (.str "4c1d") (.str ""), _⟩, rfl,
      trivial, rfl⟩
  · intro t found
    cases found
    rfl

/-- A library whose timeouts are of one class. -/
def timeouts (e : PyException) : Clause := if e.kind = .other "TimeoutError" then .timeout
      else .none

theorem classify_saidTimeout : classifyError "timed out" = "timeout" := by
  rw [classifyError_timeout]
  right
  decide +kernel

/-- The exception of a timeout that says so. The summary of the day accounts for it. -/
theorem failures_counted_said : ∃ (c' : Pool) (t : Relational.Entry CallId Task) (text : String),
    c'.world.db.tasks.find? 1 = some t ∧ t.row.status = .failed ∧ t.row.error = some text ∧
    (Counted .timeout (classifyError text) ↔ Telling .timeout "timed out") ∧
    ∃ content metadata, AccountsFor metadata (hourLater c'.world) .timeout text ∧
      Names content (classifyError text)
      (dayCount (hourLater c'.world) (3600 * second) (classifyError text)) := by
  obtain ⟨trace, c, c', run, spawned, raised, step, memory, day, first⟩ :=
    run_raises "TimeoutError" "timed out"
  obtain ⟨(_ : GivesUp timeouts _), reply, same, stored⟩ :=
    failures_counted run rfl spawned raised step
  cases same
  obtain ⟨t, text, found, failed, error, counted, summaries⟩ := stored (.inl ⟨(), rfl⟩)
  refine ⟨c', t, text, found, failed, error, counted, ?_⟩
  obtain ⟨script, rest, host', content, metadata, plays, written⟩ :=
    @plays_summary (hourLater c'.world) ⟨1, 2, .visitor⟩ "logs" (by simp [Query.run, hourLater,
      memory, Query.rows, Relational.Table.empty])
  obtain ⟨accounts, names⟩ := summaries ⟨1, 2, .visitor⟩ "logs" (hourLater c'.world) host' script
    rest content metadata _ plays written found
    (by rw [first t found]; simp [OfLastDay, hourLater, second])
  refine ⟨content, metadata, accounts.mpr ⟨?_, room_single day (by decide)⟩,
    names (room_single day (by decide))⟩
  exact (classifyError_timeout "timed out").mp classify_saidTimeout

theorem classifyError_empty : classifyError "" = "other" := by
  have lower : ("" : String).toLower = "" := String.map_eq_empty.mpr rfl
  simp [classifyError, lower, contains]

/-- The exception of a time limit has no text. -/
theorem timeout_other : GivesUp timeouts ⟨.other "TimeoutError", ""⟩ ∧
    timeouts ⟨.other "TimeoutError", ""⟩ = .timeout ∧ ∃ trace c c', Transition.Run
    (Step (.defaults "/root")) Pool.initial trace c ∧
      Raised (c.threads sampleCall).past 1 ⟨.other "TimeoutError", ""⟩ ∧
      Step (.defaults "/root") c (.call sampleCall ⟨.session (.failTask 1 ""), .ok ()⟩ c.world) c' ∧
      ∃ t text, c'.world.db.tasks.find? 1 = some t ∧ t.row.status = .failed ∧ t.row.error =
        some text ∧
        classifyError text = "other" ∧ ¬ Counted .timeout (classifyError text) := by
  refine ⟨givesUp _ _, rfl, ?_⟩
  obtain ⟨trace, c, c', run, spawned, raised, step, -⟩ := run_raises "TimeoutError" ""
  refine ⟨trace, c, c', run, raised, step, ?_⟩
  obtain ⟨y, ran⟩ := step_committed step (.inl ⟨(), rfl⟩)
  obtain ⟨t, found, failed, error⟩ := failTask_row ran
  exact ⟨t, "", found, failed, error, classifyError_empty, by simp [Counted, classifyError_empty]⟩

end WiseOrder.CommitPipeline
