import WiseOrder.Workflows.CommitProgress

/-! The steps of a commit pipeline under the protocol: each goes on from one phase
to the next, or halts with its task and the workflow failed, or is stuck because
the exception met no `except` clause. -/
namespace WiseOrder.CommitPipeline
open Coroutine Coroutine.Program Relational
variable {s : Settings} {repo sha : Json} {id n taskId : Nat} {type label : String} {h : History}
    {v : OwnRows}
  {e : PyException} {α : Type}

/-- The embedding id is written once the vector store has the commit. Where that raises it may be
there or not. -/
def Embedded (sha : Json) (h : History) (m : Memory) : Prop :=
  (m.embeddingId = if h.upserted ∧ ¬ h.unembedded then some (embeddingId sha) else none) ∨
    h.upserted = true ∧ h.unembedded = true ∧ m.embeddingId = some (embeddingId sha)

/-- The memory row and its embedding id, present once the save step is done. -/
def Stored (sha : Json) (n : Nat) (h : History) (v : OwnRows) : Prop :=
  if n < 3 then v.memory = [] ∧ h.upserted = false ∧ h.unembedded = false
  else ∃ memoryId m, v.memory = [(memoryId, m)] ∧ Embedded sha h m

/-- Between steps, with `n` of them done. -/
structure Phase (repo sha : Json) (id n : Nat) (h : History) (v : OwnRows) : Prop where
  smooth : h.Smooth
  row : RowIs repo sha id .running (eventsDone n) v
  tasks : kinds v.tasks = tasksDone n
  home : ∀ t ∈ v.tasks, t.2.workflowId = some id
  sends : h.sends = if n < 4 then 0 else 1
  created : h.created = n
  approvals : n < 4 → v.approvals = []
  stored : Stored sha n h v

/-- Inside step `n`, with its task created. -/
structure Entered (repo sha : Json) (id n taskId : Nat) (type : String)
    (h : History) (v : OwnRows) : Prop where
  smooth : h.Smooth
  row : RowIs repo sha id .running (eventsDone n) v
  task : TaskIs n id taskId type .running v
  sends : h.sends = 0
  created : h.created = n + 1
  approvals : v.approvals = []
  stored : Stored sha n h v

/-- Inside step `n`: the task, and the log so far. -/
structure Inside (repo sha : Json) (id n taskId : Nat) (type : String)
    (status : Status) (events : List String) (k : Nat) (h : History) (v : OwnRows) : Prop where
  smooth : h.Smooth
  row : RowIs repo sha id .running events v
  task : TaskIs n id taskId type status v
  sends : h.sends = k
  created : h.created = n + 1

/-- What is left when the body of step `n` raises. -/
structure Thrown (repo sha : Json) (id n taskId : Nat) (type : String) (k : Nat) (h : History)
    (v : OwnRows) (e : PyException) : Prop where
  raised : h.Raised e
  row : ∃ events, RowIs repo sha id .running events v
  task : ∃ status, TaskIs n id taskId type status v
  sends : h.sends = k
  created : h.created = n + 1

/-- The step and the workflow were marked failed. -/
structure Failed (repo sha : Json) (id n k : Nat) (h : History) (v : OwnRows) (e : PyException) :
    Prop where
  row : ∃ events, RowIs repo sha id .failed (events ++ ["workflow_failed"]) v
  tasks : ∃ type, taskChain[n]? = some type ∧ kinds v.tasks = tasksDone n ++ [(type, .failed)]
  caught : e.isException = true
  history : ∃ before taskId text, History.Raised before e ∧ before.created = n + 1 ∧
    h = before ++ [⟨.session (.failTask taskId e.text), .ok ()⟩] ++
      [⟨.session (.failWorkflow id "workflow_failed" text), .ok ()⟩]
  sends : h.sends = k

/-- The last call raised what nothing handled. The workflow still runs, unless that call was to
finish it and did. -/
structure Stuck (repo sha : Json) (id : Nat) (h : History) (v : OwnRows) (e : PyException) :
    Prop where
  history : ∃ c, h.LastFault c e ∧ (¬ c.Handled ∨ e.isException = false) ∧
    ∃ status events, RowIs repo sha id status events v ∧
      (status = .running ∨ c.Finishes ∧ (status = .completed ∨ status = .failed) ∧ v.Quiet)

def Halted (repo sha : Json) (id n k : Nat) (h : History) (v : OwnRows) (e : PyException) : Prop :=
  Failed repo sha id n k h v e ∨ Stuck repo sha id h v e

theorem tasksDone_succ (name : taskChain[n]? = some type) :
    tasksDone (n + 1) = tasksDone n ++ [(type, .completed)] := by
  simp [tasksDone, List.take_add_one, name]

theorem tasksDone_quiet (tasks : kinds v.tasks = tasksDone n) : v.Quiet := by
  intro task member running
  have kind : (task.2.type, task.2.status) ∈ kinds v.tasks := List.mem_map.mpr ⟨task, member, rfl⟩
  rw [tasks, running] at kind
  obtain ⟨type, -, same⟩ := List.mem_map.mp kind
  cases same

theorem Stored.same (stored : Stored sha n h v) (memory : v'.memory = v.memory)
    (upserted : History.upserted h' = h.upserted)
    (unembedded : History.unembedded h' = h.unembedded) : Stored sha n h' v' := by
  unfold Stored Embedded at stored ⊢
  rw [memory, upserted, unembedded]
  exact stored

/-- An exception that nothing handles leaves the workflow running. -/
theorem stuck_running {events : List String} (row : RowIs repo sha id .running events v) {c : Call}
    (unhandled : ¬ c.Handled ∨ e.isException = false) (last : h.LastFault c e) :
    Stuck repo sha id h v e :=
  ⟨c, last, unhandled, .running, events, row, .inl rfl⟩

/-- So does a transaction that is not to finish it, whether it was rolled back or not. -/
theorem stuck_session {t : Transaction} {events : List String}
    (row : RowIs repo sha id .running events v) (unhandled : ¬ (Call.session t).Handled)
    (unanswered : t.Unanswered v v') (same : ∀ x now, (t.commit now v x).workflows = v.workflows) :
    Stuck repo sha id (h ++ [⟨.session t, .error e⟩]) v' e := by
  have row : RowIs repo sha id .running events v' := ⟨(unanswered.workflows same) ▸ row.row⟩
  exact stuck_running row (.inl unhandled) History.lastFault_error

/-- A transaction that is to finish it has finished it, or has left it running. -/
theorem stuck_finish {t : Transaction} {events : List String} {status : Status}
    (row : RowIs repo sha id .running events v) (finishes : (Call.session t).Finishes)
    (ends : status = .completed ∨ status = .failed) (unanswered : t.Unanswered v v')
    (finished : ∀ x now, (∃ events, RowIs repo sha id status events (t.commit now v x)) ∧
      (t.commit now v x).Quiet) :
    Stuck repo sha id (h ++ [⟨.session t, .error e⟩]) v' e := by
  have unhandled : ¬ (Call.session t).Handled := by
    cases t <;> first | exact finishes.elim | exact fun handled => handled
  rcases unanswered with rfl | ⟨x, now, -, rfl⟩
  · exact stuck_running row (.inl unhandled) History.lastFault_error
  · obtain ⟨⟨events, row⟩, quiet⟩ := finished x now
    exact ⟨_, History.lastFault_error, .inl unhandled, status, events, row,
      .inr ⟨finishes, ends, quiet⟩⟩

/-- The `except` clause of a step: the task fails, then the workflow, and the
exception goes on; an exception in the clause itself leaves the workflow running. -/
theorem obeys_except (thrown : Thrown repo sha id n taskId type k h v e)
    (caught : e.isException = true) (name : taskChain[n]? = some type) {post : Post calls OwnRows α}
    (halts : ∀ e h v, Halted repo sha id n k h v e → post (.error e) h v) :
    (do failTask taskId e.text
        failWorkflow id (label ++ " failed: " ++ e.text)
        raise e : Async α).Obeys (pipelineProtocol s) post h v := by
  obtain ⟨events, row⟩ := thrown.row
  obtain ⟨status, task⟩ := thrown.task
  apply obeys_bind_iff.mpr
  apply obeys_session
  · exact task.holds
  · intro x now _
    have task : TaskIs n id taskId type .failed (Transaction.commit now v (.failTask taskId e.text)
      x) := task.fail x
    have row : RowIs repo sha id .running events (Transaction.commit now v (.failTask taskId e.text)
      x) := ⟨row.row⟩
    apply obeys_bind_iff.mpr
    apply obeys_session
    · exact ⟨row.running, task.quiet (by decide)⟩
    · intro y later _
      have row := row.finish .failed later (by decide)
        ⟨later, "workflow_failed", .obj [("error", .str (label ++ " failed: " ++ e.text))]⟩
      refine halts _ _ _ (.inl ⟨⟨events, row⟩, ⟨type, name, task.kinds⟩, caught,
        ⟨h, taskId, _, thrown.raised, thrown.created, rfl⟩, ?_⟩)
      simpa [Call.isSend] using thrown.sends
    · intro e' v' unanswered
      refine halts _ _ _ (.inr (stuck_finish row trivial (.inr rfl) unanswered fun y later => ?_))
      exact ⟨⟨_, row.finish .failed later (by decide) _⟩, task.quiet (by decide)⟩
  · intro e' v' unanswered
    exact halts _ _ _ (.inr (stuck_session row (fun handled => handled) unanswered fun _ _ => rfl))

/-- The rule for an exception that is swallowed: what the body leaves then must do
for a return as well. -/
theorem obeys_swallow {body : Async α} {d : α} {good : History → OwnRows → Prop}
    {bad : PyException → History → OwnRows → Prop}
    (runs : body.Obeys (pipelineProtocol s) (ending (fun _ => good) fun e h v =>
      good h v ∧ bad e h v) h v) :
    (tryExcept body fun _ => return d).Obeys (pipelineProtocol s)
    (ending (fun _ => good) bad) h v := by
  apply obeys_tryExcept runs
  · exact fun a h v holds => holds
  · exact fun e h v _ holds => holds.1
  · exact fun e h v _ holds => holds.2

/-- The rule for a step: what holds when its body returns holds of the step, and
whatever its body raises halts the pipeline. -/
theorem obeys_step {body : Nat → Async α} {payload : Json} {done : α → History → OwnRows → Prop}
    (phase : Phase repo sha id n h v) (name : taskChain[n]? = some type) (early : n < 4)
    (runs : ∀ taskId h v, Entered repo sha id n taskId type h v →
      (body taskId).Obeys (pipelineProtocol s)
        (ending done fun e h v => Thrown repo sha id n taskId type k h v e) h v) :
    (do let taskId ← createTask type id payload
        orFail taskId id label (body taskId)).Obeys (pipelineProtocol s)
      (ending done fun e h v => Halted repo sha id n k h v e) h v := by
  apply obeys_bind_iff.mpr
  apply obeys_session
  · exact phase.row.running
  · intro taskId now new
    have entered : Entered repo sha id n taskId type
        (h ++ [⟨.session (.createTask type id payload), .ok taskId⟩])
        (Transaction.commit now v (.createTask type id payload) taskId) := {
      smooth := phase.smooth.ok
      row := ⟨phase.row.row⟩
      task := ⟨v.tasks, _, rfl, new, phase.tasks, rfl, rfl, rfl, phase.home⟩
      sends := by simpa [Call.isSend, early] using phase.sends
      created := by simp [History.isCreated, phase.created]
      approvals := phase.approvals early
      stored := phase.stored.same rfl (by simp [History.isUpserted])
        (by simp [History.isUnembedded]) }
    apply obeys_tryExcept (runs taskId _ _ entered)
    · exact fun a h v holds => holds
    · exact fun e h v caught thrown => obeys_except thrown caught name fun _ _ _ halted => halted
    · intro e h v uncaught thrown
      obtain ⟨c, last⟩ := thrown.raised.last uncaught
      obtain ⟨events, row⟩ := thrown.row
      exact .inr (stuck_running row (.inr uncaught) last)
  · intro e v' unanswered
    exact .inr (stuck_session phase.row (fun handled => handled) unanswered fun _ _ => rfl)

/-! ### Inside a step -/

section
variable {status : Status} {events : List String} {k : Nat}

theorem Entered.inside (entered : Entered repo sha id n taskId type h v) :
    Inside repo sha id n taskId type .running (eventsDone n) 0 h v :=
  ⟨entered.smooth, entered.row, entered.task, entered.sends, entered.created⟩

theorem Inside.throw (inside : Inside repo sha id n taskId type status events k h v) {c : Call}
    (handled : c.Handled) (plain : c.isSend = false) :
    Thrown repo sha id n taskId type k (h ++ [⟨c, .error e⟩]) v e where
  raised := History.raised_fault handled
  row := ⟨_, inside.row⟩
  task := ⟨_, inside.task⟩
  sends := by simp [plain, inside.sends]
  created := by simp [History.isCreated, inside.created]

/-- A transaction of the step that raises leaves the workflow running, and a task. -/
theorem Inside.unanswered (inside : Inside repo sha id n taskId type status events k h v)
    {t : Transaction} (handled : (Call.session t).Handled) (plain : (Call.session t).isSend = false)
    (unanswered : t.Unanswered v v')
    (row : ∀ x now, ∃ events, RowIs repo sha id .running events (t.commit now v x))
    (task : ∀ x now, ∃ status, TaskIs n id taskId type status (t.commit now v x)) :
    Thrown repo sha id n taskId type k (h ++ [⟨.session t, .error e⟩]) v' e := by
  refine ⟨History.raised_fault handled, ?_,
    ?_, by simp [plain, inside.sends], by simp [History.isCreated, inside.created]⟩
  all_goals rcases unanswered with rfl | ⟨x, now, -, rfl⟩
  · exact ⟨_, inside.row⟩
  · exact row x now
  · exact ⟨_, inside.task⟩
  · exact task x now

/-- Code of a step that raises without a call. -/
theorem Inside.raise (inside : Inside repo sha id n taskId type status events k h v)
    (caught : e.isException = true) : Thrown repo sha id n taskId type k h v e :=
  ⟨inside.smooth.raise caught, ⟨_, inside.row⟩, ⟨_, inside.task⟩, inside.sends, inside.created⟩

theorem Inside.reply (inside : Inside repo sha id n taskId type status events k h v)
    {c : Call} {x : calls.Reply c} (plain : c.isSend = false)
    (other : History.isCreated ⟨c, .ok x⟩ = false) :
    Inside repo sha id n taskId type status events k (h ++ [⟨c, .ok x⟩]) v :=
  ⟨inside.smooth.ok, inside.row, inside.task, by simp [plain, inside.sends],
    by simp [other, inside.created]⟩

theorem Inside.swallow (inside : Inside repo sha id n taskId type status events k h v) {c : Call}
    (swallowed : c.Swallowed) (plain : c.isSend = false) :
    Inside repo sha id n taskId type status events k (h ++ [⟨c, .error e⟩]) v :=
  ⟨inside.smooth.swallowed swallowed, inside.row, inside.task, by simp [plain, inside.sends],
    by simp [History.isCreated, inside.created]⟩

theorem Inside.rows (inside : Inside repo sha id n taskId type status events k h v)
    (workflows : v'.workflows = v.workflows) (tasks : v'.tasks = v.tasks) :
    Inside repo sha id n taskId type status events k h v' :=
  ⟨inside.smooth, ⟨workflows ▸ inside.row.row⟩, ⟨tasks ▸ inside.task.last⟩,
    inside.sends, inside.created⟩

/-- The approvals, the memory and the vector index are as they were. -/
structure Kept (h : History) (v : OwnRows) (h' : History) (v' : OwnRows) : Prop where
  approvals : v'.approvals = v.approvals
  memory : v'.memory = v.memory
  upserted : h'.upserted = h.upserted
  unembedded : h'.unembedded = h.unembedded

/-- A part of a step goes on inside the step, or raises. -/
def goesOn (repo sha : Json) (id n taskId : Nat) (type : String) (status : Status)
    (events : List String) (k : Nat) (h : History) (v : OwnRows) : Post calls OwnRows α :=
  ending (fun _ h' v' => Inside repo sha id n taskId type status events k h' v' ∧ Kept h v h' v')
    fun e h' v' => Thrown repo sha id n taskId type k h' v' e

theorem obeys_completeTask (inside : Inside repo sha id n taskId type status events k h v)
    (result : Json) : (completeTask taskId result).Obeys (pipelineProtocol s)
      (goesOn repo sha id n taskId type .completed events k h v) h v := by
  apply obeys_session
  · exact inside.task.holds
  · intro x now _
    exact ⟨⟨inside.smooth.ok, ⟨inside.row.row⟩,
      inside.task.complete x, by simp [Call.isSend, inside.sends],
      by simp [History.isCreated, inside.created]⟩,
      ⟨rfl, rfl, by simp [History.isUpserted], by simp [History.isUnembedded]⟩⟩
  · intro e v' unanswered
    exact inside.unanswered trivial rfl unanswered (fun _ _ => ⟨_, ⟨inside.row.row⟩⟩) fun x _ =>
      ⟨_, inside.task.complete x⟩

theorem obeys_log (inside : Inside repo sha id n taskId type status events k h v)
    (event : String) (data : Json) (a : α) :
    (do let entry ← logEntry event data
        appendLog id entry
        return a : Async α).Obeys (pipelineProtocol s)
      (ending (fun b h' v' => b = a ∧
          Inside repo sha id n taskId type status (events ++ [event]) k h' v' ∧ Kept h v h' v')
        fun e h' v' => Thrown repo sha id n taskId type k h' v' e) h v := by
  apply obeys_bind_iff.mpr
  apply obeys_bind_iff.mpr
  apply obeys_utcnow trivial
  intro now
  have inside := inside.reply (c := .now) (x := now) rfl rfl
  apply obeys_bind_iff.mpr
  apply obeys_session
  · exact inside.row.running
  · intro x later _
    exact ⟨rfl, ⟨inside.smooth.ok, inside.row.log x,
      ⟨inside.task.last⟩, by simpa [Call.isSend] using inside.sends,
      by simpa [History.isCreated] using inside.created⟩,
      ⟨rfl, rfl, by simp [History.isUpserted], by simp [History.isUnembedded]⟩⟩
  · intro e v' unanswered
    exact inside.unanswered trivial rfl unanswered (fun x _ => ⟨_, inside.row.log x⟩) fun _ _ =>
      ⟨_, ⟨inside.task.last⟩⟩

theorem Kept.trans (first : Kept h v h' v') (second : Kept h' v' h'' v'') : Kept h v h'' v'' :=
  ⟨second.approvals.trans first.approvals, second.memory.trans first.memory,
    second.upserted.trans first.upserted, second.unembedded.trans first.unembedded⟩

/-- The task is completed, then the step is logged. -/
theorem obeys_closing (inside : Inside repo sha id n taskId type status events k h v)
    (result : Json) (event : String) (data : Json) (a : α) :
    (do completeTask taskId result
        let entry ← logEntry event data
        appendLog id entry
        return a : Async α).Obeys (pipelineProtocol s)
      (ending (fun b h' v' => b = a ∧
          Inside repo sha id n taskId type .completed (events ++ [event]) k h' v' ∧ Kept h v h' v')
        fun e h' v' => Thrown repo sha id n taskId type k h' v' e) h v := by
  apply obeys_bind (obeys_completeTask inside result)
  · rintro - h' v' ⟨inside, kept⟩
    apply (obeys_log inside event data a).mono
    intro r h'' v'' logged
    cases r with
    | ok b => exact ⟨logged.1, logged.2.1, kept.trans logged.2.2⟩
    | error e => exact logged
  · exact fun e h v thrown => thrown

end

/-- A step that has completed its task leads to the next phase. -/
theorem Inside.phase
    (inside : Inside repo sha id n taskId type .completed (eventsDone (n + 1)) k h v)
    (name : taskChain[n]? = some type) (sends : k = if n + 1 < 4 then 0 else 1)
    (approvals : n + 1 < 4 → v.approvals = []) (stored : Stored sha (n + 1) h v) :
    Phase repo sha id (n + 1) h v where
  smooth := inside.smooth
  row := inside.row
  tasks := by rw [inside.task.kinds, tasksDone_succ name]
  home := inside.task.home
  sends := inside.sends.trans sends
  created := inside.created
  approvals := approvals
  stored := stored

/-- A step that asks someone outside and writes the answer down. -/
theorem obeys_consult {c : Call} (entered : Entered repo sha id n taskId type h v)
    (name : taskChain[n]? = some type) (early : n + 1 < 3) (outside : c.Outside)
    (allowed : ∀ h v, pipelineAllowed s h c v) (handled : c.Handled) (plain : c.isSend = false)
    (indexed : ∀ reply, History.isUpserted ⟨c, reply⟩ = false ∧
      History.isUnembedded ⟨c, reply⟩ = false ∧
      History.isCreated ⟨c, reply⟩ = false)
    (result data : c.Reply → Json) (event : String)
    (logged : eventsDone (n + 1) = eventsDone n ++ [event]) :
    (do let a ← await c
        completeTask taskId (result a)
        let entry ← logEntry event (data a)
        appendLog id entry
        return a : Async c.Reply).Obeys (pipelineProtocol s)
      (ending (fun _ => Phase repo sha id (n + 1)) fun e h v =>
        Thrown repo sha id n taskId type 0 h v e) h v := by
  apply obeys_bind_iff.mpr
  refine obeys_await outside (allowed h v) fun reply => ?_
  obtain ⟨noUpsert, noEmbed, noCreate⟩ := indexed reply
  cases reply with
  | error e => exact entered.inside.throw handled plain
  | ok a =>
      have stored : Stored sha (n + 1) (h ++ [⟨c, .ok a⟩]) v := by
        have stored : Stored sha n (h ++ [⟨c, .ok a⟩]) v :=
          entered.stored.same rfl (by simp [noUpsert]) (by simp [noEmbed])
        unfold Stored at stored ⊢
        rwa [if_pos (by omega)] at stored ⊢
      apply (obeys_closing (entered.inside.reply plain noCreate) (result a) event (data a) a).mono
      intro r h v closed
      cases r with
      | error e => exact closed
      | ok a =>
          obtain ⟨-, inside, kept⟩ := closed
          rw [← logged] at inside
          exact inside.phase name (if_pos (by omega)).symm (fun _ =>
            kept.approvals.trans entered.approvals)
            (stored.same kept.memory kept.upserted kept.unembedded)

end WiseOrder.CommitPipeline
