import WiseOrder.Orchestrator.Main
import WiseOrder.Runtime.Protocol
import WiseOrder.Foundation.Script

/-! The program as a pool of its calls over one database and one Redis: pipelines
of any number of processes, orchestrators coming up, workers, requests to the API
and operators, with time passing and processes dying between any two calls. -/
namespace WiseOrder
open Coroutine

inductive Entry where
  | commitPipeline (payload : Json)
  | demoRequest (payload : Json)
  | start (numWorkers : Nat)
  | worker
  | enqueue (job : Job) (queue : QueueName)
  | decide (approvalId : Int) (decision : String)
  | release (repo sha : Json)

namespace Entry

def role : Entry → Role
  | .commitPipeline _ | .demoRequest _ => .pipeline
  | .start _ => .starter
  | .worker => .worker
  | .enqueue .. | .decide .. => .visitor
  | .release .. => .operator

def program (s : Settings) : Entry → Async Returned
  | .commitPipeline payload => CommitPipeline.runCommitPipeline s payload
  | .demoRequest payload => DemoForge.runDemoForgeRequest s payload
  | .start numWorkers => Orchestrator.start s numWorkers
  | .worker => Orchestrator.workerPass Orchestrator.registered
  | .enqueue job queue => do
      RedisQueue.enqueue job queue
      return .nothing
  | .decide approvalId decision => do
      let _ ← ApprovalGateway.decide approvalId decision
      return .nothing
  | .release repo sha => do
      Dedup.release repo sha
      return .nothing

end Entry

abbrev Pool := Config CallId World calls Returned

abbrev RunEvent := Event CallId World calls Returned

/-- A new call has a new id, under which there are no rows yet. -/
def spawns (s : Settings) (c : Pool) (i : CallId) (p : Async Returned) : Prop :=
  c.world.db.own i = OwnRows.none ∧ ∃ entry : Entry, entry.role = i.role ∧ p = entry.program s

/-- The clock goes forward, or an orchestrator is told to stop. -/
def drifts (w w' : World) : Prop :=
  (∃ t, w.clock ≤ t ∧ w' = { w with clock := t }) ∨
    ∃ process, w' = { w with stopping := Function.update w.stopping process true }

/-- A process dies with all its calls. -/
def crashes (w : World) (dead : CallId → Prop) (w' : World) : Prop :=
  ∃ process, (∀ i, dead i ↔ i.process = process) ∧
    w' = { w with serving := Function.update w.serving process false }

def runtime (s : Settings) : Machine CallId World calls Returned where
  spawn := spawns s
  perform := perform
  again := fun _ i r p => i.role = .worker ∧ r = .again ∧
    p = Orchestrator.workerPass Orchestrator.registered
  drift := drifts
  crash := crashes

abbrev Step (s : Settings) : Pool → RunEvent → Pool → Prop := (runtime s).Step

def Pool.initial : Pool := ⟨World.initial, fun _ => .absent⟩

/-- The rows of a call, as it sees them. -/
def view (i : CallId) (w : World) : OwnRows := w.db.own i

/-- A pool whose calls act on the world as the program's do, with time and crashes as there. -/
structure Hosted {α : Type} (m : Machine CallId World calls α) : Prop where
  performs : m.perform = perform
  drifts : m.drift = drifts
  crashes : m.crash = crashes

/-- What comes back of a transaction that has committed: its reply, unless that is lost. -/
def Acknowledged {t : Transaction} (x : t.Reply) (reply : Except PyException t.Reply) : Prop :=
  ∀ y, reply = .ok y → y = x

/-- A step changes the database by one transaction, or not at all. -/
theorem Hosted.ran {α : Type} {m : Machine CallId World calls α}
    {c c' : Config CallId World calls α} {e : Event CallId World calls α}
    (hosted : Hosted m) (step : m.Step c e c') :
    (c'.world.db = c.world.db ∧ ∀ (i : CallId) (t : Transaction) (x : t.Reply) (w : World),
      e ≠ .call i ⟨.session t, .ok x⟩ w) ∨
      ∃ (i : CallId) (t : Transaction) (x : t.Reply) (reply : Except PyException t.Reply),
        e = .call i ⟨.session t, reply⟩ c.world ∧ Acknowledged x reply ∧
          t.run i c.world.clock c.world.db = .ok (x, c'.world.db) := by
  cases step with
  | spawn | again => exact .inl ⟨rfl, by simp⟩
  | drift moved =>
      rw [hosted.drifts] at moved
      rcases moved with ⟨t, -, rfl⟩ | ⟨process, rfl⟩ <;> exact .inl ⟨rfl, by simp⟩
  | crash fell =>
      rw [hosted.crashes] at fell
      obtain ⟨process, -, rfl⟩ := fell
      exact .inl ⟨rfl, by simp⟩
  | @call i seen call onReply reply world awaiting performed =>
      rw [hosted.performs] at performed
      cases call with
      | session t =>
          cases reply with
          | error e =>
              rcases performed with rfl | ⟨x, db, ran, rfl⟩
              · refine .inl ⟨rfl, fun j t' x w same => ?_⟩
                cases same
              · refine .inr ⟨i, t, x, .error e, rfl, fun y same => ?_, ran⟩
                cases same
          | ok x =>
              obtain ⟨db, ran, rfl⟩ := performed
              exact .inr ⟨i, t, x, .ok x, rfl, fun y same => (Except.ok.inj same).symm, ran⟩
      | _ => exact .inl ⟨(perform_frame performed).db fun t => by simp, by simp⟩

/-- What a call does to the caller's own rows, if its transactions do there as `commit` says. -/
theorem perform_own {i : CallId} {call : Call} {w w' : World}
    {reply : Except PyException call.Reply} (performed : perform i call w reply w')
    (commits : ∀ (t : Transaction) (x : t.Reply) db, call = .session t →
      t.run i w.clock w.db = .ok (x, db) → t.New (view i w) x ∧ db.own i = t.commit w.clock
      (view i w) x) :
    ownEffect call (view i w) reply (view i w') := by
  cases call with
  | session t =>
      cases reply with
      | error e =>
          rcases performed with rfl | ⟨x, db, ran, rfl⟩
          · exact .inl rfl
          · exact .inr ⟨x, w.clock, commits t x db rfl ran⟩
      | ok x =>
          obtain ⟨db, ran, rfl⟩ := performed
          exact ⟨w.clock, commits t x db rfl ran⟩
  | now =>
      cases reply with
      | ok x =>
          obtain ⟨-, rfl⟩ := performed
          rfl
      | error e => exact performed.elim
  | _ =>
      have same := (perform_frame performed).db fun t => by simp
      cases reply <;> exact congrArg (fun db => Db.own db i) same

section
variable {s : Settings} {condition : Pool → RunEvent → Pool → Prop}
    {start : Pool} {past : List RunEvent}
  {w w' : World} {threads : CallId → Thread calls Returned} {seen : List (Interaction calls)}
  {p p' : Async Returned}

theorem run_start (s : Settings) (condition : Pool → RunEvent → Pool → Prop) (c : Pool) :
    Transition.Run (Transition.Guarded (Step s) condition) c [] c := .refl c

/-- A call is made and goes through a script. -/
theorem run_entry
    (earlier : Transition.Run (Transition.Guarded (Step s) condition) start past ⟨w, threads⟩)
    (i : CallId) (entry : Entry) (script : List (Interaction calls))
    (plays : Plays (perform i) (entry.program s) w script p' w')
    (role : entry.role = i.role) (unused : threads i = .absent) (rows : w.db.own i = OwnRows.none)
    (starts : ∀ c', condition ⟨w, threads⟩ (.spawn i (entry.program s)) c')
    (admitted : ∀ c x before c', x ∈ script → condition c (.call i x before) c') :
    ∃ events, Machine.Playing i script events ∧
      Transition.Run (Transition.Guarded (Step s) condition) start
      (past ++ .spawn i (entry.program s) :: events)
        ⟨w', Function.update threads i (.active script p')⟩ :=
  Machine.run_spawned earlier unused ⟨rows, entry, role, rfl⟩ plays starts admitted

/-- From where a run has led, a call goes on through a script. -/
theorem run_on (_ : Transition.Run (Transition.Guarded (Step s) condition) start past ⟨w, threads⟩)
    (i : CallId) (active : threads i = .active seen p) (script : List (Interaction calls))
    (plays : Plays (perform i) p w script p' w')
    (admitted : ∀ c x before c', x ∈ script → condition c (.call i x before) c') :
    ∃ events, Machine.Playing i script events ∧
      Transition.Run (Transition.Guarded (Step s) condition) ⟨w, threads⟩ events
        ⟨w', Function.update threads i (.active (seen ++ script) p')⟩ :=
  Machine.run_plays (.refl _) active plays admitted

/-- A call is made. -/
theorem run_spawn
    (earlier : Transition.Run (Transition.Guarded (Step s) condition) start past ⟨w, threads⟩)
    (i : CallId) (entry : Entry) (role : entry.role = i.role) (unused : threads i = .absent)
    (rows : w.db.own i = OwnRows.none)
    (admitted : ∀ c', condition ⟨w, threads⟩ (.spawn i (entry.program s)) c') :
    Transition.Run (Transition.Guarded (Step s) condition) start
    (past ++ [.spawn i (entry.program s)])
      ⟨w, Function.update threads i (.active [] (entry.program s))⟩ :=
  earlier.next ⟨.spawn unused ⟨rows, entry, role, rfl⟩, admitted _⟩

/-- One awaited call is answered. -/
theorem run_call
    (earlier : Transition.Run (Transition.Guarded (Step s) condition) start past ⟨w, threads⟩)
    (i : CallId) (x : Interaction calls)
    {onReply : Except PyException (calls.Reply x.call) → Async Returned}
    (active : threads i = .active seen (.await x.call onReply))
    (performed : perform i x.call w x.reply w')
    (admitted : ∀ c', condition ⟨w, threads⟩ (.call i x w) c') :
    Transition.Run (Transition.Guarded (Step s) condition) start (past ++ [.call i x w])
      ⟨w', Function.update threads i (.active (seen ++ [x]) (onReply x.reply))⟩ :=
  earlier.next ⟨.call active performed, admitted _⟩

/-- From where a run has led, a process dies. -/
theorem step_dies {c : Pool}
    (_ : Transition.Run (Transition.Guarded (Step s) condition) start past c) (process : Nat) :
    Step s c (.crash fun i => i.process = process)
      ⟨{ c.world with serving := Function.update c.world.serving process false },
        fun i => if i.process = process then (c.threads i).kill else c.threads i⟩ :=
  .crash ⟨process, fun _ => Iff.rfl, rfl⟩ (fun _ dies => if_pos dies) fun _ spared => if_neg spared

/-- From where a step has led, time passes. -/
theorem run_waits {c : Pool} {e : RunEvent} (_ : Step s c e ⟨w, threads⟩)
    (t : Time) (later : w.clock ≤ t) (admitted : ∀ c c', condition c .drift c') :
    Transition.Run (Transition.Guarded (Step s) condition)
      ⟨w, threads⟩ [.drift] ⟨{ w with clock := t }, threads⟩ :=
  .single ⟨.drift (.inl ⟨t, later, rfl⟩), admitted _ _⟩

/-- From where a run has led, time passes. -/
theorem run_idles
    (_ : Transition.Run (Transition.Guarded (Step s) condition) start past ⟨w, threads⟩) (t : Time)
    (later : w.clock ≤ t) (admitted : ∀ c c', condition c .drift c') :
    Transition.Run (Transition.Guarded (Step s) condition)
      ⟨w, threads⟩ [.drift] ⟨{ w with clock := t }, threads⟩ :=
  .single ⟨.drift (.inl ⟨t, later, rfl⟩), admitted _ _⟩

end

/-! ### The pipeline of a commit -/

/-- A job's payload for a commit. -/
def payloadOf (sha : String) : Json := .obj [("repo", .str "/srv/app"), ("sha", .str sha)]

def samplePayload : Json := payloadOf "4c1d"

/-- The slot of the commit. -/
def slotOf (sha : String) : String := Dedup.key (.str "/srv/app") (.str sha)

theorem slots_differ : slotOf "4c1d" ≠ slotOf "9f02" := by
  decide +kernel

def startedEntry (sha : String) (now : Time) : LogEntry :=
  ⟨now, "workflow_started", .obj [("repo", .str "/srv/app"), ("sha", .str sha)]⟩

/-- A pipeline claims the commit and inserts its workflow. -/
def claimScript (sha : String) (now : Time) (id : Nat) : List (Interaction calls) :=
  [⟨.redis (.setNx (slotOf sha) Dedup.pending 3600), .ok true⟩, ⟨.now, .ok now⟩,
    ⟨.session (.addWorkflow "commit_pipeline" CommitPipeline.taskChain [startedEntry sha now]),
      .ok id⟩]

/-- It attaches the workflow to its claim. -/
def attachScript (sha : String) (now : Time) (id : Nat) : List (Interaction calls) :=
  claimScript sha now id ++ [⟨.redis (.setEx (slotOf sha) (toString id) 3600), .ok ()⟩]

/-- It inserts the task of its first step. -/
def openingScript (sha : String) (now : Time) (id taskId : Nat) : List (Interaction calls) :=
  attachScript sha now id ++
    [⟨.session (.createTask "summarize" id (.obj [("sha", .str sha), ("repo", .str "/srv/app")])),
      .ok taskId⟩]

/-- The world when the pipeline has inserted its workflow. -/
def World.claimed (w : World) (i : CallId) (sha : String) : World :=
  { w with
    redis := w.redis.set (slotOf sha) Dedup.pending (w.clock + 3600 * second)
    db := { w.db with
      workflows := w.db.workflows.insert i
        (Transaction.newWorkflow w.clock "commit_pipeline" CommitPipeline.taskChain
          [startedEntry sha w.clock]) } }

/-- The world when the pipeline has attached its workflow. -/
def World.attached (w : World) (i : CallId) (sha : String) : World :=
  { w.claimed i sha with
    redis := (w.claimed i sha).redis.set (slotOf sha) (toString w.db.workflows.next)
      (w.clock + 3600 * second) }

/-- A pipeline wins the slot of its commit. -/
def wonScript (repo sha : Json) : List (Interaction calls) :=
  [⟨.redis (.setNx (Dedup.key repo sha) Dedup.pending 3600), .ok true⟩]

/-- A pipeline finds the slot taken, and reads what is in it. -/
def refusedScript (repo sha : Json) (value : String) : List (Interaction calls) :=
  [⟨.redis (.setNx (Dedup.key repo sha) Dedup.pending 3600), .ok false⟩,
    ⟨.redis (.get (Dedup.key repo sha)), .ok (some value)⟩]

theorem plays_won {root : String} {repo sha : Json} {i : CallId} {w : World}
    (free : w.redis.live w.clock (Dedup.key repo sha) = none) :
    Plays (perform i)
      ((Entry.commitPipeline (.obj [("repo", repo), ("sha", sha)])).program (.defaults root)) w
      (wonScript repo sha)
      (CommitPipeline.runClaimed (.defaults root) repo sha (.str "") (.str "") (.str ""))
      { w with
        redis := w.redis.set (Dedup.key repo sha) Dedup.pending
          (w.clock + 3600 * second) } := by
  have wins : RedisCommand.run w.clock (.setNx (Dedup.key repo sha) Dedup.pending 3600) w.redis =
      .ok (true, w.redis.set (Dedup.key repo sha) Dedup.pending (w.clock + 3600 * second)) :=
    RedisCommand.setNx_free free (by decide)
  exact .call ⟨_, wins, rfl⟩ (.stop _ _)

theorem plays_refused {root value : String} {repo sha : Json} {i : CallId} {w : World}
    (held : w.redis.live w.clock (Dedup.key repo sha) = some value) :
    Plays (perform i)
      ((Entry.commitPipeline (.obj [("repo", repo), ("sha", sha)])).program (.defaults root)) w
      (refusedScript repo sha value) (.done (.ok (CommitPipeline.skip ⟨false, some value⟩))) w := by
  have refuses : RedisCommand.run w.clock (.setNx (Dedup.key repo sha) Dedup.pending 3600) w.redis =
      .ok (false, w.redis) := RedisCommand.setNx_taken held (by decide)
  exact .call ⟨_, refuses, rfl⟩
    (.call ⟨_, congrArg (fun x => Except.ok (x, _)) held, rfl⟩ (.stop _ _))

/-- The steps of the pipeline. -/
def stepsOf (root sha : String) (id : Nat) : Async Returned :=
  CommitPipeline.runPipelineSteps (.defaults root) id (.str "/srv/app") (.str sha)
    (.str "") (.str "") (.str "")

theorem plays_claim {root sha : String} {i : CallId} {w : World}
    (free : w.redis.live w.clock (slotOf sha) = none) :
    Plays (perform i) ((Entry.commitPipeline (payloadOf sha)).program (.defaults root)) w
      (claimScript sha w.clock w.db.workflows.next)
      (do Dedup.attachWorkflowId (.defaults root) (.str "/srv/app") (.str sha) w.db.workflows.next
          stepsOf root sha w.db.workflows.next)
      (w.claimed i sha) := by
  have claims : RedisCommand.run w.clock (.setNx (slotOf sha) Dedup.pending 3600) w.redis =
      .ok (true, w.redis.set (slotOf sha) Dedup.pending (w.clock + 3600 * second)) :=
    RedisCommand.setNx_free free (by decide)
  exact .call ⟨_, claims, rfl⟩ (.call ⟨rfl, rfl⟩ (.call ⟨_, rfl, rfl⟩ (.stop _ _)))

theorem plays_attach {root sha : String} {i : CallId} {w : World}
    (free : w.redis.live w.clock (slotOf sha) = none) :
    Plays (perform i) ((Entry.commitPipeline (payloadOf sha)).program (.defaults root)) w
      (attachScript sha w.clock w.db.workflows.next) (stepsOf root sha w.db.workflows.next)
      (w.attached i sha) :=
  (plays_claim free).trans (.call ⟨_, rfl, rfl⟩ (.stop _ _))

def anyEnd : Post calls OwnRows Returned := fun _ _ _ => True

end WiseOrder
