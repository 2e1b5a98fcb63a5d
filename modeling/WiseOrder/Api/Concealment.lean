import WiseOrder.Api.Gate
import WiseOrder.Foundation.Eval

/-! What a request without the token tells of the state on a remote bind. The endpoints
that ask for the token refuse, and of the others most read the database or the list of
failed jobs; two hosts that differ there alone are told apart by them. -/
namespace WiseOrder.Api
open Coroutine Coroutine.Program Relational
variable {fw : Framework} {s : ServerSettings} {r : Request} {a b host : Host} {α : Type}

/-! ### Surroundings -/

/-- What the host itself does not decide: who calls, which of its services is down, and what the
others reply. -/
structure Outside where
  caller : CallId
  down : ServiceCall → Option PyException
  reply : (c : ServiceCall) → Except PyException c.Reply

namespace Outside

def committed (host : Host) : Except PyException (α × Db) → Except PyException α × Host
  | .ok (x, db) => (.ok x, { host with world := { host.world with db := db } })
  | .error e => (.error e, host)

def executed (host : Host) : Except PyException (α × Redis) → Except PyException α × Host
  | .ok (x, redis) => (.ok x, { host with world := { host.world with redis := redis } })
  | .error e => (.error e, host)

/-- What a service that is not down answers. -/
def reached (out : Outside) : Answers serviceCalls Host
  | .select q, host => (q.run host.world.db, host)
  | .run .now, host => (.ok host.world.clock, host)
  | .run (.session t), host => committed host (t.run out.caller host.world.clock host.world.db)
  | .run (.redis c), host => executed host (c.run host.world.clock host.world.redis)
  | .watchers, host => (.ok host.watchers, host)
  | .appendSummary line, host => (.ok (), { host with summaryFile := host.summaryFile ++ [line] })
  | c, host => (out.reply c, host)

def answer (out : Outside) : Answers serviceCalls Host := fun c host =>
  match out.down c with
  | some e => (.error e, host)
  | none => out.reached c host

end Outside

/-- The response to a request. -/
def response (fw : Framework) (s : ServerSettings) (r : Request) (out : Outside) (host : Host) :
    Except PyException Response :=
  ((serve fw s r).eval out.answer host).1

/-- The hosts differ only in approvals, tasks, workflows, memory and the failed jobs. -/
def Alike (a b : Host) : Prop := ∃ db failed, b = { a with world := { a.world with
  db := db, redis :=
    { a.world.redis with lists := Function.update a.world.redis.lists .failed failed } } }

/-- The response tells nothing of what is protected. -/
def Concealed (fw : Framework) (s : ServerSettings) (r : Request) : Prop :=
  ∀ out a b, Alike a b → response fw s r out a = response fw s r out b

/-! ### Calls -/

/-- A call that is answered alike where hosts are. -/
def Blind (c : ServiceCall) : Prop :=
  ∀ (out : Outside) a b, Alike a b → (out.answer c a).1 = (out.answer c b).1 ∧
    Alike (out.answer c a).2 (out.answer c b).2

/-- A call that a host answers alike when nothing is down. -/
theorem blind_reached {c : ServiceCall}
    (same : ∀ (out : Outside) a b, Alike a b →
      (out.reached c a).1 = (out.reached c b).1 ∧ Alike (out.reached c a).2 (out.reached c b).2) :
    Blind c := by
  intro out a b alike
  unfold Outside.answer
  split
  · exact ⟨rfl, alike⟩
  · exact same out a b alike

theorem blind_select {q : Query} (same : ∀ db db', q.run db = q.run db') : Blind (.select q) :=
  blind_reached fun _ _ _ alike => ⟨same _ _, alike⟩

theorem answer_down {out : Outside} {c : ServiceCall} {e : PyException}
    (down : out.down c = some e) : out.answer c host = (.error e, host) := by
  simp only [Outside.answer, down]

theorem answer_up {out : Outside} {c : ServiceCall} (up : out.down c = none) :
    out.answer c host = out.reached c host := by
  simp only [Outside.answer, up]

/-- A query is answered by the host, or is not answered. -/
theorem perform_select {i : CallId} {q : Query} :
    host.perform i (.select q) (q.run host.world.db) host := by
  generalize ran : q.run host.world.db = reply
  cases reply with
  | ok x => exact ⟨ran, rfl⟩
  | error e => rfl

theorem executed_performed {i : CallId} (command : RedisCommand) :
    host.perform i (.run (.redis command))
    (Outside.executed host (command.run host.world.clock host.world.redis)).1
      (Outside.executed host (command.run host.world.clock host.world.redis)).2 := by
  cases ran : command.run host.world.clock host.world.redis with
  | ok x => exact ⟨_, ⟨x.2, ran, rfl⟩, rfl⟩
  | error e => exact ⟨_, .inl rfl, rfl⟩

/-- What a request without the token calls is answered as in a run of the server. -/
theorem reached_performed {out : Outside} {c : ServiceCall} (reads : Reads c) :
    host.perform out.caller c (out.reached c host).1 (out.reached c host).2 := by
  cases c with
  | select q => exact perform_select
  | watchers => exact ⟨rfl, rfl⟩
  | run c =>
      cases c with
      | redis command =>
          cases command with
          | llen | lrange => exact executed_performed _
          | _ => exact reads.elim
      | now => exact ⟨_, ⟨rfl, rfl⟩, rfl⟩
      | dbPing | redisPing | isFile => exact ⟨host.world, rfl, rfl⟩
      | _ => exact reads.elim
  | vectorQuery | vectorCount | readLogTail => rfl
  | makeLogDir | appendSummary => exact reads.elim

/-- Ends alike where hosts are. -/
def Silent (m : Service α) : Prop := ∀ (out : Outside) a b, Alike a b →
    (m.eval out.answer a).1 = (m.eval out.answer b).1

theorem silent_within {m : Service α} (within : m.Within Blind) : Silent m :=
  fun out _ _ alike => (eval_related within (fun _ blind _ _ => blind out _ _) alike).1

theorem silent_done (result : Except PyException α) : Silent (.done result : Service α) :=
  fun _ _ _ _ => rfl

theorem silent_validated {x : Option α} {handler : α → Service Response}
    (silent : ∀ y, x = some y → Silent (handler y)) : Silent (validated x handler) := by
  cases x with
  | none => exact silent_done _
  | some y => exact silent y rfl

theorem silent_select {q : Query} {f : q.Reply → Service α} (same : ∀ db db', q.run db = q.run db')
    (rest : ∀ x, (f x).Within Blind) : Silent (Service.select q >>= f) :=
  silent_within (within_bind (within_call (blind_select same)) rest)

/-- What the server makes of how a handler ends. -/
def outcome : Except PyException Response → Except PyException Response
  | .ok x => .ok x
  | .error e => if e.isException then .ok .serverError else .error e

theorem eval_served {m : Service Response} {out : Outside} :
    ((Service.tryExcept m fun _ => return .serverError).eval out.answer host).1 = outcome
    (m.eval out.answer host).1 := by
  refine (congrArg Prod.fst (eval_andThen m _)).trans ?_
  cases (m.eval out.answer host).1 with
  | ok x => rfl
  | error e =>
      unfold outcome
      dsimp only
      split <;> rfl

/-! ### What is told -/

/-- A status that a row can have, or none to select by. -/
def Selects : Option String → Prop
  | none => True
  | some text => text = "" ∨ ∃ status : Status, status.text = text

/-- A limit that the database takes and that lets rows through. -/
def Limits (limit : Int) : Prop := 0 < limit ∧ isInt64 limit = true

/-- The parameters with which an endpoint shows what is there. -/
def Endpoint.Shows (fw : Framework) (params : List (String × String)) (r : Request) :
    Endpoint → Prop
  | .listTasks | .listWorkflows =>
      (∃ limit, r.intQuery fw "limit" 50 = some limit ∧ Limits limit) ∧ Selects (r.param "status")
  | .getWorkflow => ∃ id, Request.intPath fw params "wf_id" = some id ∧ 0 ≤ id ∧ isInt64 id = true
  | .listApprovals => (∃ pending, r.boolQuery fw "pending" false = some pending) ∧
      ∃ limit, r.intQuery fw "limit" 50 = some limit ∧ Limits limit
  | .latestDailySummary | .stats => True
  | .memoryRecent => ∃ limit, r.intQuery fw "limit" 20 = some limit ∧ Limits limit
  | .logsRecent => ∃ limit, r.intQuery fw "limit" 100 = some limit ∧ -200 < limit ∧ limit ≠ 0
  | .queuesFailed => ∃ limit, r.intQuery fw "limit" 50 = some limit ∧ RedisQueue.Bounded limit
  | _ => False

/-- The request is routed to an endpoint that shows what is there. -/
def Shows (fw : Framework) (r : Request) : Prop := ∃ route params, routed fw r =
      some (route, params) ∧ route.endpoint.Shows fw params r

/-- The dashboard page and the health probes. -/
def Endpoint.probe : Endpoint → Bool
  | .dashboard | .health | .ready => true
  | _ => false

/-! ### Endpoints that show nothing -/

theorem newest_none {ρ : Type} {limit : Int} (none : ¬ Limits limit) (rows rows' : Rows ρ) :
    Query.newest limit rows = Query.newest limit rows' := by
  unfold Query.newest
  split
  · rfl
  · split
    · rfl
    · rename_i taken _
      have nonpositive : ¬ 0 < limit := fun positive => none ⟨positive, by simpa using taken⟩
      have zero : limit.toNat = 0 := by omega
      rw [zero, List.take_zero, List.take_zero]

theorem ofStatus_unknown {ρ : Type} {status : Option String} (unknown : ¬ Selects status)
    (f : ρ → Status) (rows : Rows ρ) : Query.ofStatus status f rows = [] := by
  unfold Query.ofStatus
  split
  · exact absurd trivial unknown
  · exact absurd (.inl rfl) unknown
  · rename_i text _
    rw [List.filter_eq_nil_iff]
    intro row _ same
    exact unknown (.inr ⟨f row.2, by simpa using same⟩)

theorem silent_tasks {status : Option String} {limit : Int}
    (hidden : ¬ (Limits limit ∧ Selects status)) : Silent (listTasks status limit) := by
  refine silent_select (fun db db' => ?_) fun _ => trivial
  by_cases known : Selects status
  · exact newest_none (fun shown => hidden ⟨shown, known⟩) _ _
  · simp only [Query.run, ofStatus_unknown known]
    rfl

theorem silent_workflows {status : Option String} {limit : Int}
    (hidden : ¬ (Limits limit ∧ Selects status)) : Silent (listWorkflows status limit) := by
  refine silent_select (fun db db' => ?_) fun _ => trivial
  by_cases known : Selects status
  · exact newest_none (fun shown => hidden ⟨shown, known⟩) _ _
  · simp only [Query.run, ofStatus_unknown known]
    rfl

theorem silent_workflow {id : Int} (hidden : ¬ (0 ≤ id ∧ isInt64 id = true)) :
    Silent (getWorkflow id) := by
  refine silent_select (fun db db' => ?_) fun found => by cases found <;> trivial
  cases bound : isInt64 id with
  | false => simp only [Query.run, bound, Bool.false_eq_true, if_false]
  | true =>
      have none (rows : Rows Workflow) : rows.find? (fun r => Int.ofNat r.1 = id) = none := by
        rw [List.find?_eq_none]
        intro row _ same
        have same : Int.ofNat row.1 = id := by simpa using same
        have natural : 0 ≤ Int.ofNat row.1 := Int.natCast_nonneg _
        exact hidden ⟨same ▸ natural, bound⟩
      simp only [Query.run, none, Option.map_none]

theorem silent_approvals {pending : Bool} {limit : Int} (hidden : ¬ Limits limit) :
    Silent (listApprovals pending limit) :=
  silent_select (fun _ _ => newest_none hidden _ _) fun _ => trivial

theorem silent_memories {limit : Int} (hidden : ¬ Limits limit) : Silent (memoryRecent limit) :=
  silent_select (fun _ _ => newest_none hidden _ _) fun _ => trivial

/-- All that 20 workflows can bring up is cut away, or nothing is asked for. -/
theorem recentEntries_none {limit : Int} (hidden : limit ≤ -200 ∨ limit = 0) {rows : Rows Workflow}
    (few : rows.length ≤ 20) : recentEntries limit rows = [] := by
  have each : ∀ rows : Rows Workflow,
      (rows.flatMap fun r => (Python.lastOnes 10 r.2.logs).map fun entry => (r.1, entry)).length ≤
          10 * rows.length := by
    intro rows
    induction rows with
    | nil => simp
    | cons row rows ih =>
        have here : (Python.lastOnes 10 row.2.logs).length ≤ 10 := by
          rw [Python.lastOnes, List.length_drop]
          omega
        rw [List.flatMap_cons, List.length_append, List.length_map, List.length_cons]
        omega
  have bound := each rows
  simp only [recentEntries, Python.upTo]
  split
  · rw [List.take_eq_nil_iff, List.length_mergeSort]
    left
    omega
  · have zero : limit.toNat = 0 := by omega
    rw [zero, List.take_zero]

theorem silent_logs {limit : Int} (hidden : limit ≤ -200 ∨ limit = 0) :
    Silent (logsRecent limit) := by
  have shown (out : Outside) (host : Host) : ((logsRecent limit).eval out.answer host).1 =
      match out.down (.select (.workflows none 20)) with
      | some e => .error e
      | none => .ok (reply (.arr [])) := by
    cases down : out.down (.select (.workflows none 20)) with
    | some e =>
        have raises : (Service.select (.workflows none 20)).eval out.answer host =
          (.error e, host) := answer_down down
        exact congrArg Prod.fst (eval_bind_error raises)
    | none =>
        have returns : (Service.select (.workflows none 20)).eval out.answer host =
            (.ok ((Query.rows host.world.db.workflows).reverse.take 20), host) := answer_up down
        refine (congrArg Prod.fst (eval_bind_ok returns)).trans ?_
        have few : ((Query.rows host.world.db.workflows).reverse.take 20).length ≤ 20 :=
          List.length_take_le _ _
        simp [recentEntries_none hidden few]
  intro out a b _
  rw [shown, shown]

/-- Redis refuses the index before it looks at the list. -/
theorem silent_failed {limit : Int} (hidden : ¬ RedisQueue.Bounded limit) :
    Silent (queuesFailed limit) := by
  have blind : Blind (.run (.redis (.lrange .failed 0 (limit - 1)))) := by
    refine blind_reached fun out a b alike => ?_
    simp only [Outside.reached, RedisQueue.lrange_unbounded hidden, Outside.executed]
    exact ⟨trivial, alike⟩
  refine silent_within (within_bind ⟨blind, fun reply => ?_⟩ fun _ => trivial)
  cases reply with
  | error e => trivial
  | ok items =>
      have ends (result : Except PyException (List Job)) : (Service.run
          (Program.ofExcept result)).Within Blind := by
        cases result <;> trivial
      exact ends (List.mapM Job.fromJson items)

theorem silent_search {q : String} {n : Int} : Silent (memorySearch q n) :=
  silent_within (within_bind (within_call (blind_reached fun _ _ _ alike => ⟨rfl, alike⟩)) fun _ =>
    trivial)

theorem silent_watchers : Silent watchersStatus := by
  refine silent_within (within_bind (within_call (blind_reached fun out a b alike => ⟨?_, alike⟩))
    fun _ => trivial)
  obtain ⟨db, failed, rfl⟩ := alike
  rfl

/-- An open endpoint ends alike unless its parameters make it show what is there. -/
theorem silent_handle {e : Endpoint} {params : List (String × String)} (unprobed : e.probe = false)
    (open_ : e.changes = false) (hidden : ¬ e.Shows fw params r) :
    Silent (handle fw s params r e) := by
  cases e with
  | dashboard | health | ready => contradiction
  | decideApproval | runSummaryNow | trigger => contradiction
  | latestDailySummary | stats => exact absurd trivial hidden
  | listTasks =>
      exact silent_validated fun limit read => silent_tasks fun shown =>
        hidden ⟨⟨limit, read, shown.1⟩, shown.2⟩
  | listWorkflows =>
      exact silent_validated fun limit read => silent_workflows fun shown =>
        hidden ⟨⟨limit, read, shown.1⟩, shown.2⟩
  | getWorkflow =>
      exact silent_validated fun id read => silent_workflow fun shown => hidden ⟨id, read, shown⟩
  | listApprovals =>
      exact silent_validated fun pending asked => silent_validated fun limit read =>
        silent_approvals fun shown => hidden ⟨⟨pending, asked⟩, limit, read, shown⟩
  | memoryRecent =>
      exact silent_validated fun limit read => silent_memories fun shown =>
        hidden ⟨limit, read, shown⟩
  | logsRecent =>
      refine silent_validated fun limit read => silent_logs ?_
      by_contra shown
      exact hidden ⟨limit, read, by omega⟩
  | queuesFailed =>
      exact silent_validated fun limit read => silent_failed fun shown =>
        hidden ⟨limit, read, shown⟩
  | memorySearch => exact silent_validated fun q _ => silent_validated fun n _ => silent_search
  | watchersStatus => exact silent_watchers

/-! ### Endpoints that show what is there -/

/-- Everything that the host does not answer is out of order. -/
def plainOutside : Outside := ⟨⟨1, 1, .visitor⟩, fun _ => none, fun _ => .error (.runtimeError "")⟩

def hostOf (db : Db) (failed : List String) : Host where
  world := { World.initial with db := db, redis := ⟨fun _ => none,
    Function.update (fun _ => []) .failed failed⟩ }
  watchers := ⟨none, none⟩
  summaryFile := []

theorem alike_hosts (db db' : Db) (failed failed' : List String) :
    Alike (hostOf db failed) (hostOf db' failed') := by
  refine ⟨db', failed', ?_⟩
  simp [hostOf]

/-- A handler that ends otherwise on two hosts that differ in what is protected. -/
def Telling (m : Service Response) : Prop := ∃ db db' failed failed',
  outcome (m.eval plainOutside.answer (hostOf db failed)).1 ≠
    outcome (m.eval plainOutside.answer (hostOf db' failed')).1

/-- A list of rows that is empty in one database and not in another. -/
theorem telling_rows {ρ : Type} (q : Query) (f : q.Reply → List ρ) {db : Db}
    {g : ρ → Json} {x y : q.Reply}
    (empty : q.run .empty = .ok x) (none : f x = []) (full : q.run db = .ok y) (some : f y ≠ []) :
    Telling (do
      let rows ← Service.select q
      return reply (.arr ((f rows).map g))) := by
  refine ⟨.empty, db, [], [], ?_⟩
  have replies (db : Db) {z : q.Reply} (ran : q.run db = .ok z) : ((do
      let rows ← Service.select q
      return reply (.arr ((f rows).map g)) : Service Response).eval
        plainOutside.answer (hostOf db [])).1 =
        .ok (reply (.arr ((f z).map g))) := by
    have returns : (Service.select q).eval plainOutside.answer (hostOf db []) =
        (.ok z, hostOf db []) :=
      congrArg (fun reply => (reply, hostOf db [])) ran
    exact congrArg Prod.fst (eval_bind_ok returns)
  rw [replies .empty empty, replies db full, none]
  intro same
  have same : ([] : List ρ).map g = (f y).map g := by simpa [outcome, reply] using same
  exact some (List.map_eq_nil_iff.mp same.symm)

theorem newest_all {ρ : Type} {limit : Int} {rows : Rows ρ} (asked : Limits limit)
    (short : rows.length ≤ 1) : Query.newest limit rows = .ok rows := by
  obtain ⟨positive, bound⟩ := asked
  have some : 1 ≤ limit.toNat := by omega
  rw [Query.newest, bound, Bool.not_true, if_neg Bool.false_ne_true, if_neg (by omega),
    List.take_of_length_le (by rw [List.length_reverse]; omega)]
  match rows, short with
  | [], _ | [_], _ => rfl

theorem ofStatus_one {ρ : Type} {status : Option String} (selects : Selects status)
    (f : ρ → Status) : ∃ st, ∀ id row, f row = st → Query.ofStatus status f [(id, row)] =
    [(id, row)] := by
  cases status with
  | none => exact ⟨.running, fun _ _ _ => rfl⟩
  | some text =>
      rcases selects with rfl | ⟨st, rfl⟩
      · exact ⟨.running, fun _ _ _ => rfl⟩
      · refine ⟨st, fun id row same => ?_⟩
        unfold Query.ofStatus
        split
        · rfl
        · rfl
        · rename_i text named
          cases Option.some.inj named
          simp [same]

theorem ofStatus_nil {ρ : Type} (status : Option String) (f : ρ → Status) :
    Query.ofStatus status f [] = [] := by
  unfold Query.ofStatus
  split <;> rfl

/-- Rows of the kinds that the endpoints show. -/
def someTask (status : Status) : Task :=
  ⟨"summarize", status, .null, none, none, none, 0, none, none⟩

def someWorkflow (status : Status) : Workflow :=
  ⟨"commit_pipeline", [], status, List.replicate 10 ⟨0, "log", .null⟩, 0, none⟩

def someApproval : Approval := ⟨none, none, "", .null, [], "low", none, none, 0, none⟩

def someMemory : Memory := ⟨"daily_summary", "", none, .null, 0⟩

def someCall : CallId := ⟨1, 1, .pipeline⟩

def dbTask (status : Status) : Db :=
  { Db.empty with tasks := Table.empty.insert someCall (someTask status) }

def dbWorkflow (status : Status) : Db :=
  { Db.empty with workflows := Table.empty.insert someCall (someWorkflow status) }

theorem telling_tasks {status : Option String} {limit : Int} (asked : Limits limit)
    (selects : Selects status) : Telling (listTasks status limit) := by
  obtain ⟨st, selected⟩ := ofStatus_one selects Task.status
  have empty : (Query.tasks status limit).run .empty = .ok ([] : Rows Task) :=
    (congrArg (Query.newest limit) (ofStatus_nil status Task.status)).trans
      (newest_all asked (by simp))
  have full : (Query.tasks status limit).run (dbTask st) = .ok ([(1, someTask st)] : Rows Task) :=
    (congrArg (Query.newest limit) (selected 1 (someTask st) rfl)).trans
      (newest_all asked (by simp))
  exact telling_rows (.tasks status limit) (fun rows => rows) empty rfl full (List.cons_ne_nil _ _)

theorem telling_workflows {status : Option String} {limit : Int} (asked : Limits limit)
    (selects : Selects status) : Telling (listWorkflows status limit) := by
  obtain ⟨st, selected⟩ := ofStatus_one selects Workflow.status
  have empty : (Query.workflows status limit).run .empty = .ok ([] : Rows Workflow) :=
    (congrArg (Query.newest limit) (ofStatus_nil status Workflow.status)).trans
      (newest_all asked (by simp))
  have full : (Query.workflows status limit).run (dbWorkflow st) =
      .ok ([(1, someWorkflow st)] : Rows Workflow) :=
    (congrArg (Query.newest limit) (selected 1 (someWorkflow st) rfl)).trans
      (newest_all asked (by simp))
  exact telling_rows (.workflows status limit)
    (fun rows => rows) empty rfl full (List.cons_ne_nil _ _)

theorem telling_approvals (pending : Bool) {limit : Int} (asked : Limits limit) :
    Telling (listApprovals pending limit) := by
  have empty : (Query.approvals pending limit).run .empty = .ok ([] : Rows Approval) :=
    newest_all asked (by simp [Query.rows, Db.empty, Table.empty])
  have full : (Query.approvals pending limit).run
    { Db.empty with approvals := Table.empty.insert someCall someApproval } =
      .ok ([(1, someApproval)] : Rows Approval) := by
    refine (congrArg (Query.newest limit) ?_).trans (newest_all asked (by simp))
    simp [Query.rows, Table.insert, Table.empty, someApproval]
  exact telling_rows (.approvals pending limit)
    (fun rows => rows) empty rfl full (List.cons_ne_nil _ _)

theorem telling_memories {limit : Int} (asked : Limits limit) : Telling (memoryRecent limit) := by
  have empty : (Query.memories limit).run .empty = .ok ([] : Rows Memory) :=
    newest_all asked (by simp [Query.rows, Db.empty, Table.empty])
  have full : (Query.memories limit).run
    { Db.empty with memory := Table.empty.insert someCall someMemory } =
      .ok ([(1, someMemory)] : Rows Memory) :=
        newest_all asked (by simp [Query.rows, Table.insert, Table.empty])
  exact telling_rows (.memories limit) (fun rows => rows) empty rfl full (List.cons_ne_nil _ _)

/-- As many workflows as the log endpoint looks at, each with as many entries. -/
def manyWorkflows : Table CallId Workflow where
  entries := (List.range 20).map fun id => ⟨id, someCall, someWorkflow .running⟩
  next := 20
  increasing := by decide
  below := by decide

theorem telling_logs {limit : Int} (asked : -200 < limit) (some : limit ≠ 0) :
    Telling (logsRecent limit) := by
  have empty : (Query.workflows none 20).run .empty = .ok ([] : Rows Workflow) := rfl
  have full : (Query.workflows none 20).run { Db.empty with workflows := manyWorkflows } =
      .ok ((List.range 20).reverse.map fun id => (id, someWorkflow .running) : Rows Workflow) := rfl
  refine telling_rows (.workflows none 20) (recentEntries limit) empty ?_ full ?_
  · simp [recentEntries, Python.upTo]
  · have length : (((List.range 20).reverse.map fun id =>
      (id, someWorkflow .running) : Rows Workflow).flatMap fun r =>
        (Python.lastOnes 10 r.2.logs).map fun entry => (r.1, entry)).length = 200 := by rfl
    intro none
    have none := congrArg List.length none
    simp only [recentEntries, Python.upTo] at none
    split at none
    · rw [List.length_take, List.length_mergeSort, length, List.length_nil] at none
      omega
    · rw [List.length_take, List.length_mergeSort, length, List.length_nil] at none
      omega

/-- One workflow under this id. -/
def oneWorkflow (id : Nat) : Table CallId Workflow where
  entries := [⟨id, someCall, someWorkflow .running⟩]
  next := id + 1
  increasing := List.pairwise_singleton _ _
  below := by simp

theorem telling_workflow {id : Int} (natural : 0 ≤ id) (bound : isInt64 id = true) :
    Telling (getWorkflow id) := by
  obtain ⟨n, rfl⟩ := Int.eq_ofNat_of_zero_le natural
  refine ⟨.empty, { Db.empty with workflows := oneWorkflow n }, [], [], ?_⟩
  have full : (Query.workflow n).run { Db.empty with workflows := oneWorkflow n } =
      .ok (some ((n, someWorkflow .running), [])) :=
    (if_pos bound).trans (by simp [Query.rows, oneWorkflow, Db.empty, Table.empty])
  have returns : (Service.select (.workflow n)).eval plainOutside.answer
    (hostOf { Db.empty with workflows := oneWorkflow n } []) =
      (.ok (some ((n, someWorkflow .running), [])),
          hostOf { Db.empty with workflows := oneWorkflow n } []) :=
    congrArg (fun reply => (reply, hostOf { Db.empty with workflows := oneWorkflow n } [])) full
  have found : ((getWorkflow n).eval plainOutside.answer
      (hostOf { Db.empty with workflows := oneWorkflow n } [])).1 = .ok (reply _) :=
    congrArg Prod.fst (eval_bind_ok returns)
  have none : (Query.workflow n).run .empty = .ok none := if_pos bound
  have absent : (Service.select (.workflow n)).eval plainOutside.answer (hostOf .empty []) =
      (.ok .none, hostOf .empty []) :=
    congrArg (fun reply => (reply, hostOf .empty [])) none
  have missing : ((getWorkflow n).eval plainOutside.answer (hostOf .empty [])).1 =
      .ok (raised ⟨404, "workflow not found"⟩) :=
    congrArg Prod.fst (eval_bind_ok absent)
  rw [found, missing]
  simp [outcome, reply, raised]

theorem telling_latest : Telling latestDailySummary := by
  refine ⟨.empty, { Db.empty with memory := Table.empty.insert someCall someMemory }, [], [], ?_⟩
  have missing : (latestDailySummary.eval plainOutside.answer (hostOf .empty [])).1 =
      .ok (reply (.obj [("available", .bool false), ("reason", .str "no_summary_yet")])) := rfl
  have found : (latestDailySummary.eval plainOutside.answer
      (hostOf { Db.empty with memory := Table.empty.insert someCall someMemory } [])).1 =
      .ok (reply (.obj [("available", .bool true), ("id", .int 1), ("date", .null),
        ("summary", .str ""), ("stats", .null),
        ("created_at", .str (Python.isoformat 0))])) := rfl
  rw [found, missing]
  simp [outcome, reply]

theorem telling_stats : Telling stats := by
  refine ⟨.empty, dbTask .running, [], [], ?_⟩
  have counted (db : Db) : (stats.eval plainOutside.answer (hostOf db [])).1 = .ok (reply (.obj [
      ("tasks", .obj ((countBy (fun t => t.2.status) (Query.rows db.tasks)).map fun entry =>
        (entry.1.text, .int (Int.ofNat entry.2)))),
      ("workflows", .obj ((countBy (fun w => w.2.status) (Query.rows db.workflows)).map fun entry =>
        (entry.1.text, .int (Int.ofNat entry.2)))),
      ("queues", .obj [("high", .int 0), ("normal", .int 0), ("failed", .int 0)]),
        ("vector_count", .int 0)])) := rfl
  rw [counted, counted]
  have one : [(someTask .running).status].eraseDups = [.running] := rfl
  simp [outcome, reply, dbTask, Table.insert, Table.empty, Db.empty, Query.rows, countBy, one]

/-- What the endpoint for failed jobs makes of the list. -/
theorem eval_queuesFailed {limit : Int} (bounded : RedisQueue.Bounded limit) (host : Host) :
    ((queuesFailed limit).eval plainOutside.answer host).1 =
    ((host.world.redis.range .failed 0 (limit - 1)).mapM Job.fromJson).map fun jobs => reply
    (.arr (jobs.map jobDict)) := by
  have ends (result : Except PyException (List Job)) :
      ((Service.run (Program.ofExcept result) >>= fun jobs =>
        return reply (.arr (jobs.map jobDict)) : Service Response).eval
        plainOutside.answer host).1 = result.map fun jobs => reply (.arr (jobs.map jobDict)) := by
    cases result <;> rfl
  have ranged : Outside.executed host (RedisCommand.run host.world.clock
    (.lrange .failed 0 (limit - 1)) host.world.redis) =
      (.ok (host.world.redis.range .failed 0 (limit - 1)), host) := by
    rw [RedisQueue.lrange_bounded bounded]
    rfl
  have goesOn (answered : Except PyException (List String) × Host) (same : answered =
    (.ok (host.world.redis.range .failed 0 (limit - 1)), host)) :
      ((Service.run (Program.done answered.1 >>= fun items =>
          Program.ofExcept (items.mapM Job.fromJson)) >>= fun jobs =>
        return reply (.arr (jobs.map jobDict)) : Service Response).eval
          plainOutside.answer answered.2).1 =
        ((host.world.redis.range .failed 0 (limit - 1)).mapM Job.fromJson).map fun jobs =>
            reply (.arr (jobs.map jobDict)) := by
    subst same
    exact ends _
  exact goesOn _ ranged

theorem telling_failed {limit : Int} (bounded : RedisQueue.Bounded limit) :
    Telling (queuesFailed limit) := by
  refine ⟨.empty, .empty, [], List.replicate (limit.natAbs + 2) "x", ?_⟩
  have none : (hostOf .empty []).world.redis.range .failed 0 (limit - 1) = [] := by
    simp [Redis.range, hostOf]
  obtain ⟨n, some⟩ : ∃ n, (hostOf .empty (List.replicate (limit.natAbs + 2) "x")).world.redis.range
    .failed 0 (limit - 1) =
      List.replicate (n + 1) "x" := by
    simp only [Redis.range, hostOf, Function.update_self, List.length_replicate,
      List.take_replicate]
    obtain ⟨n, positive⟩ : ∃ n,
      min ((if limit - 1 < 0 then limit - 1 + ((limit.natAbs + 2 : Nat) : Int) else limit - 1) +
      1).toNat
        (limit.natAbs + 2) = n + 1 := by
      refine ⟨_, (Nat.succ_pred_eq_of_pos ?_).symm⟩
      split <;> omega
    exact ⟨n, congrArg (List.replicate · "x") positive⟩
  have refused : Job.fromJson "x" = .error ⟨.jsonDecodeError, "invalid JSON"⟩ := rfl
  have raised : (List.replicate (n + 1) "x").mapM Job.fromJson =
      .error ⟨.jsonDecodeError, "invalid JSON"⟩ := by
    rw [List.replicate_succ, List.mapM_cons, refused]
    rfl
  rw [eval_queuesFailed bounded, eval_queuesFailed bounded, none, some, raised]
  simp [outcome, reply, Except.map, PyException.isException, pure, Except.pure]

theorem validated_some {x : Option α} {y : α} {handler : α → Service Response} (read : x = some y) :
    validated x handler = handler y := by
  rw [read]
  rfl

/-- An open endpoint whose parameters make it show what is there tells hosts apart. -/
theorem telling_handle {e : Endpoint} {params : List (String × String)}
    (shows : e.Shows fw params r) : Telling (handle fw s params r e) := by
  cases e with
  | listTasks =>
      obtain ⟨⟨limit, read, asked⟩, selects⟩ := shows
      simp only [handle, validated_some read]
      exact telling_tasks asked selects
  | listWorkflows =>
      obtain ⟨⟨limit, read, asked⟩, selects⟩ := shows
      simp only [handle, validated_some read]
      exact telling_workflows asked selects
  | getWorkflow =>
      obtain ⟨id, read, natural, bound⟩ := shows
      simp only [handle, validated_some read]
      exact telling_workflow natural bound
  | listApprovals =>
      obtain ⟨⟨pending, chosen⟩, limit, read, asked⟩ := shows
      simp only [handle, validated_some chosen, validated_some read]
      exact telling_approvals pending asked
  | latestDailySummary => exact telling_latest
  | memoryRecent =>
      obtain ⟨limit, read, asked⟩ := shows
      simp only [handle, validated_some read]
      exact telling_memories asked
  | logsRecent =>
      obtain ⟨limit, read, asked, some⟩ := shows
      simp only [handle, validated_some read]
      exact telling_logs asked some
  | queuesFailed =>
      obtain ⟨limit, read, bounded⟩ := shows
      simp only [handle, validated_some read]
      exact telling_failed bounded
  | stats => exact telling_stats
  | dashboard | health | ready | decideApproval | watchersStatus | runSummaryNow | memorySearch
      | trigger => exact shows.elim

/-! ### Requests -/

theorem routed_listed {route : Route} {params : List (String × String)}
    (found : routed fw r = some (route, params)) : route ∈ routes := by
  obtain ⟨candidate, listed, taken⟩ := List.exists_of_findSome?_eq_some found
  split at taken
  · obtain ⟨_, -, same⟩ := Option.map_eq_some_iff.mp taken
    cases same
    exact listed
  · contradiction

/-- A route that does not depend on the token runs its handler. -/
theorem serve_open {route : Route} {params : List (String × String)}
    (found : routed fw r = some (route, params)) (changes : route.endpoint.changes = false) :
    serve fw s r = Service.tryExcept (handle fw s params r route.endpoint) fun _ =>
      return .serverError := by
  have plain : ∀ route ∈ routes, route.endpoint.changes = false → route.gated = false ∧
    route.endpoint.readsBody = false := by decide
  obtain ⟨open_, bare⟩ := plain route (routed_listed found) changes
  simp only [serve, found, open_, bare, Bool.false_eq_true, if_false]

/-- A route that changes something answers without the token before anything is called. -/
theorem serve_refused {route : Route} {params : List (String × String)}
    (found : routed fw r = some (route, params)) (changes : route.endpoint.changes = true)
    (set : s.apiAuthToken ≠ "") (plain : ¬ r.Carries s.apiAuthToken) :
    ∃ x, serve fw s r = return x := by
  have gated := changes_gated (routed_listed found) changes
  simp only [serve, found, gated, if_true]
  split
  · exact ⟨_, rfl⟩
  · split
    · exact ⟨_, rfl⟩
    · rename_i accepted
      exact absurd (header_carried ((requireToken_iff set).mp accepted)) plain

/-- On a remote bind the response to a request without the token, other than for the dashboard page
and the probes, tells nothing of what is protected just if the request is not to an open endpoint
that shows it. -/
theorem concealed_iff (remote : s.apiHost ∉ loopbackHosts)
    (accepted : validateBindSafety s.apiHost s.apiAllowRemoteBind s.apiAuthToken = .ok ())
    (plain : ¬ r.Carries s.apiAuthToken)
    (unprobed : ∀ route params, routed fw r = some (route, params) → route.endpoint.probe = false) :
    Concealed fw s r ↔ ¬ Shows fw r := by
  obtain ⟨-, set⟩ := remote_accepted remote accepted
  constructor
  · rintro concealed ⟨route, params, found, shows⟩
    have changes : route.endpoint.changes = false := by
      cases same : route.endpoint <;> first | rfl | (rw [same] at shows; exact shows.elim)
    obtain ⟨db, db', failed, failed', apart⟩ := telling_handle (s := s) shows
    have same := concealed plainOutside _ _ (alike_hosts db db' failed failed')
    unfold response at same
    rw [serve_open found changes, eval_served, eval_served] at same
    exact apart same
  · intro hidden out a b alike
    unfold response
    cases found : routed fw r with
    | none =>
        have unmatched : serve fw s r = return fw.unmatched r := by simp only [serve, found]
        rw [unmatched]
        rfl
    | some taken =>
        obtain ⟨route, params⟩ := taken
        cases changes : route.endpoint.changes with
        | true =>
            obtain ⟨x, refused⟩ := serve_refused found changes set plain
            rw [refused]
            rfl
        | false =>
            have silent := silent_handle (s := s) (unprobed route params found) changes fun shows =>
              hidden ⟨route, params, found, shows⟩
            rw [serve_open found changes, eval_served, eval_served, silent out a b alike]

/-- Any interface, opted in and with a token. -/
def remoteSettings : ServerSettings := ⟨"0.0.0.0", true, "secret", "logs"⟩

def getWatchers : Request := ⟨"GET", "/watchers", [], [], .absent⟩

def getApprovals : Request := ⟨"GET", "/approvals", [("pending", "true")], [], .absent⟩

/-- The watchers tell nothing of the database. -/
theorem concealed_watchers : Concealed literal remoteSettings getWatchers := by
  have found : routed literal getWatchers = some (⟨"GET", "/watchers", .watchersStatus, false⟩,
    []) := rfl
  refine (concealed_iff (by decide) rfl (by simp [Request.Carries, getWatchers]) ?_).mpr ?_
  · intro route params taken
    rw [found] at taken
    cases taken
    rfl
  · rintro ⟨route, params, taken, shows⟩
    rw [found] at taken
    cases taken
    exact shows

/-- On a remote bind that was accepted, anyone reads the pending approvals. -/
theorem approvals_told : remoteSettings.apiHost ∉ loopbackHosts ∧
    validateBindSafety remoteSettings.apiHost remoteSettings.apiAllowRemoteBind
      remoteSettings.apiAuthToken = .ok () ∧ ¬ getApprovals.Carries remoteSettings.apiAuthToken ∧
    (routed literal getApprovals).map (fun found => found.1.endpoint) = some .listApprovals ∧
    ¬ Concealed literal remoteSettings getApprovals := by
  refine ⟨by decide, rfl, by simp [Request.Carries, getApprovals], rfl, fun concealed => ?_⟩
  have found : routed literal getApprovals = some (⟨"GET", "/approvals", .listApprovals, false⟩,
    []) := rfl
  obtain ⟨db, db', failed, failed', apart⟩ :=
    telling_approvals true (⟨by decide, by decide⟩ : Limits 50)
  have same := concealed plainOutside _ _ (alike_hosts db db' failed failed')
  unfold response at same
  rw [serve_open found rfl, eval_served, eval_served] at same
  exact apart same

end WiseOrder.Api
