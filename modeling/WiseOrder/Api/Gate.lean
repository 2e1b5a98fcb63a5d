import WiseOrder.Api.Server
import WiseOrder.Foundation.Contract

/-! Requests without the token on a remote bind. The endpoints that ask for the token
answer before their handlers run, and the others only read; so whatever is requested
in whatever order, the host moves as it would by itself. -/
namespace WiseOrder.Api
open Coroutine Coroutine.Program
variable {fw : Framework} {s : ServerSettings} {r : Request} {i : CallId}
    {host host' : Host} {α β : Type}

/-! ### What the handlers call -/

theorem reads_tryExcept {body : Service α} {handler : PyException → Service α}
    (runs : body.Within Reads) (handles : ∀ e, (handler e).Within Reads) :
    (Service.tryExcept body handler).Within Reads :=
  within_catching runs handles

theorem reads_call {c : ServiceCall} {f : c.Reply → Service β} (reads : Reads c)
    (rest : ∀ x, (f x).Within Reads) : (Service.await c >>= f).Within Reads :=
  within_bind (within_call reads) rest

theorem reads_validated {x : Option α} {handler : α → Service Response}
    (runs : ∀ a, (handler a).Within Reads) : (validated x handler).Within Reads := by
  cases x with
  | none => trivial
  | some a => exact runs a

theorem reads_depths {f : Json → Service β} (rest : ∀ depths, (f depths).Within Reads) :
    (depthsDict >>= f).Within Reads := by
  have depth (queue : QueueName) : (DailySummary.depth queue).Within Reads :=
    ⟨trivial, fun _ => trivial⟩
  refine within_bind (within_bind (within_bind (depth _) fun _ => within_bind (depth _) fun _ =>
    within_bind (depth _) fun _ => ?_)
    fun _ => ?_) rest <;> trivial

theorem reads_pingRedis : pingRedis.Within Reads :=
  reads_tryExcept (within_call trivial) fun _ => trivial

theorem reads_health : health.Within Reads :=
  within_bind reads_pingRedis fun _ => reads_depths fun _ => trivial

theorem reads_ready : ready.Within Reads :=
  within_bind (reads_tryExcept (within_call trivial) fun _ => trivial) fun _ =>
    within_bind reads_pingRedis fun _ => trivial

theorem reads_getWorkflow (wfId : Int) : (getWorkflow wfId).Within Reads := by
  apply reads_call (c := .select (.workflow wfId)) trivial
  intro found
  cases found <;> trivial

theorem reads_latestDailySummary : latestDailySummary.Within Reads := by
  apply reads_call (c := .select (.latestMemory "daily_summary")) trivial
  intro found
  cases found with
  | none => trivial
  | some row =>
      have field (key : String) : (ofExcept (metaField key row.2.metadata) : Service Json).Within
        Reads := trivial
      exact within_bind (field "date") fun _ => within_bind (field "stats") fun _ => trivial

theorem reads_queuesFailed (limit : Int) : (queuesFailed limit).Within Reads := by
  have peeks : (RedisQueue.peekFailed limit).Within fun c => Reads (.run c) :=
    within_bind (within_call trivial) fun _ => trivial
  exact within_bind (within_embed peeks) fun _ => trivial

theorem reads_stats : stats.Within Reads :=
  reads_call trivial fun _ => reads_depths fun _ =>
    within_bind (reads_tryExcept (within_call trivial) fun _ => trivial) fun _ => trivial

/-- The endpoints that change something. -/
def Endpoint.changes : Endpoint → Bool
  | .decideApproval | .runSummaryNow | .trigger => true
  | _ => false

theorem reads_handle {e : Endpoint} (plain : e.changes = false) (params : List (String × String)) :
    (handle fw s params r e).Within Reads := by
  cases e with
  | dashboard => trivial
  | health => exact reads_health
  | ready => exact reads_ready
  | listTasks => exact reads_validated fun _ => reads_call trivial fun _ => trivial
  | listWorkflows => exact reads_validated fun _ => reads_call trivial fun _ => trivial
  | getWorkflow => exact reads_validated reads_getWorkflow
  | listApprovals =>
      exact reads_validated fun _ => reads_validated fun _ => reads_call trivial fun _ => trivial
  | watchersStatus => exact reads_call trivial fun _ => trivial
  | latestDailySummary => exact reads_latestDailySummary
  | memorySearch =>
      exact reads_validated fun _ => reads_validated fun _ => reads_call trivial fun _ => trivial
  | memoryRecent => exact reads_validated fun _ => reads_call trivial fun _ => trivial
  | logsRecent => exact reads_validated fun _ => reads_call trivial fun _ => trivial
  | queuesFailed => exact reads_validated reads_queuesFailed
  | stats => exact reads_stats
  | decideApproval | runSummaryNow | trigger => contradiction

/-- Every route to an endpoint that changes something depends on the token. -/
theorem changes_gated {route : Route} (listed : route ∈ routes)
    (changes : route.endpoint.changes = true) : route.gated = true := by
  have all : ∀ route ∈ routes, route.endpoint.changes = true → route.gated = true := by decide
  exact all route listed changes

/-- The request carries the token. -/
def Request.Carries (r : Request) (token : String) : Prop :=
  ("authorization", bearer ++ token) ∈ r.headers

theorem header_carried {token : String} (same : r.header "authorization" = some (bearer ++ token)) :
    r.Carries token := by
  simp only [Request.header, Option.map_eq_some_iff] at same
  obtain ⟨⟨name, value⟩, found, rfl⟩ := same
  obtain rfl : name = "authorization" := by simpa using List.find?_some found
  exact List.mem_of_find?_eq_some found

/-- Without the token a request only reads. -/
theorem reads_serve (set : s.apiAuthToken ≠ "") (plain : ¬ r.Carries s.apiAuthToken) :
    (serve fw s r).Within Reads := by
  have refused : ∀ x, requireToken s.apiAuthToken (r.header "authorization") = x → x ≠ .ok () := by
    rintro x rfl accepted
    exact plain (header_carried ((requireToken_iff set).mp accepted))
  unfold serve
  split
  · trivial
  · rename_i route params found
    obtain ⟨candidate, listed, taken⟩ := List.exists_of_findSome?_eq_some found
    split
    · trivial
    · cases gated : route.gated with
      | true =>
          simp only [if_true]
          split
          · trivial
          · rename_i accepted
            exact absurd rfl (refused _ accepted)
      | false =>
          simp only [Bool.false_eq_true, if_false]
          refine reads_tryExcept (reads_handle ?_ params) fun _ => trivial
          split at taken
          · obtain ⟨_, -, same⟩ := Option.map_eq_some_iff.mp taken
            cases same
            by_contra changes
            have := changes_gated listed (by simpa using changes)
            simp [gated] at this
          · contradiction

/-! ### Runs -/

/-- The requests to one server, in a host where the rest of the program does what `env` allows. -/
def api (fw : Framework) (s : ServerSettings) (env : Host → Host → Prop) :
    Machine CallId Host serviceCalls Response where
  spawn := fun _ _ p => ∃ r, p = serve fw s r
  perform := Host.perform
  again := fun _ _ _ _ => False
  drift := env
  crash := fun host _ host' => host' = host

abbrev Server := Config CallId Host serviceCalls Response

abbrev ServerEvent := Event CallId Host serviceCalls Response

/-- No request carries the token. -/
def Unauthenticated (fw : Framework) (s : ServerSettings) (_ : Server)
    (e : ServerEvent) (_ : Server) : Prop :=
  ∀ i p, e = .spawn i p → ∃ r, p = serve fw s r ∧ ¬ r.Carries s.apiAuthToken

/-- A step of the rest of the program. -/
def drifting : ServerEvent → Bool
  | .drift => true
  | _ => false

/-- The calls that are still to be made are reads. -/
def Reading (c : Server) : Prop := ∀ i seen rest, c.threads i = .active seen rest →
    rest.Within Reads

/-- One step: what is left to do only reads, and the host moves by itself or stays. -/
theorem step_reading {env : Host → Host → Prop} {c c' : Server}
    {e : ServerEvent} (set : s.apiAuthToken ≠ "") (reading : Reading c)
    (step : (api fw s env).Step c e c') (plain : Unauthenticated fw s c e c') :
    Reading c' ∧ (c'.world = c.world ∧ drifting e = false ∨ env c.world c'.world ∧ e = .drift) := by
  have others (i : CallId) (seen rest) (idle : ¬ e.By i) (active : c'.threads i =
      .active seen rest) : rest.Within Reads :=
    reading i seen rest (step.other idle active)
  cases step with
  | @spawn i p unused entry =>
      refine ⟨fun j seen rest active => ?_, .inl ⟨rfl, rfl⟩⟩
      by_cases mine : i = j
      · subst j
        simp only [Function.update_self, Thread.active.injEq] at active
        obtain ⟨rfl, rfl⟩ := active
        obtain ⟨r, same, bare⟩ := plain i _ rfl
        rw [same]
        exact reads_serve set bare
      · exact others j seen rest mine active
  | @call i seen call onReply reply world awaiting performed =>
      have ready := reading i _ _ awaiting
      refine ⟨fun j past rest active => ?_, .inl ⟨perform_reads ready.1 performed, rfl⟩⟩
      by_cases mine : i = j
      · subst j
        simp only [Function.update_self, Thread.active.injEq] at active
        obtain ⟨rfl, rfl⟩ := active
        exact ready.2 reply
      · exact others j past rest mine active
  | again returned next => exact next.elim
  | drift moved => exact ⟨fun j seen rest active => others j seen rest id active, .inr ⟨moved, rfl⟩⟩
  | crash fell => exact ⟨fun j seen rest active => others j seen rest id active, .inl ⟨fell, rfl⟩⟩

/-- On an accepted remote bind, requests without the token leave the queues, the tables and the
summary file alone: the host goes where the rest of the program takes it. -/
theorem unauthenticated_frozen {env : Host → Host → Prop} {c c' : Server} {trace : List ServerEvent}
    (remote : s.apiHost ∉ loopbackHosts)
    (accepted : validateBindSafety s.apiHost s.apiAllowRemoteBind s.apiAuthToken = .ok ())
    (fresh : ∀ i, c.threads i = .absent)
    (run : Transition.Run (Transition.Guarded (api fw s env).Step (Unauthenticated fw s)) c
      trace c') :
    Transition.Run (fun host (_ : ServerEvent) host' => env host host') c.world
    (trace.filter drifting) c'.world ∧
    (.drift ∉ trace → c'.world.world.redis.lists = c.world.world.redis.lists ∧
      c'.world.world.db = c.world.world.db ∧
      c'.world.summaryFile = c.world.summaryFile) := by
  obtain ⟨-, set⟩ := remote_accepted remote accepted
  have alone : Reading c' ∧
      Transition.Run (fun host (_ : ServerEvent) host' => env host host') c.world
          (trace.filter drifting) c'.world := by
    refine run.traced (P := fun past d => Reading d ∧
      Transition.Run (fun host (_ : ServerEvent) host' => env host host') c.world
        (past.filter drifting) d.world) ?_ ?_
    · refine ⟨fun i seen rest active => ?_, .refl _⟩
      rw [fresh i] at active
      contradiction
    · rintro past d e u - ⟨reading, before⟩ ⟨step, plain⟩
      obtain ⟨reading, ⟨same, quiet⟩ | ⟨moved, rfl⟩⟩ := step_reading set reading step plain
      · refine ⟨reading, ?_⟩
        rw [List.filter_append, List.filter_cons_of_neg (by simp [quiet]),
          List.filter_nil, List.append_nil, same]
        exact before
      · refine ⟨reading, ?_⟩
        rw [List.filter_append]
        exact before.next moved
  refine ⟨alone.2, fun still => ?_⟩
  have none : trace.filter drifting = [] := by
    rw [List.filter_eq_nil_iff]
    intro e member drifts
    cases e with
    | drift => exact still member
    | _ => contradiction
  have rest := alone.2
  rw [none] at rest
  obtain same := rest.of_nil
  rw [same]
  exact ⟨rfl, rfl, rfl⟩

/-- A framework that matches paths as they are, and reads decimal numbers. -/
def literal : Framework where
  pathParams := fun template path => if template = path then some [] else none
  intParam := String.toInt?
  boolParam := fun text => if text = "true" then some true else if text =
    "false" then some false else none
  unmatched := fun _ => .other 404

/-- Asked to trigger a job without the right token, and then for the failed jobs, the server refuses
the one and reads for the other. -/
theorem unauthenticated_frozen_refused : ∃ c : Server,
    c.threads ⟨1, 1, .visitor⟩ = .active [] (.done (.ok (raised ⟨403, "invalid token"⟩))) ∧
    c.threads ⟨2, 1, .visitor⟩ = .active [⟨.run (.redis (.lrange .failed 0 49)), .ok []⟩]
    (.done (.ok (reply (.arr [])))) ∧ c.world.world.redis.lists = World.initial.redis.lists ∧
    c.world.world.db = World.initial.db ∧ c.world.summaryFile = [] := by
  let s : ServerSettings := ⟨"0.0.0.0", true, "secret", "logs"⟩
  let post : Request := ⟨"POST", "/trigger", [], [("authorization", "Bearer guess")],
    .json (.obj [("type", .str "commit_pipeline")])⟩
  let get : Request := ⟨"GET", "/queues/failed", [], [], .absent⟩
  let start : Server := ⟨⟨World.initial, ⟨none, none⟩, []⟩, fun _ => .absent⟩
  have bare : ¬ post.Carries "secret" ∧ ¬ get.Carries "secret" := by
    constructor <;> simp [Request.Carries, post, get, bearer]
  have asked : Transition.Run (Transition.Guarded (api literal s Eq).Step
    (Unauthenticated literal s)) start
      [.spawn ⟨1, 1, .visitor⟩ (serve literal s post)] _ :=
    .single ⟨.spawn rfl ⟨post, rfl⟩, fun i p same => by cases same; exact ⟨post, rfl, bare.1⟩⟩
  have again := asked.next ⟨.spawn (i := ⟨2, 1, .visitor⟩) rfl ⟨get, rfl⟩,
    fun i p same => by cases same; exact ⟨get, rfl, bare.2⟩⟩
  have performed : Host.perform ⟨2, 1, .visitor⟩ (.run (.redis (.lrange .failed 0 49)))
      start.world (.ok []) start.world :=
    ⟨_, ⟨_, rfl, rfl⟩, rfl⟩
  have taken : (api literal s Eq).Step
      ⟨start.world, Function.update (Function.update start.threads
        ⟨1, 1, .visitor⟩ (.active [] (serve literal s post)))
        ⟨2, 1, .visitor⟩ (.active [] (serve literal s get))⟩
      (.call ⟨2, 1, .visitor⟩ ⟨.run (.redis (.lrange .failed 0 49)), .ok []⟩ start.world)
          ⟨start.world, _⟩ :=
    .call rfl performed
  have read := again.next ⟨taken, fun i p same => by contradiction⟩
  have frozen := (unauthenticated_frozen (by decide) rfl (fun _ => rfl) read).2 (by simp)
  exact ⟨_, rfl, rfl, frozen⟩

end WiseOrder.Api
