import WiseOrder.Orchestrator.Lifetime
import WiseOrder.Orchestrator.Main

/-! What an unsafe bind does to a start. The check of the bind is made by a task that
`start()` creates last and does not await, so it stops nothing. -/
namespace WiseOrder.Lifetime
open Coroutine Coroutine.Program
variable {s : Settings} {settings : Api.ServerSettings} {around : Surroundings}
    {numWorkers : Int} {p : Process}

/-- A bind that is not to be started with. -/
def Unsafe (settings : Api.ServerSettings) : Prop :=
  settings.apiHost ∉ Api.loopbackHosts ∧
    (settings.apiAllowRemoteBind = false ∨ settings.apiAuthToken = "")

/-- Both services answer. -/
def Surroundings.Reachable (around : Surroundings) : Prop :=
  around.database = true ∧ around.redis = true

def started (s : Settings) (numWorkers : Int) (around : Surroundings) :
    Except PyException Unit × Process :=
  (start s numWorkers).eval around.answer .initial

/-- `start()` raises, and when every task has had its turn nothing is left running. -/
def Refuses (s : Settings) (settings : Api.ServerSettings) (numWorkers : Int)
    (around : Surroundings) : Prop :=
  (∃ e, (started s numWorkers around).1 = .error e) ∧
    ((started s numWorkers around).2.serveApi settings).Idle

/-- Something before the first task raises; without workers that may be a watcher as well. -/
def Surroundings.FailsEarly (around : Surroundings) (numWorkers : Int) : Prop :=
  around.migration.isOk = false ∨ around.reaped.isOk = false ∨
    (numWorkers ≤ 0 ∧ around.observed = false ∧
    (around.eventWatcher.isOk = false ∨ around.integrityWatcher.isOk = false))

/-- The workers are created. -/
def Process.employ (p : Process) (ids : List Nat) : Process :=
  { p with
    tasks := fun c => match c with
      | .worker id => if id ∈ ids then some .running else p.tasks c
      | _ => p.tasks c
    workers := p.workers ++ ids }

theorem employ_nil (p : Process) : p.employ [] = p := by
  simp only [Process.employ, List.append_nil, List.not_mem_nil, if_false]
  congr 1
  funext c
  cases c <;> rfl

theorem employ_cons (p : Process) (id : Nat) (ids : List Nat) :
    ({ p.set (.worker id) .running with workers := p.workers ++ [id] } : Process).employ ids =
      p.employ (id :: ids) := by
  simp only [Process.employ, Process.set, List.append_assoc, List.singleton_append]
  congr 1
  funext c
  cases c with
  | worker n => by_cases same : n = id <;> simp [same]
  | _ => simp

theorem eval_createWorkers (ids : List Nat) : (createWorkers ids).eval around.answer p =
    (.ok (), p.employ ids) := by
  induction ids generalizing p with
  | nil => rw [employ_nil]; rfl
  | cons id ids ih =>
      change (createWorkers ids).eval around.answer
        { p.set (.worker id) .running with workers := p.workers ++ [id] } = _
      rw [ih, employ_cons]

/-- What has come of a start when it creates its services. -/
def employed (numWorkers : Int) : Process :=
  ({ Process.initial with redisOpen := true } : Process).employ (List.range numWorkers.toNat)

theorem started_ready (reachable : around.Reachable) {a : Unit} {n : Nat}
    (migrated : around.migration = .ok a) (reaped : around.reaped = .ok n) :
    started s numWorkers around = createServices.eval around.answer (employed numWorkers) := by
  obtain ⟨database, migration, redis, reaped', _, _, _, _, _, _, _⟩ := around
  obtain ⟨database, redis⟩ := reachable
  dsimp only at database redis migrated reaped
  subst database redis migrated reaped
  exact eval_bind_ok (eval_createWorkers _)

/-- What fails before the workers are created leaves nothing behind. -/
theorem refuses_early (s : Settings) (settings : Api.ServerSettings) (numWorkers : Int)
    (reachable : around.Reachable)
    (fails : around.migration.isOk = false ∨ around.reaped.isOk = false) :
    Refuses s settings numWorkers around := by
  obtain ⟨database, migration, redis, reaped, _, _, _, _, _, _, _⟩ := around
  obtain ⟨database, redis⟩ := reachable
  dsimp only at database redis fails
  subst database redis
  cases migration with
  | error e => exact ⟨⟨e, rfl⟩, nofun, rfl⟩
  | ok _ =>
      cases reaped with
      | error e => exact ⟨⟨e, rfl⟩, nofun, rfl⟩
      | ok n => simp [Except.isOk, Except.toBool] at fails

theorem serveApi_absent (absent : p.tasks .api ≠ some .running) : p.serveApi settings = p :=
  if_neg absent

/-- The workers are there, and what observes. -/
def waiting (numWorkers : Int) (around : Surroundings) : Process :=
  { employed numWorkers with observing := around.observed }

theorem waiting_idle : ((waiting numWorkers around).serveApi settings).Idle ↔ numWorkers ≤ 0 ∧
    around.observed = false := by
  rw [serveApi_absent (by simp [waiting, employed, Process.employ, Process.initial])]
  constructor
  · rintro ⟨ended, quiet⟩
    refine ⟨?_, quiet⟩
    by_contra many
    have first : (0 : Nat) ∈ List.range numWorkers.toNat := List.mem_range.mpr (by omega)
    exact ended (.worker 0) (by simp only [waiting, employed, Process.employ, if_pos first])
  · rintro ⟨few, quiet⟩
    refine ⟨fun c => ?_, quiet⟩
    have none : numWorkers.toNat = 0 := by omega
    cases c <;> simp [waiting, employed, Process.employ, Process.initial, none]

/-- A start refuses, where its services are to be created, just if nothing runs yet and one of the
first two fails. -/
theorem refuses_services {a : Unit} {n : Nat} (reachable : around.Reachable)
    (migrated : around.migration = .ok a) (reaped : around.reaped = .ok n) :
    Refuses s settings numWorkers around ↔
      numWorkers ≤ 0 ∧ around.observed = false ∧
      (around.eventWatcher.isOk = false ∨ around.integrityWatcher.isOk = false) := by
  have raised {e : PyException} (left : createServices.eval around.answer (employed numWorkers) =
      (.error e, waiting numWorkers around)) : Refuses s settings numWorkers around ↔
          numWorkers ≤ 0 ∧ around.observed = false := by
    rw [Refuses, started_ready reachable migrated reaped, left]
    exact ⟨fun refused => waiting_idle.mp refused.2, fun idle => ⟨⟨e, rfl⟩, waiting_idle.mpr idle⟩⟩
  have state {x y : Except PyException Unit} {p : Process} (same : x = y) : (x, p) = (y, p) :=
    congrArg (fun x => (x, p)) same
  cases watcher : around.eventWatcher with
  | error e =>
      rw [raised (eval_bind_error (state watcher))]
      simp [Except.isOk, Except.toBool]
  | ok _ =>
      cases integrity : around.integrityWatcher with
      | error e =>
          rw [raised ((eval_bind_ok (state watcher)).trans (eval_bind_error (state integrity)))]
          simp [Except.isOk, Except.toBool]
      | ok _ =>
          refine ⟨fun refused => ?_, fun fails => by simp [Except.isOk, Except.toBool] at fails⟩
          rw [Refuses, started_ready reachable migrated reaped] at refused
          cases ci : around.ciWatcher with
          | error e =>
              have left : createServices.eval around.answer (employed numWorkers) =
                  (.error e, (waiting numWorkers around).set .integrityWatcher .running) :=
                (eval_bind_ok (state watcher)).trans <| (eval_bind_ok (state integrity)).trans <|
                  (eval_bind_ok rfl).trans (eval_bind_error (state ci))
              rw [left, serveApi_absent (by simp [Process.set, waiting, employed, Process.employ,
                Process.initial])] at refused
              exact absurd (by simp [Process.set]) (refused.2.1 .integrityWatcher)
          | ok _ =>
              have returns : createServices.eval around.answer (employed numWorkers) =
                  (.ok (), _) :=
                (eval_bind_ok (state watcher)).trans <| (eval_bind_ok (state integrity)).trans <|
                  (eval_bind_ok rfl).trans <|
                  (eval_bind_ok (state ci)).trans <| (eval_bind_ok rfl).trans <|
                    (eval_bind_ok rfl).trans rfl
              obtain ⟨e, raised⟩ := refused.1
              rw [returns] at raised
              contradiction

/-- With both services up, a start with an unsafe bind refuses and leaves nothing running just if
something else fails before the first task is there. -/
theorem unsafe_refused (_ : Unsafe settings) (reachable : around.Reachable) :
    Refuses s settings numWorkers around ↔ around.FailsEarly numWorkers := by
  unfold Surroundings.FailsEarly
  cases migrated : around.migration with
  | error e =>
      have early := refuses_early s settings numWorkers reachable (.inl (by rw [migrated]; rfl))
      exact ⟨fun _ => .inl rfl, fun _ => early⟩
  | ok _ =>
      cases reaped : around.reaped with
      | error e =>
          have early := refuses_early s settings numWorkers reachable (.inr (by rw [reaped]; rfl))
          exact ⟨fun _ => .inr (.inl rfl), fun _ => early⟩
      | ok n =>
          rw [refuses_services reachable migrated reaped]
          simp [Except.isOk, Except.toBool]

/-- How the services that a start creates come up, taken together. -/
def Surroundings.services (around : Surroundings) : Except PyException Unit := do
  around.eventWatcher
  around.integrityWatcher
  around.ciWatcher

/-- The same surroundings for the start of the runtime as a whole. -/
def Surroundings.runtime (around : Surroundings) : Answers calls Unit
  | .now, w => (.ok (0 : Time), w)
  | .dbPing, w => (.ok around.database, w)
  | .initDb, w => (around.migration, w)
  | .redisPing, w => (.ok around.redis, w)
  | .session (.reap ..), w => (around.reaped, w)
  | .createWorkers _, w => (.ok (), w)
  | .startServices, w => (around.services, w)
  | _, w => (.error cancelledError, w)

/-- The start of the runtime, which takes the services as one, ends in the same way. -/
theorem started_runtime {workers : Nat} :
    ((Orchestrator.start s workers).eval around.runtime ()).1.map (fun _ => ()) =
    (started s workers around).1 := by
  have state {x y : Except PyException Unit} {p : Process} (same : x = y) : (x, p) = (y, p) :=
    congrArg (fun x => (x, p)) same
  obtain ⟨database, migration, redis, reaped, watcher, observed, integrity, ci, ending, pop,
    handling, closing⟩ := around
  cases database with
  | false => rfl
  | true =>
  cases migration with
  | error e => rfl
  | ok _ =>
  cases redis with
  | false => rfl
  | true =>
  cases reaped with
  | error e => rfl
  | ok n =>
      rw [started_ready ⟨rfl, rfl⟩ rfl rfl]
      cases watcher <;> cases integrity <;> cases ci <;> rfl

/-- Everything answers and nothing fails. -/
def calm : Surroundings where
  database := true
  migration := .ok ()
  redis := true
  reaped := .ok 0
  eventWatcher := .ok ()
  observed := true
  integrityWatcher := .ok ()
  ciWatcher := .ok ()
  ending := fun _ => .finishes
  pop := fun _ => .nothing
  handling := fun _ => ⟨.ok .null, .ok ()⟩
  closing := .ok ()

/-- Any interface, and no one opted in. -/
def exposed : Api.ServerSettings := ⟨"0.0.0.0", false, "", "logs"⟩

theorem unsafe_refused_migration : Refuses (.defaults "/root") exposed 2
    { calm with migration := .error (.runtimeError "Can't locate revision") } :=
  (unsafe_refused ⟨by decide, .inl rfl⟩ ⟨rfl, rfl⟩).mpr (.inl rfl)

/-- What runs once every task has had its turn. -/
def exposedStart : Process := (started (.defaults "/root") 2 calm).2.serveApi exposed

/-- With an unsafe bind a start returns, and the workers and watchers run while the task of the API
has failed. -/
theorem unsafe_started : Unsafe exposed ∧ calm.Reachable ∧
    ¬ Refuses (.defaults "/root") exposed 2 calm ∧ (started (.defaults "/root") 2 calm).1 = .ok () ∧
    exposedStart.tasks (.worker 1) = some .running ∧ exposedStart.tasks .ciWatcher = some .running ∧
    exposedStart.observing = true ∧ ∃ e, exposedStart.tasks .api = some (.failed e) := by
  refine ⟨⟨by decide, .inl rfl⟩, ⟨rfl, rfl⟩, ?_, rfl, rfl, rfl, rfl, _, rfl⟩
  rintro ⟨⟨e, raised⟩, -⟩
  cases raised

end WiseOrder.Lifetime
