import WiseOrder.Api.Server
import WiseOrder.Foundation.Eval

/-! One orchestrator as a process: the tasks and the thread that `start()` brings up, and
how `stop()` takes them down again. What each of them does by itself, and what the services
answer, is a matter of its surroundings. -/
namespace WiseOrder.Lifetime
open Coroutine

inductive Child where
  | worker (id : Nat)
  | integrityWatcher
  | ciWatcher
  | dailySummary
  | api
  deriving DecidableEq

inductive TaskState where
  | running
  | finished
  | cancelled
  | failed (e : PyException)
  deriving DecidableEq

/-- What has come of a job that a worker popped. -/
inductive Fate where
  | inHand
  | finished
  | deadLettered
  | lost
  deriving DecidableEq

inductive ProcessCall where
  | dbPing
  | initDb
  | redisPing
  | reapOrphanWorkflows (maxAgeSeconds : Int)
  | createTask (c : Child)
  | startEventWatcher
  | newIntegrityWatcher
  | newCiWatcher
  | setStop
  | stopEventWatcher
  | tell (c : Child)
  | cancel (c : Child)
  | waitFor (c : Child) (timeout : Nat)
  | gather (workers : List Nat)
  | closeRedis

def ProcessCall.Reply : ProcessCall → Type
  | .dbPing | .redisPing => Bool
  | .reapOrphanWorkflows _ => Nat
  | _ => Unit

abbrev processCalls : Signature := ⟨ProcessCall, ProcessCall.Reply, PyException⟩

abbrev Life := Program processCalls

def await (c : ProcessCall) : Life c.Reply := @Program.call processCalls c

def raise (e : PyException) : Life α := @Program.raise processCalls _ e

/-- What the process has: a task that it never created is absent, and so is the job of an idle
worker. -/
structure Process where
  tasks : Child → Option TaskState
  observing : Bool
  apiServer : Bool
  stopping : Bool
  workers : List Nat
  jobs : Nat → Option Fate
  redisOpen : Bool

namespace Process

def initial : Process := ⟨fun _ => none, false, false, false, [], fun _ => none, false⟩

def set (p : Process) (c : Child) (state : TaskState) : Process :=
  { p with tasks := Function.update p.tasks c (some state) }

/-- Nothing of the process is left running. -/
def Idle (p : Process) : Prop := (∀ c, p.tasks c ≠ some .running) ∧ p.observing = false

end Process

/-! ### `start()` and `stop()` -/

def createWorkers : List Nat → Life Unit
  | [] => return ()
  | id :: ids => do
      await (.createTask (.worker id))
      createWorkers ids

/-- The services in the background, the API last. -/
def createServices : Life Unit := do
  await .startEventWatcher
  await .newIntegrityWatcher
  await (.createTask .integrityWatcher)
  await .newCiWatcher
  await (.createTask .ciWatcher)
  await (.createTask .dailySummary)
  await (.createTask .api)

/-- `start()`. From the creation of the workers on nothing is awaited: the tasks get their
first turn when it has ended. -/
def start (s : Settings) (numWorkers : Int) : Life Unit := do
  let database : Bool ← await .dbPing
  if database then
    await .initDb
    let answered : Bool ← await .redisPing
    if answered then
      let _ ← await (.reapOrphanWorkflows s.orphanWorkflowMaxAgeSeconds)
      createWorkers (List.range numWorkers.toNat)
      createServices
    else
      raise (.runtimeError ("cannot connect to redis: " ++ s.redisUrl))
  else
    raise (.runtimeError ("cannot connect to database: " ++ s.databaseUrl))

/-- The first turn of the task of `_serve_api`: the check of the bind, then the server. -/
def Process.serveApi (s : Api.ServerSettings) (p : Process) : Process :=
  if p.tasks .api = some .running then
    match Api.validateBindSafety s.apiHost s.apiAllowRemoteBind s.apiAuthToken with
    | .ok _ => { p with apiServer := true }
    | .error e => p.set .api (.failed e)
  else p

/-- `asyncio.TimeoutError` -/
def isTimeout (e : PyException) : Bool := e.kind = .other "TimeoutError"

/-- `asyncio.CancelledError` -/
def isCancelled (e : PyException) : Bool := e.kind = .cancelledError

def timeoutError : PyException := ⟨.other "TimeoutError", ""⟩

def cancelledError : PyException := ⟨.cancelledError, ""⟩

def background : List Child := [.integrityWatcher, .ciWatcher, .dailySummary]

/-- `if self.… is not None:` -/
def onlyIf (there : Bool) (m : Life Unit) : Life Unit := if there then m else pure ()

def cancelAll (self : Process) : List Child → Life Unit
  | [] => return ()
  | c :: cs => do
      onlyIf (self.tasks c).isSome (await (.cancel c))
      cancelAll self cs

/-- Await the background tasks to actually exit. -/
def awaitAll (self : Process) : List Child → Life Unit
  | [] => return ()
  | c :: cs => do
      onlyIf (self.tasks c).isSome
        ((await (.waitFor c 3)).catching (fun e => isTimeout e || isCancelled e) fun _ => return ())
      awaitAll self cs

/-- Everything is told to end. -/
def tellAll (self : Process) : Life Unit := do
  await .setStop
  onlyIf self.observing (await .stopEventWatcher)
  onlyIf (self.tasks .integrityWatcher).isSome (await (.tell .integrityWatcher))
  onlyIf (self.tasks .ciWatcher).isSome (await (.tell .ciWatcher))
  cancelAll self background
  onlyIf self.apiServer (await (.tell .api))

/-- `stop()`, by what the process has when it is called. -/
def stop (self : Process) : Life Unit := do
  tellAll self
  onlyIf (self.tasks .api).isSome ((await (.waitFor .api 5)).catching isTimeout fun _ =>
    await (.cancel .api))
  onlyIf (!self.workers.isEmpty) (await (.gather self.workers))
  awaitAll self background
  await .closeRedis

/-! ### Surroundings -/

/-- What a running task comes to when it is awaited after it was told to end. -/
inductive Ending where
  | finishes
  | cancels
  | fails (e : PyException)
  | lingers

/-- How the handler of a job ends, and how dead-lettering the job does. -/
structure Handling where
  handler : Except PyException Json
  fail : Except PyException Unit

namespace Handling

/-- How `_run_job` ends. -/
def ending (h : Handling) : Except PyException Unit :=
  match h.handler with
  | .ok _ => .ok ()
  | .error e => if e.isException then h.fail else .error e

def fate (h : Handling) : Fate :=
  match h.ending, h.handler with
  | .error _, _ => .lost
  | .ok _, .ok _ => .finished
  | .ok _, .error _ => .deadLettered

end Handling

/-- What comes of the pop that an idle worker is waiting on: it brings in no job, or one, or Redis
pops one and the reply is lost, which the worker takes for an error and passes over. -/
inductive Pop where
  | nothing
  | job
  | lost
  deriving DecidableEq

structure Surroundings where
  database : Bool
  migration : Except PyException Unit
  redis : Bool
  reaped : Except PyException Nat
  eventWatcher : Except PyException Unit
  observed : Bool
  integrityWatcher : Except PyException Unit
  ciWatcher : Except PyException Unit
  ending : Child → Ending
  pop : Nat → Pop
  handling : Nat → Handling
  closing : Except PyException Unit

namespace Surroundings

/-- How `wait_for` ends, and what has become of the task. -/
def waitFor (around : Surroundings) (c : Child) : TaskState → Except PyException Unit × TaskState
  | .finished => (.ok (), .finished)
  | .cancelled => (.error cancelledError, .cancelled)
  | .failed e => (.error e, .failed e)
  | .running => match around.ending c with
      | .finishes => (.ok (), .finished)
      | .cancels => (.error cancelledError, .cancelled)
      | .fails e => (.error e, .failed e)
      | .lingers => (.error timeoutError, .cancelled)

/-- The worker runs a job before it looks again whether it is to stop: the one in hand, or one that
its pop brings in. -/
def Runs (around : Surroundings) (p : Process) (id : Nat) : Prop :=
  p.jobs id = some .inHand ∨ p.tasks (.worker id) = some .running ∧ around.pop id = .job

/-- The worker is idle, and loses the job that its pop is for. -/
def Loses (around : Surroundings) (p : Process) (id : Nat) : Prop :=
  p.jobs id ≠ some .inHand ∧ p.tasks (.worker id) = some .running ∧ around.pop id = .lost

instance (around : Surroundings) (p : Process) (id : Nat) : Decidable (around.Runs p id) :=
  inferInstanceAs (Decidable (_ ∨ _ ∧ _))

instance (around : Surroundings) (p : Process) (id : Nat) : Decidable (around.Loses p id) :=
  inferInstanceAs (Decidable (_ ∧ _ ∧ _))

/-- What a worker comes to once it is through with its job. -/
def workerEnd (around : Surroundings) (p : Process) (id : Nat) : TaskState :=
  if around.Runs p id then
    match (around.handling id).ending with
    | .ok _ => .finished
    | .error e => .failed e
  else .finished

/-- What has become of its job then. -/
def jobEnd (around : Surroundings) (p : Process) (id : Nat) : Option Fate :=
  if around.Runs p id then some (around.handling id).fate
  else if around.Loses p id then some .lost
  else p.jobs id

/-- `gather(..., return_exceptions=True)` waits for all of the workers, and does not raise. -/
def gather (around : Surroundings) (ids : List Nat) (p : Process) : Process :=
  { p with
    tasks := fun c => match c with
      | .worker id =>
          if id ∈ ids ∧ p.tasks c = some .running then some (around.workerEnd p id) else p.tasks c
      | _ => p.tasks c
    jobs := fun id => if id ∈ ids then around.jobEnd p id else p.jobs id }

/-- What is told or cancelled goes on to the ending that the surroundings give it. -/
def answer (around : Surroundings) : Answers processCalls Process
  | .dbPing, p => (.ok around.database, p)
  | .initDb, p => (around.migration, p)
  | .redisPing, p => (.ok around.redis, { p with redisOpen := true })
  | .reapOrphanWorkflows _, p => (around.reaped, p)
  | .createTask (.worker id), p =>
      (.ok (), { p.set (.worker id) .running with workers := p.workers ++ [id] })
  | .createTask c, p => (.ok (), p.set c .running)
  | .startEventWatcher, p => (around.eventWatcher, { p with observing := around.observed })
  | .newIntegrityWatcher, p => (around.integrityWatcher, p)
  | .newCiWatcher, p => (around.ciWatcher, p)
  | .setStop, p => (.ok (), { p with stopping := true })
  | .stopEventWatcher, p => (.ok (), { p with observing := false })
  | .tell _, p | .cancel _, p => (.ok (), p)
  | .waitFor c _, p => match p.tasks c with
      | some state => ((around.waitFor c state).1, p.set c (around.waitFor c state).2)
      | none => (.ok (), p)
  | .gather ids, p => (.ok (), around.gather ids p)
  | .closeRedis, p =>
      if p.redisOpen then (around.closing, { p with redisOpen := !around.closing.isOk })
        else (.ok (), p)

end Surroundings

end WiseOrder.Lifetime
