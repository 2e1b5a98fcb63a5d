import WiseOrder.Queues.RedisQueue
import WiseOrder.Workflows.DemoForge

/-! The orchestrator: what it checks and cleans up before its workers start, and
the loop of a worker. -/
namespace WiseOrder.Orchestrator
open Coroutine

def interruptedMarker (now : Time) (maxAgeSeconds : Int) : LogEntry where
  ts := now
  event := "workflow_interrupted_at_startup"
  data := .obj [("reason", .str "orphan reaper"), ("max_age_seconds", .int maxAgeSeconds)]

def reapOrphanWorkflows (maxAgeSeconds : Int) : Async Nat := do
  let now ← utcnow
  let cutoff := now - maxAgeSeconds * second
  let markedAt ← utcnow
  session (.reap cutoff (interruptedMarker markedAt maxAgeSeconds))

/-- `start()`: both services must answer, then orphans are reaped, and only then do
workers start; the watcher and the background services follow. -/
def start (s : Settings) (numWorkers : Nat) : Async Returned := do
  let database : Bool ← await .dbPing
  if database then
    await .initDb
    let answered : Bool ← await .redisPing
    if answered then
      let _ ← reapOrphanWorkflows s.orphanWorkflowMaxAgeSeconds
      await (.createWorkers numWorkers)
      await .startServices
      return .nothing
    else
      raise (.runtimeError ("cannot connect to redis: " ++ s.redisUrl))
  else
    raise (.runtimeError ("cannot connect to database: " ++ s.databaseUrl))

/-- `self._handlers.get(job.type)`: a list or an object cannot be looked up. -/
def handlerOf (registered : List String) (type : Json) : Except PyException (Option String) :=
  match type with
  | .str name => .ok (if registered.contains name then some name else none)
  | .arr _ | .obj _ => .error (.typeError ("unhashable type: '" ++ Python.typeName type ++ "'"))
  | _ => .ok none

def noHandler (type : Json) : String := "no handler for type " ++ Python.repr type

def runJob (registered : List String) (job : Job) : Async Unit := do
  let handler ← Program.ofExcept (handlerOf registered job.type)
  match handler with
  | none => RedisQueue.fail job (noHandler job.type)
  | some name =>
      tryExcept (do
          let _ ← await (.handler name job.payload)
          return ())
        fun e => RedisQueue.fail job e.text

/-- What a worker has in hand after it looked at the lanes: a job, or nothing when
they were empty or could not be read. -/
def nextJob : Async (Option Job) :=
  tryExcept RedisQueue.dequeue fun _ => do
    await (.sleep 1)
    return none

/-- One turn of the loop of `_worker`, from the test of `_stop`. -/
def workerPass (registered : List String) : Async Returned := do
  let stop : Bool ← await .stopIsSet
  if stop then return .nothing
  else
    let job ← nextJob
    match job with
    | none => return .again
    | some job => do
        runJob registered job
        return .again

def registered : List String := ["commit_pipeline", "demo_request"]

end WiseOrder.Orchestrator
