import WiseOrder.Effects
import WiseOrder.Foundation.JsonRoundTrip

/-! Jobs and the three lists that hold them. A job read back from its text has
whatever values the text gives its fields; nothing checks them. -/
namespace WiseOrder

structure Job where
  id : Json
  type : Json
  payload : Json
  createdAt : Json
  attempt : Json
  workflowId : Json
  parentJobId : Json
  notes : Json

namespace Job

def new (id type : String) (payload : Json) (now : Time) : Job where
  id := .str id
  type := .str type
  payload := payload
  createdAt := .str (Python.isoformat now)
  attempt := .int 0
  workflowId := .null
  parentJobId := .null
  notes := .arr []

def asdict (job : Job) : Json := .obj [
  ("id", job.id), ("type", job.type), ("payload", job.payload), ("created_at", job.createdAt),
  ("attempt", job.attempt), ("workflow_id", job.workflowId), ("parent_job_id", job.parentJobId),
  ("notes", job.notes)]

def toJson (job : Job) : Except PyException String :=
  (Json.Scanner.encode Python.encoding job.asdict).mapError Python.refusal

def fieldNames : List String :=
  ["id", "type", "payload", "created_at", "attempt", "workflow_id", "parent_job_id", "notes"]

/-- `cls(**fields)`: unknown keywords and missing ones are refused. -/
def ofFields (fields : List (String × Json)) : Except PyException Job :=
  if !fields.all (fun f => fieldNames.contains f.1) then
    .error (.typeError "Job.__init__() got an unexpected keyword argument")
  else match Json.lookup "id" fields, Json.lookup "type" fields, Json.lookup "payload" fields,
      Json.lookup "created_at" fields with
    | some id, some type, some payload, some createdAt => .ok {
        id, type, payload, createdAt
        attempt := (Json.lookup "attempt" fields).getD (.int 0)
        workflowId := (Json.lookup "workflow_id" fields).getD .null
        parentJobId := (Json.lookup "parent_job_id" fields).getD .null
        notes := (Json.lookup "notes" fields).getD (.arr []) }
    | _, _, _, _ => .error (.typeError "Job.__init__() missing required positional arguments")

def fromJson (blob : String) : Except PyException Job :=
  match Json.Scanner.decode Python.decoding blob.toList with
  | .error e => .error (Python.refusal e)
  | .ok (.obj fields) => ofFields fields
  | .ok _ => .error (.typeError "argument after ** must be a mapping")

theorem toJson_limits {job : Job} {text : String} (written : job.toJson = .ok text) :
    (job.asdict.nesting ≤ Python.encoding.depth ∧ job.asdict.longest ≤ Python.encoding.digits) ∧
    text = job.asdict.dumps := by
  unfold toJson at written
  cases encoded : Json.Scanner.encode Python.encoding job.asdict with
  | error e =>
      rw [encoded] at written
      contradiction
  | ok whole =>
      rw [encoded] at written
      cases Except.ok.inj written
      exact ⟨Json.Scanner.encode_within encoded, Json.Scanner.encode_text encoded⟩

/-- What is written can be read: the limits on writing are the narrower ones. -/
theorem fromJson_toJson {job : Job} {text : String} (distinct : job.asdict.Distinct)
    (written : job.toJson = .ok text) : fromJson text = .ok job := by
  obtain ⟨⟨deep, short⟩, rfl⟩ := toJson_limits written
  have read : Json.Scanner.decode Python.decoding job.asdict.dumps.toList = .ok job.asdict :=
    Json.Scanner.decode_dumps _ distinct (Nat.le_trans deep (by decide)) short
  rw [fromJson, read]
  rfl

/-- A job that is neither too deep nor has an integer that is too long is written. -/
theorem toJson_within (job : Job) (deep : job.asdict.nesting ≤ Python.encoding.depth)
    (short : job.asdict.longest ≤ Python.encoding.digits) : job.toJson = .ok job.asdict.dumps := by
  rw [toJson, Json.Scanner.encode_ok deep short]
  rfl

theorem fromJson_within {job : Job} (distinct : job.asdict.Distinct)
    (deep : job.asdict.nesting ≤ Python.encoding.depth)
    (short : job.asdict.longest ≤ Python.encoding.digits) : fromJson job.asdict.dumps = .ok job :=
  fromJson_toJson distinct (toJson_within job deep short)

/-- What a new job asks of the limits beyond what its payload does. -/
theorem new_limits (id type : String) (payload : Json) (now : Time) :
    (new id type payload now).asdict.nesting = max payload.nesting 1 + 1 ∧
    (new id type payload now).asdict.longest = max payload.longest 1 := by
  constructor
  · simp [new, asdict, Json.nesting, Json.nestingFields, Json.nestingItems]
  · simp [new, asdict, Json.longest, Json.longestFields, Json.longestItems, Json.digitsOf]

/-- `job.attempt += 1` -/
def nextAttempt : Json → Except PyException Json
  | .int n => .ok (.int (n + 1))
  | .bool b => .ok (.int (if b then 2 else 1))
  | .float x => .ok (.float x.addOne)
  | other =>
      .error (.typeError ("unsupported operand type(s) for +=: '" ++ Python.typeName other ++
        "' and 'int'"))

/-- `notes.append`, which only a list has. -/
def notesOf : Json → Except PyException (List Json)
  | .arr notes => .ok notes
  | other =>
      .error (.attributeError ("'" ++ Python.typeName other ++
        "' object has no attribute 'append'"))

def failureNote (now : Time) (attempt error : String) : String :=
  Python.isoformat now ++ " failed (attempt=" ++ attempt ++ "): " ++ error

/-- The copy of a job that is dead-lettered. -/
def failed (now : Time) (error : String) (job : Job) : Except PyException Job := do
  let attempt ← nextAttempt job.attempt
  let notes ← notesOf job.notes
  let text ← Python.format attempt
  return { job with attempt := attempt, notes := .arr (notes ++
    [.str (failureNote now text error)]) }

/-- The text of that copy. -/
def deadLetter (now : Time) (error : String) (job : Job) : Except PyException String := do
  let copy ← job.failed now error
  copy.toJson

theorem deadLetter_ok {now : Time} {error text : String} {job : Job}
    (copied : job.deadLetter now error = .ok text) : ∃ copy, job.failed now error = .ok copy ∧
    copy.toJson = .ok text := by
  unfold deadLetter at copied
  cases made : job.failed now error with
  | error e =>
      rw [made] at copied
      contradiction
  | ok copy =>
      rw [made] at copied
      exact ⟨copy, rfl, copied⟩

end Job

namespace RedisQueue
open Coroutine

def enqueue (job : Job) (queue : QueueName) : Async Unit := do
  let text ← Program.ofExcept job.toJson
  redis (.rpush queue text)

theorem enqueue_within {job : Job} {queue : QueueName}
    (deep : job.asdict.nesting ≤ Python.encoding.depth)
    (short : job.asdict.longest ≤ Python.encoding.digits) :
    enqueue job queue = redis (.rpush queue job.asdict.dumps) := by
  rw [enqueue, Job.toJson_within job deep short]
  rfl

def dequeue : Async (Option Job) := do
  let res ← redis (.blpop [.high, .normal])
  match res with
  | none => return none
  | some (_, blob) => do
      let job ← Program.ofExcept (Job.fromJson blob)
      return some job

def fail (job : Job) (error : String) : Async Unit := do
  let now ← utcnow
  let text ← Program.ofExcept (job.deadLetter now error)
  redis (.rpush .failed text)

section
variable {may : Call → Prop} {job : Job} {queue : QueueName} {error : String}

theorem within_enqueue (pushes : ∀ text, may (.redis (.rpush queue text))) :
    (enqueue job queue).Within may :=
  Program.within_bind trivial fun text => Program.within_call (pushes text)

theorem within_fail (asks : may .now) (pushes : ∀ text, may (.redis (.rpush .failed text))) :
    (fail job error).Within may :=
  Program.within_bind (Program.within_call asks) fun _ =>
    Program.within_bind trivial fun text => Program.within_call (pushes text)

end

def peekFailed (limit : Int) : Async (List Job) := do
  let items ← redis (.lrange .failed 0 (limit - 1))
  Program.ofExcept (items.mapM Job.fromJson)

/-- Redis takes the index that a limit asks for. -/
def Bounded (limit : Int) : Prop := isInt64 (limit - 1) = true

section
variable {limit : Int} {now : Time} {r : Redis} {queue : QueueName}

theorem bounded_iff : Bounded limit ↔ (isInt64 0 && isInt64 (limit - 1)) = true := by
  rw [Bounded, Bool.and_eq_true, and_iff_right (by decide)]

theorem lrange_bounded (bounded : Bounded limit) :
    RedisCommand.run now (.lrange queue 0 (limit - 1)) r = .ok (r.range queue 0 (limit - 1), r) :=
  if_pos (bounded_iff.mp bounded)

theorem lrange_unbounded (unbounded : ¬ Bounded limit) :
    RedisCommand.run now (.lrange queue 0 (limit - 1)) r = .error RedisCommand.notInteger :=
  if_neg (mt bounded_iff.mpr unbounded)

end

end RedisQueue

end WiseOrder
