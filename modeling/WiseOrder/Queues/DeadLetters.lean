import WiseOrder.Foundation.Eval
import WiseOrder.Queues.RedisQueue

/-! Jobs that have failed. They survive their text, however often they are failed and read
back, and an operator looks at the first of them. -/
namespace WiseOrder
open Coroutine Coroutine.Program

/-- A Redis and a clock that stands still. -/
def Redis.answer (now : Time) : Answers calls Redis
  | .now, r => (.ok now, r)
  | .redis c, r => match c.run now r with
      | .ok (x, r') => (.ok x, r')
      | .error e => (.error e, r)
  | _, r => (.error (.runtimeError "no such call"), r)

theorem eval_redis (c : RedisCommand) (now : Time) (r : Redis) :
    (redis c).eval (Redis.answer now) r = match c.run now r with
    | .ok (x, r') => (.ok x, r')
    | .error e => (.error e, r) := rfl

namespace Job

/-- A job with values of the declared types. Its payload is a tree whose objects have each key
once. -/
structure Typed where
  id : String
  type : String
  payload : Json
  distinct : payload.Distinct
  createdAt : String
  attempt : Int
  workflowId : Option Int
  parentJobId : Option String
  notes : List String

namespace Typed
variable (t : Typed)

def job : Job where
  id := .str t.id
  type := .str t.type
  payload := t.payload
  createdAt := .str t.createdAt
  attempt := .int t.attempt
  workflowId := (t.workflowId.map Json.int).getD .null
  parentJobId := (t.parentJobId.map Json.str).getD .null
  notes := .arr (t.notes.map .str)

/-- The job with one more attempt, and a note of how it failed. -/
def failed (now : Time) (error : String) : Typed :=
  { t with attempt := t.attempt + 1, notes := t.notes ++ [failureNote now
    (toString (t.attempt + 1)) error] }

variable {t}

/-- The job and those that a number of failures make of it are within the limits of the
interpreter. -/
structure Within (t : Typed) (rounds : Nat) : Prop where
  depth : t.payload.nesting < Python.encoding.depth
  payload : t.payload.longest ≤ Python.encoding.digits
  workflow : ∀ id ∈ t.workflowId, Json.digitsOf id ≤ Python.encoding.digits
  attempts : ∀ k ≤ rounds, Json.digitsOf (t.attempt + (k : Nat)) ≤ Python.encoding.digits

theorem Within.first {rounds : Nat} (within : t.Within rounds) : t.Within 0 :=
  ⟨within.depth, within.payload, within.workflow, fun k none => within.attempts k (by omega)⟩

theorem Within.failed {rounds : Nat} (within : t.Within (rounds + 1))
    (now : Time) (error : String) : (t.failed now error).Within rounds := by
  refine ⟨within.depth, within.payload, within.workflow, fun k few => ?_⟩
  have later := within.attempts (k + 1) (by omega)
  rw [Int.natCast_add, Int.natCast_one] at later
  rwa [Typed.failed, Int.add_assoc, Int.add_comm 1]

end Typed

/-- One round: at some time, with something in Redis, the job is failed for some error. -/
structure Round where
  now : Time
  error : String
  redis : Redis

/-- The job as it is read back from the end of the failed list. -/
def Round.of (round : Round) (job : Job) : Except PyException Job :=
  match (RedisQueue.fail job round.error).eval (Redis.answer round.now) round.redis with
  | (.ok _, redis) => match (redis.lists .failed).getLast? with
      | some text => fromJson text
      | none => .error (.runtimeError "the list is empty")
  | (.error e, _) => .error e

/-- The job after a number of rounds. -/
def Typed.after (t : Typed) (rounds : List Round) : Typed :=
  rounds.foldl (fun t round => t.failed round.now round.error) t

/-- Lists, each in the next one. -/
def nested : Nat → Json
  | 0 => .arr []
  | n + 1 => .arr [nested n]

end Job

/-! ### Looking at them -/

namespace RedisQueue
variable {now : Time} {r : Redis} {jobs : List Job} {texts : List String} {limit : Int}

/-- Each of the texts is that of a job. -/
def Listed (jobs : List Job) (texts : List String) : Prop :=
  List.Forall₂ (fun job text => job.toJson = .ok text) jobs texts

theorem mapM_fromJson (distinct : ∀ job ∈ jobs, job.asdict.Distinct) (listed : Listed jobs texts) :
    texts.mapM Job.fromJson = .ok jobs := by
  induction listed with
  | nil => rfl
  | cons written rest ih =>
      obtain ⟨first, others⟩ := List.forall_mem_cons.mp distinct
      rw [List.mapM_cons, Job.fromJson_toJson first written, ih others]
      rfl

/-- How many of the failed jobs a limit asks for. -/
def asked (limit : Int) (n : Nat) : Nat := (min (max limit 0) n).toNat

/-- How many of them are shown. -/
def shown (limit : Int) (n : Nat) : Nat := if 1 ≤ limit then limit.toNat else (limit + n).toNat

theorem range_shown (r : Redis) (limit : Int) : r.range .failed 0 (limit - 1) =
    (r.lists .failed).take (shown limit (r.lists .failed).length) := by
  simp only [Redis.range, Int.lt_irrefl, if_false, Int.toNat_zero, List.drop_zero, shown]
  congr 1
  split <;> split <;> omega

/-- Beyond that it raises, whatever the list. -/
theorem peekFailed_unbounded (unbounded : ¬ Bounded limit) :
    (peekFailed limit).eval (Redis.answer now) r = (.error RedisCommand.notInteger, r) := by
  have refused : (redis (.lrange .failed 0 (limit - 1))).eval (Redis.answer now) r =
      (.error RedisCommand.notInteger, r) := by
    rw [eval_redis, lrange_unbounded unbounded]
  exact eval_bind_error refused

theorem peekFailed_shown (bounded : Bounded limit) (distinct : ∀ job ∈ jobs, job.asdict.Distinct)
    (listed : Listed jobs (r.lists .failed)) :
    (peekFailed limit).eval (Redis.answer now) r =
    (.ok (jobs.take (shown limit jobs.length)), r) := by
  have ranged : (redis (.lrange .failed 0 (limit - 1))).eval (Redis.answer now) r =
      (.ok ((r.lists .failed).take (shown limit jobs.length)), r) := by
    rw [listed.length_eq, ← range_shown, eval_redis, lrange_bounded bounded]
  have first : ∀ job ∈ jobs.take (shown limit jobs.length), job.asdict.Distinct := fun job member =>
    distinct job (List.mem_of_mem_take member)
  refine (eval_bind_ok ranged).trans ?_
  rw [mapM_fromJson first (List.forall₂_take _ listed)]
  rfl

/-- The first of the failed jobs are shown, as many as are asked for, if Redis takes the index, and
at least one is asked for or there are no more failed jobs than the limit is below zero. -/
theorem peekFailed_exact (now : Time) (r : Redis) (jobs : List Job) (limit : Int)
    (distinct : ∀ job ∈ jobs, job.asdict.Distinct) (listed : Listed jobs (r.lists .failed)) :
    (peekFailed limit).eval (Redis.answer now) r = (.ok (jobs.take (asked limit jobs.length)), r) ↔
      Bounded limit ∧ (1 ≤ limit ∨ (jobs.length : Int) ≤ -limit) := by
  by_cases bounded : Bounded limit
  · rw [peekFailed_shown bounded distinct listed]
    simp only [Prod.mk.injEq, Except.ok.injEq, and_true, bounded, true_and]
    rw [List.take_eq_take_iff, shown, asked]
    split <;> omega
  · rw [peekFailed_unbounded bounded]
    simp [bounded]

/-- A failed job, and another one. -/
def one : Job := Job.new "1" "commit_pipeline" (.obj [("sha", .str "cafe")]) 0

def other : Job := Job.new "2" "demo_request" (.obj [("files", .arr [.str "a.mp4"])]) second

/-- A Redis with these two on its list. -/
def withFailed : Redis :=
  (Redis.empty.push .failed one.asdict.dumps).push .failed other.asdict.dumps

theorem failed_distinct : ∀ job ∈ [one, other], job.asdict.Distinct := by
  simp [one, other, Job.new, Job.asdict, Json.Distinct, Json.DistinctFields, Json.DistinctItems]

theorem failed_listed : Listed [one, other] (withFailed.lists .failed) :=
  .cons (Job.toJson_within one (by decide) (by decide))
    (.cons (Job.toJson_within other (by decide) (by decide)) .nil)

/-- One of two failed jobs is asked for. -/
theorem peekFailed_exact_two : (peekFailed 1).eval (Redis.answer 0) withFailed =
    (.ok ([one, other].take (asked 1 2)), withFailed) ↔ Bounded 1 ∧
    ((1 : Int) ≤ 1 ∨ ([one, other].length : Int) ≤ -1) :=
  peekFailed_exact 0 withFailed [one, other] 1 failed_distinct failed_listed

/-- None of two failed jobs is asked for, and both are shown. -/
theorem peekFailed_zero : (peekFailed 0).eval (Redis.answer 0) withFailed =
    (.ok [one, other], withFailed) ∧ [one, other].take (asked 0 2) = [] := by
  constructor
  · rw [peekFailed_shown (show isInt64 _ = true by decide) failed_distinct failed_listed]
    rfl
  · rfl

end RedisQueue

end WiseOrder
