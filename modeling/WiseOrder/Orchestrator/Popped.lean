import WiseOrder.Runtime.Invariants

/-! What becomes of a job that a worker pops. The list gives it up before its text is
read, so a text that is no job, or a reply that does not come back, is gone. -/
namespace WiseOrder.Orchestrator
open Coroutine Coroutine.Program
variable {s : Settings} {i : CallId} {blob : String} {rest : Async Returned} {q : QueueName}
    {α : Type}

/-- An entry of the list of failed jobs that has the text: it is the text, or has it in one of its
fields. -/
def Carries (blob entry : String) : Prop :=
  entry = blob ∨ ∃ fields key, Json.Scanner.Spells entry (.obj fields) ∧
    Json.lookup key fields = some (.str blob)

/-- Whatever the replies, an entry that has the text is pushed to the list of failed jobs. -/
def Reaches (blob : String) : Async Returned → Prop
  | .done _ => False
  | .await c onReply => (∃ entry, c = .redis (.rpush .failed entry) ∧ Carries blob entry) ∨
      ∀ reply, Reaches blob (onReply reply)

/-- What a worker goes on with when its `try` block has come to a job, to nothing or to an
exception. -/
def afterTry (body : Async (Option Job)) : Async Returned := do
  let job ← tryExcept body fun _ => do
    await (.sleep 1)
    return none
  match job with
  | none => return .again
  | some job => do
      runJob registered job
      return .again

/-- What a worker goes on with when `BLPOP` replies. -/
def afterPop : Except PyException (Option (QueueName × String)) → Async Returned
  | .error e => afterTry (.done (.error e))
  | .ok none => afterTry (return none)
  | .ok (some (_, blob)) => afterTry (do
      let job ← Program.ofExcept (Job.fromJson blob)
      return some job)

/-- Does not pop. -/
def Unpopping : Call → Prop
  | .redis (.blpop _) => False
  | _ => True

/-- A runtime with one text on the lane of urgent jobs. -/
def Pool.waiting (blob : String) : Pool :=
  ⟨{ World.initial with redis := Redis.empty.push .high blob }, fun _ => .absent⟩

/-- A worker takes that text. -/
theorem run_pops (blob : String) :
    ∃ trace c c' seen, Transition.Run (Step (.defaults "/root")) (Pool.waiting blob) trace c ∧
    Step (.defaults "/root") c
    (.call ⟨1, 1, .worker⟩ ⟨.redis (.blpop [.high, .normal]), .ok (some (.high, blob))⟩ c.world)
    c' ∧ c.world.redis.lists .high = [blob] ∧ c'.world.redis.lists .high = [] ∧
    c'.threads ⟨1, 1, .worker⟩ = .active seen (afterPop (.ok (some (.high, blob)))) := by
  obtain ⟨_, -, up⟩ := run_entry (run_start (.defaults "/root")
    (fun _ _ _ => True) (Pool.waiting blob)) ⟨1, 1, .worker⟩ .worker
    [⟨.stopIsSet, .ok false⟩] (.call ⟨rfl, rfl⟩ (.stop _ _)) rfl rfl rfl
      (fun _ => trivial) (fun _ _ _ _ _ => trivial)
  exact ⟨_, _, _, _, up.unguard, .call rfl ⟨_, rfl, rfl⟩, rfl, rfl, rfl⟩

/-- A job of the demo. -/
def demoJob : Job := .new "7d2f" "demo_request" (.obj [("business_name", .str "Luna Bakery")]) 0

def demoText : String := demoJob.asdict.dumps

theorem demoText_reads : Job.fromJson demoText = .ok demoJob :=
  Job.fromJson_within (by simp [demoJob, Job.new, Job.asdict, Json.Distinct, Json.DistinctFields,
    Json.DistinctItems])
    (by decide) (by decide)

end WiseOrder.Orchestrator
