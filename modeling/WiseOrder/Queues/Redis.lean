import WiseOrder.Python

/-! The commands that the program sends to Redis. A key written with an expiry is
there until that instant and not after it; lists are pushed at their end and
popped at their front. -/
namespace WiseOrder

inductive QueueName where
  | high
  | normal
  | failed
  deriving DecidableEq

def QueueName.value : QueueName → String
  | .high => "wiseorder:queue:high_priority"
  | .normal => "wiseorder:queue:normal_priority"
  | .failed => "wiseorder:queue:failed_jobs"

structure Slot where
  value : String
  expires : Time

structure Redis where
  slots : String → Option Slot
  lists : QueueName → List String

inductive RedisCommand where
  | setNx (key value : String) (ex : Int)
  | setEx (key value : String) (ex : Int)
  | get (key : String)
  | delete (key : String)
  | rpush (queue : QueueName) (text : String)
  | blpop (queues : List QueueName)
  | lrange (queue : QueueName) (start stop : Int)
  | llen (queue : QueueName)

namespace Redis

def empty : Redis := ⟨fun _ => none, fun _ => []⟩

/-- The value under a key, unless it has expired. -/
def live (r : Redis) (now : Time) (key : String) : Option String :=
  match r.slots key with
  | some slot => if now < slot.expires then some slot.value else none
  | none => none

def set (r : Redis) (key value : String) (expires : Time) : Redis :=
  { r with slots := Function.update r.slots key (some ⟨value, expires⟩) }

def drop (r : Redis) (key : String) : Redis := { r with slots := Function.update r.slots key none }

def push (r : Redis) (queue : QueueName) (text : String) : Redis :=
  { r with lists := Function.update r.lists queue (r.lists queue ++ [text]) }

theorem live_set {r : Redis} {now expires : Time} {key value : String} (before : now < expires) :
    (r.set key value expires).live now key = some value := by
  simp [live, set, before]

theorem live_over {r : Redis} {now expires : Time} {key value : String} (passed : expires ≤ now) :
    (r.set key value expires).live now key = none := by
  simp [live, set, Int.not_lt.mpr passed]

theorem live_other {r : Redis} {now expires : Time} {key other value : String}
    (different : other ≠ key) : (r.set key value expires).live now other = r.live now other := by
  simp [live, set, different]

/-- The first of the queues that has an element, without that element. -/
def pop (r : Redis) : List QueueName → Option (QueueName × String) × Redis
  | [] => (none, r)
  | q :: qs => match r.lists q with
      | [] => r.pop qs
      | text :: rest => (some (q, text), { r with lists := Function.update r.lists q rest })

/-- `LRANGE`: both ends included, a negative index counts from the end. -/
def range (r : Redis) (queue : QueueName) (start stop : Int) : List String :=
  let items := r.lists queue
  let first := if start < 0 then max 0 (start + items.length) else start
  let last := if stop < 0 then stop + items.length else stop
  (items.take (last + 1).toNat).drop first.toNat

end Redis

namespace RedisCommand

def Reply : RedisCommand → Type
  | .setNx .. => Bool
  | .setEx .. => Unit
  | .get .. => Option String
  | .delete .. => Unit
  | .rpush .. => Unit
  | .blpop .. => Option (QueueName × String)
  | .lrange .. => List String
  | .llen .. => Nat

/-- `LRANGE` with an index of more than 64 bits. -/
def notInteger : PyException := ⟨.other "ResponseError", "value is not an integer or out of range"⟩

def responseError (text : String) : PyException := ⟨.other "ResponseError", text⟩

def run (now : Time) : (c : RedisCommand) → Redis → Except PyException (c.Reply × Redis)
  | .setNx key value ex, r =>
      if ex ≤ 0 then .error (responseError "invalid expire time in 'set' command")
      else match r.live now key with
        | some _ => .ok (false, r)
        | none => .ok (true, r.set key value (now + ex * second))
  | .setEx key value ex, r =>
      if ex ≤ 0 then .error (responseError "invalid expire time in 'set' command")
      else .ok ((), r.set key value (now + ex * second))
  | .get key, r => .ok (r.live now key, r)
  | .delete key, r => .ok ((), r.drop key)
  | .rpush queue text, r => .ok ((), r.push queue text)
  | .blpop queues, r => .ok (r.pop queues)
  | .lrange queue start stop, r =>
      if isInt64 start && isInt64 stop then .ok (r.range queue start stop, r)
      else .error notInteger
  | .llen queue, r => .ok ((r.lists queue).length, r)

variable {now : Time} {r r' : Redis}

/-- `SET NX` writes where nothing is live, and says so. -/
theorem run_setNx {key value : String} {ex : Int} {won : Bool}
    (ran : run now (.setNx key value ex) r = .ok (won, r')) :
    (won = true ∧ r.live now key = none ∧ r' = r.set key value (now + ex * second)) ∨
      (won = false ∧ r.live now key ≠ none ∧ r' = r) := by
  simp only [run] at ran
  split at ran
  · contradiction
  · split at ran
    · rename_i live
      obtain ⟨rfl, rfl⟩ := Prod.mk.inj (Except.ok.inj ran)
      exact .inr ⟨rfl, by simp [live], rfl⟩
    · rename_i live
      obtain ⟨rfl, rfl⟩ := Prod.mk.inj (Except.ok.inj ran)
      exact .inl ⟨rfl, live, rfl⟩

theorem setNx_taken {key value other : String} {ex : Int} (live : r.live now key = some other)
    (positive : 0 < ex) : run now (.setNx key value ex) r = .ok (false, r) := by
  simp only [run, live, Int.not_le.mpr positive, if_false]

theorem setNx_free {key value : String} {ex : Int} (free : r.live now key = none)
    (positive : 0 < ex) : run now (.setNx key value ex) r =
      .ok (true, r.set key value (now + ex * second)) := by
  simp only [run, free, Int.not_le.mpr positive, if_false]

theorem run_setEx {key value : String} {ex : Int} {x : Unit}
    (ran : run now (.setEx key value ex) r = .ok (x, r')) :
    r' = r.set key value (now + ex * second) := by
  simp only [run] at ran
  split at ran
  · contradiction
  · exact (Prod.mk.inj (Except.ok.inj ran)).2.symm

theorem run_lrange {queue : QueueName} {start stop : Int} {x : List String}
    (ran : run now (.lrange queue start stop) r = .ok (x, r')) :
    x = r.range queue start stop ∧ r' = r := by
  simp only [run] at ran
  split at ran
  · obtain ⟨rfl, rfl⟩ := Prod.mk.inj (Except.ok.inj ran)
    exact ⟨rfl, rfl⟩
  · contradiction

/-- The commands that write to a key. -/
def Writes (key : String) : RedisCommand → Prop
  | .setNx k _ _ | .setEx k _ _ | .delete k => k = key
  | _ => False

theorem pop_slots (r : Redis) (queues : List QueueName) : (r.pop queues).2.slots = r.slots := by
  induction queues with
  | nil => rfl
  | cons q qs ih =>
      simp only [Redis.pop]
      split
      · exact ih
      · rfl

/-- A command that does not write to a key leaves it alone. -/
theorem run_slots {c : RedisCommand} {x : c.Reply} (ran : c.run now r = .ok (x, r'))
    (other : ¬ c.Writes key) : r'.slots key = r.slots key := by
  cases c with
  | setNx k value ex =>
      rcases run_setNx ran with ⟨-, -, rfl⟩ | ⟨-, -, rfl⟩
      · exact Function.update_of_ne (fun same => other same.symm) _ _
      · rfl
  | setEx k value ex =>
      rw [run_setEx ran]
      exact Function.update_of_ne (fun same => other same.symm) _ _
  | delete k =>
      rw [← (Prod.mk.inj (Except.ok.inj ran)).2]
      exact Function.update_of_ne (fun same => other same.symm) _ _
  | blpop queues =>
      have popped : r.pop queues = (x, r') := Except.ok.inj ran
      have kept := congrFun (pop_slots r queues) key
      rwa [popped] at kept
  | lrange queue start stop => rw [(run_lrange ran).2]
  | get | rpush | llen =>
      cases (Prod.mk.inj (Except.ok.inj ran)).2
      rfl

/-- The commands that look at nothing but one key. -/
def On (key : String) : RedisCommand → Prop
  | .setNx k _ _ | .setEx k _ _ | .get k | .delete k => k = key
  | _ => False

theorem live_same {other : Redis} {key : String} (same : other.slots key = r.slots key) :
    other.live now key = r.live now key := by simp only [Redis.live, same]

/-- A command on one key replies and writes by what is under that key. -/
theorem run_same {c : RedisCommand} {x : c.Reply} {other : Redis} {key : String} (on : c.On key)
    (same : other.slots key = r.slots key) (ran : c.run now r = .ok (x, r')) :
    ∃ other', c.run now other = .ok (x, other') ∧ other'.slots key = r'.slots key := by
  have live : other.live now key = r.live now key := live_same same
  cases c with
  | setNx k value ex =>
      cases on
      simp only [run, live] at ran ⊢
      split at ran
      · contradiction
      · rename_i valid
        split at ran
        · obtain ⟨rfl, rfl⟩ := Prod.mk.inj (Except.ok.inj ran)
          exact ⟨other, if_neg valid, same⟩
        · obtain ⟨rfl, rfl⟩ := Prod.mk.inj (Except.ok.inj ran)
          exact ⟨_, if_neg valid, by simp [Redis.set]⟩
  | setEx k value ex =>
      cases on
      simp only [run] at ran ⊢
      split at ran
      · contradiction
      · rename_i valid
        obtain ⟨-, rfl⟩ := Prod.mk.inj (Except.ok.inj ran)
        exact ⟨_, if_neg valid, by simp [Redis.set]⟩
  | get k =>
      cases on
      obtain ⟨rfl, rfl⟩ := Prod.mk.inj (Except.ok.inj ran)
      exact ⟨other, by simp only [run, live], same⟩
  | delete k =>
      cases on
      obtain ⟨-, rfl⟩ := Prod.mk.inj (Except.ok.inj ran)
      exact ⟨_, rfl, by simp [Redis.drop]⟩
  | _ => exact on.elim

end RedisCommand

end WiseOrder
