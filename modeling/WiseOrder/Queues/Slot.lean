import WiseOrder.Runtime.Invariants

/-! The slot of a commit, step by step. It is opened by a claim where it was free,
overwritten by a call that attaches its workflow, dropped by an operator, and left
alone by every other step. -/
namespace WiseOrder.Dedup
open Coroutine Coroutine.Program Relational
variable {s : Settings} {i j : CallId} {h : History} {v : OwnRows} {c c' : Pool} {e : RunEvent}
    {k : String}
  {post : CallId → Post calls OwnRows Returned}

/-- The call that wins the claim under a key by an event, and when. -/
def claimed (k : String) : RunEvent → Option (CallId × Time)
  | .call i ⟨.redis (.setNx key _ _), .ok won⟩ before =>
      have won : Bool := won
      if won && key = k then some (i, before.clock) else none
  | _ => none

/-- The time at which an event wins the claim under a key. -/
def claimTime (k : String) : RunEvent → Option Time
  | .call _ ⟨.redis (.setNx key _ _), .ok won⟩ before =>
      have won : Bool := won
      if won && key = k then some before.clock else none
  | _ => none

theorem claimTime_eq (k : String) (e : RunEvent) : claimTime k e = (claimed k e).map Prod.snd := by
  unfold claimTime claimed
  split
  · dsimp only
    split <;> rfl
  · rfl

/-- A claim is dropped. -/
def Releases (e : RunEvent) : Prop :=
  ∃ i key reply before, e = .call i ⟨.redis (.delete key), reply⟩ before

/-- The writes to a key that the program makes. -/
theorem writes_allowed {command : RedisCommand}
    (allowed : (protocol s i).allowed h (.redis command) v) (writes : command.Writes k) :
    command = .setNx k pending s.dedupTtlSeconds ∨
      (∃ repo sha id, command = .setEx k (toString id) s.dedupTtlSeconds ∧
        Won h k ∧ k = key repo sha ∧
        Inserted h v id repo sha) ∨
      command = .delete k := by
  cases command with
  | setNx key value ex =>
      cases writes
      cases role : i.role <;> simp only [protocol, role] at allowed
      case pipeline => exact .inl (by rw [allowed.1, allowed.2.1])
      all_goals exact allowed.elim
  | setEx key value ex =>
      cases writes
      cases role : i.role <;> simp only [protocol, role] at allowed
      case pipeline =>
        obtain ⟨rfl, won, repo, sha, id, same, rfl, inserted⟩ := allowed
        exact .inr (.inl ⟨repo, sha, id, rfl, won, same, inserted⟩)
      all_goals exact allowed.elim
  | delete key =>
      cases writes
      exact .inr (.inr rfl)
  | _ => exact writes.elim

theorem claimed_other {command : RedisCommand}
    {reply : Except PyException (calls.Reply (.redis command))} {w : World}
    (other : ¬ command.Writes k) : claimed k (.call i ⟨.redis command, reply⟩ w) = none := by
  cases command with
  | setNx key value ex =>
      have different : key ≠ k := other
      cases reply with
      | error e => rfl
      | ok won => cases won <;> simp [claimed, different]
  | _ => rfl

/-- What a step does to the slot under a key. -/
inductive SlotMove (s : Settings) (k : String) (c : Pool) (e : RunEvent) (c' : Pool) : Prop where
  | kept (slots : c'.world.redis.slots k = c.world.redis.slots k)
      (later : c.world.clock ≤ c'.world.clock)
      (idle : claimed k e = none)
  | opened {i : CallId} {reply : Except PyException Bool}
      (event : e = .call i ⟨.redis (.setNx k pending s.dedupTtlSeconds), reply⟩ c.world)
        (answered : reply ≠ .ok false)
      (label : claimed k e = some (i, c.world.clock) ∨ claimed k e = none)
      (free : c.world.redis.live c.world.clock k = none) (clock : c'.world.clock = c.world.clock)
      (written : c'.world.redis.slots k = some ⟨pending, c.world.clock +
        s.dedupTtlSeconds * second⟩)
  | attached {i : CallId} {repo sha : Json} {id : Nat} {reply : Except PyException Unit}
      (event : e = .call i ⟨.redis (.setEx k (toString id) s.dedupTtlSeconds), reply⟩ c.world)
      (won : Won (c.threads i).past k) (same : k = key repo sha)
      (inserted : Inserted (c.threads i).past (view i c.world) id repo sha)
      (clock : c'.world.clock = c.world.clock)
      (written : c'.world.redis.slots k = some ⟨toString id, c.world.clock +
        s.dedupTtlSeconds * second⟩)
  | dropped {i : CallId} {reply : Except PyException Unit}
      (event : e = .call i ⟨.redis (.delete k), reply⟩ c.world)
        (clock : c'.world.clock = c.world.clock)
      (erased : c'.world.redis.slots k = none)

theorem set_slots (r : Redis) (k value : String) (expires : Time) :
    (r.set k value expires).slots k = some ⟨value, expires⟩ := Function.update_self _ _ _

theorem step_slot (obeys : c.Obeys (protocol s) post view) (step : Step s c e c') :
    SlotMove s k c e c' := by
  cases step with
  | spawn | again => exact .kept rfl (Int.le_refl _) rfl
  | drift moved =>
      rcases moved with ⟨t, later, rfl⟩ | ⟨process, rfl⟩
      · exact .kept rfl later rfl
      · exact .kept rfl (Int.le_refl _) rfl
  | crash fell =>
      obtain ⟨process, -, rfl⟩ := fell
      exact .kept rfl (Int.le_refl _) rfl
  | @call i seen call onReply reply world awaiting performed =>
      change perform i call c.world reply world at performed
      have frame := perform_frame performed
      have still : c.world.clock ≤ world.clock := Int.le_of_eq frame.clock.symm
      have allowed := (obeys i _ _ awaiting).1
      cases call with
      | redis command =>
          by_cases writes : command.Writes k
          · rcases writes_allowed allowed writes with rfl | ⟨repo, sha, id,
              rfl, won, same, inserted⟩ | rfl
            · cases reply with
              | ok x =>
                  obtain ⟨r, ran, rfl⟩ := performed
                  rcases RedisCommand.run_setNx ran with ⟨rfl, free, rfl⟩ | ⟨rfl, -, rfl⟩
                  · exact .opened rfl nofun (.inl (by simp [claimed])) free
                      frame.clock (set_slots _ _ _ _)
                  · exact .kept rfl still rfl
              | error e =>
                  rcases performed with rfl | ⟨x, r, ran, rfl⟩
                  · exact .kept rfl still rfl
                  · rcases RedisCommand.run_setNx ran with ⟨-, free, rfl⟩ | ⟨-, -, rfl⟩
                    · exact .opened rfl nofun (.inr rfl) free frame.clock (set_slots _ _ _ _)
                    · exact .kept rfl still rfl
            · have past : Won (c.threads i).past k := by rwa [awaiting]
              have inserted : Inserted (c.threads i).past (view i c.world) id
                repo sha := by rwa [awaiting]
              cases reply with
              | ok x =>
                  obtain ⟨r, ran, rfl⟩ := performed
                  cases RedisCommand.run_setEx ran
                  exact .attached rfl past same inserted frame.clock (set_slots _ _ _ _)
              | error e =>
                  rcases performed with rfl | ⟨x, r, ran, rfl⟩
                  · exact .kept rfl still rfl
                  · cases RedisCommand.run_setEx ran
                    exact .attached rfl past same inserted frame.clock (set_slots _ _ _ _)
            · cases reply with
              | ok x =>
                  obtain ⟨r, ran, rfl⟩ := performed
                  cases (Prod.mk.inj (Except.ok.inj ran)).2
                  exact .dropped rfl frame.clock (Function.update_self _ _ _)
              | error e =>
                  rcases performed with rfl | ⟨x, r, ran, rfl⟩
                  · exact .kept rfl still rfl
                  · cases (Prod.mk.inj (Except.ok.inj ran)).2
                    exact .dropped rfl frame.clock (Function.update_self _ _ _)
          · refine .kept (perform_slots performed fun other same => ?_) still (claimed_other writes)
            cases same
            exact writes
      | _ => exact .kept (perform_slots performed fun other same => by cases same) still rfl

theorem step_clock (step : Step s c e c') : c.world.clock ≤ c'.world.clock := by
  cases step with
  | spawn | again => exact Int.le_refl _
  | drift moved =>
      rcases moved with ⟨t, later, rfl⟩ | ⟨process, rfl⟩
      · exact later
      · exact Int.le_refl _
  | crash fell =>
      obtain ⟨process, -, rfl⟩ := fell
      exact Int.le_refl _
  | call awaiting performed => exact Int.le_of_eq (perform_frame performed).clock.symm

end WiseOrder.Dedup
