import WiseOrder.Watchers.Records
import Mathlib.Data.List.Induction

/-! The integrity watcher: what it records of a check, and what it logs when the head
of the chain has moved or the chain does not verify. -/
namespace WiseOrder.IntegrityWatcher
variable {Head : Type}

inductive Logged (Head : Type) where
  | headMoved (prior new : Option Head) (count : Int)
  | divergence (status note : String)

/-- A watcher as it is constructed. -/
def new (chainDir : String) (intervalSeconds : Json.Float) : IntegrityWatcher Head :=
  ⟨chainDir, intervalSeconds, none, []⟩

/-- The history is bounded to the most recent 100 checks. -/
def append (w : IntegrityWatcher Head) (check : IntegrityCheck Head) : IntegrityWatcher Head :=
  let history := w.history ++ [check]
  { w with history := if history.length > 100 then Python.lastOnes 100 history else history }

/-- `check.head != self.last_head` of values that compare as they are. -/
def differs [DecidableEq Head] (a b : Option Head) : Except PyException Bool := .ok (a ≠ b)

/-- The comparison with the last known head, given whether the heads differ. -/
def compare (w : IntegrityWatcher Head) (check : IntegrityCheck Head) (moved : Bool) :
    Option (Logged Head) × IntegrityWatcher Head :=
  if moved && check.head.isSome && check.status = "CHAIN_VALID" then
    (some (.headMoved w.lastHead check.head check.count), { w with lastHead := check.head })
  else if !(["CHAIN_VALID", "CHAIN_EMPTY"].contains check.status) then (some (.divergence
    check.status check.note), w)
  else (none, w)

/-- `_check_once()`, given what `_verify_once()` comes to. -/
def checkOnce (ne : Option Head → Option Head → Except PyException Bool)
    (verified : Except PyException (IntegrityCheck Head)) (w : IntegrityWatcher Head) :
    Except PyException (IntegrityCheck Head × Option (Logged Head)) × IntegrityWatcher Head :=
  match verified with
  | .error e => (.error e, w)
  | .ok check =>
      let w := w.append check
      match ne check.head w.lastHead with
      | .error e => (.error e, w)
      | .ok moved =>
          let (line, w) := w.compare check moved
          (.ok (check, line), w)

/-! ### What is logged over a run -/

/-- The head of the latest check that verified and had one. -/
def lastKnown (checks : List (IntegrityCheck Head)) : Option Head :=
  (checks.filterMap fun check => if check.status = "CHAIN_VALID" then check.head else none).getLast?

/-- Verification failed. -/
def Failed (check : IntegrityCheck Head) : Prop := check.status ≠ "CHAIN_VALID" ∧
    check.status ≠ "CHAIN_EMPTY"

/-- What is to be logged: a check that failed, and a head other than the last known one, also when
there is none any more. -/
def Due (past : List (IntegrityCheck Head)) (check : IntegrityCheck Head) : Prop :=
  Failed check ∨ check.head ≠ lastKnown past

/-- A chain without a head that verifies, or an empty one. -/
def Headless (check : IntegrityCheck Head) : Prop :=
  check.status = "CHAIN_VALID" ∧ check.head = none ∨ check.status = "CHAIN_EMPTY"

theorem lastKnown_snoc (past : List (IntegrityCheck Head)) (check : IntegrityCheck Head) :
    lastKnown (past ++ [check]) = if check.status = "CHAIN_VALID" then check.head.or
    (lastKnown past) else lastKnown past := by
  rw [lastKnown, lastKnown, List.filterMap_append]
  by_cases valid : check.status = "CHAIN_VALID"
  · cases head : check.head <;> simp [valid, head]
  · simp [valid]

variable [DecidableEq Head]

def take (w : IntegrityWatcher Head) (check : IntegrityCheck Head) : IntegrityWatcher Head :=
  (checkOnce differs (.ok check) w).2

def logs (w : IntegrityWatcher Head) (check : IntegrityCheck Head) : Option (Logged Head) :=
  match (checkOnce differs (.ok check) w).1 with
  | .ok (_, line) => line
  | .error _ => none

variable {w : IntegrityWatcher Head} {check : IntegrityCheck Head}
    {checks past : List (IntegrityCheck Head)}

theorem take_lastHead (w : IntegrityWatcher Head) (check : IntegrityCheck Head) :
    (w.take check).lastHead = if check.status = "CHAIN_VALID" then check.head.or w.lastHead
      else w.lastHead := by
  by_cases valid : check.status = "CHAIN_VALID"
  · cases head : check.head with
    | none => simp [take, checkOnce, differs, compare, head, append, valid]
    | some h =>
        by_cases same : some h = w.lastHead
        · simp [take, checkOnce, differs, compare, head, append, valid, ← same]
        · simp [take, checkOnce, differs, compare, head, append, valid, same]
  · simp only [take, checkOnce, differs, compare, valid, decide_false, Bool.and_false,
      Bool.false_eq_true, if_false]
    split <;> rfl

/-- What the watcher keeps is the last known head. -/
theorem lastHead_eq (fresh : w.lastHead = none) :
    (checks.foldl take w).lastHead = lastKnown checks := by
  induction checks using List.reverseRecOn with
  | nil => exact fresh
  | append_singleton past check ih =>
      rw [List.foldl_append, List.foldl_cons, List.foldl_nil, take_lastHead, ih, lastKnown_snoc]

/-- A check is logged when it failed, and when it is valid and has another head. -/
theorem logs_iff : (w.logs check).isSome ↔
    Failed check ∨ check.status = "CHAIN_VALID" ∧ check.head ≠ none ∧ check.head ≠ w.lastHead := by
  by_cases valid : check.status = "CHAIN_VALID"
  · cases head : check.head with
    | none => simp [logs, checkOnce, differs, compare, append, Failed, head, valid]
    | some h =>
        by_cases same : some h = w.lastHead <;> simp [logs, checkOnce, differs, compare,
          append, Failed, head, valid, same]
  · by_cases empty : check.status = "CHAIN_EMPTY" <;> simp [logs, checkOnce, differs,
      compare, Failed, valid, empty]

/-- Every check of a sequence that is due is logged, so that of two checks in a row with different
heads one is. -/
def Surfaced (w : IntegrityWatcher Head) (checks : List (IntegrityCheck Head)) : Prop :=
  (∀ past check rest, checks = past ++ check :: rest → Due past check →
    ((past.foldl take w).logs check).isSome) ∧
  ∀ past check next rest, checks = past ++ check :: next :: rest → check.head ≠ next.head →
    ((past.foldl take w).logs check).isSome ∨ (((past ++ [check]).foldl take w).logs next).isSome

/-- What is due is logged, unless the chain is without a head and is not the one last known. -/
theorem logs_due (fresh : w.lastHead = none) :
    (Due past check → ((past.foldl take w).logs check).isSome) ↔
    (Headless check → check.head = lastKnown past) := by
  rw [logs_iff, lastHead_eq fresh]
  constructor
  · intro logged headless
    by_contra other
    rcases logged (.inr other) with failed | ⟨valid, some, -⟩
    · rcases headless with ⟨valid, -⟩ | empty
      · exact failed.1 valid
      · exact failed.2 empty
    · rcases headless with ⟨-, none⟩ | empty
      · exact some none
      · simp [valid] at empty
  · rintro known (failed | other)
    · exact .inl failed
    · by_cases failed : Failed check
      · exact .inl failed
      · have loud : ¬ Headless check := fun headless => other (known headless)
        simp only [Headless, not_or, not_and] at loud
        simp only [Failed, not_and, not_not] at failed
        have valid : check.status = "CHAIN_VALID" := by
          by_contra invalid
          exact loud.2 (failed invalid)
        exact .inr ⟨valid, loud.1 valid, other⟩

/-- A check that is not logged has the head that is the last known one after it. -/
theorem quiet_known (due : Due past check → ((past.foldl take w).logs check).isSome)
    (quiet : ¬ ((past.foldl take w).logs check).isSome) :
    check.head = lastKnown (past ++ [check]) := by
  have known : ¬ Due past check := fun loud => quiet (due loud)
  simp only [Due, not_or, not_not] at known
  rw [lastKnown_snoc, ← known.2]
  split <;> simp

/-- A sequence is surfaced exactly when an empty chain, and a valid one without a head, are seen
only where no other head is known. -/
theorem surfaced_iff (chainDir : String) (intervalSeconds : Json.Float)
    (checks : List (IntegrityCheck Head)) : (new chainDir intervalSeconds).Surfaced checks ↔
      ∀ past check rest, checks = past ++ check :: rest → Headless check →
      check.head = lastKnown past := by
  have fresh : (new chainDir intervalSeconds : IntegrityWatcher Head).lastHead = none := rfl
  constructor
  · intro surfaced past check rest same
    exact (logs_due fresh).mp (surfaced.1 past check rest same)
  · intro known
    have due (past check rest) (same : checks = past ++ check :: rest) :=
      (logs_due fresh).mpr (known past check rest same)
    refine ⟨due, fun past check next rest same other => ?_⟩
    by_contra quiet
    rw [not_or] at quiet
    have first := quiet_known (due past check (next :: rest) same) quiet.1
    have second := mt (due (past ++ [check]) next rest (by simp [same])) quiet.2
    simp only [Due, not_or, not_not] at second
    exact other (first.trans second.2.symm)

def sampleCheck (status : String) (head : Option String) : IntegrityCheck :=
  ⟨"2024-01-01T00:00:00+00:00", status, 0, head, "/srv/protocol/chain", ""⟩

/-- A chain with a head is emptied, and nothing is logged. -/
theorem emptied_unseen : ¬ (new "/srv/protocol/chain" (.infinity)).Surfaced
    [sampleCheck "CHAIN_VALID" (some "9f2c"), sampleCheck "CHAIN_EMPTY" none] := by
  intro surfaced
  have silent := surfaced.1 [sampleCheck "CHAIN_VALID" (some "9f2c")]
    (sampleCheck "CHAIN_EMPTY" none) [] rfl (.inr (by decide))
  revert silent
  decide

end WiseOrder.IntegrityWatcher
