import WiseOrder.Api.Server
import WiseOrder.Watchers.CiPolling
import WiseOrder.Watchers.Integrity

/-! What the two watchers keep of their checks, over runs of any length, and what the
server shows of it. -/
namespace WiseOrder

namespace Python
variable {α : Type}

theorem lastOnes_short {n : Nat} {items : List α} (short : items.length ≤ n) :
    lastOnes n items = items := by
  rw [lastOnes, Nat.sub_eq_zero_of_le short, List.drop_zero]

/-- To keep the last ones again and again is to keep the last ones of all. -/
theorem lastOnes_append (n : Nat) (items more : List α) : lastOnes n (lastOnes n items ++ more) =
      lastOnes n (items ++ more) := by
  by_cases short : items.length ≤ n
  · rw [lastOnes_short short]
  · have kept : (lastOnes n items).length = n := by
      rw [lastOnes, List.length_drop]
      omega
    have joined : lastOnes n items ++ more = (items ++ more).drop (items.length - n) := by
      rw [lastOnes, List.drop_append_of_le_length (Nat.sub_le _ _)]
    rw [lastOnes, List.length_append, kept, joined, List.drop_drop, lastOnes, List.length_append]
    congr 1
    omega

/-- The last ones of the last ones. -/
theorem lastOnes_lastOnes {m n : Nat} (fewer : m ≤ n) (items : List α) :
    lastOnes m (lastOnes n items) = lastOnes m items := by
  rw [lastOnes, lastOnes, lastOnes, List.drop_drop, List.length_drop]
  congr 1
  omega

end Python

/-! ### The integrity watcher -/

namespace IntegrityWatcher
variable {Head : Type} [DecidableEq Head]

theorem take_history (w : IntegrityWatcher Head) (check : IntegrityCheck Head) :
    (w.take check).history = Python.lastOnes 100 (w.history ++ [check]) := by
  have kept : (w.append check).history = Python.lastOnes 100 (w.history ++ [check]) := by
    simp only [append]
    split
    · rfl
    · exact (Python.lastOnes_short (by omega)).symm
  rw [← kept]
  simp only [take, checkOnce, differs, compare]
  split
  · rfl
  · split <;> rfl

theorem foldl_history (w : IntegrityWatcher Head) (short : w.history = [])
    (checks : List (IntegrityCheck Head)) : (checks.foldl take w).history =
      Python.lastOnes 100 checks := by
  induction checks using List.reverseRecOn with
  | nil => simp [short, Python.lastOnes]
  | append_singleton past check ih =>
      rw [List.foldl_append, List.foldl_cons, List.foldl_nil,
        take_history, ih, Python.lastOnes_append]

theorem foldl_settings (w : IntegrityWatcher Head) (checks : List (IntegrityCheck Head)) :
    (checks.foldl take w).chainDir = w.chainDir ∧ (checks.foldl take w).intervalSeconds =
      w.intervalSeconds := by
  induction checks using List.reverseRecOn with
  | nil => exact ⟨rfl, rfl⟩
  | append_singleton past check ih =>
      have same (w : IntegrityWatcher Head) : (w.take check).chainDir = w.chainDir ∧
          (w.take check).intervalSeconds = w.intervalSeconds := by
        simp only [take, checkOnce, differs, compare]
        split
        · exact ⟨rfl, rfl⟩
        · split <;> exact ⟨rfl, rfl⟩
      rw [List.foldl_append, List.foldl_cons, List.foldl_nil]
      exact ⟨(same _).1.trans ih.1, (same _).2.trans ih.2⟩

end IntegrityWatcher

/-! ### The CI watcher -/

namespace CIWatcher
variable (wording : Json.Scanner.Failure → String) (limits : Json.Scanner.Limits)

/-- A watcher as it is constructed, with an empty history for each repository, in the order in which
they come first. -/
def new (repos : List String) (intervalSeconds : Json.Float) : CIWatcher :=
  ⟨repos, intervalSeconds, repos.reverse.dedup.reverse.map fun repo => (repo, [])⟩

/-- What a check comes to. -/
def checked (repo : String) (found : Found) : Except PyException CICheck :=
  ((checkOne wording limits repo).eval (answer found.now found.gh) 0).1

/-- The checks that a round makes, each with its repository, up to one that raises. -/
def made : List String → (Nat → Found) → List (String × CICheck)
  | [], _ => []
  | repo :: rest, finds =>
      match checked wording limits repo (finds 0) with
      | .ok check => (repo, check) :: made rest fun i => finds (i + 1)
      | .error _ => []

/-- The checks of one repository. -/
def checksOf (repo : String) (checks : List (String × CICheck)) : List CICheck :=
  (checks.filter fun c => c.1 = repo).map Prod.snd

/-- The watcher after so many rounds. -/
def after (p : Poller) (rounds : List (Nat → Found)) : Poller :=
  rounds.foldl (fun p finds => (checkAll wording limits finds p).2) p

variable {wording limits} {repos keys : List String} {repo : String} {check : CICheck}
    {checks : List (String × CICheck)}

theorem checked_eval (found : Found) (children : Nat) :
    ((checkOne wording limits repo).eval (answer found.now found.gh) children).1 =
      checked wording limits repo found := by
  obtain ⟨now, gh⟩ := found
  cases gh <;> rfl

/-- The history of the keys, each with the last of its checks. -/
def histories (keys : List String) (checks : List (String × CICheck)) :
    List (String × List CICheck) :=
  keys.map fun repo => (repo, Python.lastOnes 50 (checksOf repo checks))

/-- A repository that is checked is kept one more check of, and the others stay. -/
theorem keep_histories (distinct : keys.Nodup) (known : repo ∈ keys) :
    keep repo check (histories keys checks) = histories keys (checks ++ [(repo, check)]) := by
  have others {k : String} (other : k ≠ repo) : checksOf k (checks ++ [(repo, check)]) =
      checksOf k checks := by
    simp [checksOf, Ne.symm other]
  have mine : checksOf repo (checks ++ [(repo, check)]) = checksOf repo checks ++
    [check] := by simp [checksOf]
  induction keys with
  | nil => cases known
  | cons k keys ih =>
      obtain ⟨fresh, distinct⟩ := List.nodup_cons.mp distinct
      simp only [histories, List.map_cons, keep]
      split
      · rename_i same
        subst k
        rw [mine, Python.lastOnes_append]
        congr 1
        refine List.map_congr_left fun k there => ?_
        rw [others fun same => fresh (same ▸ there)]
      · rename_i other
        rw [others other]
        exact congrArg _ (ih distinct ((List.mem_cons.mp known).resolve_left (Ne.symm other)))

theorem checkEach_histories (distinct : keys.Nodup) (known : repos ⊆ keys) (finds : Nat → Found)
    (p : Poller) (before : p.watcher.history = histories keys checks) : ∃ children polled,
    (checkEach wording limits repos finds p).2 =
      ⟨{ p.watcher with history := histories keys (checks ++ made wording limits repos finds) },
        children, polled⟩ := by
  induction repos generalizing finds p checks with
  | nil => exact ⟨p.children, p.polled, by simp [checkEach, made, ← before]⟩
  | cons repo repos ih =>
      obtain ⟨here, known⟩ := List.cons_subset.mp known
      have comes : ((checkOne wording limits repo).eval (answer (finds 0).now (finds 0).gh)
        p.children).1 =
          checked wording limits repo (finds 0) := checked_eval (finds 0) p.children
      rcases answered : (checkOne wording limits repo).eval (answer (finds 0).now (finds 0).gh)
        p.children with ⟨result, children⟩
      rw [answered] at comes
      cases result with
      | error e =>
          exact ⟨children, p.polled, by simp [checkEach, answered, made, ← comes, ← before]⟩
      | ok check =>
          have kept : (p.record repo check children).watcher.history =
              histories keys (checks ++ [(repo, check)]) := by
            simp only [Poller.record, before]
            exact keep_histories distinct here
          obtain ⟨children', polled, rest⟩ :=
            ih known (fun i => finds (i + 1)) (p.record repo check children) kept
          refine ⟨children', polled, ?_⟩
          simp only [checkEach, answered, rest, made, ← comes]
          simp [Poller.record]

/-- After any rounds, each repository has the last of the checks that were made of it. -/
theorem after_histories (repos : List String) (intervalSeconds : Json.Float)
    (rounds : List (Nat → Found)) :
    ∃ children polled, after wording limits ⟨new repos intervalSeconds, 0, []⟩ rounds =
      ⟨⟨repos, intervalSeconds,
        histories repos.reverse.dedup.reverse (rounds.flatMap (made wording limits repos))⟩,
      children, polled⟩ := by
  induction rounds using List.reverseRecOn with
  | nil => exact ⟨0, [], by simp [after, new, histories, checksOf, Python.lastOnes]⟩
  | append_singleton past finds ih =>
      obtain ⟨children, polled, earlier⟩ := ih
      have distinct : repos.reverse.dedup.reverse.Nodup :=
        List.nodup_reverse.mpr (List.nodup_dedup _)
      have known : repos ⊆ repos.reverse.dedup.reverse := by simp [List.subset_def]
      obtain ⟨children', polled', round⟩ := checkEach_histories distinct known finds
        ⟨⟨repos, intervalSeconds, histories _ (past.flatMap (made wording limits repos))⟩, children,
          polled⟩ rfl
      refine ⟨children', polled', ?_⟩
      rw [after] at earlier ⊢
      rw [List.foldl_append, List.foldl_cons, List.foldl_nil, earlier, List.flatMap_append]
      simpa [checkAll] using round

end CIWatcher

/-! ### What is shown -/

section
variable (wording : Json.Scanner.Failure → String) (limits : Json.Scanner.Limits)

/-- After any checks the integrity watcher has the last 100 of them, and the head of the latest one
that verified and had one; after any rounds the CI watcher has the last 50 checks of each
repository; and the server shows the last of these. -/
theorem watchers_keep (chainDir : String) (interval pause : Json.Float)
    (checks : List IntegrityCheck) (repos : List String) (rounds : List (Nat → CIWatcher.Found)) :
    let iw := checks.foldl IntegrityWatcher.take (IntegrityWatcher.new chainDir interval)
    let ci := (CIWatcher.after wording limits ⟨CIWatcher.new repos pause, 0, []⟩ rounds).watcher
    let made := rounds.flatMap (CIWatcher.made wording limits repos)
    let keys := repos.reverse.dedup.reverse
    (iw.history = Python.lastOnes 100 checks ∧ iw.lastHead = IntegrityWatcher.lastKnown checks) ∧
    ci.history = (keys.map fun repo => (repo, Python.lastOnes 50 (CIWatcher.checksOf repo made))) ∧
    Api.integrityDict (some iw) = .obj [("status", .str "running"), ("chain_dir", .str chainDir),
      ("interval_seconds", .float interval),
      ("last_known_head", optionStr (IntegrityWatcher.lastKnown checks)),
      ("history", .arr ((Python.lastOnes 20 checks).map IntegrityCheck.toDict))] ∧
    Api.ciDict (some ci) = .obj [("status", .str "running"), ("repos", .arr (repos.map .str)),
      ("interval_seconds", .float pause),
      ("history", .obj (keys.map fun repo =>
          (repo, .arr ((Python.lastOnes 10 (CIWatcher.checksOf repo made)).map
          CICheck.toDict))))] := by
  intro iw ci made keys
  have history : iw.history = Python.lastOnes 100 checks :=
    IntegrityWatcher.foldl_history _ rfl checks
  have head : iw.lastHead = IntegrityWatcher.lastKnown checks := IntegrityWatcher.lastHead_eq rfl
  obtain ⟨dir, seconds⟩ : iw.chainDir = chainDir ∧ iw.intervalSeconds = interval :=
    IntegrityWatcher.foldl_settings _ checks
  have watcher : ci = ⟨repos, pause, CIWatcher.histories keys made⟩ := by
    obtain ⟨children, polled, same⟩ := CIWatcher.after_histories repos pause rounds
    exact congrArg CIWatcher.Poller.watcher same
  refine ⟨⟨history, head⟩, congrArg CIWatcher.history watcher, ?_, ?_⟩
  · rw [Api.integrityDict, dir, seconds, head, history, Python.lastOnes_lastOnes (by decide)]
  · rw [watcher, Api.ciDict, CIWatcher.histories, List.map_map]
    have shown (repo : String) : Python.lastOnes 10
      (Python.lastOnes 50 (CIWatcher.checksOf repo made)) =
        Python.lastOnes 10 (CIWatcher.checksOf repo made) :=
      Python.lastOnes_lastOnes (by decide) _
    simp only [Function.comp_def, shown]

end

end WiseOrder
