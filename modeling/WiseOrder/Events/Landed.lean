import WiseOrder.Events.Observed
import Mathlib.Data.List.Dedup
import Mathlib.Data.List.FinRange

/-! Which commits the watcher enqueues. A handler knows of `HEAD` what it read last,
not the history between: there is one job for each look that found it moved, with
the commit that was read. -/
namespace WiseOrder.EventWatcher
open Coroutine
variable {repos : List String} {i : CallId} {start c : WatchPool} {trace : List WatchEvent}

/-- The second commit is the first, or came before it. -/
def Reaches (parents : String → List String) : String → String → Prop :=
  Relation.ReflTransGen fun commit parent => parent ∈ parents commit

/-- The commit came in with a value of `HEAD`, and was there with none of the values before it. -/
def Landed (parents : String → List String) (heads : List String) (sha : String) : Prop :=
  ∃ later head old earlier, heads = later ++ head :: old :: earlier ∧ Reaches parents head sha ∧
    ∀ before ∈ old :: earlier, ¬ Reaches parents before sha

/-- The jobs are for the commits that landed, one for each. -/
def LandsExactly (parents : String → List String) (repo : String) (c : WatchPool)
    (trace : List WatchEvent) : Prop :=
  (enqueued trace).Nodup ∧ ∀ sha, (repo, sha) ∈ enqueued trace ↔
    Landed parents (c.world.heads repo) sha

/-- Every thread has ended, and the loop has run what it was given. -/
structure Settled (c : WatchPool) : Prop where
  ended : ∀ j, ¬ (c.threads j).Live
  ran : ∀ n, n < c.world.scheduled.length → c.threads (.emission n) ≠ .absent

/-- Each handling has looked, and what a look has found moved has been noted and handed over. -/
structure HandledEach (repos : List String) (c : WatchPool) (trace : List WatchEvent) : Prop where
  events : ∀ n repo srcPath, .spawn (.event n) (onAnyEvent repo srcPath) ∈ trace →
    if relevant srcPath then Looked repo [⟨.loop, .ok .accepting⟩] (c.threads (.event n)).past
    else (c.threads (.event n)).past = []
  reconciled : .spawn .reconcile (reconcileAfterStart repos) ∈ trace →
    ∃ loop made, (c.threads .reconcile).past = ⟨.loop, .ok loop⟩ :: made ∧ Looks repos made

/-! ### What each thread adds -/

def isHandler : Party → Bool
  | .emission _ => false
  | _ => true

def callers (trace : List WatchEvent) : List Party := trace.filterMap fun
  | .call j _ _ => some j
  | _ => none

/-- The coroutines, and the handlers that made a call. -/
def parties (c : WatchPool) (trace : List WatchEvent) : List Party :=
  (List.finRange c.world.scheduled.length).map (fun n => .emission n) ++
    ((callers trace).filter isHandler).dedup

theorem parties_nodup : (parties c trace).Nodup := by
  rw [parties, List.nodup_append]
  refine ⟨(List.nodup_finRange _).map fun n m same => Fin.ext (Party.emission.inj same),
    List.nodup_dedup _, ?_⟩
  rintro _ coroutine j member rfl
  obtain ⟨n, -, rfl⟩ := List.mem_map.mp coroutine
  simp [isHandler] at member

theorem mem_parties (fresh : Fresh start)
    (run : Transition.Run (watching repos i).Step start trace c) {j : Party}
    {x : Interaction watchCalls} {before : Watched} (called : .call j x before ∈ trace) :
    j ∈ parties c trace := by
  rw [parties, List.mem_append]
  cases handles : isHandler j with
  | true =>
      refine .inr (List.mem_dedup.mpr (List.mem_filter.mpr ⟨?_, handles⟩))
      exact List.mem_filterMap.mpr ⟨_, called, rfl⟩
  | false =>
      cases j with
      | event | reconcile => contradiction
      | emission n =>
          have there : c.threads (.emission n) ≠ .absent := by
            intro absent
            have member := (Machine.mem_past id run (fresh.threads _)).mpr ⟨before, called⟩
            rw [absent] at member
            contradiction
          obtain ⟨p, spawned⟩ := Machine.spawned_within id run (fresh.threads _) there
          obtain ⟨e, found, -⟩ := program_of run spawned
          obtain ⟨bound, -⟩ := List.getElem?_eq_some_iff.mp found
          exact .inl (List.mem_map.mpr ⟨⟨n, bound⟩, List.mem_finRange _, rfl⟩)

theorem recorded_perm (fresh : Fresh start)
    (run : Transition.Run (watching repos i).Step start trace c)
    (f : Interaction watchCalls → Option (String × String)) :
    (recorded f trace).Perm
    ((parties c trace).flatMap fun j => (c.threads j).past.filterMap f) := by
  have past (j : Party) : (c.threads j).past = trace.filterMap (Event.own j) := by
    rw [Machine.run_past id run j, fresh.threads j]
    rfl
  have made := made_perm (parties_nodup : (parties c trace).Nodup) fun j x before called =>
    mem_parties fresh run called
  have filtered := made.filterMap f
  simp only [List.filterMap_flatMap, ← past] at filtered
  exact filtered

/-- In a settled run each coroutine has pushed what it was given, and each handler has handed over
what it noted. -/
theorem settled_ended (fresh : Fresh start)
    (run : Transition.Run (Transition.Guarded (watching repos i).Step Serving) start trace c)
    (settled : Settled c) {j : Party} (there : c.threads j ≠ .absent) :
    ∃ result, c.threads j = .active (c.threads j).past (.done result) := by
  cases thread : c.threads j with
  | absent => contradiction
  | lost seen => exact absurd thread (never_lost fresh run.unguard)
  | active seen rest =>
      cases rest with
      | await call onReply => exact absurd ⟨seen, _, thread, trivial⟩ (settled.ended j)
      | done result => exact ⟨result, rfl⟩

theorem settled_done (fresh : Fresh start)
    (run : Transition.Run (Transition.Guarded (watching repos i).Step Serving) start trace c)
    (settled : Settled c) {j : Party} (there : c.threads j ≠ .absent) :
    Ended c j (c.threads j).past := by
  obtain ⟨result, ended⟩ := settled_ended fresh run settled there
  exact ended_done fresh run ended

theorem flatMap_parties (fresh : Fresh start)
    (run : Transition.Run (Transition.Guarded (watching repos i).Step Serving) start trace c)
    (settled : Settled c) {f : Interaction watchCalls → Option (String × String)}
    (each : Emission → List (String × String)) (coroutine : ∀ n e, c.world.scheduled[n]? = some e →
      Ended c (.emission n) (c.threads (.emission n)).past →
      (c.threads (.emission n)).past.filterMap f = each e) :
    ((parties c trace).flatMap fun j => (c.threads j).past.filterMap f) =
      c.world.scheduled.flatMap each ++ ((callers trace).filter isHandler).dedup.flatMap fun j =>
      (c.threads j).past.filterMap f := by
  rw [parties, List.flatMap_append, List.flatMap_map]
  congr 1
  have list := congrArg (fun l => List.flatMap each l) (List.map_get_finRange c.world.scheduled)
  rw [← list, List.flatMap_map]
  refine List.flatMap_congr fun n _ => ?_
  have found : c.world.scheduled[n.val]? = some (c.world.scheduled.get n) :=
    List.getElem?_eq_getElem n.isLt
  exact coroutine n.val _ found (settled_done fresh run settled (settled.ran n.val n.isLt))

/-- As long as every call is answered, the jobs are one for each time that a handler moved
`_last_sha`, and each handling moves it where it finds that `HEAD` differs. -/
theorem enqueued_advances (fresh : Fresh start)
    (run : Transition.Run (Transition.Guarded (watching repos i).Step Serving) start trace c)
    (settled : Settled c) : (enqueued trace).Perm (advances trace) ∧ HandledEach repos c trace := by
  have coroutine {n : Nat} {e : Emission} {seen : List (Interaction watchCalls)}
    (found : c.world.scheduled[n]? = some e) (ended : Ended c (.emission n) seen) :
      seen.filterMap pushed = [e.commit] ∧ seen.filterMap advanced = [] ∧
          seen.filterMap handedOver = [] := by
    obtain ⟨e', found', made⟩ := ended
    cases Option.some.inj (found.symm.trans found')
    exact made
  have hands {j : Party} (member : j ∈ ((callers trace).filter isHandler).dedup) : Hands
      (c.threads j).past := by
    obtain ⟨called, handler⟩ := List.mem_filter.mp (List.mem_dedup.mp member)
    by_cases there : c.threads j = .absent
    · rw [there]
      exact ⟨rfl, rfl⟩
    · have done := settled_done fresh run settled there
      cases j with
      | event | reconcile => exact done
      | emission n => contradiction
  have pushes := recorded_perm fresh run.unguard pushed
  have notes := recorded_perm fresh run.unguard advanced
  have gives := recorded_perm fresh run.unguard handedOver
  rw [flatMap_parties fresh run settled (fun e => [e.commit]) fun n e found ended =>
    (coroutine found ended).1,
    List.flatMap_eq_nil_iff.mpr fun j member => (hands member).2, List.append_nil] at pushes
  rw [flatMap_parties fresh run settled (fun _ => []) fun n e found ended =>
    (coroutine found ended).2.1] at notes
  rw [flatMap_parties fresh run settled (fun _ => []) fun n e found ended =>
    (coroutine found ended).2.2,
    ← List.flatMap_congr fun j member => (hands member).1] at gives
  have same : c.world.scheduled.flatMap (fun e => [e.commit]) = recorded handedOver trace := by
    rw [← run_scheduled fresh run.unguard, List.map_eq_flatMap]
  have handled {j : Party} {p : Watch Unit} (spawned : .spawn j p ∈ trace)
    {Q : Except PyException Unit → List (Interaction watchCalls) → Prop}
      (answered : p.Answered (Answers j) Q []) : ∃ result, Q result (c.threads j).past := by
    obtain ⟨result, ended⟩ :=
      settled_ended fresh run settled (Machine.there_after (fun taken => taken.1) run spawned)
    exact ⟨result, Machine.run_answers (m := watching repos i)
      (fun taken => taken.1) serving_heard run spawned
      (fun _ _ _ next => next) answered ended⟩
  refine ⟨(pushes.trans (.of_eq same)).trans (gives.trans notes.symm), fun n repo srcPath spawned =>
    ?_, fun spawned => ?_⟩
  · obtain ⟨-, looked⟩ := handled spawned answered_onAnyEvent
    exact looked
  · obtain ⟨-, looked⟩ := handled spawned answered_reconcileAfterStart
    exact looked

theorem settled_settled {world : World} : Settled (settled world) := by
  refine ⟨concluded_ended, fun n bound => ?_⟩
  obtain rfl : n = 0 := by simpa [settled, concluded, handed, remembering] using bound
  simp [settled, concluded]

theorem enqueued_advances_settled : ∃ world trace,
    Transition.Run (Transition.Guarded (watching ["/srv/app"] ⟨1, 0, .visitor⟩).Step Serving)
    knowing trace (settled world) ∧ (enqueued trace).Perm (advances trace) ∧ HandledEach
    ["/srv/app"] (settled world) trace := by
  obtain ⟨trace, world, run⟩ := run_settled
  exact ⟨world, trace, run, enqueued_advances fresh_knowing run settled_settled⟩

/-- The two commits of the pull and the one that was there: `b2` came after `b1`, and `b1` after
`a1`. -/
def pulled (sha : String) : List String := if sha = "b2" then ["b1"]
    else if sha = "b1" then ["a1"] else []

theorem landed_between : Landed pulled ["b2", "a1"] "b1" := by
  refine ⟨[], "b2", "a1", [], rfl, .single (by simp [pulled]), ?_⟩
  rintro before member reaches
  obtain rfl : before = "a1" := by simpa using member
  rcases Relation.ReflTransGen.cases_head reaches with same | ⟨parent, first, -⟩
  · contradiction
  · simp [pulled] at first

/-- A pull of two commits at once is enqueued as one: the first of them is left out. -/
theorem pull_enqueued_once :
    ∃ (parents : String → List String) (start c : WatchPool) (trace : List WatchEvent),
    Fresh start ∧ (start.world.heads "/srv/app").head? = start.world.lastSha "/srv/app" ∧
    Transition.Run (Transition.Guarded (watching ["/srv/app"] ⟨1, 0, .visitor⟩).Step Serving) start
      trace c ∧ Settled c ∧ (c.world.heads "/srv/app").head? = c.world.lastSha "/srv/app" ∧
      ¬ LandsExactly parents "/srv/app" c trace := by
  obtain ⟨trace, world, run⟩ := run_settled
  refine ⟨pulled, knowing, settled world, trace, fresh_knowing, rfl, run, settled_settled, by
    simp [settled, concluded, handed, remembering], fun exactly => ?_⟩
  have left := (exactly.2 "b1").mpr landed_between
  obtain ⟨j, member⟩ := (mem_recorded fresh_knowing run.unguard).mp left
  rw [settled_past] at member
  split at member
  · have pushes : emitting.filterMap pushed = [("/srv/app", "b2")] := by
      obtain ⟨e, found, pushes, -⟩ := ended_done (j := .emission 0) fresh_knowing run rfl
      cases found
      exact pushes
    rw [pushes] at member
    simp at member
  · split at member
    · simp [handing, noting, pushed] at member
    · contradiction

end WiseOrder.EventWatcher
