import WiseOrder.Api.Concealment
import WiseOrder.Isoformat
import WiseOrder.Orchestrator.Reaper
import WiseOrder.Watchers.Histories
import WiseOrder.Workflows.LogBounds

/-! What the log endpoint shows. It cuts the entries of each workflow to the last ten and puts them
in the order of their texts; no workflow has more, and the texts are in the order of the times. -/
namespace WiseOrder

section
variable {α β : Type} [LinearOrder β] {key : α → β} {n : Nat} {all shown : List α}

/-- As many of the latest as there are up to `n`, the latest first. -/
structure Latest (key : α → β) (n : Nat) (all shown : List α) : Prop where
  count : shown.length = min n all.length
  descending : shown.Pairwise fun a b => key b ≤ key a
  rest : ∃ rest, (shown ++ rest).Perm all ∧ ∀ a ∈ shown, ∀ b ∈ rest, key b ≤ key a

theorem Latest.of_take {sorted : List α} (perm : sorted.Perm all)
    (descending : sorted.Pairwise fun a b => key b ≤ key a) : Latest key n all (sorted.take n) where
  count := by rw [List.length_take, perm.length_eq]
  descending := descending.sublist (List.take_sublist n sorted)
  rest := by
    refine ⟨sorted.drop n, ?_, fun a taken b left => ?_⟩
    · rw [List.take_append_drop]
      exact perm
    · rw [← List.take_append_drop n sorted] at descending
      exact (List.pairwise_append.mp descending).2.2 a taken b left

theorem latest_sorted {later : α → α → Bool} (same : ∀ a b, later a b = true ↔ key b ≤ key a) :
    Latest key n all ((all.mergeSort later).take n) := by
  apply Latest.of_take (List.mergeSort_perm _ _)
  have sorted := List.pairwise_mergeSort
    (fun a b c first second =>
      (same a c).mpr (le_trans ((same b c).mp second) ((same a b).mp first)))
    (fun a b => by simpa [same] using le_total (key b) (key a)) all
  exact sorted.imp (same _ _).mp

end

/-- The latest by one key are the latest by another that has them in the same order. -/
theorem Latest.congr {α β γ : Type} [LinearOrder β] [LinearOrder γ] {key : α → β} {key' : α → γ}
    {n : Nat} {all shown : List α} (latest : Latest key n all shown)
    (same : ∀ a ∈ all, ∀ b ∈ all, key b ≤ key a ↔ key' b ≤ key' a) : Latest key' n all shown := by
  obtain ⟨rest, perm, later⟩ := latest.rest
  have inside {a : α} (taken : a ∈ shown) : a ∈ all := perm.subset (List.mem_append_left rest taken)
  have outside {a : α} (left : a ∈ rest) : a ∈ all := perm.subset (List.mem_append_right shown left)
  refine ⟨latest.count, ?_, rest, perm, fun a taken b left => ?_⟩
  · exact latest.descending.imp_of_mem fun taken taken' order =>
      (same _ (inside taken) _ (inside taken')).mp order
  · exact (same a (inside taken) b (outside left)).mp (later a taken b left)

namespace Api
open Coroutine Coroutine.Program Relational
variable {s : Settings} {c : Pool} {trace : List RunEvent} {host : Host} {rows : Rows Workflow}

/-- The workflows that the log endpoint looks at. -/
def recentRows (db : Db) : Rows Workflow := (Query.rows db.workflows).reverse.take 20

/-- All the entries of these workflows. -/
def allEntries (rows : Rows Workflow) : List (Nat × LogEntry) := rows.flatMap fun r =>
      r.2.logs.map fun entry => (r.1, entry)

theorem mem_recentRows {db : Db} {r : Nat × Workflow} (member : r ∈ recentRows db) :
    ∃ y ∈ db.workflows.entries, r = (y.id, y.row) := by
  obtain ⟨y, stored, rfl⟩ := List.mem_map.mp (List.mem_reverse.mp (List.mem_of_mem_take member))
  exact ⟨y, stored, rfl⟩

/-- The latest by id are the latest by when they were created. -/
theorem recentRows_latest (run : Transition.Run (Step s) Pool.initial trace c) :
    Latest (fun r : Nat × Workflow => (r.2.createdAt : Int)) 20 (Query.rows c.world.db.workflows)
    (recentRows c.world.db) := by
  apply Latest.of_take (List.reverse_perm _)
  rw [List.pairwise_reverse, Query.rows, List.pairwise_map]
  have increasing := List.pairwise_map.mp c.world.db.workflows.increasing
  exact increasing.imp_of_mem fun left right less =>
    (run_recorded run).ordered _ left _ right (Nat.le_of_lt less)

/-- Nothing is cut from workflows that have ten entries at most. -/
theorem recentEntries_all (few : ∀ r ∈ rows, r.2.logs.length ≤ 10) (limit : Nat) :
    recentEntries limit rows =
      ((allEntries rows).mergeSort fun a b => Python.isoformat b.2.ts ≤
        Python.isoformat a.2.ts).take limit := by
  have whole : (rows.flatMap fun r => (Python.lastOnes 10 r.2.logs).map fun entry => (r.1, entry)) =
      allEntries rows :=
    List.flatMap_congr fun r member => by rw [Python.lastOnes_short (few r member)]
  have positive : ¬ (limit : Int) < 0 := by omega
  rw [recentEntries, whole, Python.upTo, if_neg positive, Int.toNat_natCast]

/-- What the endpoint makes of the workflows. -/
theorem eval_logsRecent (limit : Int) (out : Outside) :
    ((logsRecent limit).eval out.answer host).1 = match out.down (.select (.workflows none 20)) with
    | some e => .error e
    | none => .ok (reply (.arr ((recentEntries limit (recentRows host.world.db)).map fun e =>
        .obj (("workflow_id", .int e.1) :: logFields e.2)))) := by
  cases down : out.down (.select (.workflows none 20)) with
  | some e =>
      have raises : (Service.select (.workflows none 20)).eval out.answer host = (.error e, host) :=
        answer_down down
      exact congrArg Prod.fst (eval_bind_error raises)
  | none =>
      have returns : (Service.select (.workflows none 20)).eval out.answer host =
        (.ok (recentRows host.world.db), host) := answer_up down
      exact congrArg Prod.fst (eval_bind_ok returns)

/-- While the clock shows a datetime, the log endpoint replies with the latest of all the entries
that the last 20 workflows have, in descending order of their times. -/
theorem logs_newest (run : Transition.Run (Step s) Pool.initial trace c)
    (dated : Python.Datetime c.world.clock) (here : host.world.db = c.world.db)
    (out : Outside) (limit : Nat) : (∀ a b, Python.Datetime a → Python.Datetime b →
      (Python.isoformat a ≤ Python.isoformat b ↔ a ≤ b)) ∧
    ∃ rows, Latest (fun r : Nat × Workflow => (r.2.createdAt : Int)) 20
    (Query.rows c.world.db.workflows) rows ∧
      (∀ r ∈ rows, Python.lastOnes 10 r.2.logs = r.2.logs) ∧
      ∃ shown, Latest (fun e : Nat × LogEntry => (e.2.ts : Int)) limit (allEntries rows) shown ∧
        ((logsRecent limit).eval out.answer host).1 = match out.down
        (.select (.workflows none 20)) with
          | some e => .error e
          | none =>
              .ok (reply (.arr (shown.map fun e =>
                  .obj (("workflow_id", .int e.1) :: logFields e.2)))) := by
  have few (r : Nat × Workflow) (member : r ∈ recentRows c.world.db) : r.2.logs.length ≤ 10 := by
    obtain ⟨y, stored, rfl⟩ := mem_recentRows member
    exact logs_bounded run stored
  have datetimes (e : Nat × LogEntry) (member : e ∈ allEntries (recentRows c.world.db)) :
      Python.Datetime e.2.ts := by
    obtain ⟨r, recent, inside⟩ := List.mem_flatMap.mp member
    obtain ⟨entry, logged, rfl⟩ := List.mem_map.mp inside
    obtain ⟨y, stored, rfl⟩ := mem_recentRows recent
    obtain ⟨begun, past⟩ := (run_recorded run).dated y stored entry logged
    exact ⟨Int.le_trans (by decide) begun, Int.lt_of_le_of_lt past dated.2⟩
  have byText : Latest (fun e => Python.isoformat e.2.ts) limit (allEntries (recentRows c.world.db))
      (recentEntries limit (recentRows c.world.db)) := by
    rw [recentEntries_all few]
    exact latest_sorted fun _ _ => decide_eq_true_iff
  refine ⟨fun a b => Python.isoformat_le, recentRows c.world.db, recentRows_latest run,
    fun r member => Python.lastOnes_short (few r member), _, byText.congr fun a left b right =>
      ?_, ?_⟩
  · exact Python.isoformat_le (datetimes b right) (datetimes a left)
  · rw [eval_logsRecent, here]

/-- Two pipelines whose entries lie between each other: the first starts, the second starts, the
first fails. -/
theorem logs_newest_started : ∃ trace c, Transition.Run (Step (.defaults "/root")) Pool.initial
      trace c ∧ Python.Datetime c.world.clock ∧ (c.world.db.workflows.entries.map fun e =>
        e.row.logs.map LogEntry.ts) = [[0, 2 * second], [1 * second]] ∧
    ∃ rows shown, Latest (fun r : Nat × Workflow => (r.2.createdAt : Int)) 20
    (Query.rows c.world.db.workflows) rows ∧ rows.length = 2 ∧
      Latest (fun e : Nat × LogEntry => (e.2.ts : Int)) 2 (allEntries rows) shown ∧
      ((logsRecent 2).eval plainOutside.answer (hostOf c.world.db [])).1 =
        .ok (reply (.arr (shown.map fun e =>
          .obj (("workflow_id", .int e.1) :: logFields e.2)))) := by
  obtain ⟨_, -, first⟩ := run_entry (run_start (.defaults "/root") (fun _ _ _ => True) Pool.initial)
    ⟨1, 1, .pipeline⟩ (.commitPipeline samplePayload) (openingScript "4c1d" 0 1 1)
    ((plays_attach rfl).trans (.call ⟨_, rfl, rfl⟩ (.stop _ _))) rfl rfl rfl
      (fun _ => trivial) fun _ _ _ _ _ => trivial
  have later := first.trans (run_idles first (1 * second) (by decide) fun _ _ => trivial)
  have free : ((Redis.empty.set (slotOf "4c1d") Dedup.pending (3600 * second)).set
    (slotOf "4c1d") "1"
      (3600 * second)).live (1 * second) (slotOf "9f02") = none :=
    (Redis.live_other slots_differ.symm).trans (Redis.live_other slots_differ.symm)
  obtain ⟨_, -, second'⟩ := run_entry later ⟨1, 2, .pipeline⟩ (.commitPipeline (payloadOf "9f02"))
    (claimScript "9f02" (1 * second) 2) (plays_claim free) rfl rfl rfl
      (fun _ => trivial) fun _ _ _ _ _ => trivial
  have last := second'.trans (run_idles second' (2 * second) (by decide) fun _ _ => trivial)
  obtain ⟨_, -, failed⟩ := run_on last ⟨1, 1, .pipeline⟩ rfl (overloadedScript "4c1d" 1 1)
    (.call rfl (.call ⟨_, rfl, rfl⟩ (.call ⟨_, rfl, rfl⟩ (.stop _ _)))) fun _ _ _ _ _ => trivial
  have whole := (last.trans failed).unguard
  have here (db : Db) : (hostOf db []).world.db = db := rfl
  obtain ⟨-, rows, latest, -, shown, newest, replied⟩ :=
    logs_newest whole ⟨by decide, by decide⟩ (here _) plainOutside 2
  have two : rows.length = 2 := latest.count
  exact ⟨_, _, whole, ⟨by decide, by decide⟩, rfl, rows, shown, latest, two, newest, replied⟩

end Api

end WiseOrder
