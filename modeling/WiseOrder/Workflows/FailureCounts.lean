import WiseOrder.Foundation.Ranking
import WiseOrder.Workflows.AllClear

/-! The failure shapes of a summary. Of the tasks that have failed in its 24 hours it
classifies 200 at most and lists five labels at most, and its text names three. -/
namespace WiseOrder.DailySummary
open Coroutine Ranking
variable {host : Host} {stats : DailyStats} {counts : PeriodCounts} {label : String} {n k : Nat}
    {stop : Time}

/-! ### Counting -/

theorem nodup_eraseDups [DecidableEq α] (values : List α) : values.eraseDups.Nodup := by
  generalize size : values.length = n
  induction n using Nat.strongRecOn generalizing values with
  | ind n ih =>
      cases values with
      | nil => simp
      | cons x rest =>
          rw [List.eraseDups_cons, List.nodup_cons]
          have fewer : (rest.filter fun b => !b == x).length < n := by
            have := List.length_filter_le (fun b => !b == x) rest
            rw [← size, List.length_cons]
            omega
          exact ⟨by simp [List.mem_eraseDups], ih _ fewer _ rfl⟩

theorem nodup_countBy [DecidableEq β] (f : α → β) (rows : List α) : (countBy f rows).Nodup :=
  (nodup_eraseDups _).map fun _ _ same => (Prod.mk.inj same).1

/-- Of two entries of a counter the one with the greater count. -/
def greater (a b : String × Nat) : Bool := b.2 ≤ a.2

/-- A label is among the most common ones if few others are at least as common. -/
theorem mem_mostCommon {values : List String} : (label, k) ∈ mostCommon n values ↔
    label ∈ values ∧ k = values.count label ∧ ahead greater (countBy id values) (label, k) < n := by
  have ranked : (label, k) ∈ mostCommon n values ↔ (label, k) ∈ countBy id values ∧
      ahead greater (countBy id values) (label, k) < n :=
    mem_take_mergeSort (fun a b c => by simp; omega) (fun a b => by simp; omega)
      (nodup_countBy id values)
  have listed : (label, k) ∈ countBy id values ↔ label ∈ values ∧ k = values.count label := by
    simp [countBy, List.mem_eraseDups, eq_comm]
  rw [← and_assoc, ← listed]
  exact ranked

/-! ### What a summary lists -/

/-- The texts of the tasks of the last 24 hours that have failed. -/
def dayFailures (host : Host) (stop : Time) : List String :=
  ((Query.within (stop - 86400 * second) stop Task.createdAt
      (Query.rows host.world.db.tasks)).filter fun t =>
    t.2.status = .failed).filterMap fun t => t.2.error

/-- The labels of those that a summary looks at. -/
def dayLabels (host : Host) (stop : Time) : List String :=
  ((dayFailures host stop).take 200).map classifyError

/-- How many of the tasks are of the label. -/
def dayCount (host : Host) (stop : Time) (label : String) : Nat :=
  (dayFailures host stop).countP (classifyError · = label)

/-- None of the tasks of the label is beyond those that a summary looks at, and fewer labels than it
lists come before. -/
structure Room (host : Host) (stop : Time) (listed : Nat) (label : String) : Prop where
  rows : ∀ text ∈ (dayFailures host stop).drop 200, classifyError text ≠ label
  labels : ahead greater (countBy id (dayLabels host stop)) (label, dayCount host stop label) <
    listed

theorem dayCount_eq (host : Host) (stop : Time) (label : String) : dayCount host stop label =
    (dayLabels host stop).count label + ((dayFailures host stop).drop 200).countP
    (classifyError · = label) := by
  rw [dayCount, ← List.take_append_drop 200 (dayFailures host stop), List.countP_append]
  simp only [List.take_append_drop, dayLabels, List.count, List.countP_map]
  rfl

/-- A label of the day is listed with all its tasks where there is room for it. -/
theorem listed_iff (gathered : Gathered host stop stats counts) (few : k ≤ 5) {text : String}
    (failed : text ∈ dayFailures host stop) :
    (classifyError text, dayCount host stop (classifyError text)) ∈
      stats.mostCommonFailureTypes.take k ↔
      Room host stop k (classifyError text) := by
  have types : stats.mostCommonFailureTypes.take k = mostCommon k (dayLabels host stop) := by
    rw [gathered.failures, ← Except.ok.inj gathered.ran, mostCommon,
      List.take_take, Nat.min_eq_left few]
    rfl
  have total := dayCount_eq host stop (classifyError text)
  rw [types, mem_mostCommon]
  constructor
  · rintro ⟨-, all, ahead⟩
    have none : ((dayFailures host stop).drop 200).countP (classifyError · = classifyError text) =
      0 := by omega
    exact ⟨by simpa using List.countP_eq_zero.mp none, ahead⟩
  · rintro ⟨rows, labels⟩
    have none : ((dayFailures host stop).drop 200).countP (classifyError · = classifyError text) =
        0 :=
      List.countP_eq_zero.mpr (by simpa using rows)
    rw [← List.take_append_drop 200 (dayFailures host stop)] at failed
    have seen : text ∈ (dayFailures host stop).take 200 :=
      (List.mem_append.mp failed).resolve_right fun beyond => rows text beyond rfl
    exact ⟨List.mem_map_of_mem seen, by omega, labels⟩

/-- There is room for the label of the only failure. -/
theorem room_single {text : String} (one : dayFailures host stop = [text]) (some : 0 < n) :
    Room host stop n (classifyError text) := by
  constructor
  · simp [one]
  · have count : dayCount host stop (classifyError text) = 1 := by simp [dayCount, one]
    have entries : countBy id (dayLabels host stop) = [(classifyError text, 1)] := by
      simp [dayLabels, one, countBy, List.eraseDups_cons]
    rw [count, entries, ahead, List.countP_eq_zero.mpr]
    · exact some
    · simp [leads_irrefl]

/-- The record of a summary lists so many failures under the label. -/
def Lists (metadata : Json) (label : String) (n : Nat) : Prop :=
  ∃ fields stats pairs, metadata = .obj fields ∧ Json.lookup "stats" fields = some (.obj stats) ∧
    Json.lookup "most_common_failure_types" stats = some (.arr pairs) ∧
      .arr [.str label, .int n] ∈ pairs

theorem lookup_stats (stop : Time) (stats : DailyStats) :
    ∃ fields, summaryMeta stop stats = .obj fields ∧ Json.lookup "stats" fields =
      some stats.toDict :=
  ⟨_, rfl, by simp [Json.lookup]⟩

theorem lookup_types (stats : DailyStats) : ∃ fields, stats.toDict = .obj fields ∧
    Json.lookup "most_common_failure_types" fields = some
    (.arr (stats.mostCommonFailureTypes.map fun c => .arr [.str c.1, .int c.2])) :=
  ⟨_, rfl, by simp [Json.lookup]⟩

theorem lists_iff : Lists (summaryMeta stop stats) label n ↔
    (label, n) ∈ stats.mostCommonFailureTypes := by
  obtain ⟨fields, record, statistics⟩ := lookup_stats stop stats
  obtain ⟨entries, dict, types⟩ := lookup_types stats
  rw [dict] at statistics
  constructor
  · rintro ⟨_, _, _, same, found, pairs, member⟩
    cases same.symm.trans record
    cases found.symm.trans statistics
    cases pairs.symm.trans types
    obtain ⟨c, listed, same⟩ := List.mem_map.mp member
    simp only [Json.arr.injEq, List.cons.injEq, Json.str.injEq, Json.int.injEq,
      Int.natCast_inj, and_true] at same
    obtain ⟨rfl, rfl⟩ := same
    exact listed
  · intro listed
    exact ⟨fields, entries, _, record, statistics, types, List.mem_map_of_mem (f := fun c =>
      Json.arr [.str c.1, .int c.2]) listed⟩

/-! ### What its text names -/

/-- The text names so many failures under the label. -/
def Names (content label : String) (n : Nat) : Prop :=
  Python.isIn ("`" ++ label ++ "` (" ++ toString n) content

theorem isIn_append (before text after : String) : Python.isIn text (before ++ text ++ after) := by
  simp only [Python.isIn, decide_eq_true_eq, String.toList_append]
  exact ⟨before.toList, after.toList, rfl⟩

theorem isIn_trans {a b c : String} (first : Python.isIn a b) (second : Python.isIn b c) :
    Python.isIn a c := by
  simp only [Python.isIn, decide_eq_true_eq] at *
  exact first.trans second

theorem isIn_intercalate {sep line : String} {lines : List String} (member : line ∈ lines) :
    Python.isIn line (sep.intercalate lines) := by
  induction lines with
  | nil => simp at member
  | cons first rest ih =>
      rcases List.mem_cons.mp member with rfl | later
      · cases rest with
        | nil => simpa using isIn_append "" line ""
        | cons second rest =>
            rw [String.intercalate_cons_cons, String.append_assoc]
            simpa using isIn_append "" line (sep ++ sep.intercalate (second :: rest))
      · rw [String.intercalate_cons_of_ne_nil (List.ne_nil_of_mem later)]
        exact isIn_trans (ih later)
          (by simpa using isIn_append (first ++ sep) (sep.intercalate rest) "")

/-- One of the first three labels is named. -/
theorem names_failureShapes {types : List (String × Nat)} (listed : (label, n) ∈ types.take 3) :
    ∃ line ∈ failureShapes types, Names line label n := by
  unfold failureShapes
  split
  · rename_i none
    simp [none] at listed
  · rename_i top one
    rw [one, List.mem_singleton] at listed
    subst listed
    refine ⟨_, List.mem_singleton.mpr rfl, ?_⟩
    have line : "failure shape: `" ++ label ++ "` (" ++ toString n ++ " task(s))." =
        "failure shape: " ++ ("`" ++ label ++ "` (" ++ toString n) ++ " task(s))." := by
      apply String.toList_injective
      simp
    dsimp only
    rw [Names, line]
    exact isIn_append _ _ _
  · refine ⟨_, List.mem_singleton.mpr rfl, ?_⟩
    have entry := List.mem_map_of_mem (f := fun t : String × Nat => "`" ++ t.1 ++
      "` (" ++ toString t.2 ++ ")") listed
    refine isIn_trans ?_ (isIn_trans (isIn_intercalate entry)
      (isIn_append "top failure shapes: " _ "."))
    simpa using isIn_append "" ("`" ++ label ++ "` (" ++ toString n) ")"

/-- One of the first three labels is named in the text. -/
theorem names_formatSummary {now : Time}
    (listed : (label, n) ∈ stats.mostCommonFailureTypes.take 3) :
    Names (formatSummary stats now) label n := by
  obtain ⟨line, member, names⟩ := names_failureShapes listed
  have some : stats.mostCommonFailureTypes.isEmpty = false := by
    cases none : stats.mostCommonFailureTypes with
    | nil => simp [none] at listed
    | cons => rfl
  have failed : line ∈ whatFailed stats := by
    unfold whatFailed
    rw [if_neg (by simp [some])]
    simp [member]
  rw [formatSummary_lines]
  refine isIn_trans names (isIn_trans (isIn_intercalate ?_) (by simpa using isIn_append "" _ "\n"))
  simp [summaryLines, failed]

end WiseOrder.DailySummary
