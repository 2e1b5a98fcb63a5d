import WiseOrder.Workflows.DailySummary
import WiseOrder.Foundation.Script

/-! What the daily summary has seen when it recommends nothing. The recommendation
is made from counts of the last 24 hours and the depth of the dead-letter queue;
older rows do not count, and neither do the tasks. -/
namespace WiseOrder.DailySummary
open Coroutine Coroutine.Program Relational
variable {α β : Type} {host : Host} {logDir : String} {i : CallId}
    {seen : List (Interaction serviceCalls)}

/-! ### Counting -/

section
variable [DecidableEq β] {f : α → β} {rows : List α} {b : β} {counts : List (β × Nat)}

/-- A row is counted under its value. -/
theorem counted {x : α} (member : x ∈ rows) : ∃ n, (f x, n) ∈ countBy f rows :=
  ⟨_, List.mem_map.mpr ⟨f x, List.mem_eraseDups.mpr (List.mem_map_of_mem member), rfl⟩⟩

/-- Every count is of some row. -/
theorem countBy_pos {c : β × Nat} (member : c ∈ countBy f rows) : 0 < c.2 := by
  obtain ⟨b, listed, rfl⟩ := List.mem_map.mp member
  exact List.count_pos_iff.mpr (List.mem_eraseDups.mp listed)

/-- What counts nothing is not there. -/
theorem countOf_zero (positive : ∀ c ∈ counts, 0 < c.2) (none : countOf b counts = 0) (n : Nat) :
    (b, n) ∉ counts := by
  intro member
  unfold countOf at none
  cases last : (counts.filter fun c => c.1 = b).getLast? with
  | none =>
      rw [List.getLast?_eq_none_iff, List.filter_eq_nil_iff] at last
      exact last _ member (decide_eq_true rfl)
  | some c =>
      rw [last] at none
      have listed := List.mem_of_getLast? last
      exact absurd none (Nat.pos_iff_ne_zero.mp (positive c (List.mem_filter.mp listed).1))

theorem countBy_zero (none : countOf b (countBy f rows) = 0) : ∀ x ∈ rows, f x ≠ b := by
  rintro x member rfl
  obtain ⟨n, listed⟩ := counted (f := f) member
  exact countOf_zero (fun c => countBy_pos) none n listed

end

/-- An approval without a decision is counted as pending. -/
theorem pending_zero {rows : List α} {decision : α → Option String}
    (none : countOf "pending" ((countBy decision rows).map fun c => (decisionName c.1, c.2)) = 0) :
    ∀ x ∈ rows, decision x ≠ .none := by
  intro x member open_
  obtain ⟨n, listed⟩ := counted (f := decision) member
  refine countOf_zero (fun c named => ?_) none n (List.mem_map.mpr ⟨_, listed, by rw [open_]; rfl⟩)
  obtain ⟨c, counts, rfl⟩ := List.mem_map.mp named
  exact countBy_pos (c := c) counts

/-! ### The text -/

def heading : String := "**Recommended next action**"

/-- The line under the last heading of that name. -/
def recommendation (text : String) : Option String :=
  let lines := (Python.split '\n' text).reverse
  if heading ∈ lines then (lines.takeWhile (· ≠ heading)).getLast? else none

theorem newline_recommendedAction (s : DailyStats) : '\n' ∉ (recommendedAction s).toList := by
  unfold recommendedAction
  split_ifs <;> simp

theorem newline_approvalBacklog (s : DailyStats) : '\n' ∉ (approvalBacklog s).toList := by
  unfold approvalBacklog
  dsimp only
  split_ifs <;> simp [Python.newline_digits]

theorem approvalBacklog_ends (s : DailyStats) :
    ∃ t, approvalBacklog s = t ++ String.singleton '.' := by
  unfold approvalBacklog
  split
  · exact ⟨"no approvals in the last 24h", rfl⟩
  · exact ⟨_, rfl⟩

theorem heading_ne {text : String} {c : Char} (other : c ≠ '*') :
    text ++ String.singleton c ≠ heading := by
  intro same
  have last := congrArg (fun s : String => s.toList.getLast?) same
  simp [heading, other] at last

theorem recommendedAction_ne (s : DailyStats) : recommendedAction s ≠ heading := by
  unfold recommendedAction heading
  split_ifs <;> decide

def lastLines (s : DailyStats) : List String :=
  [heading, recommendedAction s, "", "**Approval backlog**", approvalBacklog s]

theorem split_lastLines (s : DailyStats) :
    Python.split '\n' ((String.singleton '\n').intercalate (lastLines s)) = lastLines s := by
  refine Python.split_intercalate (by simp [lastLines]) fun line member => ?_
  simp only [lastLines, List.mem_cons, List.not_mem_nil, or_false] at member
  rcases member with rfl | rfl | rfl | rfl | rfl
  · simp [heading]
  · exact newline_recommendedAction s
  · simp
  · simp
  · exact newline_approvalBacklog s

/-- The lines of a summary. -/
def summaryLines (s : DailyStats) (now : Time) : List String :=
  ["WiseOrder daily summary — " ++ dateOf now ++ " (last 24 hours).", ""] ++ ["**What changed**"] ++
    whatChanged s ++ [""] ++
    ["**What failed**"] ++ whatFailed s ++ [""] ++ ["**What matters most**"] ++
      whatMatters s ++ [""] ++ lastLines s

/-- The text ends in a full stop, and nothing is stripped from it. -/
theorem formatSummary_lines (s : DailyStats) (now : Time) :
    formatSummary s now = "\n".intercalate (summaryLines s now) ++ "\n" := by
  obtain ⟨backlog, ends⟩ := approvalBacklog_ends s
  unfold formatSummary summaryLines
  dsimp only
  rw [List.append_assoc _ ["**Recommended next action**", recommendedAction s, ""],
    ← show lastLines s = ["**Recommended next action**", recommendedAction s, ""] ++
      ["**Approval backlog**", approvalBacklog s] from rfl,
    String.intercalate_append_of_ne_nil (by simp) (by simp [lastLines])]
  generalize "\n".intercalate _ = before
  have last : "\n".intercalate (lastLines s) =
      "\n".intercalate [heading, recommendedAction s, "", "**Approval backlog**"] ++ "\n" ++
          backlog ++ String.singleton '.' := by
    rw [lastLines, ends]
    apply String.toList_injective
    simp
  rw [last, ← String.append_assoc, ← String.append_assoc, Python.rstrip_solid (by decide)]

/-- Before the recommendation there may be any line, since a workflow's name may have newlines. -/
theorem split_formatSummary (s : DailyStats) (now : Time) :
    ∃ before, Python.split '\n' (formatSummary s now) = before ++ lastLines s ++ [""] := by
  rw [formatSummary_lines, summaryLines,
    String.intercalate_append_of_ne_nil (by simp) (by simp [lastLines]),
    show "\n" = String.singleton '\n' from rfl, Python.split_snoc, Python.split_append,
      split_lastLines]
  exact ⟨_, rfl⟩

theorem recommendation_formatSummary (s : DailyStats) (now : Time) :
    recommendation (formatSummary s now) = some (recommendedAction s) := by
  obtain ⟨before, lines⟩ := split_formatSummary s now
  obtain ⟨backlog, ends⟩ := approvalBacklog_ends s
  have other : approvalBacklog s ≠ heading := ends ▸ heading_ne (by decide)
  have empty : "" ≠ heading := by decide
  have title : "**Approval backlog**" ≠ heading := by decide
  simp [recommendation, lines, lastLines, other, empty, title, recommendedAction_ne]

/-! ### What was seen -/

def allClear : String := "None. The runtime is in a clean state."

theorem allClear_counts {stats : DailyStats} (clear : recommendedAction stats = allClear) :
    stats.approvalsPending = 0 ∧ stats.queueDepthFailed = 0 ∧ stats.workflowsFailed = 0 ∧
    stats.workflowsInterrupted = 0 ∧
      stats.workflowsRunning = 0 := by
  unfold recommendedAction at clear
  split at clear
  · exact absurd clear (by decide)
  · split at clear
    · exact absurd clear (by decide)
    · split at clear
      · exact absurd clear (by decide)
      · split at clear
        · exact absurd clear (by decide)
        · omega

/-- Created in the last 24 hours. -/
def OfLastDay (now createdAt : Time) : Prop := now - 86400 * second ≤ createdAt ∧ createdAt < now

def Unfinished (status : Status) : Prop := status = .running ∨ status =
      .failed ∨ status = .interrupted

/-- Nothing of the last 24 hours is pending, running, failed or interrupted among approvals and
workflows, and no job is dead-lettered. A task that is may only be one of another workflow, or of
one that has completed all the same. -/
structure Recent (host : Host) (now : Time) : Prop where
  approvals : ∀ e ∈ host.world.db.approvals.entries, OfLastDay now e.row.createdAt →
    e.row.decision ≠ none
  workflows : ∀ e ∈ host.world.db.workflows.entries, OfLastDay now e.row.createdAt →
    ¬ Unfinished e.row.status
  tasks : ∀ t ∈ host.world.db.tasks.entries, Unfinished t.row.status →
    ∀ e ∈ host.world.db.workflows.entries,
    t.row.workflowId = some e.id → ¬ OfLastDay now e.row.createdAt ∨ ¬ Unfinished e.row.status
  failed : host.world.redis.lists .failed = []

/-- The answers that the services give in one state. -/
def Told (i : CallId) (host : Host) (x : Interaction serviceCalls) : Prop :=
  ∃ host', host.perform i x.call x.reply host'

/-- The depth of a queue is the length of its list. -/
theorem told_depth (queue : QueueName) : (depth queue).Answered (Told i host)
    (fun result _ => ∀ n, result = .ok n → n = (host.world.redis.lists queue).length) seen := by
  refine ⟨trivial, fun reply _ told n same => ?_⟩
  obtain rfl : reply = .ok n := same
  obtain ⟨_, _, ⟨r, ran, -⟩, -⟩ := told
  exact (Prod.mk.inj (Except.ok.inj ran)).1.symm

theorem told_allDepths : allDepths.Answered (Told i host)
    (fun result _ => ∀ depths, result = .ok depths →
      depths.2.2 = (host.world.redis.lists .failed).length) seen := by
  apply answered_bind (told_depth .high)
  · intro high _ _
    apply answered_bind (told_depth .normal)
    · intro normal _ _
      apply answered_bind (told_depth .failed)
      · rintro failed _ told depths same
        cases same
        exact told failed rfl
      · exact fun e _ _ depths same => by contradiction
    · exact fun e _ _ depths same => by contradiction
  · exact fun e _ _ depths same => by contradiction

/-- The statistics are counted from the rows of the last 24 hours and the lists of the queues. -/
structure Gathered (host : Host) (stop : Time) (stats : DailyStats) (counts : PeriodCounts) :
    Prop where
  started : stats.periodStartUtc = Python.isoformat (stop - 86400 * second)
  ended : stats.periodEndUtc = Python.isoformat stop
  ran : (Query.periodCounts (stop - 86400 * second) stop).run host.world.db = .ok counts
  dead : stats.queueDepthFailed = (host.world.redis.lists .failed).length
  workflowsFailed : stats.workflowsFailed = countOf .failed counts.workflowStatus
  workflowsInterrupted : stats.workflowsInterrupted = countOf .interrupted counts.workflowStatus
  workflowsRunning : stats.workflowsRunning = countOf .running counts.workflowStatus
  pending : stats.approvalsPending = countOf "pending" (counts.approvalDecision.map fun c =>
    (decisionName c.1, c.2))
  failures : stats.mostCommonFailureTypes = mostCommon 5 (counts.failedTaskErrors.map classifyError)

theorem told_gatherStats {stop : Time} :
    (gatherStats logDir (stop - 86400 * second) stop).Answered (Told i host)
    (fun result _ => ∀ stats, result = .ok stats → ∃ counts,
      Gathered host stop stats counts) seen := by
  apply answered_call
  · exact fun e _ stats same => by contradiction
  · rintro counts ⟨_, ran, -⟩
    apply answered_bind told_allDepths
    · rintro ⟨high, normal, failed⟩ later depths
      apply answered_bind answered_any
      · intro lines _ _
        apply answered_ret
        rintro stats same
        have same := Except.ok.inj same
        subst same
        exact ⟨counts, rfl, rfl, ran, depths _ rfl, rfl, rfl, rfl, rfl, rfl⟩
      · exact fun e _ _ stats same => by contradiction
    · exact fun e _ _ stats same => by contradiction

theorem allClear_recent {stats : DailyStats} {counts : PeriodCounts}
    (gathered : Gathered host stop stats counts) (clear : recommendedAction stats = allClear) :
    Recent host stop := by
  obtain ⟨noPending, noDead, noFailed, noInterrupted, noRunning⟩ := allClear_counts clear
  obtain ⟨-, -, ran, dead, workflowsFailed, workflowsInterrupted, workflowsRunning, pending, -⟩ :=
    gathered
  cases Except.ok.inj ran
  have finished : ∀ e ∈ host.world.db.workflows.entries, OfLastDay stop e.row.createdAt →
      ¬ Unfinished e.row.status := by
    rintro e member ⟨after, before⟩
    have present : (e.id, e.row) ∈ Query.within (stop - 86400 * second) stop Workflow.createdAt
        (Query.rows host.world.db.workflows) :=
      List.mem_filter.mpr ⟨List.mem_map.mpr ⟨e, member, rfl⟩, by simp [after, before]⟩
    rintro (running | failed | interrupted)
    · exact countBy_zero (workflowsRunning.symm.trans noRunning) _ present running
    · exact countBy_zero (workflowsFailed.symm.trans noFailed) _ present failed
    · exact countBy_zero (workflowsInterrupted.symm.trans noInterrupted) _ present interrupted
  constructor
  case approvals =>
    rintro e member ⟨after, before⟩
    exact pending_zero (pending.symm.trans noPending) (e.id, e.row)
      (List.mem_filter.mpr ⟨List.mem_map.mpr ⟨e, member, rfl⟩, by simp [after, before]⟩)
  case workflows => exact finished
  case tasks =>
    exact fun _ _ _ e member _ => or_iff_not_imp_left.mpr fun recent =>
      finished e member (not_not.mp recent)
  case failed => exact List.eq_nil_of_length_eq_zero (dead.symm.trans noDead)

/-- What the summary of the 24 hours before `now` is kept with. -/
def summaryMeta (now : Time) (stats : DailyStats) : Json := .obj [("date", .str (dateOf now)),
  ("period_start_utc", .str (Python.isoformat (now - 86400 * second))), ("period_end_utc",
    .str (Python.isoformat now)),
  ("stats", stats.toDict)]

/-- What a summary of the state is made from. -/
def Faithful (host : Host) : ServiceCall → Prop
  | .run (.session (.addMemory "daily_summary" content metadata)) =>
      ∃ stats counts, Gathered host host.world.clock stats counts ∧
      content = formatSummary stats host.world.clock ∧ metadata = summaryMeta host.world.clock stats
  | _ => True

def faithfully (i : CallId) (host : Host) : Protocol serviceCalls Host :=
  ⟨fun _ c _ => Faithful host c, fun c h reply h' => h.perform i c reply h'⟩

/-- While it only reads, a program is told of one state. -/
theorem obeys_reads {m : Service α}
    {Q : Except PyException α → List (Interaction serviceCalls) → Prop}
    (reads : m.Within Api.Reads) (told : m.Answered (Told i host) Q seen) :
    m.Obeys (faithfully i host)
    (fun result later now => Q result later ∧ host = now) seen host := by
  induction m generalizing seen with
  | done result => exact ⟨told, rfl⟩
  | await call onReply ih =>
      refine ⟨?_, fun reply host' performed => ?_⟩
      · cases call with
        | run c =>
            cases c with
            | session t => exact reads.1.elim
            | _ => trivial
        | _ => trivial
      · obtain rfl : host' = host := Api.perform_reads reads.1 performed
        exact ih reply (reads.2 reply) (told.2 reply () ⟨host', performed⟩)

theorem reads_gatherStats {start stop : Time} :
    (gatherStats logDir start stop).Within Api.Reads := by
  have lines : (countRecentErrorLines logDir).Within Api.Reads := by
    refine within_bind (within_call trivial) fun file => within_ite (fun _ => ?_) fun _ => trivial
    exact within_catching (within_bind (within_call trivial) fun _ => trivial) fun _ => trivial
  refine within_bind (within_call trivial) fun counts => within_bind ?_ fun depths =>
    within_bind lines fun _ => trivial
  refine within_bind ⟨trivial, fun _ => trivial⟩ fun high =>
    within_bind ⟨trivial, fun _ => trivial⟩ fun normal => ?_
  exact within_bind ⟨trivial, fun _ => trivial⟩ fun failed => trivial

theorem obeys_write {now : Time} {today : String} (clock : now = host.world.clock)
    (date : today = dateOf now) : (runDailySummary.write logDir now today).Obeys (faithfully i host)
    (fun _ _ _ => True) seen host := by
  apply obeys_bind (obeys_reads reads_gatherStats told_gatherStats)
  · rintro stats later _ ⟨told, rfl⟩
    obtain ⟨counts, gathered⟩ := told stats rfl
    refine ⟨⟨stats, counts, clock ▸ gathered, by rw [clock], ?_⟩, fun reply _ _ => ?_⟩
    · rw [gathered.started, gathered.ended, date, clock]
      rfl
    cases reply with
    | error e => trivial
    | ok memoryId =>
        have after : (do
            Service.await .makeLogDir
            let record : Json := .obj [("ts", .str (Python.isoformat now)), ("date", .str today),
              ("memory_id", .int (Int.ofNat memoryId)),
              ("stats", stats.toDict), ("summary", .str (formatSummary stats now))]
            Service.tryExcept (Service.await (.appendSummary (record.dumps ++ "\n"))) fun _ =>
              return ()
            return .obj [("memory_id", .int (Int.ofNat memoryId)), ("date", .str today),
              ("summary", .str (formatSummary stats now)),
              ("stats", stats.toDict)] : Service Json).Within (Faithful host) :=
          within_bind (within_call trivial) fun _ =>
            within_bind (within_catching (within_call trivial) fun _ => trivial) fun _ => trivial
        exact after.obeys (fun _ _ _ may => may) _ _
  · exact fun e _ _ _ => trivial

theorem obeys_runDailySummary :
    (runDailySummary logDir).Obeys (faithfully i host) (fun _ _ _ => True) [] host := by
  have clock : (Service.run utcnow).Answered (Told i host) (fun result _ => ∀ t, result = .ok t →
      t = host.world.clock) [] := by
    refine ⟨trivial, fun reply _ told t same => ?_⟩
    obtain rfl : reply = .ok t := same
    obtain ⟨_, _, performed, -⟩ := told
    exact performed.1
  apply obeys_bind (obeys_reads (m := Service.run utcnow) ⟨trivial, fun _ => trivial⟩ clock)
  · rintro now later _ ⟨told, rfl⟩
    have read := told now rfl
    apply obeys_bind (obeys_reads (m := Service.select (.latestMemory "daily_summary"))
      (within_call trivial) answered_any)
    · rintro existing later _ ⟨-, rfl⟩
      apply obeys_bind (obeys_reads (m := Program.ofExcept _) trivial answered_any)
      · rintro last later _ ⟨-, rfl⟩
        generalize date : dateOf now = today
        cases existing with
        | none => exact obeys_write read date.symm
        | some row =>
            cases last with
            | str found =>
                by_cases same : found = today
                · simp only [if_pos same]
                  exact obeys_ret trivial
                · simp only [if_neg same]
                  exact obeys_write read date.symm
            | _ => exact obeys_write read date.symm
      · exact fun e _ _ _ => trivial
    · exact fun e _ _ _ => trivial
  · exact fun e _ _ _ => trivial

/-- A summary is made from what the database and the queues hold as it is written. -/
theorem gathered_of_plays {script : List (Interaction serviceCalls)} {rest : Service Json}
    {host' : Host} {content : String} {metadata : Json} {reply : Except PyException Nat}
    (plays : Plays (fun c h r h' => h.perform i c r h') (runDailySummary logDir) host script
      rest host')
    (written : ⟨.run (.session (.addMemory "daily_summary" content metadata)), reply⟩ ∈ script) :
    ∃ stats counts, Gathered host host.world.clock stats counts ∧ content =
      formatSummary stats host.world.clock ∧
      metadata = summaryMeta host.world.clock stats :=
  (plays.obeys obeys_runDailySummary (fun performed => performed) fun allowed =>
    allowed).1 _ written

/-- What a run awaits until it has written a summary of these counts. -/
def summaryScript (logDir : String) (host : Host) (counts : PeriodCounts)
    (content : String) (metadata : Json) : List (Interaction serviceCalls) :=
  [⟨.run .now, .ok host.world.clock⟩, ⟨.select (.latestMemory "daily_summary"), .ok none⟩,
    ⟨.select (.periodCounts (host.world.clock - 86400 * second) host.world.clock), .ok counts⟩,
    ⟨.run (.redis (.llen .high)), .ok (host.world.redis.lists .high).length⟩,
    ⟨.run (.redis (.llen .normal)), .ok (host.world.redis.lists .normal).length⟩,
    ⟨.run (.redis (.llen .failed)), .ok (host.world.redis.lists .failed).length⟩,
    ⟨.run (.isFile (logDir ++ "/wiseorder.jsonl")), .ok false⟩,
    ⟨.run (.session (.addMemory "daily_summary" content metadata)), .ok host.world.db.memory.next⟩]

/-- Where there is no summary a run writes one. -/
theorem plays_summary (i : CallId) (logDir : String)
    (none : (Query.latestMemory "daily_summary").run host.world.db = .ok none) :
    ∃ script rest host' content metadata, Plays (fun c h r h' => h.perform i c r h')
    (runDailySummary logDir) host script rest host' ∧
      ⟨.run (.session (.addMemory "daily_summary" content metadata)),
        .ok host.world.db.memory.next⟩ ∈ script := by
  obtain ⟨counts, ran⟩ : ∃ counts,
      (Query.periodCounts (host.world.clock - 86400 * second) host.world.clock).run host.world.db =
      .ok counts :=
    ⟨_, rfl⟩
  have length (queue : QueueName) : host.perform i (.run (.redis (.llen queue)))
      (.ok (host.world.redis.lists queue).length) host :=
    ⟨_, ⟨_, rfl, rfl⟩, rfl⟩
  have plays : ∃ content metadata rest host', Plays (fun c h r h' => h.perform i c r h')
    (runDailySummary logDir) host
      (summaryScript logDir host counts content metadata) rest host' :=
    ⟨_, _, _, _, .call ⟨_, ⟨rfl, rfl⟩, rfl⟩ (.call ⟨none, rfl⟩ (.call ⟨ran, rfl⟩
      (.call (length .high) (.call (length .normal) (.call (length .failed)
      (.call ⟨_, rfl, rfl⟩ (.call ⟨_, ⟨_, rfl, rfl⟩, rfl⟩ (.stop _ _))))))))⟩
  obtain ⟨content, metadata, rest, host', plays⟩ := plays
  exact ⟨_, rest, host', content, metadata, plays, by simp [summaryScript]⟩

/-- A summary that recommends nothing, written in some state, was written where no approval and no
workflow of the last 24 hours was open or had failed, and no job was dead-lettered. -/
theorem all_clear_recent {script : List (Interaction serviceCalls)} {rest : Service Json}
    {host' : Host} {content : String} {metadata : Json} {reply : Except PyException Nat}
    (plays : Plays (fun c h r h' => h.perform i c r h') (runDailySummary logDir) host script
      rest host')
    (written : ⟨.run (.session (.addMemory "daily_summary" content metadata)), reply⟩ ∈ script)
    (clear : recommendation content = some allClear) : Recent host host.world.clock := by
  obtain ⟨stats, counts, gathered, rfl, -⟩ := gathered_of_plays plays written
  rw [recommendation_formatSummary] at clear
  exact allClear_recent gathered (Option.some.inj clear)

/-- No approval is pending and no workflow is running, nothing created in the last 24 hours has
failed or was interrupted, and no job is dead-lettered. -/
structure Clean (host : Host) (now : Time) : Prop where
  approvals : ∀ e ∈ host.world.db.approvals.entries, e.row.decision ≠ none
  running : ∀ e ∈ host.world.db.workflows.entries, e.row.status ≠ .running
  workflows : ∀ e ∈ host.world.db.workflows.entries, OfLastDay now e.row.createdAt →
    e.row.status ≠ .failed ∧ e.row.status ≠ .interrupted
  tasks : ∀ e ∈ host.world.db.tasks.entries, OfLastDay now e.row.createdAt →
    e.row.status ≠ .failed ∧ e.row.status ≠ .interrupted
  failed : host.world.redis.lists .failed = []

/-! ### A host three days after the epoch -/

/-- An approval has been pending for three days; another one was decided in the last hour. -/
def sampleApprovals : Table CallId Approval :=
  let approval (now : Time) := Transaction.newApproval now ⟨"Commit 4c1d in app: (no subject)",
    .obj [], [], "low", some 1, some 4⟩
  (Table.empty.insert ⟨1, 1, .pipeline⟩ (approval 0)).insert ⟨1, 3, .pipeline⟩
    { approval (255600 * second) with
      decision := some "approved"
      decidedAt := some (258000 * second) }

/-- A workflow has been running for three days, one failed that was created 25 hours ago, and one of
the last day completed. -/
def sampleWorkflows : Table CallId Workflow :=
  let workflow (now : Time) := Transaction.newWorkflow now "commit_pipeline" ["summarize",
    "draft_social", "save", "request_approval"] []
  let last : LogEntry := ⟨255600 * second, "pipeline_completed", .obj []⟩
  ((Table.empty.insert ⟨1, 1, .pipeline⟩ (workflow 0)).insert ⟨1, 2, .pipeline⟩
    ((workflow (169200 * second)).finish .failed (176400 * second) last)).insert ⟨1, 3, .pipeline⟩
    ((workflow (252000 * second)).finish .completed (255600 * second) last)

/-- The failed workflow's last task failed 23 hours ago. -/
def sampleTasks : Table CallId Task :=
  Table.empty.insert
    ⟨1, 2, .pipeline⟩ ((Transaction.newTask (176400 * second) "draft_social" 2 (.obj [])).fail
    (176400 * second) "timed out")

def sampleHost : Host where
  world := { World.initial with
    clock := 259200 * second
    db := { Db.empty with
      approvals := sampleApprovals
      workflows := sampleWorkflows
      tasks := sampleTasks } }
  watchers := ⟨none, none⟩
  summaryFile := []

def sampleCounts : PeriodCounts :=
  ⟨[(.completed, 1)], [(.failed, 1)], [(some "approved", 1)], [("commit_pipeline", 1)],
    ["timed out"]⟩

theorem counts_sample :
    (Query.periodCounts (259200 * second - 86400 * second) (259200 * second)).run
      sampleHost.world.db = .ok sampleCounts := by
  simp [Query.run, Query.rows, Query.within, countBy, sampleHost, sampleApprovals, sampleWorkflows,
    sampleTasks, sampleCounts, Db.empty,
    Table.empty, Table.insert, Transaction.newApproval, Transaction.newWorkflow,
      Transaction.newTask, Workflow.finish, Task.fail, second]
  simp [List.eraseDups_cons]

/-- The host's summary recommends nothing. -/
theorem plays_sample : ∃ script rest host' content metadata,
    Plays (fun c h r h' => h.perform ⟨1, 1, .visitor⟩ c r h')
    (runDailySummary "logs") sampleHost script rest host' ∧
    ⟨.run (.session (.addMemory "daily_summary" content metadata)), .ok (1 : Nat)⟩ ∈ script ∧
    recommendation content = some allClear := by
  obtain ⟨script, rest, host', content, metadata, plays, written⟩ :=
    @plays_summary sampleHost ⟨1, 1, .visitor⟩ "logs" rfl
  obtain ⟨stats, counts, gathered, rfl, -⟩ := gathered_of_plays plays written
  refine ⟨script, rest, host', _, metadata, plays, written, ?_⟩
  rw [recommendation_formatSummary]
  obtain ⟨-, -, ran, dead, failed, interrupted, running, pending, -⟩ := gathered
  cases Except.ok.inj (counts_sample.symm.trans ran)
  have quiet : stats.approvalsPending = 0 ∧ stats.queueDepthFailed = 0 ∧ stats.workflowsFailed = 0 ∧
      stats.workflowsInterrupted = 0 ∧ stats.workflowsRunning = 0 :=
        ⟨pending, dead, failed, interrupted, running⟩
  simp [recommendedAction, quiet, allClear]

theorem all_clear_recent_sample : Recent sampleHost (259200 * second) := by
  obtain ⟨script, rest, host', content, metadata, plays, written, clear⟩ := plays_sample
  exact all_clear_recent plays written clear

/-- Nothing is recommended, with an approval pending and a workflow running for three days, and with
a task that failed within the last day. -/
theorem all_clear_stale :
    ∃ (host : Host) (script : List (Interaction serviceCalls)) (rest : Service Json) (host' : Host)
    (content : String) (metadata : Json),
    Plays (fun c h r h' => h.perform ⟨1, 1, .visitor⟩ c r h')
    (runDailySummary "logs") host script rest host' ∧
    ⟨.run (.session (.addMemory "daily_summary" content metadata)), .ok (1 : Nat)⟩ ∈ script ∧
    recommendation content = some allClear ∧ ¬ Clean host host.world.clock ∧
    (∃ e ∈ host.world.db.approvals.entries, e.row.decision = none) ∧
    (∃ e ∈ host.world.db.workflows.entries, e.row.status = .running) ∧
    ∃ e ∈ host.world.db.tasks.entries, OfLastDay host.world.clock e.row.createdAt ∧
    e.row.status = .failed := by
  obtain ⟨script, rest, host', content, metadata, plays, written, clear⟩ := plays_sample
  have pending : ∃ e ∈ sampleApprovals.entries, e.row.decision = none :=
    ⟨_, List.mem_cons_self, rfl⟩
  refine ⟨sampleHost, script, rest, host', content, metadata, plays, written, clear,
    fun clean => ?_, pending, ?_, ?_⟩
  · obtain ⟨e, member, undecided⟩ := pending
    exact clean.approvals e member undecided
  · exact ⟨_, List.mem_cons_self, rfl⟩
  · exact ⟨_, List.mem_cons_self, ⟨by decide, by decide⟩, rfl⟩

end WiseOrder.DailySummary
