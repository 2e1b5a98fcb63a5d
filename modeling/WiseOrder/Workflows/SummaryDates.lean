import WiseOrder.Workflows.SummaryRuns

/-! Runs of the daily summary, any number at once. Each looks for the summary of its date
before it writes one, and what it has looked at may be out of date when it writes. -/
namespace WiseOrder.DailySummary
open Coroutine Coroutine.Program Relational
variable {logDir : String} {now : Time} {existing : Option (Nat × Memory)}

abbrev Summarizers := Config CallId Host serviceCalls Json

abbrev SummaryEvent := Event CallId Host serviceCalls Json

/-- Runs of the scheduler and of requests, and whatever else goes on. -/
def summarizers (logDir : String) : Machine CallId Host serviceCalls Json where
  spawn := fun _ _ p => p = runDailySummary logDir
  perform := fun i c host reply host' => host.perform i c reply host'
  again := fun _ _ _ _ => False
  drift := Elsewhere
  crash := fun host _ host' => Elsewhere host host'

section
variable {c c' : Summarizers} {e : SummaryEvent} {trace : List SummaryEvent}
    {i j : CallId} {m m' : Nat × Memory}
  {date : String}

theorem runs_obey (obeys : c.Obeys (fun _ => runProtocol) (fun _ => runEnds) fun _ _ => ())
    (step : (summarizers logDir).Step c e c') :
    c'.Obeys (fun _ => runProtocol) (fun _ => runEnds) fun _ _ => () := by
  refine step.obeys ⟨fun _ _ => trivial⟩ ?_ ?_ (fun _ _ _ _ _ ready => ready) obeys
  · rintro i p rfl
    cases step with
    | spawn unused entry =>
        cases entry
        exact obeys_run
  · rintro i p seen a rfl - -
    cases step with
    | again returned next => exact next.elim

theorem step_summaries (obeys : c.Obeys (fun _ => runProtocol) (fun _ => runEnds) fun _ _ => ())
    (step : (summarizers logDir).Step c e c') : summaries c'.world.world.db =
      summaries c.world.world.db ∨ ∃ i now existing stats told, Looked
      (c.threads i).past now existing ∧ Missing now existing ∧ Unwritten (c.threads i).past ∧
      e = .call i ⟨.run (.session (summaryInsert now stats)), told⟩ c.world ∧
      summaries c'.world.world.db = summaries c.world.world.db ++
        [(c.world.world.db.memory.next, newSummary c.world.world.clock now stats)] := by
  cases step with
  | spawn | again => exact .inl rfl
  | drift moved => exact .inl moved.2
  | crash fell => exact .inl fell.2
  | @call i seen call onReply reply world awaiting performed =>
      have allowed := (obeys i _ _ awaiting).1
      rcases perform_summaries allowed performed with ⟨same, -⟩ | ⟨now, existing, stats, told,
        looked, missing, unwritten, same, appended⟩
      · exact .inl same
      · refine .inr ⟨i, now, existing, stats, told, ?_, missing, ?_, by rw [same], appended⟩
        · rwa [awaiting]
        · rwa [awaiting]

/-- A run that has looked had looked before the step, or looks in it. -/
theorem looked_step (step : (summarizers logDir).Step c e c')
    (looked : Looked (c'.threads i).past now existing) : Looked (c.threads i).past now existing ∨
    (c.threads i).past = [⟨.run .now, .ok now⟩] ∧
      e = .call i ⟨.select (.latestMemory "daily_summary"), .ok existing⟩ c.world := by
  rw [step.past i] at looked
  cases own : e.own i with
  | none =>
      rw [own, Option.toList_none, List.append_nil] at looked
      exact .inl looked
  | some x =>
      obtain ⟨before, rfl⟩ := Event.mem_own.mp (by rw [own]; exact List.mem_singleton.mpr rfl)
      rw [own, Option.toList_some] at looked
      rcases looked.of_snoc with before | ⟨past, rfl⟩
      · exact .inl before
      · cases step
        exact .inr ⟨past, rfl⟩

/-- A look finds the latest summary. -/
theorem look_latest {before : Host}
    (step : (summarizers logDir).Step c (.call i ⟨.select (.latestMemory "daily_summary"),
      .ok existing⟩ before) c') :
    existing = (summaries c.world.world.db).getLast? ∧ c'.world = c.world := by
  cases step with
  | call awaiting performed =>
      obtain ⟨found, same⟩ := performed
      exact ⟨(Except.ok.inj found).symm, same⟩

/-! ### One summary for each date -/

/-- Where calls do not get in each other's way. A look sees the summary of the run's date, if there
is one; and a run that writes one has seen all that are of its date. -/
structure Undisturbed (c : Summarizers) (e : SummaryEvent) (c' : Summarizers) : Prop where
  looks : ∀ (i : CallId) (existing : Option (Nat × Memory)) (before : Host) (now : Time),
    e = .call i ⟨.select (.latestMemory "daily_summary"), .ok existing⟩ before →
      (c.threads i).past = [⟨.run .now, .ok now⟩] →
    ∀ m ∈ summaries c.world.world.db, Dated (dateOf now) m.2 → ∃ last, existing =
      some last ∧ Dated (dateOf now) last.2
  writes : ∀ (i : CallId) (t : Transaction) (told : Except PyException
    t.Reply) (before : Host) (now : Time)
    (existing : Option (Nat × Memory)), e = .call i ⟨.run (.session t), told⟩ before →
    summaries c'.world.world.db ≠ summaries c.world.world.db →
      Looked (c.threads i).past now existing →
    ∀ m ∈ summaries c.world.world.db, Dated (dateOf now) m.2 → ∃ last, existing = some last ∧
      m.1 ≤ last.1

/-- What the runs keep. A summary of a run's date that came after its look has a later id than what
it saw. -/
structure Unique (c : Summarizers) : Prop where
  obeys : c.Obeys (fun _ => runProtocol) (fun _ => runEnds) fun _ _ => ()
  dated : ∀ m ∈ summaries c.world.world.db, ∃ now, Dated (dateOf now) m.2
  single : ∀ m ∈ summaries c.world.world.db, ∀ m' ∈ summaries c.world.world.db, ∀ date,
    Dated date m.2 → Dated date m'.2 → m = m'
  seen : ∀ i now m, Looked (c.threads i).past now (some m) → m ∈ summaries c.world.world.db
  since : ∀ i now existing, Looked (c.threads i).past now existing → Missing now existing →
    Unwritten (c.threads i).past →
    ∀ m ∈ summaries c.world.world.db, Dated (dateOf now) m.2 → ∀ last, existing = some last →
      last.1 < m.1

theorem Unwritten.before (step : (summarizers logDir).Step c e c')
    (unwritten : Unwritten (c'.threads i).past) : Unwritten (c.threads i).past := by
  intro x member
  exact unwritten x (by rw [step.past]; exact List.mem_append_left _ member)

/-- A run that writes finds no summary of its date. -/
theorem Unique.none_dated (unique : Unique c) (undisturbed : Undisturbed c e c') {t : Transaction}
    {told : Except PyException t.Reply} {before : Host}
    (writes : e = .call i ⟨.run (.session t), told⟩ before)
    (wrote : summaries c'.world.world.db ≠ summaries c.world.world.db)
    (looked : Looked (c.threads i).past now existing) (missing : Missing now existing)
    (unwritten : Unwritten (c.threads i).past) :
    ∀ m ∈ summaries c.world.world.db, ¬ Dated (dateOf now) m.2 := by
  intro m member dated
  obtain ⟨last, found, upto⟩ :=
    undisturbed.writes i t told before now existing writes wrote looked m member dated
  have after := unique.since i now existing looked missing unwritten m member dated last found
  omega

theorem unique_step (unique : Unique c) (step : (summarizers logDir).Step c e c')
    (undisturbed : Undisturbed c e c') : Unique c' := by
  have kept : ∀ m ∈ summaries c.world.world.db, m ∈ summaries c'.world.world.db := by
    rcases step_summaries unique.obeys step with same | ⟨i, now, existing, stats, told, -, -, -,
      -, appended⟩
    · rw [same]
      exact fun m member => member
    · rw [appended]
      exact fun m member => List.mem_append_left _ member
  have added : ∀ m ∈ summaries c'.world.world.db, m ∈ summaries c.world.world.db ∨
      ∃ i now existing stats, m = (c.world.world.db.memory.next,
        newSummary c.world.world.clock now stats) ∧
        (∀ m ∈ summaries c.world.world.db, ¬ Dated (dateOf now) m.2) ∧
            Looked (c.threads i).past now existing := by
    rcases step_summaries unique.obeys step with same | ⟨i, now, existing, stats, told, looked,
      missing, unwritten, event, appended⟩
    · rw [same]
      exact fun m member => .inl member
    · have wrote : summaries c'.world.world.db ≠ summaries c.world.world.db := by simp [appended]
      have none := unique.none_dated undisturbed event wrote looked missing unwritten
      rw [appended]
      intro m member
      rcases List.mem_append.mp member with old | new
      · exact .inl old
      · exact .inr ⟨i, now, existing, stats, List.mem_singleton.mp new, none, looked⟩
  refine ⟨runs_obey unique.obeys step, fun m member => ?_,
    fun m member m' member' date dated dated' => ?_, fun i now m looked => ?_,
    fun i now existing looked missing unwritten m member dated last found => ?_⟩
  · rcases added m member with old | ⟨i, now, existing, stats, rfl, -, -⟩
    · exact unique.dated m old
    · exact ⟨now, newSummary_dated _ now stats⟩
  · have of_new {now : Time} {stats : DailyStats} {clock : Time}
      (dated : Dated date (newSummary clock now stats)) : date = dateOf now :=
      Json.str.inj (Except.ok.inj (dated.symm.trans (newSummary_dated clock now stats)))
    rcases added m member with old | ⟨i, now, existing, stats, rfl, none, -⟩
    · rcases added m' member' with old' | ⟨i', now', existing', stats', rfl, none', -⟩
      · exact unique.single m old m' old' date dated dated'
      · exact absurd (of_new dated' ▸ dated) (none' m old)
    · rcases added m' member' with old' | ⟨i', now', existing', stats', rfl, none', -⟩
      · exact absurd (of_new dated ▸ dated') (none m' old')
      · exact summaries_unique member member' rfl
  · rcases looked_step step looked with before | ⟨-, rfl⟩
    · exact kept m (unique.seen i now m before)
    · obtain ⟨latest, same⟩ := look_latest step
      rw [same]
      exact List.mem_of_getLast? latest.symm
  · rcases looked_step step looked with before | ⟨past, rfl⟩
    · rcases added m member with old | ⟨i', now', existing', stats, rfl, none, -⟩
      · exact unique.since i now existing before missing (unwritten.before step) m old dated
          last found
      · subst found
        exact summaries_below (unique.seen i now last before)
    · obtain ⟨-, same⟩ := look_latest step
      rw [same] at member
      obtain ⟨latest, shown, today⟩ := undisturbed.looks i existing _ now rfl past m member dated
      exact absurd today (missing latest shown)

/-- No summary is kept, and no run has begun. -/
def Summarizers.Fresh (c : Summarizers) : Prop := summaries c.world.world.db = [] ∧
    c.threads = fun _ => .absent

theorem unique_fresh (fresh : c.Fresh) : Unique c := by
  obtain ⟨none, absent⟩ := fresh
  have unlooked (i : CallId) (now : Time) (existing : Option (Nat × Memory)) : ¬ Looked
      (c.threads i).past now existing := by
    rw [absent]
    rintro ⟨more, same⟩
    contradiction
  refine ⟨fun i seen rest active => ?_, ?_, ?_, fun i now m looked =>
    absurd looked (unlooked _ _ _),
    fun i now existing looked => absurd looked (unlooked _ _ _)⟩
  · rw [absent] at active
    contradiction
  · simp [none]
  · simp [none]

/-- One summary for each date: as long as the calls leave each other undisturbed, no two summaries
are of one date, and a run that returns without having written one returns the id of the one that is
there. -/
theorem summaries_once {start : Summarizers} (fresh : start.Fresh)
    (run : Transition.Run (Transition.Guarded (summarizers logDir).Step Undisturbed) start
      trace c) :
    (∀ m ∈ summaries c.world.world.db, ∃ now, Dated (dateOf now) m.2) ∧
    (∀ m ∈ summaries c.world.world.db, ∀ m' ∈ summaries c.world.world.db, ∀ date, Dated date m.2 →
      Dated date m'.2 → m = m') ∧
    ∀ i h j, c.threads i = .active h (.done (.ok j)) → Wrote h ∨
      ∃ now m, (⟨.run .now, .ok now⟩ : Interaction serviceCalls) ∈ h ∧
      m ∈ summaries c.world.world.db ∧
        Dated (dateOf now) m.2 ∧ j = skipped m.1 (dateOf now) := by
  have unique := run.invariant (P := Unique) (fun unique taken =>
    unique_step unique taken.1 taken.2) (unique_fresh fresh)
  refine ⟨unique.dated, unique.single, fun i h j returned => ?_⟩
  obtain ⟨now, existing, looked, wrote | ⟨m, rfl, dated, rfl⟩⟩ : runEnds (.ok j) h () :=
    unique.obeys i _ _ returned
  · exact .inl wrote
  · have past : (c.threads i).past = h := by rw [returned]; rfl
    have member := unique.seen i now m (by rwa [past])
    obtain ⟨more, rfl⟩ := looked
    exact .inr ⟨now, m, List.mem_cons_self, member, dated, rfl⟩

end

/-! ### Two runs at once -/

section
variable {condition : Summarizers → SummaryEvent → Summarizers → Prop} {start : Summarizers}
    {past : List SummaryEvent} {w w' : Host}
  {threads : CallId → Thread serviceCalls Json} {p p' : Service Json}
    {seen : List (Interaction serviceCalls)}

/-- A run begins and goes through a script. -/
theorem summary_entry
    (earlier : Transition.Run (Transition.Guarded (summarizers logDir).Step condition) start past
      ⟨w, threads⟩)
    (i : CallId) (script : List (Interaction serviceCalls)) (unused : threads i = .absent)
    (plays : Plays (fun c h r h' => h.perform i c r h') (runDailySummary logDir) w script p' w')
    (starts : ∀ c', condition ⟨w, threads⟩ (.spawn i (runDailySummary logDir)) c')
    (admitted : ∀ c x before c', x ∈ script → condition c (.call i x before) c') : ∃ trace,
      Transition.Run (Transition.Guarded (summarizers logDir).Step condition) start trace ⟨w',
        Function.update threads i (.active script p')⟩ := by
  obtain ⟨events, -, run⟩ := Machine.run_spawned earlier unused rfl plays starts admitted
  exact ⟨_, run⟩

/-- It goes on through another one. -/
theorem summary_on
    (earlier : Transition.Run (Transition.Guarded (summarizers logDir).Step condition) start past
      ⟨w, threads⟩)
    (i : CallId) (script : List (Interaction serviceCalls)) (active : threads i = .active seen p)
    (plays : Plays (fun c h r h' => h.perform i c r h') p w script p' w')
    (admitted : ∀ c x before c', x ∈ script → condition c (.call i x before) c') : ∃ trace,
      Transition.Run (Transition.Guarded (summarizers logDir).Step condition) start trace
        ⟨w', Function.update threads i (.active (seen ++ script) p')⟩ := by
  obtain ⟨events, -, run⟩ := Machine.run_plays earlier active plays admitted
  exact ⟨_, run⟩

/-- One awaited call is answered. -/
theorem summary_call
    (earlier : Transition.Run (Transition.Guarded (summarizers logDir).Step condition) start past
      ⟨w, threads⟩)
    (i : CallId) (x : Interaction serviceCalls)
    {onReply : Except PyException (serviceCalls.Reply x.call) → Service Json}
    (active : threads i = .active seen (.await x.call onReply))
    (performed : w.perform i x.call x.reply w')
    (admitted : ∀ c', condition ⟨w, threads⟩ (.call i x w) c') :
    Transition.Run (Transition.Guarded (summarizers logDir).Step condition) start
    (past ++ [.call i x w])
      ⟨w', Function.update threads i (.active (seen ++ [x]) (onReply x.reply))⟩ :=
  earlier.next ⟨.call active performed, admitted _⟩

end

/-- Midnight of a day. -/
def midnight : Time := 259200 * second

/-- A host at midnight with these rows in its memory. -/
def keeping (memory : Table CallId Memory) : Host where
  world := { World.initial with clock := midnight, db := { Db.empty with memory := memory } }
  watchers := ⟨none, none⟩
  summaryFile := []

/-- What is counted where the last 24 hours have no rows. -/
def nothingCounted : PeriodCounts := ⟨[], [], [], [], []⟩

def quietStats : DailyStats where
  periodStartUtc := Python.isoformat (midnight - 86400 * second)
  periodEndUtc := Python.isoformat midnight
  workflowsCompleted := 0
  workflowsFailed := 0
  workflowsInterrupted := 0
  workflowsRunning := 0
  tasksCompleted := 0
  tasksFailed := 0
  approvalsPending := 0
  approvalsDecided := 0
  approvalsApproved := 0
  approvalsRejected := 0
  queueDepthHigh := 0
  queueDepthNormal := 0
  queueDepthFailed := 0
  mostCommonWorkflowNames := []
  mostCommonFailureTypes := mostCommon 5 (nothingCounted.failedTaskErrors.map classifyError)
  errorLogLinesCount := 0

theorem counts_empty {memory : Table CallId Memory} :
    (Query.periodCounts (midnight - 86400 * second) midnight).run
    (keeping memory).world.db = .ok nothingCounted := by
  simp [Query.run, Query.rows, Query.within, countBy, keeping, nothingCounted, Db.empty,
    Table.empty]

/-- What a run has of its look. -/
def lookScript (existing : Option (Nat × Memory)) : List (Interaction serviceCalls) :=
  [⟨.run .now, .ok midnight⟩, ⟨.select (.latestMemory "daily_summary"), .ok existing⟩]

/-- What it awaits until it writes, where nothing is to be counted. -/
def countScript : List (Interaction serviceCalls) :=
  [⟨.select (.periodCounts (midnight - 86400 * second) midnight), .ok nothingCounted⟩,
    ⟨.run (.redis (.llen .high)), .ok (0 : Nat)⟩, ⟨.run (.redis (.llen .normal)), .ok (0 : Nat)⟩,
    ⟨.run (.redis (.llen .failed)), .ok (0 : Nat)⟩, ⟨.run (.isFile "logs/wiseorder.jsonl"),
      .ok false⟩]

theorem counts_quiet : ∀ x ∈ countScript, x.call ≠ .select (.latestMemory "daily_summary") ∧
    ¬ Writes x.call := by
  simp [countScript, Writes]

/-- What it writes. -/
def quietSummary : Transaction :=
  .addMemory "daily_summary" (formatSummary quietStats midnight) (summaryMeta midnight quietStats)

theorem plays_counts (i : CallId) (memory : Table CallId Memory) : ∃ onReply,
    Plays (fun c h r h' => h.perform i c r h')
    (runDailySummary.write "logs" midnight (dateOf midnight)) (keeping memory)
      countScript (.await (.run (.session quietSummary)) onReply) (keeping memory) := by
  have length (queue : QueueName) : (keeping memory).perform i (.run (.redis (.llen queue)))
      (.ok (0 : Nat)) (keeping memory) :=
    ⟨_, ⟨_, rfl, rfl⟩, rfl⟩
  exact ⟨_, .call
    ⟨counts_empty, rfl⟩ (.call (length .high) (.call (length .normal) (.call (length .failed)
    (.call ⟨_, rfl, rfl⟩ (.stop _ _)))))⟩

theorem performs_write (i : CallId) (memory : Table CallId Memory) :
    (keeping memory).perform i (.run (.session quietSummary)) (.ok memory.next)
    (keeping (memory.insert i (newSummary midnight midnight quietStats))) := ⟨_, ⟨_, rfl, rfl⟩, rfl⟩

/-- Two runs look before either has written, and both write. -/
theorem summaries_twice : ∃ trace c, Transition.Run (summarizers "logs").Step
      ⟨keeping .empty, fun _ => .absent⟩ trace c ∧
    ∃ m ∈ summaries c.world.world.db, ∃ m' ∈ summaries c.world.world.db,
      Dated (dateOf midnight) m.2 ∧ Dated (dateOf midnight) m'.2 ∧ m.1 ≠ m'.1 := by
  have idle : Transition.Run (Transition.Guarded (summarizers "logs").Step fun _ _ _ =>
    True) ⟨keeping .empty, fun _ => .absent⟩ []
      ⟨keeping .empty, fun _ => .absent⟩ := .refl _
  have looks (i : CallId) : Plays (fun c h r h' => h.perform i c r h') (runDailySummary "logs")
    (keeping .empty)
      (lookScript none) (runDailySummary.write "logs" midnight (dateOf midnight))
          (keeping .empty) :=
    .call ⟨_, ⟨rfl, rfl⟩, rfl⟩ (.call ⟨rfl, rfl⟩ (.stop _ _))
  obtain ⟨_, first⟩ := summary_entry idle ⟨1, 1, .visitor⟩ _ rfl (looks _)
    (fun _ => trivial) (fun _ _ _ _ _ => trivial)
  obtain ⟨_, both⟩ :=
    summary_entry
    first ⟨1, 2, .visitor⟩ _ rfl (looks _) (fun _ => trivial) (fun _ _ _ _ _ => trivial)
  obtain ⟨_, counts⟩ := plays_counts ⟨1, 1, .visitor⟩ .empty
  obtain ⟨_, counted⟩ := summary_on both ⟨1, 1, .visitor⟩ _ rfl counts (fun _ _ _ _ _ => trivial)
  have one := summary_call counted ⟨1, 1, .visitor⟩ ⟨_, .ok _⟩ rfl (performs_write _ _)
    (fun _ => trivial)
  obtain ⟨_, counts⟩ := plays_counts ⟨1, 2, .visitor⟩ (Table.empty.insert
    ⟨1, 1, .visitor⟩ (newSummary midnight midnight quietStats))
  obtain ⟨_, counted⟩ := summary_on one ⟨1, 2, .visitor⟩ _ rfl counts (fun _ _ _ _ _ => trivial)
  have two := summary_call counted ⟨1, 2, .visitor⟩ ⟨_, .ok _⟩ rfl (performs_write _ _)
    (fun _ => trivial)
  exact ⟨_, _, two.unguard, (1, newSummary midnight midnight quietStats), List.mem_cons_self,
    (2, newSummary midnight midnight quietStats),
    List.mem_cons_of_mem _ List.mem_cons_self, newSummary_dated _ _ _,
      newSummary_dated _ _ _, by decide⟩

section
variable {c c' : Summarizers} {e : SummaryEvent}

theorem undisturbed_none (none : summaries c.world.world.db = []) : Undisturbed c e c' := by
  constructor
  · intro i existing before now _ _ m member
    rw [none] at member
    contradiction
  · intro i t told before now existing _ _ _ m member
    rw [none] at member
    contradiction

theorem undisturbed_spawn {i : CallId} {p : Service Json} : Undisturbed c (.spawn i p) c' := by
  constructor
  · intro _ _ _ _ same
    contradiction
  · intro _ _ _ _ _ _ same
    contradiction

/-- A look at the only summary there is. -/
theorem undisturbed_one {i : CallId} {m : Nat × Memory} {before : Host}
    (only : summaries c.world.world.db = [m]) :
    Undisturbed c (.call i ⟨.select (.latestMemory "daily_summary"), .ok (some m)⟩ before) c' := by
  constructor
  · intro j existing before now same past m' member dated
    obtain ⟨-, same, -⟩ := Event.call.inj same
    cases same
    rw [only] at member
    cases List.mem_singleton.mp member
    exact ⟨m, rfl, dated⟩
  · intro j t x before now existing same
    obtain ⟨-, same, -⟩ := Event.call.inj same
    cases same

theorem undisturbed_call {i : CallId} {x : Interaction serviceCalls} {before : Host}
    (look : x.call ≠ .select (.latestMemory "daily_summary")) (write : ¬ Writes x.call) :
    Undisturbed c (.call i x before) c' := by
  constructor
  · intro _ _ _ _ same
    obtain ⟨-, rfl, -⟩ := Event.call.inj same
    exact absurd rfl look
  · intro _ _ _ _ _ _ same
    obtain ⟨-, rfl, -⟩ := Event.call.inj same
    exact absurd trivial write

end

/-- A run that comes after another one returns the id of its summary. -/
theorem summaries_once_skipped :
    ∃ trace c h, Transition.Run (Transition.Guarded (summarizers "logs").Step Undisturbed)
      ⟨keeping .empty, fun _ => .absent⟩ trace c ∧ c.threads ⟨1, 2, .visitor⟩ = .active h
      (.done (.ok (skipped 1 (dateOf midnight)))) ∧ ∀ m ∈ summaries c.world.world.db,
      ∀ m' ∈ summaries c.world.world.db, ∀ date, Dated date m.2 → Dated date m'.2 → m = m' := by
  have idle : Transition.Run (Transition.Guarded (summarizers "logs").Step Undisturbed)
    ⟨keeping .empty, fun _ => .absent⟩ []
      ⟨keeping .empty, fun _ => .absent⟩ := .refl _
  have reads : ∀ (c c' : Summarizers) (i : CallId) (before : Host),
      Undisturbed c (.call i ⟨.run .now, .ok midnight⟩ before) c' :=
    fun _ _ _ _ => undisturbed_call (by simp) id
  have started (i : CallId) (memory : Table CallId Memory) : (keeping memory).perform i (.run .now)
      (.ok midnight) (keeping memory) :=
    ⟨_, ⟨rfl, rfl⟩, rfl⟩
  obtain ⟨_, first⟩ := summary_entry idle ⟨1, 1, .visitor⟩ [⟨.run .now, .ok midnight⟩] rfl
    (.call (started _ _) (.stop _ _))
    (fun _ => undisturbed_spawn)
      (fun c x before c' member => by cases List.mem_singleton.mp member; exact reads c c' _ before)
  have looked :=
    summary_call
    first ⟨1, 1, .visitor⟩ ⟨.select (.latestMemory "daily_summary"), .ok none⟩ rfl ⟨rfl, rfl⟩
    (fun _ => undisturbed_none rfl)
  obtain ⟨_, counts⟩ := plays_counts ⟨1, 1, .visitor⟩ .empty
  obtain ⟨_, counted⟩ := summary_on looked ⟨1, 1, .visitor⟩ _ rfl counts
    (fun _ x _ _ member => undisturbed_call (counts_quiet x member).1 (counts_quiet x member).2)
  have wrote := summary_call counted ⟨1, 1, .visitor⟩ ⟨_, .ok _⟩ rfl (performs_write _ _)
    (fun _ => undisturbed_none rfl)
  obtain ⟨_, second⟩ := summary_entry wrote ⟨1, 2, .visitor⟩ [⟨.run .now, .ok midnight⟩] rfl
    (.call (started _ _) (.stop _ _))
    (fun _ => undisturbed_spawn)
      (fun c x before c' member => by cases List.mem_singleton.mp member; exact reads c c' _ before)
  have found := summary_call second ⟨1, 2, .visitor⟩
    ⟨.select (.latestMemory "daily_summary"),
      .ok (some (1, newSummary midnight midnight quietStats))⟩ rfl ⟨rfl, rfl⟩
    (fun _ => undisturbed_one rfl)
  exact ⟨_, _, _, found, rfl, (summaries_once ⟨rfl, rfl⟩ found).2.1⟩

end WiseOrder.DailySummary
