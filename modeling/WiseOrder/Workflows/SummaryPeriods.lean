import WiseOrder.Workflows.SummaryDates
import WiseOrder.Workflows.SummaryTurns

/-! The periods of the summaries. Each run of a scheduler that is on time leaves a summary
of its date behind; what the summaries leave out lies before a run whose date had its
summary already, or has been left out because a run was late. -/
namespace WiseOrder.SummarySchedule
open DailySummary Coroutine Coroutine.Program Relational
variable {hour : Int} {logDir : String} {late : Nat} {now fire since t f : Time}
    {existing : Option (Nat × Memory)} {i : CallId}
  {n m : Nat} {c c' : OfficePool} {e : OfficeEvent} {trace : List OfficeEvent} {h : OfficeHistory}
    {x : Interaction officeCalls}

/-! ### Runs -/

/-- A summary of the 24 hours before `stop`. -/
def Ends (m : Nat × Memory) (stop : Time) : Prop := ∃ stats, m.2.metadata = summaryMeta stop stats

/-- The run has asked for its summary to be written, whether it was told that it is or not. -/
def Asked (h : List (Interaction serviceCalls)) : Prop :=
  ∃ (t : Transaction) (told : Except PyException t.Reply),
    (⟨.run (.session t), told⟩ : Interaction serviceCalls) ∈ h

theorem asked_of_wrote {h : List (Interaction serviceCalls)} (wrote : Wrote h) : Asked h := by
  obtain ⟨t, x, member⟩ := wrote
  exact ⟨t, .ok x, member⟩

/-- A run that read the clock at `stop` has asked for its summary to be written. -/
def Made (c : OfficePool) (stop : Time) : Prop := ∃ i existing, Looked (runOf c i) stop existing ∧
    Asked (runOf c i)

theorem Made.step {stop : Time} (made : Made c stop) (step : (office logDir hour).Step c e c') :
    Made c' stop := by
  obtain ⟨i, existing, looked, t, told, member⟩ := made
  obtain ⟨more, grown⟩ := run_grows step i
  exact ⟨i, existing, looked_kept step looked, t, told, grown ▸ List.mem_append_left _ member⟩

/-- What the office keeps. -/
structure Tiled (hour : Int) (late : Nat) (since : Time) (c : OfficePool) : Prop where
  obeys : c.Obeys (officeProtocol hour) (officeEnds hour) fun _ _ => ()
  prior : ∀ n, c.threads (pass (n + 1)) ≠ .absent → Over c n
  finite : ∃ n, c.threads (pass n) = .absent
  reads : ∀ i (now : Time), (⟨.run .now, .ok now⟩ : Interaction serviceCalls) ∈ runOf c i →
    now ≤ c.world.world.clock
  written : ∀ m ∈ summaries c.world.world.db, ∃ stop, Ends m stop ∧ Made c stop
  wrote : ∀ i now existing, Looked (runOf c i) now existing → Wrote (runOf c i) →
    ∃ m ∈ summaries c.world.world.db, Ends m now
  found : ∀ n f m, Looked (runOf c (pass n)) f (some m) → m ∈ summaries c.world.world.db ∧
    ∃ stop, Ends m stop ∧ Made c stop
  punctual : ∀ n, Latest c n → Punctual hour late since c n
  timely : ∀ n, Timely hour late since c n

theorem clock_reads (tiled : Tiled hour late since c) (step : (office logDir hour).Step c e c') :
    ∀ i (now : Time), (⟨.run .now, .ok now⟩ : Interaction serviceCalls) ∈ runOf c' i →
    now ≤ c'.world.world.clock := by
  intro i now member
  rcases run_step step i with same | ⟨y, rfl, longer⟩
  · exact Int.le_trans (tiled.reads i now (same ▸ member)) (clock_step step)
  · rw [longer] at member
    rcases List.mem_append.mp member with old | new
    · exact Int.le_trans (tiled.reads i now old) (clock_step step)
    · cases List.mem_singleton.mp new
      rw [clock_call step]
      cases step with
      | call awaiting performed =>
          obtain ⟨w, ⟨told, -⟩, -⟩ := performed
          exact Int.le_of_eq told

theorem looked_reads (looked : Looked (runOf c i) now existing) :
    (⟨.run .now, .ok now⟩ : Interaction serviceCalls) ∈ runOf c i := by
  obtain ⟨more, same⟩ := looked
  rw [same]
  exact List.mem_cons_self

theorem Tiled.made_reached {stop : Time} (tiled : Tiled hour late since c) (made : Made c stop) :
    stop ≤ c.world.world.clock := by
  obtain ⟨i, existing, looked, -⟩ := made
  exact tiled.reads i stop (looked_reads looked)

/-- A run that has committed a summary leaves it behind. -/
theorem wrote_step (tiled : Tiled hour late since c) (step : (office logDir hour).Step c e c')
    (looked : Looked (runOf c' i) now existing) (wrote : Wrote (runOf c' i))
    (kept : ∀ m ∈ summaries c.world.world.db, m ∈ summaries c'.world.world.db) :
    ∃ m ∈ summaries c'.world.world.db, Ends m now := by
  have old (looked : Looked (runOf c i) now existing) (wrote : Wrote (runOf c i)) :
      ∃ m ∈ summaries c'.world.world.db, Ends m now := by
    obtain ⟨m, member, ends⟩ := tiled.wrote i now existing looked wrote
    exact ⟨m, kept m member, ends⟩
  rcases run_step step i with same | ⟨y, rfl, longer⟩
  · exact old (same ▸ looked) (same ▸ wrote)
  · obtain ⟨t, x, member⟩ := wrote
    rw [longer] at looked member
    rcases looked.of_snoc with before | ⟨read, rfl⟩
    · rcases List.mem_append.mp member with earlier | new
      · exact old before ⟨t, x, earlier⟩
      · cases List.mem_singleton.mp new
        rcases step_summaries tiled.obeys step with ⟨-, quiet⟩ | ⟨j, now', existing', stats,
          told, looked', same, appended⟩
        · exact absurd rfl (quiet i t x _)
        · cases (Event.call.inj same).1
          cases (before.unique looked').1
          rw [appended]
          exact ⟨_, List.mem_append_right _ (List.mem_singleton.mpr rfl), stats, rfl⟩
    · rw [read] at member
      rcases List.mem_append.mp member with first | second
      · cases List.mem_singleton.mp first
      · cases List.mem_singleton.mp second

theorem finite_step (tiled : Tiled hour late since c) (step : (office logDir hour).Step c e c') :
    ∃ n, c'.threads (pass n) = .absent := by
  obtain ⟨n, none⟩ := tiled.finite
  have next : c.threads (pass (n + 1)) = .absent := by
    by_contra there
    exact (tiled.prior n there).1 none
  by_contra all
  rcases (step.present _).mp fun absent => all ⟨n, absent⟩ with there | ⟨p, rfl⟩
  · exact there none
  · rcases (step.present _).mp fun absent => all ⟨n + 1, absent⟩ with there | ⟨q, same⟩
    · exact there next
    · cases same

/-- There is always a latest turn. -/
theorem Tiled.latest (tiled : Tiled hour late since c) : ∃ n, Latest c n := by
  obtain ⟨n, none⟩ := tiled.finite
  induction n with
  | zero =>
      refine ⟨0, .inl rfl, ?_⟩
      by_contra there
      exact (tiled.prior 0 there).1 none
  | succ n ih =>
      by_cases before : c.threads (pass n) = .absent
      · exact ih before
      · exact ⟨n, .inr before, none⟩

theorem tiled_step (tiled : Tiled hour late since c) (step : (office logDir hour).Step c e c')
    (onTime : OnTime hour late since c e c') : Tiled hour late since c' := by
  have kept : ∀ m ∈ summaries c.world.world.db, m ∈ summaries c'.world.world.db := by
    rcases step_summaries tiled.obeys step with ⟨same, -⟩ | ⟨i, now, existing,
      stats, told, -, -, appended⟩
    · rw [same]
      exact fun m member => member
    · rw [appended]
      exact fun m member => List.mem_append_left _ member
  constructor
  case obeys => exact office_obeys tiled.obeys step
  case prior => exact over_step tiled.prior step
  case finite => exact finite_step tiled step
  case reads => exact clock_reads tiled step
  case written =>
    intro m member
    rcases step_summaries tiled.obeys step with ⟨same, -⟩ | ⟨i, now, existing, stats,
      told, looked, rfl, appended⟩
    · obtain ⟨stop, ends, made⟩ := tiled.written m (same ▸ member)
      exact ⟨stop, ends, made.step step⟩
    · rw [appended] at member
      rcases List.mem_append.mp member with old | new
      · obtain ⟨stop, ends, made⟩ := tiled.written m old
        exact ⟨stop, ends, made.step step⟩
      · cases List.mem_singleton.mp new
        have grown := run_call step looked.some
        refine ⟨now, ⟨stats, rfl⟩, i, existing, looked_kept step looked,
          summaryInsert now stats, told, ?_⟩
        rw [grown]
        exact List.mem_append_right _ (List.mem_singleton.mpr rfl)
  case wrote => exact fun i now existing looked wrote => wrote_step tiled step looked wrote kept
  case found =>
    intro n f m looked
    rcases looked_step step looked with before | ⟨read, latest, same, live⟩
    · obtain ⟨member, stop, ends, made⟩ := tiled.found n f m before
      exact ⟨kept m member, stop, ends, made.step step⟩
    · have member := List.mem_of_getLast? latest.symm
      obtain ⟨stop, ends, made⟩ := tiled.written m member
      exact ⟨kept m member, stop, ends, made.step step⟩
  case punctual => exact fun n => punctual_step tiled.obeys tiled.prior tiled.punctual step onTime
  case timely => exact timely_step tiled.obeys tiled.prior tiled.punctual tiled.timely step

/-- The scheduler starts on a host without summaries. -/
def OfficePool.Fresh (c : OfficePool) : Prop := summaries c.world.world.db = [] ∧
    c.threads = fun _ => .absent

theorem tiled_fresh (fresh : c.Fresh) : Tiled hour late c.world.world.clock c := by
  obtain ⟨none, absent⟩ := fresh
  have past (i : CallId) : (c.threads i).past = [] := by rw [absent]; rfl
  have idle (i : CallId) : runOf c i = [] := runOf_nil (past i)
  have unlooked (i : CallId) (now : Time) (existing : Option (Nat × Memory)) : ¬ Looked
      (runOf c i) now existing := by
    rw [idle]
    rintro ⟨more, same⟩
    contradiction
  have unbegun (n : Nat) (now : Time) : ¬ Begun (c.threads (pass n)).past now := by
    rw [past]
    rintro ⟨rest, same⟩
    contradiction
  constructor
  case obeys =>
    intro i seen rest active
    rw [absent] at active
    contradiction
  case prior =>
    intro n there
    rw [absent] at there
    contradiction
  case finite => exact ⟨0, by rw [absent]⟩
  case reads =>
    intro i now member
    rw [idle] at member
    contradiction
  case written => simp [none]
  case wrote => exact fun i now existing looked => absurd looked (unlooked _ _ _)
  case found => exact fun n f m looked => absurd looked (unlooked _ _ _)
  case punctual =>
    intro n latest
    refine ⟨fun _ => ?_, fun now begun => absurd begun (unbegun n now), fun f reads =>
      absurd reads (unread (idle _))⟩
    cases n with
    | zero => exact ⟨_, rfl, .inl rfl⟩
    | succ n => exact absurd (by rw [absent]) (latest.1.resolve_left (Nat.succ_ne_zero n))
  case timely =>
    exact fun n => ⟨fun some => absurd (past _) some, fun now begun => absurd begun (unbegun n now),
      fun f reads => absurd reads (unread (idle _))⟩

/-- When the workflows, tasks and approvals were created. -/
def created (db : Db) : List Time :=
  db.workflows.entries.map (fun e => e.row.createdAt) ++
    db.tasks.entries.map (fun e => e.row.createdAt) ++
    db.approvals.entries.map fun e => e.row.createdAt

/-- No scheduled run is under way: each that has read the clock has returned. -/
def Settled (c : OfficePool) : Prop := ∀ n f, Reads c n f → ∃ h j, c.threads (pass n) =
      .active h (.done (.ok (.ran (.ok j))))

/-- A run that read the clock at `stop` has written the summary of the 24 hours before. -/
def Written (c : OfficePool) (stop : Time) : Prop :=
  Made c stop ∧ ∃ m ∈ summaries c.world.world.db, Ends m stop

/-- The period of a summary. -/
def Covers (stop t : Time) : Prop := stop - day ≤ t ∧ t < stop

/-- The instant is before the period by less than a run may be late. -/
def Missed (late : Nat) (stop t : Time) : Prop := stop - day - late ≤ t ∧ t < stop - day

/-- The first scheduled run to read the clock after the instant found the summary of its date
written, whose period is over at the instant, or lies past the run's own reading. -/
def Preempts (c : OfficePool) (stop t : Time) : Prop :=
  ∃ n f, Reads c n f ∧ t < f ∧ (∀ m < n, ∀ g, Reads c m g → g ≤ t) ∧ dateOf stop =
    dateOf f ∧ (stop ≤ t ∨ f < stop)

theorem Ends.dated {m : Nat × Memory} {stop : Time} (ends : Ends m stop) :
    Dated (dateOf stop) m.2 := by
  obtain ⟨stats, same⟩ := ends
  unfold Dated
  rw [same]
  unfold summaryMeta
  generalize dateOf stop = today
  rfl

/-- What ends within a day of an instant covers it, but for what it is late. -/
theorem covers_or_missed {stop : Time} (before : t < stop) (within : stop ≤ t + day + late) :
    Covers stop t ∨ Missed late stop t := by
  unfold Covers Missed Time at *
  omega

/-- A turn fires within a day of its anchor. -/
theorem Tiled.fires (tiled : Tiled hour late since c) (anchored : ∀ a, Anchor since c n a → a ≤ t)
    (begun : Begun (c.threads (pass n)).past now) (fires : nextFire hour now = .ok fire) :
    fire ≤ t + day := by
  obtain ⟨a, anchor, short⟩ := (tiled.timely n).sleeps now begun
  exact Int.le_trans (short.fires fires) (Int.add_le_add_right (anchored a anchor) _)

/-- While no run has read the clock after an instant, the clock itself is within a day of it, or
late. -/
theorem Tiled.near (tiled : Tiled hour late since c) (after : since ≤ t)
    (none : ∀ n f, Reads c n f → f ≤ t) : c.world.world.clock ≤ t + day + late := by
  obtain ⟨n, latest⟩ := tiled.latest
  have punctual := tiled.punctual n latest
  have anchored (a : Time) (anchor : Anchor since c n a) : a ≤ t := by
    cases n with
    | zero => exact (show a = since from anchor) ▸ after
    | succ n => exact none n a anchor
  have near {a clock : Time} (short : Short hour a clock) (upto : a ≤ t) : clock ≤ t + day +
      late := by
    have within := short.within
    unfold Time at *
    omega
  by_cases begun : (c.threads (pass n)).past = []
  · obtain ⟨a, anchor, short⟩ := punctual.begins begun
    exact near short (anchored a anchor)
  · by_cases read : ∃ f, Reads c n f
    · obtain ⟨f, reads⟩ := read
      exact near (punctual.runs f reads) (none n f reads)
    · obtain ⟨now, begun⟩ := (tiled.timely n).first begun
      rcases punctual.sleeps now begun (not_exists.mp read) with same | ⟨fire, fires, upto⟩
      · obtain ⟨a, anchor, short⟩ := (tiled.timely n).sleeps now begun
        exact same ▸ near short (anchored a anchor)
      · have within := tiled.fires anchored begun fires
        unfold Time at *
        omega

/-- An instant before the end of a summary is covered, or left out because of a run that was late or
of a summary that was there. -/
theorem instant_covered (tiled : Tiled hour late since c) (settled : Settled c) (after : since ≤ t)
    {last : Time} (written : Written c last) (before : t < last) : ∃ stop, Written c stop ∧
    (Covers stop t ∨ Missed late stop t ∨ Preempts c stop t) := by
  by_cases later : ∃ n f, Reads c n f ∧ t < f
  · classical
    -- the first run that reads the clock after the instant
    obtain ⟨f, reads, ahead⟩ := Nat.find_spec later
    have earlier : ∀ m < Nat.find later, ∀ g, Reads c m g → g ≤ t := fun m below g other =>
      Int.not_lt.mp fun ahead => Nat.find_min later below ⟨g, other, ahead⟩
    generalize Nat.find later = n at reads earlier
    have anchored (a : Time) (anchor : Anchor since c n a) : a ≤ t := by
      cases n with
      | zero => exact (show a = since from anchor) ▸ after
      | succ n => exact earlier n (Nat.lt_succ_self n) a anchor
    obtain ⟨now, fire, begun, fires, upto⟩ := (tiled.timely n).runs f reads
    have near : f ≤ t + day + late := by
      have within := tiled.fires anchored begun fires
      unfold Time at *
      omega
    obtain ⟨h, j, returned⟩ := settled n f reads
    obtain ⟨-, f', existing, looked, left⟩ := tiled.obeys (pass n) _ _ returned j rfl
    have past : (c.threads (pass n)).past = h := by rw [returned]; rfl
    rw [← past] at looked left
    cases reads.unique (Looked.reads looked)
    rcases left with wrote | ⟨m, rfl, dated⟩
    · exact ⟨f, ⟨⟨pass n, existing, looked, asked_of_wrote wrote⟩,
        tiled.wrote (pass n) f existing looked wrote⟩,
        (covers_or_missed ahead near).imp_right .inl⟩
    · obtain ⟨member, found, ends, made⟩ := tiled.found n f m looked
      refine ⟨found, ⟨made, m, member, ends⟩, ?_⟩
      have same : dateOf found = dateOf f :=
        Json.str.inj (Except.ok.inj (ends.dated.symm.trans dated))
      by_cases outside : found ≤ t ∨ f < found
      · exact .inr (.inr ⟨n, f, reads, ahead, earlier, same, outside⟩)
      · obtain ⟨ends, upto⟩ := not_or.mp outside
        exact (covers_or_missed (Int.not_le.mp ends)
          (Int.le_trans (Int.not_lt.mp upto) near)).imp_right .inl
  · have none : ∀ n f, Reads c n f → f ≤ t := fun n f reads => Int.not_lt.mp fun ahead =>
      later ⟨n, f, reads, ahead⟩
    have near := Int.le_trans (tiled.made_reached written.1) (tiled.near after none)
    exact ⟨last, written, (covers_or_missed before near).imp_right .inl⟩

/-- The summaries leave no gaps but these: with a scheduler that is on time, or late by so much at
most, each row that was created before the end of a summary lies in the period of one, or is missed
by one because of a late run, or the first scheduled run after it found the summary of its date
written. -/
theorem periods_cover {start : OfficePool} (fresh : start.Fresh)
    (run : Transition.Run (Transition.Guarded (office logDir hour).Step
      (OnTime hour late start.world.world.clock)) start trace c)
    (settled : Settled c) :
    ∀ t ∈ created c.world.world.db, start.world.world.clock ≤ t →
    (∃ last, Written c last ∧ t < last) →
      ∃ stop, Written c stop ∧ (Covers stop t ∨ Missed late stop t ∨ Preempts c stop t) := by
  have tiled := run.invariant (P := Tiled hour late start.world.world.clock) (fun tiled taken =>
    tiled_step tiled taken.1 taken.2)
    (tiled_fresh fresh)
  rintro t - after ⟨last, written, before⟩
  exact instant_covered tiled settled after written before

/-! ### A summary at midnight -/

/-- A host at an instant. -/
def hostAt (clock : Time) (workflows : Table CallId Workflow) (memory : Table CallId Memory)
    (summaryFile : List String) : Host where
  world :=
    { World.initial with
    clock := clock
    db := { Db.empty with workflows := workflows, memory := memory } }
  watchers := ⟨none, none⟩
  summaryFile := summaryFile

/-- The statistics of a period in which nothing was counted. -/
def quietAt (stop : Time) : DailyStats :=
  { quietStats with
    periodStartUtc := Python.isoformat (stop - 86400 * second)
    periodEndUtc := Python.isoformat stop }

/-- What a run is left with that has written its summary. -/
def summaryRecord (stop : Time) (memoryId : Nat) : Json :=
  .obj [("ts", .str (Python.isoformat stop)), ("date", .str (dateOf stop)),
  ("memory_id", .int (Int.ofNat memoryId)), ("stats", (quietAt stop).toDict),
    ("summary", .str (formatSummary (quietAt stop) stop))]

/-- What a run awaits to write its summary. -/
def writeScript (stop : Time) (memoryId : Nat) : List (Interaction serviceCalls) :=
  [⟨.select (.periodCounts (stop - 86400 * second) stop), .ok nothingCounted⟩,
    ⟨.run (.redis (.llen .high)), .ok (0 : Nat)⟩, ⟨.run (.redis (.llen .normal)), .ok (0 : Nat)⟩,
    ⟨.run (.redis (.llen .failed)), .ok (0 : Nat)⟩, ⟨.run (.isFile "logs/wiseorder.jsonl"),
      .ok false⟩,
    ⟨.run (.session (.addMemory "daily_summary" (formatSummary (quietAt stop) stop)
      (summaryMeta stop (quietAt stop)))), .ok memoryId⟩,
    ⟨.makeLogDir, .ok ()⟩, ⟨.appendSummary ((summaryRecord stop memoryId).dumps ++ "\n"), .ok ()⟩]

theorem plays_write (i : CallId) (stop : Time) (workflows : Table CallId Workflow)
    (memory : Table CallId Memory) (file : List String)
    (counts : (Query.periodCounts (stop - 86400 * second) stop).run
      (hostAt stop workflows memory file).world.db = .ok nothingCounted) :
    ∃ j file', Plays (fun c h r h' => h.perform i c r h')
    (runDailySummary.write "logs" stop (dateOf stop)) (hostAt stop workflows memory file)
      (writeScript stop memory.next) (.done (.ok j))
      (hostAt stop workflows (memory.insert i (newSummary stop stop (quietAt stop))) file') := by
  have length (queue : QueueName) : (hostAt stop workflows memory file).perform i
    (.run (.redis (.llen queue))) (.ok (0 : Nat))
      (hostAt stop workflows memory file) := ⟨_, ⟨_, rfl, rfl⟩, rfl⟩
  unfold writeScript summaryRecord summaryMeta newSummary summaryMeta
  generalize dateOf stop = today
  exact ⟨_, _, .call
    ⟨counts, rfl⟩ (.call (length .high) (.call (length .normal) (.call (length .failed)
    (.call ⟨_, rfl, rfl⟩ (.call ⟨_, ⟨_, rfl, rfl⟩, rfl⟩ (.call rfl (.call rfl (.stop _ _))))))))⟩

section
variable {workflows : Table CallId Workflow} {memory : Table CallId Memory} {file : List String}
    {m : Nat × Memory} {w w' : Host} {j : Json}

/-- A run that finds no summary writes one. -/
theorem plays_first (i : CallId)
    (latest : (summaries (hostAt now workflows memory file).world.db).getLast? = none)
    {script : List (Interaction serviceCalls)} {p : Service Json}
    (writes : Plays (fun c h r h' => h.perform i c r h')
      (runDailySummary.write "logs" now (dateOf now))
    (hostAt now workflows memory file) script p w) :
    Plays (fun c h r h' => h.perform i c r h') (runDailySummary "logs")
    (hostAt now workflows memory file)
      (⟨.run .now, .ok now⟩ :: ⟨.select (.latestMemory "daily_summary"), .ok none⟩ :: script) p w :=
  .call ⟨_, ⟨rfl, rfl⟩, rfl⟩ (.call ⟨congrArg Except.ok latest, rfl⟩ writes)

/-- A run that finds the summary of its date. -/
theorem plays_skip (i : CallId)
    (latest : (summaries (hostAt now workflows memory file).world.db).getLast? = some m)
    (dated : Dated (dateOf now) m.2) :
    Plays (fun c h r h' => h.perform i c r h') (runDailySummary "logs")
    (hostAt now workflows memory file)
      [⟨.run .now, .ok now⟩, ⟨.select (.latestMemory "daily_summary"), .ok (some m)⟩]
      (.done (.ok (skipped m.1 (dateOf now))))
      (hostAt now workflows memory file) := by
  refine .call ⟨_, ⟨rfl, rfl⟩, rfl⟩ (.call ⟨congrArg Except.ok latest, rfl⟩ ?_)
  unfold Dated at dated
  generalize dateOf now = today at dated ⊢
  change Plays _ ((Program.ofExcept (dateField m.2.metadata) : Service Json) >>= _) _ _ _ _
  rw [dated]
  change Plays _ (if today = today then _ else _) _ _ _ _
  rw [if_pos rfl]
  exact .stop _ _

/-- A run that finds the summary of another date writes one. -/
theorem plays_other (i : CallId)
    (latest : (summaries (hostAt now workflows memory file).world.db).getLast? = some m)
    (dated : Dated date m.2) (other : date ≠ dateOf now) {script : List (Interaction serviceCalls)}
    {p : Service Json}
    (writes : Plays (fun c h r h' => h.perform i c r h')
      (runDailySummary.write "logs" now (dateOf now))
    (hostAt now workflows memory file) script p w) :
    Plays (fun c h r h' => h.perform i c r h') (runDailySummary "logs")
    (hostAt now workflows memory file)
      (⟨.run .now, .ok now⟩ :: ⟨.select (.latestMemory "daily_summary"), .ok (some m)⟩ ::
        script) p w := by
  refine .call ⟨_, ⟨rfl, rfl⟩, rfl⟩ (.call ⟨congrArg Except.ok latest, rfl⟩ ?_)
  unfold Dated at dated
  generalize dateOf now = today at other writes ⊢
  change Plays _ ((Program.ofExcept (dateField m.2.metadata) : Service Json) >>= _) _ _ _ _
  rw [dated]
  change Plays _ (if date = today then _ else _) _ _ _ _
  rwa [if_neg other]

/-- A run of the summary, as its thread makes it. -/
def officeScript (script : List (Interaction serviceCalls)) : OfficeHistory :=
  script.map fun x => ⟨.service x.call, x.reply⟩

theorem officeScript_services (script : List (Interaction serviceCalls)) :
    (officeScript script).filterMap service? = script := by
  rw [officeScript, List.filterMap_map]
  exact List.filterMap_some

theorem plays_service (i : CallId) {script : List (Interaction serviceCalls)} {p p' : Service Json}
    (plays : Plays (fun c h r h' => h.perform i c r h') p w script p' w') :
    Plays (fun c h r h' => performOffice i c h r h') (Office.service p) w (officeScript script)
    (Office.service p') w' := by
  induction plays with
  | stop p w => exact .stop _ _
  | call performed rest ih => exact .call performed ih

theorem plays_request (i : CallId) {script : List (Interaction serviceCalls)}
    (plays : Plays (fun c h r h' => h.perform i c r h') (runDailySummary "logs") w
      script (.done (.ok j)) w') :
    Plays (fun c h r h' => performOffice i c h r h') (runSummaryNow "logs") w (officeScript script)
    (.done (.ok (.summary j))) w' :=
  (plays_service i plays).andThen _

/-- A turn reads the clock and sleeps; once it wakes up, it goes through a run. -/
theorem plays_turn (i : CallId) (reads : w.world.clock = now)
    (fires : nextFire hour now = .ok fire) :
    ∃ onReply, Plays (fun c h r h' => performOffice i c h r h') (schedulePass "logs" hour) w
    [⟨.service (.run .now), .ok now⟩]
      (.await (.sleep (fire - now)) onReply) w ∧
    ∀ script j w w', Plays (fun c h r h' => h.perform i c r h') (runDailySummary "logs") w script
    (.done (.ok j)) w' →
      Plays (fun c h r h' => performOffice i c h r h') (onReply (.ok ())) w (officeScript script)
      (.done (.ok (.ran (.ok j)))) w' := by
  refine ⟨?_, ?_, ?_⟩
  rotate_left
  · refine .call ⟨_, ⟨reads.symm, rfl⟩, rfl⟩ ?_
    change Plays _ ((Program.ofExcept (nextFire hour now) : Office Time) >>= _) _ _ _ _
    rw [fires]
    exact .stop _ _
  · intro script j w w' plays
    exact ((plays_service i plays).andThen _).andThen _

end

section
variable {condition : OfficePool → OfficeEvent → OfficePool → Prop} {start : OfficePool}
    {past : List OfficeEvent} {w w' : Host}
  {threads : CallId → Thread officeCalls Outcome} {p p' : Office Outcome} {seen : OfficeHistory}

theorem office_entry
    (earlier : Transition.Run (Transition.Guarded (office logDir hour).Step condition) start past
      ⟨w, threads⟩)
    (i : CallId) (script : OfficeHistory) (unused : threads i = .absent)
    (entry : (office logDir hour).spawn ⟨w, threads⟩ i p)
    (plays : Plays (fun c h r h' => performOffice i c h r h') p w script p' w')
    (starts : ∀ c', condition ⟨w, threads⟩ (.spawn i p) c')
    (admitted : ∀ c x before c', x ∈ script → condition c (.call i x before) c') : ∃ trace,
      Transition.Run (Transition.Guarded (office logDir hour).Step condition) start trace ⟨w',
        Function.update threads i (.active script p')⟩ := by
  obtain ⟨events, -, run⟩ := Machine.run_spawned earlier unused entry plays starts admitted
  exact ⟨_, run⟩

theorem office_on
    (earlier : Transition.Run (Transition.Guarded (office logDir hour).Step condition) start past
      ⟨w, threads⟩)
    (i : CallId) (script : OfficeHistory) (active : threads i = .active seen p)
    (plays : Plays (fun c h r h' => performOffice i c h r h') p w script p' w')
    (admitted : ∀ c x before c', x ∈ script → condition c (.call i x before) c') : ∃ trace,
      Transition.Run (Transition.Guarded (office logDir hour).Step condition) start trace
        ⟨w', Function.update threads i (.active (seen ++ script) p')⟩ := by
  obtain ⟨events, -, run⟩ := Machine.run_plays earlier active plays admitted
  exact ⟨_, run⟩

end

section
variable {condition : OfficePool → OfficeEvent → OfficePool → Prop} {start : OfficePool}
    {past : List OfficeEvent} {w w' : Host}
  {threads : CallId → Thread officeCalls Outcome} {seen : OfficeHistory}

theorem office_call
    (earlier : Transition.Run (Transition.Guarded (office logDir hour).Step condition) start past
      ⟨w, threads⟩)
    (i : CallId) (x : Interaction officeCalls)
    {onReply : Except PyException (officeCalls.Reply x.call) → Office Outcome}
    (active : threads i = .active seen (.await x.call onReply))
    (performed : performOffice i x.call w x.reply w')
    (admitted : ∀ c', condition ⟨w, threads⟩ (.call i x w) c') :
    Transition.Run (Transition.Guarded (office logDir hour).Step condition) start
    (past ++ [.call i x w])
      ⟨w', Function.update threads i (.active (seen ++ [x]) (onReply x.reply))⟩ :=
  earlier.next ⟨.call active performed, admitted _⟩

theorem office_idles
    (earlier : Transition.Run (Transition.Guarded (office logDir hour).Step condition) start
      past ⟨w, threads⟩) (w' : Host)
    (passes : Elsewhere w w') (admitted : condition ⟨w, threads⟩ .drift ⟨w', threads⟩) :
    Transition.Run (Transition.Guarded (office logDir hour).Step condition) start
    (past ++ [.drift]) ⟨w', threads⟩ :=
  earlier.next ⟨.drift passes, admitted⟩

end

theorem onTime_call {before : Host} : OnTime hour late since c (.call i x before) c' :=
  ⟨fun same => (by cases same), fun n p same => (by cases same)⟩

theorem onTime_spawn {p : Office Outcome}
    (quiet : ∀ n, i = pass (n + 1) → ∀ h error, c.threads (pass n) ≠
      .active h (.done (.ok (.ran (.error error))))) :
    OnTime hour late since c (.spawn i p) c' := by
  refine ⟨fun same => (by cases same), fun n q same => ?_⟩
  cases same
  exact quiet n rfl

/-- Time passes while the latest turn sleeps. -/
theorem onTime_waits {w : Host} {threads : CallId → Thread officeCalls Outcome}
    {rest : Office Outcome} (latest : Latest ⟨w, threads⟩ n)
    (asleep : threads (pass n) = .active [⟨.service (.run .now), .ok now⟩] rest)
    (fires : nextFire hour now = .ok fire) (upto : c'.world.world.clock ≤ fire) :
    OnTime hour late since ⟨w, threads⟩ .drift c' := by
  have past : (threads (pass n)).past = [⟨.service (.run .now), .ok now⟩] := by
    rw [asleep]
    rfl
  have runs : runOf ⟨w, threads⟩ (pass n) = [] := by
    change runPart (pass n) (threads (pass n)).past = []
    rw [past]
    simp [runPart, pass]
  refine ⟨fun _ _ => ⟨n, latest, .inr (.inl ⟨now, fire, ⟨[], past⟩, fun f => unread runs, fires,
    ?_⟩)⟩, fun n q same => (by cases same)⟩
  exact Int.le_trans upto (Int.le_add_of_nonneg_right (Int.natCast_nonneg late))

/-- Nine in the morning of that day, and of the next one; and a workflow of the night between. -/
def morning : Time := midnight + 32400 * second

def nextMorning : Time := morning + day

def night : Table CallId Workflow := Table.empty.insert ⟨1, 2, .pipeline⟩
  (Transaction.newWorkflow (midnight + 10800 * second) "commit_pipeline" ["summarize",
    "draft_social", "save", "request_approval"] [])

theorem counts_midnight : (Query.periodCounts (midnight - 86400 * second) midnight).run
    (hostAt midnight .empty .empty []).world.db = .ok nothingCounted :=
  counts_empty

theorem counts_night {memory : Table CallId Memory} {file : List String} :
    (Query.periodCounts (nextMorning - 86400 * second) nextMorning).run
    (hostAt nextMorning night memory file).world.db = .ok nothingCounted := by
  have none : Query.within (nextMorning - 86400 * second) nextMorning Workflow.createdAt
    (Query.rows night) = [] := rfl
  simp only [Query.run, hostAt, none]
  simp [Query.within, Query.rows, countBy, nothingCounted, Db.empty, Table.empty]

/-- The row of the summary at midnight. -/
def noted : Table CallId Memory :=
  Table.empty.insert ⟨1, 1, .visitor⟩ (newSummary midnight midnight (quietAt midnight))

/-- What is left when a summary at midnight was followed by the scheduled ones of two mornings. -/
structure Gap (c : OfficePool) : Prop where
  rows : created c.world.world.db = [midnight + 10800 * second]
  kept : summaries c.world.world.db = [(1, newSummary midnight midnight (quietAt midnight)),
    (2, newSummary nextMorning nextMorning (quietAt nextMorning))]
  request : ∃ j, c.threads ⟨1, 1, .visitor⟩ = .active (officeScript (⟨.run .now, .ok midnight⟩ ::
    ⟨.select (.latestMemory "daily_summary"), .ok none⟩ ::
      writeScript midnight 1)) (.done (.ok (.summary j)))
  first : ∃ m j, c.threads (pass 0) = .active (⟨.service (.run .now), .ok midnight⟩ ::
    ⟨.sleep (morning - midnight), .ok ()⟩ ::
    officeScript [⟨.run .now, .ok morning⟩, ⟨.select (.latestMemory "daily_summary"), .ok m⟩])
      (.done (.ok (.ran (.ok j))))
  second : ∃ m j, c.threads (pass 1) = .active (⟨.service (.run .now), .ok morning⟩ ::
    ⟨.sleep (nextMorning - morning), .ok ()⟩ ::
    officeScript (⟨.run .now, .ok nextMorning⟩ :: ⟨.select (.latestMemory "daily_summary"),
      .ok m⟩ :: writeScript nextMorning 2))
      (.done (.ok (.ran (.ok j))))
  others : ∀ i, i ≠ ⟨1, 1, .visitor⟩ → i ≠ pass 0 → i ≠ pass 1 → c.threads i = .absent

def quietOffice : OfficePool := ⟨hostAt midnight .empty .empty [], fun _ => .absent⟩

theorem run_gap : ∃ trace c,
    Transition.Run (Transition.Guarded (office "logs" 9).Step (OnTime 9 0 midnight))
    quietOffice trace c ∧ Gap c := by
  have idle : Transition.Run (Transition.Guarded (office "logs" 9).Step (OnTime 9 0 midnight))
    quietOffice [] quietOffice := .refl _
  obtain ⟨j, file, writes⟩ := plays_write ⟨1, 1, .visitor⟩ midnight .empty .empty [] counts_midnight
  obtain ⟨_, requested⟩ :=
    office_entry idle ⟨1, 1, .visitor⟩ _ rfl (.inl ⟨rfl, rfl⟩)
    (plays_request _ (plays_first _ rfl writes))
    (fun _ => onTime_spawn fun n same => (by cases same)) (fun _ _ _ _ _ => onTime_call)
  have fires : nextFire 9 midnight = .ok morning := by decide
  obtain ⟨woken, reads, wakes⟩ :=
    plays_turn (w := hostAt midnight .empty noted file) (pass 0) rfl fires
  obtain ⟨_, asleep⟩ := office_entry requested (pass 0) _ rfl (.inr ⟨0, rfl, .inl rfl, rfl⟩) reads
    (fun _ => onTime_spawn fun n same => (by cases same)) (fun _ _ _ _ _ => onTime_call)
  have dark := office_idles asleep (hostAt (midnight + 10800 * second) night noted file)
    ⟨(by decide : midnight ≤ midnight + 10800 * second), rfl⟩
    (onTime_waits ⟨.inr (by simp), rfl⟩ (Function.update_self ..) fires
      (by decide : midnight + 10800 * second ≤ morning))
  have dawn := office_idles dark (hostAt morning night noted file)
    ⟨(by decide : midnight + 10800 * second ≤ morning), rfl⟩
    (onTime_waits ⟨.inr (by simp), rfl⟩ (Function.update_self ..) fires
      (by decide : morning ≤ morning))
  have woke := office_call dawn (pass 0) ⟨.sleep (morning - midnight),
    .ok ()⟩ (Function.update_self ..) rfl
    fun _ => onTime_call
  have today : Dated (dateOf morning) (newSummary midnight midnight (quietAt midnight)) := by
    rw [show dateOf morning = dateOf midnight by decide]
    exact newSummary_dated _ _ _
  have found (clock : Time) : (summaries (hostAt clock night noted file).world.db).getLast? =
    some (1, newSummary midnight midnight (quietAt midnight)) := rfl
  obtain ⟨_, skips⟩ := office_on woke (pass 0) _ (Function.update_self ..)
    (wakes _ _ _ _ (plays_skip (pass 0) (found _) today))
    (fun _ _ _ _ _ => onTime_call)
  have fires' : nextFire 9 morning = .ok nextMorning := by decide
  obtain ⟨woken', reads', wakes'⟩ :=
    plays_turn (w := hostAt morning night noted file) (pass 1) rfl fires'
  obtain ⟨_, again⟩ := office_entry skips (pass 1) _ rfl (.inr ⟨1, rfl, .inr ⟨0, _, _, rfl, rfl⟩,
    rfl⟩) reads'
    (fun _ => onTime_spawn fun n same h error => by
      cases same
      simp [pass]) (fun _ _ _ _ _ => onTime_call)
  have tomorrow := office_idles again (hostAt nextMorning night noted file)
    ⟨(by decide : morning ≤ nextMorning), rfl⟩
    (onTime_waits ⟨.inr (by simp), rfl⟩ (Function.update_self ..) fires'
      (by decide : nextMorning ≤ nextMorning))
  have woke' := office_call tomorrow (pass 1) ⟨.sleep (nextMorning - morning),
    .ok ()⟩ (Function.update_self ..) rfl
    fun _ => onTime_call
  obtain ⟨j', file', writes'⟩ := plays_write (pass 1) nextMorning night noted file counts_night
  obtain ⟨_, done⟩ := office_on woke' (pass 1) _ (Function.update_self ..)
    (wakes' _ _ _ _ (plays_other (pass 1) (found _) (newSummary_dated _ _ _) (by decide) writes'))
    (fun _ _ _ _ _ => onTime_call)
  refine ⟨_, _, done, rfl, rfl, ⟨j, rfl⟩,
    ⟨some (1, newSummary midnight midnight (quietAt midnight)), _, rfl⟩,
    ⟨some (1, newSummary midnight midnight (quietAt midnight)), j', rfl⟩,
      fun i other first second => ?_⟩
  simp [Function.update_of_ne other, Function.update_of_ne first, Function.update_of_ne second]

section
variable {c : OfficePool}

theorem Gap.request_run (gap : Gap c) : runOf c ⟨1, 1, .visitor⟩ =
    ⟨.run .now, .ok midnight⟩ :: ⟨.select (.latestMemory "daily_summary"), .ok none⟩ ::
      writeScript midnight 1 := by
  obtain ⟨j, active⟩ := gap.request
  rw [runOf, active]
  exact officeScript_services _

theorem Gap.first_run (gap : Gap c) : ∃ m, runOf c (pass 0) =
    [⟨.run .now, .ok morning⟩, ⟨.select (.latestMemory "daily_summary"), .ok m⟩] := by
  obtain ⟨m, j, active⟩ := gap.first
  refine ⟨m, ?_⟩
  rw [runOf, active]
  exact officeScript_services _

theorem Gap.second_run (gap : Gap c) : ∃ m, runOf c (pass 1) =
    ⟨.run .now, .ok nextMorning⟩ :: ⟨.select (.latestMemory "daily_summary"), .ok m⟩ ::
      writeScript nextMorning 2 := by
  obtain ⟨m, j, active⟩ := gap.second
  refine ⟨m, ?_⟩
  rw [runOf, active]
  exact officeScript_services _

theorem wrote_script {stop : Time} {memoryId : Nat} {x y : Interaction serviceCalls} :
    Wrote (x :: y :: writeScript stop memoryId) :=
  ⟨.addMemory "daily_summary" (formatSummary (quietAt stop) stop) (summaryMeta stop (quietAt stop)),
    memoryId, by simp [writeScript]⟩

theorem Gap.settled (gap : Gap c) : Settled c := by
  intro n f reads
  by_cases zero : n = 0
  · obtain ⟨m, j, active⟩ := gap.first
    exact ⟨_, j, zero ▸ active⟩
  · by_cases one : n = 1
    · obtain ⟨m, j, active⟩ := gap.second
      exact ⟨_, j, one ▸ active⟩
    · have absent := gap.others (pass n) (by simp [pass])
        (by simp [pass, zero]) (by simp [pass, one])
      exact absurd reads (unread (runOf_nil (by rw [absent]; rfl)))

/-- There are two summaries, of the 24 hours before midnight and before the second morning. -/
theorem Gap.made (gap : Gap c) {stop : Time} (made : Made c stop) :
    stop = midnight ∨ stop = nextMorning := by
  obtain ⟨i, existing, looked, wrote⟩ := made
  by_cases request : i = ⟨1, 1, .visitor⟩
  · rw [request, gap.request_run] at looked
    exact .inl (looked.unique ⟨_, rfl⟩).1
  · by_cases first : i = pass 0
    · obtain ⟨m, run⟩ := gap.first_run
      rw [first, run] at wrote
      obtain ⟨t, told, member⟩ := wrote
      rcases List.mem_cons.mp member with same | member
      · cases congrArg Interaction.call same
      · cases congrArg Interaction.call (List.mem_singleton.mp member)
    · by_cases second : i = pass 1
      · obtain ⟨m, run⟩ := gap.second_run
        rw [second, run] at looked
        exact .inr (looked.unique ⟨_, rfl⟩).1
      · exact absurd (runOf_nil (by rw [gap.others i request first second]; rfl)) looked.some

theorem Gap.written_midnight (gap : Gap c) : Written c midnight := by
  refine ⟨⟨⟨1, 1, .visitor⟩, none, ?_, ?_⟩, (1, newSummary midnight midnight (quietAt midnight)),
    ?_, quietAt midnight, rfl⟩
  · rw [gap.request_run]
    exact ⟨_, rfl⟩
  · rw [gap.request_run]
    exact asked_of_wrote wrote_script
  · rw [gap.kept]
    exact List.mem_cons_self

theorem Gap.written_morning (gap : Gap c) : Written c nextMorning := by
  obtain ⟨m, run⟩ := gap.second_run
  refine ⟨⟨pass 1, m, ?_, ?_⟩, (2, newSummary nextMorning nextMorning (quietAt nextMorning)),
    ?_, quietAt nextMorning, rfl⟩
  · rw [run]
    exact ⟨_, rfl⟩
  · rw [run]
    exact asked_of_wrote wrote_script
  · rw [gap.kept]
    exact List.mem_cons_of_mem _ List.mem_cons_self

end

/-- A workflow of the night after a summary at midnight is in no period: the scheduled run of that
morning is skipped. -/
theorem periods_gap : ∃ trace c,
    Transition.Run (Transition.Guarded (office "logs" 9).Step (OnTime 9 0 midnight))
    quietOffice trace c ∧ quietOffice.Fresh ∧ Settled c ∧ ∃ t ∈ created c.world.world.db,
    ∃ first last, Written c first ∧ first ≤ t ∧ Written c last ∧ t < last ∧
      ∀ stop, Written c stop → ¬ Covers stop t := by
  obtain ⟨trace, c, run, gap⟩ := run_gap
  refine ⟨trace, c, run, ⟨rfl, rfl⟩, gap.settled, midnight + 10800 *
    second, by rw [gap.rows]; exact List.mem_singleton.mpr rfl,
    midnight, nextMorning,
      gap.written_midnight, by decide, gap.written_morning, by decide,
      fun stop written covers => ?_⟩
  rcases gap.made written.1 with rfl | rfl
  · exact absurd covers.2 (by decide)
  · exact absurd covers.1 (by decide)

/-- That workflow lies between the summary and the run of that morning. -/
theorem periods_cover_night :
    ∃ trace c, Transition.Run
    (Transition.Guarded (office "logs" 9).Step (OnTime 9 0 midnight)) quietOffice trace c ∧
    created c.world.world.db = [midnight + 10800 * second] ∧
      ∃ stop, Written c stop ∧ (Covers stop (midnight + 10800 * second) ∨
        Missed 0 stop (midnight + 10800 * second) ∨
        Preempts c stop (midnight + 10800 * second)) := by
  obtain ⟨trace, c, run, gap⟩ := run_gap
  have onTime : Transition.Run (Transition.Guarded (office "logs" 9).Step
      (OnTime 9 0 quietOffice.world.world.clock)) quietOffice trace c :=
    run
  refine ⟨trace, c, run, gap.rows, periods_cover ⟨rfl, rfl⟩ onTime gap.settled _
    (by rw [gap.rows]; exact List.mem_singleton.mpr rfl) ?_
    ⟨nextMorning, gap.written_morning, ?_⟩⟩
  · exact (by decide : midnight ≤ midnight + 10800 * second)
  · exact (by decide : midnight + 10800 * second < nextMorning)

end WiseOrder.SummarySchedule
