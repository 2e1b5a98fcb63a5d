import WiseOrder.Workflows.AllClear

/-! A run of the daily summary. It reads the clock, looks for the latest summary, and
writes one of the 24 hours before unless what it found is of its date. -/
namespace WiseOrder.DailySummary
open Coroutine Coroutine.Program Relational
variable {logDir : String} {now start stop : Time} {existing : Option (Nat × Memory)}
    {h : List (Interaction serviceCalls)}

/-! ### One run -/

/-- The summaries that are kept, in the order of their ids. -/
def summaries (db : Db) : Rows Memory := (Query.rows db.memory).filter fun m =>
      m.2.category = "daily_summary"

/-- A summary that says it is of a date. -/
def Dated (date : String) (m : Memory) : Prop := dateField m.metadata = .ok (.str date)

/-- What a run returns that finds the summary of its date. -/
def skipped (memoryId : Nat) (date : String) : Json :=
  .obj [("skipped", .bool true), ("reason", .str "already_ran_today"), ("memory_id", .int memoryId),
    ("date", .str date)]

/-- The run has read the clock, and looked for the latest summary. -/
def Looked (h : List (Interaction serviceCalls)) (now : Time) (existing : Option (Nat × Memory)) :
    Prop :=
  ∃ more, h = ⟨.run .now, .ok now⟩ :: ⟨.select (.latestMemory "daily_summary"), .ok existing⟩ ::
    more

/-- What it looked at is not the summary of its date. -/
def Missing (now : Time) (existing : Option (Nat × Memory)) : Prop :=
  ∀ m, existing = some m → ¬ Dated (dateOf now) m.2

def Writes : ServiceCall → Prop
  | .run (.session _) => True
  | _ => False

def Unwritten (h : List (Interaction serviceCalls)) : Prop := ∀ x ∈ h, ¬ Writes x.call

/-- The run has committed a summary. -/
def Wrote (h : List (Interaction serviceCalls)) : Prop :=
  ∃ (t : Transaction) (x : t.Reply), (⟨.run (.session t), .ok x⟩ : Interaction serviceCalls) ∈ h

/-- What a run may call: one look at the clock, one at the latest summary, and one summary to write
if it was missing. -/
def runAllowed (h : List (Interaction serviceCalls)) (c : ServiceCall) : Prop :=
  match c with
  | .run .now => h = []
  | .select (.latestMemory category) =>
      category = "daily_summary" ∧ ∃ now, h = [⟨.run .now, .ok now⟩]
  | .run (.session t) =>
      Unwritten h ∧ ∃ now existing stats, Looked h now existing ∧ Missing now existing ∧
      t = .addMemory "daily_summary" (formatSummary stats now) (summaryMeta now stats)
  | .select (.periodCounts ..) | .run (.redis (.llen _)) | .run (.isFile _) | .readLogTail _
      | .makeLogDir | .appendSummary _ => True
  | _ => False

def runProtocol : Protocol serviceCalls Unit := ⟨fun h c _ => runAllowed h c, fun _ _ _ _ => True⟩

/-- A run that returns has written a summary, or returns the one that it found. -/
def runEnds : Post serviceCalls Unit Json :=
  ending (fun j h _ => ∃ now existing, Looked h now existing ∧
    (Wrote h ∨ ∃ m, existing = some m ∧ Dated (dateOf now) m.2 ∧
      j = skipped m.1 (dateOf now))) fun _ _ _ => True

theorem Looked.grows {more : List (Interaction serviceCalls)} (looked : Looked h now existing) :
    Looked (h ++ more) now existing := by
  obtain ⟨rest, rfl⟩ := looked
  exact ⟨rest ++ more, rfl⟩

theorem Looked.some (looked : Looked h now existing) : h ≠ [] := by
  obtain ⟨more, rfl⟩ := looked
  exact List.cons_ne_nil _ _

theorem Looked.unique {now' : Time} {existing' : Option (Nat × Memory)}
    (looked : Looked h now existing) (again : Looked h now' existing') :
    now = now' ∧ existing = existing' := by
  obtain ⟨more, rfl⟩ := looked
  obtain ⟨more', same⟩ := again
  simp only [List.cons.injEq, Interaction.mk.injEq, heq_eq_eq, true_and] at same
  exact ⟨Except.ok.inj same.1, Except.ok.inj same.2.1⟩

/-- A run that has looked after a call had looked before it, or looks by it. -/
theorem Looked.of_snoc {x : Interaction serviceCalls} (looked : Looked (h ++ [x]) now existing) :
    Looked h now existing ∨ h = [⟨.run .now, .ok now⟩] ∧
    x = ⟨.select (.latestMemory "daily_summary"), .ok existing⟩ := by
  obtain ⟨more, same⟩ := looked
  match h, same with
  | [], same => simp at same
  | [first], same =>
      simp only [List.cons_append, List.nil_append, List.cons.injEq] at same
      exact .inr ⟨by rw [same.1], same.2.1⟩
  | first :: second :: rest, same =>
      simp only [List.cons_append, List.cons.injEq] at same
      obtain ⟨rfl, rfl, -⟩ := same
      exact .inl ⟨rest, rfl⟩

/-- What the statistics are gathered with. -/
def Gathers : ServiceCall → Prop
  | .select (.periodCounts ..) | .run (.redis (.llen _)) | .run (.isFile _) | .readLogTail _ => True
  | _ => False

theorem gathers_allowed (h : List (Interaction serviceCalls)) (c : ServiceCall)
    (gathers : Gathers c) : runAllowed h c := by
  unfold Gathers at gathers
  split at gathers <;> trivial

theorem gathers_unwritten {c : ServiceCall} (gathers : Gathers c) : ¬ Writes c := by
  unfold Gathers at gathers
  split at gathers
  · exact id
  · exact id
  · exact id
  · exact id
  · exact gathers.elim

theorem gathers_gatherStats : (gatherStats logDir start stop).Within Gathers := by
  have lines : (countRecentErrorLines logDir).Within Gathers := by
    refine within_bind (within_call trivial) fun file => within_ite (fun _ => ?_) fun _ => trivial
    exact within_catching (within_bind (within_call trivial) fun _ => trivial) fun _ => trivial
  refine within_bind (within_call trivial) fun counts => within_bind ?_ fun depths =>
    within_bind lines fun _ => trivial
  refine within_bind ⟨trivial, fun _ => trivial⟩ fun high =>
    within_bind ⟨trivial, fun _ => trivial⟩ fun normal => ?_
  exact within_bind ⟨trivial, fun _ => trivial⟩ fun failed => trivial

/-- The statistics name the period that they are of. -/
theorem leads_gatherStats :
    (gatherStats logDir start stop).Leads (fun result _ => ∀ stats, result = .ok stats →
    stats.periodStartUtc = Python.isoformat start ∧ stats.periodEndUtc =
      Python.isoformat stop) h := by
  apply leads_call
  · exact fun e stats same => by contradiction
  · intro counts
    apply leads_bind leads_any
    · rintro ⟨high, normal, failed⟩ _ _
      apply leads_bind leads_any
      · intro lines _ _
        refine obeys_ret ?_
        intro stats same
        have same := Except.ok.inj same
        subst same
        exact ⟨rfl, rfl⟩
      · exact fun e _ _ stats same => by contradiction
    · exact fun e _ _ stats same => by contradiction

/-- What a run does with a summary that it has written. -/
def Trails : ServiceCall → Prop
  | .makeLogDir | .appendSummary _ => True
  | _ => False

theorem trails_allowed (h : List (Interaction serviceCalls)) (c : ServiceCall) (trails : Trails c) :
    runAllowed h c := by
  unfold Trails at trails
  split at trails <;> trivial

theorem Wrote.grows {more : List (Interaction serviceCalls)} (wrote : Wrote h) :
    Wrote (h ++ more) := by
  obtain ⟨t, x, member⟩ := wrote
  exact ⟨t, x, List.mem_append_left _ member⟩

theorem obeys_trailing {m : Service Json} (trails : m.Within Trails)
    (looked : Looked h now existing) (wrote : Wrote h) : m.Obeys runProtocol runEnds h () := by
  refine (trails.traced leads_any fun h c _ => trails_allowed h c).mono ?_
  rintro result _ _ ⟨-, more, rfl, -⟩
  cases result with
  | ok j => exact ⟨now, existing, looked.grows, .inl wrote.grows⟩
  | error e => trivial

/-- Once it has found its summary missing, a run writes it. -/
theorem obeys_runWrite (looked : Looked h now existing) (missing : Missing now existing)
    (unwritten : Unwritten h) :
    (runDailySummary.write logDir now (dateOf now)).Obeys runProtocol runEnds h () := by
  apply obeys_bind (gathers_gatherStats.traced leads_gatherStats fun h c _ => gathers_allowed h c)
  · rintro stats _ _ ⟨named, more, rfl, gathered⟩
    obtain ⟨started, ended⟩ := named stats rfl
    have still : Unwritten (h ++ more) := by
      intro x member
      rcases List.mem_append.mp member with old | new
      · exact unwritten x old
      · exact gathers_unwritten (gathered x new)
    refine ⟨⟨still, now, existing, stats, looked.grows, missing, ?_⟩, fun reply _ _ => ?_⟩
    · rw [summaryMeta, started, ended]
    · cases reply with
      | error e => trivial
      | ok memoryId =>
          have after : (do
              Service.await .makeLogDir
              let record : Json := .obj [("ts", .str (Python.isoformat now)),
                ("date", .str (dateOf now)), ("memory_id", .int (Int.ofNat memoryId)),
                ("stats", stats.toDict), ("summary", .str (formatSummary stats now))]
              Service.tryExcept (Service.await (.appendSummary (record.dumps ++ "\n"))) fun _ =>
                return ()
              return .obj [("memory_id", .int (Int.ofNat memoryId)), ("date", .str (dateOf now)),
                ("summary", .str (formatSummary stats now)),
                ("stats", stats.toDict)] : Service Json).Within Trails :=
            within_bind (within_call trivial) fun _ =>
              within_bind (within_catching (within_call trivial) fun _ => trivial) fun _ => trivial
          exact obeys_trailing after looked.grows.grows ⟨.addMemory _ _ _, memoryId,
            List.mem_append_right _ (List.mem_singleton.mpr rfl)⟩
  · exact fun e _ _ _ => trivial

theorem obeys_utcnowRun : (Service.run utcnow).Obeys runProtocol
    (ending (fun now h _ => h = [⟨.run .now, .ok now⟩]) fun _ _ _ => True) [] () := by
  refine ⟨rfl, fun reply _ _ => ?_⟩
  cases reply <;> trivial

theorem obeys_latest (read : h = [⟨.run .now, .ok now⟩]) :
    (Service.select (.latestMemory "daily_summary")).Obeys runProtocol
    (ending (fun existing h _ => Looked h now existing ∧ Unwritten h) fun _ _ _ => True) h () := by
  refine ⟨⟨rfl, now, read⟩, fun reply _ _ => ?_⟩
  cases reply with
  | error e => trivial
  | ok existing =>
      refine ⟨⟨[], by rw [read]; rfl⟩, fun x member => ?_⟩
      rw [read] at member
      rcases List.mem_append.mp member with first | second
      · cases List.mem_singleton.mp first
        exact id
      · cases List.mem_singleton.mp second
        exact id

theorem obeys_run : (runDailySummary logDir).Obeys runProtocol runEnds [] () := by
  apply obeys_bind obeys_utcnowRun
  · rintro now h _ read
    apply obeys_bind (obeys_latest read)
    · rintro existing h _ ⟨looked, unwritten⟩
      -- the text of the date is not to be computed
      have write : Missing now existing →
          (runDailySummary.write logDir now (dateOf now)).Obeys runProtocol runEnds h () :=
        fun missing => obeys_runWrite looked missing unwritten
      have skip (m : Nat × Memory) (found : existing = some m) (dated : Dated (dateOf now) m.2) :
          (pure (skipped m.1 (dateOf now)) : Service Json).Obeys runProtocol runEnds h () :=
        ⟨now, existing, looked, .inr ⟨m, found, dated, rfl⟩⟩
      unfold Missing at write
      generalize dateOf now = today at write skip ⊢
      cases existing with
      | none => exact write fun m found => by contradiction
      | some m =>
          have asked : (Program.ofExcept (dateField m.2.metadata) : Service Json).Obeys runProtocol
              (fun result later _ => result = dateField m.2.metadata ∧ later = h) h () := ⟨rfl, rfl⟩
          apply obeys_bind asked
          · rintro last _ _ ⟨field, rfl⟩
            have other (different : last ≠ .str today) : ∀ m', some m =
                some m' → ¬ Dated today m'.2 := by
              rintro _ ⟨⟩ dated
              exact different (Except.ok.inj (field.trans dated))
            cases last with
            | str date =>
                by_cases same : date = today
                · simp only [if_pos same]
                  exact skip m rfl (same ▸ field.symm)
                · simp only [if_neg same]
                  exact write (other fun wrong => same (Json.str.inj wrong))
            | _ => exact write (other (by simp))
          · exact fun _ _ _ _ => trivial
    · exact fun _ _ _ _ => trivial
  · exact fun _ _ _ _ => trivial

/-! ### The rows -/

section
variable {i : CallId} {m m' : Nat × Memory} {host host' : Host}

/-- The row that a run inserts. -/
def newSummary (clock now : Time) (stats : DailyStats) : Memory :=
  Transaction.newMemory clock "daily_summary" (formatSummary stats now) (summaryMeta now stats)

theorem newSummary_dated (clock now : Time) (stats : DailyStats) :
    Dated (dateOf now) (newSummary clock now stats) := by
  unfold Dated newSummary summaryMeta
  generalize dateOf now = today
  rfl

theorem mem_summaries {db : Db} (member : m ∈ summaries db) :
    ∃ e ∈ db.memory.entries, e.id = m.1 ∧ e.row = m.2 := by
  obtain ⟨e, there, rfl⟩ := List.mem_map.mp (List.mem_filter.mp member).1
  exact ⟨e, there, rfl, rfl⟩

/-- Summaries with one id are one. -/
theorem summaries_unique {db : Db} (left : m ∈ summaries db) (right : m' ∈ summaries db)
    (same : m.1 = m'.1) : m = m' := by
  obtain ⟨e, there, id, row⟩ := mem_summaries left
  obtain ⟨e', there', id', row'⟩ := mem_summaries right
  have one := Table.unique there there' (id.trans (same.trans id'.symm))
  exact Prod.ext same (row.symm.trans ((congrArg Relational.Entry.row one).trans row'))

theorem summaries_below {db : Db} (member : m ∈ summaries db) : m.1 < db.memory.next := by
  obtain ⟨e, there, id, -⟩ := mem_summaries member
  exact id ▸ db.memory.below e there

/-- The transaction of a run that writes a summary. -/
def summaryInsert (now : Time) (stats : DailyStats) : Transaction :=
  .addMemory "daily_summary" (formatSummary stats now) (summaryMeta now stats)

theorem summaries_insert (db : Db) (clock now : Time) (stats : DailyStats) :
    summaries { db with memory := db.memory.insert i (newSummary clock now stats) } =
      summaries db ++ [(db.memory.next, newSummary clock now stats)] := by
  simp only [summaries, Query.rows, Table.insert, List.map_append, List.filter_append]
  rfl

/-- A call leaves the summaries as they are, or inserts one, and is told so or not. -/
theorem perform_summaries {c : ServiceCall} {reply : Except PyException c.Reply}
    (allowed : runAllowed h c) (performed : host.perform i c reply host') :
    summaries host'.world.db = summaries host.world.db ∧
      (∀ (t : Transaction) (x : t.Reply), (⟨c, reply⟩ : Interaction serviceCalls) ≠
        ⟨.run (.session t), .ok x⟩) ∨
    ∃ now existing stats told, Looked h now existing ∧ Missing now existing ∧ Unwritten h ∧
      (⟨c, reply⟩ : Interaction serviceCalls) = ⟨.run (.session (summaryInsert now stats)), told⟩ ∧
      summaries host'.world.db = summaries host.world.db ++
      [(host.world.db.memory.next, newSummary host.world.clock now stats)] := by
  cases c with
  | run call =>
      obtain ⟨world, performed, rfl⟩ := performed
      cases call with
      | session t =>
          obtain ⟨unwritten, now, existing, stats, looked, missing, rfl⟩ := allowed
          cases reply with
          | error e =>
              rcases performed with rfl | ⟨id, db, ran, rfl⟩
              · exact .inl ⟨rfl, fun t x same => by cases same⟩
              · obtain ⟨rfl, rfl⟩ := Prod.mk.inj (Except.ok.inj ran)
                exact .inr ⟨now, existing, stats, _, looked, missing, unwritten,
                  rfl, summaries_insert _ _ _ _⟩
          | ok id =>
              obtain ⟨db, ran, rfl⟩ := performed
              obtain ⟨rfl, rfl⟩ := Prod.mk.inj (Except.ok.inj ran)
              exact .inr ⟨now, existing, stats, _, looked, missing, unwritten,
                rfl, summaries_insert _ _ _ _⟩
      | _ =>
          refine .inl ⟨?_, fun t x same => by cases same⟩
          exact congrArg summaries ((perform_frame performed).db fun t => by simp)
  | select q =>
      refine .inl ⟨?_, fun t x same => by cases same⟩
      cases reply with
      | ok x => rw [performed.2]
      | error e => rw [show host' = host from performed]
  | watchers =>
      refine .inl ⟨?_, fun t x same => by cases same⟩
      cases reply with
      | ok x => rw [performed.2]
      | error e => exact performed.elim
  | appendSummary line =>
      refine .inl ⟨?_, fun t x same => by cases same⟩
      cases reply <;> cases performed <;> rfl
  | makeLogDir | readLogTail | vectorCount | vectorQuery =>
      refine .inl ⟨?_, fun t x same => by cases same⟩
      cases reply <;> cases performed <;> rfl

end

/-- What goes on elsewhere: time passes, and the summaries stay as they are. -/
def Elsewhere (host host' : Host) : Prop :=
  host.world.clock ≤ host'.world.clock ∧ summaries host'.world.db = summaries host.world.db

end WiseOrder.DailySummary
