import WiseOrder.Queues.SlotOwner
import WiseOrder.Workflows.CommitMachine

/-! What is left of a commit pipeline when it has ended. As long as only outside services fail, its
workflow is completed or failed with nothing running; and of the calls to the database and to Redis,
those whose failure leaves it running are exactly those outside of every `try` block. -/
namespace WiseOrder.CommitPipeline
open Coroutine Coroutine.Program Relational History
variable {s : Settings} {i : CallId} {c c' : Pool} {trace : List RunEvent} {repo sha payload : Json}
    {id n : Nat} {h : History} {v : OwnRows}
  {e : PyException} {r : Except PyException Returned}

/-- Outside of the database and of Redis. -/
def External : Call → Prop
  | .summarize .. | .draft .. | .upsert .. | .appendFile _ | .httpOpen
      | .httpPost .. | .httpClose => True
  | _ => False

theorem External.handled {c : Call} (external : External c) : c.Handled := by
  cases c <;> first | exact external.elim | trivial

/-- Step `n` raised, and was marked failed with the workflow. -/
structure Failure (repo sha : Json) (id n : Nat) (h : History) (v : OwnRows) : Prop where
  row : RowIs repo sha id .failed (eventsDone n ++ ["workflow_failed"]) v
  tasks : ∃ type, taskChain[n]? = some type ∧ kinds v.tasks = tasksDone n ++ [(type, .failed)]
  sends : h.sends = if n = 3 then requests repo sha else 0

theorem RowIs.same {status status' : Status} {events events' : List String}
    {repo' sha' : Json} {id' : Nat} (is : RowIs repo sha id status events v)
    (is' : RowIs repo' sha' id' status' events' v) : status = status' ∧ events = events' := by
  obtain ⟨w, only, rfl, rfl, -⟩ := is.row
  obtain ⟨w', only', rfl, rfl, -⟩ := is'.row
  cases only.symm.trans only'
  exact ⟨rfl, rfl⟩

theorem tasksDone_length (early : n ≤ 4) : (tasksDone n).length = n := by
  simp only [tasksDone, taskChain, List.length_map, List.length_take,
    List.length_cons, List.length_nil]
  omega

/-- Nothing but calls to outside services raised, and what they raised is an `Exception`. -/
def OutsideOnly (h : History) : Prop := ∀ x ∈ h, ∀ e, x.raised = some e →
    External x.call ∧ e.isException = true

theorem OutsideOnly.last {x : Interaction calls} (outside : OutsideOnly (h ++ [x]))
    (raised : x.raised = some e) : External x.call :=
  (outside x (List.mem_append_right _ (List.mem_singleton.mpr rfl)) e raised).1

theorem OutsideOnly.fault {call : Call} (outside : OutsideOnly h) (last : h.LastFault call e) :
    External call ∧ e.isException = true := by
  obtain ⟨before, after, rfl, -⟩ := last
  exact outside ⟨call, .error e⟩ (by simp) e rfl

/-- Then the call has heard of everything that it wrote. -/
theorem OutsideOnly.heard {marks : List (List Mark)} (outside : OutsideOnly h)
    (written : List.Forall₂ Writes h marks) : .unheard ∉ marks.flatten := by
  induction written with
  | nil => exact List.not_mem_nil
  | @cons x mark h marks writes _ ih =>
      rw [List.flatten_cons, List.mem_append, not_or]
      refine ⟨?_, ih fun y member => outside y (List.mem_cons_of_mem x member)⟩
      obtain ⟨call, reply⟩ := x
      cases call with
      | session t =>
          cases reply with
          | ok y =>
              rw [show mark = marked t from writes]
              cases t <;> simp [marked]
          | error e => exact (outside _ List.mem_cons_self e rfl).1.elim
      | _ =>
          rw [show mark = [] by cases reply <;> exact writes]
          exact List.not_mem_nil

/-- A failed workflow has the log of the machine where it failed. -/
theorem Failed.failure
    (failed : Failed repo sha id n (if n = 3 then requests repo sha else 0) h v e) (early : n < 4)
    (outside : OutsideOnly h) (follows : Follows repo sha h v) : Failure repo sha id n h v := by
  obtain ⟨events, row⟩ := failed.row
  obtain ⟨type, name, tasks⟩ := failed.tasks
  refine ⟨?_, ⟨type, name, tasks⟩, failed.sends⟩
  obtain ⟨id', p, ⟨marks, written, path⟩, shows⟩ := follows
  have within := Progress.run_within path
  have heard := Progress.run_heard path (outside.heard written)
  rcases shows with shows | ⟨v₀, shows, running, reaped⟩
  · cases p with
    | absent =>
        obtain ⟨w, only, -⟩ := row.row
        rw [shows.1] at only
        contradiction
    | failed m k =>
        obtain ⟨row', taskId, type', name', task⟩ := shows
        have kinds := congrArg List.length (task.kinds.symm.trans tasks)
        simp only [List.length_append, List.length_singleton, tasksDone_length (Nat.le_of_lt early),
          tasksDone_length (Nat.le_of_lt within.1), Nat.add_right_cancel_iff] at kinds
        rw [(heard : k = m), kinds] at row'
        rw [(row.same row').2] at row
        exact row
    | idle | working | finished | unheard | spoiled | completed =>
        exact absurd (row.same shows.1).1 (by decide)
  · obtain ⟨w, only, status, -⟩ := row.row
    obtain ⟨now, marker, taken⟩ := reaped.workflows
    rw [only] at taken
    have member : (id, w) ∈ v₀.workflows.map fun e => (e.1, e.2.finish .interrupted now marker) :=
      taken ▸ List.mem_singleton.mpr rfl
    obtain ⟨old, -, same⟩ := List.mem_map.mp member
    cases same
    contradiction

/-- A program that obeys a protocol and keeps something up does both. -/
theorem obeys_keeps {P : Protocol calls OwnRows} {Q : History → OwnRows → Prop} {m : Async α}
    {post : Post calls OwnRows α} (effect : P.effect = ownEffect) (obeys : m.Obeys P post h v)
    (keeps : KeepsUp Q m (fun _ => Q) h v) : m.Obeys P (fun r h v => post r h v ∧ Q h v) h v := by
  induction m generalizing h v with
  | done result => exact ⟨obeys, keeps⟩
  | await call onReply ih =>
      refine ⟨obeys.1, fun reply after moved =>
        ih reply (obeys.2 reply after moved) (keeps.2 reply after ?_)⟩
      rwa [effect] at moved

/-- Readings of the clock come back. -/
def Ticks (x : Interaction calls) : Prop := x.call = .now → x.raised = none

/-- A call that raises has written down its workflow before, unless it is another call that
raised. -/
theorem answered_recorded (names : commitOf payload = some (repo, sha)) :
    (runCommitPipeline s payload).Answered Ticks
    (fun r h => ∀ e, r = .error e → OutsideOnly h → recorded h = true) [] := by
  apply answered_ofExcept
  · intro e refused
    simp [commitOf, refused] at names
  · intro fields _
    apply obeys_bind_iff.mpr
    apply obeys_bind_iff.mpr
    refine obeys_call trivial fun reply _ _ => ?_
    cases reply with
    | error e => exact fun _ _ outside => (outside.last rfl).elim
    | ok won =>
        cases won with
        | false =>
            apply obeys_bind_iff.mpr
            refine obeys_call trivial fun reply _ _ => ?_
            cases reply with
            | error e => exact fun _ _ outside => (outside.last rfl).elim
            | ok existing =>
                intro e same
                cases same
        | true =>
            apply obeys_bind_iff.mpr
            apply obeys_bind_iff.mpr
            refine obeys_call trivial fun reply _ ticks => ?_
            cases reply with
            | error e => exact absurd (ticks rfl) (by simp [Interaction.raised])
            | ok ts =>
                apply obeys_bind_iff.mpr
                refine obeys_call trivial fun reply _ _ => ?_
                cases reply with
                | error e => exact fun _ _ outside => (outside.last rfl).elim
                | ok id =>
                    refine Obeys.mono (Obeys.grows (answered_any : Program.Answered Ticks _ _ _)) ?_
                    rintro r h - ⟨-, more, rfl⟩ - - -
                    simp [isRecorded]

/-! ### Runs -/

theorem step_ticks {x : Interaction calls} {before : World}
    (step : Step s c (.call i x before) c') : Ticks x := by
  cases step with
  | @call _ _ call _ reply world awaiting performed =>
      rintro (rfl : call = .now)
      cases reply with
      | ok t => rfl
      | error e => exact performed.elim

/-- What an ended call of the pipeline comes to, in a run in which nothing is reaped. -/
theorem run_follows (fresh : Fresh c)
    (run : Transition.Run (Transition.Guarded (Step s) Dedup.Calm) c trace c')
    (role : i.role = .pipeline) (made : .spawn i (runCommitPipeline s payload) ∈ trace)
    (names : commitOf payload = some (repo, sha)) (ended : c'.threads i = .active h (.done r)) :
    outcome payload r h (view i c'.world) ∧ Follows repo sha h (view i c'.world) := by
  refine run_ends (s := s) (fun taken => ⟨taken.1, taken.2⟩) run fresh made role
    (Q := fun r h v => outcome payload r h v ∧ Follows repo sha h v) ?_ ended
  apply obeys_keeps protocol_effect
  · unfold protocol
    rw [role]
    exact obeys_runCommitPipeline payload
  · exact follows_runCommitPipeline names

/-- As long as outside services only fail, a commit pipeline that has ended was skipped, has
completed every step, or has failed a step with its workflow; and the row, the tasks, the log and
the memory are then exactly these. -/
theorem commit_settles (fresh : Fresh c)
    (run : Transition.Run (Transition.Guarded (Step s) Dedup.Calm) c trace c')
    (role : i.role = .pipeline) (made : .spawn i (runCommitPipeline s payload) ∈ trace)
    (names : commitOf payload = some (repo, sha)) (ended : c'.threads i = .active h (.done r))
    (outside : OutsideOnly h) : (∃ skipped, r = .ok skipped ∧ Skipped repo sha skipped h ∧
      view i c'.world = OwnRows.none) ∨
      (∃ id approvalId eng post, r = .ok (.commit id approvalId eng post) ∧
        Completed repo sha id h (view i c'.world)) ∨
      ∃ id n e, r = .error e ∧ n < 4 ∧ Failure repo sha id n h (view i c'.world) := by
  obtain ⟨outcome, follows⟩ := run_follows fresh run role made names ended
  cases r with
  | ok r =>
      obtain ⟨repo', sha', names', ran⟩ := outcome
      cases names.symm.trans names'
      rcases ran with ⟨none, skipped⟩ | ⟨-, id, approvalId, eng, post, rfl, completed⟩
      · exact .inl ⟨r, rfl, skipped, none⟩
      · exact .inr (.inl ⟨id, approvalId, eng, post, rfl, completed⟩)
  | error e =>
      rcases outcome with ⟨unrecorded, -⟩ | ⟨repo', sha', names', -, id, broken⟩
      · have recorded : recorded h = true := Machine.run_answers (m := runtime s)
          (fun taken => taken.1) (fun taken => step_ticks taken.1) run
          made (fun w a q again => by simp [runtime, role] at again) (answered_recorded names) ended
            e rfl outside
        rw [unrecorded] at recorded
        contradiction
      · cases names.symm.trans names'
        rcases broken with ⟨n, early, failed⟩ | stuck
        · exact .inr (.inr ⟨id, n, e, rfl, early, failed.failure early outside follows⟩)
        · obtain ⟨call, last, unhandled | uncaught, -⟩ := stuck.history
          · exact absurd (outside.fault last).1.handled unhandled
          · rw [(outside.fault last).2] at uncaught
            contradiction

/-- The model service is overloaded in the first step. -/
theorem commit_settles_failed : ∃ trace c' h id n e,
    Transition.Run (Transition.Guarded (Step (.defaults "/root")) Dedup.Calm) Pool.initial
      trace c' ∧ c'.threads ⟨1, 1, .pipeline⟩ = .active h (.done (.error e)) ∧ n < 4 ∧
    Failure (.str "/srv/app") (.str "4c1d") id n h (view ⟨1, 1, .pipeline⟩ c'.world) := by
  obtain ⟨_, -, opened⟩ := run_entry (run_start (.defaults "/root") Dedup.Calm Pool.initial)
    ⟨1, 1, .pipeline⟩ (.commitPipeline samplePayload) (openingScript "4c1d" 0 1 1)
    ((plays_attach rfl).trans (.call ⟨_, rfl, rfl⟩ (.stop _ _))) rfl rfl rfl
    (Dedup.calm_spawn _) (Dedup.calm_calls (by simp [openingScript, attachScript, claimScript]))
  obtain ⟨_, -, failing⟩ := run_on opened ⟨1, 1, .pipeline⟩ rfl (overloadedScript "4c1d" 1 1)
    (.call rfl (.call ⟨_, rfl, rfl⟩ (.call ⟨_, rfl, rfl⟩ (.stop _ _))))
      (Dedup.calm_calls (by simp [overloadedScript]))
  have outside : OutsideOnly (openingScript "4c1d" 0 1 1 ++ overloadedScript "4c1d" 1 1) := by
    simp [OutsideOnly, openingScript, attachScript, claimScript, overloadedScript,
      Interaction.raised, External,
      PyException.isException, PyException.runtimeError]
  have run := opened.trans failing
  have settled := commit_settles fresh_initial run (i := ⟨1, 1, .pipeline⟩) rfl
    (List.mem_append_left _ (List.mem_append_right _ List.mem_cons_self)) rfl rfl outside
  rcases settled with ⟨_, same, -⟩ | ⟨_, _, _, _, same, -⟩ | ⟨id, n, e, same, early, failure⟩
  · cases same
  · cases same
  · cases same
    exact ⟨_, _, _, id, n, _, run, rfl, early, failure⟩

/-! ### One fault -/

/-- The workflow is completed or failed, and none of the tasks is running. -/
def Settled (v : OwnRows) : Prop := ∃ id w, v.workflows = [(id, w)] ∧
    (w.status = .completed ∨ w.status = .failed) ∧ v.Quiet

theorem Completed.settled (completed : Completed repo sha id h v) : Settled v := by
  obtain ⟨w, only, status, -⟩ := completed.row.row
  exact ⟨id, w, only, .inl status, tasksDone_quiet completed.tasks⟩

theorem Failed.settled {k : Nat} (failed : Failed repo sha id n k h v e) : Settled v := by
  obtain ⟨events, w, only, status, -⟩ := failed.row
  obtain ⟨type, -, tasks⟩ := failed.tasks
  refine ⟨id, w, only, .inr status, fun task member running => ?_⟩
  have kind : (task.2.type, task.2.status) ∈ kinds v.tasks := List.mem_map.mpr ⟨task, member, rfl⟩
  rw [tasks, running] at kind
  rcases List.mem_append.mp kind with old | new
  · obtain ⟨type', -, same⟩ := List.mem_map.mp old
    cases same
  · cases List.mem_singleton.mp new

theorem swallowed_handled {call : Call} (swallowed : call.Swallowed) : call.Handled := by
  cases call with
  | session t => cases t <;> first | exact swallowed.elim | trivial
  | upsert | appendFile | httpPost => trivial
  | _ => exact swallowed.elim

/-- `call` is the only one that raised, and there was a workflow by then. -/
structure OneFault (h : History) (call : Call) (e : PyException) : Prop where
  only : ∃ before after, h = before ++ ⟨call, .error e⟩ :: after ∧ recorded before = true ∧
    ∀ x ∈ before ++ after, x.raised = none
  caught : e.isException = true

namespace OneFault
variable {call : Call} {before after : History} {k : Nat}

theorem last (fault : OneFault h call e) : h.LastFault call e := by
  obtain ⟨before, after, same, -, others⟩ := fault.only
  exact ⟨before, after, same, fun x member => others x (List.mem_append_right _ member)⟩

theorem recorded (fault : OneFault h call e) : recorded h = true := by
  obtain ⟨before, after, rfl, recorded, -⟩ := fault.only
  simp [recorded]

theorem member (fault : OneFault h call e) : ⟨call, .error e⟩ ∈ h := by
  obtain ⟨before, after, rfl, -⟩ := fault.only
  simp

theorem eq {x : Interaction calls} (fault : OneFault h call e) (member : x ∈ h)
    (raised : x.raised ≠ none) : x = ⟨call, .error e⟩ := by
  obtain ⟨before, after, rfl, -, others⟩ := fault.only
  rcases List.mem_append.mp member with old | new
  · exact absurd (others x (List.mem_append_left _ old)) raised
  · rcases List.mem_cons.mp new with same | later
    · exact same
    · exact absurd (others x (List.mem_append_right _ later)) raised

/-- The exception met an `except` clause where the workflow was marked failed. -/
theorem handled (fault : OneFault h call e) {e' : PyException}
    (failed : Failed repo sha id n k h v e') : call.Handled := by
  obtain ⟨before, taskId, text, raised, -, same⟩ := failed.history
  have inside : ∀ x ∈ before, x ∈ h := fun x member => by
    rw [same]
    simp [member]
  rcases raised with ⟨smooth, -⟩ | ⟨call', handled, last⟩
  · have member := fault.member
    rw [same] at member
    simp only [List.append_assoc, List.mem_append, List.mem_cons,
      List.not_mem_nil, or_false] at member
    rcases member with old | marked | marked
    · exact swallowed_handled (smooth _ old (by simp [Interaction.raised]))
    · cases congrArg Interaction.raised marked
    · cases congrArg Interaction.raised marked
  · obtain ⟨before', after', rfl, -⟩ := last
    have same := fault.eq (inside ⟨call', .error e'⟩ (by simp)) (by simp [Interaction.raised])
    cases congrArg Interaction.call same
    exact handled

end OneFault

theorem Settled.ended (settled : Settled v) : ¬ ∃ id, v.Running id := by
  rintro ⟨id', w', only', running⟩
  obtain ⟨id, w, only, status, -⟩ := settled
  cases only.symm.trans only'
  rw [running] at status
  rcases status with status | status <;> contradiction

/-- What a single fault leaves behind. Where the call is outside of every `try` block the workflow
is left running, but for a call that was to finish it and took effect before it raised. -/
structure Leaves (call : Call) (v : OwnRows) : Prop where
  handled : call.Handled → Settled v
  unhandled : ¬ call.Handled → (∃ id, v.Running id) ∨ call.Finishes ∧ Settled v
  running : ¬ call.Finishes → ((∃ id, v.Running id) ↔ ¬ call.Handled)

theorem Leaves.settled {call : Call} (handled : call.Handled) (settled : Settled v) :
    Leaves call v where
  handled := fun _ => settled
  unhandled := fun unhandled => absurd handled unhandled
  running := fun _ => ⟨fun running => absurd running settled.ended,
    fun unhandled => absurd handled unhandled⟩

/-- If one call of a commit pipeline raises after its workflow was written down, and no other, then
the pipeline ends with its workflow still running if the call is outside of every `try` block (the
attach, a task begun, a failure marked or the completion), unless it had marked the workflow failed
or completed when it raised, and settled otherwise. -/
theorem stuck_unless {call : Call} (fresh : Fresh c)
    (run : Transition.Run (Transition.Guarded (Step s) Dedup.Calm) c trace c')
    (role : i.role = .pipeline) (made : .spawn i (runCommitPipeline s payload) ∈ trace)
    (names : commitOf payload = some (repo, sha)) (ended : c'.threads i = .active h (.done r))
    (fault : OneFault h call e) : Leaves call (view i c'.world) := by
  have outcome := (run_follows fresh run role made names ended).1
  cases r with
  | ok r =>
      obtain ⟨repo', sha', -, ⟨-, skipped⟩ | ⟨-, id, approvalId, eng, post, rfl, completed⟩⟩ :=
        outcome
      · obtain ⟨value, ex, existing, -, rfl⟩ := skipped
        have recorded := fault.recorded
        simp [isRecorded] at recorded
      · exact .settled (swallowed_handled (completed.smooth _ fault.member
          (by simp [Interaction.raised]))) completed.settled
  | error e' =>
      rcases outcome with ⟨unrecorded, -⟩ | ⟨repo', sha', -, -, id, ⟨n, -, failed⟩ | stuck⟩
      · have recorded := fault.recorded
        rw [unrecorded] at recorded
        contradiction
      · exact .settled (fault.handled failed) failed.settled
      · obtain ⟨call', last, unhandled, status, events, row, how⟩ := stuck.history
        obtain ⟨rfl, rfl⟩ := fault.last.unique last
        rcases unhandled with unhandled | uncaught
        · rcases how with rfl | ⟨finishes, ends, quiet⟩
          · exact ⟨fun handled => absurd handled unhandled, fun _ => .inl ⟨id, row.running⟩,
              fun _ => ⟨fun _ => unhandled, fun _ => ⟨id, row.running⟩⟩⟩
          · obtain ⟨w, only, rfl, -⟩ := row.row
            exact ⟨fun handled => absurd handled unhandled, fun _ =>
              .inr ⟨finishes, id, w, only, ends, quiet⟩,
              fun unfinished => absurd finishes unfinished⟩
        · rw [fault.caught] at uncaught
          contradiction

/-- Redis is away when the workflow is to be attached. -/
theorem stuck_unless_attach : ∃ trace c',
    Transition.Run (Transition.Guarded (Step (.defaults "/root")) Dedup.Calm) Pool.initial
      trace c' ∧ ¬ (c'.threads ⟨1, 1, .pipeline⟩).Live ∧
      ∃ id, (view ⟨1, 1, .pipeline⟩ c'.world).Running id := by
  let away : PyException := .runtimeError "Connection refused"
  obtain ⟨_, -, run⟩ := run_entry (run_start (.defaults "/root") Dedup.Calm Pool.initial)
    ⟨1, 1, .pipeline⟩ (.commitPipeline samplePayload)
    (claimScript "4c1d" 0 1 ++ [⟨.redis (.setEx (slotOf "4c1d") "1" 3600), .error away⟩])
    ((plays_claim rfl).trans (.call (.inl rfl) (.stop _ _))) rfl rfl rfl
    (Dedup.calm_spawn _) (Dedup.calm_calls (by simp [claimScript]))
  refine ⟨_, _, run, ?_, ?_⟩
  · rintro ⟨seen, rest, active, waiting⟩
    cases active
    exact waiting
  · have fault : OneFault (claimScript "4c1d" 0 1 ++
      [⟨.redis (.setEx (slotOf "4c1d") "1" 3600), .error away⟩])
        (.redis (.setEx (slotOf "4c1d") "1" 3600)) away :=
      ⟨⟨claimScript "4c1d" 0 1, [], rfl, rfl, by simp [claimScript, Interaction.raised]⟩, rfl⟩
    have leaves := stuck_unless fresh_initial run (i := ⟨1, 1, .pipeline⟩) rfl
      (List.mem_append_right _ List.mem_cons_self) rfl rfl fault
    exact (leaves.running id).mpr id

end WiseOrder.CommitPipeline
