import WiseOrder.Orchestrator.Reaper

/-! What a call keeps up about its rows as it goes on. While orchestrators come up one at a time,
the reaper comes only to rows of calls that execute no more; so what the call keeps up holds at any
time, if the reaper keeps it up too. -/
namespace WiseOrder
open Coroutine Coroutine.Program Relational
variable {s : Settings} {i j : CallId} {c c' : Pool} {e : RunEvent} {trace : List RunEvent}
    {p : Async Returned}

/-- The reaper leaves the rows of the calls that execute. -/
theorem step_spares (sound : Sound s c) (alone : Alone c) (step : Step s c e c')
    (live : (c.threads j).Live) (idle : ¬ e.By j) : view j c'.world = view j c.world := by
  by_cases reaps : Reaps c e c'
  · obtain ⟨-, i, cutoff, marker, reply, w, rfl⟩ := reaps
    have role : j.role ≠ .pipeline := by
      intro pipeline
      cases step with
      | call awaiting performed =>
          have permitted := session_permitted (sound.obeys i _ _ awaiting).1
          cases permitted with
          | pipeline role lawful => exact lawful.elim
          | decision decides => exact decides.elim
          | reap cutoff marker role none early =>
              have off := alone.early i ⟨_, _, awaiting, trivial⟩ role (by rwa [awaiting])
              have on := alone.served j live pipeline
              rw [off j.process] at on
              contradiction
    have none := sound.rowless j (present_of_live live) role
    rw [step_none sound.obeys step role none, none]
  · exact step_view_other sound.obeys step reaps idle

/-- Whatever it is, a program keeps it up whose calls all find it so. -/
def KeepsUp (Q : History → OwnRows → Prop) (m : Async α) (post : Post calls OwnRows α)
    (h : History) (v : OwnRows) : Prop :=
  m.Obeys ⟨fun h _ v => Q h v, ownEffect⟩ post h v

section
variable {Q : History → OwnRows → Prop}

/-- A reaper that takes rows of a call that is over keeps it up too. -/
def Reapable (Q : History → OwnRows → Prop) (i : CallId) : Prop :=
  ∀ h k cutoff marker now n db db', (Transaction.reap cutoff marker).run k now db = .ok (n, db') →
    (db.own i).Orderly →
    Q h (db.own i) → Q h (db'.own i)

structure Upheld (Q : History → OwnRows → Prop) (i : CallId) (c : Pool) : Prop where
  there : c.threads i ≠ .absent
  holds : Q (c.threads i).past (view i c.world)
  goes : ∀ seen rest, c.threads i = .active seen rest →
    KeepsUp Q rest (fun _ => Q) seen (view i c.world)

theorem KeepsUp.now {m : Async α} {h : History} {v : OwnRows}
    (keeps : KeepsUp Q m (fun _ => Q) h v) : Q h v := by
  cases m with
  | done result => exact keeps
  | await call onReply => exact keeps.1

theorem step_upheld (sound : Sound s c) (alone : Alone c) (reapable : Reapable Q i)
    (pipeline : i.role = .pipeline) (upheld : Upheld Q i c) (step : Step s c e c') :
    Upheld Q i c' := by
  obtain ⟨there, holds, goes⟩ := upheld
  have present : c'.threads i ≠ .absent := (step.present i).mpr (.inl there)
  by_cases mine : e.By i
  · cases step with
    | spawn unused entry =>
        cases mine
        exact absurd unused there
    | @call k seen call onReply reply world awaiting performed =>
        cases mine
        have moved : ownEffect call (view i c.world) reply (view i world) := by
          have effect := (tracks s).effect (sound.obeys i _ _ awaiting).1 performed
          rwa [protocol_effect] at effect
        have later : KeepsUp Q (onReply reply) (fun _ => Q)
            (seen ++ [⟨call, reply⟩]) (view i world) :=
          (goes _ _ awaiting).2 reply _ moved
        refine ⟨present, ?_, fun past rest active => ?_⟩
        · dsimp only
          rw [Function.update_self]
          exact later.now
        · simp only [Function.update_self, Thread.active.injEq] at active
          obtain ⟨rfl, rfl⟩ := active
          exact later
    | again returned next =>
        cases mine
        have role := next.1
        rw [pipeline] at role
        contradiction
    | drift | crash => exact mine.elim
  · have past : (c'.threads i).past = (c.threads i).past := by
      rw [step.past i, Event.own_other mine, Option.toList_none, List.append_nil]
    have rows (h : History) (kept : Q h (view i c.world)) : Q h (view i c'.world) := by
      by_cases reaps : Reaps c e c'
      · obtain ⟨takes, k, cutoff, marker, reply, w, rfl⟩ := reaps
        rcases step_ran step with ⟨same, -⟩ | ⟨k', t, x, reply', same, -, ran⟩
        · exact absurd same takes
        · cases same
          exact reapable h k cutoff marker _ x _ _ ran (sound.orderly i there) kept
      · rw [step_view_other sound.obeys step reaps mine]
        exact kept
    refine ⟨present, past ▸ rows _ holds, fun seen rest active => ?_⟩
    have before := step.other mine active
    cases rest with
    | done result => exact rows seen (goes seen _ before)
    | await call onReply =>
        rw [step_spares sound alone step ⟨seen, _, before, trivial⟩ mine]
        exact goes seen _ before

/-- What a call keeps up holds of its rows from its first call on, for good. -/
theorem run_upheld (fresh : Fresh c)
    (run : Transition.Run (Transition.Guarded (Step s) OneOrchestrator) c trace c')
    (spawned : .spawn i p ∈ trace) (pipeline : i.role = .pipeline) (reapable : Reapable Q i)
    (keeps : KeepsUp Q p (fun _ => Q) [] OwnRows.none) :
    Q (c'.threads i).past (view i c'.world) := by
  obtain ⟨past, rest, rfl⟩ := List.append_of_mem spawned
  obtain ⟨t, t', before, taken, after⟩ := run.split_at
  obtain ⟨sound, alone⟩ := run_alone fresh before
  have start : Upheld Q i t' := by
    cases taken.1 with
    | spawn unused entry =>
        have none : view i t.world = OwnRows.none := entry.1
        refine ⟨by simp, ?_, fun seen program active => ?_⟩
        · dsimp only
          rw [none, Function.update_self]
          exact keeps.now
        · simp only [Function.update_self, Thread.active.injEq] at active
          obtain ⟨rfl, rfl⟩ := active
          rw [none]
          exact keeps
  refine (after.invariant (P := fun u => (Sound s u ∧ Alone u) ∧ Upheld Q i u) ?_
    ⟨⟨step_sound_alone sound alone taken.1, step_alone sound alone taken.1 taken.2⟩, start⟩).2.holds
  rintro u e u' ⟨⟨sound, alone⟩, upheld⟩ taken
  exact ⟨⟨step_sound_alone sound alone taken.1, step_alone sound alone taken.1 taken.2⟩,
    step_upheld sound alone reapable pipeline upheld taken.1⟩

end

end WiseOrder
