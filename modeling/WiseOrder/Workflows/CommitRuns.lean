import WiseOrder.Queues.Slot

/-! Runs in which only commit pipelines are called. Nothing is reaped or released in
them, and what a call does is for the commit that its payload names. -/
namespace WiseOrder.CommitPipeline
open Coroutine Coroutine.Program Relational
variable {s : Settings} {i : CallId} {c c' : Pool} {e : RunEvent} {trace : List RunEvent}
    {repo sha payload : Json}
  {condition : Pool → RunEvent → Pool → Prop}

/-- Only commit pipelines are called. -/
def Pipelines (s : Settings) (_ : Pool) (e : RunEvent) (_ : Pool) : Prop :=
  ∀ i p, e = .spawn i p → i.role = .pipeline ∧ ∃ payload, p = runCommitPipeline s payload

/-- The calls that are there are all of pipelines. -/
structure Piped (s : Settings) (c : Pool) : Prop where
  sound : Sound s c
  roles : ∀ i, c.threads i ≠ .absent → i.role = .pipeline

theorem Piped.calm (piped : Piped s c) (step : Step s c e c') : ¬ Reaps c e c' := by
  rintro ⟨-, i, cutoff, marker, reply, w, rfl⟩
  have allowed := session_permitted (step.allowed piped.sound.obeys)
  cases step with
  | call awaiting performed =>
      have role := piped.roles i (by simp [awaiting])
      cases allowed with
      | pipeline _ lawful => exact lawful.elim
      | decision decides => exact decides.elim
      | reap _ _ starter => simp [role] at starter

theorem Piped.step (piped : Piped s c) (step : Step s c e c') (pipelines : Pipelines s c e c') :
    Piped s c' := by
  refine ⟨step_sound_calm piped.sound step (piped.calm step), fun i there => ?_⟩
  rcases (step.present i).mp there with before | ⟨p, rfl⟩
  · exact piped.roles i before
  · exact (pipelines i p rfl).1

theorem fresh_piped (fresh : Fresh c) : Piped s c :=
  ⟨fresh.sound, fun i there => absurd (fresh i) there⟩

theorem pipelines_spawn (payload : Json) (role : i.role = .pipeline) :
    Pipelines s c (.spawn i (runCommitPipeline s payload)) c' := by
  intro j p same
  cases same
  exact ⟨role, payload, rfl⟩

theorem pipelines_other (other : ∀ i p, e ≠ .spawn i p) : Pipelines s c e c' :=
  fun i p same => absurd same (other i p)

section
variable (sub : ∀ {c e c'}, condition c e c' → Pipelines s c e c')
include sub

theorem run_piped (run : Transition.Run (Transition.Guarded (Step s) condition) c trace c')
    (fresh : Fresh c) : Piped s c' :=
  run.invariant (P := Piped s) (fun piped taken =>
    piped.step taken.1 (sub taken.2)) (fresh_piped fresh)

theorem run_calm (run : Transition.Run (Transition.Guarded (Step s) condition) c trace c')
    (fresh : Fresh c) : Transition.Run (Transition.Guarded (Step s) fun c e c' => condition c e c' ∧
      ¬ Reaps c e c') c trace c' :=
  run.sharpen (P := Piped s) (fun piped taken => piped.step taken.1 (sub taken.2))
    (fun piped taken => ⟨taken.1, taken.2, piped.calm taken.1⟩) (fresh_piped fresh)

/-- A call that was made is of a pipeline, and was made by a payload. -/
theorem run_spawned (run : Transition.Run (Transition.Guarded (Step s) condition) c trace c')
    (spawned : .spawn i p ∈ trace) : i.role = .pipeline ∧ ∃ payload, p =
      runCommitPipeline s payload := by
  obtain ⟨t, t', taken⟩ := run.taken spawned
  exact sub taken.2 i p rfl

/-- A call that is there was made, by a payload. -/
theorem run_made (run : Transition.Run (Transition.Guarded (Step s) condition) c trace c')
    (fresh : Fresh c) (there : c'.threads i ≠ .absent) :
    ∃ payload, .spawn i (runCommitPipeline s payload) ∈ trace := by
  obtain ⟨p, spawned⟩ := Machine.spawned_within (m := runtime s)
    (fun taken => taken.1) run (fresh i) there
  obtain ⟨-, payload, rfl⟩ := run_spawned sub run spawned
  exact ⟨payload, spawned⟩

/-- The calls of a pipeline are those that its program may make. -/
theorem run_calls {may : Call → Prop}
    (run : Transition.Run (Transition.Guarded (Step s) condition) c trace c')
    (made : .spawn i (runCommitPipeline s payload) ∈ trace)
    (within : (runCommitPipeline s payload).Within may) :
    ∀ x ∈ (c'.threads i).past, may x.call := by
  refine Machine.run_within (m := runtime s) (fun taken => taken.1) run made ?_ within
  rintro w a q ⟨worker, -, -⟩
  rw [(run_spawned sub run made).1] at worker
  contradiction

/-- A call that has ended ended as its program may. -/
theorem run_outcome (run : Transition.Run (Transition.Guarded (Step s) condition) c trace c')
    (fresh : Fresh c) (made : .spawn i (runCommitPipeline s payload) ∈ trace)
    (ended : c'.threads i = .active seen (.done r)) : outcome payload r seen (view i c'.world) := by
  obtain ⟨role, -⟩ := run_spawned sub run made
  refine run_ends (s := s) (fun taken => ⟨taken.1, taken.2.2⟩) (run_calm sub run fresh) fresh made
    role ?_ ended
  unfold protocol
  rw [role]
  exact obeys_runCommitPipeline payload

/-- A call that was skipped had its claim refused, and read the slot. -/
theorem run_skipped (run : Transition.Run (Transition.Guarded (Step s) condition) c trace c')
    (fresh : Fresh c) (made : .spawn i (runCommitPipeline s payload) ∈ trace)
    (names : commitOf payload = some (repo, sha))
    (ended : c'.threads i = .active seen (.done (.ok (.skipped workflowId reason)))) :
    Skipped repo sha (.skipped workflowId reason) seen := by
  obtain ⟨repo', sha', names', ended⟩ := run_outcome sub run fresh made ended
  obtain ⟨rfl, rfl⟩ := Prod.mk.inj (Option.some.inj (names.symm.trans names'))
  rcases ended with ⟨-, skipped⟩ | ⟨-, id, approvalId, eng, post, same, -⟩
  · exact skipped
  · cases same

end

end WiseOrder.CommitPipeline
