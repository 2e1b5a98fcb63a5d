import WiseOrder.Workflows.CommitRuns
import WiseOrder.Queues.SlotOwner
import WiseOrder.Queues.DedupSafety

/-! What a duplicate is told. The value that it reads from the slot was attached by a
call that had inserted the workflow of that id; whether the answer is true depends on
the slot still being there when it is read, and on whom the key was shared with. -/
namespace WiseOrder.CommitPipeline
open Coroutine Coroutine.Program Relational
variable {s : Settings} {i j : CallId} {c c' : Pool} {e : RunEvent} {trace : List RunEvent}
    {repo sha : Json}
  {payload : Json} {k value : String} {id : Nat}

/-- The call has attached a value to a key. -/
def Attached (c : Pool) (j : CallId) (k value : String) : Prop :=
  ∃ ex reply, (⟨.redis (.setEx k value ex), reply⟩ : Interaction calls) ∈ (c.threads j).past

/-- The call has inserted the workflow of a commit, under the id that it attached. -/
structure Tied (c : Pool) (j : CallId) (k value : String) (repo sha : Json) (id : Nat) : Prop where
  key : k = Dedup.key repo sha
  value : value = toString id
  added : ∃ chain ts, (⟨.session (.addWorkflow "commit_pipeline" chain
    [⟨ts, "workflow_started", .obj [("repo", repo), ("sha", sha)]⟩]), .ok id⟩ : Interaction calls) ∈
      (c.threads j).past
  row : ∃ entry ∈ c.world.db.workflows.entries, entry.id = id ∧ entry.row.Of repo sha

theorem past_grows (step : Step s c e c') (member : x ∈ (c.threads j).past) :
    x ∈ (c'.threads j).past := by
  rw [step.past j]
  exact List.mem_append_left _ member

theorem Attached.step (attached : Attached c j k value) (step : Step s c e c') :
    Attached c' j k value := by
  obtain ⟨ex, reply, member⟩ := attached
  exact ⟨ex, reply, past_grows step member⟩

theorem Attached.present (attached : Attached c j k value) : c.threads j ≠ .absent := by
  obtain ⟨ex, reply, member⟩ := attached
  intro absent
  rw [absent] at member
  exact absurd member List.not_mem_nil

theorem of_advances {w w' : Workflow} (is : w.Of repo sha) (advances : w.Advances w') :
    w'.Of repo sha := by
  obtain ⟨more, logs⟩ := advances.logs
  exact of_append is advances.name logs.symm

theorem Tied.step (tied : Tied c j k value repo sha id) (obeys : c.Obeys (protocol s) post view)
    (step : Step s c e c') : Tied c' j k value repo sha id := by
  obtain ⟨chain, ts, member⟩ := tied.added
  obtain ⟨entry, there, rfl, is⟩ := tied.row
  obtain ⟨row, advances, remains⟩ := step_advances obeys step entry there
  exact ⟨tied.key, tied.value, ⟨chain, ts, past_grows step member⟩, _, remains,
    rfl, of_advances is advances⟩

/-- Whatever stands in a slot, or was read from one, is a placeholder or was attached by a call that
had inserted the workflow of that id. -/
structure Truthful (c : Pool) : Prop where
  tied : ∀ j k value, Attached c j k value → ∃ repo sha id, Tied c j k value repo sha id
  slots : ∀ k slot, c.world.redis.slots k = some slot → slot.value = Dedup.pending ∨
    ∃ j, Attached c j k slot.value
  gets : ∀ i k value, (⟨.redis (.get k), .ok (some value)⟩ : Interaction calls) ∈
    (c.threads i).past →
    value = Dedup.pending ∨ ∃ j, Attached c j k value

theorem step_truthful (obeys : c.Obeys (protocol s) (fun _ => anyEnd) view) (step : Step s c e c')
    (truthful : Truthful c) : Truthful c' := by
  have kept {k value : String} (told : value = Dedup.pending ∨ ∃ j, Attached c j k value) :
      value = Dedup.pending ∨ ∃ j, Attached c' j k value := by
    rcases told with pending | ⟨j, attached⟩
    · exact .inl pending
    · exact .inr ⟨j, attached.step step⟩
  refine ⟨fun j k value attached => ?_, fun k slot there => ?_, fun i k value member => ?_⟩
  · obtain ⟨ex, reply, member⟩ := attached
    rw [step.past j] at member
    rcases List.mem_append.mp member with old | new
    · obtain ⟨repo, sha, id, tied⟩ := truthful.tied j k value ⟨ex, reply, old⟩
      exact ⟨repo, sha, id, tied.step obeys step⟩
    · obtain ⟨before, rfl⟩ := Event.mem_own.mp new
      have writes : (RedisCommand.setEx k value ex).Writes k := rfl
      rcases Dedup.writes_allowed (step.allowed obeys) writes with other | ⟨repo, sha, id,
        same, -, rfl, inserted⟩ | other
      · cases other
      · cases same
        obtain ⟨chain, ts, added⟩ := inserted.added
        obtain ⟨w, row, is⟩ := inserted.row
        have tied : Tied c j (Dedup.key repo sha) (toString id) repo sha id :=
          ⟨rfl, rfl, ⟨chain, ts, added⟩, _, Table.mem_owned.mp row, rfl, is⟩
        exact ⟨repo, sha, id, tied.step obeys step⟩
      · cases other
  · cases Dedup.step_slot (k := k) obeys step with
    | kept slots later idle => exact kept (truthful.slots k slot (slots.symm.trans there))
    | opened event answered label free clock written =>
        cases written.symm.trans there
        exact .inl rfl
    | @attached i repo sha id reply event won same inserted clock written =>
        cases written.symm.trans there
        subst event
        refine .inr ⟨i, s.dedupTtlSeconds, reply, ?_⟩
        rw [step.past i]
        exact List.mem_append_right _ (Event.mem_own.mpr ⟨_, rfl⟩)
    | dropped event clock erased =>
        rw [erased] at there
        contradiction
  · rw [step.past i] at member
    rcases List.mem_append.mp member with old | new
    · exact kept (truthful.gets i k value old)
    · obtain ⟨before, rfl⟩ := Event.mem_own.mp new
      cases step with
      | call awaiting performed =>
          obtain ⟨r, ran, rfl⟩ := performed
          have live : c.world.redis.live c.world.clock k = some value :=
            (Prod.mk.inj (Except.ok.inj ran)).1
          obtain ⟨slot, there, rfl, -⟩ := Dedup.live_slot live
          exact kept (truthful.slots k slot there)

theorem run_truthful (fresh : Fresh c) (unset : ∀ k, c.world.redis.slots k = none)
    (run : Transition.Run (Transition.Guarded (Step s) (Pipelines s)) c trace c') :
    Piped s c' ∧ Truthful c' := by
  refine run.invariant (P := fun d => Piped s d ∧ Truthful d) ?_ ⟨fresh_piped fresh, ?_⟩
  · rintro d e d' ⟨piped, truthful⟩ ⟨taken, pipelines⟩
    exact ⟨piped.step taken pipelines, step_truthful piped.sound.obeys taken truthful⟩
  · have none (i : CallId) : (c.threads i).past = [] := by rw [fresh i]; rfl
    refine ⟨fun j k value attached => ?_, fun k slot there => ?_, fun i k value member => ?_⟩
    · obtain ⟨ex, reply, member⟩ := attached
      simp [none j] at member
    · simp [unset k] at there
    · simp [none i] at member

/-! ### What the call is told -/

theorem skip_none : skip ⟨false, none⟩ = .skipped none "duplicate_sha" := rfl

theorem skip_id (id : Nat) : skip ⟨false, some (toString id)⟩ =
      .skipped (some id) "duplicate_sha" := by
  have digits : Python.isdigit (toString id) = true := Python.isdigit_toString id
  have other : toString id ≠ Dedup.pending := by
    intro same
    rw [same] at digits
    contradiction
  have full : toString id ≠ "" := by
    intro same
    rw [same] at digits
    contradiction
  simp only [skip, if_neg full, if_neg other, digits, if_true, Python.int_toString]

/-- A call that attached a value was given the commit of the workflow that it inserted. -/
theorem run_tied (run : Transition.Run (Transition.Guarded (Step s) (Pipelines s)) c trace c')
    (made : .spawn j (runCommitPipeline s payload) ∈ trace) (tied : Tied c' j k value repo sha id) :
    commitOf payload = some (repo, sha) := by
  obtain ⟨chain, ts, member⟩ := tied.added
  cases names : commitOf payload with
  | none => exact (run_calls (fun taken => taken) run made (within_unnamed names) _ member).elim
  | some commit =>
      obtain ⟨ts', same⟩ := run_calls
        (fun taken => taken) run made (within_runCommitPipeline names) _ member
      simp only [List.cons.injEq, LogEntry.mk.injEq, Json.obj.injEq, Prod.mk.injEq, true_and,
        and_true] at same
      rw [same.2.1, same.2.2]

/-- A duplicate is told the workflow of its commit if and only if the slot was still there when it
was read, and what stood in it came from calls for this very commit. -/
theorem duplicate_told (fresh : Fresh c) (unset : ∀ k, c.world.redis.slots k = none)
    (run : Transition.Run (Transition.Guarded (Step s) (Pipelines s)) c trace c')
    (made : .spawn i (runCommitPipeline s payload) ∈ trace)
    (names : commitOf payload = some (repo, sha))
    (told : (c'.threads i).Ended (.ok (.skipped workflowId "duplicate_sha"))) :
    (∃ entry ∈ c'.world.db.workflows.entries, workflowId = some entry.id ∧ entry.row.Of repo sha) ↔
      ∃ value, (⟨.redis (.get (Dedup.key repo sha)), .ok (some value)⟩ : Interaction calls) ∈
      (c'.threads i).past ∧
        ∀ j payload', .spawn j (runCommitPipeline s payload') ∈ trace → Attached c' j
        (Dedup.key repo sha) value →
          commitOf payload' = some (repo, sha) := by
  obtain ⟨seen, active⟩ := told
  obtain ⟨-, truthful⟩ := run_truthful fresh unset run
  obtain ⟨value, ex, existing, answer, rfl⟩ :=
    run_skipped (fun taken => taken) run fresh made names active
  have only (x : Option String) (member : (⟨.redis (.get (Dedup.key repo sha)),
    .ok x⟩ : Interaction calls) ∈
      (c'.threads i).past) : x = existing := by
    simp only [active, Thread.past, List.mem_cons, List.not_mem_nil, or_false] at member
    rcases member with claim | read
    · cases congrArg Interaction.call claim
    · cases read
      rfl
  cases existing with
  | none =>
      rw [skip_none] at answer
      cases answer
      constructor
      · rintro ⟨entry, -, same, -⟩
        contradiction
      · rintro ⟨value, member, -⟩
        cases only _ member
  | some value =>
      have read : (⟨.redis (.get (Dedup.key repo sha)), .ok (some value)⟩ : Interaction calls) ∈
          (c'.threads i).past := by
        simp [active, Thread.past]
      rcases truthful.gets i _ _ read with rfl | ⟨j, attached⟩
      · exact absurd (Returned.skipped.inj answer).2 (by decide)
      obtain ⟨repo', sha', id, tied⟩ := truthful.tied j _ _ attached
      obtain ⟨entry, there, same, is⟩ := tied.row
      rw [tied.value, skip_id] at answer
      cases answer
      constructor
      · rintro ⟨entry', there', same', is'⟩
        refine ⟨value, read, fun l payload' made' attached' => ?_⟩
        obtain ⟨repo'', sha'', id', tied'⟩ := truthful.tied l _ _ attached'
        obtain ⟨entry'', there'', same'', is''⟩ := tied'.row
        have ids : id' = id := by
          rw [← Python.int_toString id', ← tied'.value, tied.value, Python.int_toString]
        cases Table.unique there' there'' (by rw [same'', ids, Option.some.inj same'])
        obtain ⟨rfl, rfl⟩ := Dedup.of_unique is' is''
        exact run_tied run made' tied'
      · rintro ⟨value', member, same⟩
        cases only _ member
        obtain ⟨payload', made'⟩ := run_made (fun taken => taken) run fresh attached.present
        have source := (same j payload' made' attached).symm.trans (run_tied run made' tied)
        obtain ⟨rfl, rfl⟩ := Prod.mk.inj (Option.some.inj source)
        exact ⟨entry, there, by rw [‹entry.id = id›], is⟩

/-- A second call while the workflow of the first stands in the slot. -/
theorem duplicate_told_one : ∃ trace c', Transition.Run
      (Transition.Guarded (Step (.defaults "/root")) (Pipelines (.defaults "/root"))) Pool.initial
        trace c' ∧ (c'.threads ⟨2, 1, .pipeline⟩).Ended (.ok (.skipped (some 1) "duplicate_sha")) ∧
    ∃ value, (⟨.redis (.get (Dedup.key (.str "/srv/app") (.str "4c1d"))),
      .ok (some value)⟩ : Interaction calls) ∈
      (c'.threads ⟨2, 1, .pipeline⟩).past := by
  let k := Dedup.key (.str "/srv/app") (.str "4c1d")
  have held : ((Redis.empty.set k Dedup.pending (3600 * second)).set k "1" (3600 * second)).live 0
      k = some "1" :=
    Redis.live_set (by decide)
  obtain ⟨_, -, first⟩ :=
    run_entry (run_start (.defaults "/root") (Pipelines (.defaults "/root")) Pool.initial)
    ⟨1, 1, .pipeline⟩ (.commitPipeline samplePayload)
    (attachScript "4c1d" 0 1) (plays_attach rfl) rfl rfl rfl
    (fun _ => pipelines_spawn _ rfl) fun _ _ _ _ _ => pipelines_other nofun
  obtain ⟨_, -, both⟩ := run_entry first ⟨2, 1, .pipeline⟩ (.commitPipeline samplePayload)
    (refusedScript (.str "/srv/app") (.str "4c1d") "1") (plays_refused held) rfl rfl rfl
    (fun _ => pipelines_spawn _ rfl) fun _ _ _ _ _ => pipelines_other nofun
  have names : commitOf samplePayload = some (.str "/srv/app", .str "4c1d") := rfl
  obtain ⟨value, read, -⟩ := (duplicate_told fresh_initial (fun _ => rfl) both
      (List.mem_append_right _ List.mem_cons_self) names ⟨_, rfl⟩).mp
    ⟨_, List.mem_singleton.mpr rfl, rfl, rfl, 0, [], rfl⟩
  exact ⟨_, _, both, ⟨_, rfl⟩, value, read⟩

/-- The claim that refused the call is over when the call reads it. -/
theorem duplicate_untold : ∃ trace c', Transition.Run
      (Transition.Guarded (Step (.defaults "/root")) (Pipelines (.defaults "/root"))) Pool.initial
        trace c' ∧ (c'.threads ⟨2, 1, .pipeline⟩).Ended (.ok (.skipped none "duplicate_sha")) := by
  let k := Dedup.key (.str "/srv/app") (.str "4c1d")
  have held : (Redis.empty.set k Dedup.pending (3600 * second)).live 0 k = some Dedup.pending :=
    Redis.live_set (by decide)
  have passed : (Redis.empty.set k Dedup.pending (3600 * second)).live (3600 * second) k = none :=
    Redis.live_over (by decide)
  obtain ⟨_, -, first⟩ :=
    run_entry (run_start (.defaults "/root") (Pipelines (.defaults "/root")) Pool.initial)
    ⟨1, 1, .pipeline⟩ (.commitPipeline samplePayload)
    (wonScript (.str "/srv/app") (.str "4c1d")) (plays_won rfl) rfl rfl rfl
    (fun _ => pipelines_spawn _ rfl) fun _ _ _ _ _ => pipelines_other nofun
  obtain ⟨_, -, refused⟩ := run_entry first ⟨2, 1, .pipeline⟩ (.commitPipeline samplePayload)
    [⟨.redis (.setNx k Dedup.pending 3600), .ok false⟩]
    (.call ⟨_, RedisCommand.setNx_taken held (by decide), rfl⟩ (.stop _ _))
    rfl rfl rfl
    (fun _ => pipelines_spawn _ rfl) fun _ _ _ _ _ => pipelines_other nofun
  have later := run_idles refused (3600 * second) (by decide) fun _ _ => pipelines_other nofun
  have read := run_call (refused.trans later) ⟨2, 1, .pipeline⟩ ⟨.redis (.get k), .ok none⟩ rfl
    ⟨_, congrArg (fun x => Except.ok (x, _)) passed, rfl⟩ fun _ => pipelines_other nofun
  exact ⟨_, _, read, ⟨_, rfl⟩⟩

end WiseOrder.CommitPipeline
