import WiseOrder.Queues.DedupSafety
import WiseOrder.Queues.SlotLifetime

/-! How far a claim keeps other runs of a commit out. It lapses after its lifetime,
whether or not its run is still executing, so that two runs overlap only when the
older one has outlived it. -/
namespace WiseOrder.Dedup
open Coroutine Coroutine.Program Relational
variable {s : Settings} {i j : CallId} {c c' : Pool} {k : String} {trace : List RunEvent} {t : Time}

theorem claims_past (run : Transition.Run (Step s) c trace c') (claims : Claims trace i k t) :
    t ≤ c'.world.clock := by
  obtain ⟨x, before, member, claimed⟩ := claims
  obtain ⟨past, rest, rfl⟩ := List.append_of_mem member
  obtain ⟨d, d', -, taken, after⟩ := run.split_at
  rw [claimTime_eq] at claimed
  obtain ⟨⟨i, t⟩, won, rfl⟩ := Option.map_eq_some_iff.mp claimed
  have here : t = d.world.clock := opens_clock taken (opens_claimed won)
  have later : d'.world.clock ≤ c'.world.clock :=
    after.relation (R := fun d d' => d.world.clock ≤ d'.world.clock)
      (fun _ => Int.le_refl _) Int.le_trans step_clock
  exact here ▸ Int.le_trans (step_clock taken) later

/-- Two calls that went past their claims on a commit, in any state: one of them claimed when the
other's lifetime was over. -/
theorem exclusion (fresh : Fresh c)
    (run : Transition.Run (Transition.Guarded (Step s) Unreleased) c trace c')
    (different : i ≠ j) (won : Won (c'.threads i).past k) (won' : Won (c'.threads j).past k) :
    ∃ t t', Claims trace i k t ∧ Claims trace j k t' ∧
      ((t + s.dedupTtlSeconds * second ≤ t' ∧ t' ≤ c'.world.clock) ∨
        (t' + s.dedupTtlSeconds * second ≤ t ∧ t ≤ c'.world.clock)) := by
  obtain ⟨t, claims⟩ := won_claims fresh run won
  obtain ⟨t', claims'⟩ := won_claims fresh run won'
  refine ⟨t, t', claims, claims', ?_⟩
  by_contra near
  obtain ⟨near, near'⟩ := not_or.mp near
  have before : t' < t + s.dedupTtlSeconds * second :=
    Int.not_le.mp fun apart => near ⟨apart, claims_past run.unguard claims'⟩
  have before' : t < t' + s.dedupTtlSeconds * second :=
    Int.not_le.mp fun apart => near' ⟨apart, claims_past run.unguard claims⟩
  exact different (claims_same fresh run claims claims' before' before)

/-- A call claims, and another an hour later. -/
theorem run_overlap : ∃ trace c',
    Transition.Run (Transition.Guarded (Step (.defaults "/root")) Unreleased)
      Pool.initial trace c' ∧ c'.world.clock = 3600 * second ∧
    ∀ i, i = ⟨1, 1, .pipeline⟩ ∨ i = ⟨2, 1, .pipeline⟩ → (c'.threads i).Live ∧
      Won (c'.threads i).past (key (.str "/srv/app") (.str "4c1d")) := by
  let k := key (.str "/srv/app") (.str "4c1d")
  obtain ⟨_, -, first⟩ := run_entry (run_start (.defaults "/root") Unreleased Pool.initial)
    ⟨1, 1, .pipeline⟩ (.commitPipeline samplePayload) (wonScript (.str "/srv/app") (.str "4c1d"))
    (plays_won rfl) rfl rfl rfl (fun _ => unreleased_spawn _ _)
    (unreleased_calls (by simp [wonScript]) (by simp [wonScript]))
  have later :=
    first.trans (run_idles first (3600 * second) (by decide)
    (by simp [Unreleased, Reaps, Releases]))
  have free : (Redis.empty.set k pending (3600 * second)).live (3600 * second) k = none :=
    Redis.live_over (by decide)
  obtain ⟨_, -, both⟩ := run_entry later ⟨2, 1, .pipeline⟩ (.commitPipeline samplePayload)
    (wonScript (.str "/srv/app") (.str "4c1d")) (plays_won free)
    rfl rfl rfl (fun _ => unreleased_spawn _ _)
    (unreleased_calls (by simp [wonScript]) (by simp [wonScript]))
  refine ⟨_, _, both, rfl, ?_⟩
  rintro i (rfl | rfl)
  · exact ⟨⟨_, _, rfl, trivial⟩, _, _, List.mem_singleton.mpr rfl⟩
  · exact ⟨⟨_, _, rfl, trivial⟩, _, _, List.mem_singleton.mpr rfl⟩

/-- Two calls for one commit are both executing past their claims. -/
theorem overlap : ∃ trace c' i j,
    Transition.Run (Transition.Guarded (Step (.defaults "/root")) Unreleased)
      Pool.initial trace c' ∧ i ≠ j ∧ (c'.threads i).Live ∧ (c'.threads j).Live ∧
    Won (c'.threads i).past (key (.str "/srv/app") (.str "4c1d")) ∧
    Won (c'.threads j).past (key (.str "/srv/app") (.str "4c1d")) := by
  obtain ⟨trace, c', run, -, both⟩ := run_overlap
  obtain ⟨live, won⟩ := both _ (.inl rfl)
  obtain ⟨live', won'⟩ := both _ (.inr rfl)
  exact ⟨trace, c', _, _, run, by decide, live, live', won, won'⟩

/-- They claimed an hour apart. -/
theorem exclusion_hour :
    ∃ trace c', Transition.Run (Transition.Guarded (Step (.defaults "/root")) Unreleased)
      Pool.initial trace c' ∧ c'.world.clock = 3600 * second ∧
    ∃ t t', Claims trace ⟨1, 1, .pipeline⟩ (key (.str "/srv/app") (.str "4c1d")) t ∧
      Claims trace ⟨2, 1, .pipeline⟩ (key (.str "/srv/app") (.str "4c1d")) t' ∧
      ((t + 3600 * second ≤ t' ∧ t' ≤ c'.world.clock) ∨
        (t' + 3600 * second ≤ t ∧ t ≤ c'.world.clock)) := by
  obtain ⟨trace, c', run, clock, both⟩ := run_overlap
  exact ⟨trace, c', run, clock,
    exclusion fresh_initial run (by decide) (both _ (.inl rfl)).2 (both _ (.inr rfl)).2⟩

end WiseOrder.Dedup
