import WiseOrder.Queues.Slot

/-! Who the slot of a commit belongs to, and for how long. A call that attaches its
workflow does not look at what the slot holds, so both hold only as far as the
timing of these writes allows. -/
namespace WiseOrder.Dedup
open Coroutine Coroutine.Program Relational
variable {s : Settings} {i : CallId} {c c' : Pool} {e : RunEvent} {k : String}
    {trace past : List RunEvent} {t : Time} {value : String}
  {post : CallId → Post calls OwnRows Returned}

/-- No workflow is taken from its call. -/
def Calm (c : Pool) (e : RunEvent) (c' : Pool) : Prop := ¬ Reaps c e c'

/-- The call that won the claim last. -/
def winner (k : String) (trace : List RunEvent) : Option (CallId × Time) :=
  (trace.filterMap (claimed k)).getLast?

def standOn (k : String) (claims : List (CallId × Time)) (e : RunEvent) : List (CallId × Time) :=
  match e with
  | .call _ ⟨.redis (.delete key), _⟩ _ => if key = k then [] else claims
  | _ => claims ++ (claimed k e).toList

/-- The claims that were won since the slot was dropped last. -/
def standing (k : String) (trace : List RunEvent) : List (CallId × Time) :=
  trace.foldl (standOn k) []

theorem standing_snoc : standing k (past ++ [e]) = standOn k (standing k past) e := by
  rw [standing, List.foldl_append]
  rfl

theorem standing_suffix (k : String) (trace : List RunEvent) :
    standing k trace <:+ trace.filterMap (claimed k) := by
  induction trace using List.reverseRecOn with
  | nil => exact List.suffix_refl _
  | append_singleton past e ih =>
      rw [standing_snoc, List.filterMap_append]
      have single : [e].filterMap (claimed k) = (claimed k e).toList := by
        cases won : claimed k e <;> simp [won]
      rw [single]
      obtain ⟨front, same⟩ := ih
      unfold standOn
      split
      · split
        · exact List.nil_suffix
        · exact ⟨front, by simpa [claimed] using same⟩
      · exact ⟨front, by rw [← same, List.append_assoc]⟩

/-- The last of the standing claims is the one that was won last. -/
theorem winner_standing {x : CallId × Time} (last : (standing k trace).getLast? = some x) :
    winner k trace = some x := by
  obtain ⟨front, same⟩ := standing_suffix k trace
  rw [winner, ← same, List.getLast?_append, last]
  rfl

/-- The slot outlives every claim that stands, and all but the last of these are over. -/
structure Stands (s : Settings) (k : String) (past : List RunEvent) (c : Pool) : Prop where
  since : ∀ x ∈ standing k past, x.2 ≤ c.world.clock
  held : ∀ x ∈ standing k past, ∃ slot, c.world.redis.slots k = some slot ∧
    x.2 + s.dedupTtlSeconds * second ≤ slot.expires
  passed : ∀ x ∈ (standing k past).dropLast, x.2 + s.dedupTtlSeconds * second ≤ c.world.clock

theorem Stands.empty (none : standing k past = []) : Stands s k past c := by
  refine ⟨?_, ?_, ?_⟩ <;> simp [none]

theorem live_some {slot : Slot} {w : World} (there : w.redis.slots k = some slot)
    (before : w.clock < slot.expires) : w.redis.live w.clock k = some slot.value := by
  simp [Redis.live, there, before]

theorem live_none {slot : Slot} {w : World} (there : w.redis.slots k = some slot)
    (free : w.redis.live w.clock k = none) : slot.expires ≤ w.clock := by
  by_contra before
  rw [live_some there (Int.not_le.mp before)] at free
  contradiction

theorem live_slot {w : World} {v : String} (live : w.redis.live w.clock k = some v) :
    ∃ slot, w.redis.slots k = some slot ∧ slot.value = v ∧ w.clock < slot.expires := by
  unfold Redis.live at live
  cases there : w.redis.slots k with
  | none => simp [there] at live
  | some slot =>
      by_cases before : w.clock < slot.expires
      · exact ⟨slot, rfl, by simpa [there, before] using live, before⟩
      · simp [there, before] at live

theorem standOn_kept {claims : List (CallId × Time)} (idle : claimed k e = none) :
    standOn k claims e = claims ∨ standOn k claims e = [] := by
  unfold standOn
  split
  · split
    · exact .inr rfl
    · exact .inl rfl
  · exact .inl (by rw [idle, Option.toList_none, List.append_nil])

theorem standOn_claimed {claims : List (CallId × Time)} {x : CallId × Time}
    (won : claimed k e = some x) : standOn k claims e = claims ++ [x] := by
  unfold standOn
  split
  · contradiction
  · rw [won, Option.toList_some]

/-- A step that wins no claim leaves them standing, or drops them all. -/
theorem Stands.kept (stands : Stands s k past c) (idle : claimed k e = none)
    (later : c.world.clock ≤ c'.world.clock)
    (slot : ∀ x ∈ standing k past, ∃ slot, c'.world.redis.slots k = some slot ∧
      x.2 + s.dedupTtlSeconds * second ≤ slot.expires) : Stands s k (past ++ [e]) c' := by
  rcases standOn_kept idle with same | none
  · have same : standing k (past ++ [e]) = standing k past := standing_snoc.trans same
    refine ⟨fun x member => ?_, fun x member => ?_, fun x member => ?_⟩ <;> rw [same] at member
    · exact Int.le_trans (stands.since x member) later
    · exact slot x member
    · exact Int.le_trans (stands.passed x member) later
  · exact .empty (standing_snoc.trans none)

theorem step_stands (obeys : c.Obeys (protocol s) post view) (step : Step s c e c')
    (stands : Stands s k past c) : Stands s k (past ++ [e]) c' := by
  have renewed {value : String}
      (written : c'.world.redis.slots k = some ⟨value, c.world.clock +
        s.dedupTtlSeconds * second⟩) :
      ∀ x ∈ standing k past, ∃ slot, c'.world.redis.slots k = some slot ∧
        x.2 + s.dedupTtlSeconds * second ≤ slot.expires :=
    fun x member => ⟨_, written, Int.add_le_add_right (stands.since x member) _⟩
  cases step_slot (k := k) obeys step with
  | kept slots later idle =>
      refine stands.kept idle later fun x member => ?_
      rw [slots]
      exact stands.held x member
  | @opened i reply event answered label free clock written =>
      rcases label with won | lost
      · have grown : standing k (past ++ [e]) = standing k past ++ [(i, c.world.clock)] :=
          standing_snoc.trans (standOn_claimed won)
        refine ⟨fun x member => ?_, fun x member => ?_, fun x member => ?_⟩ <;> rw [grown] at member
        · rw [clock]
          rcases List.mem_append.mp member with old | new
          · exact stands.since x old
          · obtain rfl := List.mem_singleton.mp new
            exact Int.le_refl _
        · rcases List.mem_append.mp member with old | new
          · exact renewed written x old
          · rw [List.mem_singleton.mp new]
            exact ⟨_, written, Int.le_refl _⟩
        · rw [List.dropLast_concat] at member
          obtain ⟨slot, there, after⟩ := stands.held x member
          rw [clock]
          exact Int.le_trans after (live_none there free)
      · exact stands.kept lost (Int.le_of_eq clock.symm) (renewed written)
  | attached event won same inserted clock written =>
      subst event
      exact stands.kept rfl (Int.le_of_eq clock.symm) (renewed written)
  | dropped event clock erased =>
      subst event
      exact .empty (standing_snoc.trans (by simp [standOn]))

/-! ### Whose the slot is -/

/-- A call attaches less than a lifetime after it won the claim, and nobody dropped the slot in
between. -/
def Prompt (s : Settings) (k : String) (past : List RunEvent) (e : RunEvent) : Prop :=
  ∀ i value ex reply w, e = .call i ⟨.redis (.setEx k value ex), reply⟩ w →
    ∃ t, (i, t) ∈ standing k past ∧ w.clock < t + s.dedupTtlSeconds * second

/-- A value that may stand in the slot: none yet, or the id of the workflow of the call that won
last. -/
def Belongs (k : String) (past : List RunEvent) (c : Pool) (value : String) : Prop :=
  value = pending ∨ ∃ i t e, winner k past = some (i, t) ∧ e ∈ c.world.db.workflows.entries ∧
    e.owner = i ∧
    value = toString e.id

theorem winner_won {x : CallId × Time} (won : claimed k e = some x) :
    winner k (past ++ [e]) = some x := by
  simp [winner, List.filterMap_append, won]

theorem winner_idle (idle : claimed k e = none) : winner k (past ++ [e]) = winner k past := by
  simp [winner, List.filterMap_append, idle]

/-- A claim that is not over is the last of those that stand. -/
theorem Stands.last (stands : Stands s k past c) (member : (i, t) ∈ standing k past)
    (young : c.world.clock < t + s.dedupTtlSeconds * second) : winner k past = some (i, t) := by
  apply winner_standing
  rcases List.eq_nil_or_concat (standing k past) with none | ⟨front, x, same⟩
  · rw [none] at member
    contradiction
  · rw [List.concat_eq_append] at same
    rw [same] at member ⊢
    rcases List.mem_append.mp member with old | new
    · have passed := stands.passed (i, t) (by rwa [same, List.dropLast_concat])
      exact absurd young (Int.not_lt.mpr passed)
    · rw [List.mem_singleton.mp new]
      exact List.getLast?_concat

theorem Belongs.step (belongs : Belongs k past c value) (idle : claimed k e = none)
    (advances : c.world.db.Advances c'.world.db) : Belongs k (past ++ [e]) c' value := by
  rcases belongs with rfl | ⟨i, t, entry, won, member, mine, rfl⟩
  · exact .inl rfl
  · obtain ⟨row, -, there⟩ := advances entry member
    exact .inr ⟨i, t, _, (winner_idle idle).trans won, there, mine, rfl⟩

theorem step_belongs (obeys : c.Obeys (protocol s) post view) (step : Step s c e c')
    (stands : Stands s k past c) (prompt : Prompt s k past e)
    (belongs : ∀ slot, c.world.redis.slots k = some slot → Belongs k past c slot.value) :
    ∀ slot, c'.world.redis.slots k = some slot → Belongs k (past ++ [e]) c' slot.value := by
  intro slot there
  have advances := step_advances obeys step
  cases step_slot (k := k) obeys step with
  | kept slots later idle => exact (belongs slot (slots.symm.trans there)).step idle advances
  | opened event answered label free clock written =>
      cases written.symm.trans there
      exact .inl rfl
  | @attached i repo sha id reply event won same inserted clock written =>
      cases written.symm.trans there
      subst event
      obtain ⟨t, member, young⟩ := prompt i _ _ _ _ rfl
      obtain ⟨w, row, -⟩ := inserted.row
      have entry : (⟨id, i, w⟩ : Relational.Entry CallId Workflow) ∈ c.world.db.workflows.entries :=
        Table.mem_owned.mp row
      have now : Belongs k past c (toString id) :=
        .inr ⟨i, t, _, stands.last member young, entry, rfl, rfl⟩
      exact now.step rfl advances
  | dropped event clock erased =>
      rw [erased] at there
      contradiction

theorem run_stands (fresh : Fresh c)
    (run : Transition.Run (Transition.Guarded (Step s) Calm) c trace c') :
    Sound s c' ∧ Stands s k trace c' := by
  refine run.traced (P := fun past d => Sound s d ∧ Stands s k past d) ⟨fresh.sound, .empty rfl⟩ ?_
  intro past d e u _ ⟨sound, stands⟩ ⟨taken, calm⟩
  exact ⟨step_sound_calm sound taken calm, step_stands sound.obeys taken stands⟩

/-- As long as every call attaches promptly, the slot belongs to the call that won last, and
it is there and that call's own whenever a call attaches. -/
theorem slot_owned (fresh : Fresh c) (unset : c.world.redis.slots k = none)
    (run : Transition.Run (Transition.Guarded (Step s) Calm) c trace c')
    (prompt : Transition.Always (Prompt s k) trace) :
    (∀ value, c'.world.redis.live c'.world.clock k = some value → Belongs k trace c' value) ∧
    ∀ past i value ex reply w rest, trace = past ++ .call i ⟨.redis (.setEx k value ex), reply⟩ w ::
      rest →
      (∃ t, winner k past = some (i, t)) ∧ w.redis.live w.clock k ≠ none := by
  constructor
  · have owned := run.traced (P := fun past d => Transition.Always (Prompt s k) past →
      ∀ slot, d.world.redis.slots k = some slot → Belongs k past d slot.value)
      (fun _ slot there => by simp [unset] at there) ?_
    · intro value live
      obtain ⟨slot, there, rfl, -⟩ := live_slot live
      exact owned prompt slot there
    · intro past d e u earlier before taken always
      obtain ⟨sound, stands⟩ := run_stands (k := k) fresh earlier
      exact step_belongs sound.obeys taken.1 stands always.last (before always.init)
  · rintro past i value ex reply w rest rfl
    obtain ⟨t, member, young⟩ := prompt past _ rest rfl i value ex reply w rfl
    obtain ⟨d, d', before, taken, -⟩ := run.split_at
    obtain ⟨sound, stands⟩ := run_stands (k := k) fresh before
    have here : d.world = w := by
      cases taken.1
      rfl
    subst here
    refine ⟨⟨t, stands.last member young⟩, ?_⟩
    obtain ⟨slot, there, after⟩ := stands.held _ member
    rw [live_some there (Int.lt_of_lt_of_le young after)]
    simp

theorem claimed_won {value : String} {ex : Int} {w : World} :
    claimed k (.call i ⟨.redis (.setNx k value ex), .ok true⟩ w) = some
    (i, w.clock) := by simp [claimed]

theorem standing_won {x : CallId × Time} (won : claimed k e = some x) :
    x ∈ standing k (past ++ [e]) := by
  rw [standing_snoc, standOn_claimed won]
  exact List.mem_append_right _ (List.mem_singleton.mpr rfl)

theorem standing_next {x : CallId × Time} (member : x ∈ standing k past) (kept : ¬ Releases e) :
    x ∈ standing k (past ++ [e]) := by
  rw [standing_snoc]
  unfold standOn
  split
  · exact absurd ⟨_, _, _, _, rfl⟩ kept
  · exact List.mem_append_left _ member

theorem prompt_other
    (other : ¬ ∃ i value ex reply w, e = .call i ⟨.redis (.setEx k value ex), reply⟩ w) :
    Prompt s k past e := fun i value ex reply w same => absurd ⟨i, value, ex, reply, w, same⟩ other

theorem calm_call {x : Interaction calls} {w : World}
    (plain : ∀ cutoff marker, x.call ≠ .session (.reap cutoff marker))
    (c' : Pool) : Calm c (.call i x w) c' := by
  rintro ⟨-, j, cutoff, marker, n, w, same⟩
  cases same
  exact plain cutoff marker rfl

theorem calm_calls {script : History}
    (plain : ∀ x ∈ script, ∀ cutoff marker, x.call ≠ .session (.reap cutoff marker)) :
    ∀ c x before c', x ∈ script → Calm c (.call i x before) c' :=
  fun _ x _ c' member => calm_call (plain x member) c'

theorem calm_spawn (p : Async Returned) (c' : Pool) :
    Calm c (.spawn i p) c' := by simp [Calm, Reaps]

theorem calm_drift (c c' : Pool) : Calm c .drift c' := by simp [Calm, Reaps]

/-- The pipeline of the first process. -/
def firstCall : CallId := ⟨1, 1, .pipeline⟩

/-- The events of its claim. -/
def claimEvents (won dated : World) : List RunEvent :=
  [.spawn firstCall ((Entry.commitPipeline samplePayload).program (.defaults "/root"))] ++
    [.call firstCall ⟨.redis (.setNx (slotOf "4c1d") pending 3600), .ok true⟩ World.initial] ++
    [.call firstCall ⟨.now, .ok (0 : Time)⟩ won] ++
    [.call firstCall ⟨.session (.addWorkflow "commit_pipeline" CommitPipeline.taskChain
      [startedEntry "4c1d" 0]),
      .ok (1 : Nat)⟩ dated]

/-- Nothing is attached in it. -/
theorem claimEvents_plain {won dated : World} (member : e ∈ claimEvents won dated) :
    ¬ ∃ i value ex reply w, e = .call i ⟨.redis (.setEx k value ex), reply⟩ w := by
  simp only [claimEvents, List.mem_append, List.mem_singleton] at member
  rcases member with ((rfl | rfl) | rfl) | rfl <;> simp

/-- The first process claims its commit and inserts its workflow. -/
theorem run_claim : ∃ won dated threads,
    Transition.Run (Transition.Guarded (Step (.defaults "/root")) Calm) Pool.initial
    (claimEvents won dated)
      ⟨World.initial.claimed firstCall "4c1d", threads⟩ ∧
    threads firstCall = .active (claimScript "4c1d" 0 1) (do
      attachWorkflowId (.defaults "/root") (.str "/srv/app") (.str "4c1d") 1
      stepsOf "/root" "4c1d" 1) ∧
    ∀ i, i ≠ firstCall → threads i = .absent := by
  have spawned := run_spawn (run_start (.defaults "/root") Calm Pool.initial) firstCall
    (.commitPipeline samplePayload)
    rfl rfl rfl (calm_spawn _)
  have won := run_call spawned firstCall ⟨.redis (.setNx (slotOf "4c1d") pending 3600),
    .ok true⟩ rfl ⟨_, rfl, rfl⟩
    (calm_call (by simp))
  have dated := run_call won firstCall ⟨.now, .ok (0 : Time)⟩ rfl ⟨rfl, rfl⟩ (calm_call (by simp))
  have added := run_call dated firstCall
    ⟨.session (.addWorkflow "commit_pipeline" CommitPipeline.taskChain [startedEntry "4c1d" 0]),
      .ok (1 : Nat)⟩ rfl
    ⟨_, rfl, rfl⟩ (calm_call (by simp))
  refine ⟨_, _, _, added, rfl, fun i other => ?_⟩
  simp only [Function.update_of_ne other]

/-- It attaches its workflow. -/
def attached : Interaction calls := ⟨.redis (.setEx (slotOf "4c1d") "1" 3600), .ok ()⟩

/-- A call that claims and attaches at once. -/
theorem slot_owned_attached :
    ∃ trace c', Transition.Run (Transition.Guarded (Step (.defaults "/root")) Calm)
      Pool.initial trace c' ∧
    c'.world.redis.live c'.world.clock (key (.str "/srv/app") (.str "4c1d")) = some "1" ∧
    Belongs (key (.str "/srv/app") (.str "4c1d")) trace c' "1" := by
  obtain ⟨won, dated, threads, claim, active, -⟩ := run_claim
  have attached := run_call claim firstCall attached active
    ⟨_, rfl, rfl⟩ (calm_call (by simp [attached]))
  have held : Belongs (slotOf "4c1d") _ _ "1" := (slot_owned fresh_initial rfl attached ?_).1 "1" ?_
  · exact ⟨_, _, attached, Redis.live_set (Int.lt_add_of_pos_right _ (by decide)), held⟩
  · refine Transition.always_snoc (Transition.always_of fun e member past =>
      prompt_other (claimEvents_plain member)) ?_
    intro i value ex reply w same
    cases same
    refine ⟨0, ?_, by decide⟩
    exact standing_next (standing_next (standing_won claimed_won) (by simp [Releases]))
      (by simp [Releases])
  · exact Redis.live_set (Int.lt_add_of_pos_right _ (by decide))

/-- A call attaches an hour after it claimed, when another call has the slot. -/
theorem slot_overwritten :
    ∃ trace c', Transition.Run (Transition.Guarded (Step (.defaults "/root")) Calm)
      Pool.initial trace c' ∧
    c'.world.redis.live c'.world.clock (key (.str "/srv/app") (.str "4c1d")) = some "1" ∧
    ¬ Belongs (key (.str "/srv/app") (.str "4c1d")) trace c' "1" := by
  obtain ⟨first, dated, threads, claim, active, others⟩ := run_claim
  have later := run_idles claim (3600 * second) (by decide) calm_drift
  have called := run_spawn (claim.trans later) ⟨2, 1, .pipeline⟩ (.commitPipeline samplePayload)
    rfl (others _ (by decide)) rfl
    (calm_spawn _)
  have free : (Redis.empty.set (slotOf "4c1d") pending (3600 * second)).live
      (3600 * second) (slotOf "4c1d") = none :=
    Redis.live_over (by decide)
  have won := run_call called ⟨2, 1, .pipeline⟩ ⟨.redis (.setNx (slotOf "4c1d") pending 3600),
    .ok true⟩ (Function.update_self ..)
    ⟨_, RedisCommand.setNx_free free (by decide), rfl⟩ (calm_call (by simp))
  have stale := run_call won firstCall attached
    (((Function.update_of_ne (by decide) _ _).trans (Function.update_of_ne (by decide) _ _)).trans
      active)
    ⟨_, rfl, rfl⟩ (calm_call (by simp [attached]))
  refine ⟨_, _, stale, Redis.live_set (Int.lt_add_of_pos_right _ (by decide)), ?_⟩
  rintro (none | ⟨i, t, e, last, member, mine, -⟩)
  · exact absurd none (by decide)
  · rw [winner_idle (by rfl)] at last
    obtain ⟨rfl, -⟩ := Prod.mk.inj (Option.some.inj ((winner_won claimed_won).symm.trans last))
    rw [List.mem_singleton.mp member] at mine
    have owner : firstCall = ⟨2, 1, .pipeline⟩ := mine
    exact absurd owner (by decide)

end WiseOrder.Dedup
