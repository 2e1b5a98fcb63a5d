import WiseOrder.Queues.SlotOwner

/-! How long a claim lives. A call that attaches its workflow sets a new end, a full
lifetime from then on, so that the claim ends in time only if that happens at once. -/
namespace WiseOrder.Dedup
open Coroutine Coroutine.Program Relational
variable {s : Settings} {i : CallId} {c c' : Pool} {e : RunEvent} {k : String}
    {trace past : List RunEvent} {t : Time}
  {post : CallId → Post calls OwnRows Returned}

/-- The time of a claim that was won, or may have been: its reply did not come back. -/
def opens (k : String) : RunEvent → Option Time
  | .call _ ⟨.redis (.setNx key _ _), .ok won⟩ before =>
      have won : Bool := won
      if won && key = k then some before.clock else none
  | .call _ ⟨.redis (.setNx key _ _), .error _⟩ before =>
      if key = k then some before.clock else none
  | _ => none

/-- When the slot was opened last. -/
def opening (k : String) (trace : List RunEvent) : Option Time :=
  (trace.filterMap (opens k)).getLast?

/-- A call attaches at the very time at which it won the claim. -/
def AtOnce (k : String) (past : List RunEvent) (e : RunEvent) : Prop :=
  ∀ i value ex reply w, e = .call i ⟨.redis (.setEx k value ex), reply⟩ w →
    (i, w.clock) ∈ past.filterMap (claimed k)

theorem opens_claimed (won : claimed k e = some (i, t)) : opens k e = some t := by
  unfold claimed at won
  split at won
  · simp only [opens]
    dsimp only at won
    split at won
    · rename_i here
      cases won
      exact if_pos here
    · contradiction
  · contradiction

theorem opens_some (opened : opens k e = some t) : ∃ i x w, e = .call i x w ∧ t = w.clock := by
  unfold opens at opened
  split at opened
  · dsimp only at opened
    split at opened
    · cases opened
      exact ⟨_, _, _, rfl, rfl⟩
    · contradiction
  · split at opened
    · cases opened
      exact ⟨_, _, _, rfl, rfl⟩
    · contradiction
  · contradiction

theorem opens_clock (step : Step s c e c') (opened : opens k e = some t) : t = c.world.clock := by
  obtain ⟨i, x, w, rfl, rfl⟩ := opens_some opened
  cases step
  rfl

theorem opening_snoc : opening k (past ++ [e]) = (opens k e).or (opening k past) := by
  cases opened : opens k e <;> simp [opening, List.filterMap_append, opened]

/-- The slot was opened, never after now, and it ends a lifetime after that or before. -/
structure Bounded (s : Settings) (k : String) (past : List RunEvent) (c : Pool) : Prop where
  first : ∀ t ∈ past.filterMap (opens k),
    ∃ last, opening k past = some last ∧ t ≤ last ∧ last ≤ c.world.clock
  ends : ∀ slot, c.world.redis.slots k = some slot →
    ∃ last, opening k past = some last ∧ slot.expires ≤ last + s.dedupTtlSeconds * second

theorem Bounded.next (bounded : Bounded s k past c) (step : Step s c e c') :
    ∀ t ∈ (past ++ [e]).filterMap (opens k),
      ∃ last, opening k (past ++ [e]) = some last ∧ t ≤ last ∧ last ≤ c'.world.clock := by
  intro t member
  have later := step_clock step
  rw [opening_snoc]
  cases opened : opens k e with
  | none =>
      rw [List.filterMap_append, List.filterMap_cons_none opened,
        List.filterMap_nil, List.append_nil] at member
      obtain ⟨last, same, before, after⟩ := bounded.first t member
      exact ⟨last, same, before, Int.le_trans after later⟩
  | some now =>
      have here := opens_clock step opened
      refine ⟨now, rfl, ?_, here ▸ later⟩
      rw [List.filterMap_append, List.filterMap_cons_some opened] at member
      rcases List.mem_append.mp member with old | new
      · obtain ⟨last, -, before, after⟩ := bounded.first t old
        rw [here]
        exact Int.le_trans before after
      · obtain rfl := List.mem_singleton.mp new
        exact Int.le_refl _

theorem opens_setNx {reply : Except PyException Bool} {value : String} {ex : Int} {w : World}
    (answered : reply ≠ .ok false) : opens k (.call i ⟨.redis (.setNx k value ex), reply⟩ w) =
      some w.clock := by
  cases reply with
  | ok won =>
      cases won with
      | true => simp [opens]
      | false => exact absurd rfl answered
  | error raised => simp [opens]

theorem step_bounded (obeys : c.Obeys (protocol s) post view) (step : Step s c e c')
    (bounded : Bounded s k past c) (atOnce : AtOnce k past e) : Bounded s k (past ++ [e]) c' := by
  refine ⟨bounded.next step, fun slot there => ?_⟩
  cases step_slot (k := k) obeys step with
  | kept slots later idle =>
      obtain ⟨last, same, before⟩ := bounded.ends slot (slots.symm.trans there)
      rw [opening_snoc]
      cases opened : opens k e with
      | none => exact ⟨last, same, before⟩
      | some now =>
          have here := opens_clock step opened
          obtain ⟨last', same', -, after⟩ := bounded.first last (List.mem_of_getLast? same)
          cases same.symm.trans same'
          exact ⟨now, rfl, Int.le_trans before (Int.add_le_add_right (here ▸ after) _)⟩
  | opened event answered label free clock written =>
      cases written.symm.trans there
      subst event
      rw [opening_snoc, opens_setNx answered]
      exact ⟨_, rfl, Int.le_refl _⟩
  | @attached i repo sha id reply event won same inserted clock written =>
      cases written.symm.trans there
      subst event
      obtain ⟨x, member, claim⟩ := List.mem_filterMap.mp (atOnce i _ _ _ _ rfl)
      obtain ⟨last, same, before, -⟩ := bounded.first c.world.clock
        (List.mem_filterMap.mpr ⟨x, member, opens_claimed claim⟩)
      rw [opening_snoc]
      exact ⟨last, same, Int.add_le_add_right before _⟩
  | dropped event clock erased =>
      rw [erased] at there
      contradiction

theorem run_bounded (fresh : Fresh c) (unset : c.world.redis.slots k = none)
    (run : Transition.Run (Transition.Guarded (Step s) Calm) c trace c')
    (atOnce : Transition.Always (AtOnce k) trace) : Bounded s k trace c' := by
  have kept := run.traced (P := fun past d => Sound s d ∧
    (Transition.Always (AtOnce k) past → Bounded s k past d))
    ⟨fresh.sound, fun _ => ⟨fun t member => absurd member List.not_mem_nil,
      fun slot there => by simp [unset] at there⟩⟩ ?_
  · exact kept.2 atOnce
  · intro past d e u _ ⟨sound, before⟩ ⟨taken, calm⟩
    exact ⟨step_sound_calm sound taken calm,
      fun always => step_bounded sound.obeys taken (before always.init) always.last⟩

/-- As long as every call attaches at once, a claim is gone a lifetime after it was won, unless the
slot was opened anew. -/
theorem claim_gone (fresh : Fresh c) (unset : c.world.redis.slots k = none)
    (run : Transition.Run (Transition.Guarded (Step s) Calm) c trace c')
    (atOnce : Transition.Always (AtOnce k) trace) (before : List RunEvent) {after : List RunEvent}
    {claim : RunEvent} (split : trace = before ++ claim :: after)
    (won : claimed k claim = some (i, t)) (alone : ∀ e ∈ after, opens k e = none)
    (passed : t + s.dedupTtlSeconds * second ≤ c'.world.clock) :
    c'.world.redis.live c'.world.clock k = none := by
  subst split
  have bounded := run_bounded fresh unset run atOnce
  have last : opening k (before ++ claim :: after) = some t := by
    have quiet : after.filterMap (opens k) = [] := List.filterMap_eq_nil_iff.mpr alone
    simp [opening, List.filterMap_append, opens_claimed won, quiet]
  by_contra live
  obtain ⟨value, live⟩ := Option.ne_none_iff_exists'.mp live
  obtain ⟨slot, there, -, young⟩ := live_slot live
  obtain ⟨t', same, ends⟩ := bounded.ends slot there
  cases last.symm.trans same
  exact absurd (Int.lt_of_lt_of_le young ends) (Int.not_lt.mpr passed)

theorem atOnce_other
    (other : ¬ ∃ i value ex reply w, e = .call i ⟨.redis (.setEx k value ex), reply⟩ w) :
    AtOnce k past e := fun i value ex reply w same => absurd ⟨i, value, ex, reply, w, same⟩ other

/-- A call that claims and attaches at once, an hour later. -/
theorem claim_gone_attached :
    ∃ trace c', Transition.Run (Transition.Guarded (Step (.defaults "/root")) Calm)
      Pool.initial trace c' ∧ c'.world.clock = 3600 * second ∧
    c'.world.redis.live c'.world.clock (key (.str "/srv/app") (.str "4c1d")) = none := by
  obtain ⟨won, dated, threads, claim, active, -⟩ := run_claim
  have attached := run_call claim firstCall attached active
    ⟨_, rfl, rfl⟩ (calm_call (by simp [attached]))
  have later := attached.trans (run_idles attached (3600 * second) (by decide) calm_drift)
  refine ⟨_, _, later, rfl, claim_gone fresh_initial rfl later ?_ [_] rfl claimed_won ?_
    (Int.le_of_eq (Int.zero_add _))⟩
  · refine Transition.always_snoc (Transition.always_snoc
      (Transition.always_of fun e member past => atOnce_other (claimEvents_plain member))
        ?_) (atOnce_other (by simp))
    intro i value ex reply w same
    cases same
    exact List.mem_filterMap.mpr ⟨_,
      List.mem_append_left _ (List.mem_append_left _ (List.mem_append_right _
      (List.mem_singleton.mpr rfl))), claimed_won⟩
  · simp [opens, Dedup.attached]

/-- A call that attaches ten seconds after it claimed has the slot still when its hour is over. -/
theorem claim_extended :
    ∃ before claim after c', Transition.Run (Transition.Guarded (Step (.defaults "/root")) Calm)
      Pool.initial (before ++ claim :: after) c' ∧
    claimed (key (.str "/srv/app") (.str "4c1d")) claim = some (⟨1, 1, .pipeline⟩, 0) ∧
    (∀ e ∈ after, opens (key (.str "/srv/app") (.str "4c1d")) e = none) ∧
    c'.world.clock = 3600 * second ∧ c'.world.redis.live c'.world.clock
    (key (.str "/srv/app") (.str "4c1d")) = some "1" := by
  obtain ⟨won, dated, threads, claim, active, -⟩ := run_claim
  have waited := claim.trans (run_idles claim (10 * second) (by decide) calm_drift)
  have attached := run_call waited firstCall attached active
    ⟨_, rfl, rfl⟩ (calm_call (by simp [attached]))
  have later := attached.trans (run_idles attached (3600 * second) (by decide) calm_drift)
  refine ⟨[_], _, _, _, later, claimed_won, ?_, rfl,
    Redis.live_set (Int.lt_add_of_pos_left _ (by decide))⟩
  simp [opens, Dedup.attached]

end WiseOrder.Dedup
