import WiseOrder.Runtime.Shadow
import WiseOrder.Workflows.CommitRuns

/-! When a commit is refused. The slot of a commit says for its lifetime what was last written to
it, by whichever call and whatever has become of its workflow; a pipeline is skipped by what the
slot then says. -/
namespace WiseOrder.Dedup
open Coroutine Coroutine.Program
variable {s : Settings} {i : CallId} {c c' : Pool} {e : RunEvent} {k : String}
    {trace past : List RunEvent} {g : CallId → OwnRows}

/-- A command that raises has done nothing to the slot. -/
def Heard (k : String) (c : Pool) (e : RunEvent) (c' : Pool) : Prop :=
  ∀ i command error before, e = .call i ⟨.redis command, .error error⟩ before →
    c'.world.redis.slots k = c.world.redis.slots k

/-- The last write to a slot, after one more event. -/
def writeOn (k : String) (last : Option (Time × String)) : RunEvent → Option (Time × String)
  | .call _ ⟨.redis (.setNx key value _), .ok won⟩ before =>
      have won : Bool := won
      if won && key = k then some (before.clock, value) else last
  | .call _ ⟨.redis (.setEx key value _), .ok _⟩ before =>
      if key = k then some (before.clock, value) else last
  | .call _ ⟨.redis (.delete key), .ok _⟩ _ => if key = k then none else last
  | _ => last

/-- When a slot was last written, and what, unless it was dropped since. -/
def written (k : String) (trace : List RunEvent) : Option (Time × String) :=
  trace.foldl (writeOn k) none

theorem written_snoc : written k (past ++ [e]) = writeOn k (written k past) e := by
  simp [written]

/-- What a slot says: what was last written, for a lifetime. -/
def current (s : Settings) (k : String) (past : List RunEvent) (now : Time) : Option String :=
  match written k past with
  | some (t, value) => if now < t + s.dedupTtlSeconds * second then some value else none
  | none => none

/-- The slot is as it was last written. -/
def Remembers (s : Settings) (k : String) (past : List RunEvent) (c : Pool) : Prop :=
  c.world.redis.slots k = (written k past).map fun w => ⟨w.2, w.1 + s.dedupTtlSeconds * second⟩

theorem Remembers.live (remembers : Remembers s k past c) : c.world.redis.live c.world.clock k =
      current s k past c.world.clock := by
  unfold Redis.live current
  rw [remembers]
  cases written k past <;> rfl

theorem Remembers.kept (remembers : Remembers s k past c)
    (slots : c'.world.redis.slots k = c.world.redis.slots k)
    (idle : writeOn k (written k past) e = written k past) : Remembers s k (past ++ [e]) c' := by
  unfold Remembers
  rw [written_snoc, idle, slots, remembers]

theorem Remembers.wrote {value : String}
    (slots : c'.world.redis.slots k = some ⟨value, c.world.clock + s.dedupTtlSeconds * second⟩)
    (wrote : writeOn k (written k past) e = some (c.world.clock, value)) :
    Remembers s k (past ++ [e]) c' := by
  unfold Remembers
  rw [written_snoc, wrote, slots]
  rfl

/-- A command that does not write to the slot is not taken for one. -/
theorem writeOn_other {command : RedisCommand} {x : calls.Reply (.redis command)} {before : World}
    {last : Option (Time × String)} (other : ¬ command.Writes k) :
    writeOn k last (.call i ⟨.redis command, .ok x⟩ before) = last := by
  cases command with
  | setNx key value ex =>
      have different : key ≠ k := other
      exact if_neg fun both => different (of_decide_eq_true (Bool.and_eq_true_iff.mp both).2)
  | setEx key value ex => exact if_neg other
  | delete key => exact if_neg other
  | _ => rfl

theorem step_remembers (shadowed : Shadowed s c g) (step : Step s c e c') (heard : Heard k c e c')
    (remembers : Remembers s k past c) : Remembers s k (past ++ [e]) c' := by
  cases e with
  | spawn i p =>
      cases step
      exact remembers.kept rfl rfl
  | again i p =>
      cases step
      exact remembers.kept rfl rfl
  | drift =>
      cases step with
      | drift moved =>
          rcases moved with ⟨t, -, rfl⟩ | ⟨process, rfl⟩ <;> exact remembers.kept rfl rfl
  | crash dead =>
      cases step with
      | crash fell =>
          obtain ⟨process, -, rfl⟩ := fell
          exact remembers.kept rfl rfl
  | call i x before =>
      have allowed := step.allowed shadowed.obeys
      cases step with
      | @call _ _ call _ reply world awaiting performed =>
          change perform i call c.world reply world at performed
          have clock := (perform_frame performed).clock
          cases call with
          | redis command =>
              cases reply with
              | error error =>
                  refine remembers.kept (heard i command error _ rfl) ?_
                  cases command <;> rfl
              | ok x =>
                  obtain ⟨r, ran, rfl⟩ := performed
                  by_cases writes : command.Writes k
                  · rcases writes_allowed allowed writes with rfl | ⟨repo, sha, id, rfl, -⟩ | rfl
                    · rcases RedisCommand.run_setNx ran with ⟨rfl, -, rfl⟩ | ⟨rfl, -, rfl⟩
                      · exact .wrote (set_slots _ _ _ _) (if_pos (by simp))
                      · exact remembers.kept rfl rfl
                    · cases RedisCommand.run_setEx ran
                      exact .wrote (set_slots _ _ _ _) (if_pos rfl)
                    · cases (Prod.mk.inj (Except.ok.inj ran)).2
                      unfold Remembers
                      rw [written_snoc]
                      simp only [writeOn, if_true, Option.map_none]
                      exact Function.update_self _ _ _
                  · exact remembers.kept (RedisCommand.run_slots ran writes) (writeOn_other writes)
          | _ =>
              refine remembers.kept (perform_slots performed fun other same => by cases same) ?_
              cases reply <;> rfl

theorem run_remembers (fresh : Fresh c) (unset : c.world.redis.slots k = none)
    (run : Transition.Run (Transition.Guarded (Step s) (Heard k)) c trace c') :
    Remembers s k trace c' := by
  induction run with
  | refl =>
      unfold Remembers
      rw [unset]
      rfl
  | next earlier taken ih =>
      obtain ⟨g, shadowed⟩ := run_shadowed fresh earlier
      exact step_remembers shadowed taken.1 taken.2 ih

/-- A look at the slot tells what it says: a claim is won when it says nothing. -/
def Tells (s : Settings) (k : String) (past : List RunEvent) : RunEvent → Prop
  | .call _ ⟨.redis (.setNx key _ _), .ok won⟩ before =>
      key = k → won = (current s k past before.clock).isNone
  | .call _ ⟨.redis (.get key), .ok value⟩ before => key = k → value = current s k past before.clock
  | _ => True

theorem step_tells (step : Step s c e c') (remembers : Remembers s k past c) :
    Tells s k past e := by
  cases step with
  | @call i seen call onReply reply world awaiting performed =>
      change perform i call c.world reply world at performed
      cases call with
      | redis command =>
          cases reply with
          | error e => cases command <;> trivial
          | ok x =>
              obtain ⟨r, ran, rfl⟩ := performed
              cases command with
              | setNx key value ex =>
                  rintro rfl
                  dsimp only
                  rw [← remembers.live]
                  rcases RedisCommand.run_setNx ran with ⟨rfl, free, -⟩ | ⟨rfl, held, -⟩
                  · rw [free]
                    rfl
                  · cases there : c.world.redis.live c.world.clock key with
                    | none => exact absurd there held
                    | some value => rfl
              | get key =>
                  rintro rfl
                  dsimp only
                  rw [← remembers.live]
                  exact (Prod.mk.inj (Except.ok.inj ran)).1.symm
              | _ => trivial
      | _ => cases reply <;> trivial
  | _ => trivial

theorem run_tells (fresh : Fresh c) (unset : c.world.redis.slots k = none)
    (run : Transition.Run (Transition.Guarded (Step s) (Heard k)) c trace c') :
    Transition.Always (Tells s k) trace := by
  rintro past e rest rfl
  obtain ⟨t, t', before, taken, -⟩ := run.split_at
  exact step_tells taken.1 (run_remembers fresh unset before)

end WiseOrder.Dedup

namespace WiseOrder.CommitPipeline
open Coroutine Coroutine.Program Dedup
variable {s : Settings} {i : CallId} {c c' : Pool} {trace : List RunEvent} {payload repo sha : Json}
    {h : History} {r : Returned}

/-- What the claim was answered decides between a skip and a run. -/
def Decided (s : Settings) (repo sha : Json) (r : Returned) (h : History) : Prop :=
  (⟨.redis (.setNx (key repo sha) pending s.dedupTtlSeconds), .ok true⟩ ∈ h ∧
    ∃ id approvalId eng post, r = .commit id approvalId eng post) ∨
    ∃ existing, r = skip ⟨false, existing⟩ ∧
      h = [⟨.redis (.setNx (key repo sha) pending s.dedupTtlSeconds), .ok false⟩,
      ⟨.redis (.get (key repo sha)), .ok existing⟩]

theorem leads_runClaimed (subject author diff : Json) :
    (runClaimed s repo sha subject author diff).Leads
    (fun result _ => ∀ r, result = .ok r → ∃ id approvalId eng post,
      r = .commit id approvalId eng post) h := by
  have raises (e : PyException) (r : Returned) (same : Except.error e =
    Except.ok r) : ∃ id approvalId eng post,
      r = .commit id approvalId eng post := by cases same
  refine leads_bind leads_any (fun entry _ _ => ?_) fun e _ _ => raises e
  refine leads_bind leads_any (fun workflowId _ _ => ?_) fun e _ _ => raises e
  refine leads_bind leads_any (fun _ _ _ => ?_) fun e _ _ => raises e
  refine leads_bind leads_any (fun eng _ _ => ?_) fun e _ _ => raises e
  refine leads_bind leads_any (fun soc _ _ => ?_) fun e _ _ => raises e
  refine leads_bind leads_any (fun _ _ _ => ?_) fun e _ _ => raises e
  refine leads_bind leads_any (fun approvalId _ _ => ?_) fun e _ _ => raises e
  refine leads_bind leads_any (fun _ _ _ => ?_) fun e _ _ => raises e
  intro r same
  cases same
  exact ⟨workflowId, approvalId, eng, soc.post, rfl⟩

theorem leads_decided (names : commitOf payload = some (repo, sha)) :
    (runCommitPipeline s payload).Leads
    (fun result h => ∀ r, result = .ok r → Decided s repo sha r h) [] := by
  change Program.Answered (fun _ => True) _ _ _
  apply answered_ofExcept
  · intro e _ r same
    cases same
  · intro fields required
    have same : commitOf payload =
        some ((Json.lookup "repo" fields).getD .null, (Json.lookup "sha" fields).getD .null) := by
      simp only [commitOf, required]
    cases names.symm.trans same
    apply obeys_bind_iff.mpr
    apply obeys_bind_iff.mpr
    refine obeys_call trivial fun reply _ _ => ?_
    cases reply with
    | error e =>
        intro r same
        cases same
    | ok won =>
        cases won with
        | true =>
            change Program.Obeys _ _ (runClaimed s _ _ _ _ _) _ _
            refine Obeys.mono (Obeys.grows (leads_runClaimed _ _ _)) ?_
            rintro result h - ⟨commits, more, rfl⟩ r same
            exact .inl ⟨by simp, commits r same⟩
        | false =>
            apply obeys_bind_iff.mpr
            refine obeys_call trivial fun reply _ _ => ?_
            cases reply with
            | error e =>
                intro r same
                cases same
            | ok existing =>
                intro r same
                cases same
                exact .inr ⟨existing, rfl, rfl⟩

/-- A pipeline that returns has been skipped if and only if, when it claimed, its commit's slot was
written less than a lifetime ago, by whichever call and whatever has become of it; and it is told
what the slot says when it looks. -/
theorem skipped_iff (fresh : Fresh c) (unset : c.world.redis.slots (key repo sha) = none)
    (run : Transition.Run (Transition.Guarded (Step s) (Heard (key repo sha))) c trace c')
    (role : i.role = .pipeline) (made : .spawn i (runCommitPipeline s payload) ∈ trace)
    (names : commitOf payload = some (repo, sha))
    (ended : c'.threads i = .active h (.done (.ok r))) : ∃ past value ex won before rest, trace =
      past ++ .call i ⟨.redis (.setNx (key repo sha) value ex), .ok won⟩ before :: rest ∧
      ((∃ id reason, r = .skipped id reason) ↔ current s (key repo sha) past before.clock ≠ none) ∧
      ∀ id reason, r = .skipped id reason → ∃ past before rest,
        trace = past ++ .call i ⟨.redis (.get (key repo sha)),
          .ok (current s (key repo sha) past before.clock)⟩ before :: rest ∧
          .skipped id reason = skip ⟨false, current s (key repo sha) past before.clock⟩ := by
  have tells := run_tells fresh unset run
  have decided := Machine.run_leads (m := runtime s) (fun taken => taken.1) run made
    (fun w a q again => by simp [runtime, role] at again) (leads_decided names) ended r rfl
  have past : (c'.threads i).past = h := by rw [ended]; rfl
  have happened {x : Interaction calls} (member : x ∈ h) : ∃ past before rest, trace = past ++
      .call i x before :: rest := by
    obtain ⟨before, there⟩ :=
      (Machine.mem_past (fun taken => taken.1) run (fresh i)).mp (past ▸ member)
    obtain ⟨past, rest, same⟩ := List.append_of_mem there
    exact ⟨past, before, rest, same⟩
  rcases decided with ⟨won, id, approvalId, eng, post, rfl⟩ | ⟨existing, rfl, rfl⟩
  · obtain ⟨past, before, rest, same⟩ := happened won
    have told : true = (current s (key repo sha) past before.clock).isNone :=
      tells past _ rest same rfl
    refine ⟨past, _, _, _, before, rest, same, ⟨?_, fun held => ?_⟩, ?_⟩
    · rintro ⟨id', reason, same⟩
      cases same
    · cases there : current s (key repo sha) past before.clock with
      | none => exact absurd there held
      | some value =>
          rw [there] at told
          contradiction
    · intro id' reason same
      cases same
  · obtain ⟨past, before, rest, same⟩ := happened List.mem_cons_self
    obtain ⟨past', before', rest', same'⟩ :=
      happened (List.mem_cons_of_mem _ (List.mem_singleton.mpr rfl))
    have told : false = (current s (key repo sha) past before.clock).isNone :=
      tells past _ rest same rfl
    have looked : existing = current s (key repo sha) past' before'.clock :=
      tells past' _ rest' same' rfl
    refine ⟨past, _, _, _, before, rest, same, ⟨fun _ none => ?_, fun _ => ⟨_, _, rfl⟩⟩,
      fun id reason skipped => ?_⟩
    · rw [none] at told
      contradiction
    · exact ⟨past', before', rest', looked ▸ same', looked ▸ skipped.symm⟩

theorem heard_calls {k : String} {script : History} (answered : ∀ x ∈ script, x.raised = none) :
    ∀ c x before c', x ∈ script → Heard k c (.call i x before) c' := by
  intro c x before c' member j command error world same
  cases same
  have none := answered _ member
  contradiction

theorem heard_spawn {k : String} (p : Async Returned) : Heard k c (.spawn i p) c' := by
  intro j command error world same
  cases same

/-- A commit is handed over twice. -/
theorem skipped_iff_twice : ∃ trace c',
    Transition.Run
    (Transition.Guarded (Step (.defaults "/root")) (Heard (key (.str "/srv/app") (.str "4c1d"))))
    Pool.initial trace c' ∧ ∃ past value ex won before rest,
      trace = past ++ .call
        ⟨2, 1, .pipeline⟩ ⟨.redis (.setNx (key (.str "/srv/app") (.str "4c1d")) value ex),
        .ok won⟩ before :: rest ∧
      current (.defaults "/root") (key (.str "/srv/app") (.str "4c1d")) past before.clock ≠
        none := by
  let k := key (.str "/srv/app") (.str "4c1d")
  obtain ⟨_, -, first⟩ := run_entry (run_start (.defaults "/root") (Heard k) Pool.initial)
    ⟨1, 1, .pipeline⟩ (.commitPipeline samplePayload)
    (wonScript (.str "/srv/app") (.str "4c1d")) (plays_won rfl) rfl rfl rfl
    (fun _ => heard_spawn _) (heard_calls (by simp [wonScript, Interaction.raised]))
  have held : (Redis.empty.set k pending (3600 * second)).live 0 k = some pending :=
    Redis.live_set (by decide)
  obtain ⟨_, -, both⟩ := run_entry first ⟨2, 1, .pipeline⟩ (.commitPipeline samplePayload)
    (refusedScript (.str "/srv/app") (.str "4c1d") pending) (plays_refused held)
    rfl rfl rfl (fun _ => heard_spawn _)
    (heard_calls (by simp [refusedScript, Interaction.raised]))
  obtain ⟨past, value, ex, won, before, rest, same, refused, -⟩ :=
    skipped_iff fresh_initial rfl both (i := ⟨2, 1, .pipeline⟩) rfl
    (List.mem_append_right _ List.mem_cons_self) rfl rfl
  exact ⟨_, _, both, past, value, ex, won, before, rest, same, refused.mp ⟨_, _, rfl⟩⟩

end WiseOrder.CommitPipeline
