import WiseOrder.Foundation.Lease
import WiseOrder.Queues.Slot
import Mathlib.Data.List.Pairwise

/-! A claim is a lease. Under any interleaving, the calls that win the claim on a
commit do so a full lifetime apart, as long as nobody drops it; and a call that
won inserts one workflow and one approval at most. -/
namespace WiseOrder.Dedup
open Coroutine Coroutine.Program Relational
variable {s : Settings} {i j : CallId} {h : History} {v : OwnRows} {c c' : Pool} {e : RunEvent}
    {k : String}
  {post : CallId → Post calls OwnRows Returned}

/-- The claim under a key, as a lease. -/
def lease (k : String) (c : Pool) : Lease.State :=
  ⟨c.world.clock, (c.world.redis.slots k).map Slot.expires⟩

theorem lease_held : (lease k c).Held ↔ c.world.redis.live c.world.clock k ≠ none := by
  unfold Lease.State.Held lease Redis.live
  cases c.world.redis.slots k with
  | none => simp
  | some slot => simp

/-- A step that leaves the key alone lets time pass at most. -/
theorem lease_wait (slots : c'.world.redis.slots k = c.world.redis.slots k)
    (later : c.world.clock ≤ c'.world.clock) : Lease.Step term (lease k c) none (lease k c') := by
  have same : lease k c' = { lease k c with clock := c'.world.clock } := by simp only [lease, slots]
  rw [same]
  exact .wait later

/-- A write sets the end of the claim to a full lifetime from now. -/
theorem lease_write {value : String}
    (written : c'.world.redis.slots k = some ⟨value, c.world.clock + term⟩)
    (clock : c'.world.clock = c.world.clock) :
    lease k c' = { lease k c with expires := some ((lease k c).clock + term) } := by
  simp [lease, written, clock]

theorem lease_renew {value : String}
    (written : c'.world.redis.slots k = some ⟨value, c.world.clock + term⟩)
    (clock : c'.world.clock = c.world.clock) : Lease.Step term (lease k c) none (lease k c') := by
  rw [lease_write written clock]
  exact .renew (lease k c)

theorem lease_grant {value : String}
    (written : c'.world.redis.slots k = some ⟨value, c.world.clock + term⟩)
    (clock : c'.world.clock = c.world.clock) (free : c.world.redis.live c.world.clock k = none) :
    Lease.Step term (lease k c) (some c.world.clock) (lease k c') := by
  rw [lease_write written clock]
  exact .grant fun held => lease_held.mp held free

theorem step_lease (obeys : c.Obeys (protocol s) post view) (step : Step s c e c')
    (kept : ¬ Releases e) :
    Lease.Step (s.dedupTtlSeconds * second) (lease k c) (claimTime k e) (lease k c') := by
  rw [claimTime_eq]
  cases step_slot (k := k) obeys step with
  | kept slots later idle =>
      rw [idle]
      exact lease_wait slots later
  | opened event answered label free clock written =>
      rcases label with won | lost
      · rw [won]
        exact lease_grant written clock free
      · rw [lost]
        exact lease_renew written clock
  | attached event won same inserted clock written =>
      subst event
      exact lease_renew written clock
  | dropped event clock erased => exact absurd ⟨_, _, _, _, event⟩ kept

/-- No claim is dropped, and no workflow is taken from its call. -/
def Unreleased (c : Pool) (e : RunEvent) (c' : Pool) : Prop := ¬ Reaps c e c' ∧ ¬ Releases e

section
variable {trace : List RunEvent} {repo sha : Json}

theorem unreleased_calm (taken : Transition.Guarded (Step s) Unreleased c e c') :
    Step s c e c' ∧ ¬ Reaps c e c' :=
  ⟨taken.1, taken.2.1⟩

/-- Every run is, for each key, a run of a lease. -/
theorem run_lease (k : String) (fresh : Fresh c)
    (run : Transition.Run (Transition.Guarded (Step s) Unreleased) c trace c') :
    Transition.Run (Lease.Step (s.dedupTtlSeconds * second)) (lease k c) (trace.map (claimTime k))
    (lease k c') :=
  run.simulate (P := Sound s) (lease k) (claimTime k) (fun sound taken =>
    step_sound_calm sound taken.1 taken.2.1)
    (fun sound taken => step_lease sound.obeys taken.1 taken.2.2) fresh.sound

theorem claims_apart (k : String) (fresh : Fresh c)
    (run : Transition.Run (Transition.Guarded (Step s) Unreleased) c trace c') :
    trace.Pairwise fun e e' => ∀ t t', claimTime k e = some t → claimTime k e' = some t' →
      t + s.dedupTtlSeconds * second ≤ t' :=
  List.pairwise_map.mp (Lease.grants_apart (run_lease k fresh run))

/-- The call won the claim on a commit at a time. -/
def Claims (trace : List RunEvent) (i : CallId) (k : String) (t : Time) : Prop :=
  ∃ x before, .call i x before ∈ trace ∧ claimTime k (.call i x before) = some t

/-- Calls that won within less than a lifetime are one call. -/
theorem claims_same (fresh : Fresh c)
    (run : Transition.Run (Transition.Guarded (Step s) Unreleased) c trace c')
    (first : Claims trace i k t) (second' : Claims trace j k t')
    (near : t < t' + s.dedupTtlSeconds * second) (near' : t' < t + s.dedupTtlSeconds * second) :
    i = j := by
  obtain ⟨x, before, member, claimed⟩ := first
  obtain ⟨y, before', member', claimed'⟩ := second'
  let Apart (e e' : RunEvent) : Prop := ∀ t t', claimTime k e = some t → claimTime k e' = some t' →
    t + s.dedupTtlSeconds * second ≤ t' ∨ t' + s.dedupTtlSeconds * second ≤ t
  have symmetric : Std.Symm Apart := ⟨fun _ _ apart t t' a b => (apart t' t b a).symm⟩
  have apart : trace.Pairwise Apart := (claims_apart k fresh run).imp fun ordered t t' a b =>
    .inl (ordered t t' a b)
  by_contra different
  have distinct : (.call i x before : RunEvent) ≠ .call j y before' :=
    fun same => different (Event.call.inj same).1
  rcases apart.forall member member' distinct t t' claimed claimed' with after | after
  · exact absurd near' (Int.not_lt.mpr after)
  · exact absurd near (Int.not_lt.mpr after)

/-! ### The rows of a call that won -/

/-- The workflow of a commit was inserted by a call that won its claim. -/
def Backed (h : History) (v : OwnRows) : Prop :=
  ∀ w ∈ v.workflows, w.2.workflowName = "commit_pipeline" → ∃ repo sha, w.2.Of repo sha ∧
    Won h (key repo sha)

theorem Backed.append (backed : Backed h v) : Backed (h ++ more) v := by
  intro w member commit
  obtain ⟨repo, sha, is, won⟩ := backed w member commit
  exact ⟨repo, sha, is, won.append⟩

theorem Backed.change {v' : OwnRows} {f : Workflow → Workflow} (backed : Backed h v) (id : Nat)
    (workflows : v'.workflows = v.workflows.change id f)
    (name : ∀ w, (f w).workflowName = w.workflowName)
    (logs : ∀ w, ∃ more, (f w).logs = w.logs ++ more) : Backed h v' := by
  intro w member commit
  rw [workflows] at member
  obtain ⟨old, present, same⟩ := Rows.mem_change member
  rw [same] at commit ⊢
  split at commit
  · obtain ⟨repo, sha, is, won⟩ := backed _ present ((name old).symm.trans commit)
    obtain ⟨more, appended⟩ := logs old
    rename_i target
    rw [if_pos target]
    exact ⟨repo, sha, CommitPipeline.of_append is (name old) appended, won⟩
  · rename_i target
    rw [if_neg target]
    exact backed _ present commit

theorem Backed.commit {t : Transaction} {x : t.Reply} (backed : Backed h v)
    (lawful : t.Lawful h v) : Backed h (t.commit now v x) := by
  cases t with
  | addWorkflow name chain logs =>
      obtain ⟨rfl, started⟩ := lawful
      intro w member commit
      rw [List.mem_singleton.mp member] at commit ⊢
      obtain ⟨ts, repo, sha, rfl, won⟩ := started commit
      exact ⟨repo, sha, ⟨commit, ts, [], rfl⟩, won⟩
  | appendLog id entry => exact backed.change id rfl (fun _ => rfl) fun _ => ⟨_, rfl⟩
  | failWorkflow id event error => exact backed.change id rfl (fun _ => rfl) fun _ => ⟨_, rfl⟩
  | completeWorkflow id event data => exact backed.change id rfl (fun _ => rfl) fun _ => ⟨_, rfl⟩
  | createTask | completeTask | failTask | addMemory | setEmbedding | addApproval | setDelivered =>
      exact backed
  | findApproval | updateDecision | reap => exact lawful.elim

/-- A workflow is of one commit. -/
theorem of_unique {w : Workflow} (left : w.Of repo sha) (right : w.Of repo' sha') :
    repo = repo' ∧ sha = sha' := by
  obtain ⟨-, ts, rest, started⟩ := left
  obtain ⟨-, ts', rest', started'⟩ := right
  have same := started.symm.trans started'
  simp only [List.cons.injEq, LogEntry.mk.injEq, Json.obj.injEq, Prod.mk.injEq, true_and,
    and_true] at same
  exact same.1.2

theorem step_backed (obeys : c.Obeys (protocol s) post view) (step : Step s c e c')
    (calm : ¬ Reaps c e c') (i : CallId) (backed : Backed (c.threads i).past (view i c.world)) :
    Backed (c'.threads i).past (view i c'.world) := by
  rw [step.past i]
  apply Backed.append
  by_cases mine : e.By i
  · rcases step_db obeys step with same | ⟨j, t, x, reply, rfl, -, permitted, ran⟩
    · unfold view
      rwa [same]
    · cases mine
      cases permitted with
      | pipeline role lawful =>
          have committed : view i c'.world = _ := (Transaction.own_commit ran lawful.mine).2
          rw [committed]
          exact backed.commit lawful
      | decision decides =>
          have kept : view i c'.world = view i c.world := Transaction.own_decide ran decides i
          rwa [kept]
      | reap cutoff marker =>
          by_cases same : c'.world.db = c.world.db
          · unfold view
            rwa [same]
          · exact absurd ⟨same, i, cutoff, marker, reply, c.world, rfl⟩ calm
  · rwa [step_view_other obeys step calm mine]

theorem run_backed {step : Pool → RunEvent → Pool → Prop}
    (sub : ∀ {c e c'}, step c e c' → Step s c e c' ∧ ¬ Reaps c e c')
    (run : Transition.Run step c trace c') (fresh : Fresh c) (made : c'.threads i ≠ .absent) :
    Backed (c'.threads i).past (view i c'.world) := by
  induction run with
  | refl => exact absurd (fresh i) made
  | @next past t e u earlier taken ih =>
      obtain ⟨taken, calm⟩ := sub taken
      apply step_backed (run_sound sub earlier fresh).obeys taken calm
      by_cases before : t.threads i = .absent
      · rcases (taken.present i).mp made with there | ⟨p, rfl⟩
        · exact absurd before there
        · cases taken with
          | spawn unused entry =>
              have none : view i t.world = OwnRows.none := entry.1
              rw [none]
              exact fun _ member => absurd member List.not_mem_nil
      · exact ih before

theorem one_workflow {db : Db} {e e' : Relational.Entry CallId Workflow}
    (orderly : (db.own i).Orderly) (member : e ∈ db.workflows.entries)
    (member' : e' ∈ db.workflows.entries) (mine : e.owner = i) (mine' : e'.owner = i) : e = e' := by
  subst mine
  have held : (e.id, e.row) ∈ (db.own e.owner).workflows := Table.mem_owned.mpr member
  have held' : (e'.id, e'.row) ∈ (db.own e.owner).workflows := Table.mem_owned.mpr (mine' ▸ member')
  rw [(orderly.led held).only, List.mem_singleton, Prod.mk.injEq] at held'
  exact Table.unique member member' held'.1.symm

theorem one_approval {db : Db} {e e' : Relational.Entry CallId Approval}
    (orderly : (db.own i).Orderly) (member : e ∈ db.approvals.entries)
    (member' : e' ∈ db.approvals.entries) (mine : e.owner = i) (mine' : e'.owner = i) : e = e' := by
  subst mine
  have few : (db.approvals.owned e.owner).length ≤ 1 := by
    simpa only [Db.own, unsigned, List.length_map] using orderly.approvals
  have held : (e.id, e.row) ∈ db.approvals.owned e.owner := Table.mem_owned.mpr member
  have held' : (e'.id, e'.row) ∈ db.approvals.owned e.owner := Table.mem_owned.mpr (mine' ▸ member')
  have same := Rows.only few held held'
  exact Table.unique member member' (Prod.mk.inj same).1

theorem claims_made (fresh : Fresh c)
    (run : Transition.Run (Transition.Guarded (Step s) Unreleased) c trace c')
    (claims : Claims trace i k t) : c'.threads i ≠ .absent := by
  obtain ⟨x, before, member, -⟩ := claims
  have past := (Machine.mem_past (m := runtime s) (fun taken => taken.1) run (fresh i)).mpr
    ⟨before, member⟩
  intro absent
  rw [absent] at past
  exact absurd past List.not_mem_nil

theorem won_claims (fresh : Fresh c)
    (run : Transition.Run (Transition.Guarded (Step s) Unreleased) c trace c')
    (won : Won (c'.threads i).past k) : ∃ t, Claims trace i k t := by
  obtain ⟨value, ex, member⟩ := won
  obtain ⟨before, there⟩ :=
    (Machine.mem_past (m := runtime s) (fun taken => taken.1) run (fresh i)).mp member
  exact ⟨before.clock, _, before, there, by simp [claimTime]⟩

/-- Dedup safety. Claims on one commit lie a full lifetime apart; calls whose claims
do not have at most one workflow and one approval between them; and the workflows
of a commit are those of calls that claimed it. -/
theorem dedup_safety (fresh : Fresh c)
    (run : Transition.Run (Transition.Guarded (Step s) Unreleased) c trace c')
    (repo sha : Json) :
    (trace.filterMap (claimTime (key repo sha))).Pairwise
    (fun t t' => t + s.dedupTtlSeconds * second ≤ t') ∧
    (∀ {i j t t'}, Claims trace i (key repo sha) t → Claims trace j (key repo sha) t' →
      t < t' + s.dedupTtlSeconds * second → t' < t + s.dedupTtlSeconds * second →
      (∀ e ∈ c'.world.db.workflows.entries, ∀ e' ∈ c'.world.db.workflows.entries,
        e.owner = i → e'.owner = j → e = e') ∧
      ∀ e ∈ c'.world.db.approvals.entries, ∀ e' ∈ c'.world.db.approvals.entries,
        e.owner = i → e'.owner = j → e = e') ∧
    ∀ e ∈ c'.world.db.workflows.entries, c'.threads e.owner ≠ .absent → e.row.Of repo sha →
      ∃ t, Claims trace e.owner (key repo sha) t := by
  refine ⟨List.pairwise_filterMap.mpr ?_, ?_, ?_⟩
  · exact (claims_apart (key repo sha) fresh run).imp fun ordered t a t' b => ordered t t' a b
  · intro i j t t' first second' near near'
    cases claims_same fresh run first second' near near'
    have orderly : (c'.world.db.own i).Orderly :=
      (run_sound unreleased_calm run fresh).orderly i (claims_made fresh run first)
    exact ⟨fun e member e' member' => one_workflow orderly member member',
      fun e member e' member' => one_approval orderly member member'⟩
  · intro e member made is
    have held : (e.id, e.row) ∈ (view e.owner c'.world).workflows := Table.mem_owned.mpr member
    obtain ⟨repo', sha', is', won⟩ := run_backed unreleased_calm run fresh made _ held is.1
    obtain ⟨rfl, rfl⟩ := of_unique is is'
    exact won_claims fresh run won

theorem unreleased_spawn (i : CallId) (p : Async Returned) : Unreleased c (.spawn i p) c' := by
  simp [Unreleased, Reaps, Releases]

theorem unreleased_calls {script : History}
    (reaps : ∀ x ∈ script, ∀ cutoff marker, x.call ≠ .session (.reap cutoff marker))
    (drops : ∀ x ∈ script, ∀ k, x.call ≠ .redis (.delete k)) :
    ∀ c x before c', x ∈ script → Unreleased c (.call i x before) c' := by
  intro c x before c' member
  constructor
  · rintro ⟨-, j, cutoff, marker, n, w, same⟩
    cases same
    exact reaps _ member cutoff marker rfl
  · rintro ⟨j, k, reply, w, same⟩
    cases same
    exact drops _ member k rfl

/-- Two calls for one commit, the second while the first holds the claim. -/
theorem dedup_safety_refused :
    ∃ trace c', Transition.Run (Transition.Guarded (Step (.defaults "/root")) Unreleased)
    Pool.initial trace c' ∧ (c'.threads ⟨2, 1, .pipeline⟩).Ended (.ok (.skipped none "in_flight")) ∧
    (trace.filterMap (claimTime (key (.str "/srv/app") (.str "4c1d")))).Pairwise
    (fun t t' => t + 3600 * second ≤ t') := by
  let k := key (.str "/srv/app") (.str "4c1d")
  have held : (Redis.empty.set k pending (3600 * second)).live 0 k = some pending :=
    Redis.live_set (by decide)
  obtain ⟨_, -, first⟩ := run_entry (run_start (.defaults "/root") Unreleased Pool.initial)
    ⟨1, 1, .pipeline⟩ (.commitPipeline samplePayload) (wonScript (.str "/srv/app") (.str "4c1d"))
    (plays_won rfl) rfl rfl rfl (fun _ => unreleased_spawn _ _)
    (unreleased_calls (by simp [wonScript]) (by simp [wonScript]))
  obtain ⟨_, -, both⟩ := run_entry first ⟨2, 1, .pipeline⟩ (.commitPipeline samplePayload)
    (refusedScript (.str "/srv/app") (.str "4c1d") pending) (plays_refused held)
    rfl rfl rfl (fun _ => unreleased_spawn _ _)
    (unreleased_calls (by simp [refusedScript]) (by simp [refusedScript]))
  exact ⟨_, _, both, ⟨_, rfl⟩, (dedup_safety fresh_initial both _ _).1⟩

end

end WiseOrder.Dedup
