import WiseOrder.Workflows.CardCalls
import WiseOrder.Runtime.Shadow

/-! Approval cards next to the status of their workflows. A call that has asked for an
approval goes on to complete its workflow, unless it is hurt or lost on the way; then
the workflow is marked failed, or taken by a reaper, with its card out. -/
namespace WiseOrder
open Coroutine Coroutine.Program Relational ApprovalGateway History CommitPipeline
variable {s : Settings} {i j : CallId} {c c' : Pool} {e : RunEvent} {trace : List RunEvent}
    {db db' : Db} {now : Time}

/-- A workflow of a commit that is reported as not finished. -/
def Workflow.Unfinished (w : Workflow) : Prop :=
  w.workflowName = "commit_pipeline" ∧ (w.status = .failed ∨ w.status = .interrupted)

/-- No approval row and no card goes with an unfinished workflow. -/
def Agreeing (c : Pool) : Prop :=
  ∀ x ∈ c.world.db.workflows.entries, x.row.Unfinished →
    (∀ a ∈ c.world.db.approvals.entries, a.row.workflowId ≠ some x.id) ∧
    ∀ y ∈ (c.threads x.owner).past, ¬ Attempt y.call

/-- The approval row of the call is in the database. -/
def Stored (c : Pool) (i : CallId) : Prop := ∃ a ∈ c.world.db.approvals.entries, a.owner = i

/-- After the row was committed a call raised, be it the one that committed it. -/
def Harmed (c : Pool) (i : CallId) : Prop :=
  Stored c i ∧ (Hurt (c.threads i).past ∨ ¬ Asked (c.threads i).past)

/-- What must not happen to a workflow whose card is out, or is still to go out. -/
structure Unbroken (c : Pool) (e : RunEvent) (c' : Pool) : Prop where
  /-- A call that was harmed does not mark its workflow failed. -/
  failing : ∀ i id event error reply w, e = .call i ⟨.session (.failWorkflow id event error),
    reply⟩ w →
    c'.world.db ≠ c.world.db → ¬ Harmed c i
  /-- The reaper takes no workflow whose approval row is there. -/
  reaping : ∀ i cutoff marker reply w, e = .call i ⟨.session (.reap cutoff marker), reply⟩ w →
    c'.world.db ≠ c.world.db → ∀ x ∈ c.world.db.workflows.entries, x.row.workflowName =
      "commit_pipeline" →
      Transaction.orphan cutoff x.row = true → ¬ Stored c x.owner
  /-- No call inserts an approval whose workflow a reaper has taken. -/
  asking : ∀ i req reply w, e = .call i ⟨.session (.addApproval req), reply⟩ w → c'.world.db ≠
    c.world.db →
    ∀ x ∈ c.world.db.workflows.entries, x.owner = i → ¬ x.row.Unfinished

/-! ### One transaction -/

/-- How a workflow came to be unfinished: it was before, its call marks it failed, or a reaper takes
it. -/
theorem unfinished_run {t : Transaction} {x : t.Reply} {y : Relational.Entry CallId Workflow}
    (ran : t.run i now db = .ok (x, db')) (member : y ∈ db'.workflows.entries)
    (unfinished : y.row.Unfinished) :
    (∃ z ∈ db.workflows.entries, z.id = y.id ∧ z.owner = y.owner ∧ z.row.Unfinished) ∨
    (∃ event error, t = .failWorkflow y.id event error) ∨
    ∃ cutoff marker, t = .reap cutoff marker ∧ ∃ z ∈ db.workflows.entries, z.id = y.id ∧
    z.owner = y.owner ∧
      z.row.workflowName = "commit_pipeline" ∧ Transaction.orphan cutoff z.row = true := by
  cases t with
  | addWorkflow name chain logs =>
      obtain ⟨rfl, rfl⟩ := Prod.mk.inj (Except.ok.inj ran)
      rcases Table.mem_insert.mp member with old | rfl
      · exact .inl ⟨y, old, rfl, rfl, unfinished⟩
      · rcases unfinished.2 with failed | interrupted <;> contradiction
  | createTask | addMemory | addApproval =>
      obtain ⟨rfl, rfl⟩ := Prod.mk.inj (Except.ok.inj ran)
      exact .inl ⟨y, member, rfl, rfl, unfinished⟩
  | completeTask | failTask | setEmbedding | setDelivered | updateDecision =>
      rw [Transaction.update_ok ran] at member
      exact .inl ⟨y, member, rfl, rfl, unfinished⟩
  | appendLog id entry =>
      rw [Transaction.update_ok ran] at member
      obtain ⟨z, old, rfl⟩ := Table.mem_update.mp member
      refine .inl ⟨z, old, ?_⟩
      split <;> rename_i same <;> simp only [same] at unfinished <;> exact ⟨rfl, rfl, unfinished⟩
  | failWorkflow id event error =>
      rw [Transaction.update_ok ran] at member
      obtain ⟨z, old, rfl⟩ := Table.mem_update.mp member
      by_cases same : z.id = id
      · simp only [same, decide_true, if_true]
        exact .inr (.inl ⟨event, error, rfl⟩)
      · simp only [same, decide_false, Bool.false_eq_true, if_false] at unfinished ⊢
        exact .inl ⟨z, old, rfl, rfl, unfinished⟩
  | completeWorkflow id event data =>
      rw [Transaction.update_ok ran] at member
      obtain ⟨z, old, rfl⟩ := Table.mem_update.mp member
      by_cases same : z.id = id
      · simp only [same, decide_true, if_true] at unfinished
        rcases unfinished.2 with failed | interrupted <;> contradiction
      · simp only [same, decide_false, Bool.false_eq_true, if_false] at unfinished ⊢
        exact .inl ⟨z, old, rfl, rfl, unfinished⟩
  | findApproval id =>
      obtain ⟨rfl, -⟩ := Transaction.find_ok ran
      exact .inl ⟨y, member, rfl, rfl, unfinished⟩
  | reap cutoff marker =>
      obtain ⟨-, rfl⟩ := Prod.mk.inj (Except.ok.inj ran)
      obtain ⟨z, old, rfl⟩ := Table.mem_update.mp member
      cases taken : Transaction.orphan cutoff z.row with
      | true =>
          simp only [taken, if_true] at unfinished ⊢
          exact .inr (.inr ⟨cutoff, marker, rfl, z, old, rfl, rfl, unfinished.1, taken⟩)
      | false =>
          simp only [taken, Bool.false_eq_true, if_false] at unfinished ⊢
          exact .inl ⟨z, old, rfl, rfl, unfinished⟩

/-- The workflows stay, whatever becomes of them, and new ones are the caller's. -/
theorem workflows_run {t : Transaction} {x : t.Reply} (ran : t.run i now db = .ok (x, db')) :
    db.workflows.Evolves (fun _ _ => True) db'.workflows ∧ ∀ y ∈ db'.workflows.entries,
      (∃ z ∈ db.workflows.entries, z.id = y.id ∧ z.owner = y.owner) ∨
        y.owner = i ∧ ∃ name chain logs, t = .addWorkflow name chain logs := by
  have same {table : Table CallId Workflow} : ∀ y ∈ table.entries,
      (∃ z ∈ table.entries, z.id = y.id ∧ z.owner = y.owner) ∨ y.owner = i ∧ ∃ name chain logs, t =
          .addWorkflow name chain logs :=
    fun y member => .inl ⟨y, member, rfl, rfl⟩
  have updated {table : Table CallId Workflow} {chosen : Relational.Entry CallId Workflow → Bool}
    {f : Workflow → Workflow} :
      ∀ y ∈ (table.update chosen f).entries, (∃ z ∈ table.entries,
        z.id = y.id ∧ z.owner = y.owner) ∨
        y.owner = i ∧ ∃ name chain logs, t = .addWorkflow name chain logs := by
    intro y member
    obtain ⟨z, old, rfl⟩ := Table.mem_update.mp member
    refine .inl ⟨z, old, ?_⟩
    split <;> exact ⟨rfl, rfl⟩
  cases t with
  | addWorkflow name chain logs =>
      obtain ⟨rfl, rfl⟩ := Prod.mk.inj (Except.ok.inj ran)
      refine ⟨Table.evolves_insert (fun _ => trivial) _ _ _, fun y member => ?_⟩
      rcases Table.mem_insert.mp member with old | rfl
      · exact .inl ⟨y, old, rfl, rfl⟩
      · exact .inr ⟨rfl, name, chain, logs, rfl⟩
  | createTask | addMemory | addApproval =>
      obtain ⟨rfl, rfl⟩ := Prod.mk.inj (Except.ok.inj ran)
      exact ⟨.refl (fun _ => trivial) _, same⟩
  | findApproval id =>
      obtain ⟨rfl, -⟩ := Transaction.find_ok ran
      exact ⟨.refl (fun _ => trivial) _, same⟩
  | completeTask | failTask | setEmbedding | setDelivered | updateDecision =>
      rw [Transaction.update_ok ran]
      exact ⟨.refl (fun _ => trivial) _, same⟩
  | appendLog | failWorkflow | completeWorkflow =>
      rw [Transaction.update_ok ran]
      exact ⟨Table.evolves_update (fun _ => trivial) fun _ _ _ => trivial, updated⟩
  | reap cutoff marker =>
      obtain ⟨-, rfl⟩ := Prod.mk.inj (Except.ok.inj ran)
      exact ⟨Table.evolves_update (fun _ => trivial) fun _ _ _ => trivial, updated⟩

/-- What an approval is for, and how risky it is, and whose it is. -/
def SamePurpose (a b : Relational.Entry CallId Approval) : Prop :=
  b.owner = a.owner ∧ b.row.workflowId = a.row.workflowId ∧ b.row.riskLevel = a.row.riskLevel

/-- The approvals are those that were there, delivered or decided perhaps, and the one that is asked
for. -/
theorem approvals_run {t : Transaction} {x : t.Reply} {a : Relational.Entry CallId Approval}
    (ran : t.run i now db = .ok (x, db')) (member : a ∈ db'.approvals.entries) :
    (∃ b ∈ db.approvals.entries, SamePurpose b a) ∨
      ∃ req, t = .addApproval req ∧ a.owner = i ∧ a.row.workflowId = req.workflowId ∧
      a.row.riskLevel = req.riskLevel := by
  have updated {n : Nat} {f : Approval → Approval} (kept : ∀ a, (f a).workflowId = a.workflowId ∧
    (f a).riskLevel = a.riskLevel)
      (member : a ∈ (db.approvals.updateAt n f).entries) : ∃ b ∈ db.approvals.entries,
          SamePurpose b a := by
    obtain ⟨b, old, rfl⟩ := Table.mem_update.mp member
    refine ⟨b, old, ?_⟩
    split
    · exact ⟨rfl, (kept _).1, (kept _).2⟩
    · exact ⟨rfl, rfl, rfl⟩
  cases t with
  | addApproval req =>
      obtain ⟨rfl, rfl⟩ := Prod.mk.inj (Except.ok.inj ran)
      rcases Table.mem_insert.mp member with old | rfl
      · exact .inl ⟨a, old, rfl, rfl, rfl⟩
      · exact .inr ⟨req, rfl, rfl, rfl, rfl⟩
  | addWorkflow | createTask | addMemory | reap =>
      obtain ⟨rfl, rfl⟩ := Prod.mk.inj (Except.ok.inj ran)
      exact .inl ⟨a, member, rfl, rfl, rfl⟩
  | completeTask | failTask | setEmbedding | appendLog | failWorkflow | completeWorkflow =>
      rw [Transaction.update_ok ran] at member
      exact .inl ⟨a, member, rfl, rfl, rfl⟩
  | setDelivered id via =>
      rw [Transaction.update_ok ran] at member
      exact .inl (updated (f := Approval.deliver via) (fun _ => ⟨rfl, rfl⟩) member)
  | findApproval id =>
      obtain ⟨rfl, -⟩ := Transaction.find_ok ran
      exact .inl ⟨a, member, rfl, rfl, rfl⟩
  | updateDecision id decision decidedAt =>
      rw [Transaction.update_ok ran] at member
      exact .inl (updated (f := Approval.decide decision decidedAt) (fun _ => ⟨rfl, rfl⟩) member)

/-! ### The invariant -/

/-- Pipelines keep the protocol of cards. -/
def cardsOf (i : CallId) : Protocol calls Unit :=
  ⟨fun h c _ => i.role = .pipeline → cardAllowed h c, fun _ _ _ _ => True⟩

/-- An approval row was inserted by the call of its workflow; calls that have asked have theirs; and
of the workflows whose calls have one, none is unfinished. -/
structure Filed (c : Pool) : Prop where
  obeys : c.Obeys cardsOf (fun _ _ _ _ => True) fun _ _ => ()
  carded : ∀ i, i.role = .pipeline → ∀ y ∈ (c.threads i).past, Attempt y.call →
    Asked (c.threads i).past
  owners : ∀ x ∈ c.world.db.workflows.entries, x.owner.role = .pipeline
  named : ∀ a ∈ c.world.db.approvals.entries, ∃ id, a.row.workflowId = some id ∧
    ∃ x ∈ c.world.db.workflows.entries, x.id = id ∧ x.owner = a.owner
  stored : ∀ i, Asked (c.threads i).past → Stored c i
  closed : ∀ x ∈ c.world.db.workflows.entries, x.row.Unfinished → ¬ Stored c x.owner

theorem Filed.agreeing (filed : Filed c) : Agreeing c := by
  intro x member unfinished
  have unstored := filed.closed x member unfinished
  refine ⟨fun a there same => ?_, fun y made attempt => ?_⟩
  · obtain ⟨id, names, z, present, rfl, owner⟩ := filed.named a there
    cases Table.unique present member (Option.some.inj (names.symm.trans same))
    exact unstored ⟨a, there, owner.symm⟩
  · exact unstored (filed.stored _ (filed.carded _ (filed.owners x member) y made attempt))

theorem asked_step (step : Step s c e c') (asked : Asked (c'.threads j).past) :
    Asked (c.threads j).past ∨ ∃ (req : ApprovalRequest) (id : Nat), e =
      .call j ⟨.session (.addApproval req), .ok id⟩ c.world := by
  rw [step.past j, asked_append] at asked
  rcases asked with before | ⟨req, id, member⟩
  · exact .inl before
  · obtain ⟨before, rfl⟩ := Event.mem_own.mp member
    cases step
    exact .inr ⟨req, id, rfl⟩

theorem keeps_cards {p : Async Returned} (keeps : Keeps p) :
    p.Obeys (cardsOf i) (fun _ _ _ => True) [] () :=
  (keeps [] unasked_nil).relax (fun _ _ _ allowed _ => allowed) fun _ _ _ _ moved => moved

theorem obeys_uncarded {p : Async Returned} (other : i.role ≠ .pipeline) (h : History) :
    p.Obeys (cardsOf i) (fun _ _ _ => True) h () :=
  obeys_free (F := fun _ => True) (fun _ _ _ => trivial) (fun _ _ _ _ pipeline =>
    absurd pipeline other) trivial

theorem Entry.obeys_cards (entry : Entry) (role : entry.role = i.role) :
    (entry.program s).Obeys (cardsOf i) (fun _ _ _ => True) [] () := by
  by_cases pipeline : i.role = .pipeline
  · rw [pipeline] at role
    cases entry with
    | commitPipeline payload => exact keeps_cards (CommitPipeline.keeps_runCommitPipeline payload)
    | demoRequest payload => exact keeps_cards (DemoForge.keeps_runDemoForgeRequest payload)
    | start | worker | enqueue | decide | release => contradiction
  · exact obeys_uncarded pipeline []

theorem step_cards (obeys : c.Obeys cardsOf (fun _ _ _ _ => True) fun _ _ => ())
    (step : Step s c e c') : c'.Obeys cardsOf (fun _ _ _ _ => True) fun _ _ => () := by
  refine step.obeys ⟨fun _ _ => trivial⟩ ?_ ?_ (fun _ _ _ _ _ holds => holds) obeys
  · rintro i p rfl
    cases step with
    | spawn unused entry =>
        obtain ⟨-, entry, role, rfl⟩ := entry
        exact entry.obeys_cards role
  · rintro i p seen a rfl - -
    cases step with
    | again returned next =>
        obtain ⟨worker, -, -⟩ := next
        exact obeys_uncarded (by simp [worker]) seen

/-- The transaction of a step is permitted to the caller's shadow. -/
theorem step_shadow {g : CallId → OwnRows} (shadowed : Shadowed s c g) (step : Step s c e c') :
    (c'.world.db = c.world.db ∧ ¬ Commits e) ∨
      ∃ (i : CallId) (t : Transaction) (x : t.Reply) (reply : Except PyException t.Reply),
        e = .call i ⟨.session t, reply⟩ c.world ∧ t.Permitted i (c.threads i).past (g i) ∧
        t.run i c.world.clock c.world.db = .ok (x, c'.world.db) := by
  rcases step_ran step with unchanged | ⟨i, t, x, reply, rfl, -, ran⟩
  · exact .inl unchanged
  · exact .inr ⟨i, t, x, reply, rfl, session_permitted (step.allowed shadowed.obeys), ran⟩

/-- A workflow that runs in the shadow of a call is the call's own. -/
theorem Shadowed.own {g : CallId → OwnRows} {id : Nat} (shadowed : Shadowed s c g)
    (there : c.threads i ≠ .absent) (running : (g i).Running id) :
    ∃ x ∈ c.world.db.workflows.entries, x.id = id ∧ x.owner = i := by
  obtain ⟨w, only, -⟩ := running
  obtain ⟨row, member⟩ :=
    ((shadowed.alike i there).workflows id).mp ⟨w, by rw [only]; exact List.mem_singleton.mpr rfl⟩
  exact ⟨_, Table.mem_owned.mp member, rfl, rfl⟩

theorem step_there {x : Interaction calls} (step : Step s c (.call i x w) c') :
    c.threads i ≠ .absent := by
  cases step with
  | call awaiting performed => simp [awaiting]

theorem stored_kept {t : Transaction} {x : t.Reply}
    (ran : t.run i now c.world.db = .ok (x, c'.world.db)) (stored : Stored c j) : Stored c' j := by
  obtain ⟨a, member, owner⟩ := stored
  obtain ⟨row, -, there⟩ := (Transaction.rows_run ran).2 a member
  exact ⟨_, there, owner⟩

theorem step_stored (step : Step s c e c') (stored : Stored c j) : Stored c' j := by
  rcases step_ran step with ⟨same, -⟩ | ⟨i, t, x, reply, -, -, ran⟩
  · unfold Stored
    rwa [same]
  · exact stored_kept ran stored

/-- A call that has asked has its row. -/
theorem stored_step (step : Step s c e c') (stored : Asked (c.threads j).past → Stored c j)
    (asked : Asked (c'.threads j).past) : Stored c' j := by
  rcases asked_step step asked with before | ⟨req, id, rfl⟩
  · exact step_stored step (stored before)
  · cases step with
    | call awaiting performed =>
        obtain ⟨db, ran, rfl⟩ := performed
        obtain ⟨rfl, rfl⟩ := Prod.mk.inj (Except.ok.inj ran)
        exact ⟨_, Table.mem_insert.mpr (.inr rfl), rfl⟩

/-- No step but those that break the rules leaves an unfinished workflow with an approval row. -/
theorem closed_step {g : CallId → OwnRows} (shadowed : Shadowed s c g)
    (filed : Filed c) (step : Step s c e c') (unbroken : Unbroken c e c')
    {y : Relational.Entry CallId Workflow} (member : y ∈ c'.world.db.workflows.entries)
    (unfinished : y.row.Unfinished) : ¬ Stored c' y.owner := by
  by_cases unchanged : c'.world.db = c.world.db
  · unfold Stored
    rw [unchanged] at member ⊢
    exact filed.closed y member unfinished
  rcases step_shadow shadowed step with ⟨same, -⟩ | ⟨i, t, x, reply, rfl, permitted, ran⟩
  · exact absurd same unchanged
  rintro ⟨a, there, owns⟩
  rcases approvals_run ran there with ⟨b, old, same, -⟩ | ⟨req, rfl, mine, -⟩
  · have before : Stored c y.owner := ⟨b, old, same.symm.trans owns⟩
    rcases unfinished_run ran member unfinished with
      ⟨z, earlier, -, owner, still⟩ | ⟨event, error, rfl⟩ |
      ⟨cutoff, marker, rfl, z, earlier, -, owner, name, taken⟩
    · exact filed.closed z earlier still (owner ▸ before)
    · cases permitted with
      | decision decides => exact decides.elim
      | pipeline role lawful =>
          obtain ⟨z, earlier, names, its⟩ := shadowed.own (step_there step) lawful.1
          have owner : y.owner = i := by
            rcases (workflows_run ran).2 y member with ⟨z', old', names', owner⟩ | ⟨owner, -⟩
            · rw [← owner, Table.unique old' earlier (names'.trans names.symm), its]
            · exact owner
          have failing : cardAllowed (c.threads i).past
              (.session (.failWorkflow y.id event error)) :=
            step.allowed filed.obeys role
          refine unbroken.failing i _ _ _ _ _ rfl unchanged ⟨owner ▸ before, ?_⟩
          by_cases asked : Asked (c.threads i).past
          · exact .inl (failing asked)
          · exact .inr asked
    · exact unbroken.reaping i cutoff marker reply _ rfl unchanged z
        earlier name taken (owner ▸ before)
  · rcases unfinished_run ran member unfinished with
      ⟨z, earlier, -, owner, still⟩ | ⟨event, error, other⟩ | ⟨cutoff, marker, other, -⟩
    · exact unbroken.asking i req reply _ rfl unchanged z earlier
        (owner.trans (owns.symm.trans mine)) still
    · contradiction
    · contradiction

theorem step_filed {g : CallId → OwnRows} (shadowed : Shadowed s c g)
    (filed : Filed c) (step : Step s c e c') (unbroken : Unbroken c e c') : Filed c' := by
  refine ⟨step_cards filed.obeys step, fun j role y made attempt => ?_, ?_, ?_,
    fun j asked => stored_step step (filed.stored j) asked,
    fun y member unfinished => closed_step shadowed filed step unbroken member unfinished⟩
  · rw [step.past j] at made ⊢
    rcases List.mem_append.mp made with old | new
    · exact (filed.carded j role y old attempt).append _
    · obtain ⟨before, rfl⟩ := Event.mem_own.mp new
      have allowed : cardAllowed (c.threads j).past y.call := step.allowed filed.obeys role
      apply Asked.append
      obtain ⟨call, reply⟩ := y
      cases call with
      | appendFile | httpPost => exact allowed
      | _ => exact attempt.elim
  all_goals rcases step_shadow shadowed step with ⟨same, -⟩ | ⟨i, t, x, reply, rfl, permitted, ran⟩
  · rw [same]
    exact filed.owners
  · intro y member
    rcases (workflows_run ran).2 y member with ⟨z, old, -, owner⟩ | ⟨owner, name, chain, logs, rfl⟩
    · exact owner ▸ filed.owners z old
    · cases permitted with
      | decision decides => exact decides.elim
      | pipeline role lawful => exact owner ▸ role
  · rw [same]
    exact filed.named
  · intro a member
    have kept {id : Nat} {owner : CallId} (there : ∃ x ∈ c.world.db.workflows.entries,
      x.id = id ∧ x.owner = owner) :
        ∃ x ∈ c'.world.db.workflows.entries, x.id = id ∧ x.owner = owner := by
      obtain ⟨z, old, names, owns⟩ := there
      obtain ⟨row, -, present⟩ := (workflows_run ran).1 z old
      exact ⟨_, present, names, owns⟩
    rcases approvals_run ran member with ⟨b, old, owner, names, -⟩ | ⟨req, rfl, owner, names, -⟩
    · obtain ⟨id, named, there⟩ := filed.named b old
      rw [owner, names]
      exact ⟨id, named, kept there⟩
    · cases permitted with
      | decision decides => exact decides.elim
      | pipeline role lawful =>
          obtain ⟨-, id, named, running⟩ := lawful
          rw [owner, names]
          exact ⟨id, named, kept (shadowed.own (step_there step) running)⟩

/-- Cards and status agree in every state that is reached by steps which break none of the rules. -/
theorem cards_agree
    (run : Transition.Run (Transition.Guarded (Step s) Unbroken) Pool.initial trace c) :
    Agreeing c := by
  have filed : Filed Pool.initial := by
    refine ⟨fun i seen rest active => ?_, fun i _ y member => absurd member List.not_mem_nil,
      fun x member => absurd member List.not_mem_nil, fun a member =>
        absurd member List.not_mem_nil,
      fun i asked => absurd asked unasked_nil, fun x member => absurd member List.not_mem_nil⟩
    cases active
  have kept := run.invariant (P := fun d => (∃ g, Shadowed s d g) ∧ Filed d) ?_
    ⟨⟨fun _ => OwnRows.none, fresh_initial.shadowed _⟩, filed⟩
  · exact kept.2.agreeing
  · rintro d e d' ⟨⟨g, shadowed⟩, filed⟩ ⟨taken, unbroken⟩
    exact ⟨step_shadowed shadowed taken, step_filed shadowed filed taken unbroken⟩

/-! ### Runs -/

/-- What the engineering summary of a commit says. -/
def sampleSummary : EngineeringSummary :=
  ⟨"Fix the login form", ["auth.py"], "Login works again", "low"⟩

def samplePost : SocialDraft := ⟨"Login works again."⟩

/-- What a pipeline asks for a commit without a subject. -/
def sampleRequest : ApprovalRequest where
  summary := "Commit " ++ Python.take 8 "4c1d" ++ " in " ++
    ((Python.split '/' "/srv/app").getLastD "") ++ ": " ++
      (if Python.truthy (.str "") then Python.str (.str "") else "(no subject)")
  outputs := .obj [("engineering_summary", .str "Fix the login form"),
    ("changelog", .str "Login works again"),
      ("social_post", .str "Login works again.")]
  affected := ["auth.py"]
  riskLevel := "low"
  workflowId := some 1
  taskId := some 4

/-- A pipeline up to its request for approval. -/
def askingScript : History :=
  let content := memoryContent (Python.take 8 "4c1d") (.str "") sampleSummary
  openingScript "4c1d" 0 1 1 ++
  [⟨.summarize (.str "") (.str "") (.str "4c1d") (.str ""), .ok sampleSummary⟩,
    ⟨.session (.completeTask 1 sampleSummary.toDict), .ok ()⟩, ⟨.now, .ok (0 : Time)⟩,
    ⟨.session (.appendLog 1 ⟨0, "summary_done", .obj [("risk", .str "low")]⟩), .ok ()⟩,
    ⟨.session (.createTask "draft_social" 1 (.obj [("sha", .str "4c1d")])), .ok (2 : Nat)⟩,
    ⟨.draft "Fix the login form" "Login works again" "low", .ok samplePost⟩,
    ⟨.session (.completeTask 2 samplePost.toDict), .ok ()⟩, ⟨.now, .ok (0 : Time)⟩,
    ⟨.session (.appendLog 1 ⟨0, "social_done", .obj [("len", .int samplePost.post.length)]⟩),
      .ok ()⟩,
    ⟨.session (.createTask "save" 1 (.obj [("sha", .str "4c1d")])), .ok (3 : Nat)⟩,
    ⟨.session (.addMemory "commit_summary" content (memoryMetadata (.str "/srv/app")
      (.str "4c1d") (.str "") (.str "")
      sampleSummary)), .ok (1 : Nat)⟩,
    ⟨.upsert [embeddingId (.str "4c1d")] [content] [.obj [("repo", .str "/srv/app"),
      ("sha", .str "4c1d"), ("risk", .str "low")]],
      .error (.runtimeError "no model")⟩,
    ⟨.session (.completeTask 3 (.obj [("memory_id", .int (Int.ofNat 1))])), .ok ()⟩,
    ⟨.session (.createTask "request_approval" 1 (.obj [("sha", .str "4c1d")])), .ok (4 : Nat)⟩,
    ⟨.session (.addApproval sampleRequest), .ok (1 : Nat)⟩]

/-- The row of the approval cannot be marked as delivered. -/
def hurtScript : History :=
  let lost : PyException := .runtimeError "connection lost"
  [⟨.now, .ok (0 : Time)⟩, ⟨.appendFile ((⟨1, 0, sampleRequest⟩ : Record).json.dumps ++ "\n"),
    .ok ()⟩,
    ⟨.httpOpen, .ok ()⟩, ⟨.httpClose, .ok ()⟩,
    ⟨.session (.setDelivered 1 (some "file")), .error lost⟩,
    ⟨.session (.failTask 4 "connection lost"), .ok ()⟩,
    ⟨.session (.failWorkflow 1 "workflow_failed" "approval failed: connection lost"), .ok ()⟩]

theorem unbroken_spawn {p : Async Returned} : Unbroken c (.spawn i p) c' := by
  constructor
  · intro i id event error reply w same
    contradiction
  · intro i cutoff marker reply w same
    contradiction
  · intro i req reply w same
    contradiction

/-- Calls that do not bear on cards. -/
theorem unbroken_calls {script : History} (plain : ∀ x ∈ script, ∀ t, x.call = .session t →
      (∀ req, t ≠ .addApproval req) ∧ (∀ id event error, t ≠ .failWorkflow id event error) ∧
        ∀ cutoff marker, t ≠ .reap cutoff marker) :
    ∀ c x before c', x ∈ script → Unbroken c (.call i x before) c' := by
  intro c x before c' member
  constructor
  · intro j id event error reply w same
    cases same
    exact absurd rfl ((plain _ member _ rfl).2.1 id event error)
  · intro j cutoff marker reply w same
    cases same
    exact absurd rfl ((plain _ member _ rfl).2.2 cutoff marker)
  · intro j req reply w same
    cases same
    exact absurd rfl ((plain _ member _ rfl).1 req)

/-- A summary fails, and its workflow with it. -/
theorem cards_agree_failed : ∃ trace c,
    Transition.Run (Transition.Guarded (Step (.defaults "/root")) Unbroken) Pool.initial trace c ∧
    (c.world.db.workflows.entries.map fun x => x.row.status) = [.failed] ∧ Agreeing c := by
  let overloaded : PyException := .runtimeError "overloaded"
  have opening : Plays (perform ⟨1, 1, .pipeline⟩)
    ((Entry.commitPipeline samplePayload).program (.defaults "/root"))
      World.initial (openingScript "4c1d" 0 1 1) _ _ :=
        (plays_attach rfl).trans (.call ⟨_, rfl, rfl⟩ (.stop _ _))
  obtain ⟨_, -, failing⟩ := run_entry (run_start (.defaults "/root") Unbroken Pool.initial)
    ⟨1, 1, .pipeline⟩ (.commitPipeline samplePayload)
    (openingScript "4c1d" 0 1 1 ++
      [⟨.summarize (.str "") (.str "") (.str "4c1d") (.str ""), .error overloaded⟩,
      ⟨.session (.failTask 1 "overloaded"), .ok ()⟩])
    (opening.trans (.call rfl (.call ⟨_, rfl, rfl⟩ (.stop _ _))))
    rfl rfl rfl (fun _ => unbroken_spawn)
    (unbroken_calls (by simp [openingScript, attachScript, claimScript]))
  have failed := run_call failing ⟨1, 1, .pipeline⟩
    ⟨.session (.failWorkflow 1 "workflow_failed" "summarize failed: overloaded"),
        .ok ()⟩ rfl ⟨_, rfl, rfl⟩ fun c' => by
      constructor
      · intro i id event error reply w same _ harmed
        obtain ⟨⟨a, there, -⟩, -⟩ := harmed
        exact absurd there List.not_mem_nil
      · intro i cutoff marker reply w same
        cases same
      · intro i req reply w same
        cases same
  exact ⟨_, _, failed, rfl, cards_agree failed⟩

/-- A call is hurt after it has asked, and its workflow is marked failed with the approval
pending. -/
theorem cards_disagree : ∃ trace c, Transition.Run (Step (.defaults "/root")) Pool.initial trace c ∧
    ¬ Agreeing c := by
  have opening : Plays (perform ⟨1, 1, .pipeline⟩)
    ((Entry.commitPipeline samplePayload).program (.defaults "/root"))
      World.initial (openingScript "4c1d" 0 1 1) _ _ :=
        (plays_attach rfl).trans (.call ⟨_, rfl, rfl⟩ (.stop _ _))
  obtain ⟨_, -, asked⟩ := run_entry (run_start (.defaults "/root") (fun _ _ _ => True) Pool.initial)
    ⟨1, 1, .pipeline⟩ (.commitPipeline samplePayload) askingScript
    (opening.trans (.call rfl
      (.call ⟨_, rfl, rfl⟩ (.call ⟨rfl, rfl⟩ (.call ⟨_, rfl, rfl⟩ (.call ⟨_, rfl, rfl⟩ (.call rfl
        (.call ⟨_, rfl, rfl⟩ (.call ⟨rfl, rfl⟩ (.call ⟨_, rfl, rfl⟩ (.call ⟨_, rfl, rfl⟩
        (.call ⟨_, rfl, rfl⟩ (.call rfl (.call ⟨_, rfl, rfl⟩ (.call ⟨_, rfl, rfl⟩
        (.call ⟨_, rfl, rfl⟩ (.stop _ _)))))))))))))))))
    rfl rfl rfl (fun _ => trivial) (fun _ _ _ _ _ => trivial)
  obtain ⟨_, -, failed⟩ := run_on asked ⟨1, 1, .pipeline⟩ rfl hurtScript
    (.call ⟨rfl, rfl⟩ (.call rfl
      (.call rfl (.call rfl (.call (.inl rfl) (.call ⟨_, rfl, rfl⟩ (.call ⟨_, rfl, rfl⟩
        (.stop _ _))))))))
    (fun _ _ _ _ _ => trivial)
  refine ⟨_, _, (asked.trans failed).unguard, fun agreeing => ?_⟩
  exact (agreeing _ (List.mem_singleton.mpr rfl) ⟨rfl, .inl rfl⟩).1 _
    (List.mem_singleton.mpr rfl) rfl

end WiseOrder
