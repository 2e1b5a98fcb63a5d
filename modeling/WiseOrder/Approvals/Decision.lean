import WiseOrder.Runtime.Shadow

/-! What becomes of the decision on an approval. A decide writes its verdict and its
time once it has read the row, each of them if it is another than it has read; what is
written last to a column stays in it, and nothing else touches the two. -/
namespace WiseOrder
open Coroutine Coroutine.Program Relational
variable {s : Settings} {i : CallId} {c c' : Pool} {trace : List RunEvent} {db db' : Db} {α : Type}

/-- What was decided, and when. -/
abbrev Verdict := Option String × Option Time

/-- A later write, column by column. -/
def Verdict.amend (verdict written : Verdict) : Verdict :=
  (written.1.or verdict.1, written.2.or verdict.2)

@[simp] theorem Verdict.amend_none (verdict : Verdict) : verdict.amend (none, none) = verdict := rfl

def Approval.verdict (a : Approval) : Verdict := (a.decision, a.decidedAt)

/-- The verdict on the approval with an id; there is none as long as there is no row. -/
def Db.verdict (db : Db) (id : Nat) : Verdict :=
  match db.approvals.find? id with
  | some e => e.row.verdict
  | none => (none, none)

/-! ### Rows -/

theorem verdict_insert {row : Approval} (plain : row.verdict = (none, none)) (id : Nat) :
    Db.verdict { db with approvals := db.approvals.insert i row } id = db.verdict id := by
  simp only [Db.verdict, Table.find?_insert]
  cases db.approvals.find? id with
  | some e => rfl
  | none =>
      by_cases same : db.approvals.next = id
      · simp [same, plain]
      · simp [same]

theorem verdict_updateAt {f : Approval → Approval} (n id : Nat)
    (kept : n = id → ∀ a, (f a).verdict = a.verdict) :
    Db.verdict { db with approvals := db.approvals.updateAt n f } id = db.verdict id := by
  simp only [Db.verdict, Table.updateAt, Table.find?_update]
  cases found : db.approvals.find? id with
  | none => rfl
  | some e =>
      have here := (Table.find?_mem found).2
      by_cases same : e.id = n
      · simpa [same] using kept (same.symm.trans here) e.row
      · simp [same]

theorem verdict_decide {row : Relational.Entry CallId Approval} {id : Nat}
    (decision : Option String) (decidedAt : Option Time)
    (found : db.approvals.find? id = some row) :
    Db.verdict
    { db with approvals := db.approvals.updateAt id (Approval.decide decision decidedAt) } id =
      (db.verdict id).amend (decision, decidedAt) := by
  simp [Db.verdict, Table.updateAt, Table.find?_update, found, (Table.find?_mem found).2,
    Approval.decide, Approval.verdict,
    Verdict.amend]

/-! ### Writes -/

/-- The update of a decide. -/
def Updates (id : Nat) (e : Event CallId World calls α) : Prop :=
  ∃ i decision decidedAt reply before,
  e = .call i ⟨.session (.updateDecision id decision decidedAt), reply⟩ before

/-- What an event writes to the verdict on an approval. An update that raises may have been
committed. -/
inductive Writes (id : Nat) : Event CallId World calls α → Verdict → Prop where
  | updated (i decision decidedAt reply before) :
      Writes id (.call i ⟨.session (.updateDecision id decision decidedAt), reply⟩ before)
        (decision, decidedAt)
  | undone (i decision decidedAt error before) :
      Writes id (.call i ⟨.session (.updateDecision id decision decidedAt), .error error⟩ before)
        (none, none)
  | other {e} (other : ¬ Updates id e) : Writes id e (none, none)

/-- One transaction: the update of a decide amends the verdict on its row, and nothing else does. -/
theorem verdict_run {t : Transaction} {x : t.Reply} {w : World} {reply : Except PyException t.Reply}
    (ran : t.run i w.clock w.db = .ok (x, db')) (id : Nat) {e : Event CallId World calls α}
    (event : e = .call i ⟨.session t, reply⟩ w) : ∃ written, Writes id e written ∧ db'.verdict id =
    (w.db.verdict id).amend written := by
  have other (none : ∀ decision decidedAt, t ≠ .updateDecision id decision decidedAt)
    (same : db'.verdict id = w.db.verdict id) :
      ∃ written, Writes id e written ∧ db'.verdict id = (w.db.verdict id).amend written := by
    refine ⟨_, .other fun updates => ?_, same⟩
    obtain ⟨j, decision, decidedAt, reply', before, same⟩ := updates
    cases event.symm.trans same
    exact none decision decidedAt rfl
  cases t with
  | addApproval req =>
      obtain ⟨rfl, rfl⟩ := Prod.mk.inj (Except.ok.inj ran)
      exact other (by simp) (verdict_insert rfl id)
  | setDelivered n via =>
      rw [Transaction.update_ok ran] at other ⊢
      exact other (by simp) (verdict_updateAt n id fun _ _ => rfl)
  | findApproval n => exact other (by simp) (by rw [(Transaction.find_ok ran).1])
  | updateDecision n decision decidedAt =>
      by_cases same : n = id
      · subst same
        obtain ⟨table, updated, -⟩ := Transaction.bind_ok ran
        unfold Transaction.updateOne at updated
        split at updated
        · contradiction
        · rename_i row found
          rw [Transaction.update_ok ran]
          exact ⟨_, event ▸ .updated .., verdict_decide decision decidedAt found⟩
      · rw [Transaction.update_ok ran] at other ⊢
        exact other (by simp [same]) (verdict_updateAt n id fun target => absurd target same)
  | addWorkflow | createTask | addMemory | reap =>
      obtain ⟨rfl, rfl⟩ := Prod.mk.inj (Except.ok.inj ran)
      exact other (by simp) rfl
  | completeTask | failTask | appendLog | failWorkflow | completeWorkflow | setEmbedding =>
      rw [Transaction.update_ok ran] at other ⊢
      exact other (by simp) rfl

/-- A step that leaves the database may be an update that was rolled back. -/
theorem writes_same {e : Event CallId World calls α}
    (idle : ∀ (i : CallId) (t : Transaction) (x : t.Reply) (w : World),
      e ≠ .call i ⟨.session t, .ok x⟩ w) (id : Nat) :
    Writes id e (none, none) := by
  by_cases updates : Updates id e
  · obtain ⟨i, decision, decidedAt, reply, before, rfl⟩ := updates
    cases reply with
    | ok x => exact absurd rfl (idle i (.updateDecision id decision decidedAt) x before)
    | error error => exact .undone ..
  · exact .other updates

theorem Hosted.verdict {m : Machine CallId World calls α} {c c' : Config CallId World calls α}
    {e : Event CallId World calls α} (hosted : Hosted m) (step : m.Step c e c') (id : Nat) :
    ∃ written, Writes id e written ∧ c'.world.db.verdict id =
    (c.world.db.verdict id).amend written := by
  rcases hosted.ran step with ⟨same, idle⟩ | ⟨i, t, x, reply, event, -, ran⟩
  · exact ⟨(none, none), writes_same idle id, by rw [same, Verdict.amend_none]⟩
  · exact verdict_run ran id event

/-- What was written last to each column of a verdict is in it. -/
theorem Hosted.verdicts {m : Machine CallId World calls α} {c c' : Config CallId World calls α}
    {trace : List (Event CallId World calls α)} (hosted : Hosted m)
    (run : Transition.Run m.Step c trace c') (id : Nat) :
    ∃ written, List.Forall₂ (Writes id) trace written ∧ c'.world.db.verdict id =
      written.foldl Verdict.amend (c.world.db.verdict id) := by
  refine run.traced (P := fun past d => ∃ written, List.Forall₂ (Writes id) past written ∧
    d.world.db.verdict id = written.foldl Verdict.amend (c.world.db.verdict id)) ⟨[], .nil, rfl⟩ ?_
  rintro past d e u - ⟨written, wrote, before⟩ taken
  obtain ⟨more, writes, after⟩ := hosted.verdict taken id
  refine ⟨written ++ [more], List.rel_append wrote (.cons writes .nil), ?_⟩
  rw [after, before, List.foldl_append]
  rfl

/-! ### Decides -/

/-- An update comes after a look at the row and at the clock. It writes one of the two verdicts and
the time, each where it is another than what was read. -/
def Considered (h : History) (id : Nat) (decision : Option String) (decidedAt : Option Time) :
    Prop :=
  ∃ approvalId verdict read readAt now, (verdict = "approved" ∨ verdict = "rejected") ∧
    id = Int.toNat approvalId ∧
    decision = ApprovalGateway.changed read verdict ∧ decidedAt =
      ApprovalGateway.changed readAt now ∧
    h = [⟨.session (.findApproval approvalId), .ok (some (read, readAt))⟩, ⟨.now, .ok now⟩]

/-- Updates come as a decide makes them. -/
def ConsidersFirst (h : History) (call : Call) : Prop :=
  ∀ id decision decidedAt, call = .session (.updateDecision id decision decidedAt) →
    Considered h id decision decidedAt

theorem considers_other {h : History} {call : Call}
    (other : ∀ id decision decidedAt, call ≠ .session (.updateDecision id decision decidedAt)) :
    ConsidersFirst h call := fun id decision decidedAt same => absurd same
    (other id decision decidedAt)

/-- What a visitor does to approvals it does as a decide. -/
def deciding (i : CallId) : Protocol calls Unit :=
  ⟨fun h call _ => i.role = .visitor → ConsidersFirst h call, fun _ _ _ _ => True⟩

theorem obeys_decide (approvalId : Int) (decision : String) :
    (ApprovalGateway.decide approvalId decision).Obeys (deciding i)
    (fun _ _ _ => True) [] () := by
  unfold ApprovalGateway.decide
  split
  · rename_i known
    apply obeys_bind_iff.mpr
    refine obeys_call (fun _ => considers_other (by simp)) fun row _ _ => ?_
    cases row with
    | error error => trivial
    | ok row =>
        cases row with
        | none => trivial
        | some columns =>
            obtain ⟨read, readAt⟩ := columns
            apply obeys_bind_iff.mpr
            refine obeys_call (fun _ => considers_other (by simp)) fun now _ _ => ?_
            cases now with
            | error error => trivial
            | ok now =>
                apply obeys_bind_iff.mpr
                refine obeys_call (fun _ id written writtenAt same => ?_) fun reply _ _ => ?_
                · cases same
                  exact ⟨approvalId, decision, read, readAt, now, known, rfl, rfl, rfl, rfl⟩
                · cases reply <;> trivial
  · trivial

theorem entry_decides (entry : Entry) (role : entry.role = i.role) :
    (entry.program s).Obeys (deciding i) (fun _ _ _ => True) [] () := by
  cases entry with
  | enqueue job queue =>
      have within : ((Entry.enqueue job queue).program s).Within fun call =>
          ∀ id decision decidedAt, call ≠ Call.session (.updateDecision id decision decidedAt) :=
        within_bind (RedisQueue.within_enqueue fun _ => by simp) fun _ => trivial
      exact within.obeys (fun _ _ _ other _ => considers_other other) _ _
  | decide approvalId decision =>
      apply obeys_bind_iff.mpr
      refine (obeys_decide approvalId decision).mono fun result h v _ => ?_
      cases result <;> trivial
  | commitPipeline payload | demoRequest payload | start numWorkers | worker | release repo sha =>
      refine obeys_free (F := fun _ => True) (fun _ _ _ => trivial)
        (fun _ call _ _ mine => ?_) trivial
      rw [← role] at mine
      simp [Entry.role] at mine

/-- Every update in a history came as a decide makes it. -/
def AllConsidered (h : History) : Prop := ∀ before id decision decidedAt reply after,
  h = before ++ ⟨.session (.updateDecision id decision decidedAt), reply⟩ :: after →
    Considered before id decision decidedAt

theorem AllConsidered.append {h : History} {x : Interaction calls} (all : AllConsidered h)
    (last : ConsidersFirst h x.call) : AllConsidered (h ++ [x]) := by
  intro before id decision decidedAt reply after same
  rcases List.eq_nil_or_concat after with rfl | ⟨rest, y, rfl⟩
  · obtain ⟨rfl, single⟩ := List.append_inj' same rfl
    cases List.singleton_inj.mp single
    exact last id decision decidedAt rfl
  · rw [List.concat_eq_append, ← List.cons_append, ← List.append_assoc] at same
    exact all before id decision decidedAt reply rest (List.append_inj' same rfl).1

/-- Every call decides as a decide does. -/
structure Deciding (s : Settings) (c : Pool) : Prop where
  obeys : c.Obeys deciding (fun _ _ _ _ => True) fun _ _ => ()
  shadowed : ∃ g, Shadowed s c g
  considered : ∀ i, AllConsidered (c.threads i).past

theorem Fresh.deciding (fresh : Fresh c) : Deciding s c where
  obeys := fun i seen rest active => by
    rw [fresh i] at active
    contradiction
  shadowed := ⟨fun _ => OwnRows.none, fresh.shadowed _⟩
  considered := fun i before id decision decidedAt reply after same => by
    rw [fresh i] at same
    simp [Thread.past] at same

theorem Deciding.allowed {x : Interaction calls} {w : World} (deciding : Deciding s c)
    (step : Step s c (.call i x w) c') : ConsidersFirst (c.threads i).past x.call := by
  intro id decision decidedAt same
  obtain ⟨g, shadowed⟩ := deciding.shadowed
  have mine := step.allowed deciding.obeys
  have whole := step.allowed shadowed.obeys
  unfold protocol at whole
  cases role : i.role <;> rw [role, same] at whole
  case visitor => exact mine role id decision decidedAt same
  all_goals exact whole.elim

theorem Deciding.step {e : RunEvent} (deciding : Deciding s c) (step : Step s c e c') :
    Deciding s c' where
  obeys := by
    refine step.obeys ⟨fun _ _ => trivial⟩ ?_ ?_ (fun _ _ _ _ _ obeys => obeys) deciding.obeys
    · rintro i p rfl
      cases step with
      | spawn unused entry =>
          obtain ⟨-, entry, role, rfl⟩ := entry
          exact entry_decides entry role
    · rintro i p seen a rfl - -
      cases step with
      | again returned next =>
          obtain ⟨role, -, rfl⟩ := next
          refine obeys_free (F := fun _ => True) (fun _ _ _ => trivial)
            (fun _ _ _ _ mine => ?_) trivial
          rw [role] at mine
          contradiction
  shadowed := by
    obtain ⟨g, shadowed⟩ := deciding.shadowed
    exact step_shadowed shadowed step
  considered := by
    intro i
    rw [step.past i]
    cases own : e.own i with
    | none => simpa using deciding.considered i
    | some x =>
        have member : x ∈ (e.own i).toList := by simp [own]
        obtain ⟨before, rfl⟩ := Event.mem_own.mp member
        exact (deciding.considered i).append (deciding.allowed step)

/-! ### Runs -/

/-- One approval is there that nobody has decided. -/
def Pool.asked : Pool :=
  let request : ApprovalRequest := ⟨"Commit 4c1d in app: (no subject)",
    .obj [], [], "low", some 1, some 4⟩
  let approvals := Table.empty.insert ⟨1, 1, .pipeline⟩ (Transaction.newApproval 0 request)
  ⟨{ World.initial with db := { Db.empty with approvals := approvals } }, fun _ => .absent⟩

/-- What a decide on the first approval goes through, from what it reads and when to what it
writes. -/
def decideScript (read : Option String) (readAt : Option Time)
    (now : Time) (decision : Option String) (decidedAt : Option Time) : History :=
  [⟨.session (.findApproval 1), .ok (some (read, readAt))⟩, ⟨.now, .ok now⟩,
    ⟨.session (.updateDecision 1 decision decidedAt), .ok ()⟩]

end WiseOrder
