import WiseOrder.Memory.Session

/-! What a call sees of the database: the rows it inserted itself. A transaction
changes these as `commit` says and leaves the rows of every other call alone, as
long as the ids it was given are the caller's own. A decision on an approval is
taken by others, so it is left out of sight. -/
namespace WiseOrder
open Relational

variable {rows : Rows Approval} {id : Nat} {ρ : Type} {i j : CallId} {now : Time}
  {db db' : Db}

structure OwnRows where
  workflows : Rows Workflow
  tasks : Rows Task
  memory : Rows Memory
  approvals : Rows Approval

def OwnRows.none : OwnRows := ⟨[], [], [], []⟩

def unsigned (rows : Rows Approval) : Rows Approval := rows.map fun (id, a) => (id, a.undecided)

def Db.own (db : Db) (i : CallId) : OwnRows where
  workflows := db.workflows.owned i
  tasks := db.tasks.owned i
  memory := db.memory.owned i
  approvals := unsigned (db.approvals.owned i)

theorem unsigned_holds : (unsigned rows).Holds id ↔ rows.Holds id := by
  constructor
  · rintro ⟨row, member⟩
    obtain ⟨⟨n, a⟩, present, same⟩ := List.mem_map.mp member
    cases same
    exact ⟨a, present⟩
  · rintro ⟨row, member⟩
    exact ⟨row.undecided, List.mem_map.mpr ⟨_, member, rfl⟩⟩

theorem unsigned_change {f : Approval → Approval}
    (commutes : ∀ a, (f a).undecided = f a.undecided) : unsigned (rows.change id f) =
    (unsigned rows).change id f := by
  simp only [unsigned, Rows.change, List.map_map]
  apply List.map_congr_left
  rintro ⟨n, a⟩ -
  by_cases same : n = id <;> simp [same, commutes]

/-- A change that only decides does not show. -/
theorem unsigned_decide {f : Approval → Approval} (hidden : ∀ a, (f a).undecided = a.undecided) :
    unsigned (rows.change id f) = unsigned rows := by
  simp only [unsigned, Rows.change, List.map_map]
  apply List.map_congr_left
  rintro ⟨n, a⟩ -
  by_cases same : n = id <;> simp [same, hidden]

namespace Transaction

/-- The rows that a block reads by id are the caller's own. -/
def Mine (v : OwnRows) : Transaction → Prop
  | .createTask _ id _ | .appendLog id _ | .failWorkflow id _ _ | .completeWorkflow id _ _ =>
      v.workflows.Holds id
  | .completeTask id _ | .failTask id _ => v.tasks.Holds id
  | .setEmbedding id _ => v.memory.Holds id
  | .setDelivered id _ => v.approvals.Holds id
  | .reap .. => False
  | _ => True

/-- The id of a new row is new. -/
def New (v : OwnRows) : (t : Transaction) → t.Reply → Prop
  | .addWorkflow .., id => ¬ v.workflows.Holds id
  | .createTask .., id => ¬ v.tasks.Holds id
  | .addMemory .., id => ¬ v.memory.Holds id
  | .addApproval .., id => ¬ v.approvals.Holds id
  | _, _ => True

/-- The caller's own rows after a block has committed. -/
def commit (now : Time) (v : OwnRows) : (t : Transaction) → t.Reply → OwnRows
  | .addWorkflow name chain logs, id =>
      { v with workflows := v.workflows.add id (newWorkflow now name chain logs) }
  | .createTask type workflowId payload, id =>
      { v with tasks := v.tasks.add id (newTask now type workflowId payload) }
  | .completeTask taskId result, _ =>
      { v with tasks := v.tasks.change taskId (Task.complete now result) }
  | .failTask taskId error, _ => { v with tasks := v.tasks.change taskId (Task.fail now error) }
  | .appendLog workflowId entry, _ =>
      { v with workflows := v.workflows.change workflowId (Workflow.log entry) }
  | .failWorkflow workflowId event error, _ =>
      { v with workflows := v.workflows.change workflowId <|
          Workflow.finish .failed now ⟨now, event, .obj [("error", .str error)]⟩ }
  | .completeWorkflow workflowId event data, _ =>
      { v with workflows := v.workflows.change workflowId (Workflow.finish .completed now
        ⟨now, event, data⟩) }
  | .addMemory category content metadata, id =>
      { v with memory := v.memory.add id (newMemory now category content metadata) }
  | .setEmbedding memoryId embeddingId, _ =>
      { v with memory := v.memory.change memoryId (Memory.embed embeddingId) }
  | .addApproval req, id => { v with approvals := v.approvals.add id (newApproval now req) }
  | .setDelivered approvalId via, _ =>
      { v with approvals := v.approvals.change approvalId (Approval.deliver via) }
  | .findApproval _, _ | .updateDecision .., _ | .reap .., _ => v

/-- A part of a decision, as one of the two verdicts. -/
def Decides : Transaction → Prop
  | .findApproval _ => True
  | .updateDecision _ decision _ => ∀ text ∈ decision, text = "approved" ∨ text = "rejected"
  | _ => False

theorem updateOne_ok {table table' : Table CallId ρ} (updated : updateOne table id f = .ok table') :
    table' = table.updateAt id f := by
  unfold updateOne at updated
  split at updated
  · contradiction
  · exact (Except.ok.inj updated).symm

theorem bind_ok {m : Except ε α} {f : α → Except ε β} (same : m >>= f = .ok b) :
    ∃ a, m = .ok a ∧ f a = .ok b := by
  cases m with
  | error e => contradiction
  | ok a => exact ⟨a, rfl, same⟩

/-- A block that updates one row, as the table it updates. -/
theorem update_ok {table : Table CallId ρ} {x : Unit} {k : Table CallId ρ → Db}
    (ran : (updateOne table id f >>= fun t => .ok ((), k t)) = .ok (x, db')) :
    db' = k (table.updateAt id f) := by
  obtain ⟨table', updated, same⟩ := bind_ok ran
  rw [updateOne_ok updated] at same
  exact (Prod.mk.inj (Except.ok.inj same)).2.symm

/-- A look at an approval changes nothing. -/
theorem find_ok {approvalId : Int} {x : (findApproval approvalId).Reply}
    (ran : (findApproval approvalId).run i now db = .ok (x, db')) :
    db' = db ∧ x = (db.approvals.entries.find? fun e => Int.ofNat e.id = approvalId).map fun e =>
    (e.row.decision, e.row.decidedAt) := by
  simp only [run] at ran
  split at ran
  · obtain ⟨rfl, rfl⟩ := Prod.mk.inj (Except.ok.inj ran)
    exact ⟨rfl, rfl⟩
  · contradiction

theorem own_commit {t : Transaction} {x : t.Reply} (ran : t.run i now db = .ok (x, db'))
    (mine : t.Mine (db.own i)) : t.New (db.own i) x ∧ db'.own i = t.commit now (db.own i) x := by
  cases t with
  | addWorkflow name chain logs =>
      obtain ⟨rfl, rfl⟩ := Prod.mk.inj (Except.ok.inj ran)
      refine ⟨fun holds => absurd (Table.owned_below holds) (Nat.lt_irrefl _), ?_⟩
      simp only [Db.own, commit, Table.owned_insert]
  | createTask type workflowId payload =>
      obtain ⟨rfl, rfl⟩ := Prod.mk.inj (Except.ok.inj ran)
      refine ⟨fun holds => absurd (Table.owned_below holds) (Nat.lt_irrefl _), ?_⟩
      simp only [Db.own, commit, Table.owned_insert]
  | addMemory category content metadata =>
      obtain ⟨rfl, rfl⟩ := Prod.mk.inj (Except.ok.inj ran)
      refine ⟨fun holds => absurd (Table.owned_below holds) (Nat.lt_irrefl _), ?_⟩
      simp only [Db.own, commit, Table.owned_insert]
  | addApproval req =>
      obtain ⟨rfl, rfl⟩ := Prod.mk.inj (Except.ok.inj ran)
      refine ⟨fun holds => absurd (Table.owned_below (unsigned_holds.mp holds)) (Nat.lt_irrefl _),
        ?_⟩
      simp only [Db.own, commit, Table.owned_insert, unsigned, Rows.add, List.map_append]
      rfl
  | completeTask id result | failTask id error | appendLog id entry | failWorkflow id event error
  | completeWorkflow id event data | setEmbedding id embeddingId =>
      refine ⟨trivial, ?_⟩
      rw [update_ok ran]
      simp only [Db.own, commit, Table.owned_updateAt]
  | setDelivered id via =>
      refine ⟨trivial, ?_⟩
      rw [update_ok ran]
      simp only [Db.own, commit, Table.owned_updateAt]
      rw [unsigned_change Approval.undecided_deliver]
  | findApproval id =>
      rw [(find_ok ran).1]
      exact ⟨trivial, rfl⟩
  | updateDecision id decision decidedAt =>
      refine ⟨trivial, ?_⟩
      rw [update_ok ran]
      simp only [Db.own, commit, Table.owned_updateAt]
      rw [unsigned_decide Approval.undecided_decide]
  | reap cutoff marker => exact mine.elim

/-- The rows of another call stay as they are. -/
theorem own_other {t : Transaction} {x : t.Reply} (ran : t.run i now db = .ok (x, db'))
    (mine : t.Mine (db.own i)) (other : i ≠ j) : db'.own j = db.own j := by
  cases t with
  | addWorkflow name chain logs | createTask type workflowId payload
      | addMemory category content metadata
  | addApproval req =>
      obtain ⟨rfl, rfl⟩ := Prod.mk.inj (Except.ok.inj ran)
      simp only [Db.own, Table.owned_insert_other _ _ other]
  | completeTask id result | failTask id error | appendLog id entry | failWorkflow id event error
  | completeWorkflow id event data | setEmbedding id embeddingId =>
      rw [update_ok ran]
      simp only [Db.own, Table.owned_updateAt_other mine other]
  | setDelivered id via =>
      rw [update_ok ran]
      simp only [Db.own, Table.owned_updateAt_other (unsigned_holds.mp mine) other]
  | findApproval id => rw [(find_ok ran).1]
  | updateDecision id decision decidedAt =>
      rw [update_ok ran]
      simp only [Db.own, Table.owned_updateAt]
      rw [unsigned_decide Approval.undecided_decide]
  | reap cutoff marker => exact mine.elim

/-- How a workflow that is there after a block came to be as it is. -/
inductive Leaves (i : CallId) (now : Time) (db : Db) :
    Transaction → Entry CallId Workflow → Prop where
  | kept {t y} (member : y ∈ db.workflows.entries) : Leaves i now db t y
  | added {name chain logs} :
      Leaves i now db (.addWorkflow name chain logs) ⟨db.workflows.next, i,
        newWorkflow now name chain logs⟩
  | logged {entry} (y) (member : y ∈ db.workflows.entries) :
      Leaves i now db (.appendLog y.id entry) { y with row := y.row.log entry }
  | failed {event error} (y) (member : y ∈ db.workflows.entries) :
      Leaves i now db (.failWorkflow y.id event error)
      { y with row := y.row.finish .failed now ⟨now, event, .obj [("error", .str error)]⟩ }
  | completed {event data} (y) (member : y ∈ db.workflows.entries) :
      Leaves i now db (.completeWorkflow y.id event data)
      { y with row := y.row.finish .completed now ⟨now, event, data⟩ }
  | reaped {cutoff marker} (y) (member : y ∈ db.workflows.entries)
      (chosen : orphan cutoff y.row = true) :
      Leaves i now db (.reap cutoff marker) { y with row := y.row.finish .interrupted now marker }

theorem workflow_run {t : Transaction} {x : t.Reply} {y : Entry CallId Workflow}
    (ran : t.run i now db = .ok (x, db')) (member : y ∈ db'.workflows.entries) :
    t.Leaves i now db y := by
  have updated {f : Workflow → Workflow} {n : Nat} {t : Transaction} (here : y ∈
    (db.workflows.updateAt n f).entries)
      (leaves : ∀ z ∈ db.workflows.entries, z.id = n →
          t.Leaves i now db { z with row := f z.row }) : t.Leaves i now db y := by
    obtain ⟨z, old, rfl⟩ := Table.mem_update.mp here
    split
    · rename_i same
      exact leaves z old (of_decide_eq_true same)
    · exact .kept old
  cases t with
  | addWorkflow name chain logs =>
      obtain ⟨rfl, rfl⟩ := Prod.mk.inj (Except.ok.inj ran)
      rcases Table.mem_insert.mp member with old | rfl
      · exact .kept old
      · exact .added
  | createTask | addMemory | addApproval =>
      obtain ⟨rfl, rfl⟩ := Prod.mk.inj (Except.ok.inj ran)
      exact .kept member
  | completeTask | failTask | setEmbedding | setDelivered | updateDecision =>
      rw [update_ok ran] at member
      exact .kept member
  | findApproval id =>
      rw [(find_ok ran).1] at member
      exact .kept member
  | appendLog id entry =>
      rw [update_ok ran] at member
      exact updated member fun z old same => same ▸ .logged z old
  | failWorkflow id event error =>
      rw [update_ok ran] at member
      exact updated member fun z old same => same ▸ .failed z old
  | completeWorkflow id event data =>
      rw [update_ok ran] at member
      exact updated member fun z old same => same ▸ .completed z old
  | reap cutoff marker =>
      obtain ⟨-, rfl⟩ := Prod.mk.inj (Except.ok.inj ran)
      obtain ⟨z, old, rfl⟩ := Table.mem_update.mp member
      split
      · rename_i chosen
        exact .reaped z old chosen
      · exact .kept old

end Transaction

end WiseOrder
