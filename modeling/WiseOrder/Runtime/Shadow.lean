import WiseOrder.Runtime.Invariants

/-! What a call has done by itself. Its shadow is its rows as it left them, whatever a
reaper has made of them since; the program of the call obeys its protocol on the shadow,
and the rows in the database are under the same ids. So in any run whatever, a reaper
that takes a workflow from its call included, a call touches only rows of its own. -/
namespace WiseOrder
open Coroutine Coroutine.Program Relational
variable {s : Settings} {i j : CallId} {v v' : OwnRows} {c c' : Pool} {e : RunEvent} {db db' : Db}
    {now : Time}

/-- The rows are under the same ids. -/
structure OwnRows.Alike (v v' : OwnRows) : Prop where
  workflows : ∀ id, v.workflows.Holds id ↔ v'.workflows.Holds id
  tasks : ∀ id, v.tasks.Holds id ↔ v'.tasks.Holds id
  memory : ∀ id, v.memory.Holds id ↔ v'.memory.Holds id
  approvals : ∀ id, v.approvals.Holds id ↔ v'.approvals.Holds id

namespace OwnRows.Alike

theorem refl (v : OwnRows) : v.Alike v :=
  ⟨fun _ => Iff.rfl, fun _ => Iff.rfl, fun _ => Iff.rfl, fun _ => Iff.rfl⟩

theorem trans {v'' : OwnRows} (first : v.Alike v') (second : v'.Alike v'') : v.Alike v'' :=
  ⟨fun id => (first.workflows id).trans (second.workflows id), fun id =>
    (first.tasks id).trans (second.tasks id),
    fun id => (first.memory id).trans (second.memory id), fun id =>
      (first.approvals id).trans (second.approvals id)⟩

theorem mine {t : Transaction} (alike : v.Alike v') (mine : t.Mine v) : t.Mine v' := by
  cases t with
  | createTask type id payload => exact (alike.workflows id).mp mine
  | appendLog id entry => exact (alike.workflows id).mp mine
  | failWorkflow id event error => exact (alike.workflows id).mp mine
  | completeWorkflow id event data => exact (alike.workflows id).mp mine
  | completeTask id result => exact (alike.tasks id).mp mine
  | failTask id error => exact (alike.tasks id).mp mine
  | setEmbedding id embeddingId => exact (alike.memory id).mp mine
  | setDelivered id via => exact (alike.approvals id).mp mine
  | reap cutoff marker => exact mine.elim
  | addWorkflow | addMemory | addApproval | findApproval | updateDecision => trivial

theorem new {t : Transaction} {x : t.Reply} (alike : v.Alike v') (new : t.New v' x) :
    t.New v x := by
  cases t with
  | addWorkflow name chain logs => exact fun held => new ((alike.workflows x).mp held)
  | createTask type id payload => exact fun held => new ((alike.tasks x).mp held)
  | addMemory category content metadata => exact fun held => new ((alike.memory x).mp held)
  | addApproval req => exact fun held => new ((alike.approvals x).mp held)
  | _ => trivial

theorem holds_add {rows rows' : Rows ρ} {row row' : ρ} {id n : Nat}
    (alike : rows.Holds n ↔ rows'.Holds n) : (rows.add id row).Holds n ↔
    (rows'.add id row').Holds n := by
  simp only [Rows.Holds, Rows.add, List.mem_append, List.mem_singleton,
    Prod.mk.injEq, exists_or] at alike ⊢
  rw [alike]
  simp

theorem commit {t : Transaction} {x : t.Reply} (alike : v.Alike v') :
    (t.commit now v x).Alike (t.commit now v' x) := by
  obtain ⟨workflows, tasks, memory, approvals⟩ := alike
  cases t with
  | addWorkflow | createTask | addMemory | addApproval =>
      constructor
      all_goals
        intro id
        simp only [Transaction.commit]
        first
          | exact holds_add (by apply_assumption)
          | apply_assumption
  | completeTask | failTask | appendLog | failWorkflow | completeWorkflow
      | setEmbedding | setDelivered =>
      constructor
      all_goals
        intro id
        simp only [Transaction.commit, Rows.holds_change]
        apply_assumption
  | findApproval | updateDecision | reap => exact ⟨workflows, tasks, memory, approvals⟩

theorem none (alike : OwnRows.none.Alike v) : v = OwnRows.none := by
  have empty {ρ : Type} {rows : Rows ρ} (same : ∀ id, Rows.Holds (ρ := ρ) [] id ↔
      rows.Holds id) : rows = [] := by
    rw [List.eq_nil_iff_forall_not_mem]
    rintro ⟨id, row⟩ member
    obtain ⟨_, absurdity⟩ := (same id).mpr ⟨row, member⟩
    exact List.not_mem_nil absurdity
  obtain ⟨workflows, tasks, memory, approvals⟩ := v
  rw [OwnRows.none, OwnRows.mk.injEq]
  exact ⟨empty alike.workflows, empty alike.tasks, empty alike.memory, empty alike.approvals⟩

end OwnRows.Alike

/-- The reaper leaves the ids. -/
theorem alike_reap {cutoff : Time} {marker : LogEntry} {n : Nat}
    (ran : (Transaction.reap cutoff marker).run i now db = .ok (n, db')) (j : CallId) :
    (db.own j).Alike (db'.own j) := by
  have kept {ρ : Type} {rows : Rows ρ} (chosen : ρ → Bool) (f : ρ → ρ) (id : Nat) :
      rows.Holds id ↔ Rows.Holds (rows.map fun entry => if chosen entry.2 then (entry.1, f entry.2)
          else entry) id := by
    constructor
    · rintro ⟨row, member⟩
      refine ⟨if chosen row then f row else row, List.mem_map.mpr ⟨(id, row), member, ?_⟩⟩
      dsimp only
      split <;> rfl
    · rintro ⟨row, member⟩
      obtain ⟨⟨n, old⟩, present, same⟩ := List.mem_map.mp member
      dsimp only at same
      split at same <;> cases same <;> exact ⟨_, present⟩
  rw [Transaction.own_reap ran]
  exact ⟨kept _ _, kept _ _, fun _ => Iff.rfl, fun _ => Iff.rfl⟩

/-- Every call obeys its protocol on its shadow, which has the ids of its rows. -/
structure Shadowed (s : Settings) (c : Pool) (g : CallId → OwnRows) : Prop where
  obeys : c.Obeys (protocol s) (fun _ => anyEnd) fun i _ => g i
  alike : ∀ i, c.threads i ≠ .absent → (g i).Alike (view i c.world)

theorem Fresh.shadowed (fresh : Fresh c) (g : CallId → OwnRows) : Shadowed s c g := by
  refine ⟨fun i seen rest active => ?_, fun i there => absurd (fresh i) there⟩
  rw [fresh i] at active
  contradiction

/-- What a transaction of a call leaves to the calls, seen with their shadows. -/
theorem alike_run {g : CallId → OwnRows} {t : Transaction} {x : t.Reply} {h : History} {w : World}
    (permitted : t.Permitted i h (g i)) (ran : t.run i w.clock w.db = .ok (x, db'))
    (mine : (g i).Alike (w.db.own i)) : t.New (g i) x ∧ ∀ j, (g j).Alike (w.db.own j) →
      (Function.update g i (t.commit w.clock (g i) x) j).Alike (db'.own j) := by
  cases permitted with
  | pipeline role lawful =>
      obtain ⟨new, own⟩ := Transaction.own_commit ran (mine.mine lawful.mine)
      refine ⟨mine.new new, fun j alike => ?_⟩
      by_cases same : j = i
      · subst j
        rw [Function.update_self, own]
        exact mine.commit
      · rw [Function.update_of_ne same,
          Transaction.own_other ran (mine.mine lawful.mine) (Ne.symm same)]
        exact alike
  | decision decides =>
      obtain ⟨new, own⟩ := Transaction.own_commit ran decides.mine
      rw [Transaction.own_decide ran decides i] at own
      refine ⟨mine.new new, fun j alike => ?_⟩
      rw [Transaction.own_decide ran decides j]
      by_cases same : j = i
      · subst j
        rw [Function.update_self]
        exact own ▸ mine.commit
      · rwa [Function.update_of_ne same]
  | reap cutoff marker =>
      refine ⟨trivial, fun j alike => ?_⟩
      have after := alike.trans (alike_reap ran j)
      simpa [Transaction.commit] using after

/-- The threads that do not take a step go on with their shadows, if the taker obeys on its new
one. -/
theorem obeys_step_shadow {g k : CallId → OwnRows} (shadowed : Shadowed s c g)
    (step : Step s c e c') (others : ∀ j, ¬ e.By j → k j = g j)
    (mine : ∀ j past rest, e.By j → c'.threads j = .active past rest →
      rest.Obeys (protocol s j) anyEnd past (k j)) :
    c'.Obeys (protocol s) (fun _ => anyEnd) fun i _ => k i := by
  intro j past rest active
  by_cases taker : e.By j
  · exact mine j past rest taker active
  · have same : k j = g j := others j taker
    have before := shadowed.obeys j past rest (step.other taker active)
    dsimp only at before ⊢
    rwa [same]

theorem step_shadowed {g : CallId → OwnRows} (shadowed : Shadowed s c g) (step : Step s c e c') :
    ∃ g', Shadowed s c' g' := by
  have present := step.present
  have obeys (g') := obeys_step_shadow (k := g') shadowed step
  cases step with
  | @spawn i p unused entry =>
      obtain ⟨none, entry, role, rfl⟩ := entry
      refine ⟨Function.update g i OwnRows.none,
        obeys _ (fun j other => Function.update_of_ne (Ne.symm other) _ _) ?_,
        fun j there => ?_⟩
      · rintro j past rest rfl active
        simp only [Function.update_self, Thread.active.injEq] at active ⊢
        obtain ⟨rfl, rfl⟩ := active
        exact entry.obeys role
      · by_cases same : j = i
        · subst j
          have none : view i c.world = OwnRows.none := none
          rw [Function.update_self, none]
          exact .refl _
        · simp only [Function.update_of_ne same] at there ⊢
          exact shadowed.alike j there
  | @call i seen call onReply reply world awaiting performed =>
      change perform i call c.world reply world at performed
      have ready := shadowed.obeys i _ _ awaiting
      have mine := shadowed.alike i (by simp [awaiting])
      have still (j : CallId) (there) : c.threads j ≠ .absent :=
        ((present j).mp there).resolve_right (by simp)
      have goes (g' : CallId → OwnRows) (moved : (protocol s i).effect call (g i) reply (g' i))
        (j past rest)
          (taker : Event.By (.call i ⟨call, reply⟩ c.world : RunEvent) j)
          (active : Function.update c.threads i (.active (seen ++ [⟨call, reply⟩]) (onReply reply))
            j = .active past rest) :
          rest.Obeys (protocol s j) anyEnd past (g' j) := by
        cases taker
        simp only [Function.update_self, Thread.active.injEq] at active
        obtain ⟨rfl, rfl⟩ := active
        exact ready.2 reply _ moved
      rw [protocol_effect] at goes
      cases call with
      | session t =>
          cases reply with
          | error e =>
              rcases performed with rfl | ⟨x, db, ran, rfl⟩
              · exact ⟨g, obeys g (fun _ _ => rfl) (goes g (.inl rfl)), fun j there =>
                  shadowed.alike j (still j there)⟩
              · obtain ⟨new, alike⟩ := alike_run (session_permitted ready.1) ran mine
                exact ⟨_, obeys _ (fun j other => Function.update_of_ne (Ne.symm other) _ _)
                  (goes _ (.inr ⟨x, c.world.clock, new, Function.update_self ..⟩)),
                  fun j there => alike j (shadowed.alike j (still j there))⟩
          | ok x =>
              obtain ⟨db, ran, rfl⟩ := performed
              obtain ⟨new, alike⟩ := alike_run (session_permitted ready.1) ran mine
              exact ⟨_, obeys _ (fun j other => Function.update_of_ne (Ne.symm other) _ _)
                (goes _ ⟨c.world.clock, new, Function.update_self ..⟩), fun j there =>
                  alike j (shadowed.alike j (still j there))⟩
      | _ =>
          have same := (perform_frame performed).db fun t => by simp
          refine ⟨g, obeys g (fun _ _ => rfl) (goes g ?_), fun j there => ?_⟩
          · cases reply with
            | ok x => rfl
            | error e => first | rfl | exact performed
          · have alike := shadowed.alike j (still j there)
            unfold view at alike ⊢
            rwa [same]
  | @again i seen a p returned next =>
      obtain ⟨role, -, rfl⟩ := next
      refine ⟨g, obeys g (fun _ _ => rfl) ?_, fun j there =>
        shadowed.alike j (((present j).mp there).resolve_right (by simp))⟩
      rintro j past rest rfl active
      simp only [Function.update_self, Thread.active.injEq] at active
      obtain ⟨rfl, rfl⟩ := active
      unfold protocol
      rw [role]
      exact (within_workerPass _).obeys (fun _ _ _ may => may) _ _
  | drift moved =>
      refine ⟨g, obeys g (fun _ _ => rfl) fun _ _ _ taker => taker.elim, fun j there => ?_⟩
      rcases moved with ⟨t, -, rfl⟩ | ⟨process, rfl⟩ <;> exact shadowed.alike j there
  | crash fell =>
      obtain ⟨process, -, rfl⟩ := fell
      exact ⟨g, obeys g (fun _ _ => rfl) fun _ _ _ taker => taker.elim,
        fun j there => shadowed.alike j (((present j).mp there).resolve_right (by simp))⟩

theorem run_shadowed {condition : Pool → RunEvent → Pool → Prop} {trace : List RunEvent}
    (fresh : Fresh c) (run : Transition.Run (Transition.Guarded (Step s) condition) c trace c') :
    ∃ g, Shadowed s c' g :=
  run.invariant (P := fun d => ∃ g, Shadowed s d g) (fun ⟨_, shadowed⟩ taken =>
    step_shadowed shadowed taken.1)
    ⟨fun _ => OwnRows.none, fresh.shadowed _⟩

end WiseOrder
