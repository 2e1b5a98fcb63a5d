import WiseOrder.Workflows.DemoFailure
import WiseOrder.Workflows.DemoOutputs

/-! Demo requests that run at one time. Their makes write to the same directories, and
nothing keeps one request's make out of a directory that another is reading. -/
namespace WiseOrder.DemoOutputs
open Coroutine Coroutine.Program Relational DemoForge

/-- The pool of calls next to the disk of the demo repository. -/
structure Shop where
  pool : Pool
  disk : Disk

inductive ShopEvent where
  | pool (e : RunEvent)
  | make (i : CallId) (t : Target) (change : Change)

def ShopEvent.pool? : ShopEvent → Option RunEvent
  | pool e => some e
  | make .. => none

/-- A make goes on while its call awaits it, and outlives a call that is lost. -/
def Running (s : Settings) (t : Target) (thread : Thread calls Returned) : Prop :=
  (∃ seen timeout onReply,
    thread = .active seen (.await (.subprocess t.command s.demoForgeDir timeout) onReply)) ∨
    ∃ seen, thread = .lost seen

inductive ShopStep (s : Settings) : Shop → ShopEvent → Shop → Prop where
  | pool {u e c} (step : Step s u.pool e c)
      (answered : ∀ i x before, e = .call i x before → u.disk.Answers s i x.call x.reply) :
      ShopStep s u (.pool e) ⟨c, u.disk⟩
  | make {u i t change} (running : Running s t (u.pool.threads i))
      (ready : u.disk.Ready i t change) :
      ShopStep s u (.make i t change) ⟨u.pool, u.disk.make i t.scenario change⟩

/-- The request has wiped the directory of a scenario, and has yet to hash what is there. -/
def InUse (u : Shop) (i : CallId) (scenario : String) : Prop :=
  (∃ d, u.disk.produced i = some (scenario, d)) ∧ (u.pool.threads i).Live ∧
    History.stage (u.pool.threads i).past ≠ .hashed

/-- No make changes a directory that another request has in use. -/
def Apart (u : Shop) (e : ShopEvent) (_ : Shop) : Prop :=
  ∀ j t change i, e = .make j t change → i ≠ j → ¬ InUse u i t.scenario

/-- No call has made anything yet. -/
def Shop.Fresh (u : Shop) : Prop := ∀ i, u.disk.produced i = none

/-- What a request knows of its outputs, for the disk as it is. -/
def known (disk : Disk) (i : CallId) (seen : History) : Outputs :=
  ⟨disk.produced i, History.stage seen⟩

/-- The database has a manifest of these files, stored by the call, and the card of it. -/
def Manifested (db : Db) (i : CallId) (workflowId approvalId : Nat) (scenario : String)
    (files : List Artifact) : Prop :=
  ∃ m : Manifest, m.scenario = scenario ∧ m.artifacts = files ∧
    (∃ e ∈ db.memory.entries, e.owner = i ∧ e.row.category = "demo_forge_manifest" ∧
      e.row.metadata = m.json) ∧
    ∃ e ∈ db.approvals.entries, e.owner = i ∧ e.id = approvalId ∧
      e.row.workflowId = some workflowId ∧
      e.row.affected = m.artifacts.map Artifact.name ∧ ∃ thread, e.row.outputs = card m thread

section
variable {s : Settings} {u u' : Shop} {e : ShopEvent} {i : CallId} {payload : Json} {seen : History}
  {rest : Async Returned} {trace : List ShopEvent}

/-! ### One step -/

/-- A request goes on as its protocol says, and what it has in use is what its makes have
produced. -/
structure Follows (s : Settings) (i : CallId) (u : Shop) : Prop where
  there : u.pool.threads i ≠ .absent
  obeys : ∀ seen rest, u.pool.threads i = .active seen rest →
    rest.Obeys (outputsProtocol s) (returning Truthful) seen (known u.disk i seen)
  own : ∀ scenario d, InUse u i scenario → u.disk.produced i = some (scenario, d) →
    u.disk.outputs scenario = some d

/-- What a call learns from the disk, if what it has in use is its own. -/
theorem learns_answers {c : Call} {reply : Except PyException c.Reply}
    {onReply : Except PyException c.Reply → Async Returned} (answers : u.disk.Answers s i c reply)
    (active : u.pool.threads i = .active seen (.await c onReply))
    (own : ∀ scenario d, InUse u i scenario → u.disk.produced i = some (scenario, d) →
      u.disk.outputs scenario = some d) :
    Learns s c (known u.disk i seen) reply (known u.disk i (seen ++ [⟨c, reply⟩])) where
  stage := History.stage_snoc seen ⟨c, reply⟩
  made _ := rfl
  finds unhashed scenario d made valid := by
    have used : InUse u i scenario := by
      refine ⟨⟨d, made⟩, ⟨seen, _, active, trivial⟩, ?_⟩
      rw [active]
      exact unhashed
    rw [← own scenario d used made]
    exact answers.finds scenario valid
  wiped := answers.wiped
  kept _ _ _ d _ made := ⟨d, made⟩

/-- A make of the request's own changes what the request awaits, and nothing that it relies on. -/
theorem obeys_make {t : Target} {timeout : Nat}
    {onReply : Except PyException (Int × String × String) → Async Returned} {v : Outputs}
    (d : Directory)
    (ready : (∃ scenario, t = .demo scenario) ∨ ∃ d, v.made = some (t.scenario, d))
    (obeys : (Program.await (.subprocess t.command s.demoForgeDir timeout) onReply : Async
      Returned).Obeys (outputsProtocol s)
      (returning Truthful) seen v) :
    (Program.await (.subprocess t.command s.demoForgeDir timeout) onReply : Async Returned).Obeys
    (outputsProtocol s)
      (returning Truthful) seen ⟨some (t.scenario, d), v.stage⟩ := by
  refine ⟨trivial, fun reply after learns => obeys.2 reply after ?_⟩
  constructor
  case stage => exact learns.stage
  case made => exact fun other => absurd rfl (other _ _ _)
  case finds => exact fun _ _ _ _ _ => by cases reply <;> trivial
  case wiped => exact learns.wiped
  case kept =>
    intro scenario cwd timeout' d' same made
    rcases ready with ⟨other, rfl⟩ | ⟨d'', here⟩
    · exact absurd (Call.subprocess.inj same).1 (Target.demo_ne_film _ _)
    · rw [here] at made
      cases made
      exact learns.kept t.scenario cwd timeout' d same rfl

theorem InUse.before {c : Pool} {e : RunEvent} (step : Step s u.pool e c)
    (there : u.pool.threads i ≠ .absent) (unended : ∀ p, e ≠ .again i p)
    (used : InUse ⟨c, u.disk⟩ i scenario) : InUse u i scenario := by
  obtain ⟨made, live, unhashed⟩ := used
  refine ⟨made, ?_, fun hashed => unhashed ?_⟩
  · rcases step.live live with ⟨p, rfl⟩ | ⟨p, rfl⟩ | ⟨before, -⟩
    · cases step with
      | spawn unused entry => exact absurd unused there
    · exact absurd rfl (unended p)
    · exact before
  · dsimp only
    rw [step.past i]
    cases own : Event.own i e with
    | none => simpa using hashed
    | some x =>
        rw [Option.toList_some, History.stage_snoc, hashed]
        cases x.call <;> rfl

theorem Follows.pool {c : Pool} {e : RunEvent} (follows : Follows s i u) (step : Step s u.pool e c)
    (answered : ∀ i x before, e = .call i x before → u.disk.Answers s i x.call x.reply) :
    Follows s i ⟨c, u.disk⟩ := by
  have unended : ∀ p, e ≠ .again i p := by
    rintro p rfl
    cases step with
    | again returned next =>
        obtain ⟨workflowId, approvalId, m, d, same, -⟩ : Truthful _ _ _ :=
          follows.obeys _ _ returned
        cases same.symm.trans next.2.1
  constructor
  case there => exact (step.present i).mpr (.inl follows.there)
  case own =>
    exact fun scenario d used made =>
      follows.own scenario d (used.before step follows.there unended) made
  case obeys =>
    intro seen rest active
    by_cases mine : e.By i
    · cases step with
      | spawn unused entry =>
          cases mine
          exact absurd unused follows.there
      | call awaiting performed =>
          cases mine
          simp only [Function.update_self, Thread.active.injEq] at active
          obtain ⟨rfl, rfl⟩ := active
          exact (follows.obeys _ _ awaiting).2 _ _
            (learns_answers (answered _ _ _ rfl) awaiting follows.own)
      | again returned next =>
          cases mine
          exact absurd rfl (unended _)
      | drift | crash => exact mine.elim
    · exact follows.obeys seen rest (step.other mine active)

theorem Follows.make {j : CallId} {t : Target} {change : Change} (follows : Follows s i u)
    (running : Running s t (u.pool.threads j)) (ready : u.disk.Ready j t change)
    (apart : i ≠ j → ¬ InUse u i t.scenario) :
    Follows s i ⟨u.pool, u.disk.make j t.scenario change⟩ := by
  by_cases mine : i = j
  · subst j
    have begun : (∃ scenario, t = .demo scenario) ∨
        ∃ d, u.disk.produced i = some (t.scenario, d) := by
      cases change with
      | wipe => exact .inl ready
      | write | remove => exact .inr ready
    refine ⟨follows.there, ?_, ?_⟩
    · intro seen rest active
      rcases running with ⟨seen', timeout, onReply, awaiting⟩ | ⟨seen', lost⟩
      · rw [awaiting] at active
        cases active
        have later := obeys_make (change.apply (((u.disk.produced i).map Prod.snd).getD ∅)) begun
          (follows.obeys _ _ awaiting)
        simpa [known, Disk.make] using later
      · rw [lost] at active
        contradiction
    · rintro scenario d ⟨-, live, unhashed⟩ made
      simp only [Disk.make, Function.update_self, Option.some.injEq, Prod.mk.injEq] at made
      obtain ⟨rfl, rfl⟩ := made
      simp only [Disk.make, Function.update_self, Option.some.injEq]
      cases change with
      | wipe => rfl
      | write | remove =>
          obtain ⟨d, here⟩ := ready
          rw [follows.own t.scenario d ⟨⟨d, here⟩, live, unhashed⟩ here, here]
          rfl
  · have same : (u.disk.make j t.scenario change).produced i = u.disk.produced i :=
      Function.update_of_ne mine _ _
    refine ⟨follows.there, fun seen rest active => ?_, ?_⟩
    · have before := follows.obeys seen rest active
      simpa [known, same] using before
    · rintro scenario d ⟨there, live, unhashed⟩ made
      rw [same] at made
      have used : InUse u i scenario := ⟨⟨d, made⟩, live, unhashed⟩
      have other : scenario ≠ t.scenario := fun here => apart mine (here ▸ used)
      simpa [Disk.make, Function.update_of_ne other] using follows.own scenario d used made

theorem Follows.step (follows : Follows s i u)
    (step : Transition.Guarded (ShopStep s) Apart u e u') : Follows s i u' := by
  obtain ⟨taken, apart⟩ := step
  cases taken with
  | pool step answered => exact follows.pool step answered
  | make running ready => exact follows.make running ready (apart _ _ _ i rfl)

/-- A call that is not there has nothing made. -/
def Unmade (u : Shop) : Prop := ∀ i, u.pool.threads i = .absent → u.disk.produced i = none

theorem Unmade.step (unmade : Unmade u) (step : ShopStep s u e u') : Unmade u' := by
  intro i absent
  cases step with
  | pool step answered =>
      apply unmade
      by_contra there
      exact (step.present i).mpr (.inl there) absent
  | @make j t change running ready =>
      have other : i ≠ j := by
        rintro rfl
        rcases running with ⟨seen, timeout, onReply, active⟩ | ⟨seen, lost⟩
        · rw [absent] at active
          contradiction
        · rw [absent] at lost
          contradiction
      exact (Function.update_of_ne other _ _).trans (unmade i absent)

/-! ### Runs -/

theorem Follows.spawned (unmade : Unmade u)
    (step : ShopStep s u (.pool (.spawn i (runDemoForgeRequest s payload))) u') :
    Follows s i u' := by
  cases step with
  | pool step answered =>
      cases step with
      | spawn unused entry =>
          have none := unmade i unused
          refine ⟨by simp, fun seen rest active => ?_, ?_⟩
          · simp only [Function.update_self, Thread.active.injEq] at active
            obtain ⟨rfl, rfl⟩ := active
            simpa [known, none, History.stage] using learns_runDemoForgeRequest payload
          · rintro scenario d - made
            rw [none] at made
            contradiction

/-- The pool goes through the steps of its own. -/
theorem pool_run {condition : Shop → ShopEvent → Shop → Prop}
    (run : Transition.Run (Transition.Guarded (ShopStep s) condition) u trace u') :
    Transition.Run (Step s) u.pool (trace.filterMap ShopEvent.pool?) u'.pool := by
  induction run with
  | refl => exact .refl _
  | next earlier taken ih =>
      rw [List.filterMap_append]
      cases taken.1 with
      | pool step answered => exact ih.next step
      | make running ready =>
          rw [List.filterMap_cons_none rfl, List.filterMap_nil, List.append_nil]
          exact ih

/-- A request that has returned has recorded what its own makes have produced. -/
theorem run_truthful (fresh : u.Fresh)
    (run : Transition.Run (Transition.Guarded (ShopStep s) Apart) u trace u')
    (made : .pool (.spawn i (runDemoForgeRequest s payload)) ∈ trace)
    (ended : u'.pool.threads i = .active seen (.done (.ok r))) :
    Truthful r seen (known u'.disk i seen) := by
  obtain ⟨past, later, rfl⟩ := List.append_of_mem made
  obtain ⟨t, t', before, taken, after⟩ := run.split_at
  have unmade : Unmade t :=
    before.unguard.invariant (fun unmade step => unmade.step step) fun i _ => fresh i
  have follows : Follows s i u' :=
    after.invariant (fun follows step => follows.step step) (.spawned unmade taken.1)
  exact follows.obeys _ _ ended

/-! ### The rows -/

section
variable {c c' : Pool} {events : List RunEvent}

/-- The rows of both tables are still there, with what they were inserted with. -/
def Keeps (c c' : Pool) : Prop :=
  c.world.db.memory.Evolves SameMemory c'.world.db.memory ∧
    c.world.db.approvals.Evolves SameRequest c'.world.db.approvals

theorem Keeps.refl (c : Pool) : Keeps c c :=
  ⟨.refl (fun _ => ⟨rfl, rfl⟩) _, .refl (fun _ => ⟨rfl, rfl, rfl⟩) _⟩

theorem Keeps.trans {c'' : Pool} (first : Keeps c c') (second : Keeps c' c'') : Keeps c c'' :=
  ⟨first.1.trans (fun before after => ⟨after.1.trans before.1, after.2.trans before.2⟩) second.1,
    first.2.trans (fun before after => ⟨after.1.trans before.1, after.2.1.trans before.2.1,
      after.2.2.trans before.2.2⟩) second.2⟩

theorem keeps_step {event : RunEvent} (step : Step s c event c') : Keeps c c' := by
  have hosted : Hosted (runtime s) := ⟨rfl, rfl, rfl⟩
  rcases hosted.ran step with ⟨same, -⟩ | ⟨j, t, x, reply, -, -, ran⟩
  · unfold Keeps
    rw [same]
    exact Keeps.refl c
  · exact Transaction.rows_run ran

theorem keeps_run (run : Transition.Run (Step s) c events c') : Keeps c c' :=
  run.relation Keeps.refl Keeps.trans keeps_step

/-- A transaction that a run has committed ran on the rows that there were, and they are kept. -/
theorem run_commits {t : Transaction} {x : t.Reply} {w : World}
    (run : Transition.Run (Step s) c events c') (made : .call i ⟨.session t, .ok x⟩ w ∈ events) :
    ∃ now db db', t.run i now db = .ok (x, db') ∧ db'.memory.Evolves SameMemory c'.world.db.memory ∧
      db'.approvals.Evolves SameRequest c'.world.db.approvals := by
  obtain ⟨past, later, rfl⟩ := List.append_of_mem made
  obtain ⟨d, d', -, taken, after⟩ := run.split_at
  have hosted : Hosted (runtime s) := ⟨rfl, rfl, rfl⟩
  rcases hosted.ran taken with ⟨-, none⟩ | ⟨j, t', x', reply, same, told, ran⟩
  · exact absurd rfl (none i t x w)
  · cases same
    cases told x rfl
    exact ⟨_, _, _, ran, keeps_run after⟩

/-- What a request has recorded is in the database. -/
theorem Recorded.kept {workflowId approvalId : Nat} {m : Manifest}
    (recorded : Recorded seen workflowId approvalId m) (run : Transition.Run (Step s) c events c')
    (fresh : c.threads i = .absent) (past : (c'.threads i).past = seen) :
    Manifested c'.world.db i workflowId approvalId m.scenario m.artifacts := by
  subst past
  obtain ⟨⟨content, id, stored⟩, req, asked, workflow, affected, thread, outputs⟩ := recorded
  obtain ⟨before, stored⟩ := (Machine.mem_past (fun taken => taken) run fresh).mp stored
  obtain ⟨before', asked⟩ := (Machine.mem_past (fun taken => taken) run fresh).mp asked
  refine ⟨m, rfl, rfl, ?_, ?_⟩
  · obtain ⟨now, db, db', ran, memory, -⟩ := run_commits run stored
    obtain ⟨rfl, rfl⟩ := Prod.mk.inj (Except.ok.inj ran)
    obtain ⟨row, same, there⟩ := memory _ (Table.mem_insert.mpr (.inr rfl))
    exact ⟨_, there, rfl, same.1, same.2⟩
  · obtain ⟨now, db, db', ran, -, approvals⟩ := run_commits run asked
    obtain ⟨rfl, rfl⟩ := Prod.mk.inj (Except.ok.inj ran)
    obtain ⟨row, same, there⟩ := approvals _ (Table.mem_insert.mpr (.inr rfl))
    exact ⟨_, there, rfl, rfl, same.1.trans workflow, same.2.1.trans affected,
      thread, same.2.2.trans outputs⟩

end

/-- In every run in which no make changes a directory that another request has in use, the manifest
and the card of a request that has returned list what its own makes have produced. -/
theorem demos_apart (fresh : u.Fresh)
    (run : Transition.Run (Transition.Guarded (ShopStep s) Apart) u trace u')
    (made : .pool (.spawn i (runDemoForgeRequest s payload)) ∈ trace)
    (ended : u'.pool.threads i = .active seen (.done (.ok r))) :
    ∃ workflowId approvalId scenario d, r = .demo workflowId approvalId scenario
    (artifactsOf d).length ∧
      u'.disk.produced i = some (scenario, d) ∧ Manifested u'.pool.world.db i workflowId approvalId
        scenario (artifactsOf d) := by
  obtain ⟨workflowId, approvalId, m, d, rfl, produced, files, recorded⟩ :=
    run_truthful fresh run made ended
  have spawned : Event.spawn i (runDemoForgeRequest s payload) ∈ trace.filterMap ShopEvent.pool? :=
    List.mem_filterMap.mpr ⟨_, made, rfl⟩
  have unused := Machine.absent_before (fun taken => taken) (pool_run run) spawned
  refine ⟨workflowId, approvalId, m.scenario, d, by rw [files], produced, ?_⟩
  rw [← files]
  exact recorded.kept (pool_run run) unused (by rw [ended]; rfl)

end

/-! ### Two requests for one scenario -/

section
variable {s : Settings} {condition : Shop → ShopEvent → Shop → Prop} {disk : Disk}
    {c c' : Pool} {events : List RunEvent}

/-- A run of the pool whose calls the disk answers. -/
theorem shop_run (disk : Disk) (free : ∀ u e u', condition u (.pool e) u')
    (run : Transition.Run (Step s) c events c')
    (answered : ∀ i x before, .call i x before ∈ events → disk.Answers s i x.call x.reply) :
    Transition.Run (Transition.Guarded (ShopStep s) condition) ⟨c, disk⟩
    (events.map .pool) ⟨c', disk⟩ := by
  induction run with
  | refl => exact .refl _
  | next earlier taken ih =>
      rw [List.map_append]
      refine (ih fun i x before member => answered i x before (List.mem_append_left _ member)).next
        ⟨.pool taken ?_, free _ _ _⟩
      exact fun i x before same =>
        answered i x before (List.mem_append_right _ (List.mem_singleton.mpr same.symm))

theorem answered_playing {i j : CallId} {x : Interaction calls} {before : World} {script : History}
    (answers : ∀ x ∈ script, disk.Answers s i x.call x.reply)
    (playing : Machine.Playing i script events) (member : .call j x before ∈ events) :
    disk.Answers s j x.call x.reply := by
  obtain ⟨y, there, before', same⟩ := playing _ member
  cases same
  exact answers _ there

/-- Neither runs a target nor looks at a directory. -/
def Plain : Call → Prop
  | .subprocess .. | .isDir _ | .iterdir _ | .isFile _ | .readBytes _ => False
  | _ => True

theorem answers_plain {i : CallId} {x : Interaction calls} (plain : Plain x.call) :
    disk.Answers s i x.call x.reply := by
  obtain ⟨call, reply⟩ := x
  refine ⟨fun scenario _ => ?_, fun scenario succeeds => ?_⟩
  · cases call with
    | subprocess | isDir | iterdir | isFile | readBytes => exact plain.elim
    | _ => cases reply <;> trivial
  · cases call with
    | subprocess => exact plain.elim
    | _ => cases reply <;> exact succeeds.elim

theorem makefile_apart (scenario name : String) : s.demoForgeDir ++ "/Makefile" ≠
      outDir s scenario ++ "/" ++ name := by
  simp only [outDir, String.append_assoc]
  intro same
  have rest := String.append_right_inj _ |>.mp same
  have second := congrArg (fun text : String => text.toList[1]?) rest
  simp [String.toList_append] at second

theorem checkTools_apart (scenario : String) :
    ["make", "check-tools"] ≠ (Target.demo scenario).command := by
  simp only [Target.command, ne_eq, List.cons.injEq, true_and, and_true]
  intro same
  have first := congrArg (fun text : String => text.toList.head?) same
  simp [String.toList_append] at first

theorem outDir_inj {scenario other : String} (same : outDir s scenario = outDir s other) :
    scenario = other :=
  (String.append_right_inj _).mp same

theorem path_inj {scenario other name name' : String} (valid : scenario ∈ validScenarios)
    (valid' : other ∈ validScenarios)
    (same : outDir s scenario ++ "/" ++ name = outDir s other ++ "/" ++ name') :
    scenario = other ∧ name = name' := by
  have long {text : String} (valid : text ∈ validScenarios) : text.toList.length = 3 := by
    simp only [validScenarios, List.mem_cons, List.not_mem_nil, or_false] at valid
    rcases valid with rfl | rfl | rfl <;> rfl
  simp only [outDir, String.append_assoc, String.append_right_inj] at same
  have apart := congrArg String.toList same
  simp only [String.toList_append] at apart
  obtain ⟨first, rest⟩ := List.append_inj apart ((long valid).trans (long valid').symm)
  exact ⟨String.toList_inj.mp first, String.toList_inj.mp (List.append_inj rest rfl).2⟩

section
variable {i : CallId} {scenario name : String} {d : Directory}

theorem answers_isDir (here : disk.outputs scenario = some d) :
    disk.Answers s i (.isDir (outDir s scenario)) (.ok true) where
  finds other _ same := by
    rw [← outDir_inj same, here]
    rfl
  wiped _ succeeds := succeeds.elim

theorem answers_iterdir {names : List String} (here : disk.outputs scenario = some d)
    (listed : names.Perm d.keys) : disk.Answers s i (.iterdir (outDir s scenario)) (.ok names) where
  finds other _ same := by
    rw [← outDir_inj same]
    exact ⟨d, here, listed⟩
  wiped _ succeeds := succeeds.elim

theorem answers_isFile {b : Bool} (valid : scenario ∈ validScenarios)
    (here : disk.outputs scenario = some d)
    (found : b = true ↔ ∃ body, d.lookup name = some (.file body)) :
    disk.Answers s i (.isFile (outDir s scenario ++ "/" ++ name)) (.ok b) where
  finds other valid' name' same := by
    obtain ⟨rfl, rfl⟩ := path_inj valid valid' same
    rw [here]
    exact found
  wiped _ succeeds := succeeds.elim

theorem answers_readBytes {body : List UInt8} (valid : scenario ∈ validScenarios)
    (here : disk.outputs scenario = some d) (found : d.lookup name = some (.file body)) :
    disk.Answers s i (.readBytes (outDir s scenario ++ "/" ++ name)) (.ok body) where
  finds other valid' name' same := by
    obtain ⟨rfl, rfl⟩ := path_inj valid valid' same
    rw [here]
    exact found
  wiped _ succeeds := succeeds.elim

end

end

/-- A job's payload for one of the demos, without the film. -/
def castPayload : Json := .obj [("scenario", .str "001"), ("skip_render", .bool true)]

def castStarted : LogEntry :=
  ⟨0, "demo_request_started", .obj [("scenario", .str "001"), ("trigger", .str "manual"),
  ("demo_forge_dir", .str "/root/Desktop/demo-forge"), ("skip_render", .bool true)]⟩

def castDir : String := outDir (.defaults "/root") "001"

/-- The first calls of a request, up to where it awaits its make. -/
def opening (workflowId taskId : Nat) : History := [
  ⟨.isFile ((Settings.defaults "/root").demoForgeDir ++ "/Makefile"), .ok true⟩,
    ⟨.now, .ok (0 : Time)⟩,
  ⟨.session (.addWorkflow "demo_request" taskChain [castStarted]), .ok workflowId⟩,
  ⟨.session (.createTask "check_tools" workflowId (.obj [("scenario", .str "001")])), .ok taskId⟩,
  ⟨.subprocess ["make", "check-tools"] "/root/Desktop/demo-forge" 90, .ok ((0 : Int), "", "")⟩,
  ⟨.session (.completeTask taskId (.obj [("out", .str (Python.take 500 (Python.strip "")))])),
    .ok ()⟩,
  ⟨.session (.createTask "capture" workflowId (.obj [("scenario", .str "001")])), .ok (taskId + 1)⟩]

/-- The calls of the first request when its make is done, up to its manifest. -/
def captured : History := [
  ⟨.subprocess ["make", "demo-001"] "/root/Desktop/demo-forge" 180, .ok ((0 : Int), "", "")⟩,
  ⟨.session (.completeTask 2 (.obj [("out_tail", .arr (lastLines 30 ""))])), .ok ()⟩,
  ⟨.session (.createTask "manifest" 1 (.obj [("scenario", .str "001")])), .ok (3 : Nat)⟩]

def castRequest (m : Manifest) : ApprovalRequest where
  summary := approvalSummary "001" "manual"
  outputs := card m ""
  affected := m.artifacts.map Artifact.name
  riskLevel := "low"
  workflowId := some 1
  taskId := some 6

/-- The calls of the first request once it has its manifest. -/
def closing (m : Manifest) : History := [
  ⟨.session (.completeTask 3 (.obj [("artifact_count", .int m.artifacts.length)])), .ok ()⟩,
  ⟨.session (.addMemory "demo_forge_manifest" (memoryContent "001" m) m.json), .ok (1 : Nat)⟩,
  ⟨.session (.createTask "approve" 1 (.obj [("scenario", .str "001")])), .ok (6 : Nat)⟩,
  ⟨.isFile (castDir ++ "/DEMO_" ++ m.scenario ++ "_x_thread.md"), .ok false⟩,
  ⟨.session (.addApproval (castRequest m)), .ok (1 : Nat)⟩, ⟨.now, .ok (0 : Time)⟩,
  ⟨.appendFile ((ApprovalGateway.Record.mk 1 0 (castRequest m)).json.dumps ++ "\n"), .ok ()⟩,
  ⟨.httpOpen, .ok ()⟩, ⟨.httpClose, .ok ()⟩,
  ⟨.session (.setDelivered 1 (some (",".intercalate ["file"]))), .ok ()⟩,
  ⟨.session (.completeTask 6 (.obj [("approval_id", .int 1)])), .ok ()⟩,
  ⟨.session (.completeWorkflow 1 "demo_request_completed" (.obj [("approval_id", .int 1)])),
    .ok ()⟩]

def asker : CallId := ⟨1, 1, .pipeline⟩

def rival : CallId := ⟨1, 2, .pipeline⟩

/-- The calls of the first request on its outputs. -/
def looking (names : List String) (reads : History) : History :=
  ⟨.isDir castDir, .ok true⟩ :: ⟨.iterdir castDir, .ok names⟩ :: reads ++ [⟨.now, .ok (0 : Time)⟩]

def nothing : Disk := ⟨fun _ => none, fun _ => none⟩

/-- The make of the first request has wiped the directory and written one file. -/
def cast : Disk := (nothing.make asker "001" .wipe).make asker "001"
    (.write "DEMO_001.cast" (.file []))

theorem answers_opening {disk : Disk} {i : CallId} {workflowId taskId : Nat} :
    ∀ x ∈ opening workflowId taskId, disk.Answers (.defaults "/root") i x.call x.reply := by
  intro x member
  simp only [opening, List.mem_cons, List.not_mem_nil, or_false] at member
  rcases member with rfl | rfl | rfl | rfl | rfl | rfl | rfl
  · exact ⟨fun scenario _ name same => absurd same (makefile_apart scenario name),
      fun _ succeeds => succeeds.elim⟩
  · exact answers_plain trivial
  · exact answers_plain trivial
  · exact answers_plain trivial
  · exact ⟨fun _ _ => trivial, fun scenario succeeds =>
      absurd succeeds.1 (checkTools_apart scenario)⟩
  · exact answers_plain trivial
  · exact answers_plain trivial

theorem answers_captured :
    ∀ x ∈ captured, cast.Answers (.defaults "/root") asker x.call x.reply := by
  intro x member
  simp only [captured, List.mem_cons, List.not_mem_nil, or_false] at member
  rcases member with rfl | rfl | rfl
  · refine ⟨fun _ _ => trivial, fun scenario succeeds => ?_⟩
    have same : "demo-" ++ "001" = "demo-" ++ scenario :=
      (List.cons.inj (List.cons.inj succeeds.1).2).1
    rw [← (String.append_right_inj _).mp same]
    exact ⟨_, rfl⟩
  · exact answers_plain trivial
  · exact answers_plain trivial

theorem answers_closing {disk : Disk} {m : Manifest} {d : Directory} (named : m.scenario = "001")
    (here : disk.outputs "001" = some d) (none : d.lookup "DEMO_001_x_thread.md" = none) :
    ∀ x ∈ closing m, disk.Answers (.defaults "/root") asker x.call x.reply := by
  intro x member
  simp only [closing, List.mem_cons, List.not_mem_nil, or_false] at member
  rcases member with rfl | rfl | rfl | rfl | rfl | rfl | rfl | rfl | rfl | rfl | rfl | rfl
  case inr.inr.inr.inl =>
    have absent : disk.Answers (.defaults "/root") asker (.isFile (castDir ++ "/" ++
        "DEMO_001_x_thread.md")) (.ok false) :=
      answers_isFile (by simp [validScenarios]) here (by simp [none])
    rw [named]
    exact absent
  all_goals exact answers_plain trivial

theorem run_make {s : Settings} {condition : Shop → ShopEvent → Shop → Prop}
    {u u' : Shop} {trace : List ShopEvent}
    (earlier : Transition.Run (Transition.Guarded (ShopStep s) condition) u trace u') (i : CallId)
    (t : Target) (change : Change) (running : Running s t (u'.pool.threads i))
    (ready : u'.disk.Ready i t change) (admitted : ∀ v, condition u' (.make i t change) v) :
    Transition.Run (Transition.Guarded (ShopStep s) condition) u (trace ++ [.make i t change])
      ⟨u'.pool, u'.disk.make i t.scenario change⟩ :=
  earlier.next ⟨.make running ready, admitted _⟩

/-- The calls on a directory with these names, up to the manifest. -/
theorem plays_buildManifest {w : World} {names : List String} {reads : History}
    {artifacts : List Artifact} (zero : w.clock = 0)
    (sorted : (names.mergeSort fun a b => decide (a ≤ b)) = names)
    (plays : Plays (perform asker) (readArtifacts castDir names) w reads
      (.done (.ok artifacts)) w) :
    Plays (perform asker) (buildManifest castDir "001") w
    (⟨.iterdir castDir, .ok names⟩ :: reads ++ [⟨.now, .ok (0 : Time)⟩])
      (.done (.ok ⟨"001", 0, castDir, artifacts⟩)) w := by
  refine .call rfl ?_
  have reading : Plays (perform asker) (do
      let artifacts ← readArtifacts castDir names
      let now ← utcnow
      return Manifest.mk "001" now castDir artifacts : Async Manifest) w reads (do
      let now ← utcnow
      return Manifest.mk "001" now castDir artifacts) w := plays.andThen _
  rw [← sorted] at reading
  have now : perform asker .now w (.ok (0 : Time)) w := ⟨zero.symm, rfl⟩
  exact reading.trans (.call now (.stop _ _))

/-- Two requests for one scenario. The second starts its make when the first has come to its
manifest. -/
theorem two_requests (condition : Shop → ShopEvent → Shop → Prop) (names : List String)
    (reads : History) (disk : Disk) (others : List ShopEvent) (m : Manifest)
    (free : ∀ u e u', condition u (.pool e) u')
    (makes : ∀ u change u', (∀ i ≠ asker, u.disk.produced i = none) →
      condition u (.make asker (.demo "001") change) u')
    (reading : ∀ (w : World), w.clock = 0 → Plays (perform asker) (buildManifest castDir "001") w
      (⟨.iterdir castDir, .ok names⟩ :: reads ++ [⟨.now, .ok (0 : Time)⟩]) (.done (.ok m)) w)
    (second : ∀ c, Running (.defaults "/root") (.demo "001") (c.threads rival) →
      Transition.Run (Transition.Guarded (ShopStep (.defaults "/root")) condition)
        ⟨c, cast⟩ others ⟨c, disk⟩)
    (looks : ∀ x ∈ looking names reads, disk.Answers (.defaults "/root") asker x.call x.reply)
    (closes : ∀ x ∈ closing m, disk.Answers (.defaults "/root") asker x.call x.reply) :
    ∃ trace c seen, Transition.Run (Transition.Guarded (ShopStep (.defaults "/root")) condition)
    ⟨Pool.initial, nothing⟩ trace ⟨c, disk⟩ ∧
      .pool (.spawn asker (runDemoForgeRequest (.defaults "/root") castPayload)) ∈ trace ∧
      c.threads asker = .active seen (.done (.ok (.demo 1 1 "001" m.artifacts.length))) ∧
      c.world.db.memory.entries =
      [⟨1, asker, Transaction.newMemory 0 "demo_forge_manifest" (memoryContent "001" m)
        m.json⟩] := by
  obtain ⟨_, opened, runs⟩ :=
    run_entry (run_start (.defaults "/root") (fun _ _ _ => True) Pool.initial) asker
    (.demoRequest castPayload) (opening 1 1)
    (.call rfl (.call ⟨rfl, rfl⟩ (.call ⟨_, rfl, rfl⟩ (.call ⟨_, rfl, rfl⟩ (.call rfl
      (.call ⟨_, rfl, rfl⟩ (.call ⟨_, rfl, rfl⟩ (.stop _ _)))))))) rfl rfl rfl (by simp) (by simp)
  obtain ⟨_, captures, goesOn⟩ := run_on runs asker (Function.update_self ..) captured
    (.call rfl (.call ⟨_, rfl, rfl⟩ (.call ⟨_, rfl, rfl⟩ (.stop _ _)))) (by simp)
  obtain ⟨_, joined, joins⟩ := run_entry goesOn rival (.demoRequest castPayload) (opening 2 4)
    (.call rfl (.call ⟨rfl, rfl⟩ (.call ⟨_, rfl, rfl⟩ (.call ⟨_, rfl, rfl⟩ (.call rfl
      (.call ⟨_, rfl, rfl⟩ (.call ⟨_, rfl, rfl⟩ (.stop _ _)))))))) rfl rfl rfl (by simp) (by simp)
  obtain ⟨_, finds, third⟩ :=
    run_on joins asker rfl [⟨.isDir castDir, .ok true⟩] (.call rfl (.stop _ _)) (by simp)
  obtain ⟨_, reads', fourth⟩ :=
    run_on third asker (Function.update_self ..) _ (((reading _ rfl).andThen _).andThen _) (by simp)
  obtain ⟨_, closed, fifth⟩ := run_on fourth asker (Function.update_self ..) (closing m)
    (.call ⟨_, rfl, rfl⟩ (.call ⟨_, rfl, rfl⟩ (.call ⟨_, rfl, rfl⟩ (.call rfl (.call ⟨_, rfl, rfl⟩
      (.call ⟨rfl, rfl⟩ (.call rfl (.call rfl (.call rfl (.call ⟨_, rfl, rfl⟩ (.call ⟨_, rfl, rfl⟩
      (.call ⟨_, rfl, rfl⟩ (.stop _ _))))))))))))) (by simp)
  have begun := shop_run nothing free runs.unguard fun i x before member =>
    answered_playing answers_opening opened (by simpa using member)
  have wiped := run_make begun asker (.demo "001") .wipe (.inl ⟨_, _, _, rfl⟩) ⟨_, rfl⟩ fun _ =>
    makes _ _ _ fun _ _ => rfl
  have wrote := run_make wiped asker (.demo "001") (.write "DEMO_001.cast" (.file []))
    (.inl ⟨_, _, _, rfl⟩) ⟨_, rfl⟩
    fun _ => makes _ _ _ fun _ other => Function.update_of_ne other _ _
  have waits := wrote.trans <| shop_run cast free joins.unguard fun i x before member => by
    rcases List.mem_append.mp member with earlier | later
    · exact answered_playing answers_captured captures earlier
    · exact answered_playing answers_opening joined (by simpa using later)
  have other := waits.trans (second _ (.inl ⟨_, _, _, rfl⟩))
  have looked := shop_run disk free third.unguard fun i x before member =>
    answered_playing (fun x there =>
      looks x (List.mem_cons.mpr (.inl (List.mem_singleton.mp there)))) finds member
  have read := shop_run disk free fourth.unguard fun i x before member =>
    answered_playing (fun x there => looks x (List.mem_cons_of_mem _ there)) reads' member
  have ended := shop_run disk free fifth.unguard fun i x before member =>
    answered_playing closes closed member
  refine ⟨_, _, _, ((other.trans looked).trans read).trans ended, ?_, rfl, rfl⟩
  simp only [List.append_assoc]
  exact List.mem_append_left _ (List.mem_map.mpr ⟨_, List.mem_cons_self, rfl⟩)

theorem answers_looking {disk : Disk} {d : Directory} {names : List String} {reads : History}
    (here : disk.outputs "001" = some d) (listed : names.Perm d.keys)
    (answers : ∀ x ∈ reads, disk.Answers (.defaults "/root") asker x.call x.reply) :
    ∀ x ∈ looking names reads, disk.Answers (.defaults "/root") asker x.call x.reply := by
  intro x member
  simp only [looking, List.cons_append, List.mem_cons, List.mem_append,
    List.not_mem_nil, or_false] at member
  rcases member with rfl | rfl | member | rfl
  · exact answers_isDir here
  · exact answers_iterdir here listed
  · exact answers x member
  · exact answers_plain trivial

/-- What the first request has produced. -/
def castFiles : Directory := (∅ : Directory).insert "DEMO_001.cast" (.file [])

theorem castFiles_artifacts :
    artifactsOf castFiles = [⟨"DEMO_001.cast", 0, Sha256.hexdigest []⟩] := by
  have sorted : (castFiles.keys.mergeSort fun a b => decide (a ≤ b)) = ["DEMO_001.cast"] :=
    List.mergeSort_singleton _
  rw [artifactsOf, sorted]
  rfl

theorem json_count {m m' : Manifest} (same : m.json = m'.json) :
    m.artifacts.length = m'.artifacts.length := by
  simp only [Manifest.json, Json.obj.injEq, List.cons.injEq, Prod.mk.injEq,
    Json.int.injEq, true_and] at same
  exact Int.ofNat_inj.mp same.2.2.2.2.1

/-- One file was made, and none is listed: another request has wiped the directory in between. -/
theorem requests_mix : ∃ u trace u' i seen workflowId approvalId scenario n d, Shop.Fresh u ∧
    Transition.Run (ShopStep (.defaults "/root")) u trace u' ∧
    .pool (.spawn i (runDemoForgeRequest (.defaults "/root") castPayload)) ∈ trace ∧
    u'.pool.threads i = .active seen (.done (.ok (.demo workflowId approvalId scenario n))) ∧
    u'.disk.produced i = some (scenario, d) ∧
    ¬ Manifested u'.pool.world.db i workflowId approvalId scenario (artifactsOf d) := by
  obtain ⟨trace, c, seen, run, spawned, ended, rows⟩ :=
    two_requests (fun _ _ _ => True) [] [] (cast.make rival "001" .wipe)
    [.make rival (.demo "001") .wipe] ⟨"001", 0, castDir, []⟩
      (fun _ _ _ => trivial) (fun _ _ _ _ => trivial)
    (fun w zero => plays_buildManifest zero List.mergeSort_nil (.stop _ _))
    (fun c running => .single ⟨.make running ⟨_, rfl⟩, trivial⟩)
    (answers_looking rfl (.refl _) fun _ none => absurd none List.not_mem_nil)
      (answers_closing rfl rfl rfl)
  refine ⟨_, trace, _, asker, seen, 1, 1, "001", 0, castFiles, fun _ => rfl, run.unguard, spawned,
    ended, rfl, ?_⟩
  rintro ⟨m, named, files, ⟨e, member, -, -, same⟩, -⟩
  rw [rows, List.mem_singleton] at member
  subst member
  have count := json_count same
  rw [files, castFiles_artifacts] at count
  simp at count

/-- The second request has not wiped anything yet when the first lists its file. -/
theorem demos_apart_cast :
    ∃ trace c, Transition.Run (Transition.Guarded (ShopStep (.defaults "/root")) Apart)
    ⟨Pool.initial, nothing⟩ trace
      ⟨c, cast⟩ ∧
    ∃ workflowId approvalId scenario d, Returned.demo 1 1 "001" 1 =
      .demo workflowId approvalId scenario (artifactsOf d).length ∧
      cast.produced asker = some (scenario, d) ∧ Manifested c.world.db asker workflowId approvalId
        scenario (artifactsOf d) := by
  let reads : History := [⟨.isFile (castDir ++ "/" ++ "DEMO_001.cast"), .ok true⟩,
    ⟨.readBytes (castDir ++ "/" ++ "DEMO_001.cast"), .ok ([] : List UInt8)⟩]
  have answers : ∀ x ∈ reads, cast.Answers (.defaults "/root") asker x.call x.reply := by
    intro x member
    simp only [reads, List.mem_cons, List.not_mem_nil, or_false] at member
    rcases member with rfl | rfl
    · exact answers_isFile (by simp [validScenarios]) (d :=
        castFiles) rfl (iff_of_true rfl ⟨[], rfl⟩)
    · exact answers_readBytes (by simp [validScenarios]) (d := castFiles) rfl rfl
  obtain ⟨trace, c, seen, run, spawned, ended, rows⟩ :=
    two_requests Apart ["DEMO_001.cast"] reads cast []
    ⟨"001", 0, castDir, [⟨"DEMO_001.cast", 0, Sha256.hexdigest []⟩]⟩ (fun _ _ _ j t change i =>
      ShopEvent.noConfusion)
    (by
      rintro u change u' none j t change' i same other ⟨⟨d, made⟩, -⟩
      cases same
      exact absurd ((none i other).symm.trans made) (by simp))
    (fun w zero => plays_buildManifest zero (List.mergeSort_singleton _)
      (.call rfl (.call rfl (.stop _ _))))
    (fun c running => .refl _)
    (answers_looking rfl (.refl _) answers) (answers_closing rfl rfl rfl)
  exact ⟨trace, c, run, demos_apart (fun _ => rfl) run spawned ended⟩

end WiseOrder.DemoOutputs
