import WiseOrder.Memory.Ownership
import WiseOrder.Workflows.CommitCalls
import WiseOrder.Foundation.Script

/-! The save step keeps a row for a commit in the memory table and an entry in the
vector index. The id of the entry is made of the sha alone, and an upsert replaces
what it finds under its id. -/
namespace WiseOrder.VectorIndex
open CommitPipeline Coroutine Coroutine.Program Relational
variable {repo sha subject author metadata : Json} {eng : EngineeringSummary} {content n : String}
    {id memoryId : Nat}
  {h more : List (Interaction calls)} {made : Option (Interaction calls)} {w w' : World}

/-! ### One save step -/

/-- The commit that the metadata of a row names, or that of an entry. -/
def named (metadata : Json) : Option (Json × Json) :=
  match metadata with
  | .obj fields =>
      (Json.lookup "repo" fields).bind fun repo => (Json.lookup "sha" fields).map fun sha =>
        (repo, sha)
  | _ => none

theorem named_memoryMetadata : named (memoryMetadata repo sha subject author eng) =
      some (repo, sha) := rfl

/-- The step has inserted a row with this metadata. -/
def Added (h : List (Interaction calls)) (id : Nat) (metadata : Json) : Prop :=
  ∃ category content, (⟨.session (.addMemory category content metadata),
    .ok id⟩ : Interaction calls) ∈ h

/-- The step has put an entry with this metadata into the index. -/
def Upserted (h : List (Interaction calls)) (n : String) (metadata : Json) : Prop :=
  ∃ document x, (⟨.upsert [n] [document] [metadata], .ok x⟩ : Interaction calls) ∈ h

theorem Added.grows (added : Added h id metadata) : Added (h ++ more) id metadata := by
  obtain ⟨category, content, member⟩ := added
  exact ⟨category, content, List.mem_append_left _ member⟩

/-- What a save step may call: it upserts one entry, and points a row that it has inserted to an
entry that it has put in for the same commit. -/
def saveAllowed (h : List (Interaction calls)) (c : Call) : Prop :=
  match c with
  | .upsert ids documents metadatas =>
      ∃ n document metadata, ids = [n] ∧ documents = [document] ∧ metadatas = [metadata]
  | .session (.setEmbedding id n) => ∃ repo sha row entry, Added h id row ∧ Upserted h n entry ∧
      named row = some (repo, sha) ∧ named entry = some (repo, sha)
  | _ => True

def saveProtocol : Protocol calls Unit := ⟨fun h c _ => saveAllowed h c, fun _ _ _ _ => True⟩

abbrev anyway {α : Type} : Post calls Unit α := fun _ _ _ => True

theorem obeys_index (added : Added h memoryId metadata)
    (names : named metadata = some (repo, sha)) :
    (index memoryId content repo sha eng).Obeys saveProtocol anyway h () := by
  have body : (do
      await (.upsert [embeddingId sha] [content] [.obj [("repo", repo), ("sha", sha),
        ("risk", .str eng.riskLevel)]])
      session (.setEmbedding memoryId (embeddingId sha)) : Async Unit).Obeys
          saveProtocol anyway h () := by
    refine ⟨⟨_, _, _, rfl, rfl, rfl⟩, fun reply _ _ => ?_⟩
    cases reply with
    | error e => trivial
    | ok x =>
        refine ⟨⟨repo, sha, metadata, _, added.grows, ⟨content, x, ?_⟩, names, rfl⟩,
          fun _ _ _ => trivial⟩
        exact List.mem_append_right _ (List.mem_singleton.mpr rfl)
  exact obeys_catching body (fun _ _ _ _ => trivial) (fun _ _ _ _ _ => trivial) fun _ _ _ _ _ =>
    trivial

/-- What a step does about an exception. -/
theorem obeys_orFail {α : Type} (taskId workflowId : Nat) (label : String) {body : Async α}
    (runs : body.Obeys saveProtocol anyway h ()) :
    (orFail taskId workflowId label body).Obeys saveProtocol anyway h () := by
  refine obeys_catching runs (fun _ _ _ _ => trivial) (fun e seen _ _ _ => ?_) fun _ _ _ _ _ =>
    trivial
  refine ⟨trivial, fun reply _ _ => ?_⟩
  cases reply with
  | error e => trivial
  | ok x =>
      refine ⟨trivial, fun reply _ _ => ?_⟩
      cases reply <;> trivial

theorem obeys_saveStep (workflowId : Nat) (repo sha subject author : Json)
    (eng : EngineeringSummary) :
    (saveStep workflowId repo sha subject author eng).Obeys saveProtocol anyway [] () := by
  refine ⟨trivial, fun reply _ _ => ?_⟩
  cases reply with
  | error e => trivial
  | ok taskId =>
      refine obeys_orFail _ _ _ ?_
      cases short sha with
      | error e => trivial
      | ok shortSha =>
          refine ⟨trivial, fun reply _ _ => ?_⟩
          cases reply with
          | error e => trivial
          | ok memoryId =>
              have rest {h : List (Interaction calls)}
                (added : Added h memoryId (memoryMetadata repo sha subject author eng)) :
                  (do
                    index memoryId (memoryContent shortSha subject eng) repo sha eng
                    completeTask taskId (.obj [("memory_id", .int (Int.ofNat memoryId))]) : Async
                        Unit).Obeys saveProtocol anyway h () :=
                obeys_bind (obeys_index added named_memoryMetadata) (fun _ _ _ _ =>
                  ⟨trivial, fun _ _ _ => trivial⟩) fun _ _ _ _ => trivial
              exact rest ⟨_, _, List.mem_append_right _ (List.mem_singleton.mpr rfl)⟩

/-! ### The two stores -/

/-- The index holds an entry for a commit. -/
def Holds (w : World) (n : String) (repo sha : Json) : Prop :=
  ∃ document metadata, (n, document, metadata) ∈ w.vectors ∧ named metadata = some (repo, sha)

/-- Each row that points into the index finds an entry there, and it is of the row's own commit. -/
def Agree (w : World) : Prop := ∀ e ∈ w.db.memory.entries, ∀ n, e.row.embeddingId = some n →
  ∃ repo sha, named e.row.metadata = some (repo, sha) ∧ Holds w n repo sha

/-- What goes on beside the save steps: the index stays, and the rows that are added point
nowhere. -/
structure Beside (w w' : World) : Prop where
  vectors : w'.vectors = w.vectors
  memory : ∃ more, w'.db.memory.entries = w.db.memory.entries ++ more ∧
    ∀ e ∈ more, e.row.embeddingId = none

theorem Beside.same (vectors : w'.vectors = w.vectors) (memory : w'.db.memory = w.db.memory) :
    Beside w w' :=
  ⟨vectors, [], by rw [memory, List.append_nil], by simp⟩

/-- What a step does to the stores, by the call that it makes, if it makes one. A transaction may
raise all the same. -/
inductive Moved (made : Option (Interaction calls)) (w w' : World) : Prop where
  | beside (beside : Beside w w')
  | added (owner : CallId) (category content : String) (metadata : Json)
      (told : Except PyException Nat)
      (call : made = some ⟨.session (.addMemory category content metadata), told⟩)
        (vectors : w'.vectors = w.vectors)
      (memory : w'.db.memory = w.db.memory.insert owner
        (Transaction.newMemory w.clock category content metadata))
  | embedded (id : Nat) (n : String) (told : Except PyException Unit)
      (call : made = some ⟨.session (.setEmbedding id n), told⟩)
      (vectors : w'.vectors = w.vectors) (memory : w'.db.memory =
        w.db.memory.updateAt id (Memory.embed n))
  | upserted (ids documents : List String) (metadatas : List Json)
      (call : made = some ⟨.upsert ids documents metadatas, .ok ()⟩)
      (memory : w'.db.memory = w.db.memory)
      (vectors : w'.vectors = w.vectors.filter (fun v => !ids.contains v.1) ++
        ids.zip (documents.zip metadatas))

/-- A transaction that was run to its end. -/
theorem ran_moved {i : CallId} {t : Transaction} {x : t.Reply} {db : Db}
    (told : Except PyException t.Reply) (ran : t.run i w.clock w.db = .ok (x, db)) :
    Moved (some ⟨.session t, told⟩) w { w with db := db } := by
  cases t with
  | addMemory category content metadata =>
      obtain ⟨rfl, rfl⟩ := Prod.mk.inj (Except.ok.inj ran)
      exact .added i category content metadata told rfl rfl rfl
  | setEmbedding id n => exact .embedded id n told rfl rfl (by rw [Transaction.update_ok ran])
  | addWorkflow | createTask | addApproval | reap =>
      obtain ⟨-, rfl⟩ := Prod.mk.inj (Except.ok.inj ran)
      exact .beside (.same rfl rfl)
  | completeTask | failTask | appendLog | failWorkflow | completeWorkflow
      | setDelivered | updateDecision =>
      exact .beside (.same rfl (by rw [Transaction.update_ok ran]))
  | findApproval => exact .beside (.same rfl (by rw [(Transaction.find_ok ran).1]))

theorem perform_moved {i : CallId} {c : Call} {reply : Except PyException c.Reply}
    (performed : perform i c w reply w') : Moved (some ⟨c, reply⟩) w w' := by
  cases c with
  | session t =>
      cases reply with
      | error e =>
          rcases performed with rfl | ⟨x, db, ran, rfl⟩
          · exact .beside (.same rfl rfl)
          · exact ran_moved _ ran
      | ok x =>
          obtain ⟨db, ran, rfl⟩ := performed
          exact ran_moved _ ran
  | upsert ids documents metadatas =>
      cases reply with
      | error e =>
          cases performed
          exact .beside (.same rfl rfl)
      | ok x =>
          cases performed
          exact .upserted ids documents metadatas rfl rfl rfl
  | _ =>
      have vectors := perform_vectors performed (by simp)
      have memory := congrArg Db.memory ((perform_frame performed).db (by simp))
      exact .beside (.same vectors memory)

theorem mem_one {A B : Type} {a : String} {b : A} {c : B} {v : String × A × B} :
    v ∈ [a].zip ([b].zip [c]) ↔ v = (a, b, c) := by
  simp

/-- Rows stay, with their metadata. -/
theorem Moved.row {e : Relational.Entry CallId Memory} (moved : Moved made w w')
    (there : e ∈ w.db.memory.entries) : ∃ e' ∈ w'.db.memory.entries, e'.id = e.id ∧
    e'.row.metadata = e.row.metadata := by
  cases moved with
  | beside beside =>
      obtain ⟨more, memory, -⟩ := beside.memory
      exact ⟨e, by rw [memory]; exact List.mem_append_left _ there, rfl, rfl⟩
  | added owner category content metadata told call vectors memory =>
      exact ⟨e, by rw [memory]; exact Table.mem_insert.mpr (.inl there), rfl, rfl⟩
  | embedded id n told call vectors memory =>
      rw [memory]
      by_cases target : e.id = id
      · exact ⟨_, Table.mem_update.mpr ⟨e, there, (if_pos (by simpa using target)).symm⟩, rfl, rfl⟩
      · exact ⟨e, Table.mem_update.mpr ⟨e, there, (if_neg (by simpa using target)).symm⟩, rfl, rfl⟩
  | upserted ids documents metadatas call memory vectors => exact ⟨e, by rwa [memory], rfl, rfl⟩

/-- A row that points into the index did so before, or is pointed there by the call. -/
theorem Moved.pointer {e' : Relational.Entry CallId Memory} (moved : Moved made w w')
    (there : e' ∈ w'.db.memory.entries) (points : e'.row.embeddingId = some n) :
    ∃ e ∈ w.db.memory.entries, e.id = e'.id ∧ e.row.metadata = e'.row.metadata ∧
      (e.row.embeddingId = some n ∨ ∃ told,
        made = some ⟨.session (.setEmbedding e'.id n), told⟩) := by
  cases moved with
  | beside beside =>
      obtain ⟨more, memory, pointless⟩ := beside.memory
      rw [memory] at there
      rcases List.mem_append.mp there with old | new
      · exact ⟨e', old, rfl, rfl, .inl points⟩
      · simp [pointless e' new] at points
  | added owner category content metadata told call vectors memory =>
      rw [memory] at there
      rcases Table.mem_insert.mp there with old | rfl
      · exact ⟨e', old, rfl, rfl, .inl points⟩
      · contradiction
  | embedded id m told call vectors memory =>
      rw [memory] at there
      obtain ⟨e, old, same⟩ := Table.mem_update.mp there
      by_cases target : e.id = id
      · rw [if_pos (by simpa using target)] at same
        subst same
        cases Option.some.inj points
        exact ⟨e, old, rfl, rfl, .inr ⟨told, by rw [call, ← target]⟩⟩
      · rw [if_neg (by simpa using target)] at same
        subst same
        exact ⟨e', old, rfl, rfl, .inl points⟩
  | upserted ids documents metadatas call memory vectors =>
      exact ⟨e', by rwa [memory] at there, rfl, rfl, .inl points⟩

/-- An entry stays for its commit, unless an upsert puts one for another commit in its place. -/
theorem Moved.holds (moved : Moved made w w')
    (allowed : ∀ x, made = some x → ∃ h, saveAllowed h x.call)
    (apart : ∀ document metadata x, made = some ⟨.upsert [n] [document] [metadata], .ok x⟩ →
      ∀ v ∈ w.vectors, v.1 = n → named v.2.2 = named metadata)
    (held : Holds w n repo sha) : Holds w' n repo sha := by
  obtain ⟨document, metadata, there, names⟩ := held
  cases moved with
  | beside beside => exact ⟨document, metadata, by rwa [beside.vectors], names⟩
  | added owner category content data told call vectors memory =>
      exact ⟨document, metadata, by rwa [vectors], names⟩
  | embedded id m told call vectors memory => exact ⟨document, metadata, by rwa [vectors], names⟩
  | upserted ids documents metadatas call memory vectors =>
      obtain ⟨h, m, newDocument, newMetadata, rfl, rfl, rfl⟩ := allowed _ call
      by_cases same : m = n
      · subst m
        refine ⟨newDocument, newMetadata, ?_, ?_⟩
        · rw [vectors]
          exact List.mem_append_right _ (mem_one.mpr rfl)
        · exact (apart newDocument newMetadata () call _ there rfl).symm.trans names
      · refine ⟨document, metadata, ?_, names⟩
        rw [vectors]
        exact List.mem_append_left _ (List.mem_filter.mpr ⟨there, by simp [Ne.symm same]⟩)

/-! ### Save steps -/

abbrev Savers := Config CallId World calls Unit

abbrev SaveEvent := Event CallId World calls Unit

/-- Save steps for any commits, any number at once, and whatever else goes on. -/
def savers : Machine CallId World calls Unit where
  spawn := fun _ _ p => ∃ workflowId repo sha subject author eng, p =
    saveStep workflowId repo sha subject author eng
  perform := perform
  again := fun _ _ _ _ => False
  drift := Beside
  crash := fun w _ w' => Beside w w'

/-- No upsert replaces the entry of another commit. -/
def Apart (c : Savers) (e : SaveEvent) (_ : Savers) : Prop := ∀ i n document metadata reply before,
  e = .call i ⟨.upsert [n] [document] [metadata], reply⟩ before → ∀ v ∈ c.world.vectors, v.1 = n →
    named v.2.2 = named metadata

/-- What the save steps keep: what they have inserted and put in is still there, and the stores
agree. -/
structure Indexed (c : Savers) : Prop where
  obeys : c.Obeys (fun _ => saveProtocol) (fun _ => anyway) fun _ _ => ()
  rows : ∀ i id metadata, Added (c.threads i).past id metadata → ∃ e ∈ c.world.db.memory.entries,
    e.id = id ∧ e.row.metadata = metadata
  entries : ∀ i n metadata repo sha, Upserted (c.threads i).past n metadata → named metadata =
    some (repo, sha) → Holds c.world n repo sha
  agree : Agree c.world

section
variable {c c' : Savers} {e : SaveEvent} {trace : List SaveEvent}

theorem saves_obey (obeys : c.Obeys (fun _ => saveProtocol) (fun _ => anyway) fun _ _ => ())
    (step : savers.Step c e c') :
    c'.Obeys (fun _ => saveProtocol) (fun _ => anyway) fun _ _ => () := by
  refine step.obeys ⟨fun _ _ => trivial⟩ ?_ ?_ (fun _ _ _ _ _ ready => ready) obeys
  · rintro i p rfl
    cases step with
    | spawn unused entry =>
        obtain ⟨workflowId, repo, sha, subject, author, eng, rfl⟩ := entry
        exact obeys_saveStep workflowId repo sha subject author eng
  · rintro i p seen a rfl - -
    cases step with
    | again returned next => exact next.elim

theorem step_moved (step : savers.Step c e c') : Moved e.made c.world c'.world := by
  cases step with
  | spawn | again => exact .beside (.same rfl rfl)
  | drift moved => exact .beside moved
  | crash fell => exact .beside fell
  | call awaiting performed => exact perform_moved performed

theorem made_call {e : SaveEvent} {x : Interaction calls} (made : e.made = some x) :
    ∃ i before, e = .call i x before := by
  cases e with
  | call i y before =>
      cases made
      exact ⟨i, before, rfl⟩
  | _ => contradiction

theorem indexed_step (indexed : Indexed c) (step : savers.Step c e c') (apart : Apart c e c') :
    Indexed c' := by
  have moved := step_moved step
  have stays {n : String} {repo sha : Json} (held : Holds c.world n repo sha) : Holds c'.world n
      repo sha := by
    refine moved.holds (fun x made => ?_) (fun document metadata x made => ?_) held
    · obtain ⟨i, before, rfl⟩ := made_call made
      exact ⟨_, step.allowed indexed.obeys⟩
    · obtain ⟨i, before, rfl⟩ := made_call made
      exact apart i n document metadata _ before rfl
  refine ⟨saves_obey indexed.obeys step, fun i id metadata added => ?_,
    fun i n metadata repo sha upserted names => ?_,
    fun e' there n points => ?_⟩
  · obtain ⟨category, content, member⟩ := added
    rw [step.past i] at member
    rcases List.mem_append.mp member with old | new
    · obtain ⟨e, there, rfl, rfl⟩ := indexed.rows i id metadata ⟨category, content, old⟩
      exact moved.row there
    · obtain ⟨before, rfl⟩ := Event.mem_own.mp new
      cases step with
      | call awaiting performed =>
          obtain ⟨db, ran, rfl⟩ := performed
          obtain ⟨rfl, rfl⟩ := Prod.mk.inj (Except.ok.inj ran)
          exact ⟨_, Table.mem_insert.mpr (.inr rfl), rfl, rfl⟩
  · obtain ⟨document, x, member⟩ := upserted
    rw [step.past i] at member
    rcases List.mem_append.mp member with old | new
    · exact stays (indexed.entries i n metadata repo sha ⟨document, x, old⟩ names)
    · obtain ⟨before, rfl⟩ := Event.mem_own.mp new
      cases step with
      | call awaiting performed =>
          cases performed
          exact ⟨document, metadata, List.mem_append_right _ (mem_one.mpr rfl), names⟩
  · obtain ⟨e, old, same, carries, points | ⟨told, made⟩⟩ := moved.pointer there points
    · obtain ⟨repo, sha, names, held⟩ := indexed.agree e old n points
      exact ⟨repo, sha, carries ▸ names, stays held⟩
    · -- a step points only a row that it has inserted itself, to an entry that it has put in
      obtain ⟨i, before, rfl⟩ := made_call made
      obtain ⟨repo, sha, row, entry, added, upserted, names, tells⟩ :
          saveAllowed (c.threads i).past (.session (.setEmbedding e'.id n)) :=
            step.allowed indexed.obeys
      obtain ⟨e'', there'', same'', rfl⟩ := indexed.rows i _ row added
      cases Table.unique old there'' (same.trans same''.symm)
      exact ⟨repo, sha, carries ▸ names, stays (indexed.entries i n entry repo sha upserted tells)⟩

/-- Memory and index agree: as long as no upsert replaces the entry of another commit, each row that
points into the index finds an entry there that names the row's own repository and sha. -/
theorem index_agrees {start : Savers} (fresh : start.threads = fun _ => .absent)
    (agree : Agree start.world)
    (run : Transition.Run (Transition.Guarded savers.Step Apart) start trace c) :
    Agree c.world := by
  refine (run.invariant (P := Indexed) (fun indexed taken =>
    indexed_step indexed taken.1 taken.2) ⟨?_, ?_, ?_, agree⟩).agree
  · intro i seen rest active
    simp [fresh] at active
  · rintro i id metadata ⟨category, content, member⟩
    simp [fresh, Thread.past] at member
  · rintro i n metadata repo sha ⟨document, x, member⟩
    simp [fresh, Thread.past] at member

end

/-! ### Two repositories with one commit -/

/-- What the summary of a commit says. -/
def sampleSave : EngineeringSummary :=
  ⟨"Fix the login form", ["auth.py"], "Login works again", "low"⟩

/-- What a save step does for a commit of a repository. -/
def saveScript (repo : Json) (taskId memoryId : Nat) (sha : String) : List (Interaction calls) :=
  let content := memoryContent (Python.take 8 sha) (.str "") sampleSave
  [⟨.session (.createTask "save" 1 (.obj [("sha", .str sha)])), .ok taskId⟩,
    ⟨.session (.addMemory "commit_summary" content (memoryMetadata repo (.str sha) (.str "")
      (.str "") sampleSave)), .ok memoryId⟩,
    ⟨.upsert [embeddingId (.str sha)] [content] [.obj [("repo", repo), ("sha", .str sha),
      ("risk", .str "low")]], .ok ()⟩,
    ⟨.session (.setEmbedding memoryId (embeddingId (.str sha))), .ok ()⟩,
    ⟨.session (.completeTask taskId (.obj [("memory_id", .int (Int.ofNat memoryId))])), .ok ()⟩]

def noSaves : Savers := ⟨World.initial, fun _ => .absent⟩

section
variable {condition : Savers → SaveEvent → Savers → Prop} {start : Savers} {past : List SaveEvent}
    {p' : Async Unit}
  {threads : CallId → Thread calls Unit}

/-- A save step begins and goes through a script. -/
theorem save_entry
    (earlier : Transition.Run (Transition.Guarded savers.Step condition) start past ⟨w, threads⟩)
    (i : CallId) (repo sha : Json) (script : List (Interaction calls))
    (unused : threads i = .absent)
    (plays : Plays (perform i) (saveStep 1 repo sha (.str "") (.str "") sampleSave) w script p' w')
    (starts : ∀ c', condition
      ⟨w, threads⟩ (.spawn i (saveStep 1 repo sha (.str "") (.str "") sampleSave)) c')
    (admitted : ∀ c x before c', x ∈ script → condition c (.call i x before) c') : ∃ trace,
      Transition.Run (Transition.Guarded savers.Step condition) start trace ⟨w',
        Function.update threads i (.active script p')⟩ := by
  obtain ⟨events, -, run⟩ := Machine.run_spawned earlier unused ⟨1, repo, sha, .str "", .str "",
    sampleSave, rfl⟩ plays starts admitted
  exact ⟨_, run⟩

/-- It goes on through another one. -/
theorem save_on {seen : List (Interaction calls)} {p : Async Unit}
    (earlier : Transition.Run (Transition.Guarded savers.Step condition) start past ⟨w, threads⟩)
    (i : CallId) (script : List (Interaction calls)) (active : threads i = .active seen p)
    (plays : Plays (perform i) p w script p' w')
    (admitted : ∀ c x before c', x ∈ script → condition c (.call i x before) c') :
    ∃ trace, Transition.Run (Transition.Guarded savers.Step condition) start trace
      ⟨w', Function.update threads i (.active (seen ++ script) p')⟩ := by
  obtain ⟨events, -, run⟩ := Machine.run_plays earlier active plays admitted
  exact ⟨_, run⟩

/-- One awaited call is answered. -/
theorem save_call {seen : List (Interaction calls)}
    (earlier : Transition.Run (Transition.Guarded savers.Step condition) start past ⟨w, threads⟩)
    (i : CallId) (x : Interaction calls)
    {onReply : Except PyException (calls.Reply x.call) → Async Unit}
    (active : threads i = .active seen (.await x.call onReply))
    (performed : perform i x.call w x.reply w')
    (admitted : ∀ c', condition ⟨w, threads⟩ (.call i x w) c') :
    Transition.Run (Transition.Guarded savers.Step condition) start (past ++ [.call i x w])
      ⟨w', Function.update threads i (.active (seen ++ [x]) (onReply x.reply))⟩ :=
  earlier.next ⟨.call active performed, admitted _⟩

end

/-- The same commit is saved in a repository and in a fork of it. -/
theorem index_disagrees : ∃ trace c, Transition.Run savers.Step noSaves trace c ∧
    Agree noSaves.world ∧ ¬ Agree c.world := by
  have idle : Transition.Run (Transition.Guarded savers.Step fun _ _ _ =>
    True) noSaves [] noSaves := .refl _
  obtain ⟨_, first⟩ := save_entry idle ⟨1, 1, .pipeline⟩ (.str "/srv/app") (.str "4c1d")
    (saveScript (.str "/srv/app") 1 1 "4c1d") rfl
    (.call ⟨_, rfl, rfl⟩ (.call ⟨_, rfl, rfl⟩ (.call rfl (.call ⟨_, rfl, rfl⟩ (.call ⟨_, rfl, rfl⟩
      (.stop _ _))))))
    (fun _ => trivial) fun _ _ _ _ _ => trivial
  obtain ⟨_, both⟩ := save_entry first ⟨1, 2, .pipeline⟩ (.str "/srv/fork") (.str "4c1d")
    (saveScript (.str "/srv/fork") 2 2 "4c1d") rfl
    (.call ⟨_, rfl, rfl⟩ (.call ⟨_, rfl, rfl⟩ (.call rfl (.call ⟨_, rfl, rfl⟩ (.call ⟨_, rfl, rfl⟩
      (.stop _ _))))))
    (fun _ => trivial) fun _ _ _ _ _ => trivial
  refine ⟨_, _, both.unguard, fun e there => absurd there List.not_mem_nil, fun agree => ?_⟩
  obtain ⟨repo, sha, names, document, metadata, there, tells⟩ := agree _ List.mem_cons_self _ rfl
  cases names
  rcases List.mem_append.mp there with kept | put
  · simp [embeddingId] at kept
  · cases mem_one.mp put
    simp [named, Json.lookup] at tells

theorem apart_spawn {p : Async Unit} : Apart c (.spawn i p) c' := nofun

/-- Only upserts replace entries. -/
theorem apart_calls {script : List (Interaction calls)}
    (other : ∀ x ∈ script, ∀ ids documents metadatas, x.call ≠ .upsert ids documents metadatas) :
    ∀ c x before c', x ∈ script → Apart c (.call i x before) c' := by
  rintro c x before c' member j n document metadata reply w same
  cases same
  exact absurd rfl (other _ member _ _ _)

/-- A save step goes through its script, and replaces no entry of another commit. -/
theorem save_apart {past : List SaveEvent} {threads : CallId → Thread calls Unit}
    {added closed : World} {n content : String} {metadata : Json}
    {onReply : Except PyException Unit → Async Unit} {p : Async Unit}
    (earlier : Transition.Run (Transition.Guarded savers.Step Apart) noSaves past ⟨w, threads⟩)
    (i : CallId) (repo : Json) (sha : String) (taskId memoryId : Nat) (unused : threads i = .absent)
    (opens : Plays (perform i) (saveStep 1 repo (.str sha) (.str "") (.str "") sampleSave) w
      ((saveScript repo taskId memoryId sha).take 2)
      (.await (.upsert [n] [content] [metadata]) onReply) added)
    (apart : ∀ v ∈ added.vectors, v.1 = n → named v.2.2 = named metadata)
    (closes : Plays (perform i) (onReply (.ok ()))
      { added with
        vectors := added.vectors.filter (fun v => !([n].contains v.1)) ++
          [(n, content, metadata)] }
      ((saveScript repo taskId memoryId sha).drop 3) p closed) :
    ∃ trace seen, Transition.Run (Transition.Guarded savers.Step Apart) noSaves trace
      ⟨closed, Function.update threads i (.active seen p)⟩ := by
  obtain ⟨_, opened⟩ := save_entry earlier i repo (.str sha) _ unused opens
    (fun _ => apart_spawn) (apart_calls (by simp [saveScript]))
  have upserted := save_call opened i ⟨.upsert [n] [content] [metadata],
    .ok ()⟩ (Function.update_self ..) rfl
    fun c' j m document metadata' reply before same v there found => by
      cases same
      exact apart v there found
  obtain ⟨_, saved⟩ := save_on upserted i _ (Function.update_self ..) closes
    (apart_calls (by simp [saveScript]))
  rw [Function.update_idem, Function.update_idem] at saved
  exact ⟨_, _, saved⟩

theorem ids_differ : embeddingId (.str "9f02") ≠ embeddingId (.str "4c1d") := by
  simp [embeddingId, Python.str]

/-- A commit is saved, then another one, and then the first again, whose entry is replaced. -/
theorem index_agrees_first :
    ∃ trace c, Transition.Run (Transition.Guarded savers.Step Apart) noSaves trace c ∧
    (c.world.db.memory.entries.map fun e => e.row.embeddingId) =
      [some (embeddingId (.str "4c1d")), some (embeddingId (.str "9f02")),
        some (embeddingId (.str "4c1d"))] ∧
    Agree c.world := by
  have idle : Transition.Run (Transition.Guarded savers.Step Apart) noSaves [] noSaves := .refl _
  obtain ⟨_, _, first⟩ := save_apart idle ⟨1, 1, .pipeline⟩ (.str "/srv/app") "4c1d" 1 1 rfl
    (.call ⟨_, rfl, rfl⟩ (.call ⟨_, rfl, rfl⟩ (.stop _ _))) (fun v there =>
      absurd there List.not_mem_nil)
    (.call ⟨_, rfl, rfl⟩ (.call ⟨_, rfl, rfl⟩ (.stop _ _)))
  obtain ⟨_, _, second⟩ := save_apart first ⟨1, 2, .pipeline⟩ (.str "/srv/app") "9f02" 2 2 rfl
    (.call ⟨_, rfl, rfl⟩ (.call ⟨_, rfl, rfl⟩ (.stop _ _)))
    (fun v there same => by
      cases List.mem_singleton.mp there
      exact absurd same.symm ids_differ)
    (.call ⟨_, rfl, rfl⟩ (.call ⟨_, rfl, rfl⟩ (.stop _ _)))
  obtain ⟨_, _, third⟩ := save_apart second ⟨1, 3, .pipeline⟩ (.str "/srv/app") "4c1d" 3 3 rfl
    (.call ⟨_, rfl, rfl⟩ (.call ⟨_, rfl, rfl⟩ (.stop _ _)))
    (fun v there same => by
      rcases List.mem_append.mp there with kept | put
      · cases List.mem_singleton.mp (List.mem_of_mem_filter kept)
        rfl
      · cases List.mem_singleton.mp put
        exact absurd same ids_differ)
    (.call ⟨_, rfl, rfl⟩ (.call ⟨_, rfl, rfl⟩ (.stop _ _)))
  exact ⟨_, _, third, rfl, index_agrees rfl (fun e there => absurd there List.not_mem_nil) third⟩

end WiseOrder.VectorIndex
