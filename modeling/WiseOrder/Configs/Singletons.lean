import WiseOrder.Foundation.Once
import WiseOrder.Foundation.Script

/-! The objects that a process makes once: the settings, the logging configuration and the vector
store. Any thread may ask for them first: the event loop, the thread of a blocking call, the thread
that watches for file events. -/
namespace WiseOrder.Configs
open Coroutine Coroutine.Program Once

/-- The module globals `_settings`, `_configured` and `_store`, each with its lock. -/
inductive Cell where
  | settings
  | configured
  | store
  deriving DecidableEq

/-- The settings are asked for while the other locks are held. -/
def Cell.rank : Cell → Nat
  | .settings => 0
  | .configured | .store => 1

/-- A `Settings` object, with the fields that are read here. -/
structure Settings where
  object : Nat
  chromaPath : String
  logLevel : String
  logDir : String
  deriving Inhabited

structure VectorStore where
  object : Nat
  path : String
  client : Nat
  collection : Nat

abbrev Cell.Value : Cell → Type
  | .settings => Settings
  | .configured => Unit
  | .store => VectorStore

/-- What is called besides; objects are numbers. -/
inductive Work where
  | settings
  | mkdir (path : String)
  | setLevel (level : String)
  | handlers
  | removeHandler (h : Nat)
  | jsonFormatter (fmt : String)
  | correlationFilter
  | streamHandler
  | fileHandler (dir name : String)
  | setFormatter (h fmt : Nat)
  | addFilter (h filter : Nat)
  | addHandler (h : Nat)
  | logger (name : String)
  | object
  | persistentClient (path : String) (anonymizedTelemetry allowReset : Bool)
  | getOrCreateCollection (client : Nat) (name : String)

abbrev Work.Answer : Work → Type
  | .settings => Settings
  | .handlers => List Nat
  | .jsonFormatter _ | .correlationFilter | .streamHandler | .fileHandler .. | .logger _
      | .object | .persistentClient ..
  | .getOrCreateCollection .. => Nat
  | _ => Unit

inductive Exc where
  | attributeError
  | other
  deriving Inhabited

abbrev Code (β : Type) := Program (Once.calls Cell.Value Work.Answer Exc) β

abbrev ask (w : Work) : Code w.Answer := Once.work w

abbrev Past := Once.History Cell.Value Work.Answer Exc

def getSettings : Code (Option Settings) :=
  double Cell.settings (load Cell.settings) do
    let s ← ask .settings
    let _ ← ask (.mkdir s.logDir)
    let _ ← ask (.mkdir s.chromaPath)
    pure s

/-- An attribute of what `get_settings` returned. -/
def fieldOf (s : Option Settings) (read : Settings → String) : Code String :=
  match s with
  | some s => pure (read s)
  | none => raise .attributeError

def removeHandlers : List Nat → Code Unit
  | [] => pure ()
  | h :: hs => do
      let _ ← ask (.removeHandler h)
      removeHandlers hs

def format : String := "%(asctime)s %(name)s %(levelname)s %(message)s %(workflow_id)s %(job_id)s"

def configureLogging : Code Unit :=
  double Cell.configured (pure ()) do
    let s ← getSettings
    let logDir ← fieldOf s (·.logDir)
    let _ ← ask (.mkdir logDir)
    let level ← fieldOf s (·.logLevel)
    let _ ← ask (.setLevel level)
    let hs ← ask .handlers
    removeHandlers hs
    let jsonFmt ← ask (.jsonFormatter format)
    let corr ← ask .correlationFilter
    let stream ← ask .streamHandler
    let _ ← ask (.setFormatter stream jsonFmt)
    let _ ← ask (.addFilter stream corr)
    let _ ← ask (.addHandler stream)
    let fileh ← ask (.fileHandler logDir "wiseorder.jsonl")
    let _ ← ask (.setFormatter fileh jsonFmt)
    let _ ← ask (.addFilter fileh corr)
    let _ ← ask (.addHandler fileh)
    pure ()

def getLogger (name : String) : Code Nat := do
  configureLogging
  ask (.logger name)

/-- `path or get_settings().chroma_path`. -/
def storePath (path : Option String) : Code String :=
  match path with
  | some p => if p = "" then chromaPath else pure p
  | none => chromaPath
where
  chromaPath : Code String := do
    let s ← getSettings
    fieldOf s (·.chromaPath)

/-- `VectorStore(path, collection)`. -/
def vectorStore (path : Option String) (collection : String) : Code VectorStore := do
  let self ← ask .object
  let path ← storePath path
  let client ← ask (.persistentClient path false false)
  let opened ← ask (.getOrCreateCollection client collection)
  pure ⟨self, path, client, opened⟩

def getVectorStore : Code (Option VectorStore) :=
  double Cell.store (load Cell.store) (vectorStore none "wiseorder")

/-! ### Threads -/

/-- What a thread asks for, in any order, and as it decides from what it got. -/
inductive Plan where
  | stop
  | getSettings (next : Except Exc (Option Settings) → Plan)
  | getLogger (name : String) (next : Except Exc Nat → Plan)
  | getVectorStore (next : Except Exc (Option VectorStore) → Plan)
  | vectorStore (path : Option String) (collection : String) (next : Except Exc VectorStore → Plan)
  | work (w : Work) (next : Except Exc w.Answer → Plan)

inductive Got where
  | settings (s : Option Settings)
  | logger (name : String)
  | store (v : Option VectorStore)

/-- Note what was returned, if anything was. -/
def note (got : List Got) (as : β → Got) : Except Exc β → List Got
  | .ok b => got ++ [as b]
  | .error _ => got

/-- The thread that goes by a plan; it ends with what it got. -/
def Plan.run : Plan → List Got → Code (List Got)
  | .stop, got => pure got
  | .getSettings next, got =>
      Configs.getSettings.andThen fun r => (next r).run (note got .settings r)
  | .getLogger name next, got =>
      (Configs.getLogger name).andThen fun r => (next r).run (note got (fun _ => .logger name) r)
  | .getVectorStore next, got =>
      Configs.getVectorStore.andThen fun r => (next r).run (note got .store r)
  | .vectorStore path collection next, got =>
      (Configs.vectorStore path collection).andThen fun r => (next r).run got
  | .work w next, got => (ask w).andThen fun r => (next r).run got

def process (κ : Type) :
    Machine κ (Cells κ Cell.Value) (Once.calls Cell.Value Work.Answer Exc) (List Got) :=
  machine fun p => ∃ plan : Plan, p = plan.run []

/-! ### What is made once is whole -/

/-- A call that returned. -/
abbrev did (w : Work) (a : w.Answer) : Interaction (Once.calls Cell.Value Work.Answer Exc) :=
  ⟨.work w, .ok a⟩

abbrev found (c : Cell) (v : c.Value) : Interaction (Once.calls Cell.Value Work.Answer Exc) :=
  ⟨.load c, .ok (some v)⟩

/-- What `configure_logging` has done when it sets its flag. -/
def setup (s : Settings) (hs : List Nat) (fmt corr stream file : Nat) : Past :=
  [found .settings s, did (.mkdir s.logDir) (), did (.setLevel s.logLevel) (), did .handlers hs] ++
    hs.map (fun h => did (.removeHandler h) ()) ++
    [did (.jsonFormatter format) fmt, did .correlationFilter corr,
      did .streamHandler stream, did (.setFormatter stream fmt) (), did (.addFilter stream corr) (),
        did (.addHandler stream) (),
      did (.fileHandler s.logDir "wiseorder.jsonl") file, did (.setFormatter file fmt) (),
        did (.addFilter file corr) (),
      did (.addHandler file) ()]

/-- What was done before a cell is written. -/
def Ready : (c : Cell) → c.Value → Past → Prop
  | .settings, s, h =>
      List.Sublist [did .settings s, did (.mkdir s.logDir) (), did (.mkdir s.chromaPath) ()] h
  | .configured, _, h =>
      ∃ s hs fmt corr stream file, List.Sublist (setup s hs fmt corr stream file) h
  | .store, v, h =>
      ∃ s, v.path = s.chromaPath ∧
        List.Sublist [found .settings s, did (.persistentClient v.path false false) v.client,
      did (.getOrCreateCollection v.client "wiseorder") v.collection] h

theorem ready_later (c : Cell) (v : c.Value) (h : Past) (x) (ready : Ready c v h) :
    Ready c v (h ++ [x]) := by
  have longer : List.Sublist h (h ++ [x]) := List.sublist_append_left _ _
  cases c with
  | settings => exact List.Sublist.trans ready longer
  | configured =>
      obtain ⟨s, hs, fmt, corr, stream, file, done⟩ := ready
      exact ⟨s, hs, fmt, corr, stream, file, done.trans longer⟩
  | store =>
      obtain ⟨s, same, done⟩ := ready
      exact ⟨s, same, done.trans longer⟩

abbrev rules : Protocol (Once.calls Cell.Value Work.Answer Exc) (Sense Cell.Value) :=
  protocol Cell.rank Ready

section
variable {n : Sense Cell.Value} {h acc : Past} {Q : β → Past → Sense Cell.Value → Prop}

/-- One more call that returned. -/
theorem obeys_did {w : Work} {f : w.Answer → Code β} (before : List.Sublist acc h)
    (next : ∀ a h, List.Sublist (acc ++ [did w a]) h → (f a).Obeys rules (Made n Q) h n) :
    (ask w >>= f).Obeys rules (Made n Q) h n :=
  made_work fun a => next a _ (before.append (List.Sublist.refl _))

theorem getSettings_returns (free : n.grip .settings = .free) :
    getSettings.Obeys rules (Made n fun r h _ => ∃ s, r = some s ∧ found .settings s ∈ h) h n := by
  refine made_double free (fun c held => ?_) ?_ (fun h n' s known => ?_) fun h n' _ => ?_
  · cases c with
    | settings => exact absurd free held
    | configured | store => exact Nat.zero_lt_one
  · rintro r h x n n' - ⟨s, same, member⟩
    exact ⟨s, same, List.mem_append_left _ member⟩
  · exact made_load known fun n'' _ => ⟨s, rfl, List.mem_append_right _ List.mem_cons_self⟩
  · refine obeys_did (List.nil_sublist h) fun s h first => ?_
    refine obeys_did first fun _ h second => ?_
    refine obeys_did second fun _ h third => ?_
    exact made_pure third

theorem removeHandlers_returns (hs : List Nat) (before : List.Sublist acc h) :
    (removeHandlers hs).Obeys rules
    (Made n fun _ h _ => List.Sublist (acc ++ hs.map fun h => did (.removeHandler h) ()) h) h
      n := by
  induction hs generalizing acc h with
  | nil => exact made_pure (by simpa using before)
  | cons x hs ih =>
      refine obeys_did before fun _ h more => ?_
      simpa using ih more

theorem configureLogging_returns (free : ∀ c, n.grip c = .free) :
    configureLogging.Obeys rules (Made n fun _ _ n => n.known .configured = some ()) h n := by
  refine made_double (free _) (fun c held => absurd (free c) held) ?_ (fun h n' _ known =>
    made_pure known) fun h n' inside => ?_
  · intro _ h x n n' same known
    rw [same]
    exact known
  · refine made_bind (getSettings_returns ((inside.others _ (by simp)).trans (free _))) ?_
    rintro r h n'' - - ⟨s, rfl, loaded⟩
    refine obeys_did (List.singleton_sublist.mpr loaded) fun _ h done => ?_
    refine obeys_did done fun _ h done => ?_
    refine obeys_did done fun hs h done => ?_
    refine made_bind (removeHandlers_returns hs done) fun _ h n'' _ _ done => ?_
    refine obeys_did done fun fmt h done => ?_
    refine obeys_did done fun corr h done => ?_
    refine obeys_did done fun stream h done => ?_
    refine obeys_did done fun _ h done => ?_
    refine obeys_did done fun _ h done => ?_
    refine obeys_did done fun _ h done => ?_
    refine obeys_did done fun file h done => ?_
    refine obeys_did done fun _ h done => ?_
    refine obeys_did done fun _ h done => ?_
    refine obeys_did done fun _ h done => ?_
    exact made_pure ⟨s, hs, fmt, corr, stream, file, by simpa [setup] using done⟩

theorem getLogger_returns (name : String) (free : ∀ c, n.grip c = .free) :
    (getLogger name).Obeys rules (Made n fun _ _ n => n.known .configured = some ()) h n :=
  made_bind (configureLogging_returns free) fun _ _ _ _ _ known => made_last fun _ => known

theorem storePath_returns (path : Option String) (free : n.grip .settings = .free) :
    (storePath path).Obeys rules (Made n fun p h _ => path = none → ∃ s, p = s.chromaPath ∧
      found .settings s ∈ h) h n := by
  have asked (Q : String → Past → Sense Cell.Value → Prop)
      (holds : ∀ s h n, found .settings s ∈ h → Q s.chromaPath h n) : storePath.chromaPath.Obeys
          rules (Made n Q) h n := by
    refine made_bind (getSettings_returns free) ?_
    rintro r h n' - - ⟨s, rfl, loaded⟩
    exact made_pure (holds s h n' loaded)
  cases path with
  | none => exact asked _ fun s h _ loaded _ => ⟨s, rfl, loaded⟩
  | some p =>
      by_cases empty : p = ""
      · simp only [storePath, empty, if_true]
        exact asked _ fun s h _ _ absent => by simp at absent
      · simp only [storePath, empty, if_false]
        exact made_pure fun absent => by simp at absent

theorem vectorStore_returns (path : Option String) (collection : String)
    (free : n.grip .settings = .free) :
    (vectorStore path collection).Obeys rules
    (Made n fun v h _ => path = none → ∃ s, v.path = s.chromaPath ∧
      List.Sublist [found .settings s, did (.persistentClient v.path false false) v.client,
        did (.getOrCreateCollection v.client collection) v.collection] h) h n := by
  refine made_work fun self => made_bind (storePath_returns path free) fun p h n' _ _ loaded => ?_
  refine made_work fun client => made_work fun opened => made_pure fun absent => ?_
  obtain ⟨s, same, member⟩ := loaded absent
  refine ⟨s, same, ?_⟩
  have first := List.singleton_sublist.mpr member
  simpa using (first.append
    (List.Sublist.refl [did (.persistentClient p false false) client])).append
    (List.Sublist.refl [did (.getOrCreateCollection client collection) opened])

theorem getVectorStore_returns (free : ∀ c, n.grip c = .free) :
    getVectorStore.Obeys rules (Made n fun r h _ => ∃ v, r = some v ∧ found .store v ∈ h) h n := by
  refine made_double (free _) (fun c held => absurd (free c) held) ?_
    (fun h n' v known => ?_) fun h n' inside => ?_
  · rintro r h x n n' - ⟨v, same, member⟩
    exact ⟨v, same, List.mem_append_left _ member⟩
  · exact made_load known fun n'' _ => ⟨v, rfl, List.mem_append_right _ List.mem_cons_self⟩
  · refine (vectorStore_returns none "wiseorder" ((inside.others _ (by simp)).trans (free _))).mono
      ?_
    rintro r h n'' ⟨balanced, holds⟩
    exact ⟨balanced, fun v same => holds v same rfl⟩

/-- What a thread got is what it has seen in the cells. -/
def Got.Seen (h : Past) (n : Sense Cell.Value) : Got → Prop
  | .settings r => ∃ s, r = some s ∧ found .settings s ∈ h
  | .logger _ => n.known .configured = some ()
  | .store r => ∃ v, r = some v ∧ found .store v ∈ h

theorem Got.Seen.later {g : Got} {h' : Past} {n' : Sense Cell.Value}
    (seen : g.Seen h n) (since : h <+: h') (balanced : Balanced n n') : g.Seen h' n' := by
  cases g with
  | settings r =>
      obtain ⟨s, same, member⟩ := seen
      exact ⟨s, same, since.subset member⟩
  | logger name => exact balanced.known .configured () seen
  | store r =>
      obtain ⟨v, same, member⟩ := seen
      exact ⟨v, same, since.subset member⟩

theorem note_seen {as : β → Got} {r : Except Exc β} {got : List Got} (seen : ∀ g ∈ got, g.Seen h n)
    (returned : ∀ b, r = .ok b → (as b).Seen h n) : ∀ g ∈ note got as r, g.Seen h n := by
  intro g member
  cases r with
  | error e => exact seen g member
  | ok b =>
      rcases List.mem_append.mp member with old | new
      · exact seen g old
      · rw [List.mem_singleton.mp new]
        exact returned b rfl

/-- A thread keeps to the rules whatever it asks for, and it gets what is in the cells. -/
theorem plan_returns (plan : Plan) (got : List Got) (free : ∀ c, n.grip c = .free)
    (seen : ∀ g ∈ got, g.Seen h n) :
    (plan.run got).Obeys rules (Made n fun got h n => ∀ g ∈ got, g.Seen h n) h n := by
  have still {n n' : Sense Cell.Value} (free : ∀ c, n.grip c = .free) (balanced : Balanced n n')
      (c : Cell) : n'.grip c = .free :=
    (congrFun balanced.grip c).trans (free c)
  have kept {got : List Got} {h h' : Past} {n n' : Sense Cell.Value}
    (seen : ∀ g ∈ got, g.Seen h n) (balanced : Balanced n n')
      (since : h <+: h') : ∀ g ∈ got, g.Seen h' n' :=
        fun g member => (seen g member).later since balanced
  induction plan generalizing got h n with
  | stop => exact made_pure seen
  | getSettings next ih =>
      refine made_andThen (getSettings_returns (free _)) fun r h' n' balanced since returned => ?_
      exact ih r _ (still free balanced) (note_seen (kept seen balanced since) returned)
  | getLogger name next ih =>
      refine made_andThen (getLogger_returns name free) fun r h' n' balanced since returned => ?_
      exact ih r _ (still free balanced) (note_seen (kept seen balanced since) returned)
  | getVectorStore next ih =>
      refine made_andThen (getVectorStore_returns free) fun r h' n' balanced since returned => ?_
      exact ih r _ (still free balanced) (note_seen (kept seen balanced since) returned)
  | vectorStore path collection next ih =>
      refine made_andThen (vectorStore_returns path collection (free _))
        fun r h' n' balanced since _ => ?_
      exact ih r got (still free balanced) (kept seen balanced since)
  | work w next ih =>
      refine made_andThen (made_last (Q := fun _ _ _ => True) fun _ =>
        trivial) fun r h' n' balanced since _ => ?_
      exact ih r got (still free balanced) (kept seen balanced since)

end

/-! ### Runs of a process -/

section
variable {κ : Type} [DecidableEq κ]
    {trace : List (Event κ (Cells κ Cell.Value) (Once.calls Cell.Value Work.Answer Exc) (List Got))}
  {c : Config κ (Cells κ Cell.Value) (Once.calls Cell.Value Work.Answer Exc) (List Got)} {i : κ}

/-- A process that has just started. -/
def initial : Config κ (Cells κ Cell.Value) (Once.calls Cell.Value Work.Answer Exc) (List Got) :=
  ⟨⟨fun _ => none, fun _ => none⟩, fun _ => .absent⟩

def ends : Post (Once.calls Cell.Value Work.Answer Exc) (Sense Cell.Value) (List Got) :=
  Made .none fun got h n => ∀ g ∈ got, g.Seen h n

theorem plans_obey (p : Code (List Got)) (started : ∃ plan : Plan, p = plan.run []) :
    p.Obeys rules ends [] .none := by
  obtain ⟨plan, rfl⟩ := started
  exact plan_returns plan [] (fun _ => rfl) fun g member => absurd member List.not_mem_nil

omit [DecidableEq κ] in
theorem initial_synced : Synced Cell.rank Ready ends (initial : Config κ _ _ _) :=
  fresh_synced (fun _ => rfl) (fun _ => rfl) fun _ => rfl

theorem process_synced (run : Transition.Run (process κ).Step initial trace c) :
    Synced Cell.rank Ready ends c :=
  run_synced ready_later plans_obey initial_synced run

/-- What a thread got is what the process has. -/
def Got.Current (w : Cells κ Cell.Value) : Got → Prop
  | .settings r => r ≠ none ∧ r = w.value .settings
  | .logger _ => w.value .configured = some ()
  | .store r => r ≠ none ∧ r = w.value .store

end

/-! ### Two threads at once -/

abbrev Free : Config Nat (Cells Nat Cell.Value) (Once.calls Cell.Value Work.Answer Exc) (List Got) →
    Event Nat (Cells Nat Cell.Value) (Once.calls Cell.Value Work.Answer Exc) (List Got) →
    Config Nat (Cells Nat Cell.Value) (Once.calls Cell.Value Work.Answer Exc) (List Got) → Prop :=
  Transition.Guarded (process Nat).Step fun _ _ _ => True

section
variable {w w' : Cells Nat Cell.Value}
    {threads : Nat → Thread (Once.calls Cell.Value Work.Answer Exc) (List Got)}
  {seen : Past} {p p' : Code (List Got)}
    {past : List (Event Nat (Cells Nat Cell.Value) (Once.calls Cell.Value Work.Answer Exc)
    (List Got))}

/-- A thread begins and goes through a script. -/
theorem plan_entry (earlier : Transition.Run Free initial past ⟨w, threads⟩) (i : Nat)
    (plan : Plan) (script : Past) (unused : threads i = .absent)
    (plays : Plays ((process Nat).perform i) (plan.run []) w script p' w') :
    ∃ trace, Transition.Run Free initial trace ⟨w',
      Function.update threads i (.active script p')⟩ := by
  obtain ⟨events, -, run⟩ := Machine.run_spawned earlier unused ⟨plan, rfl⟩ plays
    (fun _ => trivial) fun _ _ _ _ _ => trivial
  exact ⟨_, run⟩

/-- It goes on through another one. -/
theorem plan_on (earlier : Transition.Run Free initial past ⟨w, threads⟩) (i : Nat) (script : Past)
    (active : threads i = .active seen p)
    (plays : Plays ((process Nat).perform i) p w script p' w') :
    ∃ trace, Transition.Run Free initial trace ⟨w',
      Function.update threads i (.active (seen ++ script) p')⟩ := by
  obtain ⟨events, -, run⟩ := Machine.run_plays earlier active plays fun _ _ _ _ _ => trivial
  exact ⟨_, run⟩

end

/-- The settings of a repository under `/root`. -/
def rootSettings : Settings := ⟨1, "/root/data/chroma", "INFO", "/root/logs"⟩

def rootStore : VectorStore := ⟨6, "/root/data/chroma", 7, 8⟩

/-- A thread asks for a logger and then for the vector store. -/
def asksBoth : Plan := .getLogger "wiseorder" fun _ => .getVectorStore fun _ => .stop

def asksStore : Plan := .getVectorStore fun _ => .stop

/-- The first thread is to configure the logging, and has the lock of the settings for it. -/
def takesSettings : Past :=
  [⟨.load .configured, .ok none⟩, ⟨.acquire .configured, .ok ()⟩, ⟨.load .configured, .ok none⟩,
    ⟨.load .settings, .ok none⟩,
    ⟨.acquire .settings, .ok ()⟩, ⟨.load .settings, .ok none⟩]

/-- The second one is to make the store, and needs the settings for it. -/
def takesStore : Past :=
  [⟨.load .store, .ok none⟩, ⟨.acquire .store, .ok ()⟩, ⟨.load .store, .ok none⟩, did .object 6,
    ⟨.load .settings, .ok none⟩]

/-- The first thread makes the settings and configures the logging. -/
def configures : Past :=
  [did .settings rootSettings, did (.mkdir "/root/logs") (), did (.mkdir "/root/data/chroma") (),
    ⟨.store .settings rootSettings, .ok ()⟩, found .settings rootSettings,
      ⟨.release .settings, .ok ()⟩,
    did (.mkdir "/root/logs") (), did (.setLevel "INFO") (),
      did .handlers [9], did (.removeHandler 9) (),
    did (.jsonFormatter format) 2, did .correlationFilter 3, did .streamHandler 4,
      did (.setFormatter 4 2) (),
    did (.addFilter 4 3) (), did (.addHandler 4) (),
      did (.fileHandler "/root/logs" "wiseorder.jsonl") 5,
    did (.setFormatter 5 2) (), did (.addFilter 5 3) (), did (.addHandler 5) (),
      ⟨.store .configured (), .ok ()⟩,
    ⟨.release .configured, .ok ()⟩, did (.logger "wiseorder") 10, ⟨.load .store, .ok none⟩]

/-- The second one finds the settings there, and makes the store. -/
def makesStore : Past :=
  [⟨.acquire .settings, .ok ()⟩, found .settings rootSettings, found .settings rootSettings,
    ⟨.release .settings, .ok ()⟩,
    did (.persistentClient "/root/data/chroma" false false) 7,
      did (.getOrCreateCollection 7 "wiseorder") 8,
    ⟨.store .store rootStore, .ok ()⟩, found .store rootStore, ⟨.release .store, .ok ()⟩]

/-- The first one finds the store there. -/
def findsStore : Past :=
  [⟨.acquire .store, .ok ()⟩, found .store rootStore, found .store rootStore,
    ⟨.release .store, .ok ()⟩]

/-- What two threads come to that meet at the settings. -/
structure Raced
    (c : Config Nat (Cells Nat Cell.Value) (Once.calls Cell.Value Work.Answer Exc) (List Got)) :
    Prop where
  first : ∃ past, c.threads 0 = .active past (.done (.ok [.logger "wiseorder",
    .store (some rootStore)]))
  second : ∃ past, c.threads 1 = .active past (.done (.ok [.store (some rootStore)]))
  settings : c.world.value .settings = some rootSettings
  configured : c.world.value .configured = some ()
  store : c.world.value .store = some rootStore

/-- One thread waits for a lock that the other holds, and then each ends with what it asked for. -/
theorem raced : ∃ trace c trace' c', Transition.Run (process Nat).Step initial trace c ∧
    c.world.holder .settings = some 0 ∧
    (∃ rest, c.threads 1 = .active takesStore (.await (.acquire .settings) rest)) ∧
    Transition.Run (process Nat).Step initial trace' c' ∧ Raced c' := by
  have start : Transition.Run Free initial [] initial := .refl _
  obtain ⟨_, one⟩ := plan_entry start 0 asksBoth takesSettings rfl
    (.call ⟨rfl, rfl⟩ (.call ⟨rfl, rfl⟩ (.call ⟨rfl, rfl⟩ (.call ⟨rfl, rfl⟩
      (.call ⟨rfl, rfl⟩ (.call ⟨rfl, rfl⟩ (.stop _ _)))))))
  obtain ⟨_, both⟩ := plan_entry one 1 asksStore takesStore rfl
    (.call ⟨rfl, rfl⟩ (.call ⟨rfl, rfl⟩ (.call ⟨rfl, rfl⟩ (.call rfl
      (.call ⟨rfl, rfl⟩ (.stop _ _))))))
  obtain ⟨_, configured⟩ := plan_on both 0 configures rfl
    (.call rfl (.call rfl (.call rfl (.call rfl (.call ⟨rfl, rfl⟩ (.call ⟨rfl, rfl⟩
      (.call rfl (.call rfl (.call rfl (.call rfl (.call rfl (.call rfl (.call rfl (.call rfl
      (.call rfl (.call rfl (.call rfl (.call rfl (.call rfl (.call rfl (.call rfl
      (.call ⟨rfl, rfl⟩ (.call rfl (.call ⟨rfl, rfl⟩ (.stop _ _)))))))))))))))))))))))))
  obtain ⟨_, stored⟩ := plan_on configured 1 makesStore rfl
    (.call ⟨rfl, rfl⟩ (.call ⟨rfl, rfl⟩ (.call ⟨rfl, rfl⟩ (.call ⟨rfl, rfl⟩ (.call rfl
      (.call rfl (.call rfl (.call ⟨rfl, rfl⟩ (.call ⟨rfl, rfl⟩ (.stop _ _))))))))))
  obtain ⟨_, ended⟩ := plan_on stored 0 findsStore rfl
    (.call ⟨rfl, rfl⟩ (.call ⟨rfl, rfl⟩ (.call ⟨rfl, rfl⟩ (.call ⟨rfl, rfl⟩ (.stop _ _)))))
  exact ⟨_, _, _, _, both.unguard, rfl, ⟨_, rfl⟩, ended.unguard, ⟨_, rfl⟩, ⟨_, rfl⟩, rfl, rfl, rfl⟩

/-! ### All runs -/

section
variable {κ : Type} [DecidableEq κ]
    {trace : List (Event κ (Cells κ Cell.Value) (Once.calls Cell.Value Work.Answer Exc) (List Got))}
  {c : Config κ (Cells κ Cell.Value) (Once.calls Cell.Value Work.Answer Exc) (List Got)} {i : κ}

/-- However threads race, they all get the same settings and the same vector store, and a logger
only once logging is configured; each of the three is set once at most. -/
theorem singletons_agree (run : Transition.Run (process κ).Step initial trace c) :
    (∀ i past got, c.threads i = .active past (.done (.ok got)) → ∀ g ∈ got, g.Current c.world) ∧
      ∀ l, trace.countP (writes l) ≤ 1 := by
  constructor
  · intro i past got ended g member
    have synced := process_synced run
    have fits := synced.fits i
    have seen := (synced.goes i past _ ended).2 got rfl g member
    rw [ended] at fits
    cases g with
    | settings r =>
        obtain ⟨s, rfl, loaded⟩ := seen
        exact ⟨Option.some_ne_none s, (fits.loaded .settings s loaded).symm⟩
    | logger name => exact fits.known .configured () seen
    | store r =>
        obtain ⟨v, rfl, loaded⟩ := seen
        exact ⟨Option.some_ne_none v, (fits.loaded .store v loaded).symm⟩
  · intro l
    rw [run_writes ready_later plans_obey initial_synced run rfl]
    exact Bool.toNat_le _

/-- Two threads get the one vector store, and one of them a logger. -/
theorem singletons_agree_asked :
    ∃ trace c past past', Transition.Run (process Nat).Step initial trace c ∧
    c.threads 0 = .active past (.done (.ok [.logger "wiseorder", .store (some rootStore)])) ∧
    c.threads 1 = .active past' (.done (.ok [.store (some rootStore)])) ∧
    (Got.logger "wiseorder").Current c.world ∧ (Got.store (some rootStore)).Current c.world := by
  obtain ⟨-, -, trace, c, -, -, -, run, raced⟩ := raced
  obtain ⟨past, first⟩ := raced.first
  obtain ⟨past', second⟩ := raced.second
  have current := (singletons_agree run).1
  exact ⟨trace, c, past, past', run, first, second, current 0 past _ first _ List.mem_cons_self,
    current 1 past' _ second _ List.mem_cons_self⟩

/-- What is set was made before, in the order of the code, and the settings that the others were
made from are the ones that are set. -/
theorem singletons_whole (run : Transition.Run (process κ).Step initial trace c) :
    (∀ s, c.world.value .settings = some s → ∃ i,
      List.Sublist [did .settings s, did (.mkdir s.logDir) (), did (.mkdir s.chromaPath) ()]
      (c.threads i).past) ∧
    (c.world.value .configured = some () → ∃ s, c.world.value .settings = some s ∧
      ∃ i hs fmt corr stream file,
      List.Sublist (setup s hs fmt corr stream file) (c.threads i).past) ∧
    ∀ v, c.world.value .store = some v → ∃ s, c.world.value .settings = some s ∧
    v.path = s.chromaPath ∧ ∃ i,
      List.Sublist [did (.persistentClient v.path false false) v.client,
        did (.getOrCreateCollection v.client "wiseorder") v.collection]
        (c.threads i).past := by
  have synced := process_synced run
  have loaded {s : Settings} {i : κ} (member : found .settings s ∈
      (c.threads i).past) : c.world.value .settings = some s :=
    (synced.fits i).loaded .settings s member
  refine ⟨fun s there => synced.made .settings s there, fun there => ?_, fun v there => ?_⟩
  · obtain ⟨i, s, hs, fmt, corr, stream, file, done⟩ := synced.made .configured () there
    exact ⟨s, loaded (done.subset (by simp [setup])), i, hs, fmt, corr, stream, file, done⟩
  · obtain ⟨i, s, same, done⟩ := synced.made .store v there
    exact ⟨s, loaded (done.subset List.mem_cons_self), same, i,
      (List.sublist_cons_self _ _).trans done⟩

/-- All three are set. -/
theorem singletons_whole_asked : ∃ trace c, Transition.Run (process Nat).Step initial trace c ∧
    (∃ i, List.Sublist [did .settings rootSettings, did (.mkdir "/root/logs") (),
      did (.mkdir "/root/data/chroma") ()]
      (c.threads i).past) ∧
    (∃ s i hs fmt corr stream file,
      List.Sublist (setup s hs fmt corr stream file) (c.threads i).past) ∧
    ∃ i, List.Sublist [did (.persistentClient "/root/data/chroma" false false) 7,
      did (.getOrCreateCollection 7 "wiseorder") 8]
      (c.threads i).past := by
  obtain ⟨-, -, trace, c, -, -, -, run, raced⟩ := raced
  obtain ⟨settings, configured, store⟩ := singletons_whole run
  obtain ⟨s, -, setup⟩ := configured raced.configured
  obtain ⟨-, -, -, opened⟩ := store rootStore raced.store
  exact ⟨trace, c, run, settings rootSettings raced.settings, ⟨s, setup⟩, opened⟩

/-- Threads never wait for one another in a circle: as long as one of them is not at its end, one of
them can go on. -/
theorem never_stuck (run : Transition.Run (process κ).Step initial trace c)
    (live : (c.threads i).Live) :
    ∃ j call a c', (process κ).Step c (.call j ⟨call, .ok a⟩ c.world) c' := by
  have answers (w : Work) : Nonempty w.Answer := by
    cases w <;> exact ⟨default⟩
  exact progress (fun r h n ended l => (congrFun ended.1.grip l).trans rfl) (process_synced run)
    live

/-- One thread waits for the lock of the settings, and the other, which holds it, goes on. -/
theorem never_stuck_spawned : ∃ trace c, Transition.Run (process Nat).Step initial trace c ∧
    c.world.holder .settings = some 0 ∧
    (∃ rest, c.threads 1 = .active takesStore (.await (.acquire .settings) rest)) ∧
    ∃ j call a c', (process Nat).Step c (.call j ⟨call, .ok a⟩ c.world) c' := by
  obtain ⟨trace, c, -, -, run, held, ⟨rest, waits⟩, -⟩ := raced
  exact ⟨trace, c, run, held, ⟨rest, waits⟩, never_stuck run (i := 1) ⟨_, _, waits, trivial⟩⟩

end

end WiseOrder.Configs
