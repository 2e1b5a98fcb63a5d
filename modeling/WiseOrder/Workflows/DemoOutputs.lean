import WiseOrder.Workflows.CardCalls
import WiseOrder.Workflows.CommitCalls
import Mathlib.Data.List.AList
import Mathlib.Data.List.Sort
import Mathlib.Data.String.Basic

/-! The output directories of the demo repository. A make wipes the directory of its
scenario and then regenerates it step by step, in a process of its own; a request
only lists and reads what it finds there when the make is done. -/
namespace WiseOrder.DemoOutputs
open Coroutine Coroutine.Program DemoForge

inductive Item where
  | file (body : List UInt8)
  | folder

abbrev Directory := AList fun _ : String => Item

def artifact (d : Directory) (name : String) : Option Artifact :=
  match d.lookup name with
  | some (.file body) => some ⟨name, body.length, Sha256.hexdigest body⟩
  | _ => none

/-- The files of a directory by name, with their sizes and hashes. -/
def artifactsOf (d : Directory) : List Artifact :=
  (d.keys.mergeSort fun a b => decide (a ≤ b)).filterMap (artifact d)

/-- The targets that write to the outputs of a scenario. -/
inductive Target where
  | demo (scenario : String)
  | film (scenario : String)

namespace Target

def scenario : Target → String
  | demo scenario | film scenario => scenario

def command : Target → List String
  | demo scenario => ["make", "demo-" ++ scenario]
  | film scenario => ["make", "outputs/DEMO_" ++ scenario ++ "/DEMO_" ++ scenario ++ ".mp4"]

theorem demo_ne_film (scenario other : String) :
    (demo scenario).command ≠ (film other).command := by
  simp only [command, ne_eq, List.cons.injEq, true_and, and_true]
  intro same
  have first := congrArg (fun text : String => text.toList.head?) same
  simp [String.toList_append] at first

end Target

inductive Change where
  | wipe
  | write (name : String) (item : Item)
  | remove (name : String)

def Change.apply : Change → Directory → Directory
  | wipe, _ => ∅
  | write name item, d => d.insert name item
  | remove name, d => d.erase name

/-- The output directories by scenario, and what the makes of each call have produced so far. -/
structure Disk where
  outputs : String → Option Directory
  produced : CallId → Option (String × Directory)

namespace Disk
variable {disk : Disk} {i : CallId}

/-- A make of a call takes one step. -/
def make (disk : Disk) (i : CallId) (scenario : String) (change : Change) : Disk where
  outputs := Function.update disk.outputs scenario
    (some (change.apply ((disk.outputs scenario).getD ∅)))
  produced := Function.update disk.produced i
    (some (scenario, change.apply (((disk.produced i).map Prod.snd).getD ∅)))

/-- A demo begins with a wipe; what comes later is for the same scenario. -/
def Ready (disk : Disk) (i : CallId) (t : Target) : Change → Prop
  | .wipe => ∃ scenario, t = .demo scenario
  | _ => ∃ d, disk.produced i = some (t.scenario, d)

end Disk

def outDir (s : Settings) (scenario : String) : String :=
  s.demoForgeDir ++ "/outputs/DEMO_" ++ scenario

/-- What a call finds in the output directory of a scenario. -/
def Finds (s : Settings) (scenario : String) (found : Option Directory) (c : Call)
    (reply : Except PyException c.Reply) : Prop :=
  match c, reply with
  | .isDir path, .ok b => path = outDir s scenario → b = found.isSome
  | .iterdir path, .ok names =>
      path = outDir s scenario → ∃ d, found = some d ∧ List.Perm names d.keys
  | .isFile path, .ok b => ∀ name, path = outDir s scenario ++ "/" ++ name →
      (b = true ↔ ∃ body, found.bind (fun d => d.lookup name) = some (.file body))
  | .readBytes path, .ok body => ∀ name, path = outDir s scenario ++ "/" ++ name →
      found.bind (fun d => d.lookup name) = some (.file body)
  | _, _ => True

/-- The call runs a target, and it succeeds. -/
def Succeeds (s : Settings) (t : Target) (c : Call) (reply : Except PyException c.Reply) : Prop :=
  match c, reply with
  | .subprocess cmd cwd _, .ok r => cmd = t.command ∧ cwd = s.demoForgeDir ∧ Prod.fst r = (0 : Int)
  | _, _ => False

/-- The directories are read as they are, and a demo that succeeds has wiped its own. -/
structure Disk.Answers (disk : Disk) (s : Settings) (i : CallId) (c : Call)
    (reply : Except PyException c.Reply) : Prop where
  finds : ∀ scenario ∈ validScenarios, Finds s scenario (disk.outputs scenario) c reply
  wiped : ∀ scenario, Succeeds s (.demo scenario) c reply →
    ∃ d, disk.produced i = some (scenario, d)

/-! ### What a request learns -/

/-- How far a request is with its outputs. They are listed, and hashed by the time of the
manifest. -/
inductive Stage where
  | making
  | reading
  | hashed

def Stage.next : Stage → Call → Stage
  | making, .iterdir _ => reading
  | reading, .now => hashed
  | stage, _ => stage

def History.stage (h : History) : Stage := h.foldl (fun stage x => stage.next x.call) .making

theorem History.stage_snoc (h : History) (x : Interaction calls) :
    History.stage (h ++ [x]) = (History.stage h).next x.call := by
  simp [History.stage, List.foldl_append]

/-- What the makes of a request have produced, and how far it is with that. -/
structure Outputs where
  made : Option (String × Directory)
  stage : Stage

/-- Runs of `make` aside, a call leaves what was made, and until the files are hashed it finds just
that. -/
structure Learns (s : Settings) (c : Call) (v : Outputs) (reply : Except PyException c.Reply)
    (v' : Outputs) : Prop where
  stage : v'.stage = v.stage.next c
  made : (∀ cmd cwd timeout, c ≠ .subprocess cmd cwd timeout) → v'.made = v.made
  finds : v.stage ≠ .hashed → ∀ scenario d, v.made = some (scenario, d) →
    scenario ∈ validScenarios → Finds s scenario (some d) c reply
  wiped : ∀ scenario, Succeeds s (.demo scenario) c reply → ∃ d, v'.made = some (scenario, d)
  kept : ∀ scenario cwd timeout d, c = .subprocess (Target.film scenario).command cwd timeout →
    v.made = some (scenario, d) → ∃ d', v'.made = some (scenario, d')

def outputsProtocol (s : Settings) : Protocol calls Outputs := ⟨fun _ _ _ => True, Learns s⟩

/-- The card of a manifest. -/
def card (m : Manifest) (thread : String) : Json := .obj [
  ("scenario", .str ("DEMO_" ++ m.scenario ++ " — " ++ (scenarioTitle m.scenario).getD "")),
  ("artifacts", .arr (m.artifacts.map fun a => .str a.name)),
  ("total_bytes", .int m.totalBytes),
  ("manifest_sha256", .str m.sha256),
  ("x_thread_excerpt", .str (excerpt thread))]

/-- The request has asked for an approval with the card of a manifest. -/
def Asked (h : History) (workflowId approvalId : Nat) (m : Manifest) : Prop :=
  ∃ req, (⟨.session (.addApproval req), .ok approvalId⟩ : Interaction calls) ∈ h ∧
    req.workflowId = some workflowId ∧
    req.affected = m.artifacts.map Artifact.name ∧ ∃ thread, req.outputs = card m thread

/-- The request has stored a manifest, and put it on the card that it has asked for. -/
structure Recorded (h : History) (workflowId approvalId : Nat) (m : Manifest) : Prop where
  stored : ∃ content id, (⟨.session (.addMemory "demo_forge_manifest" content m.json),
    .ok id⟩ : Interaction calls) ∈ h
  asked : Asked h workflowId approvalId m

/-- A request that returns has recorded a manifest of what its makes have produced. -/
def Truthful (r : Returned) (h : History) (v : Outputs) : Prop :=
  ∃ (workflowId approvalId : Nat) (m : Manifest) (d : Directory), r =
    .demo workflowId approvalId m.scenario m.artifacts.length ∧
    v.made = some (m.scenario, d) ∧ m.artifacts = artifactsOf d ∧ Recorded h workflowId approvalId m

/-! ### Steps -/

section
variable {s : Settings} {h : History} {v v' : Outputs} {c : Call}
    {reply : Except PyException c.Reply} {α β : Type}
  {workflowId taskId : Nat} {scenario dir : String} {d : Directory}

/-- A postcondition on what is returned; when the request raises, it has no card. -/
def returning (good : α → History → Outputs → Prop) : Post calls Outputs α :=
  ending good fun _ _ _ => True

theorem obeys_next {m : Async α} {f : α → Async β} (middle : α → History → Outputs → Prop)
    {good : β → History → Outputs → Prop}
    (first : m.Obeys (outputsProtocol s) (returning middle) h v)
    (next : ∀ a h v, middle a h v → (f a).Obeys (outputsProtocol s) (returning good) h v) :
    (m >>= f).Obeys (outputsProtocol s) (returning good) h v :=
  obeys_bind first next fun _ _ _ _ => trivial

/-- Neither makes nor lists anything. -/
def Steady : Call → Prop
  | .subprocess .. | .iterdir _ => False
  | _ => True

theorem Learns.steady (learns : Learns s c v reply v') (steady : Steady c)
    (settled : v.stage ≠ .reading) : v' = v := by
  have made : v'.made = v.made := by
    apply learns.made
    rintro cmd cwd timeout rfl
    exact steady
  have stage : v'.stage = v.stage := by
    rw [learns.stage]
    cases v with
    | mk made stage =>
        cases stage with
        | making =>
            cases c with
            | iterdir path => exact steady.elim
            | _ => rfl
        | reading => exact absurd rfl settled
        | hashed => cases c <;> rfl
  cases v
  cases v'
  cases made
  cases stage
  rfl

/-- A part of steady calls leads where it leads, and leaves the outputs as they were. -/
theorem obeys_steady {m : Async α} {Q : Except PyException α → History → Prop}
    (within : m.Within Steady) (leads : m.Leads Q h) (settled : v.stage ≠ .reading) :
    m.Obeys (outputsProtocol s) (fun r h' v' => Q r h' ∧ v' = v) h v := by
  induction m generalizing h with
  | done result => exact ⟨leads, rfl⟩
  | await call onReply ih =>
      refine ⟨trivial, fun reply after learns => ?_⟩
      cases learns.steady within.1 settled
      exact ih reply (within.2 reply) (leads.2 reply () trivial)

theorem learns_idle {m : Async α} {good : Outputs → Prop} (within : m.Within Steady)
    (settled : v.stage ≠ .reading) (holds : good v) :
    m.Obeys (outputsProtocol s) (returning fun _ _ => good) h v := by
  apply (obeys_steady within leads_any settled).mono
  rintro r h' v' ⟨-, rfl⟩
  cases r with
  | ok a => exact holds
  | error e => trivial

theorem learns_session {t : Transaction} {good : Outputs → Prop} (settled : v.stage ≠ .reading)
    (holds : good v) : (session t).Obeys (outputsProtocol s) (returning fun _ _ => good) h v :=
  learns_idle (within_call (by trivial)) settled holds

theorem learns_giveUp {good : α → History → Outputs → Prop} (first second : Async Unit)
    (e : PyException) :
    (do first
        second
        raise e : Async α).Obeys (outputsProtocol s) (returning good) h v := by
  have anywhere {γ : Type} (m : Async γ) (h : History) (v : Outputs) :
      m.Obeys (outputsProtocol s) (returning fun _ _ _ => True) h v := by
    apply (obeys_free (F := fun _ => True) (fun _ _ _ => trivial)
      (fun _ _ _ _ => trivial) trivial).mono
    intro r h v _
    cases r <;> trivial
  refine obeys_next _ (anywhere first h v) fun _ h v _ => ?_
  exact obeys_next _ (anywhere second h v) fun _ _ _ _ => obeys_raise trivial

theorem learns_run (t : Target) (timeout : Nat) :
    (run t.command s.demoForgeDir timeout).Obeys (outputsProtocol s)
    (returning fun r _ v' => v'.stage = v.stage ∧ (∀ scenario, t = .demo scenario → r.1 = 0 →
      ∃ d, v'.made = some (scenario, d)) ∧
      ∀ scenario d, t = .film scenario → v.made = some (scenario, d) → ∃ d', v'.made =
        some (scenario, d')) h v := by
  refine obeys_call trivial fun reply after learns => ?_
  cases reply with
  | error e => trivial
  | ok r =>
      have stage : after.stage = v.stage := by
        rw [learns.stage]
        cases v with
        | mk made stage => cases stage <;> rfl
      refine ⟨stage, fun scenario same zero => ?_, fun scenario d same made => ?_⟩
      · exact learns.wiped scenario ⟨by rw [same], rfl, zero⟩
      · exact learns.kept scenario _ _ d (by rw [same]) made

/-- The request may have something made, and has listed nothing. -/
def Making (v : Outputs) : Prop := v.stage = .making

/-- The makes of the request have produced outputs of the scenario, and it has listed nothing. -/
structure Made (scenario : String) (v : Outputs) : Prop where
  making : Making v
  made : ∃ d, v.made = some (scenario, d)

theorem Making.settled (making : Making v) : v.stage ≠ .reading := by
  intro reading
  exact absurd (making.symm.trans reading) (by simp)

theorem learns_checkTools (making : Making v) :
    (checkTools dir workflowId scenario).Obeys (outputsProtocol s)
    (returning fun _ _ => Making) h v := by
  apply obeys_next _ (learns_session making.settled making)
  rintro taskId h v making
  apply obeys_next fun _ _ => Making
  · refine obeys_call trivial fun reply after learns => ?_
    cases reply with
    | error e => trivial
    | ok r => exact learns.stage.trans (by rw [making]; rfl)
  · rintro ⟨rc, out, err⟩ h v making
    dsimp only
    split
    · exact learns_giveUp _ _ _
    · exact learns_session making.settled making

theorem learns_capture (making : Making v) :
    (capture s.demoForgeDir workflowId scenario).Obeys (outputsProtocol s)
    (returning fun _ _ => Made scenario) h v := by
  apply obeys_next _ (learns_session making.settled making)
  rintro taskId h v making
  apply obeys_next _ (learns_run (.demo scenario) 180)
  rintro ⟨rc, out, err⟩ h v' ⟨stage, wiped, -⟩
  have later : Making v' := stage.trans making
  dsimp only
  split
  · exact learns_giveUp _ _ _
  · rename_i zero
    exact learns_session later.settled ⟨later, wiped scenario rfl (not_not.mp zero)⟩

theorem learns_renderMp4 (made : Made scenario v) :
    (renderMp4 s.demoForgeDir workflowId scenario).Obeys (outputsProtocol s)
    (returning fun _ _ => Made scenario) h v := by
  apply obeys_next _ (learns_session made.making.settled made)
  rintro taskId h v made
  obtain ⟨d, here⟩ := made.made
  apply obeys_next _ (learns_run (.film scenario) 120)
  rintro ⟨rc, out, err⟩ h v' ⟨stage, -, kept⟩
  have later : Made scenario v' := ⟨stage.trans made.making, kept scenario d rfl here⟩
  dsimp only
  split <;> exact learns_session later.making.settled later

/-! ### The manifest -/

/-- A listing of a directory, sorted, is its sorted names. -/
theorem sorted_names {names : List String} (listed : names.Perm d.keys) :
    (names.mergeSort fun a b => decide (a ≤ b)) = d.keys.mergeSort fun a b => decide (a ≤ b) := by
  have sorted (l : List String) : (l.mergeSort fun a b => decide (a ≤ b)).Pairwise (· ≤ ·) :=
    List.pairwise_mergeSort' _ l
  apply List.Perm.eq_of_pairwise' (sorted names) (sorted d.keys)
  exact ((List.mergeSort_perm names _).trans listed).trans (List.mergeSort_perm d.keys _).symm

/-- The request knows what its makes have produced, as far as it has come with reading it. -/
def Knows (scenario : String) (d : Directory) (stage : Stage) (v : Outputs) : Prop :=
  v = ⟨some (scenario, d), stage⟩

/-- One look at the outputs while they are not hashed. -/
theorem learns_look {stage : Stage} (valid : scenario ∈ validScenarios)
    (knows : Knows scenario d stage v) (early : stage ≠ .hashed)
    (looks : ∀ cmd cwd timeout, c ≠ .subprocess cmd cwd timeout) :
    (await c).Obeys (outputsProtocol s)
      (returning fun x _ v' => Finds s scenario (some d) c (.ok x) ∧
        Knows scenario d (stage.next c) v') h v := by
  cases knows
  refine obeys_call trivial fun reply after learns => ?_
  cases reply with
  | error e => trivial
  | ok x =>
      refine ⟨learns.finds early scenario d rfl valid, ?_⟩
      cases after
      cases learns.made looks
      cases learns.stage
      rfl

theorem learns_readArtifacts (valid : scenario ∈ validScenarios) (names : List String)
    (knows : Knows scenario d .reading v) :
    (readArtifacts (outDir s scenario) names).Obeys (outputsProtocol s)
      (returning fun artifacts _ v' => artifacts = names.filterMap (artifact d) ∧
        Knows scenario d .reading v') h v := by
  induction names generalizing h v with
  | nil => exact ⟨rfl, knows⟩
  | cons name names ih =>
      apply obeys_next _ (learns_look valid knows (by simp) (by simp))
      rintro (file : Bool) h v ⟨found, knows⟩
      have file_iff : file = true ↔ ∃ body, d.lookup name = some (.file body) := found name rfl
      split
      · apply obeys_next _ (learns_look valid knows (by simp [Stage.next]) (by simp))
        rintro (body : List UInt8) h v ⟨read, knows⟩
        have here : d.lookup name = some (.file body) := read name rfl
        apply obeys_next _ (ih knows)
        rintro rest h v ⟨rfl, knows⟩
        exact ⟨by simp [artifact, here], knows⟩
      · rename_i other
        have none : artifact d name = none := by
          cases here : d.lookup name with
          | none => simp [artifact, here]
          | some item =>
              cases item with
              | file body => exact absurd (file_iff.mpr ⟨body, here⟩) other
              | folder => simp [artifact, here]
        apply (ih knows).mono
        intro r h v holds
        cases r with
        | ok artifacts => exact ⟨by rw [holds.1, List.filterMap_cons_none none], holds.2⟩
        | error e => trivial

/-- The manifest of a request lists what its makes have produced. -/
structure Listed (scenario : String) (m : Manifest) (v : Outputs) : Prop where
  named : m.scenario = scenario
  files : ∃ d, m.artifacts = artifactsOf d ∧ Knows scenario d .hashed v

theorem learns_buildManifest (valid : scenario ∈ validScenarios) (made : Made scenario v) :
    (buildManifest (outDir s scenario) scenario).Obeys (outputsProtocol s)
    (returning fun m _ => Listed scenario m) h v := by
  obtain ⟨d, here⟩ := made.made
  have knows : Knows scenario d .making v := by
    cases v
    cases here
    cases made.making
    rfl
  apply obeys_next _ (learns_look valid knows (by simp) (by simp))
  rintro (names : List String) h v ⟨listed, knows⟩
  have same : names.Perm d.keys := by
    obtain ⟨d', here, same⟩ := listed rfl
    cases here
    exact same
  apply obeys_next _ (learns_readArtifacts valid _ knows)
  rintro artifacts h v ⟨rfl, knows⟩
  apply obeys_next _ (learns_look valid knows (by simp) (by simp))
  rintro now h v ⟨-, knows⟩
  exact ⟨rfl, d, by rw [sorted_names same]; rfl, knows⟩

theorem learns_manifestStep (valid : scenario ∈ validScenarios) (made : Made scenario v) :
    (manifestStep (outDir s scenario) workflowId scenario).Obeys (outputsProtocol s)
    (returning fun m _ => Listed scenario m) h v := by
  apply obeys_next _ (learns_session made.making.settled made)
  rintro taskId h v made
  apply obeys_next _ (learns_idle (within_call (by trivial)) made.making.settled made)
  rintro (found : Bool) h v made
  split
  · apply obeys_next _ (learns_buildManifest valid made)
    rintro m h v listed
    obtain ⟨d, files, rfl⟩ := listed.files
    apply obeys_next _ (learns_session (by simp) listed)
    exact fun _ h v listed => listed
  · exact learns_giveUp _ _ _

/-! ### The card -/

variable {m : Manifest} {trigger outputsDir : String}

theorem steady_send (req : ApprovalRequest) : (ApprovalGateway.send s req).Within Steady := by
  apply ApprovalGateway.within_send
  · intro c delivery
    cases c with
    | subprocess | iterdir => exact delivery.elim
    | _ => trivial
  · trivial
  · exact fun _ _ => trivial

theorem steady_formatOutputs : (formatOutputsForApproval m outputsDir).Within Steady := by
  apply within_bind (within_call (by trivial))
  intro file
  split
  · exact within_bind (within_call (by trivial)) fun _ => trivial
  · trivial

theorem leads_formatOutputs : (formatOutputsForApproval m outputsDir).Leads
    (fun r _ => ∀ outputs, r = .ok outputs → ∃ thread, outputs = card m thread) h := by
  apply leads_call
  · exact fun _ _ same => nomatch same
  intro file
  split
  · apply leads_call
    · exact fun _ _ same => nomatch same
    · exact fun thread outputs same => ⟨thread, (Except.ok.inj same).symm⟩
  · exact fun outputs same => ⟨"", (Except.ok.inj same).symm⟩

theorem steady_approve : (approve s outputsDir workflowId scenario trigger m).Within Steady :=
  within_bind (within_call (by trivial)) fun _ => within_bind steady_formatOutputs fun _ =>
    within_bind (steady_send _) fun _ => within_bind (within_call (by trivial)) fun _ => trivial

theorem leads_approve : (approve s outputsDir workflowId scenario trigger m).Leads
    (fun r h => ∀ id, r = .ok id → Asked h workflowId id m) h := by
  apply leads_call
  · exact fun _ _ same => nomatch same
  intro taskId
  apply leads_bind leads_formatOutputs
  · intro outputs h shown
    obtain ⟨thread, rfl⟩ := shown outputs rfl
    apply leads_bind ApprovalGateway.leads_send
    · intro approvalId h sent
      apply leads_call
      · exact fun _ _ same => nomatch same
      · intro _ id same
        cases Except.ok.inj same
        exact ⟨_, List.mem_append_left _ (sent _ rfl), rfl, rfl, thread, rfl⟩
    · exact fun _ _ _ _ same => nomatch same
  · exact fun _ _ _ _ same => nomatch same

/-! ### The request -/

/-- What a request does once it has a manifest. -/
def record (s : Settings) (workflowId : Nat) (scenario trigger : String) (m : Manifest) :
    Async Returned := do
  let _ ← session (.addMemory "demo_forge_manifest" (memoryContent scenario m) m.json)
  let approvalId ← approve s (outDir s scenario) workflowId scenario trigger m
  session (.completeWorkflow workflowId "demo_request_completed"
    (.obj [("approval_id", .int (Int.ofNat approvalId))]))
  return .demo workflowId approvalId scenario m.artifacts.length

theorem steady_record : (record s workflowId scenario trigger m).Within Steady :=
  within_bind (within_call (by trivial)) fun _ => within_bind steady_approve fun _ =>
    within_bind (within_call (by trivial)) fun _ => trivial

theorem leads_record : (record s workflowId scenario trigger m).Leads (fun r h =>
      ∀ result, r = .ok result → ∃ approvalId, result =
        .demo workflowId approvalId scenario m.artifacts.length ∧
      Recorded h workflowId approvalId m) h := by
  apply leads_call
  · exact fun _ _ same => nomatch same
  intro memoryId
  apply leads_bind leads_approve.grows
  · rintro approvalId h ⟨asked, more, rfl⟩
    apply leads_call
    · exact fun _ _ same => nomatch same
    rintro _ result same
    obtain ⟨req, member, rest⟩ := asked approvalId rfl
    cases Except.ok.inj same
    exact ⟨approvalId, rfl, ⟨memoryContent scenario m, memoryId, by simp⟩, req,
      List.mem_append_left _ member, rest⟩
  · exact fun _ _ _ _ same => nomatch same

theorem learns_record (listed : Listed scenario m v) :
    (record s workflowId scenario trigger m).Obeys (outputsProtocol s)
    (returning Truthful) h v := by
  obtain ⟨d, files, rfl⟩ := listed.files
  apply (obeys_steady steady_record leads_record (by simp)).mono
  rintro r h' v' ⟨recorded, rfl⟩
  cases r with
  | error e => trivial
  | ok result =>
      obtain ⟨approvalId, rfl, stored⟩ := recorded result rfl
      cases listed.named
      exact ⟨workflowId, approvalId, m, d, rfl, rfl, files, stored⟩

theorem learns_runSteps (valid : scenario ∈ validScenarios)
    (skipRender : Bool) (making : Making v) :
    (runSteps s workflowId scenario trigger skipRender).Obeys (outputsProtocol s)
    (returning Truthful) h v := by
  have rest {h : History} {v : Outputs} (made : Made scenario v) : (do
      let m ← manifestStep (outDir s scenario) workflowId scenario
      record s workflowId scenario trigger m).Obeys (outputsProtocol s) (returning Truthful) h v :=
    obeys_next _ (learns_manifestStep valid made) fun _ _ _ listed => learns_record listed
  apply obeys_next _ (learns_checkTools making)
  intro _ h v making
  apply obeys_next _ (learns_capture making)
  intro _ h v made
  dsimp only
  split
  · exact rest made
  · exact obeys_next _ (learns_renderMp4 made) fun _ _ _ made => rest made

theorem learns_runDemoForgeRequest (payload : Json) :
    (runDemoForgeRequest s payload).Obeys (outputsProtocol s) (returning Truthful)
    [] ⟨none, .making⟩ := by
  have start : Making ⟨none, .making⟩ := rfl
  apply obeys_next fun _ _ => Making
  · cases payloadFields payload with
    | ok fields => exact start
    | error e => trivial
  intro fields h v making
  dsimp only
  split
  · rename_i valid
    apply obeys_next _ (learns_idle (within_call (by trivial)) making.settled making)
    intro (makefile : Bool) h v making
    split
    · apply obeys_next fun _ _ => Making
      · exact learns_idle (within_bind (within_call (by trivial)) fun _ =>
          trivial) making.settled making
      intro entry h v making
      apply obeys_next _ (learns_session making.settled making)
      intro workflowId h v making
      exact learns_runSteps (List.contains_iff_mem.mp valid) _ making
    · exact obeys_raise trivial
  · exact obeys_raise trivial

end

end WiseOrder.DemoOutputs
