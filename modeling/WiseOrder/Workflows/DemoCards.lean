import WiseOrder.Foundation.Eval
import WiseOrder.Foundation.KeyOrder
import WiseOrder.Workflows.DemoOutputs
import Mathlib.Algebra.Ring.Int.Defs

/-! The manifest of a demo and the card that a person decides on. The manifest lists the
files of the output directory, and whoever reads it back can check the card. -/
namespace WiseOrder.DemoOutputs
open Coroutine Coroutine.Program DemoForge

/-! ### A verifier -/

def field (key : String) : Json → Option Json
  | .obj fields => Json.lookup key fields
  | _ => none

def itemsOf : Json → Option (List Json)
  | .arr items => some items
  | _ => none

def textOf : Json → Option String
  | .str s => some s
  | _ => none

def numberOf : Json → Option Int
  | .int n => some n
  | _ => none

structure Recomputed where
  names : List String
  totalBytes : Int
  sha256 : String

/-- What a verifier computes from a manifest that it has read back. -/
def recompute (stored : Json) : Option Recomputed := do
  let artifacts ← (field "artifacts" stored).bind itemsOf
  let names ← artifacts.mapM fun a => (field "name" a).bind textOf
  let sizes ← artifacts.mapM fun a => (field "bytes" a).bind numberOf
  return ⟨names, sizes.sum, Sha256.hexdigest (Python.sortKeys stored).dumps.toUTF8.toList⟩

/-- A request for approval says what was recomputed. -/
structure Confirms (r : Recomputed) (req : ApprovalRequest) : Prop where
  names : field "artifacts" req.outputs = some (.arr (r.names.map .str))
  affected : req.affected = r.names
  totalBytes : field "total_bytes" req.outputs = some (.int r.totalBytes)
  sha256 : field "manifest_sha256" req.outputs = some (.str r.sha256)

section
variable {m : Manifest} {stored : Json}

theorem field_reordered {fs : List (String × Json)} {v w : Json} (key : String)
    (same : Json.Reordered (.obj fs) w) (distinct : (fs.map Prod.fst).Nodup)
    (found : Json.lookup key fs = some v) : ∃ u, field key w = some u ∧ Json.Reordered v u := by
  obtain ⟨hs, u, rfl, there, reordered⟩ := same.lookup distinct found
  exact ⟨u, there, reordered⟩

def Artifact.json (a : Artifact) : Json :=
  .obj [("name", .str a.name), ("bytes", .int a.bytes), ("sha256", .str a.sha256)]

theorem artifact_distinct (a : Artifact) : (Artifact.json a).Distinct := by
  simp [Artifact.json, Json.Distinct, Json.DistinctFields]

theorem manifest_distinct (m : Manifest) : m.json.Distinct := by
  have items (artifacts : List Artifact) : Json.DistinctItems (artifacts.map Artifact.json) := by
    induction artifacts with
    | nil => trivial
    | cons a artifacts ih => exact ⟨artifact_distinct a, ih⟩
  have fields : Json.Distinct (.arr (m.artifacts.map Artifact.json)) := items m.artifacts
  simp only [Manifest.json, Json.Distinct, Json.DistinctFields]
  refine ⟨by simp, trivial, trivial, trivial, trivial, trivial, fields, trivial⟩

theorem artifact_reordered {a : Artifact} {y : Json} (same : Json.Reordered (Artifact.json a) y) :
    (field "name" y).bind textOf = some a.name ∧ (field "bytes" y).bind numberOf = some
    (a.bytes : Int) := by
  have distinct := (artifact_distinct a).1
  obtain ⟨u, name, reordered⟩ := field_reordered "name" same distinct rfl
  cases reordered
  obtain ⟨u, bytes, reordered⟩ := field_reordered "bytes" same distinct rfl
  cases reordered
  exact ⟨by rw [name]; rfl, by rw [bytes]; rfl⟩

theorem artifacts_reordered {artifacts : List Artifact} {ys : List Json}
    (same : Json.ReorderedItems (artifacts.map Artifact.json) ys) :
    ys.mapM (fun a => (field "name" a).bind textOf) = some (artifacts.map Artifact.name) ∧
    ys.mapM (fun a => (field "bytes" a).bind numberOf) = some
    (artifacts.map fun a => (a.bytes : Int)) := by
  induction artifacts generalizing ys with
  | nil =>
      cases same
      exact ⟨rfl, rfl⟩
  | cons a artifacts ih =>
      cases same with
      | cons first rest =>
          obtain ⟨name, bytes⟩ := artifact_reordered first
          obtain ⟨names, sizes⟩ := ih rest
          constructor
          · rw [List.mapM_cons, name, names]
            rfl
          · rw [List.mapM_cons, bytes, sizes]
            rfl

/-- The order of the keys in which a manifest is read back makes no difference to what is
recomputed. -/
theorem recompute_reordered (same : m.json.Reordered stored) :
    recompute stored = some ⟨m.artifacts.map Artifact.name, (m.totalBytes : Int), m.sha256⟩ := by
  have text : Python.sortKeys m.json = Python.sortKeys stored :=
    Json.sortKeys_reordered same (manifest_distinct m)
  obtain ⟨u, artifacts, reordered⟩ := field_reordered "artifacts" same (manifest_distinct m).1 rfl
  cases reordered with
  | arr items =>
      obtain ⟨names, sizes⟩ := artifacts_reordered items
      have total : (m.artifacts.map fun a => (a.bytes : Int)).sum = (m.totalBytes : Int) := by
        rw [Manifest.totalBytes]
        induction m.artifacts with
        | nil => rfl
        | cons a artifacts ih => simp only [List.map_cons, List.sum_cons, ih, Int.natCast_add]
      simp only [recompute, artifacts, Option.bind_eq_bind, Option.bind_some, itemsOf, names, sizes,
        Option.pure_def, total, ← text]
      rfl

end

/-! ### The output directory -/

/-- Every file of a directory once, by name, with its size and hash. -/
structure Lists (d : Directory) (artifacts : List Artifact) : Prop where
  files : ∀ a, a ∈ artifacts ↔
    ∃ body, d.lookup a.name = some (.file body) ∧ a.bytes = body.length ∧
      a.sha256 = Sha256.hexdigest body
  sorted : (artifacts.map Artifact.name).Pairwise (· < ·)

theorem artifact_some {d : Directory} {name : String} {a : Artifact} : artifact d name = some a ↔
    ∃ body, d.lookup name = some (.file body) ∧
    (⟨name, body.length, Sha256.hexdigest body⟩ : Artifact) = a := by
  rw [artifact]
  split
  · rename_i body here
    simp [here]
  · rename_i other
    simp only [reduceCtorEq, false_iff]
    rintro ⟨body, here, -⟩
    exact other body here

theorem lists_artifactsOf (d : Directory) : Lists d (artifactsOf d) where
  files a := by
    rw [artifactsOf, List.mem_filterMap]
    constructor
    · rintro ⟨name, -, here⟩
      obtain ⟨body, file, rfl⟩ := artifact_some.mp here
      exact ⟨body, file, rfl, rfl⟩
    · rintro ⟨body, file, bytes, sha256⟩
      refine ⟨a.name, ?_, artifact_some.mpr ⟨body, file, ?_⟩⟩
      · rw [List.mem_mergeSort]
        exact AList.lookup_isSome.mp (by rw [file]; rfl)
      · rw [← bytes, ← sha256]
  sorted := by
    have names : (d.keys.mergeSort fun a b => decide (a ≤ b)).Pairwise (· < ·) := by
      have nodup : (d.keys.mergeSort fun a b => decide (a ≤ b)).Nodup :=
        (List.mergeSort_perm _ _).nodup_iff.mpr d.nodupKeys
      have sorted : (d.keys.mergeSort fun a b => decide (a ≤ b)).Pairwise (· ≤ ·) :=
        List.pairwise_mergeSort' _ _
      exact (sorted.and nodup).imp fun ⟨le, ne⟩ => lt_of_le_of_ne le ne
    rw [List.pairwise_map]
    refine names.filterMap _ fun name name' less a here a' there => ?_
    obtain ⟨body, -, rfl⟩ := artifact_some.mp here
    obtain ⟨body', -, rfl⟩ := artifact_some.mp there
    exact less

section
variable (dir : String) (d : Directory) (names : List String) (now : Time)

def Directory.find (path : String) : Option Item :=
  (d.keys.find? fun name => dir ++ "/" ++ name = path).bind d.lookup

/-- Surroundings with one directory, which is listed in some order. -/
def answer : Answers calls Unit
  | .iterdir path, w => (if path = dir then .ok names else .error ⟨.fileNotFoundError, path⟩, w)
  | .isFile path, w => (.ok (match Directory.find dir d path with
      | some (.file _) => true
      | _ => false), w)
  | .readBytes path, w => (match Directory.find dir d path with
      | some (.file body) => .ok body
      | _ => .error ⟨.fileNotFoundError, path⟩, w)
  | .now, w => (.ok now, w)
  | _, w => (.error ⟨.fileNotFoundError, ""⟩, w)

variable {dir d names now}

theorem Directory.find_name (dir : String) {name : String} (there : name ∈ d.keys) :
    Directory.find dir d (dir ++ "/" ++ name) = d.lookup name := by
  have first :
      d.keys.find? (fun other => dir ++ "/" ++ other = dir ++ "/" ++ name) = some name := by
    obtain ⟨before, after, parts, fresh⟩ := List.eq_append_cons_of_mem there
    have same : (fun other : String => decide (dir ++ "/" ++ other = dir ++ "/" ++ name)) =
        fun other => decide (other = name) := by
      funext other
      exact decide_eq_decide.mpr (String.append_right_inj _)
    rw [same]
    refine List.find?_eq_some_iff_append.mpr ⟨by simp, before, after, parts, fun other member => ?_⟩
    have ne : other ≠ name := fun same => fresh (same ▸ member)
    simp [ne]
  rw [Directory.find, first, Option.bind_some]

theorem eval_readArtifacts {some : List String} (there : some ⊆ d.keys) :
    (readArtifacts dir some).eval (answer dir d names now)
    () = (.ok (some.filterMap (artifact d)), ()) := by
  induction some with
  | nil => rfl
  | cons name others ih =>
      obtain ⟨here, rest⟩ := List.cons_subset.mp there
      have file : (await (.isFile (dir ++ "/" ++ name))).eval (answer dir d names now) () =
          (.ok (match d.lookup name with | Option.some (.file _) => true | _ => false), ()) := by
        rw [← Directory.find_name dir here]
        rfl
      have body : (await (.readBytes (dir ++ "/" ++ name))).eval (answer dir d names now) () =
          (match d.lookup name with
            | Option.some (.file body) => .ok body
            | _ => .error ⟨.fileNotFoundError, dir ++ "/" ++ name⟩, ()) := by
        rw [← Directory.find_name dir here]
        rfl
      rw [readArtifacts]
      refine (eval_bind_ok file).trans ?_
      rcases found : d.lookup name with _ | _ | _
      · rw [List.filterMap_cons_none (by rw [artifact, found])]
        exact ih rest
      · rename_i bytes
        rw [found] at body
        rw [List.filterMap_cons_some (by rw [artifact, found])]
        refine (eval_bind_ok body).trans ?_
        exact eval_bind_ok (ih rest)
      · rw [List.filterMap_cons_none (by rw [artifact, found])]
        exact ih rest

/-- The manifest of a directory does not depend on the order in which it is listed. -/
theorem eval_buildManifest (scenario : String) (listed : names.Perm d.keys) :
    (buildManifest dir scenario).eval (answer dir d names now)
    () = (.ok ⟨scenario, now, dir, artifactsOf d⟩, ()) := by
  have all : (await (.iterdir dir)).eval (answer dir d names now) () = (.ok names, ()) := by
    rw [await, eval_call]
    simp [answer]
  have sorted : (d.keys.mergeSort fun a b => decide (a ≤ b)) ⊆ d.keys :=
    fun name member => List.mem_mergeSort.mp member
  refine (eval_bind_ok all).trans ?_
  rw [sorted_names listed]
  exact eval_bind_ok (eval_readArtifacts sorted)

end

/-! ### The request -/

/-- Every look at the output directory of a scenario so far has found one directory there. -/
def Found (s : Settings) (scenario : String) (d : Directory) (h : History) : Prop :=
  ∀ x ∈ h, Finds s scenario (some d) x.call x.reply

/-- Before it asks for an approval, the request has stored the manifest of what it found in the
output directory; the approval says what anyone recomputes from the stored one. -/
def Backed (s : Settings) (h : History) (req : ApprovalRequest) : Prop :=
  ∃ (m : Manifest) (content : String) (id : Nat) (before after : History),
    h = before ++ ⟨.session (.addMemory "demo_forge_manifest" content m.json), .ok id⟩ :: after ∧
    (∀ d, Found s m.scenario d before → m.artifacts = artifactsOf d) ∧
    ∀ stored, m.json.Reordered stored → ∃ r, recompute stored = some r ∧ Confirms r req

def cardProtocol (s : Settings) : Protocol calls Unit :=
  ⟨fun h c _ => ∀ req, c = .session (.addApproval req) → Backed s h req, fun _ _ _ _ => True⟩

section
variable {s : Settings} {h : History} {m : Manifest} {scenario trigger dir : String}
    {workflowId : Nat}

theorem Found.upTo {d : Directory} {later : History} (found : Found s scenario d later)
    (before : h <+: later) : Found s scenario d h :=
  fun x member => found x (before.subset member)

theorem leads_readArtifacts (names : List String) : (readArtifacts (outDir s scenario) names).Leads
    (fun r later => ∀ artifacts, r = .ok artifacts → ∀ d, Found s scenario d later →
      artifacts = names.filterMap (artifact d)) h := by
  induction names generalizing h with
  | nil => exact fun artifacts same d _ => (Except.ok.inj same).symm
  | cons name names ih =>
      apply leads_call
      · exact fun _ _ same => nomatch same
      intro (file : Bool)
      have looked {later : History} {d : Directory} (found : Found s scenario d later)
          (before : h ++ [⟨.isFile (outDir s scenario ++ "/" ++ name), .ok file⟩] <+: later) :
          file = true ↔ ∃ body, d.lookup name = some (.file body) :=
        found.upTo before ⟨.isFile _, .ok file⟩ (by simp) name rfl
      split
      · apply leads_call
        · exact fun _ _ same => nomatch same
        intro (body : List UInt8)
        apply leads_bind ih.grows
        · rintro rest later ⟨same, before⟩ artifacts returned d found
          cases Except.ok.inj returned
          have read : d.lookup name = some (.file body) :=
            found.upTo before ⟨.readBytes _, .ok body⟩ (by simp) name rfl
          rw [List.filterMap_cons_some (by rw [artifact, read]), same rest rfl d found]
        · exact fun _ _ _ _ same => nomatch same
      · rename_i other
        apply ih.grows.mono
        rintro r later _ ⟨same, before⟩ artifacts returned d found
        have none : artifact d name = none := by
          rw [Option.eq_none_iff_forall_ne_some]
          intro a here
          obtain ⟨body, read, -⟩ := artifact_some.mp here
          exact other ((looked found before).mpr ⟨body, read⟩)
        rw [List.filterMap_cons_none none, same artifacts returned d found]

theorem leads_buildManifest : (buildManifest (outDir s scenario) scenario).Leads
    (fun r later => ∀ m, r = .ok m → m.scenario = scenario ∧ ∀ d, Found s scenario d later →
      m.artifacts = artifactsOf d) h := by
  apply leads_call
  · exact fun _ _ same => nomatch same
  intro (names : List String)
  apply leads_bind (leads_readArtifacts _).grows
  · rintro artifacts later ⟨same, before⟩
    apply leads_call
    · exact fun _ _ same => nomatch same
    · intro now m returned
      cases Except.ok.inj returned
      refine ⟨rfl, fun d found => ?_⟩
      have found := found.upTo (List.prefix_append _ _)
      obtain ⟨d', here, listed⟩ := found.upTo before ⟨.iterdir _, .ok names⟩ (by simp) rfl
      cases here
      rw [same artifacts rfl d found, sorted_names listed]
      rfl
  · exact fun _ _ _ _ same => nomatch same

theorem leads_manifestStep : (manifestStep (outDir s scenario) workflowId scenario).Leads
    (fun r later => ∀ m, r = .ok m → m.scenario = scenario ∧ ∀ d, Found s scenario d later →
      m.artifacts = artifactsOf d) h := by
  apply leads_call
  · exact fun _ _ same => nomatch same
  intro taskId
  apply leads_call
  · exact fun _ _ same => nomatch same
  intro (found : Bool)
  split
  · apply leads_bind leads_buildManifest
    · intro m later built
      apply leads_call
      · exact fun _ _ same => nomatch same
      · intro _ m' returned
        cases Except.ok.inj returned
        obtain ⟨named, files⟩ := built m rfl
        exact ⟨named, fun d found => files d (found.upTo (List.prefix_append _ _))⟩
    · exact fun _ _ _ _ same => nomatch same
  · apply leads_call
    · exact fun _ _ same => nomatch same
    intro _
    apply leads_call
    · exact fun _ _ same => nomatch same
    · exact fun _ _ same => nomatch same

/-- Asks for no approval. -/
def Quiet : Call → Prop
  | .session (.addApproval _) => False
  | _ => True

theorem quiet_allowed {c : Call} (quiet : Quiet c) : (cardProtocol s).allowed h c () := by
  rintro req rfl
  exact quiet.elim

theorem quiet_checkTools : (checkTools dir workflowId scenario).Within Quiet := by
  apply within_bind (within_call (by trivial))
  intro taskId
  apply within_bind (within_call (by trivial))
  rintro ⟨rc, out, err⟩
  apply within_ite
  · exact fun _ => within_bind (within_call (by trivial)) fun _ =>
      within_bind (within_call (by trivial)) fun _ => trivial
  · exact fun _ => within_call (by trivial)

theorem quiet_capture : (capture dir workflowId scenario).Within Quiet := by
  apply within_bind (within_call (by trivial))
  intro taskId
  apply within_bind (within_call (by trivial))
  rintro ⟨rc, out, err⟩
  apply within_ite
  · exact fun _ => within_bind (within_call (by trivial)) fun _ =>
      within_bind (within_call (by trivial)) fun _ => trivial
  · exact fun _ => within_call (by trivial)

theorem quiet_renderMp4 : (renderMp4 dir workflowId scenario).Within Quiet := by
  apply within_bind (within_call (by trivial))
  intro taskId
  apply within_bind (within_call (by trivial))
  rintro ⟨rc, out, err⟩
  exact within_ite (fun _ => within_call (by trivial)) fun _ => within_call (by trivial)

theorem quiet_readArtifacts (names : List String) : (readArtifacts dir names).Within Quiet := by
  induction names with
  | nil => trivial
  | cons name names ih =>
      apply within_bind (within_call (by trivial))
      intro file
      split
      · exact within_bind (within_call (by trivial)) fun _ => within_bind ih fun _ => trivial
      · exact ih

theorem quiet_manifestStep : (manifestStep dir workflowId scenario).Within Quiet := by
  apply within_bind (within_call (by trivial))
  intro taskId
  apply within_bind (within_call (by trivial))
  intro found
  split
  · refine within_bind ?_ fun m => within_bind (within_call (by trivial)) fun _ => trivial
    refine within_bind (within_call (by trivial)) fun names =>
      within_bind (quiet_readArtifacts _) fun artifacts => ?_
    exact within_bind (within_call (by trivial)) fun now => trivial
  · exact within_bind (within_call (by trivial)) fun _ =>
      within_bind (within_call (by trivial)) fun _ => trivial

/-- The manifest has been stored, of what was found before that. -/
def Stored (s : Settings) (m : Manifest) (h : History) : Prop :=
  ∃ (content : String) (id : Nat) (before after : History),
  h = before ++ ⟨.session (.addMemory "demo_forge_manifest" content m.json), .ok id⟩ :: after ∧
  ∀ d, Found s m.scenario d before → m.artifacts = artifactsOf d

theorem Stored.snoc (stored : Stored s m h) (x : Interaction calls) : Stored s m (h ++ [x]) := by
  obtain ⟨content, id, before, after, rfl, built⟩ := stored
  exact ⟨content, id, before, after ++ [x], by simp, built⟩

theorem Stored.append (stored : Stored s m h) (more : History) : Stored s m (h ++ more) := by
  induction more using List.reverseRecOn with
  | nil => rwa [List.append_nil]
  | append_singleton more x ih => rw [← List.append_assoc]; exact ih.snoc x

theorem Stored.backed {req : ApprovalRequest} {thread : String} (stored : Stored s m h)
    (shown : req.outputs = card m thread) (named : req.affected = m.artifacts.map Artifact.name) :
    Backed s h req := by
  obtain ⟨content, id, before, after, same, built⟩ := stored
  refine ⟨m, content, id, before, after, same, built, fun stored reordered =>
    ⟨_, recompute_reordered reordered, ?_⟩⟩
  exact {
    names := by rw [shown, List.map_map]; rfl
    affected := named
    totalBytes := by rw [shown]; rfl
    sha256 := by rw [shown]; rfl }

theorem cards_send {req : ApprovalRequest} {thread : String} (stored : Stored s m h)
    (shown : req.outputs = card m thread) (named : req.affected = m.artifacts.map Artifact.name) :
    (ApprovalGateway.send s req).Obeys (cardProtocol s) (fun _ h _ => Stored s m h) h () := by
  have within : (ApprovalGateway.send s req).Within fun c => c = Call.session (.addApproval req) ∨
      Quiet c := by
    apply ApprovalGateway.within_send
    · intro c delivery
      cases c with
      | session t => exact delivery.elim
      | _ => exact .inr trivial
    · exact .inl rfl
    · exact fun _ _ => .inr trivial
  refine within.obeys_since (F := Stored s m) (fun _ x _ stored => stored.snoc x) ?_ stored
  rintro h c _ stored (rfl | quiet)
  · rintro req' same
    cases same
    exact stored.backed shown named
  · exact quiet_allowed quiet

theorem cards_quiet {α : Type} {p : Async α} (within : p.Within Quiet) (stored : Stored s m h) :
    p.Obeys (cardProtocol s) (fun _ h _ => Stored s m h) h () :=
  within.obeys_since (F := Stored s m) (fun _ x _ stored => stored.snoc x)
    (fun _ _ _ _ => quiet_allowed) stored

theorem quiet_formatOutputs : (formatOutputsForApproval m dir).Within Quiet := by
  apply within_bind (within_call (by trivial))
  intro file
  split
  · exact within_bind (within_call (by trivial)) fun _ => trivial
  · trivial

theorem cards_approve (stored : Stored s m h) :
    (approve s dir workflowId scenario trigger m).Obeys (cardProtocol s)
    (fun _ h _ => Stored s m h) h () := by
  apply obeys_bind (cards_quiet (within_call (by trivial)) stored)
  · intro taskId h _ stored
    apply obeys_bind (quiet_formatOutputs.traced leads_formatOutputs fun _ _ _ => quiet_allowed)
    · rintro outputs _ _ ⟨shown, more, rfl, -⟩
      obtain ⟨thread, rfl⟩ := shown outputs rfl
      apply obeys_bind (cards_send (stored.append more) rfl rfl)
      · intro approvalId h _ stored
        exact cards_quiet (within_bind (within_call (by trivial)) fun _ => by trivial) stored
      · exact fun _ _ _ stored => stored
    · rintro _ _ _ ⟨-, more, rfl, -⟩
      exact stored.append more
  · exact fun _ _ _ stored => stored

theorem cards_record (named : m.scenario = scenario)
    (built : ∀ d, Found s scenario d h → m.artifacts = artifactsOf d) :
    (record s workflowId scenario trigger m).Obeys (cardProtocol s) (fun _ _ _ => True) h () := by
  subst named
  have stores : (session (.addMemory "demo_forge_manifest" (memoryContent m.scenario m)
    m.json)).Obeys (cardProtocol s)
      (fun r h _ => ∀ id, r = .ok id → Stored s m h) h () := by
    refine obeys_call (quiet_allowed trivial) fun reply _ _ id same => ?_
    subst same
    exact ⟨_, id, h, [], rfl, built⟩
  apply obeys_bind stores
  · intro id h _ stored
    apply obeys_bind (cards_approve (stored id rfl))
    · intro approvalId h _ stored
      exact (cards_quiet (within_bind (within_call (by trivial)) fun _ => by trivial) stored).mono
        fun _ _ _ _ => trivial
    · exact fun _ _ _ _ => trivial
  · exact fun _ _ _ _ => trivial

theorem cards_next {α β : Type} {p : Async α} {next : α → Async β} (within : p.Within Quiet)
    (rest : ∀ a h, (next a).Obeys (cardProtocol s) (fun _ _ _ => True) h ()) :
    (p >>= next).Obeys (cardProtocol s) (fun _ _ _ => True) h () :=
  obeys_bind (within.obeys (fun _ _ _ => quiet_allowed) h ())
    (fun a h _ _ => rest a h) fun _ _ _ _ => trivial

theorem cards_runSteps (skipRender : Bool) :
    (runSteps s workflowId scenario trigger skipRender).Obeys (cardProtocol s)
    (fun _ _ _ => True) h () := by
  have recorded (h : History) : (do
      let m ← manifestStep (outDir s scenario) workflowId scenario
      record s workflowId scenario trigger m).Obeys (cardProtocol s) (fun _ _ _ => True) h () := by
    apply obeys_bind (quiet_manifestStep.traced leads_manifestStep fun _ _ _ => quiet_allowed)
    · rintro m h _ ⟨built, -⟩
      obtain ⟨named, files⟩ := built m rfl
      exact cards_record named files
    · exact fun _ _ _ _ => trivial
  apply cards_next quiet_checkTools
  intro _ h
  apply cards_next quiet_capture
  intro _ h
  dsimp only
  split
  · exact recorded h
  · exact cards_next quiet_renderMp4 fun _ h => recorded h

theorem cards_runDemoForgeRequest (payload : Json) :
    (runDemoForgeRequest s payload).Obeys (cardProtocol s) (fun _ _ _ => True) [] () := by
  apply cards_next
  · cases payloadFields payload <;> trivial
  intro fields h
  dsimp only
  split
  · apply cards_next (within_call (by trivial))
    intro (makefile : Bool) h
    split
    · apply cards_next (within_bind (within_call (by trivial)) fun _ => by trivial)
      intro entry h
      apply cards_next (within_call (by trivial))
      exact fun workflowId h => cards_runSteps _
    · exact obeys_raise trivial
  · exact obeys_raise trivial

end

/-- The manifest of a directory has each of its files once, in order of name, however the directory
is listed. In any run of a request, an approval is asked for once such a manifest is stored, and
says what is recomputed from it. -/
theorem manifest_confirmed (s : Settings) (payload : Json) (dir scenario : String)
    (d : Directory) (names : List String) (now : Time) (listed : names.Perm d.keys) :
    ((buildManifest dir scenario).eval (answer dir d names now) () =
      (.ok ⟨scenario, now, dir, artifactsOf d⟩, ()) ∧
      Lists d (artifactsOf d)) ∧
    (runDemoForgeRequest s payload).Obeys (cardProtocol s) (fun _ _ _ => True) [] () :=
  ⟨⟨eval_buildManifest scenario listed, lists_artifactsOf d⟩, cards_runDemoForgeRequest payload⟩

/-- A directory with a recording, a thread and a folder, listed out of order. -/
theorem manifest_confirmed_folder :
    let d : Directory := ((∅ : Directory).insert "frames" .folder |>.insert "DEMO_001_x_thread.md"
      (.file [49])).insert "DEMO_001.cast" (.file [50, 51])
    let names := ["frames", "DEMO_001.cast", "DEMO_001_x_thread.md"]
    ((buildManifest "/demo" "001").eval (answer "/demo" d names 0) () =
      (.ok ⟨"001", 0, "/demo", artifactsOf d⟩, ()) ∧
      Lists d (artifactsOf d)) ∧
    (runDemoForgeRequest (Settings.defaults "/root") (.obj [("scenario", .str "001")])).Obeys
      (cardProtocol (Settings.defaults "/root")) (fun _ _ _ => True) [] () :=
  manifest_confirmed (Settings.defaults "/root") (.obj [("scenario", .str "001")])
    "/demo" "001" _ _ 0 (by decide)

end WiseOrder.DemoOutputs
