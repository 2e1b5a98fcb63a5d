import WiseOrder.Agents.Extraction
import WiseOrder.Foundation.Eval
import WiseOrder.Watchers.Records
import Mathlib.Data.List.Dedup
import Mathlib.Data.List.Sort
import Mathlib.Data.String.Basic

/-! One check of the CI watcher: the runs that `gh` lists for a repository, and what is
made of them. -/
namespace WiseOrder.CIWatcher
open Coroutine

/-- How `gh` ended, with what it wrote. -/
structure Completed where
  returncode : Int
  stdout : List UInt8
  stderr : List UInt8

inductive Call where
  | now
  | which (name : String)
  | spawn (argv : List String)
  | communicate (timeout : Nat)

def Call.Reply : Call → Type
  | .now => Time
  | .which _ => Option String
  | .spawn _ => Unit
  | .communicate _ => Completed

abbrev host : Signature := ⟨Call, Call.Reply, PyException⟩

/-! ### The verdict -/

/-- `r.get("conclusion") or ""`, as a text. -/
def conclusionText (conclusion : Json) : String :=
  if Python.truthy conclusion then Python.str conclusion else ""

def workflowRun (repo : String) (r : Json) : Except PyException WorkflowRun := do
  let name ← Python.get r "name" (.str "?")
  let status ← Python.get r "status" (.str "?")
  let conclusion ← Python.get r "conclusion" .null
  let headSha ← Python.get r "headSha" (.str "")
  let createdAt ← Python.get r "createdAt" (.str "")
  let url ← Python.get r "url" (.str "")
  return ⟨repo, Python.str name, Python.str status, conclusionText conclusion,
    Python.str headSha, Python.str createdAt,
    Python.str url⟩

/-- `seen.setdefault(key, set()).add(x)` -/
def addTo {κ α : Type} [DecidableEq κ] [DecidableEq α] (key : κ) (x : α) :
    List (κ × List α) → List (κ × List α)
  | [] => [(key, [x])]
  | (k, xs) :: rest => if k = key then (k, xs.insert x) :: rest else (k, xs) :: addTo key x rest

/-- The conclusions of the runs of each workflow on each commit. -/
def conclusionsSeen (runs : List WorkflowRun) : List ((String × String) × List String) :=
  runs.foldl (fun seen r =>
    if r.status ≠ "completed" ∨ r.conclusion = "" then seen
      else addTo (r.name, r.headSha) r.conclusion seen) []

def detectFlakyWorkflows (runs : List WorkflowRun) : List String :=
  let flaky := (conclusionsSeen runs).filter fun entry => "failure" ∈ entry.2 ∧ "success" ∈ entry.2
  (flaky.map fun entry => entry.1.1).dedup.mergeSort fun a b => decide (a ≤ b)

def isFailed (r : WorkflowRun) : Bool := r.status = "completed" && r.conclusion = "failure"

def isInFlight (r : WorkflowRun) : Bool := r.status = "queued" || r.status = "in_progress"

/-- The status and the note, by how many runs failed, workflows are flaky, and runs are in
flight. -/
def verdict (failed flaky inFlight : Nat) : String × String :=
  if failed ≠ 0 ∨ flaky ≠ 0 then ("WARN", toString failed ++ " failed run(s), " ++
    toString flaky ++ " flaky workflow(s)")
  else if inFlight ≠ 0 then ("OK", toString inFlight ++ " run(s) in flight")
  else ("OK", "all recent runs green")

def errorCheck (now : Time) (repo note : String) : CICheck :=
  ⟨Python.isoformat now, repo, "ERROR", note, [], [], []⟩

def runsCheck (now : Time) (repo : String) (runs : List WorkflowRun) : CICheck :=
  let failed := runs.filter isFailed
  let inFlight := runs.filter isInFlight
  let flaky := detectFlakyWorkflows runs
  let (status, note) := verdict failed.length flaky.length inFlight.length
  ⟨Python.isoformat now, repo, status, note, failed.take 5, inFlight.take 5, flaky⟩

variable (wording : Json.Scanner.Failure → String) (limits : Json.Scanner.Limits)

/-- The check of a `gh` that has exited. -/
def completedCheck (now : Time) (repo : String) (proc : Completed) : Except PyException CICheck :=
  if proc.returncode ≠ 0 then
    let errText := Python.strip (Python.decodeReplace proc.stderr)
    .ok (errorCheck now repo (
      if Python.isIn "auth" (Python.lower errText) then "gh not authenticated"
      else "gh rc=" ++ toString proc.returncode ++ ": " ++ Python.take 200 errText))
  else do
    let text ← Python.decode proc.stdout
    match Json.Scanner.decode limits text.toList with
    | .error .malformed => return errorCheck now repo ("json parse: " ++ wording .malformed)
    | .error e => .error (Extraction.raised wording e)
    | .ok runsData =>
        let runs ← (← Python.iterate runsData).mapM (workflowRun repo)
        return runsCheck now repo runs

def await (c : Call) : Program host c.Reply := @Program.call host c

/-- `gh run list`, and what it writes within half a minute. -/
def ghRunList (gh repo : String) : Program host Completed := do
  await (.spawn [gh, "run", "list", "--repo", repo, "--limit", "20", "--json",
    "name,status,conclusion,headSha,createdAt,url"])
  await (.communicate 30)

def timeoutError : ExceptionClass := .other "TimeoutError"

/-- What is made of the end of `gh`, or of the exception that the wait for it raised. -/
def ghCheck (now : Time) (repo : String) : Except PyException Completed → Except PyException CICheck
  | .ok proc => completedCheck wording limits now repo proc
  | .error e =>
      if e.kind = timeoutError then .ok (errorCheck now repo "gh run list timed out (30s)")
      else if e.isException then .ok (errorCheck now repo ("gh subprocess error: " ++ e.text))
      else .error e

def checkOne (repo : String) : Program host CICheck := do
  let now ← await .now
  match ← await (.which "gh") with
  | none => return errorCheck now repo "gh CLI not installed"
  | some gh =>
      (ghRunList gh repo).andThen fun result => .ofExcept (ghCheck wording limits now repo result)

/-! ### The surroundings -/

/-- What becomes of the `gh` of one check. -/
inductive Gh where
  | missing
  | fails (e : PyException)
  | hangs
  | exits (proc : Completed)

/-- Surroundings with a number of children that run. One that is waited for in vain goes on
running. -/
def answer (now : Time) (gh : Gh) : Answers host Nat
  | .now, children => (.ok now, children)
  | .which name, children => (.ok (match gh with
      | .missing => none
      | _ => some ("/usr/bin/" ++ name)), children)
  | .spawn _, children => match gh with
      | .fails e => (.error e, children)
      | _ => (.ok (), children + 1)
  | .communicate _, children => match gh with
      | .exits proc => (.ok proc, children - 1)
      | _ => (.error ⟨timeoutError, ""⟩, children)

variable {wording : Json.Scanner.Failure → String} {limits : Json.Scanner.Limits} {now : Time}
    {repo : String} {children : Nat}

theorem check_missing : (checkOne wording limits repo).eval (answer now .missing) children =
    (.ok (errorCheck now repo "gh CLI not installed"), children) := rfl

theorem check_fails (e : PyException) :
    (checkOne wording limits repo).eval (answer now (.fails e)) children =
    (ghCheck wording limits now repo (.error e), children) := rfl

theorem check_hangs : (checkOne wording limits repo).eval (answer now .hangs) children =
    (ghCheck wording limits now repo (.error ⟨timeoutError, ""⟩), children + 1) := rfl

theorem check_exits (proc : Completed) :
    (checkOne wording limits repo).eval (answer now (.exits proc)) children =
    (ghCheck wording limits now repo (.ok proc), children) := rfl

theorem ghCheck_late {e : PyException} (late : e.kind = timeoutError) :
    ghCheck wording limits now repo (.error e) = .ok
    (errorCheck now repo "gh run list timed out (30s)") := if_pos late

theorem ghCheck_caught {e : PyException} (caught : e.isException = true) :
    ∃ note, ghCheck wording limits now repo (.error e) = .ok (errorCheck now repo note) := by
  by_cases late : e.kind = timeoutError
  · exact ⟨_, ghCheck_late late⟩
  · exact ⟨_, (if_neg late).trans (if_pos caught)⟩

/-! ### Flaky workflows -/

section
variable {κ α : Type} [DecidableEq κ] [DecidableEq α] {key k : κ} {x y : α}
    {ys : List α} {seen : List (κ × List α)}

theorem addTo_keys : (addTo key x seen).map Prod.fst =
      if key ∈ seen.map Prod.fst then seen.map Prod.fst else seen.map Prod.fst ++ [key] := by
  induction seen with
  | nil => rfl
  | cons entry seen ih =>
      by_cases same : entry.1 = key
      · simp [addTo, same]
      · have other : key ≠ entry.1 := Ne.symm same
        simp only [addTo, same, if_false, List.map_cons, ih, List.mem_cons, other, false_or]
        split <;> rfl

theorem addTo_distinct (distinct : (seen.map Prod.fst).Nodup) :
    ((addTo key x seen).map Prod.fst).Nodup := by
  rw [addTo_keys]
  split
  · exact distinct
  · exact List.nodup_append.mpr ⟨distinct,
      List.nodup_singleton
      _, by simpa using fun k ys there same => ‹key ∉ _› (same ▸ List.mem_map.mpr ⟨_, there, rfl⟩)⟩

/-- The entry of the key holds the new element as well, and the others are as they were. -/
theorem mem_addTo (distinct : (seen.map Prod.fst).Nodup) (member : (k, ys) ∈ addTo key x seen) :
    k ≠ key ∧ (k, ys) ∈ seen ∨ k = key ∧ ∀ y, y ∈ ys ↔ y = x ∨ ∃ xs, (key, xs) ∈ seen ∧ y ∈ xs := by
  induction seen with
  | nil =>
      obtain ⟨rfl, rfl⟩ := Prod.mk.inj (List.mem_singleton.mp member)
      exact .inr ⟨rfl, by simp⟩
  | cons entry seen ih =>
      obtain ⟨k', xs⟩ := entry
      obtain ⟨fresh, distinct⟩ := List.nodup_cons.mp distinct
      have apart {zs} (there : (k', zs) ∈ seen) : False := fresh (List.mem_map.mpr ⟨_, there, rfl⟩)
      by_cases same : k' = key
      · subst k'
        simp only [addTo, if_true] at member
        rcases List.mem_cons.mp member with here | there
        · obtain ⟨rfl, rfl⟩ := Prod.mk.inj here
          refine .inr ⟨rfl, fun y => ?_⟩
          rw [List.mem_insert_iff]
          refine or_congr_right ⟨fun old => ⟨xs, List.mem_cons_self, old⟩, ?_⟩
          rintro ⟨zs, there, inside⟩
          rcases List.mem_cons.mp there with here | there
          · rwa [(Prod.mk.inj here).2] at inside
          · exact (apart there).elim
        · refine .inl ⟨?_, List.mem_cons_of_mem _ there⟩
          rintro rfl
          exact apart there
      · simp only [addTo, same, if_false] at member
        rcases List.mem_cons.mp member with here | there
        · obtain ⟨rfl, rfl⟩ := Prod.mk.inj here
          exact .inl ⟨same, List.mem_cons_self⟩
        · rcases ih distinct there with ⟨other, old⟩ | ⟨rfl, holds⟩
          · exact .inl ⟨other, List.mem_cons_of_mem _ old⟩
          · refine .inr ⟨rfl, fun y => (holds y).trans (or_congr_right ?_)⟩
            simp [Ne.symm same]

/-- What had an entry has one, and so has the key. -/
theorem addTo_grows (there : k ∈ seen.map Prod.fst ∨ k = key) :
    ∃ zs, (k, zs) ∈ addTo key x seen := by
  have keys : k ∈ (addTo key x seen).map Prod.fst := by
    rw [addTo_keys]
    rcases there with listed | rfl
    · split <;> simp [listed]
    · split <;> simp [*]
  obtain ⟨⟨k', zs⟩, member, rfl⟩ := List.mem_map.mp keys
  exact ⟨zs, member⟩

end

/-- The workflow has a completed run on the commit with this conclusion. -/
def Concluded (runs : List WorkflowRun) (key : String × String) (conclusion : String) : Prop :=
  ∃ r ∈ runs, r.status = "completed" ∧ r.conclusion = conclusion ∧ (r.name, r.headSha) = key

/-- There is one entry for each workflow and commit, with the conclusions of the runs. -/
structure Tallies (runs : List WorkflowRun) (seen : List ((String × String) × List String)) :
    Prop where
  distinct : (seen.map Prod.fst).Nodup
  exact : ∀ key conclusions, (key, conclusions) ∈ seen → ∀ x, x ∈ conclusions ↔
    x ≠ "" ∧ Concluded runs key x
  complete : ∀ key x, x ≠ "" → Concluded runs key x → ∃ conclusions, (key, conclusions) ∈ seen

theorem concluded_snoc {runs : List WorkflowRun} {r : WorkflowRun} {key : String × String}
    {x : String} : Concluded (runs ++ [r]) key x ↔ Concluded runs key x ∨ r.status = "completed" ∧
    r.conclusion = x ∧ (r.name, r.headSha) = key := by
  simp [Concluded, List.mem_append, or_and_right, exists_or]

theorem tallies (runs : List WorkflowRun) : Tallies runs (conclusionsSeen runs) := by
  induction runs using List.reverseRecOn with
  | nil =>
      exact ⟨List.nodup_nil, fun _ _ member => (nomatch member), fun _ _ _ ⟨_, member, _⟩ =>
        (nomatch member)⟩
  | append_singleton runs r ih =>
      rw [conclusionsSeen, List.foldl_append]
      simp only [List.foldl_cons, List.foldl_nil]
      split
      · rename_i skipped
        have same {key x} (given : x ≠ "") : Concluded (runs ++ [r]) key x ↔
            Concluded runs key x := by
          rw [concluded_snoc, or_iff_left]
          rintro ⟨completed, rfl, -⟩
          exact skipped.elim (absurd completed) given
        exact ⟨ih.distinct, fun key cs there x =>
          (ih.exact key cs there x).trans (and_congr_right fun given => (same given).symm),
          fun key x given concluded => ih.complete key x given ((same given).mp concluded)⟩
      · rename_i counted
        obtain ⟨completed, given⟩ := not_or.mp counted
        rw [not_not] at completed
        refine ⟨addTo_distinct ih.distinct, fun key cs there x => ?_,
          fun key x present concluded => ?_⟩
        · rw [concluded_snoc]
          rcases mem_addTo ih.distinct there with ⟨other, old⟩ | ⟨rfl, holds⟩
          · rw [ih.exact key cs old x, or_iff_left fun ⟨_, _, here⟩ => other here.symm]
          · rw [holds x]
            constructor
            · rintro (rfl | ⟨ys, old, inside⟩)
              · exact ⟨given, .inr ⟨completed, rfl, rfl⟩⟩
              · obtain ⟨present, concluded⟩ := (ih.exact _ ys old x).mp inside
                exact ⟨present, .inl concluded⟩
            · rintro ⟨present, concluded | ⟨-, rfl, -⟩⟩
              · obtain ⟨ys, old⟩ := ih.complete _ x present concluded
                exact .inr ⟨ys, old, (ih.exact _ ys old x).mpr ⟨present, concluded⟩⟩
              · exact .inl rfl
        · rcases concluded_snoc.mp concluded with before | ⟨-, -, rfl⟩
          · obtain ⟨ys, old⟩ := ih.complete key x present before
            exact addTo_grows (.inl (List.mem_map_of_mem old))
          · exact addTo_grows (.inr rfl)

/-- On one commit the workflow has failed, and has succeeded. -/
def Flaky (runs : List WorkflowRun) (name : String) : Prop :=
  ∃ sha, Concluded runs (name, sha) "failure" ∧ Concluded runs (name, sha) "success"

theorem mem_flaky {runs : List WorkflowRun} {name : String} :
    name ∈ detectFlakyWorkflows runs ↔ Flaky runs name := by
  have seen := tallies runs
  simp only [detectFlakyWorkflows, List.mem_mergeSort, List.mem_dedup, List.mem_map,
    List.mem_filter, decide_eq_true_eq]
  constructor
  · rintro ⟨⟨⟨n, sha⟩, cs⟩, ⟨there, failure, success⟩, rfl⟩
    exact ⟨sha, ((seen.exact _ cs there _).mp failure).2, ((seen.exact _ cs there _).mp success).2⟩
  · rintro ⟨sha, failure, success⟩
    obtain ⟨cs, there⟩ := seen.complete _ _ (by decide) failure
    exact ⟨((name, sha), cs), ⟨there, (seen.exact _ cs there _).mpr ⟨by decide, failure⟩,
      (seen.exact _ cs there _).mpr ⟨by decide, success⟩⟩, rfl⟩

/-- The list is sorted, and names a workflow once. -/
theorem flaky_sorted (runs : List WorkflowRun) : (detectFlakyWorkflows runs).Pairwise (· < ·) := by
  have nodup : (detectFlakyWorkflows runs).Nodup :=
    (List.mergeSort_perm _ _).nodup_iff.mpr (List.nodup_dedup _)
  have sorted : (detectFlakyWorkflows runs).Pairwise (· ≤ ·) := List.pairwise_mergeSort' _ _
  exact (sorted.and nodup).imp fun ⟨le, ne⟩ => lt_of_le_of_ne le ne

/-- The workflows that are found flaky are exactly those that are, sorted and named once; the order
of the runs does not matter, and more runs find no fewer. -/
theorem flaky_exact (runs : List WorkflowRun) :
    (∀ name, name ∈ detectFlakyWorkflows runs ↔ Flaky runs name) ∧
    (detectFlakyWorkflows runs).Pairwise (· < ·) ∧
    (∀ runs', runs.Perm runs' → detectFlakyWorkflows runs' = detectFlakyWorkflows runs) ∧
    ∀ runs', runs ⊆ runs' → detectFlakyWorkflows runs ⊆ detectFlakyWorkflows runs' := by
  have grows {runs runs' : List WorkflowRun} (more : runs ⊆ runs') : detectFlakyWorkflows
      runs ⊆ detectFlakyWorkflows runs' := by
    intro name member
    obtain ⟨sha, ⟨r, there, failure⟩, r', there', success⟩ := mem_flaky.mp member
    exact mem_flaky.mpr ⟨sha, ⟨r, more there, failure⟩, r', more there', success⟩
  refine ⟨fun name => mem_flaky, flaky_sorted runs, fun runs' perm => ?_, fun runs' => grows⟩
  refine List.Perm.eq_of_pairwise (fun a b _ _ less more => absurd more (lt_asymm less))
    (flaky_sorted runs') (flaky_sorted runs) ?_
  exact (List.perm_ext_iff_of_nodup (flaky_sorted runs').nodup (flaky_sorted runs).nodup).mpr
      fun name =>
    ⟨fun there => grows perm.symm.subset there, fun there => grows perm.subset there⟩

/-- Where a workflow is flaky, a run has failed. -/
theorem flaky_failed {runs : List WorkflowRun} (flaky : detectFlakyWorkflows runs ≠ []) :
    ∃ r ∈ runs, isFailed r = true := by
  obtain ⟨name, member⟩ := List.exists_mem_of_ne_nil _ flaky
  obtain ⟨sha, ⟨r, there, completed, failed, -⟩, -⟩ := mem_flaky.mp member
  exact ⟨r, there, by simp [isFailed, completed, failed]⟩

/-! ### The green light -/

theorem verdict_green {failed flaky inFlight : Nat}
    (green : (verdict failed flaky inFlight).2 = "all recent runs green")
    (ok : (verdict failed flaky inFlight).1 = "OK") : failed = 0 ∧ flaky = 0 ∧ inFlight = 0 := by
  unfold verdict at green ok
  split at ok
  · simp at ok
  · rename_i quiet
    rw [if_neg quiet] at green
    split at green
    · have last := congrArg (fun s => s.toList.getLast?) green
      simp at last
    · omega

/-- `gh` wrote a list of objects. -/
def Lists (limits : Json.Scanner.Limits) (stdout : List UInt8)
    (rows : List (List (String × Json))) : Prop :=
  ∃ text, Python.decode stdout = .ok text ∧ Json.Scanner.decode limits text.toList =
    .ok (.arr (rows.map .obj))

def field (row : List (String × Json)) (key : String) (default : Json) : Json :=
  (Json.lookup key row).getD default

/-- The run of an object. -/
def runOf (repo : String) (row : List (String × Json)) : WorkflowRun where
  repo := repo
  name := Python.str (field row "name" (.str "?"))
  status := Python.str (field row "status" (.str "?"))
  conclusion := conclusionText (field row "conclusion" .null)
  headSha := Python.str (field row "headSha" (.str ""))
  createdAt := Python.str (field row "createdAt" (.str ""))
  url := Python.str (field row "url" (.str ""))

theorem workflowRun_obj (row : List (String × Json)) :
    workflowRun repo (.obj row) = .ok (runOf repo row) := rfl

theorem workflowRuns (rows : List (List (String × Json))) :
    (rows.map Json.obj).mapM (workflowRun repo) = .ok (rows.map (runOf repo)) := by
  induction rows with
  | nil => rfl
  | cons row rows ih =>
      rw [List.map_cons, List.mapM_cons, ih, workflowRun_obj]
      rfl

theorem completed_lists {stdout stderr : List UInt8} {rows : List (List (String × Json))}
    (lists : Lists limits stdout rows) : completedCheck wording limits now repo
      ⟨0, stdout, stderr⟩ = .ok (runsCheck now repo (rows.map (runOf repo))) := by
  obtain ⟨text, decoded, read⟩ := lists
  have iterated : Python.iterate (.arr (rows.map Json.obj)) = .ok (rows.map Json.obj) := rfl
  simp only [completedCheck, decoded, read, iterated, workflowRuns, bind, Except.bind]
  rfl

theorem check_lists {stdout stderr : List UInt8} {rows : List (List (String × Json))}
    (lists : Lists limits stdout rows) :
    (checkOne wording limits repo).eval (answer now (.exits ⟨0, stdout, stderr⟩)) children =
      (.ok (runsCheck now repo (rows.map (runOf repo))), children) := by
  rw [check_exits, ghCheck, completed_lists lists]

/-- A run that is done and did not go wrong. -/
def Good (r : WorkflowRun) : Prop := r.status = "completed" ∧
    (r.conclusion = "success" ∨ r.conclusion = "skipped" ∨ r.conclusion = "neutral")

/-- The check gives the green light. -/
def Green (check : CICheck) : Prop := check.status = "OK" ∧ check.note = "all recent runs green"

theorem green_iff {runs : List WorkflowRun} : Green (runsCheck now repo runs) ↔
    ∀ r ∈ runs, isFailed r = false ∧ isInFlight r = false := by
  constructor
  · rintro ⟨ok, green⟩
    obtain ⟨failed, -, inFlight⟩ := verdict_green green ok
    rw [List.length_eq_zero_iff, List.filter_eq_nil_iff] at failed inFlight
    exact fun r member => ⟨by simpa using failed r member, by simpa using inFlight r member⟩
  · intro quiet
    have failed : runs.filter isFailed = [] :=
      List.filter_eq_nil_iff.mpr fun r member => by simp [(quiet r member).1]
    have inFlight : runs.filter isInFlight = [] :=
      List.filter_eq_nil_iff.mpr fun r member => by simp [(quiet r member).2]
    have flaky : detectFlakyWorkflows runs = [] := by
      by_contra some
      obtain ⟨r, member, failed⟩ := flaky_failed some
      simp [(quiet r member).1] at failed
    constructor <;> simp [runsCheck, failed, inFlight, flaky, verdict]

/-- The green light is sound exactly where something failed or runs, so that it is not given, or
where all is well. -/
theorem green_sound {stdout : List UInt8} {rows : List (List (String × Json))}
    (lists : Lists limits stdout rows) (stderr : List UInt8) :
    (∀ check, ((checkOne wording limits repo).eval (answer now (.exits ⟨0, stdout, stderr⟩))
      children).1 = .ok check → Green check →
      rows ≠ [] ∧ ∀ row ∈ rows, Good (runOf repo row)) ↔
    (∃ row ∈ rows, isFailed (runOf repo row) = true) ∨
    (∃ row ∈ rows, isInFlight (runOf repo row) = true) ∨
      rows ≠ [] ∧ ∀ row ∈ rows, Good (runOf repo row) := by
  rw [check_lists lists]
  constructor
  · intro sound
    by_cases failed : ∃ row ∈ rows, isFailed (runOf repo row) = true
    · exact .inl failed
    · by_cases inFlight : ∃ row ∈ rows, isInFlight (runOf repo row) = true
      · exact .inr (.inl inFlight)
      · refine .inr (.inr (sound _ rfl (green_iff.mpr fun r member => ?_)))
        obtain ⟨row, there, rfl⟩ := List.mem_map.mp member
        constructor
        · simpa using fun f => failed ⟨row, there, f⟩
        · simpa using fun f => inFlight ⟨row, there, f⟩
  · rintro condition check returned green
    obtain rfl := Except.ok.inj returned
    have quiet := green_iff.mp green
    rcases condition with ⟨row, member, failed⟩ | ⟨row, member, inFlight⟩ | well
    · simp [(quiet _ (List.mem_map_of_mem member)).1] at failed
    · simp [(quiet _ (List.mem_map_of_mem member)).2] at inFlight
    · exact well

def quote (cs : List Char) : List Char := '"' :: cs ++ ['"']

/-- What `gh` writes of one completed run. -/
def listing (conclusion : List Char) : List UInt8 :=
  (['[', '{'] ++ quote ['s', 't', 'a', 't', 'u', 's'] ++ [':'] ++ quote ['c', 'o', 'm', 'p', 'l',
    'e', 't', 'e', 'd'] ++ [','] ++
    quote ['c', 'o', 'n', 'c', 'l', 'u', 's', 'i', 'o', 'n'] ++ [':'] ++ quote conclusion ++
      ['}', ']']).map fun c => UInt8.ofNat c.toNat

def success : List Char := ['s', 'u', 'c', 'c', 'e', 's', 's']

def timedOut : List Char := ['t', 'i', 'm', 'e', 'd', '_', 'o', 'u', 't']

def succeeded : List (String × Json) :=
  [("status", .str "completed"), ("conclusion", .str "success")]

def late : List (String × Json) := [("status", .str "completed"), ("conclusion", .str "timed_out")]

theorem green_sound_success : ∃ check,
    ((checkOne (fun _ => "") Extraction.interpreter "owner/repo").eval
      (answer 0 (.exits ⟨0, listing success, []⟩)) 0).1 = .ok check ∧
      Green check ∧ [succeeded] ≠ [] ∧ ∀ row ∈ [succeeded], Good (runOf "owner/repo" row) := by
  have lists : Lists Extraction.interpreter (listing success) [succeeded] := ⟨_, rfl, rfl⟩
  have good : Good (runOf "owner/repo" succeeded) := by
    simp [Good, runOf, succeeded, field, Json.lookup, Python.str, conclusionText, Python.truthy]
  have green : Green (runsCheck 0 "owner/repo" [runOf "owner/repo" succeeded]) := by
    refine green_iff.mpr fun r member => ?_
    obtain rfl := List.mem_singleton.mp member
    constructor <;> simp [isFailed, isInFlight, runOf, succeeded, field, Json.lookup, Python.str,
      conclusionText, Python.truthy]
  have checked : ((checkOne (fun _ => "") Extraction.interpreter "owner/repo").eval
    (answer 0 (.exits ⟨0, listing success, []⟩)) 0).1 =
      .ok (runsCheck 0 "owner/repo" [runOf "owner/repo" succeeded]) :=
        congrArg Prod.fst (check_lists lists)
  exact ⟨_, checked, green, (green_sound lists []).mpr (.inr (.inr ⟨by simp, by simpa using good⟩))
    _ checked green⟩

/-- A run that timed out is taken for green. -/
theorem timed_out_green : ¬ ∀ (stdout : List UInt8) rows, Lists Extraction.interpreter stdout rows →
    ∀ check, ((checkOne (fun _ => "") Extraction.interpreter "owner/repo").eval
      (answer 0 (.exits ⟨0, stdout, []⟩)) 0).1 = .ok check →
      Green check → rows ≠ [] ∧ ∀ row ∈ rows, Good (runOf "owner/repo" row) := by
  intro sound
  have lists : Lists Extraction.interpreter (listing timedOut) [late] := ⟨_, rfl, rfl⟩
  have green : Green (runsCheck 0 "owner/repo" [runOf "owner/repo" late]) := by
    refine green_iff.mpr fun r member => ?_
    obtain rfl := List.mem_singleton.mp member
    constructor <;> simp [isFailed, isInFlight, runOf, late, field, Json.lookup, Python.str,
      conclusionText, Python.truthy]
  obtain ⟨-, well⟩ := sound _ _ lists _ (congrArg Prod.fst (check_lists lists)) green
  obtain ⟨-, good⟩ := well late List.mem_cons_self
  simp [runOf, late, field, Json.lookup, Python.str, conclusionText, Python.truthy] at good

end WiseOrder.CIWatcher
