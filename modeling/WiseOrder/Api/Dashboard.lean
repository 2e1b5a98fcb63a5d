import WiseOrder.Api.Server
import WiseOrder.Approvals.RiskLevels
import WiseOrder.Foundation.Markup

/-! The dashboard. Its page puts what the API replies into templates, most of it escaped; a few
values are put in as they are, and they are numbers, states and risk levels. -/
namespace WiseOrder.Dashboard
open Markup Relational Api

/-- What the browser's language makes of the values that are no texts and no truth values. Its
numbers are floats. -/
structure Js where
  integer : Int → String
  string : Json → String
  zero : Json.Float → Bool
  stringify : Json → String
  indented : Json → String
  toFixed : Json → String
  integer_plain : ∀ n, ∀ c ∈ (integer n).toList, isSpecial c = false
  toFixed_plain : ∀ v, ∀ c ∈ (toFixed v).toList, isSpecial c = false

/-- `o.key`; what is missing is undefined. -/
def prop (o : Json) (key : String) : Option Json :=
  match o with
  | .obj fields => Json.lookup key fields
  | _ => none

def lit (s : String) : Piece := .literal s.toList

namespace Js
variable (js : Js)

/-- A value in a template. -/
def text : Option Json → String
  | none => "undefined"
  | some .null => "null"
  | some (.bool b) => if b then "true" else "false"
  | some (.int n) => js.integer n
  | some (.str s) => s
  | some v => js.string v

/-- `String(v ?? '')` -/
def present (v : Option Json) : String :=
  match v with
  | none | some .null => ""
  | v => js.text v

def truthy : Option Json → Bool
  | none | some .null => false
  | some (.bool b) => b
  | some (.int n) => n ≠ 0
  | some (.float x) => !js.zero x
  | some (.str s) => s ≠ ""
  | some (.arr _) | some (.obj _) => true

def esc (v : Option Json) : Piece := .escaped (js.present v).toList

def raw (v : Option Json) : Piece := .raw (js.text v).toList

/-- What a function makes of `o.key`, and `otherwise` of what is undefined. -/
def made (f : Json → String) (otherwise : String) (v : Option Json) : List Char :=
  ((v.map f).getD otherwise).toList

/-- The items of a list. What is neither a list nor falsy has no `slice` and no `join`: the page
then stays as it is. -/
def items : Option Json → List Json
  | some (.arr items) => items
  | _ => []

def joined (separator : String) (v : Option Json) : String :=
  separator.intercalate ((items v).map fun item => js.present (some item))

/-- `v || ''`, then escaped. -/
def escOr (v : Option Json) : Piece := js.esc (if js.truthy v then v else some (.str ""))

/-! ### Sections, in the order of the page -/

def stats (s : Json) : List Piece :=
  let counts (key : String) : Piece := .escaped (made js.indented "" (prop s key))
  [lit "\n    <div class=\"card\"><div class=\"k\">TASKS</div><pre>", counts "tasks",
    lit "</pre></div>\n    <div class=\"card\"><div class=\"k\">WORKFLOWS</div><pre>",
      counts "workflows",
    lit "</pre></div>\n    <div class=\"card\"><div class=\"k\">QUEUES</div><pre>", counts "queues",
    lit "</pre></div>\n    <div class=\"card\"><div class=\"k\">VECTOR MEMORY</div><div class=\"v\">",
    js.raw (prop s "vector_count"), lit " items</div></div>"]

def summary (sm : Json) : List Piece :=
  if js.truthy (prop sm "available") then
    [lit "\n    <div class=\"card\">\n      <div class=\"k\">", js.escOr (prop sm "date"),
      lit "</div>\n      <pre>", js.escOr (prop sm "summary"), lit "</pre>\n    </div>"]
  else
    [lit "<div class=\"card k\">no daily summary yet (will be generated at 09:00 UTC; or POST /summary/run-now to force)</div>"]

/-- One line of the integrity watcher's history. -/
def check (h : Json) : String :=
  String.ofList (((js.text (prop h "ts")).toList.drop 11).take 8) ++ " " ++
    js.text (prop h "status") ++ " count=" ++ js.text (prop h "count") ++
    (if js.truthy (prop h "note") then " note=" ++ js.text (prop h "note") else "")

def running : Option Json → Bool
  | some (.str status) => status == "running"
  | _ => false

def watchers (wsr : Json) : List Piece :=
  let iw := (prop wsr "integrity_watcher").getD (.obj [])
  let last := (Python.lastOnes 3 (items (prop iw "history"))).reverse
  let head := prop iw "last_known_head"
  if running (prop iw "status") then
    [lit "\n    <div class=\"card\">\n      <div class=\"k\">integrity_watcher · ",
      js.esc (prop iw "chain_dir"), lit " · poll ",
      js.esc (prop iw "interval_seconds"), lit "s</div>\n      <div>head: <span class=\"v\">",
      js.esc (if js.truthy head then head else some (.str "(none)")),
        lit "</span></div>\n      <pre>",
      .escaped ("\n".intercalate (last.map js.check)).toList, lit "</pre>\n    </div>"]
  else
    [lit "<div class=\"card k\">integrity_watcher not running</div>"]

def approvalCard (a : Json) : List Piece :=
  [lit "\n    <div class=\"card\">\n      <div><span class=\"risk-", js.raw (prop a "risk_level"),
    lit "\">[",
    .raw (js.text (prop a "risk_level")).toUpper.toList, lit "]</span> <b>#", js.raw (prop a "id"),
      lit "</b> — ",
    js.esc (prop a "summary"), lit "</div>\n      <pre>",
      .escaped (made js.indented "" (prop a "outputs")),
    lit "</pre>\n      <div class=\"k\">files: ",
      .escaped (js.joined ", " (prop a "affected")).toList,
    lit "</div>\n      <div style=\"margin-top:8px\">\n        <button onclick=\"decide(",
      js.raw (prop a "id"),
    lit ",'approved')\">approve</button>\n        <button onclick=\"decide(", js.raw (prop a "id"),
    lit ",'rejected')\">reject</button>\n      </div>\n    </div>"]

def approvals (ap : List Json) : List Piece :=
  if ap.isEmpty then [lit "<div class=\"card k\">none pending</div>"]
    else ap.flatMap js.approvalCard

def failedCard (f : Json) : List Piece :=
  [lit "\n    <div class=\"card\"><b>", js.esc (prop f "type"), lit "</b> id=",
    js.esc (prop f "id"), lit " attempt=",
    js.raw (prop f "attempt"), lit "\n      <pre>",
      .escaped (js.joined "\n" (prop f "notes")).toList, lit "</pre>\n    </div>"]

def failed (fl : List Json) : List Piece :=
  if fl.isEmpty then [lit "<div class=\"card k\">none</div>"] else fl.flatMap js.failedCard

def workflowCard (w : Json) : List Piece :=
  [lit "\n    <div class=\"card\"><b>#", js.raw (prop w "id"), lit "</b> ",
    js.esc (prop w "workflow_name"),
    lit " — <span class=\"s-", js.raw (prop w "status"), lit "\">", js.esc (prop w "status"),
      lit "</span> <span class=\"k\">",
    js.escOr (prop w "created_at"), lit "</span></div>"]

def taskCard (t : Json) : List Piece :=
  [lit "\n    <div class=\"card\"><b>#", js.raw (prop t "id"), lit "</b> ", js.esc (prop t "type"),
    lit " — <span class=\"s-", js.raw (prop t "status"), lit "\">", js.esc (prop t "status"),
      lit "</span> "] ++
  (if js.truthy (prop t "error") then [lit "<pre class=\"risk-high\">", js.esc (prop t "error"),
    lit "</pre>"] else []) ++
  [lit "</div>"]

def logCard (l : Json) : List Piece :=
  [lit "\n    <div class=\"card\"><span class=\"k\">", js.escOr (prop l "ts"), lit "</span> wf#",
    js.raw (prop l "workflow_id"), lit " <b>",
    js.esc (prop l "event"), lit "</b> <pre>", .escaped (made js.stringify "" (prop l "data")),
      lit "</pre></div>"]

def hitCard (x : Json) : List Piece :=
  [lit "\n    <div class=\"card\"><div class=\"k\">dist=",
    .raw (made js.toFixed "undefined" (prop x "distance")), lit "</div><pre>",
    js.esc (prop x "document"), lit "</pre></div>"]

end Js

/-! ### What is put in as it is -/

section
variable {js : Js}

theorem status_plain (status : Status) : ∀ c ∈ status.text.toList, isSpecial c = false := by
  cases status <;> simp [Status.text, isSpecial]

theorem level_plain {level : String} (known : level ∈ Summarizer.riskLevels) :
    (∀ c ∈ level.toList, isSpecial c = false) ∧ ∀ c ∈ level.toUpper.toList, isSpecial c =
      false := by
  simp only [Summarizer.riskLevels, List.mem_cons, List.not_mem_nil, or_false] at known
  rw [String.toUpper, String.toList_map]
  rcases known with rfl | rfl | rfl <;> simp [isSpecial]

theorem approvalCard_whole (row : Nat × Approval)
    (known : row.2.riskLevel ∈ Summarizer.riskLevels) :
    Whole (js.approvalCard (approvalDict row)) := by
  obtain ⟨level, upper⟩ := level_plain known
  have id := js.integer_plain row.1
  refine ⟨.double, rfl, by decide, level, .text, rfl, by decide, upper,
    .text, rfl, by decide, id, ?_⟩
  refine ⟨.text, rfl, by decide, .text, rfl, by decide, .text, rfl, by decide, ?_⟩
  exact ⟨.double, rfl, by decide, id, .double, rfl, by decide, id, .text, rfl, rfl⟩

theorem workflowCard_whole (row : Nat × Workflow) :
    Whole (js.workflowCard (.obj (wfFields row))) := by
  have id := js.integer_plain row.1
  refine ⟨.text, rfl, by decide, id, .text, rfl, by decide, ?_⟩
  exact ⟨.double, rfl, by decide, status_plain _, .text, rfl, by decide, .text, rfl, by decide,
    .text, rfl, rfl⟩

theorem taskCard_whole (row : Nat × Task) : Whole (js.taskCard (taskDict row)) := by
  have id := js.integer_plain row.1
  refine Placed.append (Placed.append (?_ : Placed _ _ .text) (?_ : Placed _ _ .text))
    ⟨.text, rfl, rfl⟩
  · refine ⟨.text, rfl, by decide, id, .text, rfl, by decide, ?_⟩
    exact ⟨.double, rfl, by decide, status_plain _, .text, rfl, by decide, .text, rfl, rfl⟩
  · split
    · exact ⟨.text, rfl, by decide, .text, rfl, rfl⟩
    · rfl

theorem logCard_whole (e : Nat × LogEntry) :
    Whole (js.logCard (.obj (("workflow_id", .int e.1) :: logFields e.2))) := by
  have id := js.integer_plain e.1
  refine ⟨.text, rfl, by decide, .text, rfl, by decide, id, .text, rfl, by decide, ?_⟩
  exact ⟨.text, rfl, by decide, .text, rfl, rfl⟩

theorem hitCard_whole (x : Json) : Whole (js.hitCard x) := by
  have distance : ∀ c ∈ Js.made js.toFixed "undefined" (prop x "distance"), isSpecial c =
      false := by
    cases prop x "distance" with
    | none => simp [Js.made, isSpecial]
    | some v => exact js.toFixed_plain v
  exact ⟨.text, rfl, by decide, distance, .text, rfl, by decide, .text, rfl, rfl⟩

theorem failedCard_whole (j : Job) (n : Int) (counted : j.attempt = .int n) :
    Whole (js.failedCard (jobDict j)) := by
  have attempt : js.text (prop (jobDict j) "attempt") = js.integer n := by
    rw [show prop (jobDict j) "attempt" = some j.attempt from rfl, counted]
    rfl
  refine ⟨.text, rfl, by decide, .text, rfl, by decide, .text, rfl, by decide, ?_⟩
  exact ⟨attempt ▸ js.integer_plain n, .text, rfl, by decide, .text, rfl, rfl⟩

theorem summary_whole (sm : Json) : Whole (js.summary sm) := by
  unfold Js.summary
  split
  · exact ⟨.text, rfl, by decide, .text, rfl, by decide, .text, rfl, rfl⟩
  · exact ⟨.text, by decide +kernel, rfl⟩

theorem watchers_whole (wsr : Json) : Whole (js.watchers wsr) := by
  unfold Js.watchers
  dsimp only
  split
  · refine ⟨.text, rfl, by decide, .text, rfl, by decide, .text, rfl, by decide, ?_⟩
    exact ⟨.text, rfl, by decide, .text, rfl, rfl⟩
  · exact ⟨.text, rfl, rfl⟩

theorem stats_whole (s : Json) (n : Nat)
    (counted : prop s "vector_count" = some (.int (Int.ofNat n))) : Whole (js.stats s) := by
  have vectors : js.text (prop s "vector_count") = js.integer (Int.ofNat n) := by rw [counted]; rfl
  refine ⟨.text, rfl, by decide, .text, rfl, by decide, .text, rfl, by decide, ?_⟩
  exact ⟨.text, rfl, by decide, vectors ▸ js.integer_plain _, .text, rfl, rfl⟩

theorem approvals_whole {rows : Rows Approval}
    (known : ∀ row ∈ rows, row.2.riskLevel ∈ Summarizer.riskLevels) :
    Whole (js.approvals (rows.map approvalDict)) := by
  unfold Js.approvals
  split
  · exact ⟨.text, rfl, rfl⟩
  · rw [List.flatMap_map]
    exact whole_flatMap fun row member => approvalCard_whole row (known row member)

theorem failed_whole {jobs : List Job} (counted : ∀ j ∈ jobs, ∃ n, j.attempt = .int n) :
    Whole (js.failed (jobs.map jobDict)) := by
  unfold Js.failed
  split
  · exact ⟨.text, rfl, rfl⟩
  · rw [List.flatMap_map]
    refine whole_flatMap fun j member => ?_
    obtain ⟨n, same⟩ := counted j member
    exact failedCard_whole j n same

/-! ### The page -/

/-- The tags are those of the template, and what is shown is its text with the values in it as they
are. -/
structure Faithful (ps : List Piece) : Prop where
  tags : tags .text (render ps) = tags .text (frame ps)
  closed : after .text (render ps) = .text
  shown : shown (words .text (render ps)) = content .text ps

theorem faithful_of_whole {ps : List Piece} (whole : Whole ps) : Faithful ps where
  tags := whole.tags.1
  closed := whole.tags.2
  shown := by
    have all := whole.shown []
    rwa [List.append_nil, show shown [] = [] from rfl, List.append_nil] at all

variable {s : Settings} {c c' : Pool} {trace : List RunEvent}

theorem pending_known (rated : Rated s c) {pending : Bool} {limit : Int} {rows : Rows Approval}
    (found : (Query.approvals pending limit).run c.world.db = .ok rows) :
    ∀ row ∈ rows, row.2.riskLevel ∈ Summarizer.riskLevels := by
  intro row member
  simp only [Query.run, Query.newest] at found
  split_ifs at found
  · cases found
    obtain ⟨e, there, rfl⟩ :=
      List.mem_map.mp (List.mem_of_mem_filter (List.mem_reverse.mp (List.mem_of_mem_take member)))
    exact rated.levels e there

/-- Whatever commits, models, demos and operators have put into the database, the page of the
dashboard has the tags of its templates and shows the values as they are. -/
theorem dashboard_faithful (js : Js) (fresh : Fresh c) (none : c.world.db.approvals = .empty)
    (run : Transition.Run (Transition.Guarded (Step s) Answering) c trace c') :
    (∀ pending limit rows, (Query.approvals pending limit).run c'.world.db = .ok rows →
      Faithful (js.approvals (rows.map approvalDict))) ∧
    (∀ rows : Rows Workflow,
      Faithful ((rows.map fun row => Json.obj (wfFields row)).flatMap js.workflowCard)) ∧
    (∀ rows : Rows Task, Faithful ((rows.map taskDict).flatMap js.taskCard)) ∧
    (∀ entries : List (Nat × LogEntry),
      Faithful ((entries.map fun e => Json.obj (("workflow_id", .int e.1) :: logFields e.2)).flatMap
      js.logCard)) ∧
    (∀ jobs : List Job, (∀ j ∈ jobs, (∃ n, j.attempt = .int n) ∧ ∃ notes, j.notes = .arr notes) →
      Faithful (js.failed (jobs.map jobDict))) ∧
    (∀ results : List Json, Faithful (results.flatMap js.hitCard)) ∧
    (∀ sm, Faithful (js.summary sm)) ∧ (∀ wsr, Faithful (js.watchers wsr)) ∧
    ∀ tasks workflows queues n, Faithful
    (js.stats (.obj [("tasks", tasks), ("workflows", workflows), ("queues", queues),
      ("vector_count", .int (Int.ofNat n))])) := by
  refine ⟨fun pending limit rows found => ?_, fun rows => ?_, fun rows => ?_,
    fun entries => ?_, fun jobs counted => ?_,
    fun results => ?_, fun sm => ?_, fun wsr => ?_, fun _ _ _ n => ?_⟩ <;> apply faithful_of_whole
  · exact approvals_whole (pending_known (run_rated fresh none run) found)
  · rw [List.flatMap_map]
    exact whole_flatMap fun row _ => workflowCard_whole row
  · rw [List.flatMap_map]
    exact whole_flatMap fun row _ => taskCard_whole row
  · rw [List.flatMap_map]
    exact whole_flatMap fun e _ => logCard_whole e
  · exact failed_whole fun j member => (counted j member).1
  · exact whole_flatMap fun x _ => hitCard_whole x
  · exact summary_whole sm
  · exact watchers_whole wsr
  · exact stats_whole _ n rfl

end

/-! ### A run -/

theorem number_plain (n : Int) : ∀ c ∈ (toString n).toList, isSpecial c = false := by
  have digits (n : Nat) : ∀ c ∈ (toString n).toList, isSpecial c = false := by
    intro c member
    rw [Nat.toString_eq_ofList_toDigits, String.toList_ofList] at member
    have digit := Nat.isDigit_of_mem_toDigits (by decide) (by decide) member
    have other (d : Char) (marks : d.isDigit = false) : c ≠ d := by
      rintro rfl
      rw [marks] at digit
      contradiction
    simp only [isSpecial, other '&' rfl, other '<' rfl, other '>' rfl, other '"' rfl,
      other '\'' rfl, decide_false, Bool.or_false]
  cases n with
  | ofNat n => exact digits n
  | negSucc n =>
      intro c member
      have signed : toString (Int.negSucc n) = "-" ++ toString (n + 1) := rfl
      rw [signed, String.toList_append] at member
      rcases List.mem_append.mp member with sign | digit
      · cases List.mem_singleton.mp sign
        rfl
      · exact digits (n + 1) c digit

def sampleJs : Js :=
  ⟨fun n => toString n, fun _ => "", fun _ => false, Json.dumps, Json.dumps, fun _ => "0.123",
    number_plain, by simp [isSpecial]⟩

def sampleAnswer : String :=
  "\x7b\"summary\": \"Fix the login form\", \"changed_files\": [\"auth.py\"], \"changelog\": \"Login works again\"\x7d"

theorem sampleAnswer_read : Summarizer.summaryOf (fun _ => "") Extraction.interpreter sampleAnswer =
      .ok sampleSummary := by rfl

theorem asked_sample {subject author sha diff : Json} {eng : EngineeringSummary}
    (member : (⟨.summarize subject author sha diff, .ok eng⟩ : Coroutine.Interaction calls) ∈
      askingScript) : eng = sampleSummary := by
  simp [askingScript, openingScript, attachScript, claimScript] at member
  obtain ⟨⟨rfl, rfl, rfl, rfl⟩, same⟩ := member
  exact Except.ok.inj (eq_of_heq same)

/-- A commit is summarised from an answer and asks for approval. -/
theorem dashboard_faithful_asked :
    ∃ trace c rows, Transition.Run
    (Transition.Guarded (Step (.defaults "/root")) Answering) Pool.initial trace c ∧
    (Query.approvals true 50).run c.world.db = .ok rows ∧ rows.length = 1 ∧ Faithful
    (sampleJs.approvals (rows.map approvalDict)) := by
  have opening : Coroutine.Plays (perform ⟨1, 1, .pipeline⟩)
    ((Entry.commitPipeline samplePayload).program (.defaults "/root"))
      World.initial (openingScript "4c1d" 0 1 1) _ _ :=
        (plays_attach rfl).trans (.call ⟨_, rfl, rfl⟩ (.stop _ _))
  obtain ⟨_, -, asked⟩ := run_entry (run_start (.defaults "/root") Answering Pool.initial)
    ⟨1, 1, .pipeline⟩ (.commitPipeline samplePayload) askingScript
    (opening.trans (.call rfl
      (.call ⟨_, rfl, rfl⟩ (.call ⟨rfl, rfl⟩ (.call ⟨_, rfl, rfl⟩ (.call ⟨_, rfl, rfl⟩ (.call rfl
        (.call ⟨_, rfl, rfl⟩ (.call ⟨rfl, rfl⟩ (.call ⟨_, rfl, rfl⟩ (.call ⟨_, rfl, rfl⟩
        (.call ⟨_, rfl, rfl⟩ (.call rfl (.call ⟨_, rfl, rfl⟩ (.call ⟨_, rfl, rfl⟩
        (.call ⟨_, rfl, rfl⟩ (.stop _ _)))))))))))))))))
    rfl rfl rfl (fun c' i subject author sha diff eng before same => by cases same)
        fun c x before c' member => by
      rintro i subject author sha diff eng before' same
      cases same
      rw [asked_sample member]
      exact ⟨_, _, _, sampleAnswer_read⟩
  exact ⟨_, _, _, asked, rfl, rfl,
    (dashboard_faithful sampleJs (fun _ => rfl) rfl asked).1 true 50 _ rfl⟩

end WiseOrder.Dashboard
