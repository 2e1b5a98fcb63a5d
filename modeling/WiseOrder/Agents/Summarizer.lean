import WiseOrder.Agents.Extraction
import WiseOrder.Agents.LlmCall
import WiseOrder.Agents.Prompts
import WiseOrder.Effects

/-! The engineering summarizer: the prompt of a commit, the call of the language model,
and a summary of whatever it answers. -/
namespace WiseOrder.Summarizer
open Coroutine LlmCall Extraction Json

/-- What the constructor reads from the settings. -/
structure EngineeringSummarizer where
  model : String
  timeout : Json.Float
  maxRetries : Int

def EngineeringSummarizer.request (self : EngineeringSummarizer) (prompt : List Char) :
    Request where
  model := self.model
  prompt := String.ofList prompt
  temperature := .decimal 2 (-1)
  maxTokens := 1024
  timeout := self.timeout

def riskLevels : List String := ["low", "medium", "high"]

/-- No character outside of ASCII is lowered to a letter of the three levels. -/
def normalizeRisk (v : Json) : String :=
  let level := Python.lower (Python.strip (Python.str v))
  if level ∈ riskLevels then level else "low"

def summarized (summary : Json) (changedFiles : List Json) (changelog riskLevel : Json) :
    EngineeringSummary where
  summary := Python.strip (Python.str summary)
  changedFiles := changedFiles.map Python.str
  changelog := Python.strip (Python.str changelog)
  riskLevel := normalizeRisk riskLevel

def summaryOfData (data : Json) : Except PyException EngineeringSummary := do
  let summary ← Python.get data "summary" (.str "")
  let changedFiles ← Python.iterate (← Python.get data "changed_files" (.arr []))
  let changelog ← Python.get data "changelog" (.str "")
  let riskLevel ← Python.get data "risk_level" (.str "low")
  return summarized summary changedFiles changelog riskLevel

/-- The summary of an answer. -/
def summaryOf (wording : Scanner.Failure → String) (limits : Scanner.Limits) (content : String) :
    Except PyException EngineeringSummary := do
  let data ← parseJson wording limits content.toList
  summaryOfData data

def summarize (clause : PyException → Clause) (wording : Scanner.Failure → String)
    (limits : Scanner.Limits) (self : EngineeringSummarizer) (subject author sha diff : String) :
    Program llm EngineeringSummary := do
  let content ← llmCall clause (self.request (Prompts.summaryPrompt subject author sha diff))
    self.maxRetries
  .ofExcept (summaryOf wording limits content)

theorem normalizeRisk_level (v : Json) : normalizeRisk v ∈ riskLevels := by
  dsimp only [normalizeRisk]
  split
  · assumption
  · decide

theorem summarized_level (summary : Json) (changedFiles : List Json) (changelog riskLevel : Json) :
    (summarized summary changedFiles changelog riskLevel).riskLevel ∈ riskLevels := by
  have level := normalizeRisk_level riskLevel
  simpa only [summarized] using level

/-! ### Answers that become a summary -/

/-- An object whose changed files, if it has any, can be gone through. -/
def Listed (data : Json) : Prop :=
  ∃ fields, data = .obj fields ∧ ∀ v, Json.lookup "changed_files" fields =
    some v → Python.isIterable v = true

/-- The text is no JSON, or that of an object whose changed files can be gone through. -/
def Convertible (limits : Scanner.Limits) (text : List Char) : Prop :=
  Scanner.decode limits text = .error .malformed ∨ ∃ data, Scanner.decode limits text = .ok data ∧
    Listed data

theorem iterate_ok {v : Json} (iterable : Python.isIterable v = true) :
    ∃ items, Python.iterate v = .ok items := by
  cases v with
  | arr _ | str _ | obj _ => exact ⟨_, rfl⟩
  | null | bool _ | int _ | float _ => cases iterable

theorem iterate_iterable {v : Json} {items : List Json} (gone : Python.iterate v = .ok items) :
    Python.isIterable v = true := by
  cases v with
  | arr _ | str _ | obj _ => rfl
  | null | bool _ | int _ | float _ => cases gone

theorem summaryOfData_obj (fields : List (String × Json)) :
    summaryOfData (.obj fields) =
    (Python.iterate ((Json.lookup "changed_files" fields).getD (.arr []))).map fun files =>
      summarized ((Json.lookup "summary" fields).getD (.str "")) files
      ((Json.lookup "changelog" fields).getD (.str ""))
        ((Json.lookup "risk_level" fields).getD (.str "low")) := by
  simp only [summaryOfData, Python.get, bind, Except.bind]
  cases Python.iterate ((Json.lookup "changed_files" fields).getD (.arr [])) <;> rfl

theorem summaryOfData_ok {data : Json} : (∃ summary, summaryOfData data = .ok summary ∧
      summary.riskLevel ∈ riskLevels) ↔ Listed data := by
  cases data with
  | obj fields =>
      rw [summaryOfData_obj]
      constructor
      · rintro ⟨summary, returned, -⟩
        refine ⟨fields, rfl, fun v present => ?_⟩
        rw [present, Option.getD_some] at returned
        cases gone : Python.iterate v with
        | error e =>
            rw [gone] at returned
            cases returned
        | ok items => exact iterate_iterable gone
      · rintro ⟨fields', same, listed⟩
        cases same
        have iterable : Python.isIterable ((Json.lookup "changed_files" fields).getD (.arr [])) =
            true := by
          cases present : Json.lookup "changed_files" fields with
          | none => rfl
          | some v => exact listed v present
        obtain ⟨items, gone⟩ := iterate_ok iterable
        rw [gone]
        exact ⟨_, rfl, summarized_level _ _ _ _⟩
  | _ => simp [summaryOfData, Python.get, bind, Except.bind, Listed]

variable {wording : Scanner.Failure → String} {limits : Scanner.Limits}

theorem listed_unparsed (text : List Char) : Listed (.obj (unparsed text)) :=
  ⟨_, rfl, fun v present => by
    cases Option.some.inj present
    rfl⟩

theorem summaryOf_ok {content : String} :
    (∃ summary, summaryOf wording limits content = .ok summary ∧ summary.riskLevel ∈ riskLevels) ↔
      Convertible limits (extract content.toList) := by
  unfold summaryOf parseJson Convertible
  cases read : Scanner.decode limits (extract content.toList) with
  | ok data => simpa [bind, Except.bind] using summaryOfData_ok
  | error e =>
      cases e with
      | malformed => simpa [bind, Except.bind] using summaryOfData_ok.mpr (listed_unparsed _)
      | digits | depth => simp [bind, Except.bind]

variable {W : Type} {clause : PyException → Clause} {answer : Answers llm W} {w w' : W}
    {self : EngineeringSummarizer}
  {subject author sha diff content : String}

/-- Once the language model has answered, a summary is returned exactly where its answer can be made
into one. -/
theorem summarize_returns
    (answered : (llmCall clause (self.request (Prompts.summaryPrompt subject author sha diff))
      self.maxRetries).eval answer w =
      (.ok content, w')) :
    (∃ summary : EngineeringSummary,
      (summarize clause wording limits self subject author sha diff).eval answer w =
    (.ok summary, w') ∧
      summary.riskLevel ∈ riskLevels) ↔ Convertible limits (extract content.toList) := by
  have whole : (summarize clause wording limits self subject author sha diff).eval answer w =
      (summaryOf wording limits content, w') := Program.eval_bind_ok answered
  rw [whole]
  simpa using summaryOf_ok

/-! ### An answer that is a list -/

def delivered : EngineeringSummarizer := ⟨"model", .decimal 60 0, 2⟩

/-- The provider's response that carries a text. -/
def response (text : String) : Json :=
  .obj [("choices", .arr [.obj [("message", .obj [("content", .str text)])]])]

/-- The first attempt is answered with a text. -/
theorem llm_answers {text : String} (stripped : Python.strip text = text)
    (r : Request) (maxRetries : Int) : (llmCall clause r maxRetries).eval (LlmCall.answer fun _ =>
      .ok (response text)) ⟨0, 0⟩ = (.ok text, ⟨1, 0⟩) := by
  have read : content (response text) = .ok (Python.strip text) := rfl
  rw [llmCall, eval_attempts]
  simp only [Except.bind, read, stripped]

/-- A number for a summary, no risk level, and a list of files one of which is a number. -/
def oddAnswer : String :=
  "\x7b\"summary\": 5, \"changed_files\": [\"a.py\", 3], \"risk_level\": null\x7d"

def oddFields : List (String × Json) :=
  [("summary", .int 5), ("changed_files", .arr [.str "a.py", .int 3]), ("risk_level", .null)]

theorem oddAnswer_reads : Scanner.decode interpreter (extract oddAnswer.toList) =
      .ok (.obj oddFields) :=
  rfl

theorem oddFields_listed : Listed (.obj oddFields) := by
  refine ⟨oddFields, rfl, fun v present => ?_⟩
  have files : v = .arr [.str "a.py", .int 3] := (Option.some.inj present).symm
  rw [files]
  rfl

theorem summarize_returns_plain : ∃ summary : EngineeringSummary,
    (summarize (fun _ => .none) (fun _ => "") interpreter delivered "" "" "" "").eval
      (LlmCall.answer fun _ => .ok (response oddAnswer)) ⟨0, 0⟩ = (.ok summary, ⟨1, 0⟩) ∧
      summary.riskLevel ∈ riskLevels :=
  (summarize_returns (llm_answers rfl _ _)).mpr (.inr ⟨.obj oddFields,
    oddAnswer_reads, oddFields_listed⟩)

theorem list_raises : ¬ ∀ (content : String) (w' : Meter),
    (llmCall (fun _ => .none) (delivered.request (Prompts.summaryPrompt "" "" "" ""))
      delivered.maxRetries).eval
      (LlmCall.answer fun _ => .ok (response content)) ⟨0, 0⟩ = (.ok content, w') →
    ∃ summary : EngineeringSummary,
    (summarize (fun _ => .none) (fun _ => "") interpreter delivered "" "" "" "").eval
      (LlmCall.answer fun _ => .ok (response content)) ⟨0, 0⟩ = (.ok summary, w') ∧
      summary.riskLevel ∈ riskLevels := by
  intro returns
  have answered : (llmCall (fun _ => .none) (delivered.request (Prompts.summaryPrompt "" "" "" ""))
    delivered.maxRetries).eval
      (LlmCall.answer fun _ => .ok (response "[]")) ⟨0, 0⟩ = (.ok "[]", ⟨1, 0⟩) :=
        llm_answers rfl _ _
  obtain ⟨summary, returned, -⟩ := returns "[]" ⟨1, 0⟩ answered
  have raises : summaryOf (fun _ => "") interpreter "[]" =
    .error (.attributeError "'list' object has no attribute 'get'") := rfl
  have whole : (summarize (fun _ => .none) (fun _ => "") interpreter delivered "" "" "" "").eval
      (LlmCall.answer fun _ => .ok (response "[]")) ⟨0, 0⟩ =
          (summaryOf (fun _ => "") interpreter "[]", ⟨1, 0⟩) :=
    Program.eval_bind_ok answered
  rw [whole, raises] at returned
  cases returned

end WiseOrder.Summarizer
