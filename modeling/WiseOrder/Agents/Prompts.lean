import WiseOrder.Foundation.Substitution
import WiseOrder.Python

/-! The prompts: templates whose placeholders are replaced by texts of a commit, or of
its summary, one after the other. -/
namespace WiseOrder.Prompts
open Substitution

/-- The text that stands for a field: its name in two pairs of braces. -/
def placeholder (name : String) : List Char := '{' :: '{' :: (name.toList ++ ['}', '}'])

/-- `text.replace(old, new)`, where `old` is the placeholder of a name. -/
def replaced (text : List Char) (name value : String) : List Char :=
  replace (placeholder name) value.toList text

def isNameChar (c : Char) : Bool := c.isLower || c = '_'

/-- A character that no placeholder has. -/
def isBar (c : Char) : Bool := !(isNameChar c || c = '{' || c = '}')

/-- A line without an opening brace, at whose ends no placeholder can reach over. -/
def isClean (line : List Char) : Bool := line.all (· ≠ '{') && line.head?.any isBar &&
      line.getLast?.any isBar

/-- The fields of a template, by their names. -/
structure Fields (κ : Type) where
  name : κ → String
  named : ∀ k, (name k).toList.all isNameChar = true
  apart : ∀ k j, k ≠ j → ¬ placeholder (name j) <:+: placeholder (name k)

variable {κ : Type}

def Fields.placeholders (f : Fields κ) : Placeholders Char κ where
  key k := placeholder (f.name k)
  nonempty k := by simp [placeholder]
  apart := f.apart

theorem bar_outside (f : Fields κ) {c : Char} (bar : isBar c = true) (k : κ) :
    c ∉ f.placeholders.key k := by
  intro member
  have named := List.all_eq_true.mp (f.named k) c
  simp only [Fields.placeholders, placeholder, List.mem_cons,
    List.mem_append, List.not_mem_nil] at member
  simp only [isBar, Bool.not_eq_true', Bool.or_eq_false_iff, decide_eq_false_iff_not] at bar
  grind

def textOf (lines : List String) : List Char := lines.flatMap String.toList

/-- The characters of a line that is written out. -/
theorem clean_ofList {cs : List Char} (clean : isClean cs = true) :
    isClean (String.ofList cs).toList = true := by
  rwa [String.toList_ofList]

/-- Clean lines are a literal part of any template. -/
theorem literal_lines (f : Fields κ) {lines : List String} (some : lines ≠ [])
    (clean : ∀ line ∈ lines, isClean line.toList = true) :
    Literal f.placeholders (textOf lines) := by
  have each (line : String) (member : line ∈ lines) :
      '{' ∉ line.toList ∧ line.toList.head?.any isBar = true ∧ line.toList.getLast?.any isBar =
          true := by
    have := clean line member
    simp only [isClean, Bool.and_eq_true, List.all_eq_true, decide_eq_true_eq] at this
    exact ⟨fun brace => this.1.1 _ brace rfl, this.1.2, this.2⟩
  refine ⟨fun k within => ?_, ?_, ?_⟩
  · have brace : '{' ∈ textOf lines := within.subset (by simp [Fields.placeholders, placeholder])
    obtain ⟨line, member, there⟩ := List.mem_flatMap.mp brace
    exact (each line member).1 there
  · obtain ⟨line, rest, rfl⟩ := List.exists_cons_of_ne_nil some
    obtain ⟨y, first, bar⟩ := Option.any_eq_true _ _ |>.mp (each line List.mem_cons_self).2.1
    obtain ⟨more, same⟩ := List.head?_eq_some_iff.mp first
    exact ⟨y, more ++ textOf rest, by simp [textOf, same], bar_outside f bar⟩
  · obtain ⟨rest, line, rfl⟩ := List.eq_nil_or_concat lines |>.resolve_left some
    obtain ⟨z, last, bar⟩ := Option.any_eq_true _ _ |>.mp (each line (by simp)).2.2
    obtain ⟨more, same⟩ := List.getLast?_eq_some_iff.mp last
    exact ⟨textOf rest ++ more, z, by simp [textOf, same], bar_outside f bar⟩

/-! ### engineering_summary.md -/

inductive CommitField where
  | subject
  | author
  | sha
  | diff
  deriving DecidableEq

def CommitField.name : CommitField → String
  | .subject => "subject"
  | .author => "author"
  | .sha => "sha"
  | .diff => "diff"

/-- The fields of a commit, in the order of their replacement. -/
def commitFields : List CommitField := [.subject, .author, .sha, .diff]

def commit : Fields CommitField where
  name := CommitField.name
  named k := by cases k <;> decide +kernel
  apart k j := by cases k <;> cases j <;> decide +kernel

def engineeringHead : List String := [
  "You are the WiseOrder engineering summarizer.\n\n",
  "Read the git commit below and emit a strict JSON object with exactly these keys:\n\n",
  "- \"summary\": one or two short technical sentences. No marketing. No hype. Plain facts.\n",
  "- \"changed_files\": array of file paths from the diff.\n",
  "- \"changelog\": one-line changelog entry in imperative mood (e.g., \"Fix race condition in queue dequeue\").\n",
  "- \"risk_level\": one of \"low\", \"medium\", or \"high\". Reason from the change itself:\n",
  "    - low: docs, tests, comments, internal renames, small bug fixes scoped to one file\n",
  "    - medium: behavior change, new feature, multi-file refactor, dependency change\n",
  "    - high: security boundary, public API, data migration, deletion of code, infra/CI\n\n",
  "Rules:\n",
  "- Output ONLY the JSON object. No prose before or after. No code fences.\n",
  "- Do not invent files not in the diff.\n",
  "- Do not speculate about intent. Describe what changed.\n\n",
  "Commit subject: "]

theorem engineeringHead_clean : ∀ line ∈ engineeringHead, isClean line.toList = true := by
  simp only [engineeringHead, List.forall_mem_cons, List.not_mem_nil,
    false_implies, implies_true, and_true]
  refine ⟨?_, ?_, ?_, ?_, ?_, ?_, ?_, ?_, ?_, ?_, ?_, ?_, ?_, ?_⟩
    <;> exact clean_ofList (by decide +kernel)

def engineeringSummary : Template commit.placeholders where
  head := textOf engineeringHead
  slots := [
    (.subject, textOf ["\nAuthor: "]),
    (.author, textOf ["\nSHA: "]),
    (.sha, textOf ["\n\nDiff:\n```\n"]),
    (.diff, textOf ["\n```\n"])]
  head_literal := literal_lines commit (List.cons_ne_nil _ _) engineeringHead_clean
  slots_literal := by
    simp only [List.forall_mem_cons, List.not_mem_nil, false_implies, implies_true, and_true]
    refine ⟨?_, ?_, ?_, ?_⟩
      <;> exact literal_lines commit (List.cons_ne_nil _ _) (by decide +kernel)

/-- The prompt of `EngineeringSummarizer.summarize`. -/
def summaryPrompt (subject author sha diff : String) : List Char :=
  replaced (replaced (replaced (replaced engineeringSummary.text "subject" subject) "author" author)
    "sha" sha) "diff" diff

/-! ### social_post.md -/

inductive DraftField where
  | summary
  | changelog
  | riskLevel
  deriving DecidableEq

def DraftField.name : DraftField → String
  | .summary => "summary"
  | .changelog => "changelog"
  | .riskLevel => "risk_level"

/-- The fields of a summary, in the order of their replacement. -/
def draftFields : List DraftField := [.summary, .changelog, .riskLevel]

def draft : Fields DraftField where
  name := DraftField.name
  named k := by cases k <;> decide +kernel
  apart k j := by cases k <;> cases j <;> decide +kernel

def socialHead : List String := [
  "You are the WiseOrder social drafter.\n\n",
  "Write ONE short post (under 280 characters) about the change described below.\n\n",
  "Rules:\n",
  "- Artifact-focused. Describe what shipped or changed.\n",
  "- No motivational tone. No emojis. No hashtags unless they name a real tool or project.\n",
  "- No exaggerated claims (\"game-changer\", \"revolutionary\").\n",
  "- Plain technical voice.\n",
  "- One post only. No alternatives. No headers. No quotes around it.\n\n",
  "Engineering summary:\n"]

theorem socialHead_clean : ∀ line ∈ socialHead, isClean line.toList = true := by
  simp only [socialHead, List.forall_mem_cons, List.not_mem_nil,
    false_implies, implies_true, and_true]
  refine ⟨?_, ?_, ?_, ?_, ?_, ?_, ?_, ?_, ?_⟩ <;> exact clean_ofList (by decide +kernel)

def socialPost : Template draft.placeholders where
  head := textOf socialHead
  slots := [
    (.summary, textOf ["\n\nChangelog: "]),
    (.changelog, textOf ["\nRisk level: "]),
    (.riskLevel, textOf ["\n"])]
  head_literal := literal_lines draft (List.cons_ne_nil _ _) socialHead_clean
  slots_literal := by
    simp only [List.forall_mem_cons, List.not_mem_nil, false_implies, implies_true, and_true]
    refine ⟨?_, ?_, ?_⟩ <;> exact literal_lines draft (List.cons_ne_nil _ _) (by decide +kernel)

/-- The prompt of `SocialDrafter.draft`. -/
def draftPrompt (summary changelog riskLevel : String) : List Char :=
  replaced (replaced (replaced socialPost.text "summary" summary) "changelog" changelog)
    "risk_level" riskLevel

/-! ### Substitution -/

def commitValue (subject author sha diff : String) : CommitField → List Char
  | .subject => subject.toList
  | .author => author.toList
  | .sha => sha.toList
  | .diff => diff.toList

def draftValue (summary changelog riskLevel : String) : DraftField → List Char
  | .summary => summary.toList
  | .changelog => changelog.toList
  | .riskLevel => riskLevel.toList

variable {subject author sha diff summary changelog riskLevel : String}

theorem commit_replacements (text : List Char) :
    replaced (replaced (replaced (replaced text "subject" subject) "author" author) "sha" sha)
    "diff" diff =
      inOrder commit.placeholders (commitValue subject author sha diff) commitFields text := rfl

theorem summaryPrompt_inOrder : summaryPrompt subject author sha diff =
    inOrder commit.placeholders
    (commitValue subject author sha diff) commitFields engineeringSummary.text :=
  commit_replacements _

theorem draft_replacements (text : List Char) :
    replaced (replaced (replaced text "summary" summary) "changelog" changelog) "risk_level"
      riskLevel =
      inOrder draft.placeholders (draftValue summary changelog riskLevel) draftFields text := rfl

theorem draftPrompt_inOrder : draftPrompt summary changelog riskLevel =
    inOrder draft.placeholders
    (draftValue summary changelog riskLevel) draftFields socialPost.text :=
  draft_replacements _

theorem commit_plain_iff {value : CommitField → List Char} :
    Plain engineeringSummary commitFields value ↔ Closed commit.placeholders commitFields value :=
  plain_iff (by decide) (by simp [engineeringSummary, commitFields])

theorem draft_plain_iff {value : DraftField → List Char} :
    Plain socialPost draftFields value ↔ Closed draft.placeholders draftFields value :=
  plain_iff (by decide) (by simp [socialPost, draftFields])

/-- Each prompt is its template with the values put in at once, none of them expanded and in no
order of its own, exactly where no value has another's placeholder for which something else is put
in. -/
theorem prompts_plain (subject author sha diff summary changelog riskLevel : String) :
    (summaryPrompt subject author sha diff = engineeringSummary.fill
      (commitValue subject author sha diff) ∧
        Plain engineeringSummary commitFields (commitValue subject author sha diff) ↔
      Closed commit.placeholders commitFields (commitValue subject author sha diff)) ∧
    (draftPrompt summary changelog riskLevel =
      socialPost.fill (draftValue summary changelog riskLevel) ∧
        Plain socialPost draftFields (draftValue summary changelog riskLevel) ↔
      Closed draft.placeholders draftFields (draftValue summary changelog riskLevel)) := by
  constructor
  · rw [← commit_plain_iff, summaryPrompt_inOrder]
    exact ⟨And.right, fun plain => ⟨plain.anyOrder _ (List.Perm.refl _), plain⟩⟩
  · rw [← draft_plain_iff, draftPrompt_inOrder]
    exact ⟨And.right, fun plain => ⟨plain.anyOrder _ (List.Perm.refl _), plain⟩⟩

/-- A commit whose subject is the placeholder of the diff. -/
theorem subject_expanded : ¬ ∀ subject author sha diff,
    summaryPrompt subject author sha diff = engineeringSummary.fill
    (commitValue subject author sha diff) := by
  intro simultaneous
  have same := simultaneous (String.ofList (placeholder "diff")) "" "" "x"
  rw [summaryPrompt_inOrder, Template.text, inOrder_fill] at same
  have after := List.append_cancel_left same
  have first := congrArg List.head? after
  revert first
  decide +kernel

end WiseOrder.Prompts
