import WiseOrder.Approvals.Gateway
import WiseOrder.Foundation.Markdown

/-! The Telegram card as marked-up text. Its own markers are those of the headings and of
the risk level; everything else is a value, put in as it is. -/
namespace WiseOrder.ApprovalGateway
open Markdown

def titled (title text : String) : List Piece :=
  [.literal ['\n', '\n'], .bold title.toList, .literal ['\n'], .value text.toList]

/-- What the card is put together of. The bullets and line breaks among the paths are no markers. -/
def pieces (record : Record) : List Piece :=
  let eng := record.output "engineering_summary"
  let social := record.output "social_post"
  [.bold ("Approval #" ++ toString record.approvalId).toList, .literal " — ".toList,
    .code record.req.riskLevel.toList,
    .literal ['\n', '\n'], .value record.req.summary.toList] ++
  (if eng ≠ "" then titled "Engineering summary" (trim 1500 eng) else []) ++
  (if social ≠ "" then titled "Social draft" (trim 1000 social) else []) ++
  (if record.req.affected.isEmpty then [] else titled "Affected files" record.bullets)

def plainText (marked : List Marked) : List Char := marked.map Prod.fst

section
variable {record : Record}

theorem plainText_append (l m : List Marked) : plainText (l ++ m) = plainText l ++ plainText m :=
  List.map_append

theorem joined_lines (first : String) (lines : List String) :
    ("\n".intercalate (first :: lines)).toList = first.toList ++ lines.flatMap fun line =>
      '\n' :: line.toList := by
  induction lines generalizing first with
  | nil => simp
  | cons line lines ih =>
      rw [String.intercalate_cons_cons, String.toList_append, ih, List.flatMap_cons,
        String.toList_append, List.append_assoc]
      rfl

theorem plainText_titled (title text : String) : plainText (Markdown.text (titled title text)) =
    ["", "*" ++ title ++ "*", text].flatMap fun line => '\n' :: line.toList := by
  simp [Markdown.text, titled, Piece.marked, plainText, mark, Function.comp_def]

/-- The pieces make up the card. -/
theorem formatTelegram_pieces (record : Record) :
    plainText ((Markdown.text (pieces record)).take 4000) = (formatTelegram record).toList := by
  have append (l m : List Piece) : plainText (Markdown.text (l ++ m)) =
      plainText (Markdown.text l) ++ plainText (Markdown.text m) := by
    rw [Markdown.text, List.flatMap_append, plainText_append, Markdown.text, Markdown.text]
  have present (p : Prop) [Decidable p] (title text : String) : plainText
    (Markdown.text (if p then titled title text else [])) =
      (if p then ["", "*" ++ title ++ "*", text] else []).flatMap fun line =>
          '\n' :: line.toList := by
    split
    · exact plainText_titled title text
    · rfl
  have absent (p : Prop) [Decidable p] (title text : String) : plainText
    (Markdown.text (if p then [] else titled title text)) =
      (if p then [] else ["", "*" ++ title ++ "*", text]).flatMap fun line =>
          '\n' :: line.toList := by
    split
    · rfl
    · exact plainText_titled title text
  have head : plainText (Markdown.text [.bold ("Approval #" ++ toString record.approvalId).toList,
    .literal " — ".toList,
      .code record.req.riskLevel.toList, .literal ['\n', '\n'], .value record.req.summary.toList]) =
      ("*Approval #" ++ toString record.approvalId ++ "* — `" ++ record.req.riskLevel ++
        "`").toList ++
        ["", record.req.summary].flatMap fun line => '\n' :: line.toList := by
    simp [Markdown.text, Piece.marked, plainText, mark, Function.comp_def]
  rw [plainText, List.map_take, ← plainText, formatTelegram, Python.take, String.toList_ofList]
  congr 1
  simp only [List.cons_append, List.nil_append, List.append_assoc, joined_lines]
  simp only [pieces, append, head, present, absent, List.flatMap_cons, List.flatMap_append,
    List.append_assoc, List.flatMap_nil, List.nil_append]

theorem titled_sound (title text : String) (sound : '*' ∉ title.toList) :
    ∀ p ∈ titled title text, p.Sound := by
  have blank (s : List Char) (all : ∀ c ∈ s, c = '\n') : (Piece.literal s).Sound := by
    intro c member
    rw [all c member]
    decide
  simp only [titled, List.forall_mem_cons]
  exact ⟨blank _ (by simp), sound, blank _ (by simp), trivial, fun p member =>
    absurd member List.not_mem_nil⟩

theorem number_sound (n : Nat) : '*' ∉ ("Approval #" ++ toString n).toList := by
  rw [String.toList_append]
  intro member
  rcases List.mem_append.mp member with fixed | digit
  · exact absurd fixed (by decide)
  · rw [Nat.toString_eq_ofList_toDigits, String.toList_ofList] at digit
    exact absurd (Nat.isDigit_of_mem_toDigits (by decide) (by decide) digit) (by decide)

theorem pieces_sound (record : Record) : ∀ p ∈ pieces record, p.Sound := by
  have optional (p : Prop) [Decidable p] {l m : List Piece}
    (left : ∀ p ∈ l, p.Sound) (right : ∀ p ∈ m, p.Sound) :
      ∀ q ∈ (if p then l else m), q.Sound := by
    split
    · exact left
    · exact right
  have none : ∀ p ∈ ([] : List Piece), p.Sound := fun p member => absurd member List.not_mem_nil
  have dash : ∀ c ∈ " — ".toList, isMarker c = false ∧ c ≠ '\\' := by simp [isMarker]
  have blank : ∀ c ∈ ['\n', '\n'], isMarker c = false ∧ c ≠ '\\' := by simp [isMarker]
  have engineering : '*' ∉ "Engineering summary".toList := by decide
  have social : '*' ∉ "Social draft".toList := by decide
  have affected : '*' ∉ "Affected files".toList := by decide
  simp only [pieces, List.forall_mem_append, List.forall_mem_cons]
  exact ⟨⟨⟨⟨number_sound _, dash, trivial, blank, trivial, none⟩,
    optional _ (titled_sound _ _ engineering) none⟩,
    optional _ (titled_sound _ _ social) none⟩, optional _ none (titled_sound _ _ affected)⟩

/-- What goes on as a text may after a value. -/
def Follows (rest : List Piece) : Prop := nextMarker (Markdown.text rest) = false ∧ Spaced rest

theorem follows_titled (title text : String) {rest : List Piece} (follows : Follows rest) :
    Follows (titled title text ++ rest) :=
  ⟨rfl, trivial, trivial, trivial, follows⟩

theorem pieces_spaced (record : Record) : Spaced (pieces record) := by
  have optional (p : Prop) [Decidable p] {l m rest : List Piece} (left : Follows (l ++ rest))
    (right : Follows (m ++ rest)) :
      Follows ((if p then l else m) ++ rest) := by
    split
    · exact left
    · exact right
  have ended : Follows [] := ⟨rfl, trivial⟩
  have affected := optional record.req.affected.isEmpty (l :=
    []) ended (follows_titled "Affected files" record.bullets ended)
  have social := optional (record.output "social_post" ≠
    "") (follows_titled "Social draft" (trim 1000 (record.output "social_post")) affected)
    (m := []) affected
  have eng := optional (record.output "engineering_summary" ≠ "")
    (follows_titled "Engineering summary" (trim 1500 (record.output "engineering_summary")) social)
      (m := []) social
  rw [List.append_nil] at eng
  simp only [pieces, List.append_assoc]
  exact ⟨trivial, trivial, rfl, trivial, eng⟩

/-- The card that is sent, with its values marked, parses and has them inert exactly when every
value has its markers escaped, as far as it is among the first 4000 characters, the risk level has
no backtick, and neither a heading nor the risk level is cut there. -/
theorem telegram_parses (record : Record) :
    let shown := (Markdown.text (pieces record)).take 4000
    plainText shown = (formatTelegram record).toList ∧ (Parses shown ↔ Fits 4000 (pieces record)) :=
  ⟨formatTelegram_pieces record, parses_iff (pieces_sound record) (pieces_spaced record)⟩

/-- The request for a commit of a repository with an underscore in its name. -/
def underscored : Record :=
  ⟨1, 0, ⟨"Commit 4c1d in my_app: fix", .obj [], [], "low", some 1, some 1⟩⟩

/-- The underscore opens an entity that is left open. -/
theorem telegram_underscore : let shown := (Markdown.text (pieces underscored)).take 4000
    scan .plain shown = none ∧ ¬ Parses shown := by
  have refused : scan .plain ((Markdown.text (pieces underscored)).take 4000) = none := by decide
  refine ⟨refused, ?_⟩
  rw [Parses, refused]
  exact not_inert_none

end

end WiseOrder.ApprovalGateway
