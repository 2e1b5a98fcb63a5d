import WiseOrder.Foundation.PollLoop
import WiseOrder.Watchers.Integrity

/-! One verification of the integrity watcher. The verifier belongs to the protocol
checkout: its import, its verdict and the objects in that are whatever the
checkout makes of them. -/
namespace WiseOrder.IntegrityWatcher
variable {Object : Type}

/-- What may be done with an object that the verifier hands out. -/
structure Operations (Object : Type) where
  isNone : Object → Bool
  str : Object → Except PyException String
  int : Object → Except PyException Int
  truth : Object → Except PyException Bool
  ne : Option Object → Option Object → Except PyException Bool

/-- What `verify_chain` returns: reading an attribute may raise. -/
structure Verdict (Object : Type) where
  status : Except PyException Object
  count : Except PyException Object
  head : Except PyException Object
  reason : Except PyException Object

inductive Import where
  | imported
  | importError (text : String)
  | raised (e : PyException)

/-- The protocol checkout as one check finds it. -/
structure Checkout (Object : Type) where
  now : Time
  isDir : Except PyException Bool
  imports : Import
  verifyChain : Except PyException (Verdict Object)

def className : ExceptionClass → String
  | .valueError => "ValueError"
  | .keyError => "KeyError"
  | .typeError => "TypeError"
  | .attributeError => "AttributeError"
  | .runtimeError => "RuntimeError"
  | .fileNotFoundError => "FileNotFoundError"
  | .calledProcessError => "CalledProcessError"
  | .unicodeDecodeError => "UnicodeDecodeError"
  | .jsonDecodeError => "JSONDecodeError"
  | .noResultFound => "NoResultFound"
  | .cancelledError => "CancelledError"
  | .systemExit => "SystemExit"
  | .keyboardInterrupt => "KeyboardInterrupt"
  | .other name => name

def errorCheck (chainDir : String) (now : Time) (note : String) : IntegrityCheck Object :=
  ⟨Python.isoformat now, "ERROR", 0, none, chainDir, note⟩

variable (op : Operations Object)

/-- `str(o or "")` -/
def strOrEmpty (o : Object) : Except PyException String := do
  let given ← op.truth o
  if given then op.str o else return ""

/-- The check of a verdict: its fields are converted outside of any `try`. -/
def verdictCheck (chainDir : String) (now : Time) (verdict : Verdict Object) :
    Except PyException (IntegrityCheck Object) := do
  let status ← verdict.status >>= op.str
  let count ← verdict.count >>= op.int
  let head ← verdict.head
  let note ← verdict.reason >>= strOrEmpty op
  return ⟨Python.isoformat now, status, count, if op.isNone head then none
    else some head, chainDir, note⟩

def verifyOnce (chainDir : String) (checkout : Checkout Object) :
    Except PyException (IntegrityCheck Object) :=
  match checkout.isDir with
  | .error e => .error e
  | .ok false => .ok (errorCheck chainDir checkout.now ("chain directory not found: " ++ chainDir))
  | .ok true =>
      match checkout.imports with
      | .raised e => .error e
      | .importError text =>
          .ok (errorCheck chainDir checkout.now ("cannot import protocol verifier: " ++ text ++
          ". Set WISEORDER_PROTOCOL_DIR to a clone of wiseorder-protocol."))
      | .imported =>
          match checkout.verifyChain with
          | .error e =>
              if e.isException then
                .ok (errorCheck chainDir checkout.now ("verify_chain raised: " ++
                  className e.kind ++ ": " ++ e.text))
              else .error e
          | .ok verdict => verdictCheck op chainDir checkout.now verdict

/-- One round of `run()`. -/
def poll (checkout : Checkout Object) (w : IntegrityWatcher Object) :
    Except PyException Unit × IntegrityWatcher Object :=
  let (checked, w) := checkOnce op.ne (verifyOnce op w.chainDir checkout) w
  (checked.map fun _ => (), w)

/-! ### When a check is answered -/

/-- The verifier is there and gives a verdict. -/
def HasVerdict (checkout : Checkout Object) : Prop :=
  checkout.isDir = .ok true ∧ checkout.imports = .imported ∧ ∃ verdict, checkout.verifyChain =
    .ok verdict

/-- The fields of a verdict can be read: it has the four attributes, with a count that is a number
and texts for status and reason. -/
structure Readable (verdict : Verdict Object) : Prop where
  status : ∃ text, (verdict.status >>= op.str) = .ok text
  count : ∃ n, (verdict.count >>= op.int) = .ok n
  head : ∃ head, verdict.head = .ok head
  reason : ∃ text, (verdict.reason >>= strOrEmpty op) = .ok text

/-- The head that the checkout shows, if any. -/
def headOf (checkout : Checkout Object) : Option Object :=
  match checkout.isDir, checkout.imports, checkout.verifyChain with
  | .ok true, .imported, .ok verdict =>
      match verdict.head with
      | .ok head => if op.isNone head then none else some head
      | .error _ => none
  | _, _, _ => none

/-- Looking for the directory raises nothing, the import nothing but an `ImportError`, the verifier
nothing but an `Exception`, and its verdict can be read. -/
structure Verifiable (checkout : Checkout Object) : Prop where
  dir : ∃ dir, checkout.isDir = .ok dir
  imports : checkout.isDir = .ok true → ∀ e, checkout.imports ≠ .raised e
  verifier : checkout.isDir = .ok true → checkout.imports = .imported → ∀ e, checkout.verifyChain =
    .error e → e.isException = true
  verdict : checkout.isDir = .ok true → checkout.imports = .imported →
    ∀ verdict, checkout.verifyChain = .ok verdict →
    Readable op verdict

/-- The head that is shown can be compared with the last known one. -/
def Comparable (w : IntegrityWatcher Object) (checkout : Checkout Object) : Prop :=
  ∃ moved, op.ne (headOf op checkout) w.lastHead = .ok moved

variable {op} {chainDir : String} {checkout : Checkout Object} {w : IntegrityWatcher Object}

theorem bind_ok {x : Except PyException α} {f : α → Except PyException β} {b : β} :
    (x >>= f) = .ok b ↔ ∃ a, x = .ok a ∧ f a = .ok b := by
  cases x with
  | ok a =>
      exact ⟨fun same => ⟨a, rfl, same⟩, fun ⟨a', same, returned⟩ => by cases same; exact returned⟩
  | error e => exact ⟨fun same => (nomatch same), fun ⟨a, same, _⟩ => (nomatch same)⟩

theorem verdictCheck_iff {verdict : Verdict Object} :
    (∃ check, verdictCheck op chainDir now verdict = .ok check) ↔ Readable op verdict := by
  constructor
  · rintro ⟨check, returned⟩
    obtain ⟨text, status, returned⟩ := bind_ok.mp returned
    obtain ⟨n, count, returned⟩ := bind_ok.mp returned
    obtain ⟨head, shown, returned⟩ := bind_ok.mp returned
    obtain ⟨note, reason, -⟩ := bind_ok.mp returned
    exact ⟨⟨text, status⟩, ⟨n, count⟩, ⟨head, shown⟩, note, reason⟩
  · rintro ⟨⟨text, status⟩, ⟨n, count⟩, ⟨head, shown⟩, note, reason⟩
    exact ⟨_, bind_ok.mpr ⟨text, status,
      bind_ok.mpr ⟨n, count, bind_ok.mpr ⟨head, shown, bind_ok.mpr ⟨note, reason, rfl⟩⟩⟩⟩⟩

/-- A check has the head that the verdict has. -/
theorem verdictCheck_head {verdict : Verdict Object} {check : IntegrityCheck Object} {head : Object}
    (returned : verdictCheck op chainDir now verdict = .ok check)
    (shown : verdict.head = .ok head) : check.head = if op.isNone head then none
      else some head := by
  obtain ⟨text, -, returned⟩ := bind_ok.mp returned
  obtain ⟨n, -, returned⟩ := bind_ok.mp returned
  obtain ⟨head', shown', returned⟩ := bind_ok.mp returned
  obtain ⟨note, -, returned⟩ := bind_ok.mp returned
  cases shown.symm.trans shown'
  exact congrArg IntegrityCheck.head (Except.ok.inj returned).symm

/-- What a verification comes to, by what it meets. -/
inductive Verified (op : Operations Object) (chainDir : String) (checkout : Checkout Object) :
    Except PyException (IntegrityCheck Object) → Prop where
  | blocked {e} (dir : checkout.isDir = .error e) : Verified op chainDir checkout (.error e)
  | absent {note} (dir : checkout.isDir = .ok false) :
      Verified op chainDir checkout (.ok (errorCheck chainDir checkout.now note))
  | broken {e} (dir : checkout.isDir = .ok true) (imports : checkout.imports = .raised e) :
      Verified op chainDir checkout (.error e)
  | missing {text note} (dir : checkout.isDir = .ok true)
      (imports : checkout.imports = .importError text) :
      Verified op chainDir checkout (.ok (errorCheck chainDir checkout.now note))
  | failed {e note} (dir : checkout.isDir = .ok true) (imports : checkout.imports = .imported)
      (raised : checkout.verifyChain = .error e) (caught : e.isException = true) :
      Verified op chainDir checkout (.ok (errorCheck chainDir checkout.now note))
  | killed {e} (dir : checkout.isDir = .ok true) (imports : checkout.imports = .imported)
      (raised : checkout.verifyChain = .error e) (passes : e.isException = false) : Verified op
        chainDir checkout (.error e)
  | verdict {v} (dir : checkout.isDir = .ok true) (imports : checkout.imports = .imported)
      (gave : checkout.verifyChain = .ok v) :
      Verified op chainDir checkout (verdictCheck op chainDir checkout.now v)

theorem verified (op : Operations Object) (chainDir : String) (checkout : Checkout Object) :
    Verified op chainDir checkout (verifyOnce op chainDir checkout) := by
  unfold verifyOnce
  split
  · exact .blocked ‹_›
  · exact .absent ‹_›
  · split
    · exact .broken ‹_› ‹_›
    · exact .missing ‹_› ‹_›
    · split
      · split
        · exact .failed ‹_› ‹_› ‹_› ‹_›
        · exact .killed ‹_› ‹_› ‹_› (Bool.not_eq_true _ ▸ ‹¬ _›)
      · exact .verdict ‹_› ‹_› ‹_›

/-- Verification returns where it can, and only there. -/
theorem verifyOnce_iff : (∃ check, verifyOnce op chainDir checkout = .ok check) ↔
    Verifiable op checkout := by
  cases comes : verifyOnce op chainDir checkout with
  | error e =>
      refine ⟨fun ⟨_, same⟩ => (nomatch same), fun verifiable => ?_⟩
      have verified := verified op chainDir checkout
      rw [comes] at verified
      generalize same : (Except.error e : Except PyException (IntegrityCheck Object)) =
        result at verified
      cases verified with
      | blocked dir =>
          obtain ⟨_, there⟩ := verifiable.dir
          cases dir.symm.trans there
      | broken dir imports => exact absurd imports (verifiable.imports dir _)
      | killed dir imports raised passes =>
          have caught := verifiable.verifier dir imports _ raised
          simp [passes] at caught
      | verdict dir imports gave =>
          obtain ⟨check, returned⟩ := verdictCheck_iff.mpr (verifiable.verdict dir imports _ gave)
          cases same.trans returned
      | absent dir => cases same
      | missing dir imports => cases same
      | failed dir imports raised caught => cases same
  | ok check =>
      refine ⟨fun _ => ?_, fun _ => ⟨check, rfl⟩⟩
      have verified := verified op chainDir checkout
      rw [comes] at verified
      generalize same : (Except.ok check : Except PyException (IntegrityCheck Object)) =
        result at verified
      cases verified with
      | absent dir =>
          exact ⟨⟨_, dir⟩, fun there => by simp [dir] at there, fun there => by simp [dir] at there,
            fun there => by simp [dir] at there⟩
      | missing dir imports =>
          exact ⟨⟨_, dir⟩, fun _ => by simp [imports], fun _ there => by simp [imports] at there,
            fun _ there => by simp [imports] at there⟩
      | failed dir imports raised caught =>
          refine ⟨⟨_, dir⟩, fun _ => by simp [imports], fun _ _ e' raised' => ?_,
            fun _ _ v gave => by simp [raised] at gave⟩
          cases raised.symm.trans raised'
          exact caught
      | verdict dir imports gave =>
          refine ⟨⟨_, dir⟩, fun _ => by simp [imports],
            fun _ _ e' raised => by simp [gave] at raised, fun _ _ v gave' => ?_⟩
          cases gave.symm.trans gave'
          exact verdictCheck_iff.mp ⟨check, same.symm⟩
      | blocked dir => cases same
      | broken dir imports => cases same
      | killed dir imports raised passes => cases same

/-- A check has the head that the checkout shows, and the status `ERROR` where there is no
verdict. -/
theorem verifyOnce_ok {check : IntegrityCheck Object}
    (returned : verifyOnce op chainDir checkout = .ok check) : check.head = headOf op checkout ∧
    (¬ HasVerdict checkout → check.status = "ERROR") := by
  have verified := verified op chainDir checkout
  rw [returned] at verified
  generalize same : (Except.ok check : Except PyException (IntegrityCheck Object)) =
    result at verified
  cases verified with
  | absent dir =>
      obtain rfl := Except.ok.inj same
      exact ⟨by simp [headOf, dir, errorCheck], fun _ => rfl⟩
  | missing dir imports =>
      obtain rfl := Except.ok.inj same
      exact ⟨by simp [headOf, dir, imports, errorCheck], fun _ => rfl⟩
  | failed dir imports raised caught =>
      obtain rfl := Except.ok.inj same
      exact ⟨by simp [headOf, dir, imports, raised, errorCheck], fun _ => rfl⟩
  | verdict dir imports gave =>
      obtain ⟨head, shown⟩ := (verdictCheck_iff.mp ⟨check, same.symm⟩).head
      refine ⟨(verdictCheck_head same.symm shown).trans (by simp [headOf, dir, imports,
        gave, shown]), fun none => ?_⟩
      exact absurd ⟨dir, imports, _, gave⟩ none
  | blocked dir => cases same
  | broken dir imports => cases same
  | killed dir imports raised passes => cases same

/-- A check is returned, with the status `ERROR` where there is no verdict. -/
def Answered (op : Operations Object) (w : IntegrityWatcher Object) (checkout : Checkout Object) :
    Prop :=
  ∃ check line, (checkOnce op.ne (verifyOnce op w.chainDir checkout) w).1 = .ok (check, line) ∧
    (¬ HasVerdict checkout → check.status = "ERROR")

theorem answered_iff : Answered op w checkout ↔ Verifiable op checkout ∧
    Comparable op w checkout := by
  constructor
  · rintro ⟨check, line, returned, -⟩
    cases verified : verifyOnce op w.chainDir checkout with
    | error e => simp [checkOnce, verified] at returned
    | ok check' =>
        refine ⟨verifyOnce_iff.mp ⟨check', verified⟩, ?_⟩
        rw [Comparable, ← (verifyOnce_ok verified).1]
        cases compared : op.ne check'.head w.lastHead with
        | error e => simp [checkOnce, verified, append, compared] at returned
        | ok moved => exact ⟨moved, rfl⟩
  · rintro ⟨verifiable, moved, compared⟩
    obtain ⟨check, verified⟩ : ∃ check, verifyOnce op w.chainDir checkout = .ok check :=
      verifyOnce_iff.mpr verifiable
    obtain ⟨head, status⟩ := verifyOnce_ok verified
    rw [← head] at compared
    exact ⟨check, _, by simp only [checkOnce, verified, append, compared]; rfl, status⟩

/-- A round survives a checkout that is answered. -/
theorem poll_survives (verifiable : Verifiable op checkout)
    (comparable : Comparable op w checkout) : (poll op checkout w).1 = .ok () := by
  obtain ⟨check, line, returned, -⟩ := answered_iff.mpr ⟨verifiable, comparable⟩
  simp only [poll, returned, Except.map]

/-- A check is answered exactly when the verification can be made and the heads be compared, and
while every checkout that is met is such, the loop polls at every interval until it is stopped. -/
theorem checks_answered (op : Operations Object) :
    (∀ w checkout, Answered op w checkout ↔ Verifiable op checkout ∧ Comparable op w checkout) ∧
    ∀ w trace l, Transition.Run (Transition.Guarded (Polling.Step (poll op)) fun l event _ =>
        ∀ checkout, event = .round checkout → Verifiable op checkout ∧
        Comparable op l.state checkout)
      (Polling.start w) trace l →
      Polling.GoesOn trace l ∧ (l.phase ≠ .stopped →
        (∀ checkout, ∃ l', Polling.Step (poll op) l (.round checkout) l') ∨ ∃ l', Polling.Step
        (poll op) l .elapsed l') := by
  refine ⟨fun w checkout => answered_iff, fun w trace l run => ?_⟩
  have survives : Transition.Run (Transition.Guarded (Polling.Step (poll op))
      (Polling.Survives (poll op))) (Polling.start w) trace l :=
    run.mono fun ⟨step, meets⟩ =>
      ⟨step, fun checkout same => poll_survives (meets checkout same).1 (meets checkout same).2⟩
  have goes := Polling.run_goes_on survives
  exact ⟨goes, Polling.goes_next goes⟩

/-- Texts as objects. -/
def textOperations : Operations String where
  isNone text := text = "None"
  str := .ok
  int text := if Python.isdigit text then .ok (Python.int text)
    else .error (.valueError ("invalid literal for int() with base 10: " ++ Python.reprString text))
  truth text := .ok (text ≠ "")
  ne := differs

/-- A checkout in the middle of an edit: the import finds a syntax error. -/
def brokenCheckout : Checkout String where
  now := 0
  isDir := .ok true
  imports := .raised ⟨.other "SyntaxError", "invalid syntax"⟩
  verifyChain := .error (.runtimeError "unreachable")

/-- The first round of a loop meets a checkout that does not import, and the loop is over. -/
theorem broken_kills : ¬ Answered textOperations (new "/srv/protocol/chain" .infinity)
    brokenCheckout ∧ ∃ trace l e, Transition.Run (Polling.Step (poll textOperations))
    (Polling.start (new "/srv/protocol/chain" .infinity)) trace l ∧
      l.phase = .failed e := by
  refine ⟨?_, [.round brokenCheckout], _, _, .single (.raised rfl), rfl⟩
  rintro ⟨check, line, returned, -⟩
  cases returned

end WiseOrder.IntegrityWatcher
