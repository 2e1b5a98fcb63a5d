import WiseOrder.Foundation.PollLoop
import WiseOrder.Watchers.CiWatcher

/-! The loop of the CI watcher: a round checks every configured repository, one after the
other, and nothing catches what a check raises. -/
namespace WiseOrder.CIWatcher
open Coroutine

variable (wording : Json.Scanner.Failure → String) (limits : Json.Scanner.Limits)

/-- What a check finds: the time, and what becomes of its `gh`. -/
structure Found where
  now : Time
  gh : Gh

/-- A watcher at work: its children that run, and the repositories that it has a check of, one for
each check. -/
structure Poller where
  watcher : CIWatcher
  children : Nat
  polled : List String

/-- `self.history.setdefault(repo, []).append(check)`, of which the last 50 are kept. -/
def keep (repo : String) (check : CICheck) : List (String × List CICheck) →
    List (String × List CICheck)
  | [] => [(repo, [check])]
  | (r, checks) :: rest =>
      if r = repo then (r, Python.lastOnes 50 (checks ++ [check])) :: rest
        else (r, checks) :: keep repo check rest

def Poller.record (p : Poller) (repo : String) (check : CICheck) (children : Nat) : Poller where
  watcher := { p.watcher with history := keep repo check p.watcher.history }
  children := children
  polled := p.polled ++ [repo]

/-- The checks of a list of repositories, each with what it finds. -/
def checkEach : List String → (Nat → Found) → Poller → Except PyException Unit × Poller
  | [], _, p => (.ok (), p)
  | repo :: rest, finds, p =>
      match (checkOne wording limits repo).eval (answer (finds 0).now (finds 0).gh) p.children with
      | (.ok check, children) =>
          checkEach rest (fun i => finds (i + 1)) (p.record repo check children)
      | (.error e, children) => (.error e, { p with children })

/-- `_check_all` -/
def checkAll (finds : Nat → Found) (p : Poller) : Except PyException Unit × Poller :=
  checkEach wording limits p.watcher.repos finds p

/-! ### What the loop survives -/

/-- What `for r in runs_data` finds objects in, if anything. -/
def IsRuns (v : Json) : Prop := ∃ items, Python.iterate v = .ok items ∧
    ∀ r ∈ items, ∃ fields, r = .obj fields

/-- What `gh` wrote is text, and either no JSON or a list of objects. -/
def Readable (stdout : List UInt8) : Prop := ∃ text, Python.decode stdout = .ok text ∧
  (Json.Scanner.decode limits text.toList = .error .malformed ∨
    ∃ v, Json.Scanner.decode limits text.toList = .ok v ∧ IsRuns v)

/-- What becomes of `gh` is handled: it is not there, does not start, fails, or writes what can be
read. -/
def Harmless : Gh → Prop
  | .missing => True
  | .fails e => e.isException = true
  | .hangs => False
  | .exits proc => proc.returncode ≠ 0 ∨ Readable limits proc.stdout

variable {wording limits} {now : Time} {repo : String} {children : Nat}

theorem mapM_ok {ε α β : Type} {f : α → Except ε β} {xs : List α} : (∃ ys, xs.mapM f = .ok ys) ↔
    ∀ x ∈ xs, ∃ y, f x = .ok y := by
  induction xs with
  | nil => simp [pure, Except.pure]
  | cons x xs ih =>
      rw [List.mapM_cons, List.forall_mem_cons]
      cases first : f x with
      | error e => simp [bind, Except.bind]
      | ok y =>
          rw [← ih]
          cases rest : xs.mapM f with
          | error e => simp [bind, Except.bind]
          | ok ys => simp [bind, Except.bind, pure, Except.pure]

theorem workflowRun_ok {r : Json} : (∃ run, workflowRun repo r = .ok run) ↔
    ∃ fields, r = .obj fields := by
  cases r with
  | obj row => exact ⟨fun _ => ⟨row, rfl⟩, fun _ => ⟨_, workflowRun_obj row⟩⟩
  | _ => simp [workflowRun, Python.get, bind, Except.bind]

theorem completedCheck_ok {proc : Completed} :
    (∃ check, completedCheck wording limits now repo proc = .ok check) ↔
    proc.returncode ≠ 0 ∨ Readable limits proc.stdout := by
  unfold completedCheck Readable IsRuns
  by_cases failed : proc.returncode ≠ 0
  · simp only [failed, if_true, ne_eq, not_false_eq_true, true_or, iff_true]
    exact ⟨_, rfl⟩
  · rw [if_neg failed, or_iff_right failed]
    cases decoded : Python.decode proc.stdout with
    | error e => simp [bind, Except.bind]
    | ok text =>
        cases read : Json.Scanner.decode limits text.toList with
        | error e => cases e <;> simp [bind, Except.bind, pure, Except.pure, read]
        | ok v =>
            cases iterated : Python.iterate v with
            | error e => simp [bind, Except.bind, read, iterated]
            | ok items =>
                have each := @mapM_ok _ _ _ (workflowRun repo) items
                simp only [workflowRun_ok] at each
                simp only [bind, Except.bind, read, iterated, Except.ok.injEq, exists_eq_left']
                rw [← each]
                cases items.mapM (workflowRun repo) <;> simp [pure, Except.pure]

/-- A check is answered and leaves no child of its own exactly when what becomes of `gh` is
handled. -/
theorem answered_iff {gh : Gh} :
    (∃ check, (checkOne wording limits repo).eval (answer now gh) children =
      (.ok check, children)) ↔
    Harmless limits gh := by
  cases gh with
  | missing =>
      rw [check_missing]
      exact ⟨fun _ => trivial, fun _ => ⟨_, rfl⟩⟩
  | hangs =>
      rw [check_hangs]
      simp [Harmless]
  | exits proc =>
      rw [check_exits, ghCheck]
      simpa [Harmless] using completedCheck_ok
  | fails e =>
      rw [check_fails]
      constructor
      · rintro ⟨check, answered⟩
        by_contra harmful
        have passes : ¬ e.isException = true := harmful
        have other : e.kind ≠ timeoutError := by
          intro same
          simp [PyException.isException, same, timeoutError] at passes
        rw [ghCheck, if_neg other, if_neg passes] at answered
        cases answered
      · intro caught
        obtain ⟨note, checked⟩ := ghCheck_caught caught
        exact ⟨_, by rw [checked]⟩

/-- A round whose checks are all answered has one for every repository, and leaves no child. -/
theorem checkEach_survives {repos : List String} {finds : Nat → Found} {p : Poller}
    (harmless : ∀ i < repos.length, Harmless limits (finds i).gh) : ∃ history,
    checkEach wording limits repos finds p =
      (.ok (), { p with watcher := { p.watcher with history }, polled := p.polled ++ repos }) := by
  induction repos generalizing finds p with
  | nil => exact ⟨p.watcher.history, by simp [checkEach]⟩
  | cons repo repos ih =>
      obtain ⟨check, answered⟩ : ∃ check, (checkOne wording limits repo).eval
        (answer (finds 0).now (finds 0).gh) p.children =
          (.ok check, p.children) := answered_iff.mpr (harmless 0 (Nat.zero_lt_succ _))
      obtain ⟨history, rest⟩ := @ih (fun i => finds (i + 1)) (p.record repo check p.children)
        fun i bound => harmless (i + 1) (Nat.succ_lt_succ bound)
      refine ⟨history, ?_⟩
      simp only [checkEach, answered, rest]
      simp [Poller.record]

/-- The repositories of so many rounds. -/
def rounds (n : Nat) (repos : List String) : List String := (List.replicate n repos).flatten

theorem rounds_succ (n : Nat) (repos : List String) :
    rounds (n + 1) repos = rounds n repos ++ repos := by
  simp [rounds, List.replicate_succ']

/-- What each repository of a round finds is handled. -/
def Handled (limits : Json.Scanner.Limits) (l : Polling.Loop Poller PyException)
    (event : Polling.Event (Nat → Found)) (_ : Polling.Loop Poller PyException) : Prop :=
  ∀ finds, event = .round finds → ∀ i < l.state.watcher.repos.length, Harmless limits (finds i).gh

/-- What the watcher that was started has come to after a number of rounds. -/
structure Polled (p : Poller) (n : Nat) (q : Poller) : Prop where
  repos : q.watcher.repos = p.watcher.repos
  children : q.children = p.children
  polled : q.polled = p.polled ++ rounds n p.watcher.repos

/-- A round whose finds are handled. -/
theorem checkAll_survives {finds : Nat → Found} {p : Poller}
    (harmless : ∀ i < p.watcher.repos.length, Harmless limits (finds i).gh) :
    ∃ history, checkAll wording limits finds p =
      (.ok (),
        { p with watcher := { p.watcher with history }, polled := p.polled ++ p.watcher.repos }) :=
  checkEach_survives harmless

theorem step_polled {p : Poller} {n : Nat} {l l' : Polling.Loop Poller PyException}
    {event : Polling.Event (Nat → Found)} (earlier : Polled p n l.state)
    (step : Polling.Step (checkAll wording limits) l event l')
    (handled : Handled limits l event l') :
    Polled p (n + if event.isRound then 1 else 0) l'.state := by
  cases step with
  | returned ran =>
      obtain ⟨history, survived⟩ := checkAll_survives (handled _ rfl)
      cases survived.symm.trans ran
      obtain ⟨repos, children, polled⟩ := earlier
      refine ⟨repos, children, ?_⟩
      simp only [Polling.Event.isRound, if_true, rounds_succ]
      dsimp only at repos polled
      rw [polled, repos, List.append_assoc]
  | raised ran =>
      obtain ⟨history, survived⟩ := checkAll_survives (handled _ rfl)
      cases survived.symm.trans ran
  | elapsed | stop | woken => exact earlier

theorem run_polled {p : Poller} {trace : List (Polling.Event (Nat → Found))}
    {l : Polling.Loop Poller PyException}
    (run : Transition.Run (Transition.Guarded (Polling.Step (checkAll wording limits))
      (Handled limits)) (Polling.start p) trace l) :
    Polled p (trace.countP Polling.Event.isRound) l.state := by
  induction run with
  | refl => exact ⟨rfl, rfl, by simp [Polling.start, rounds]⟩
  | next _ taken ih =>
      have kept := step_polled ih taken.1 taken.2
      simpa [List.countP_append, List.countP_cons] using kept

/-- A check is answered without a child left behind exactly when what becomes of `gh` is handled;
and while it is, the loop polls every repository at every interval until it is stopped, and leaves
no child behind. -/
theorem gh_survived (wording : Json.Scanner.Failure → String) (limits : Json.Scanner.Limits) :
    (∀ now repo gh children,
      (∃ check, (checkOne wording limits repo).eval (answer now gh) children =
      (.ok check, children)) ↔
      Harmless limits gh) ∧
    ∀ p trace l, Transition.Run
    (Transition.Guarded (Polling.Step (checkAll wording limits)) (Handled limits))
    (Polling.start p) trace l →
      Polling.GoesOn trace l ∧ Polled p (trace.countP Polling.Event.isRound) l.state ∧
      (l.phase ≠ .stopped →
        (∀ finds, ∃ l', Polling.Step (checkAll wording limits) l (.round finds) l') ∨
        ∃ l', Polling.Step (checkAll wording limits) l .elapsed l') := by
  refine ⟨fun now repo gh children => answered_iff, fun p trace l run => ?_⟩
  have survives : Transition.Run (Transition.Guarded (Polling.Step (checkAll wording limits))
    (Polling.Survives (checkAll wording limits)))
      (Polling.start p) trace l := by
    refine run.mono fun ⟨step, handled⟩ => ⟨step, fun finds same => ?_⟩
    obtain ⟨history, survived⟩ := checkAll_survives (handled finds same)
    rw [survived]
  have goes := Polling.run_goes_on survives
  exact ⟨goes, run_polled run, Polling.goes_next goes⟩

/-- A watcher of one repository. -/
def poller : Poller := ⟨⟨["owner/repo"], .decimal 600 0, []⟩, 0, []⟩

/-- A `gh` that hangs is left behind, and one that writes a byte that is no text ends the loop. -/
theorem gh_kills :
    (¬ ∃ check, (checkOne (fun _ => "") Extraction.interpreter "owner/repo").eval
      (answer 0 .hangs) 0 = (.ok check, 0)) ∧
    ∃ trace l e, Transition.Run (Polling.Step (checkAll (fun _ => "") Extraction.interpreter))
    (Polling.start poller) trace l ∧
      l.phase = .failed e := by
  constructor
  · rintro ⟨check, answered⟩
    rw [check_hangs] at answered
    cases (Prod.mk.inj answered).2
  · exact ⟨[.round fun _ => ⟨0, .exits ⟨0, [255], []⟩⟩], _, _, .single (.raised rfl), rfl⟩

end WiseOrder.CIWatcher
