import WiseOrder.Queues.RedisQueue

/-! The watcher of git commits. An observer thread handles the events of the file
system one at a time, the starting thread reconciles once, and the coroutines that
they give to the loop read a commit and enqueue its job. -/
namespace WiseOrder
open Coroutine

/-- `self.loop`: not set, closed, or there to take coroutines. -/
inductive LoopState where
  | missing
  | closed
  | accepting
  deriving DecidableEq

inductive WatchCall where
  | checkOutput (cmd : List String)
  | loop
  | getLastSha (repo : String)
  | setLastSha (repo sha : String)
  | schedule (repo : String) (prevSha : Option String) (newSha : String)
  | getQueue
  | run (c : Call)

def WatchCall.Reply : WatchCall → Type
  | .checkOutput _ => List UInt8
  | .loop => LoopState
  | .getLastSha _ => Option String
  | .run c => c.Reply
  | _ => Unit

abbrev watchCalls : Signature := ⟨WatchCall, WatchCall.Reply, PyException⟩

abbrev Watch := Program watchCalls

namespace Watch

def await (c : WatchCall) : Watch c.Reply := @Program.call watchCalls c

/-- A coroutine of the rest of the program. -/
def run (m : Async α) : Watch α :=
  @Program.embed calls α α watchCalls WatchCall.run (fun _ reply => reply) (fun result => result) m

/-- An `except` clause that names the classes it takes. -/
def tryKinds (kinds : List ExceptionClass) (body : Watch α) (handler : PyException → Watch α) :
    Watch α :=
  body.catching (fun e => kinds.contains e.kind) handler

end Watch

structure GitCommitEvent where
  repo : String
  sha : String
  author : String
  subject : String
  diff : String

namespace EventWatcher

def maxDiffBytes : Nat := 200000

/-- What git may fail with where that is handled. -/
def gitErrors : List ExceptionClass := [.fileNotFoundError, .calledProcessError]

def headCmd (repo : String) : List String := ["git", "-C", repo, "rev-parse", "HEAD"]

def authorCmd (repo sha : String) : List String :=
  ["git", "-C", repo, "log", "-1", "--format=%an <%ae>", sha]

def subjectCmd (repo sha : String) : List String :=
  ["git", "-C", repo, "log", "-1", "--format=%s", sha]

def showCmd (repo sha : String) : List String :=
  ["git", "-C", repo, "show", "--stat", "--patch", sha]

/-- `check_output(cmd).decode().strip()` -/
def gitText (cmd : List String) : Watch String := do
  let out ← Watch.await (.checkOutput cmd)
  let text ← Program.ofExcept (Python.decode out)
  return Python.strip text

def currentHeadSha (repo : String) : Watch (Option String) :=
  Watch.tryKinds gitErrors (do
    let sha ← gitText (headCmd repo)
    return some sha) fun _ => return none

def truncated (diff : String) : String :=
  if diff.length > maxDiffBytes then Python.take maxDiffBytes diff ++ "\n\n[diff truncated]\n"
    else diff

def readCommit (repo sha : String) : Watch (String × String × String) := do
  let author ← Watch.tryKinds gitErrors (gitText (authorCmd repo sha)) fun _ => return "unknown"
  let subject ← Watch.tryKinds gitErrors (gitText (subjectCmd repo sha)) fun _ => return ""
  let diff ← Watch.tryKinds gitErrors (do
    let out ← Watch.await (.checkOutput (showCmd repo sha))
    return truncated (Python.decodeReplace out)) fun _ => return ""
  return (author, subject, diff)

def commitPayload (event : GitCommitEvent) (prevSha : Option String) : Json := .obj [
  ("repo", .str event.repo), ("sha", .str event.sha),
  ("prev_sha", match prevSha with
    | some prev => .str prev
    | none => .null),
  ("author", .str event.author), ("subject", .str event.subject), ("diff", .str event.diff)]

def emitCommit (repo : String) (prevSha : Option String) (newSha : String) : Watch Unit := do
  let (author, subject, diff) ← readCommit repo newSha
  let event : GitCommitEvent := ⟨repo, newSha, author, subject, diff⟩
  Watch.await .getQueue
  let id : String ← Watch.await (.run .uuid4)
  let now : Time ← Watch.await (.run .now)
  let job := Job.new id "commit_pipeline" (commitPayload event prevSha) now
  Watch.run (RedisQueue.enqueue job .normal)

/-- The paths whose events may come from a commit. -/
def relevant (srcPath : String) : Bool :=
  (Python.pathParts srcPath).contains ".git" &&
    (["HEAD", "ORIG_HEAD"].contains (Python.pathName srcPath) ||
      Python.isIn "refs/heads" (Python.pathText srcPath) ||
      Python.isIn "logs/HEAD" (Python.pathText srcPath))

/-- `run_coroutine_threadsafe`, whose `RuntimeError` is only logged. -/
def schedule (repo : String) (prevSha : Option String) (newSha : String) : Watch Unit :=
  Watch.tryKinds [.runtimeError] (Watch.await (.schedule repo prevSha newSha)) fun _ => return ()

/-- What `on_any_event` and the loop of `_reconcile_after_start` share: a `HEAD` that has moved is
noted first. -/
def ifMoved (repo : String) (moved : Option String → String → Watch Unit) : Watch Unit := do
  let current ← currentHeadSha repo
  match current with
  | none => return ()
  | some current =>
      if current = "" then return ()
      else
        let lastSha : Option String ← Watch.await (.getLastSha repo)
        if lastSha = some current then return ()
        else
          let prev : Option String ← Watch.await (.getLastSha repo)
          Watch.await (.setLastSha repo current)
          moved prev current

/-- `_GitHeadHandler.on_any_event` of the handler of `repo`. -/
def onAnyEvent (repo srcPath : String) : Watch Unit := do
  if !relevant srcPath then return ()
  else ifMoved repo fun prev newSha => do
    let loop : LoopState ← Watch.await .loop
    match loop with
    | .missing | .closed => return ()
    | .accepting => schedule repo prev newSha

def reconcileRepo (repo : String) : Watch Unit := ifMoved repo (schedule repo)

def reconcileRepos : List String → Watch Unit
  | [] => return ()
  | repo :: repos => do
      reconcileRepo repo
      reconcileRepos repos

def reconcileAfterStart (repos : List String) : Watch Unit := do
  let loop : LoopState ← Watch.await .loop
  match loop with
  | .missing => return ()
  | .closed | .accepting => reconcileRepos repos

end EventWatcher

/-! ### The watcher as a pool -/

structure Emission where
  repo : String
  prevSha : Option String
  newSha : String

def Emission.commit (e : Emission) : String × String := (e.repo, e.newSha)

/-- What the watcher shares with its threads. What `HEAD` has been is kept too, the latest first. -/
structure Watched where
  world : World
  heads : String → List String
  lastSha : String → Option String
  scheduled : List Emission

/-- What git says where `HEAD` names a commit, and may say where it names none. -/
def Watched.headReply (w : Watched) (repo : String) (reply : Except PyException (List UInt8)) :
    Prop :=
  match w.heads repo, reply with
  | sha :: _, .ok out => out = sha.toUTF8.data.toList ++ [10]
  | [], .ok _ => False
  | _, .error _ => True

def Watched.perform (i : CallId) (c : WatchCall) (w : Watched) (reply : Except PyException c.Reply)
    (w' : Watched) : Prop :=
  match c, reply with
  | .checkOutput cmd, reply =>
      (∀ repo, cmd = EventWatcher.headCmd repo → w.headReply repo reply) ∧ w' = w
  | .loop, .ok _ => w' = w
  | .getLastSha repo, .ok last => last = w.lastSha repo ∧ w' = w
  | .setLastSha repo sha, .ok _ =>
      w' = { w with lastSha := Function.update w.lastSha repo (some sha) }
  | .schedule repo prev sha, .ok _ =>
      w' = { w with scheduled := w.scheduled ++ [⟨repo, prev, sha⟩] }
  | .schedule .., .error _ | .getQueue, _ => w' = w
  | .run c, reply =>
      ∃ world, WiseOrder.perform i c w.world reply world ∧ w' = { w with world := world }
  | .loop, .error _ | .getLastSha _, .error _ | .setLastSha .., .error _ => False

inductive Party where
  | event (number : Nat)
  | reconcile
  | emission (number : Nat)
  deriving DecidableEq

abbrev WatchPool := Config Party Watched watchCalls Unit

abbrev WatchEvent := Event Party Watched watchCalls Unit

/-- Events are handled one at a time; the loop runs each coroutine that it was given once. -/
def watchSpawns (repos : List String) (c : WatchPool) (i : Party) (p : Watch Unit) : Prop :=
  match i with
  | .event _ =>
      (∀ other, ¬ (c.threads (.event other)).Live) ∧ ∃ repo ∈ repos, ∃ srcPath, p =
        EventWatcher.onAnyEvent repo srcPath
  | .reconcile => p = EventWatcher.reconcileAfterStart repos
  | .emission n =>
      ∃ e, c.world.scheduled[n]? = some e ∧ p = EventWatcher.emitCommit e.repo e.prevSha e.newSha

/-- `HEAD` moves, and the rest of the program goes on. -/
def watchDrifts (w w' : Watched) : Prop :=
  w'.lastSha = w.lastSha ∧ w'.scheduled = w.scheduled ∧ ∀ repo, ∃ moves, w'.heads repo = moves ++
    w.heads repo

/-- The watcher of one process, as the caller `i`. -/
def watching (repos : List String) (i : CallId) : Machine Party Watched watchCalls Unit where
  spawn := watchSpawns repos
  perform := fun _ => Watched.perform i
  again := fun _ _ _ _ => False
  drift := watchDrifts
  crash := fun _ _ _ => False

end WiseOrder
