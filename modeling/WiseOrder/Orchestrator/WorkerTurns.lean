import WiseOrder.Runtime.Shadow
import WiseOrder.Orchestrator.Popped

/-! What the workers do about the jobs that they pop. The history of a worker tells of every text
that it took from a lane what was done about it, and by the end of its loop what ended it. -/
namespace WiseOrder.Orchestrator
open Coroutine Coroutine.Program
/-! ### Accounts -/

/-- The texts that were popped: those that are settled, and the one in hand, with what was called
since each was popped. -/
structure Account where
  settled : List (String × History)
  hand : Option (String × History)

/-- The handler returned, the copy was pushed, or the text could not be read and the worker has
slept over it. -/
def settles : Interaction calls → Bool
  | ⟨.handler .., .ok _⟩ | ⟨.redis (.rpush .failed _), .ok _⟩ | ⟨.sleep _, _⟩ => true
  | _ => false

def popped : Interaction calls → Option String
  | ⟨.redis (.blpop _), .ok (some (_, text))⟩ => some text
  | _ => none

namespace Account

def new : Account := ⟨[], none⟩

def next (a : Account) (x : Interaction calls) : Account :=
  match popped x, a.hand with
  | some text, _ => { a with hand := some (text, []) }
  | none, none => a
  | none, some (text, since) =>
      if settles x then ⟨a.settled ++ [(text, since ++ [x])], none⟩
        else { a with hand := some (text, since ++ [x]) }

/-- The texts that were popped, in their order. -/
def texts (a : Account) : List String := a.settled.map Prod.fst ++ (a.hand.map Prod.fst).toList

end Account

def account (h : History) : Account := h.foldl Account.next .new

@[simp]
theorem account_nil : account [] = .new := rfl

@[simp]
theorem account_snoc (h : History) (x : Interaction calls) :
    account (h ++ [x]) = (account h).next x := by
  simp [account]

/-- What is called for a text from when it is popped until it is settled: nothing but a pause if it
is no job's, the handler that returns, or the handler that raises, or none where there is none, and
then the push of the failed copy. -/
inductive Ran : String → History → Prop where
  | unread {text e reply} (refused : Job.fromJson text = .error e) : Ran text [⟨.sleep 1, reply⟩]
  | returned {text job name result} (reads : Job.fromJson text = .ok job)
      (handles : handlerOf registered job.type = .ok (some name)) :
      Ran text [⟨.handler name job.payload, .ok result⟩]
  | raised {text job name e now copy} (reads : Job.fromJson text = .ok job)
      (handles : handlerOf registered job.type = .ok (some name))
      (caught : e.isException = true) (copied : job.deadLetter now e.text = .ok copy) :
      Ran text [⟨.handler name job.payload, .error e⟩, ⟨.now, .ok now⟩,
        ⟨.redis (.rpush .failed copy), .ok ()⟩]
  | unhandled {text job now copy} (reads : Job.fromJson text = .ok job)
      (none : handlerOf registered job.type = .ok none)
      (copied : job.deadLetter now (noHandler job.type) = .ok copy) :
      Ran text [⟨.now, .ok now⟩, ⟨.redis (.rpush .failed copy), .ok ()⟩]

/-- What was called so far for a text that is not settled, and may never be if something was
raised. -/
inductive Underway : String → History → Prop where
  | fresh {text} : Underway text []
  | raised {text job name e} (reads : Job.fromJson text = .ok job)
      (handles : handlerOf registered job.type = .ok (some name)) :
      Underway text [⟨.handler name job.payload, .error e⟩]
  | dated {text job name e now} (reads : Job.fromJson text = .ok job)
      (handles : handlerOf registered job.type = .ok (some name))
      (caught : e.isException = true) : Underway text [⟨.handler name job.payload, .error e⟩,
        ⟨.now, .ok now⟩]
  | unpushed {text job name e now copy e'} (reads : Job.fromJson text = .ok job)
      (handles : handlerOf registered job.type = .ok (some name))
      (caught : e.isException = true) (copied : job.deadLetter now e.text = .ok copy) :
      Underway text [⟨.handler name job.payload, .error e⟩, ⟨.now, .ok now⟩,
        ⟨.redis (.rpush .failed copy), .error e'⟩]
  | unhandled {text job now} (reads : Job.fromJson text = .ok job)
      (none : handlerOf registered job.type = .ok none) :
      Underway text [⟨.now, .ok now⟩]
  | unhandledUnpushed {text job now copy e'} (reads : Job.fromJson text = .ok job)
      (none : handlerOf registered job.type = .ok none)
      (copied : job.deadLetter now (noHandler job.type) = .ok copy) :
      Underway text [⟨.now, .ok now⟩, ⟨.redis (.rpush .failed copy), .error e'⟩]

/-- Every text is settled as it should be, and the one in hand is on the way. -/
structure Account.Proper (a : Account) : Prop where
  settled : ∀ text ran, (text, ran) ∈ a.settled → Ran text ran
  hand : ∀ text since, a.hand = some (text, since) → Underway text since

/-- Nothing is in hand. -/
structure AtRest (h : History) : Prop where
  proper : (account h).Proper
  empty : (account h).hand = none

/-- A text is in hand, with what was called for it. -/
structure InHand (text : String) (since : History) (h : History) : Prop where
  settled : ∀ text ran, (text, ran) ∈ (account h).settled → Ran text ran
  hand : (account h).hand = some (text, since)

variable {s : Settings} {i : CallId} {text : String} {h since : History} {x : Interaction calls}
    {e : PyException} {job : Job}

theorem InHand.proper (inHand : InHand text since h) (underway : Underway text since) :
    (account h).Proper := by
  refine ⟨inHand.settled, fun t s same => ?_⟩
  rw [inHand.hand] at same
  cases same
  exact underway

theorem InHand.held (inHand : InHand text since h) : (account h).hand ≠ none := by
  rw [inHand.hand]
  exact Option.some_ne_none _

theorem AtRest.pops (rest : AtRest h) (pop : popped x = some text) : InHand text [] (h ++ [x]) := by
  constructor <;> simp only [account_snoc, Account.next, pop]
  exact rest.proper.settled

theorem AtRest.idles (rest : AtRest h) (pop : popped x = none) : AtRest (h ++ [x]) := by
  have same : account (h ++ [x]) = account h := by
    rw [account_snoc, Account.next, pop, rest.empty]
  exact ⟨same ▸ rest.proper, same ▸ rest.empty⟩

theorem InHand.goes (inHand : InHand text since h) (pop : popped x = none)
    (open_ : settles x = false) : InHand text (since ++ [x]) (h ++ [x]) := by
  constructor <;> simp only [account_snoc, Account.next, pop, inHand.hand, open_]
  · exact inHand.settled
  · rfl

theorem InHand.done (inHand : InHand text since h) (pop : popped x = none)
    (closed : settles x = true) (ran : Ran text (since ++ [x])) : AtRest (h ++ [x]) := by
  have same : account (h ++ [x]) = ⟨(account h).settled ++ [(text, since ++ [x])], none⟩ := by
    rw [account_snoc, Account.next, pop, inHand.hand]
    simp only [closed, if_true]
  refine ⟨⟨fun t r member => ?_, fun t s hand => ?_⟩, ?_⟩
  · rw [same] at member
    rcases List.mem_append.mp member with old | new
    · exact inHand.settled t r old
    · cases List.mem_singleton.mp new
      exact ran
  · rw [same] at hand
    contradiction
  · rw [same]

/-! ### What ends a worker -/

/-- An exception of this call is caught by the worker. -/
def Caught (c : Call) (e : PyException) : Prop :=
  match c with
  | .redis (.blpop _) | .handler .. => e.isException = true
  | _ => False

/-- What ends a worker: an exception that nothing catches, a type that no dictionary can look up, or
a job that cannot be made a failed copy of, or is too deep or too long for its text. -/
inductive Ends : PyException → History → Prop where
  | uncaught {e h c} (passes : ¬ Caught c e) : Ends e (h ++ [⟨c, .error e⟩])
  | untyped {e h text job queues q} (reads : Job.fromJson text = .ok job)
      (unhashable : handlerOf registered job.type = .error e) :
      Ends e (h ++ [⟨.redis (.blpop queues), .ok (some (q, text))⟩])
  | uncopied {e h text since job now error} (mine : (account h).hand = some (text, since))
      (reads : Job.fromJson text = .ok job)
      (malformed : job.deadLetter now error = .error e) : Ends e (h ++ [⟨.now, .ok now⟩])

def clears (was : Bool) : Interaction calls → Bool
  | ⟨.stopIsSet, .ok stop⟩ => !stop
  | ⟨.redis (.blpop _), _⟩ => false
  | _ => was

/-- Since it looked at the lanes, the worker has looked whether it is to stop, and is not. -/
def cleared (h : History) : Bool := h.foldl clears false

@[simp]
theorem cleared_snoc (h : History) (x : Interaction calls) :
    cleared (h ++ [x]) = clears (cleared h) x := by
  simp [cleared]

/-- The calls of a worker: it looks at the lanes with nothing in hand, the urgent one first, once
for each time that it is not told to stop. It calls a handler for the text that it has just taken,
and pushes to the failed jobs alone, for the text in hand. -/
def turnAllowed (h : History) (c : Call) : Prop :=
  (account h).Proper ∧ match c with
    | .stopIsSet => (account h).hand = none
    | .redis (.blpop queues) =>
        queues = [.high, .normal] ∧ (account h).hand = none ∧ cleared h = true
    | .redis (.rpush queue _) => queue = .failed ∧ (account h).hand ≠ none
    | .handler .. => ∃ text, (account h).hand = some (text, [])
    | _ => True

def turnEffect (c : Call) (reply : Except PyException c.Reply) : Prop :=
  match c, reply with
  | .now, .error _ => False
  | _, _ => True

def turnProtocol : Protocol calls Unit :=
  ⟨fun h c _ => turnAllowed h c, fun c _ reply _ => turnEffect c reply⟩

/-- How a pass of a worker is over. -/
def turnEnds : Post calls Unit Returned :=
  ending (fun r h _ => AtRest h ∧ (r = .again ∨ r = .nothing ∧ ⟨.stopIsSet, .ok true⟩ ∈ h))
    fun e h _ => (account h).Proper ∧ Ends e h

/-! ### A pass of a worker -/

/-- How the handling of a text is over. -/
def handled : Post calls Unit Unit := ending (fun _ h _ => AtRest h) fun e h _ =>
    (account h).Proper ∧ Ends e h

/-- A job in hand is copied to the failed ones. -/
theorem obeys_fail {error : String} (inHand : InHand text since h) (underway : Underway text since)
    (reads : Job.fromJson text = .ok job)
    (dated : ∀ now, Underway text (since ++ [⟨.now, .ok now⟩]))
    (pushed : ∀ now copy, job.deadLetter now error = .ok copy →
      Ran text (since ++ [⟨.now, .ok now⟩] ++ [⟨.redis (.rpush .failed copy), .ok ()⟩]) ∧
      ∀ e, Underway text (since ++ [⟨.now, .ok now⟩] ++
        [⟨.redis (.rpush .failed copy), .error e⟩])) :
    (RedisQueue.fail job error).Obeys turnProtocol handled h () := by
  apply obeys_bind_iff.mpr
  refine obeys_call (⟨inHand.proper underway, trivial⟩) fun reply _ effect => ?_
  cases reply with
  | error e => exact effect.elim
  | ok now =>
      have later := inHand.goes (x := ⟨.now, .ok now⟩) rfl rfl
      cases copied : job.deadLetter now error with
      | error e =>
          refine obeys_bind_iff.mpr ?_
          rw [copied]
          exact ⟨later.proper (dated now), .uncopied inHand.hand reads copied⟩
      | ok copy =>
          refine obeys_bind_iff.mpr ?_
          rw [copied]
          obtain ⟨ran, unpushed⟩ := pushed now copy copied
          refine obeys_call ⟨later.proper (dated now), rfl, later.held⟩ fun reply _ _ => ?_
          cases reply with
          | ok x => exact later.done rfl rfl ran
          | error e => exact ⟨(later.goes rfl rfl).proper (unpushed e), .uncaught id⟩

/-- What the call of a handler comes to. -/
def handlerCalled (text name : String) (payload : Json) : Post calls Unit Unit
  | .ok _, h, _ => AtRest h
  | .error e, h, _ =>
      InHand text [⟨.handler name payload, .error e⟩] h ∧ ∃ earlier, h = earlier ++
        [⟨.handler name payload, .error e⟩]

/-- A job that was just popped is run. -/
theorem obeys_runJob {queues : List QueueName} {q : QueueName} (reads : Job.fromJson text = .ok job)
    (inHand : InHand text [] (h ++ [⟨.redis (.blpop queues), .ok (some (q, text))⟩])) :
    (runJob registered job).Obeys turnProtocol handled
    (h ++ [⟨.redis (.blpop queues), .ok (some (q, text))⟩]) () := by
  apply obeys_bind_iff.mpr
  cases handles : handlerOf registered job.type with
  | error e => exact ⟨inHand.proper .fresh, .untyped reads handles⟩
  | ok handler =>
      cases handler with
      | none =>
          exact obeys_fail inHand .fresh reads (fun now => .unhandled reads handles)
            fun now copy copied => ⟨.unhandled reads handles copied, fun e =>
              .unhandledUnpushed reads handles copied⟩
      | some name =>
          refine obeys_catching (?_ : Program.Obeys _ (handlerCalled text name job.payload) _ _ _)
            (fun _ _ _ rest => rest) ?_ ?_
          · apply obeys_bind_iff.mpr
            refine obeys_call (⟨inHand.proper .fresh, text, inHand.hand⟩) fun reply _ _ => ?_
            cases reply with
            | ok result => exact inHand.done rfl rfl (.returned reads handles)
            | error e => exact ⟨inHand.goes rfl rfl, _, rfl⟩
          · rintro e h' - caught ⟨raised, -⟩
            exact obeys_fail raised (.raised reads handles) reads (fun now =>
              .dated reads handles caught)
              fun now copy copied => ⟨.raised reads handles caught copied, fun e =>
                .unpushed reads handles caught copied⟩
          · rintro e h' - passes ⟨raised, earlier, rfl⟩
            refine ⟨raised.proper (.raised reads handles), .uncaught fun caught => ?_⟩
            rw [Caught, passes] at caught
            contradiction

theorem fromJson_isException (refused : Job.fromJson text = .error e) : e.isException = true := by
  unfold Job.fromJson Job.ofFields at refused
  split at refused
  · rename_i failure _
    cases refused
    cases failure <;> rfl
  · split at refused
    · cases refused
      rfl
    · split at refused <;> cases refused
      rfl
  · cases refused
    rfl

/-- What a look at the lanes comes to. -/
def looked : Post calls Unit (Option Job)
  | .ok none, h, _ => AtRest h
  | .ok (some job), h, _ =>
      ∃ earlier queues q text, h = earlier ++ [⟨.redis (.blpop queues), .ok (some (q, text))⟩] ∧
      InHand text [] h ∧ Job.fromJson text = .ok job
  | .error e, h, _ =>
      (AtRest h ∧ ∃ earlier queues, h = earlier ++ [⟨.redis (.blpop queues), .error e⟩]) ∨
      ∃ text, InHand text [] h ∧ Job.fromJson text = .error e

theorem obeys_dequeue (rest : AtRest h) (clear : cleared h = true) :
    RedisQueue.dequeue.Obeys turnProtocol looked h () := by
  apply obeys_bind_iff.mpr
  refine obeys_call ⟨rest.proper, rfl, rest.empty, clear⟩ fun reply _ _ => ?_
  match reply with
  | .error e => exact .inl ⟨rest.idles rfl, _, _, rfl⟩
  | .ok none => exact rest.idles rfl
  | .ok (some (q, text)) =>
      have inHand := rest.pops (x := ⟨.redis (.blpop [.high, .normal]), .ok (some (q, text))⟩) rfl
      refine obeys_bind_iff.mpr ?_
      cases reads : Job.fromJson text with
      | error e => exact .inr ⟨text, inHand, reads⟩
      | ok job => exact ⟨_, _, q, text, rfl, inHand, reads⟩

/-- After a look at the lanes that came to nothing, or to a text that is no job's, the worker
sleeps. -/
def given : Post calls Unit (Option Job)
  | .error e, h, _ => (account h).Proper ∧ Ends e h
  | result, h, v => looked result h v

theorem obeys_nextJob (rest : AtRest h) (clear : cleared h = true) :
    nextJob.Obeys turnProtocol given h () := by
  refine obeys_catching (obeys_dequeue rest clear) (fun _ _ _ holds => holds) ?_ ?_
  · rintro e h v - missed
    refine obeys_bind_iff.mpr ?_
    rcases missed with ⟨rest, -⟩ | ⟨text, inHand, refused⟩
    · refine obeys_call (⟨rest.proper, trivial⟩) fun reply _ _ => ?_
      cases reply with
      | ok x => exact rest.idles rfl
      | error e => exact ⟨(rest.idles rfl).proper, .uncaught id⟩
    · refine obeys_call (⟨inHand.proper .fresh, trivial⟩) fun reply _ _ => ?_
      have slept := inHand.done (x := ⟨.sleep 1, reply⟩) rfl rfl (.unread refused)
      cases reply with
      | ok x => exact slept
      | error e => exact ⟨slept.proper, .uncaught id⟩
  · rintro e h v passes (⟨rest, earlier, queues, rfl⟩ | ⟨text, inHand, refused⟩)
    · refine ⟨rest.proper, .uncaught fun caught => ?_⟩
      rw [Caught, passes] at caught
      contradiction
    · rw [fromJson_isException refused] at passes
      contradiction

/-- A pass of a worker that has nothing in hand. -/
theorem obeys_workerPass (rest : AtRest h) :
    (workerPass registered).Obeys turnProtocol turnEnds h () := by
  apply obeys_bind_iff.mpr
  refine obeys_call (⟨rest.proper, rest.empty⟩) fun reply _ _ => ?_
  match reply with
  | .error e => exact ⟨(rest.idles rfl).proper, .uncaught id⟩
  | .ok true => exact ⟨rest.idles rfl, .inr ⟨rfl, by simp⟩⟩
  | .ok false =>
      refine obeys_bind (obeys_nextJob (rest.idles rfl) (by rw [cleared_snoc]; rfl))
        (fun job h v came => ?_) fun e h v ended => ended
      cases job with
      | none => exact ⟨came, .inl rfl⟩
      | some job =>
          obtain ⟨earlier, queues, q, text, rfl, inHand, reads⟩ := came
          exact obeys_bind (obeys_runJob reads inHand) (fun _ h v rest =>
            ⟨rest, .inl rfl⟩) fun e h v ended => ended

/-! ### Runs -/

/-- Workers take turns, and visitors pop nothing; how the others do is said by their own
protocols. -/
def turns (i : CallId) : Protocol calls Unit :=
  match i.role with
  | .worker => turnProtocol
  | .visitor => ⟨fun _ c _ => Unpopping c, fun _ _ _ _ => True⟩
  | _ => ⟨fun _ _ _ => True, fun _ _ _ _ => True⟩

def turnsEnd (i : CallId) : Post calls Unit Returned :=
  match i.role with
  | .worker => turnEnds
  | _ => fun _ _ _ => True

theorem turns_tracks (s : Settings) : Tracks (runtime s) turns fun _ _ => () where
  effect {i seen call w reply w'} _ performed := by
    unfold turns
    split
    · cases call with
      | now =>
          cases reply with
          | ok t => trivial
          | error e => exact performed
      | _ => cases reply <;> trivial
    · trivial
    · trivial

theorem atRest_nil : AtRest [] :=
  ⟨⟨fun _ _ member => absurd member List.not_mem_nil,
    fun _ _ same => by simp [Account.new] at same⟩, rfl⟩

theorem entry_turns (entry : Entry) (role : entry.role = i.role) :
    (entry.program s).Obeys (turns i) (turnsEnd i) [] () := by
  unfold turns turnsEnd
  cases entry with
  | worker =>
      rw [← role]
      exact obeys_workerPass atRest_nil
  | enqueue job queue =>
      have within : ((Entry.enqueue job queue).program s).Within Unpopping :=
        within_bind (RedisQueue.within_enqueue fun _ => trivial) fun _ => trivial
      rw [← role]
      exact within.obeys (fun _ _ _ may => may) _ _
  | decide approvalId decision =>
      have within : ((Entry.decide approvalId decision).program s).Within Unpopping :=
        within_bind (within_decide (fun _ => trivial) trivial (fun _ _ => trivial) _ _) fun _ =>
          trivial
      rw [← role]
      exact within.obeys (fun _ _ _ may => may) _ _
  | commitPipeline payload | demoRequest payload | start numWorkers | release repo sha =>
      rw [← role]
      exact obeys_free (F := fun _ => True) (fun _ _ _ => trivial) (fun _ _ _ _ => trivial) trivial

/-- Every worker is at its turn, and only workers have an account. -/
structure Turning (s : Settings) (c : Pool) : Prop where
  obeys : c.Obeys turns turnsEnd fun _ _ => ()
  shadowed : ∃ g, Shadowed s c g
  proper : ∀ i, i.role = .worker → (account (c.threads i).past).Proper
  others : ∀ i, i.role ≠ .worker → account (c.threads i).past = .new

variable {c c' start : Pool} {trace : List RunEvent} {event : RunEvent}
    {reply : Except PyException x.call.Reply}

/-- Whoever looks at the lanes is a worker at its turn. -/
theorem Turning.pops {queues : List QueueName} {before : World}
    {reply : Except PyException (RedisCommand.blpop queues).Reply}
    (turning : Turning s c) (step : Step s c (.call i ⟨.redis (.blpop queues), reply⟩ before) c') :
    i.role = .worker ∧ queues = [.high, .normal] ∧ (account (c.threads i).past).hand = none := by
  obtain ⟨g, shadowed⟩ := turning.shadowed
  have mine := step.allowed turning.obeys
  have whole := step.allowed shadowed.obeys
  unfold turns at mine
  unfold protocol at whole
  cases role : i.role with
  | worker =>
      rw [role] at mine
      exact ⟨rfl, mine.2.1, mine.2.2.1⟩
  | visitor =>
      rw [role] at mine
      exact mine.elim
  | pipeline | starter | operator =>
      rw [role] at whole
      exact whole.elim

theorem step_turning (turning : Turning s c) (step : Step s c event c') : Turning s c' := by
  have pops (i : CallId) (x : Interaction calls) (before : World) (text : String)
    (same : event = .call i x before)
      (pop : popped x = some text) : i.role = .worker := by
    subst same
    unfold popped at pop
    split at pop
    · exact (turning.pops step).1
    · contradiction
  obtain ⟨obeys, ⟨g, shadowed⟩, proper, others⟩ := turning
  have after : c'.Obeys turns turnsEnd fun _ _ => () := by
    refine step.obeys (turns_tracks s) ?_ ?_ (fun _ _ _ _ _ obeys => obeys) obeys
    · rintro i p rfl
      cases step with
      | spawn unused entry =>
          obtain ⟨-, entry, role, rfl⟩ := entry
          exact entry_turns entry role
    · rintro i p seen a rfl returned ended
      cases step with
      | again returned' next =>
          obtain ⟨role, rfl, rfl⟩ := next
          unfold turnsEnd at ended
          unfold turns turnsEnd
          rw [role] at ended ⊢
          cases returned.symm.trans returned'
          exact obeys_workerPass ended.1
  refine ⟨after, step_shadowed shadowed step, ?_, fun i idle => ?_⟩
  · refine step.histories (Q := fun i h => i.role = .worker → (account h).Proper) after ?_ ?_ proper
    · intro i h call _ allowed role
      unfold turns at allowed
      rw [role] at allowed
      exact allowed.1
    · intro i result h _ ended role
      unfold turnsEnd at ended
      rw [role] at ended
      cases result with
      | ok r => exact ended.1.proper
      | error e => exact ended.1
  · rw [step.past i]
    cases own : event.own i with
    | none => simpa using others i idle
    | some x =>
        obtain ⟨before, rfl⟩ :=
          Event.mem_own.mp (by rw [own]; exact Option.mem_toList.mpr rfl : x ∈ (event.own i).toList)
        have none : popped x = none := by
          by_contra some
          obtain ⟨text, pop⟩ := Option.ne_none_iff_exists'.mp some
          exact idle (pops i x before text rfl pop)
        rw [Option.toList_some, account_snoc, others i idle, Account.next, none]
        rfl

theorem Fresh.turning (fresh : Fresh start) : Turning s start := by
  refine ⟨fun i seen rest active => ?_, ⟨_, fresh.shadowed fun _ => OwnRows.none⟩,
    fun i _ => ?_, fun i _ => ?_⟩
  · rw [fresh i] at active
    contradiction
  · rw [fresh i]
    exact atRest_nil.proper
  · rw [fresh i]
    rfl

theorem run_turning (fresh : Fresh start) (run : Transition.Run (Step s) start trace c) :
    Turning s c :=
  run.invariant step_turning (Fresh.turning fresh)

/-- A step of a run leaves the history of a worker, or adds a call that it may make at its turn. -/
theorem Turning.next (turning : Turning s c) (step : Step s c event c')
    (worker : i.role = .worker) : (c'.threads i).past = (c.threads i).past ∨
    ∃ x before, event = .call i x before ∧
      (c'.threads i).past = (c.threads i).past ++ [x] ∧ turnAllowed (c.threads i).past x.call := by
  rw [step.past i]
  cases own : event.own i with
  | none => exact .inl (by simp)
  | some x =>
      obtain ⟨before, rfl⟩ :=
        Event.mem_own.mp (by rw [own]; exact Option.mem_toList.mpr rfl : x ∈ (event.own i).toList)
      have allowed := step.allowed turning.obeys
      unfold turns at allowed
      rw [worker] at allowed
      exact .inr ⟨x, before, rfl, rfl, allowed⟩

/-- What holds of a history, whatever call of a worker's turn comes next, holds of every
worker's. -/
theorem run_turns {K : History → Prop} (fresh : Fresh start)
    (run : Transition.Run (Step s) start trace c) (worker : i.role = .worker)
    (first : K []) (next : ∀ h x, turnAllowed h x.call → K h → K (h ++ [x])) :
    K (c.threads i).past := by
  refine (run.invariant (P := fun d => Turning s d ∧ K (d.threads i).past) ?_
    ⟨Fresh.turning fresh, ?_⟩).2
  · rintro d event d' ⟨turning, holds⟩ step
    refine ⟨step_turning turning step, ?_⟩
    rcases turning.next step worker with same | ⟨x, before, -, same, allowed⟩
    · rwa [same]
    · rw [same]
      exact next _ x allowed holds
  · rw [fresh i]
    exact first

/-- A worker that pops has nothing in hand, so its account has every text that it popped. -/
theorem texts_next (allowed : turnAllowed h x.call) (all : h.filterMap popped = (account h).texts) :
    (h ++ [x]).filterMap popped = (account (h ++ [x])).texts := by
  rw [List.filterMap_append, all, account_snoc]
  unfold Account.next
  cases pop : popped x with
  | some text =>
      have empty : (account h).hand = none := by
        unfold popped at pop
        split at pop
        · exact allowed.2.2.1
        · contradiction
      simp [Account.texts, empty, pop]
  | none =>
      cases hand : (account h).hand with
      | none => simp [Account.texts, hand, pop]
      | some held =>
          obtain ⟨text, since⟩ := held
          dsimp only
          split <;> simp [Account.texts, hand, pop]

/-- Whatever happens, the texts that a worker popped are those of its account: all but the last were
settled, each as its job and its handler say, and the last is settled or on its way. -/
theorem texts_settled (fresh : Fresh start) (run : Transition.Run (Step s) start trace c)
    (worker : i.role = .worker) : (c.threads i).past.filterMap popped =
    (account (c.threads i).past).texts ∧ (account (c.threads i).past).Proper :=
  ⟨run_turns (K := fun h => h.filterMap popped = (account h).texts) fresh run worker rfl
    fun _ _ allowed => texts_next allowed,
    (run_turning fresh run).proper i worker⟩

theorem texts_settled_taken :
    ∃ trace c, Transition.Run (Step (.defaults "/root")) (Pool.waiting demoText) trace c ∧
    (account (c.threads ⟨1, 1, .worker⟩).past).hand = some (demoText, []) ∧
    (c.threads ⟨1, 1, .worker⟩).past.filterMap popped =
    (account (c.threads ⟨1, 1, .worker⟩).past).texts ∧
    (account (c.threads ⟨1, 1, .worker⟩).past).Proper := by
  obtain ⟨trace, c, c', seen, run, step, before, after, left⟩ := run_pops demoText
  refine ⟨_, c', run.next step, ?_, texts_settled (fun _ => rfl) (run.next step) rfl⟩
  have rest : (account (c.threads ⟨1, 1, .worker⟩).past).hand = none :=
    ((run_turning (fun _ => rfl) run).pops step).2.2
  rw [step.past ⟨1, 1, .worker⟩]
  simp [Event.own, Account.next, popped]

/-- A worker is over once it was told to stop, or by an exception that no clause of its loop
catches. -/
theorem worker_over {result : Except PyException Returned} (fresh : Fresh start)
    (run : Transition.Run (Step s) start trace c) (worker : i.role = .worker)
    (ended : c.threads i = .active h (.done result)) (final : result ≠ .ok .again) :
    (result = .ok .nothing ∧ ∃ before, .call i ⟨.stopIsSet, .ok true⟩ before ∈ trace ∧
      before.stopping i.process = true) ∨
      ∃ e, result = .error e ∧ Ends e h := by
  have ready := (run_turning fresh run).obeys i h _ ended
  unfold turnsEnd at ready
  rw [worker] at ready
  cases result with
  | error e => exact .inr ⟨e, rfl, ready.2⟩
  | ok r =>
      rcases ready.2 with rfl | ⟨rfl, told⟩
      · exact absurd rfl final
      · refine .inl ⟨rfl, ?_⟩
        have past : (c.threads i).past = h := by rw [ended]; rfl
        obtain ⟨before, member⟩ := (Machine.mem_past id run (fresh i)).mp (past ▸ told)
        obtain ⟨t, t', taken⟩ := run.taken member
        cases taken with
        | call awaiting performed => exact ⟨_, member, performed.1.symm⟩

/-- A worker is told to stop before its first job. -/
theorem run_told : ∃ trace c, Transition.Run (Step (.defaults "/root")) Pool.initial trace c ∧
    c.threads ⟨1, 1, .worker⟩ = .active [⟨.stopIsSet, .ok true⟩] (.done (.ok .nothing)) := by
  have told : Transition.Run (Transition.Guarded (Step (.defaults "/root")) fun _ _ _ =>
    True) Pool.initial [.drift]
      ⟨{ World.initial with stopping := Function.update World.initial.stopping 1 true }, fun _ =>
          .absent⟩ :=
    .single ⟨.drift (.inr ⟨1, rfl⟩), trivial⟩
  obtain ⟨events, -, run⟩ :=
    run_entry told ⟨1, 1, .worker⟩ .worker [⟨.stopIsSet, .ok true⟩] (.call ⟨rfl, rfl⟩ (.stop _ _))
    rfl rfl rfl
    (fun _ => trivial) (fun _ _ _ _ _ => trivial)
  exact ⟨_, _, run.unguard, rfl⟩

theorem worker_over_told :
    ∃ trace c, Transition.Run (Step (.defaults "/root")) Pool.initial trace c ∧
    ∃ before, .call ⟨1, 1, .worker⟩ ⟨.stopIsSet, .ok true⟩ before ∈ trace ∧
    before.stopping 1 = true := by
  obtain ⟨trace, c, run, ended⟩ := run_told
  refine ⟨trace, c, run, ?_⟩
  rcases worker_over (fun _ => rfl) run rfl ended (by simp) with ⟨-, told⟩ | ⟨e, same, -⟩
  · exact told
  · cases same

end WiseOrder.Orchestrator
