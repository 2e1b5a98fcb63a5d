import WiseOrder.Foundation.WorkQueue
import WiseOrder.Orchestrator.WorkerTurns

/-! The lanes of jobs as lanes of work for the workers. As long as Redis does not do what it then
says that it has not done, every run of the program is a run of such lanes. -/
namespace WiseOrder.Orchestrator
open Coroutine Coroutine.Program
variable {s : Settings} {i : CallId} {c c' start : Pool} {event : RunEvent} {trace : List RunEvent}
    {r r' : Redis} {q : QueueName} {text : String}

/-- A command that raises has done nothing to the lanes. -/
def Lossless (c : Pool) (event : RunEvent) (c' : Pool) : Prop :=
  ∀ i command e before, event = .call i ⟨.redis command, .error e⟩ before →
    c'.world.redis.lists = c.world.redis.lists

/-- What waits in the lanes, what each worker has in hand, and what was called for the texts that it
has settled. -/
def board (c : Pool) : WorkQueue.Board QueueName String CallId History where
  waiting := c.world.redis.lists
  held i := (account (c.threads i).past).hand.map Prod.fst
  settled i := (account (c.threads i).past).settled

def sights : RunEvent → List (WorkQueue.Sight QueueName String CallId)
  | .call _ ⟨.redis (.rpush q text), .ok _⟩ _ => [.joined q text]
  | .call i ⟨.redis (.blpop _), .ok (some (q, text))⟩ _ => [.left q text i]
  | _ => []

/-- The order in which a worker looks at the lanes. -/
def order : List QueueName := [.high, .normal]

/-- A pop takes the first text of the first lane that has one. -/
theorem pop_spec {queues : List QueueName} (popped : r.pop queues = (some (q, text), r')) :
    ∃ earlier later rest, queues = earlier ++ q :: later ∧ (∀ l ∈ earlier, r.lists l = []) ∧
    r.lists q = text :: rest ∧
      r'.lists = Function.update r.lists q rest := by
  induction queues with
  | nil =>
      cases popped
  | cons first others ih =>
      simp only [Redis.pop] at popped
      split at popped
      · rename_i empty
        obtain ⟨earlier, later, rest, rfl, none, head, lists⟩ := ih popped
        refine ⟨first :: earlier, later, rest, rfl, fun l member => ?_, head, lists⟩
        rcases List.mem_cons.mp member with rfl | there
        · exact empty
        · exact none l there
      · rename_i head rest items
        cases popped
        exact ⟨[], others, rest, rfl, fun l member => absurd member List.not_mem_nil, items, rfl⟩

theorem pop_none {queues : List QueueName} (popped : r.pop queues = (none, r')) : r' = r := by
  induction queues with
  | nil =>
      cases popped
      rfl
  | cons first others ih =>
      simp only [Redis.pop] at popped
      split at popped
      · exact ih popped
      · cases popped

/-- A command that is no push and no pop leaves the lanes. -/
theorem run_lists {now : Time} {command : RedisCommand} {x : command.Reply}
    (ran : command.run now r = .ok (x, r')) (push : ∀ q text, command ≠ .rpush q text)
    (pop : ∀ queues, command ≠ .blpop queues) : r'.lists = r.lists := by
  cases command with
  | setNx key value ex => rcases RedisCommand.run_setNx ran with ⟨-, -, rfl⟩ | ⟨-, -, rfl⟩ <;> rfl
  | setEx key value ex => rw [RedisCommand.run_setEx ran]; rfl
  | rpush q text => exact absurd rfl (push q text)
  | blpop queues => exact absurd rfl (pop queues)
  | lrange queue start stop => rw [(RedisCommand.run_lrange ran).2]
  | get | delete | llen =>
      cases (Prod.mk.inj (Except.ok.inj ran)).2
      rfl

/-- What a call does to the lanes, unless it raises: a push, a pop of a text, or nothing that is
seen. -/
theorem call_lists {w w' : World} {x : Interaction calls}
    (performed : perform i x.call w x.reply w')
    (lossless : ∀ command e, x = ⟨.redis command, .error e⟩ → w'.redis.lists = w.redis.lists) :
    (∃ q text, x = ⟨.redis (.rpush q text), .ok ()⟩ ∧ w'.redis = w.redis.push q text) ∨
      (∃ queues q text, x = ⟨.redis (.blpop queues), .ok (some (q, text))⟩ ∧
        w.redis.pop queues = (some (q, text), w'.redis)) ∨
      (∀ before, sights (.call i x before) = []) ∧ popped x = none ∧
      w'.redis.lists = w.redis.lists := by
  obtain ⟨call, reply⟩ := x
  cases call with
  | redis command =>
      cases reply with
      | error e =>
          refine .inr (.inr ⟨fun before => ?_, ?_, lossless command e rfl⟩)
          · cases command <;> rfl
          · cases command <;> rfl
      | ok x =>
          obtain ⟨r, ran, rfl⟩ := performed
          cases command with
          | rpush q text =>
              cases (Prod.mk.inj (Except.ok.inj ran)).2
              exact .inl ⟨q, text, rfl, rfl⟩
          | blpop queues =>
              have ran : w.redis.pop queues = (x, r) := Except.ok.inj ran
              match x, ran with
              | none, ran =>
                  exact .inr (.inr ⟨fun before => rfl, rfl, congrArg Redis.lists (pop_none ran)⟩)
              | some (q, text), ran => exact .inr (.inl ⟨queues, q, text, rfl, ran⟩)
          | setNx | setEx | get | delete | lrange | llen =>
              exact .inr (.inr ⟨fun before => rfl, rfl, run_lists ran (by simp) (by simp)⟩)
  | _ =>
      have same := congrArg Redis.lists ((perform_frame performed).redis fun command => by simp)
      refine .inr (.inr ⟨fun before => rfl, rfl, same⟩)

/-- A call is popped, leaves the account as it is seen, or settles the text in hand. -/
theorem next_cases (a : Account) (x : Interaction calls) (pop : popped x = none) :
    ((a.next x).settled = a.settled ∧ (a.next x).hand.map Prod.fst = a.hand.map Prod.fst) ∨
      ∃ text since, a.hand = some (text, since) ∧ a.next x =
        ⟨a.settled ++ [(text, since ++ [x])], none⟩ := by
  unfold Account.next
  rw [pop]
  cases hand : a.hand with
  | none => exact .inl ⟨rfl, by rw [hand]⟩
  | some taken =>
      obtain ⟨text, since⟩ := taken
      dsimp only
      split
      · exact .inr ⟨text, since, rfl, rfl⟩
      · exact .inl ⟨rfl, rfl⟩

/-! ### Refinement -/

theorem board_same (lists : c'.world.redis.lists = c.world.redis.lists)
    (past : ∀ i, (c'.threads i).past = (c.threads i).past) : board c' = board c := by
  unfold board
  simp only [lists, past]

/-- The board after a call that is no pop: the lanes are as they are then, and what was in hand may
be settled. -/
theorem board_settles {x : Interaction calls} {before : World}
    (step : Step s c (.call i x before) c') (pop : popped x = none) :
    ∃ moves, Transition.Run (WorkQueue.Step order)
    { board c with waiting := c'.world.redis.lists } moves (board c') ∧
      moves.flatMap WorkQueue.Move.sights = [] := by
  have mine : account (c'.threads i).past = (account (c.threads i).past).next x := by
    rw [step.past i, Event.own, if_pos rfl, Option.toList_some, account_snoc]
  have others (j : CallId) (other : j ≠ i) : (c'.threads j).past = (c.threads j).past := by
    rw [step.past j, Event.own, if_neg (Ne.symm other), Option.toList_none, List.append_nil]
  rcases next_cases (account (c.threads i).past) x pop with
    ⟨settled, hand⟩ | ⟨text, since, hand, next⟩
  · refine ⟨[], ?_, rfl⟩
    have same : board c' = { board c with waiting := c'.world.redis.lists } := by
      unfold board
      congr 1
      · funext j
        by_cases here : j = i
        · subst j
          rw [mine, hand]
        · rw [others j here]
      · funext j
        by_cases here : j = i
        · subst j
          rw [mine, settled]
        · rw [others j here]
    rw [same]
    exact .refl _
  · refine ⟨[.settle i text (since ++ [x])], ?_, rfl⟩
    have same : board c' = WorkQueue.Board.settle { board c with waiting := c'.world.redis.lists } i
        text (since ++ [x]) := by
      unfold board WorkQueue.Board.settle
      congr 1
      · funext j
        by_cases here : j = i
        · subst j
          rw [mine, next, Function.update_self]
          rfl
        · rw [others j here, Function.update_of_ne here]
      · funext j
        by_cases here : j = i
        · subst j
          rw [mine, next, Function.update_self]
        · rw [others j here, Function.update_of_ne here]
    rw [same]
    exact .single (.settle i text (since ++ [x]) (by simp [board, hand]))

theorem step_board (turning : Turning s c) (step : Step s c event c')
    (lossless : Lossless c event c') : ∃ moves, Transition.Run (WorkQueue.Step order) (board c)
    moves (board c') ∧ moves.flatMap WorkQueue.Move.sights = sights event := by
  have quiet (still : ∀ i, event.own i = none) (lists : c'.world.redis.lists = c.world.redis.lists)
    (unseen : sights event = []) :
      ∃ moves, Transition.Run (WorkQueue.Step order) (board c) moves (board c') ∧
          moves.flatMap WorkQueue.Move.sights = sights event := by
    refine ⟨[], ?_, unseen.symm⟩
    rw [board_same lists fun i => by rw [step.past i, still i, Option.toList_none, List.append_nil]]
    exact .refl _
  cases event with
  | spawn i p =>
      refine quiet (fun _ => rfl) ?_ rfl
      cases step with
      | spawn unused entry => rfl
  | again i p =>
      refine quiet (fun _ => rfl) ?_ rfl
      cases step with
      | again returned next => rfl
  | drift =>
      refine quiet (fun _ => rfl) ?_ rfl
      cases step with
      | drift moved => rcases moved with ⟨t, -, rfl⟩ | ⟨process, rfl⟩ <;> rfl
  | crash dead =>
      refine quiet (fun _ => rfl) ?_ rfl
      cases step with
      | crash fell killed spared =>
          obtain ⟨process, -, rfl⟩ := fell
          rfl
  | call i x before =>
      have performed : perform i x.call c.world x.reply c'.world := by
        cases step with
        | call awaiting performed => exact performed
      rcases call_lists performed fun command e same => lossless i command e before (by rw [same])
        with ⟨q, text, rfl, pushed⟩ | ⟨queues, q, text, rfl, popped⟩ | ⟨unseen, pop, lists⟩
      · obtain ⟨moves, run, silent⟩ := board_settles step rfl
        refine ⟨.put q text :: moves, ?_, by rw [List.flatMap_cons, silent]; rfl⟩
        have put : WorkQueue.Step order (board c) (.put q text)
            { board c with waiting := c'.world.redis.lists } := by
          rw [pushed]
          exact .put q text
        exact (Transition.Run.single put).trans run
      · obtain ⟨role, rfl, empty⟩ := turning.pops step
        obtain ⟨earlier, later, rest, looked, none, first, lists⟩ := pop_spec popped
        refine ⟨[.take i q text], ?_, rfl⟩
        have took : board c' = (board c).take i q text rest := by
          unfold board WorkQueue.Board.take
          congr 1
          · funext j
            by_cases here : j = i
            · subst j
              rw [step.past i, Event.own, if_pos rfl, Option.toList_some,
                account_snoc, Function.update_self]
              rfl
            · rw [step.past j, Event.own, if_neg (Ne.symm here), Option.toList_none,
                List.append_nil, Function.update_of_ne here]
          · funext j
            by_cases here : j = i
            · subst j
              rw [step.past i, Event.own, if_pos rfl, Option.toList_some, account_snoc]
              rfl
            · rw [step.past j, Event.own, if_neg (Ne.symm here),
                Option.toList_none, List.append_nil]
        rw [took]
        exact .single (.take i q text rest (by simp [board, empty]) looked none first)
      · obtain ⟨moves, run, silent⟩ := board_settles step pop
        refine ⟨moves, ?_, by rw [silent, unseen]⟩
        have same : { board c with waiting := c'.world.redis.lists } = board c := by rw [lists]; rfl
        rwa [same] at run

/-- Every run of the program in which no reply of Redis is lost is a run of lanes of work, with the
same texts put in and handed out. -/
theorem run_board (fresh : Fresh start)
    (run : Transition.Run (Transition.Guarded (Step s) Lossless) start trace c) :
    ∃ moves, Transition.Run (WorkQueue.Step order) (board start) moves (board c) ∧
      moves.flatMap WorkQueue.Move.sights = trace.flatMap sights :=
  run.observe board (fun turning taken => step_turning turning taken.1)
    (fun turning taken => step_board turning taken.1 taken.2) (Fresh.turning fresh)

/-! ### Turns of a worker -/

section
variable {w : World} {name copied : String} {job : Job}

/-- A worker pops a text. -/
def pops (q : QueueName) (text : String) : History :=
  [⟨.stopIsSet, .ok false⟩, ⟨.redis (.blpop order), .ok (some (q, text))⟩]

theorem afterPop_job (reads : Job.fromJson text = .ok job) : afterPop (.ok (some (q, text))) = (do
    runJob registered job
    return Returned.again) := by
  rw [afterPop, reads]
  rfl

/-- A turn of the loop with a job whose handler returns. -/
theorem plays_returned (result : Json) (awake : w.stopping i.process = false)
    (popped : w.redis.pop order = (some (q, text), r)) (reads : Job.fromJson text = .ok job)
    (handles : handlerOf registered job.type = .ok (some name)) :
    Plays (perform i) (workerPass registered) w
    (pops q text ++ [⟨.handler name job.payload, .ok result⟩]) (.done (.ok .again))
    { w with redis := r } := by
  refine .call ⟨awake.symm, rfl⟩ (.call ⟨r, congrArg Except.ok popped, rfl⟩ ?_)
  change Plays (perform i) (afterPop (.ok (some (q, text)))) _ _ _ _
  rw [afterPop_job reads, runJob, handles]
  exact .call rfl (.stop _ _)

/-- A turn with a job whose handler raises. -/
theorem plays_raised (e : PyException) (awake : w.stopping i.process = false)
    (popped : w.redis.pop order = (some (q, text), r)) (reads : Job.fromJson text = .ok job)
    (handles : handlerOf registered job.type = .ok (some name)) (caught : e.isException = true)
    (letter : job.deadLetter w.clock e.text = .ok copied) :
    Plays (perform i) (workerPass registered) w
    (pops q text ++ [⟨.handler name job.payload, .error e⟩,
      ⟨.now, .ok w.clock⟩, ⟨.redis (.rpush .failed copied), .ok ()⟩]) (.done (.ok .again))
      { w with redis := r.push .failed copied } := by
  refine .call ⟨awake.symm, rfl⟩ (.call ⟨r, congrArg Except.ok popped, rfl⟩ ?_)
  change Plays (perform i) (afterPop (.ok (some (q, text)))) _ _ _ _
  rw [afterPop_job reads, runJob, handles]
  refine .call rfl ?_
  change Plays (perform i) ((if e.isException = true then RedisQueue.fail job e.text
    else Program.raise e) >>= fun _ => return Returned.again) _ _ _ _
  rw [if_pos caught]
  refine .call ⟨rfl, rfl⟩ ?_
  change Plays (perform i) ((Program.ofExcept (job.deadLetter w.clock e.text) >>= fun text =>
    redis (.rpush .failed text)) >>= fun _ => return Returned.again) _ _ _ _
  rw [letter]
  exact .call ⟨_, rfl, rfl⟩ (.stop _ _)

def commitJob : Job := .new "1b9c" "commit_pipeline" samplePayload 0

def commitText : String := commitJob.asdict.dumps

theorem commitText_reads : Job.fromJson commitText = .ok commitJob :=
  Job.fromJson_within (by simp [commitJob, samplePayload, payloadOf, Job.new, Job.asdict,
    Json.Distinct, Json.DistinctFields, Json.DistinctItems])
    (by decide) (by decide)

def failedCommit : Job :=
  { commitJob with attempt := .int 1, notes := .arr [.str (Job.failureNote 0 "1" "overloaded")] }

theorem commit_letter : commitJob.deadLetter 0 "overloaded" = .ok failedCommit.asdict.dumps :=
  Job.toJson_within failedCommit (by decide) (by decide)

/-- A runtime with two texts on each lane. -/
def Pool.stocked : Pool :=
  ⟨{ World.initial with redis := (((Redis.empty.push .high demoText).push .high commitText).push
    .normal demoText).push .normal commitText },
    fun _ => .absent⟩

/-- What the worker calls for the two urgent jobs, of which the second fails. -/
def stockedScript : History :=
  (pops .high demoText ++ [⟨.handler "demo_request" demoJob.payload, .ok (.obj [])⟩]) ++
    (pops .high commitText ++
      [⟨.handler "commit_pipeline" commitJob.payload, .error (.runtimeError "overloaded")⟩,
      ⟨.now, .ok (0 : Time)⟩, ⟨.redis (.rpush .failed failedCommit.asdict.dumps), .ok ()⟩])

/-- No command of Redis in the script raised. -/
def Answers (script : History) : Prop := ∀ x ∈ script, x.raised = none ∨
    ∀ command, x.call ≠ .redis command

theorem lossless_answers {script : History} (answers : Answers script) :
    ∀ c x before c', x ∈ script → Lossless c (.call i x before) c' := by
  rintro c x before c' member j command e w same
  cases same
  rcases answers _ member with none | other
  · cases none
  · exact absurd rfl (other command)

/-- A worker goes through another turn. -/
theorem run_turn {start : Pool} {past : List RunEvent} {w w' : World}
    {threads : CallId → Thread calls Returned} {seen : History} {p : Async Returned}
    (script : History)
    (earlier : Transition.Run (Transition.Guarded (Step s) Lossless) start past ⟨w, threads⟩)
    (worker : i.role = .worker) (returned : threads i = .active seen (.done (.ok .again)))
    (plays : Plays (perform i) (workerPass registered) w script p w')
    (answers : Answers script) :
    ∃ trace, Transition.Run (Transition.Guarded (Step s) Lossless) start trace
      ⟨w', Function.update threads i (.active (seen ++ script) p)⟩ := by
  have begun := earlier.next ⟨.again returned ⟨worker, rfl, rfl⟩,
    fun j command e before same => by cases same⟩
  obtain ⟨events, -, run⟩ :=
    Machine.run_plays begun (Function.update_self ..) plays (lossless_answers answers)
  rw [Function.update_idem] at run
  exact ⟨_, run⟩

/-- A worker takes three of the texts: it handles the first, fails the second, and has the third in
hand. -/
theorem run_stocked : ∃ trace c rest,
    Transition.Run (Transition.Guarded (Step (.defaults "/root")) Lossless) Pool.stocked trace c ∧
    (∀ i, c.threads i ≠ .absent → i ∈ [⟨1, 1, .worker⟩]) ∧ c.threads ⟨1, 1, .worker⟩ = .active
    (stockedScript ++ pops .normal demoText) rest ∧ c.world.redis.lists .high = [] ∧
    c.world.redis.lists .normal = [commitText] ∧ c.world.redis.lists .failed =
    [failedCommit.asdict.dumps] := by
  have spawned := run_spawn (run_start (.defaults "/root") Lossless Pool.stocked)
    ⟨1, 1, .worker⟩ .worker rfl rfl rfl
    fun _ i command e before same => by cases same
  obtain ⟨_, -, handled⟩ := Machine.run_plays spawned (Function.update_self ..)
    (plays_returned (.obj []) rfl rfl demoText_reads rfl)
      (lossless_answers (by simp [Answers, pops, Interaction.raised]))
  obtain ⟨_, failed⟩ := run_turn _ handled rfl (Function.update_self ..)
    (plays_raised (.runtimeError "overloaded") rfl rfl commitText_reads rfl rfl commit_letter)
      (by simp [Answers, pops, Interaction.raised])
  obtain ⟨_, taken⟩ := run_turn (pops .normal demoText) failed rfl (Function.update_self ..)
    (.call ⟨rfl, rfl⟩ (.call ⟨_, rfl, rfl⟩ (.stop _ _)))
      (by simp [Answers, pops, Interaction.raised])
  refine ⟨_, _, _, taken, fun i there => ?_, rfl, rfl, rfl, rfl⟩
  by_contra other
  dsimp only at there
  simp only [Function.update_idem] at there
  rw [Function.update_of_ne fun same => other (List.mem_singleton.mpr same)] at there
  exact there rfl

end

/-! ### Lanes -/

/-- The texts that were pushed to a lane, in order. -/
def pushedTo (q : QueueName) (trace : List RunEvent) : List String :=
  (trace.flatMap sights).flatMap (WorkQueue.Sight.joinedIn q)

/-- The texts of a lane that workers took, in order. -/
def takenFrom (q : QueueName) (trace : List RunEvent) : List String :=
  (trace.flatMap sights).flatMap (WorkQueue.Sight.leftFrom q)

theorem run_lanes (fresh : Fresh start)
    (run : Transition.Run (Transition.Guarded (Step s) Lossless) start trace c) (q : QueueName) :
    start.world.redis.lists q ++ pushedTo q trace = takenFrom q trace ++ c.world.redis.lists q := by
  obtain ⟨moves, followed, same⟩ := run_board fresh run
  have lane := WorkQueue.run_lane followed q
  rwa [same] at lane

theorem run_untaken (fresh : Fresh start)
    (run : Transition.Run (Transition.Guarded (Step s) Lossless) start trace c) :
    takenFrom .failed trace = [] := by
  obtain ⟨moves, followed, same⟩ := run_board fresh run
  refine List.flatMap_eq_nil_iff.mpr fun sight shown => ?_
  cases sight with
  | joined q text => rfl
  | left q text worker =>
      have looked := WorkQueue.run_left followed (same ▸ shown)
      by_cases failed : q = .failed
      · subst q
        simp [order] at looked
      · exact if_neg failed

/-- A lane hands its texts out in the order in which they were pushed, failed jobs are never handed
out, and a normal job only when no urgent one waits. -/
theorem lanes_in_order (fresh : Fresh start)
    (run : Transition.Run (Transition.Guarded (Step s) Lossless) start trace c) :
    (∀ q, start.world.redis.lists q ++ pushedTo q trace = takenFrom q trace ++
      c.world.redis.lists q) ∧ takenFrom .failed trace = [] ∧
      ∀ i queues text before, .call i ⟨.redis (.blpop queues), .ok (some (.normal, text))⟩ before ∈
        trace → before.redis.lists .high = [] := by
  refine ⟨run_lanes fresh run, run_untaken fresh run, fun i queues text before member => ?_⟩
  obtain ⟨past, rest, rfl⟩ := List.append_of_mem member
  obtain ⟨t, t', earlier, taken, -⟩ := run.split_at
  obtain ⟨-, rfl, -⟩ := (run_turning fresh earlier.unguard).pops taken.1
  cases taken.1 with
  | call awaiting performed =>
      obtain ⟨r, ran, -⟩ := performed
      obtain ⟨before, after, left, looked, none, -, -⟩ := pop_spec (Except.ok.inj ran)
      have urgent : QueueName.high ∈ before := by
        cases before with
        | nil => simp at looked
        | cons first others =>
            rw [List.cons_append, List.cons.injEq] at looked
            exact looked.1 ▸ List.mem_cons_self
      exact none .high urgent

/-- Of four texts the worker takes three, in order, and pushes one copy. -/
theorem lanes_in_order_takes :
    ∃ trace c, Transition.Run
    (Transition.Guarded (Step (.defaults "/root")) Lossless) Pool.stocked trace c ∧
    [demoText, commitText] ++ pushedTo .high trace = takenFrom .high trace ∧
    [demoText, commitText] ++ pushedTo .normal trace = takenFrom .normal trace ++ [commitText] ∧
    pushedTo .failed trace = [failedCommit.asdict.dumps] := by
  obtain ⟨trace, c, rest, run, -, -, high, normal, failed⟩ := run_stocked
  obtain ⟨lanes, untaken, -⟩ := lanes_in_order (fun _ => rfl) run
  refine ⟨trace, c, run, ?_, ?_, ?_⟩
  · have lane := lanes .high
    rwa [high, List.append_nil] at lane
  · have lane := lanes .normal
    rwa [normal] at lane
  · have lane := lanes .failed
    rwa [failed, untaken] at lane

theorem thread_known {x : Interaction calls} {before : World} (fresh : Fresh start)
    (run : Transition.Run (Step s) start trace c) (member : .call i x before ∈ trace) :
    c.threads i ≠ .absent := by
  intro absent
  have past := (Machine.mem_past id run (fresh i)).mpr ⟨before, member⟩
  rw [absent] at past
  exact List.not_mem_nil past

theorem left_call (seen : .left q text i ∈ trace.flatMap sights) :
    ∃ x before, .call i x before ∈ trace := by
  obtain ⟨event, member, shown⟩ := List.mem_flatMap.mp seen
  unfold sights at shown
  split at shown
  · simp at shown
  · cases List.mem_singleton.mp shown
    exact ⟨_, _, member⟩
  · exact absurd shown List.not_mem_nil

/-- Every text that was pushed to a lane of jobs waits there, or one worker took it, once. -/
theorem run_conserved {ids : List CallId} (fresh : Fresh start)
    (run : Transition.Run (Transition.Guarded (Step s) Lossless) start trace c)
    (once : ids.Nodup) (known : ∀ i, c.threads i ≠ .absent → i ∈ ids) :
    ([.high, .normal].flatMap fun q => start.world.redis.lists q ++ pushedTo q trace).Perm
      ([.high, .normal].flatMap c.world.redis.lists ++ ids.flatMap fun i =>
        (account (c.threads i).past).texts) := by
  obtain ⟨moves, followed, same⟩ := run_board fresh run
  have idle (i : CallId) : (board start).had i = [] := by
    unfold board WorkQueue.Board.had
    simp only [fresh i]
    rfl
  have conserved := WorkQueue.run_conserves followed idle (by decide : order.Nodup) once
      fun q text worker seen => by
    obtain ⟨x, before, member⟩ := left_call (same ▸ seen)
    exact known worker (thread_known fresh run.unguard member)
  rw [same] at conserved
  exact conserved

/-! ### What was called for the texts -/

variable {β : Type} {f : Interaction calls → Option β} {h since : History} {x : Interaction calls}

/-- What the calls for the texts of an account come to. -/
def Account.tally (f : Interaction calls → Option β) (a : Account) : List β :=
  (a.settled.flatMap fun e => e.2.filterMap f) ++ a.hand.toList.flatMap fun e => e.2.filterMap f

theorem tally_next (empty : (account h).hand = none → f x = none)
    (pops : popped x ≠ none → (account h).hand = none)
    (tallied : h.filterMap f = (account h).tally f) :
    (h ++ [x]).filterMap f = (account (h ++ [x])).tally f := by
  rw [List.filterMap_append, tallied, account_snoc]
  unfold Account.next
  cases pop : popped x with
  | some text =>
      have rest := pops (by simp [pop])
      simp [Account.tally, rest, empty rest]
  | none =>
      cases hand : (account h).hand with
      | none => simp [Account.tally, hand, empty hand]
      | some taken =>
          obtain ⟨text, since⟩ := taken
          dsimp only
          split <;> simp [Account.tally, hand]

/-- A worker makes the calls that are made with a text in hand for the texts that it took, and for
nothing else. -/
theorem worker_tally (fresh : Fresh start) (run : Transition.Run (Step s) start trace c)
    (worker : i.role = .worker)
    (held : ∀ h x, turnAllowed h x.call → (account h).hand = none → f x = none) :
    (c.threads i).past.filterMap f = (account (c.threads i).past).tally f := by
  refine run_turns (K := fun h => h.filterMap f = (account h).tally f) fresh run worker rfl
    fun h x allowed tallied => ?_
  refine tally_next (held _ _ allowed) (fun pops => ?_) tallied
  unfold popped at pops
  split at pops
  · exact allowed.2.2.1
  · exact absurd rfl pops

/-- What the job of a text is to be handled by, and with what. -/
def delivery (text : String) : Option (String × Json) :=
  match Job.fromJson text with
  | .error _ => none
  | .ok job => match handlerOf registered job.type with
      | .ok (some name) => some (name, job.payload)
      | _ => none

def handedOver : Interaction calls → Option (String × Json)
  | ⟨.handler name payload, _⟩ => some (name, payload)
  | _ => none

theorem Ran.delivered {ran : History} (done : Ran text ran) :
    ran.filterMap handedOver = (delivery text).toList := by
  cases done with
  | unread refused => simp [handedOver, delivery, refused]
  | returned reads handles | raised reads handles => simp [handedOver, delivery, reads, handles]
  | unhandled reads none => simp [handedOver, delivery, reads, none]

theorem Underway.delivered (underway : Underway text since) :
    since.filterMap handedOver = [] ∨ since.filterMap handedOver = (delivery text).toList := by
  cases underway with
  | fresh | unhandled | unhandledUnpushed => exact .inl rfl
  | raised reads handles | dated reads handles | unpushed reads handles =>
      simp [handedOver, delivery, reads, handles]

/-- A worker calls the handler of each job that it took, in order, once, but for the last if it has
not come to that. -/
theorem worker_delivers (fresh : Fresh start) (run : Transition.Run (Step s) start trace c)
    (worker : i.role = .worker) : ∃ due, due.length ≤ 1 ∧
      (account (c.threads i).past).texts.filterMap delivery =
      (c.threads i).past.filterMap handedOver ++ due := by
  have tallied := worker_tally (f := handedOver) fresh run worker fun h x allowed empty => by
    unfold handedOver
    split
    · obtain ⟨text, mine⟩ := allowed.2
      rw [empty] at mine
      contradiction
    · rfl
  have proper := (run_turning fresh run).proper i worker
  have settled : ((account (c.threads i).past).settled.flatMap fun e => e.2.filterMap handedOver) =
      ((account (c.threads i).past).settled.map Prod.fst).filterMap delivery := by
    rw [List.filterMap_map, List.filterMap_eq_flatMap_toList]
    exact List.flatMap_congr fun e member => (proper.settled e.1 e.2 member).delivered
  rw [tallied, Account.tally, Account.texts, List.filterMap_append, settled]
  cases hand : (account (c.threads i).past).hand with
  | none => exact ⟨[], by simp, by simp⟩
  | some taken =>
      obtain ⟨text, since⟩ := taken
      have single : (Option.map Prod.fst (some (text, since))).toList.filterMap delivery =
          (delivery text).toList := by
        cases due : delivery text <;> simp [due]
      rw [single]
      rcases (proper.hand text since hand).delivered with none | all
      · exact ⟨(delivery text).toList, by cases delivery text <;> simp, by simp [none]⟩
      · exact ⟨[], by simp, by simp [all]⟩

/-- Every text that was pushed waits in its lane, or one worker took it, once; and the workers have
called, in order and once, the handler of each job that they took, but for the one in hand. So no
job is handled twice, nor handled that was not pushed. -/
theorem jobs_delivered {ids : List CallId} (fresh : Fresh start)
    (run : Transition.Run (Transition.Guarded (Step s) Lossless) start trace c)
    (once : ids.Nodup) (known : ∀ i, c.threads i ≠ .absent → i ∈ ids) :
    ([.high, .normal].flatMap fun q => start.world.redis.lists q ++ pushedTo q trace).Perm
        ([.high, .normal].flatMap c.world.redis.lists ++ ids.flatMap fun i =>
          (account (c.threads i).past).texts) ∧
      (∀ i, i.role = .worker → ∃ due, due.length ≤ 1 ∧
        (account (c.threads i).past).texts.filterMap delivery =
        (c.threads i).past.filterMap handedOver ++ due) ∧
      ((ids.filter (·.role = .worker)).flatMap fun i =>
        (c.threads i).past.filterMap handedOver).Subperm
        (([.high, .normal].flatMap fun q => start.world.redis.lists q ++ pushedTo q trace).filterMap
          delivery) := by
  have conserved := run_conserved fresh run once known
  have delivers (i : CallId) (worker : i.role = .worker) :=
    worker_delivers (i := i) fresh run.unguard worker
  refine ⟨conserved, delivers, List.Subperm.trans ?_ (conserved.filterMap delivery).symm.subperm⟩
  rw [List.filterMap_append]
  refine (List.Sublist.trans ?_ (List.sublist_append_right _ _)).subperm
  clear once known conserved
  induction ids with
  | nil => exact List.Sublist.refl _
  | cons i rest ih =>
      rw [List.flatMap_cons, List.filterMap_append, List.filter_cons]
      split
      · rename_i worker
        obtain ⟨due, -, same⟩ := delivers i (of_decide_eq_true worker)
        rw [List.flatMap_cons, same, List.append_assoc]
        exact (List.Sublist.refl _).append (ih.trans (List.sublist_append_right _ _))
      · exact ih.trans (List.sublist_append_right _ _)

/-- The worker has called two handlers, and has another text in hand. -/
theorem jobs_delivered_takes :
    ∃ trace c, Transition.Run
    (Transition.Guarded (Step (.defaults "/root")) Lossless) Pool.stocked trace c ∧
    ([.high, .normal].flatMap fun q => Pool.stocked.world.redis.lists q ++ pushedTo q trace).Perm
      ([.high, .normal].flatMap c.world.redis.lists ++ [⟨1, 1, .worker⟩].flatMap fun i =>
        (account (c.threads i).past).texts) ∧
    (c.threads ⟨1, 1, .worker⟩).past.filterMap handedOver =
      [("demo_request", demoJob.payload), ("commit_pipeline", commitJob.payload)] ∧
    ∃ due, due.length ≤ 1 ∧ (account (c.threads ⟨1, 1, .worker⟩).past).texts.filterMap delivery =
      (c.threads ⟨1, 1, .worker⟩).past.filterMap handedOver ++ due := by
  obtain ⟨trace, c, rest, run, known, active, -⟩ := run_stocked
  obtain ⟨conserved, delivers, -⟩ :=
    jobs_delivered (fun _ => rfl) run (List.nodup_singleton _) known
  exact ⟨trace, c, run, conserved, by rw [active]; rfl, delivers _ rfl⟩

/-! ### Failed jobs -/

def pushedFailed : Interaction calls → Option String
  | ⟨.redis (.rpush .failed text), .ok _⟩ => some text
  | _ => none

def pushes (h : History) : List String := h.filterMap pushedFailed

theorem underway_pushes (underway : Underway text since) : pushes since = [] := by
  cases underway <;> rfl

/-- A worker pushes failed copies for the texts that it took, and for nothing else. -/
theorem worker_pushes (fresh : Fresh start) (run : Transition.Run (Step s) start trace c)
    (worker : i.role = .worker) : pushes (c.threads i).past =
    (account (c.threads i).past).settled.flatMap fun e => pushes e.2 := by
  have tallied := worker_tally (f := pushedFailed) fresh run worker fun h x allowed empty => by
    unfold pushedFailed
    split
    · exact absurd empty allowed.2.2
    · rfl
  rw [pushes, tallied, Account.tally]
  cases hand : (account (c.threads i).past).hand with
  | none => simp [pushes]
  | some taken =>
      have underway :=
        underway_pushes (((run_turning fresh run).proper i worker).hand taken.1 taken.2 hand)
      unfold pushes at underway
      simp [underway, pushes]

/-- What becomes of a text: no copy if its handler returned or it is no job's, and otherwise one
copy of the job, with an attempt more and a note of why it failed. -/
inductive DeadLettered (text : String) (ran : History) : Prop where
  | kept (none : pushes ran = []) (why : (∃ e, Job.fromJson text = .error e) ∨
      ∃ job name result, Job.fromJson text = .ok job ∧
        (⟨.handler name job.payload, .ok result⟩ : Interaction calls) ∈ ran)
  | copied {job copy : Job} {now error pushed} (reads : Job.fromJson text = .ok job)
      (failed : job.failed now error = .ok copy)
      (written : copy.toJson = .ok pushed) (one : pushes ran = [pushed])
        (why : handlerOf registered job.type = .ok none ∧ error = noHandler job.type ∨
        ∃ name e, (⟨.handler name job.payload, .error e⟩ : Interaction calls) ∈ ran ∧
          error = e.text)

theorem Ran.deadLettered {ran : History} (done : Ran text ran) : DeadLettered text ran := by
  cases done with
  | unread refused => exact .kept rfl (.inl ⟨_, refused⟩)
  | returned reads handles => exact .kept rfl (.inr ⟨_, _, _, reads, List.mem_singleton.mpr rfl⟩)
  | raised reads handles caught copied =>
      obtain ⟨copy, failed, written⟩ := Job.deadLetter_ok copied
      exact .copied reads failed written rfl (.inr ⟨_, _, List.mem_cons_self, rfl⟩)
  | unhandled reads none copied =>
      obtain ⟨copy, failed, written⟩ := Job.deadLetter_ok copied
      exact .copied reads failed written rfl (.inl ⟨none, rfl⟩)

theorem sights_failed (event : RunEvent) :
    (sights event).flatMap (WorkQueue.Sight.joinedIn .failed) =
    (event.made.bind pushedFailed).toList := by
  cases event with
  | call i x before =>
      obtain ⟨call, reply⟩ := x
      cases call with
      | redis command =>
          cases command with
          | rpush q text => cases reply <;> cases q <;> rfl
          | blpop queues =>
              match reply with
              | .error e => rfl
              | .ok none => rfl
              | .ok (some (q, text)) => rfl
          | _ => cases reply <;> rfl
      | _ => cases reply <;> rfl
  | _ => rfl

theorem pushedTo_made (trace : List RunEvent) :
    pushedTo .failed trace = (trace.filterMap Event.made).filterMap pushedFailed := by
  unfold pushedTo
  rw [List.flatMap_assoc, List.filterMap_filterMap, List.filterMap_eq_flatMap_toList]
  exact congrArg (List.flatMap · trace) (funext sights_failed)

/-- The failed jobs are those that were there, and the copies pushed by the calls, where a worker
pushes one for each of its texts whose handler raised or that no handler takes, and no other. -/
theorem failed_jobs {ids : List CallId} (fresh : Fresh start)
    (run : Transition.Run (Transition.Guarded (Step s) Lossless) start trace c)
    (once : ids.Nodup) (known : ∀ i, c.threads i ≠ .absent → i ∈ ids) :
    (c.world.redis.lists .failed).Perm (start.world.redis.lists .failed ++ ids.flatMap fun i =>
      pushes (c.threads i).past) ∧
      ∀ i, i.role = .worker →
      (pushes (c.threads i).past = (account (c.threads i).past).settled.flatMap fun e =>
        pushes e.2) ∧
        ∀ text ran, (text, ran) ∈ (account (c.threads i).past).settled → DeadLettered text ran := by
  refine ⟨?_, fun i worker => ⟨worker_pushes fresh run.unguard worker, fun text ran member =>
    (((run_turning fresh run.unguard).proper i worker).settled text ran member).deadLettered⟩⟩
  have lane := run_lanes fresh run .failed
  rw [run_untaken fresh run, List.nil_append] at lane
  rw [← lane, pushedTo_made]
  refine List.Perm.append_left _ ?_
  have made := (made_perm once fun i x before member =>
    known i (thread_known fresh run.unguard member)).filterMap pushedFailed
  refine made.trans (.of_eq ?_)
  rw [List.filterMap_flatMap]
  refine congrArg (List.flatMap · ids) (funext fun i => ?_)
  rw [Machine.run_past id run.unguard i, fresh i]
  rfl

/-- Of the two texts that are settled one has a copy in the list. -/
theorem failed_jobs_takes :
    ∃ trace c, Transition.Run
    (Transition.Guarded (Step (.defaults "/root")) Lossless) Pool.stocked trace c ∧
    c.world.redis.lists .failed = [failedCommit.asdict.dumps] ∧
    (c.world.redis.lists .failed).Perm
    ([⟨1, 1, .worker⟩].flatMap fun i => pushes (c.threads i).past) ∧
    ∀ text ran, (text, ran) ∈ (account (c.threads ⟨1, 1, .worker⟩).past).settled →
    DeadLettered text ran := by
  obtain ⟨trace, c, rest, run, known, -, -, -, failed⟩ := run_stocked
  obtain ⟨copies, letters⟩ := failed_jobs (fun _ => rfl) run (List.nodup_singleton _) known
  exact ⟨trace, c, run, failed, copies, (letters _ rfl).2⟩

end WiseOrder.Orchestrator
