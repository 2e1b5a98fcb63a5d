import WiseOrder.Events.Handling
import WiseOrder.Foundation.Script

/-! Runs of the watcher. What the loop was given is what the handlers have handed
over, and each of it is read and pushed by a coroutine of its own; so nothing that
a handler has noted is lost while every call is answered. -/
namespace WiseOrder.EventWatcher
open Coroutine
variable {repos : List String} {i : CallId} {start c c' : WatchPool} {trace : List WatchEvent}
  {e : WatchEvent} {j : Party} {seen : List (Interaction watchCalls)}

/-- What the calls of a trace say through `f`, in the order of the calls. -/
def recorded (f : Interaction watchCalls → Option (String × String)) (trace : List WatchEvent) :
    List (String × String) :=
  (trace.filterMap Event.made).filterMap f

/-- The commits that jobs were pushed for. -/
def enqueued (trace : List WatchEvent) : List (String × String) := recorded pushed trace

/-- The repositories and values that `_last_sha` was moved to. -/
def advances (trace : List WatchEvent) : List (String × String) := recorded advanced trace

/-- The watcher has made its handlers, and none of them has done anything yet. -/
structure Fresh (start : WatchPool) : Prop where
  threads : ∀ j, start.threads j = .absent
  scheduled : start.world.scheduled = []

/-- Every call is answered as one that nothing fails. -/
def Serving (_ : WatchPool) (e : WatchEvent) (_ : WatchPool) : Prop :=
  ∀ j x before, e = .call j x before → Heard j x

/-- What a handler has noted and has not handed over yet, or its coroutine has not brought to an
end. -/
def UnderWay (c : WatchPool) (commit : String × String) : Prop :=
  (∃ j, (c.threads j).Live ∧ ∃ x ∈ (c.threads j).past, advanced x = some commit) ∨
    ∃ n e, c.world.scheduled[n]? = some e ∧ e.commit = commit ∧
      (c.threads (.emission n) = .absent ∨ (c.threads (.emission n)).Live)

/-- `HEAD` is still the commit and the handler does not know it any more, so that a later event
would try it again. -/
def PutBack (c : WatchPool) (commit : String × String) : Prop :=
  (c.world.heads commit.1).head? = some commit.2 ∧ c.world.lastSha commit.1 ≠ some commit.2

/-! ### What the loop was given -/

theorem perform_scheduled {w w' : Watched} {call : WatchCall}
    {reply : Except PyException call.Reply} (performed : Watched.perform i call w reply w') :
    ∃ more, w'.scheduled = w.scheduled ++ more ∧ more.map Emission.commit =
    (handedOver ⟨call, reply⟩).toList := by
  cases call with
  | checkOutput cmd =>
      obtain ⟨-, rfl⟩ := performed
      exact ⟨[], by simp, rfl⟩
  | loop =>
      cases reply with
      | ok s =>
          cases performed
          exact ⟨[], by simp, rfl⟩
      | error e => exact performed.elim
  | getLastSha repo =>
      cases reply with
      | ok last =>
          obtain ⟨-, rfl⟩ := performed
          exact ⟨[], by simp, rfl⟩
      | error e => exact performed.elim
  | setLastSha repo sha =>
      cases reply with
      | ok u =>
          cases performed
          exact ⟨[], by simp, rfl⟩
      | error e => exact performed.elim
  | schedule repo prev sha =>
      cases reply with
      | ok u =>
          cases performed
          exact ⟨[⟨repo, prev, sha⟩], rfl, rfl⟩
      | error e =>
          cases performed
          exact ⟨[], by simp, rfl⟩
  | getQueue =>
      cases reply <;> cases performed <;> exact ⟨[], by simp, rfl⟩
  | run call =>
      obtain ⟨world, -, rfl⟩ := performed
      exact ⟨[], by simp, rfl⟩

theorem step_scheduled (step : (watching repos i).Step c e c') :
    ∃ more, c'.world.scheduled = c.world.scheduled ++ more ∧
      more.map Emission.commit = (e.made.bind handedOver).toList := by
  cases step with
  | spawn => exact ⟨[], by simp, rfl⟩
  | call awaiting performed => exact perform_scheduled performed
  | again returned next => exact next.elim
  | drift moved => exact ⟨[], by simpa using moved.2.1, rfl⟩
  | crash fell => exact fell.elim

theorem recorded_snoc (f : Interaction watchCalls → Option (String × String)) :
    recorded f (trace ++ [e]) = recorded f trace ++ (e.made.bind f).toList := by
  rw [recorded, recorded, List.filterMap_append, List.filterMap_append]
  congr 1
  cases made : e.made with
  | none => simp [made]
  | some x => cases named : f x <;> simp [made, named]

theorem run_scheduled (fresh : Fresh start)
    (run : Transition.Run (watching repos i).Step start trace c) :
    c.world.scheduled.map Emission.commit = recorded handedOver trace := by
  refine run.traced (P := fun past d => d.world.scheduled.map Emission.commit =
    recorded handedOver past) ?_ ?_
  · rw [fresh.scheduled]
    rfl
  · intro past d e d' _ before step
    obtain ⟨more, grown, gives⟩ := step_scheduled step
    rw [grown, List.map_append, before, gives, recorded_snoc]

theorem scheduled_grows (run : Transition.Run (watching repos i).Step start trace c) :
    start.world.scheduled <+: c.world.scheduled := by
  refine run.relation (R := fun d d' => d.world.scheduled <+: d'.world.scheduled)
    (fun _ => List.prefix_refl _) ?_ ?_
  · intro s t u first second
    exact first.trans second
  · intro d e d' step
    obtain ⟨more, grown, -⟩ := step_scheduled step
    exact ⟨more, grown.symm⟩

/-! ### Threads -/

/-- No thread of the watcher is taken away. -/
theorem never_lost (fresh : Fresh start)
    (run : Transition.Run (watching repos i).Step start trace c) :
    c.threads j ≠ .lost seen := by
  refine run.invariant (P := fun d => ∀ j seen, d.threads j ≠ .lost seen) ?_ ?_ j seen
  · intro d e d' kept step j seen
    cases step with
    | @spawn k p unused entry | @call k _ call onReply reply world awaiting performed =>
        by_cases mine : j = k
        · subst j
          simp
        · simpa [Function.update_of_ne mine] using kept j seen
    | again returned next => exact next.elim
    | drift moved => exact kept j seen
    | crash fell => exact fell.elim
  · intro j seen
    simp [fresh.threads j]

theorem mem_recorded (fresh : Fresh start)
    (run : Transition.Run (watching repos i).Step start trace c)
    {f : Interaction watchCalls → Option (String × String)} {commit : String × String} :
    commit ∈ recorded f trace ↔ ∃ j, commit ∈ (c.threads j).past.filterMap f := by
  simp only [recorded, List.mem_filterMap]
  constructor
  · rintro ⟨x, ⟨e, member, made⟩, named⟩
    cases e with
    | call j y before =>
        cases Option.some.inj made
        exact ⟨j, x, (Machine.mem_past id run (fresh.threads j)).mpr ⟨before, member⟩, named⟩
    | _ => simp [Event.made] at made
  · rintro ⟨j, x, member, named⟩
    obtain ⟨before, there⟩ := (Machine.mem_past id run (fresh.threads j)).mp member
    exact ⟨x, ⟨_, there, rfl⟩, named⟩

/-- The program that a thread was spawned with. -/
def ranBy (repos : List String) (c : WatchPool) : Party → Watch Unit → Prop
  | .event _, p => ∃ repo srcPath, p = onAnyEvent repo srcPath
  | .reconcile, p => p = reconcileAfterStart repos
  | .emission n, p => ∃ e, c.world.scheduled[n]? = some e ∧ p = emitCommit e.repo e.prevSha e.newSha

theorem program_of (run : Transition.Run (watching repos i).Step start trace c) {p : Watch Unit}
    (spawned : .spawn j p ∈ trace) : ranBy repos c j p := by
  obtain ⟨past, rest, rfl⟩ := List.append_of_mem spawned
  obtain ⟨d, d', -, taken, later⟩ := run.split_at
  cases taken with
  | spawn unused entry =>
      have grown := scheduled_grows later
      cases j with
      | event n =>
          obtain ⟨-, repo, -, srcPath, rfl⟩ := entry
          exact ⟨repo, srcPath, rfl⟩
      | reconcile => exact entry
      | emission n =>
          obtain ⟨e, there, rfl⟩ := entry
          obtain ⟨more, same⟩ := grown
          obtain ⟨bound, -⟩ := List.getElem?_eq_some_iff.mp there
          exact ⟨e, by rw [← same, ← there]; exact List.getElem?_append_left bound, rfl⟩

/-- A thread that was answered and has ended: a coroutine has pushed its commit, and a handler has
handed over what it noted. -/
def Ended (c : WatchPool) : Party → List (Interaction watchCalls) → Prop
  | .emission n, seen => ∃ e, c.world.scheduled[n]? = some e ∧ seen.filterMap pushed = [e.commit] ∧
      seen.filterMap advanced = [] ∧ seen.filterMap handedOver = []
  | _, seen => Hands seen

theorem serving_heard {c c' : WatchPool} {x : Interaction watchCalls} {before : Watched}
    (step : Transition.Guarded (watching repos i).Step Serving c (.call j x before) c') :
    Answers j x := by
  refine ⟨step.2 j x before rfl, ?_⟩
  cases step.1 with
  | @call _ _ call onReply reply _ _ performed =>
      cases call <;> cases reply <;> trivial

theorem ended_done (fresh : Fresh start)
    (run : Transition.Run (Transition.Guarded (watching repos i).Step Serving) start trace c)
    {result : Except PyException Unit} (ended : c.threads j = .active seen (.done result)) :
    Ended c j seen := by
  obtain ⟨p, spawned⟩ := Machine.spawned_within
    (fun taken => taken.1) run (fresh.threads j) (by simp [ended])
  have runs := program_of run.unguard spawned
  have answers {Q : Except PyException Unit → List (Interaction watchCalls) → Prop}
    (answered : p.Answered (Answers j) Q []) :
      Q result seen :=
    Machine.run_answers (m := watching repos i) (fun taken => taken.1) serving_heard run spawned
      (fun _ _ _ next => next) answered ended
  cases j with
  | event n =>
      obtain ⟨repo, srcPath, rfl⟩ := runs
      have looked := answers answered_onAnyEvent
      split at looked
      · exact looked.hands (.inr rfl)
      · subst seen
        exact ⟨rfl, rfl⟩
  | reconcile =>
      cases runs
      obtain ⟨loop, made, rfl, looks⟩ := answers answered_reconcileAfterStart
      have asked : Hands [⟨.loop, .ok loop⟩] := ⟨rfl, rfl⟩
      exact asked.append looks.hands
  | emission n =>
      obtain ⟨e, there, rfl⟩ := runs
      exact ⟨e, there, answers answered_emitCommit⟩

/-! ### One repository -/

/-- A repository whose `HEAD` has been `heads`, and a handler that knew `a1` and has noted
`noted`. -/
def remembering (heads noted : List String) (scheduled : List Emission) : Watched where
  world := World.initial
  heads := fun repo => if repo = "/srv/app" then heads else []
  lastSha := noted.foldl (fun known sha => Function.update known "/srv/app" (some sha)) fun _ =>
    some "a1"
  scheduled := scheduled

/-- The watcher of `/srv/app` where its handler knows `a1`. -/
def knowing : WatchPool := ⟨remembering ["a1"] [] [], fun _ => .absent⟩

theorem fresh_knowing : Fresh knowing := ⟨fun _ => rfl, rfl⟩

theorem reply_remembering {heads noted : List String} (sha : String) {scheduled : List Emission}
    {out : List UInt8} (bytes : out = sha.toUTF8.data.toList ++ [10]) {repo : String}
    (same : headCmd "/srv/app" = headCmd repo) :
    (remembering (sha :: heads) noted scheduled).headReply repo (.ok out) := by
  obtain rfl : "/srv/app" = repo := by simpa [headCmd] using same
  exact bytes

/-- `HEAD` of the repository has gone to `b2`. -/
theorem run_moved (condition : WatchPool → WatchEvent → WatchPool → Prop)
    (drifts : ∀ c c', condition c .drift c') :
    Transition.Run (Transition.Guarded (watching ["/srv/app"] ⟨1, 0, .visitor⟩).Step condition)
    knowing [.drift]
      ⟨remembering ["b2", "a1"] [] [], knowing.threads⟩ := by
  refine .single ⟨.drift ⟨rfl, rfl, fun repo => ?_⟩, drifts _ _⟩
  by_cases here : repo = "/srv/app"
  · exact ⟨["b2"], by simp [knowing, remembering, here]⟩
  · exact ⟨[], by simp [knowing, remembering, here]⟩

/-- What the handler does until it asks for the loop. -/
def noting : List (Interaction watchCalls) := [
  ⟨.checkOutput (headCmd "/srv/app"), .ok [98, 50, 10]⟩, ⟨.getLastSha "/srv/app", .ok (some "a1")⟩,
  ⟨.getLastSha "/srv/app", .ok (some "a1")⟩, ⟨.setLastSha "/srv/app" "b2", .ok ()⟩]

theorem entry_noting : (watching ["/srv/app"] ⟨1, 0, .visitor⟩).spawn ⟨remembering ["b2", "a1"] []
      [], knowing.threads⟩ (.event 0)
    (onAnyEvent "/srv/app" "/srv/app/.git/HEAD") := by
  refine ⟨fun other => ?_, "/srv/app", by simp, _, rfl⟩
  rintro ⟨seen, rest, there, -⟩
  contradiction

theorem noting_past {script : List (Interaction watchCalls)} {result : Except PyException Unit}
    (j : Party) : (Function.update knowing.threads (.event 0) (.active script (.done result))
      j).past = if j = .event 0 then script else [] := by
  by_cases here : j = .event 0
  · subst j
    rfl
  · simp [here, Thread.past, knowing]

/-- What the coroutine does for the commit. -/
def emitting : List (Interaction watchCalls) := [
  ⟨.checkOutput (authorCmd "/srv/app" "b2"), .ok [65]⟩, ⟨.checkOutput (subjectCmd "/srv/app" "b2"),
    .ok [66]⟩,
  ⟨.checkOutput (showCmd "/srv/app" "b2"), .ok [67]⟩, ⟨.getQueue, .ok ()⟩, ⟨.run .uuid4, .ok "7f"⟩,
    ⟨.run .now, .ok (0 : Time)⟩,
  ⟨.run (.redis (.rpush .normal (Job.new "7f" "commit_pipeline" (commitPayload
    ⟨"/srv/app", "b2", "A", "B", "C"⟩ (some "a1")) 0).asdict.dumps)),
    .ok ()⟩]

/-- The handler has found the loop, and handed the commit over. -/
def handing : List (Interaction watchCalls) :=
  noting ++ [⟨.loop, .ok .accepting⟩, ⟨.schedule "/srv/app" (some "a1") "b2", .ok ()⟩]

def handed : WatchPool := ⟨remembering ["b2", "a1"] ["b2"] [⟨"/srv/app", some "a1", "b2"⟩],
  Function.update knowing.threads (.event 0) (.active handing (.done (.ok ())))⟩

/-- The coroutine has ended too. -/
def concluded (made : List (Interaction watchCalls)) (result : Except PyException Unit)
    (world : World) : WatchPool :=
  ⟨{ handed.world with world := world }, Function.update handed.threads (.emission 0)
    (.active made (.done result))⟩

def settled (world : World) : WatchPool := concluded emitting (.ok ()) world

section
variable {made : List (Interaction watchCalls)} {result : Except PyException Unit} {world : World}

theorem concluded_past (j : Party) : ((concluded made result world).threads j).past =
    if j = .emission 0 then made else if j = .event 0 then handing else [] := by
  by_cases coroutine : j = .emission 0
  · subst j
    rfl
  · rw [concluded, handed]
    dsimp only
    rw [Function.update_of_ne coroutine, noting_past, if_neg coroutine]

theorem settled_past (j : Party) : ((settled world).threads j).past =
    if j = .emission 0 then emitting else if j = .event 0 then handing else [] := concluded_past j

theorem concluded_ended (j : Party) : ¬ ((concluded made result world).threads j).Live := by
  rintro ⟨seen, rest, thread, waiting⟩
  rw [concluded, handed] at thread
  dsimp only at thread
  by_cases coroutine : j = .emission 0
  · subst j
    cases thread
    exact waiting
  · rw [Function.update_of_ne coroutine] at thread
    by_cases handler : j = .event 0
    · subst j
      cases thread
      exact waiting
    · rw [Function.update_of_ne handler] at thread
      contradiction

end

theorem heard_handing {x : Interaction watchCalls} (member : x ∈ handing) : Heard (.event 0) x := by
  simp only [handing, noting, List.mem_append, List.mem_cons, List.not_mem_nil, or_false] at member
  rcases member with (rfl | rfl | rfl | rfl) | rfl | rfl <;> simp [Heard]

theorem heard_emitting {x : Interaction watchCalls} (member : x ∈ emitting) :
    Heard (.emission 0) x := by
  simp only [emitting, List.mem_cons, List.not_mem_nil, or_false] at member
  rcases member with rfl | rfl | rfl | rfl | rfl | rfl | rfl
  · exact fun _ => ⟨"A", rfl⟩
  · exact fun _ => ⟨"B", rfl⟩
  · exact fun _ => ⟨"C", rfl⟩
  · rfl
  all_goals exact ⟨_, rfl⟩

/-- The handler hands the commit to the loop. -/
theorem run_handed (condition : WatchPool → WatchEvent → WatchPool → Prop)
    (drifts : ∀ c c', condition c .drift c')
    (starts : ∀ c' p, condition ⟨remembering ["b2", "a1"] [] [],
      knowing.threads⟩ (.spawn (.event 0) p) c')
    (admitted : ∀ c x before c', x ∈ handing → condition c (.call (.event 0) x before) c') :
    ∃ trace, Transition.Run
    (Transition.Guarded (watching ["/srv/app"] ⟨1, 0, .visitor⟩).Step condition) knowing trace
      handed := by
  have plays : Plays ((watching ["/srv/app"] ⟨1, 0, .visitor⟩).perform (.event 0))
    (onAnyEvent "/srv/app" "/srv/app/.git/HEAD")
      (remembering ["b2", "a1"] [] []) handing (.done (.ok ())) handed.world :=
    .call ⟨fun repo => reply_remembering "b2" rfl,
      rfl⟩ (.call ⟨rfl, rfl⟩ (.call ⟨rfl, rfl⟩ (.call rfl (.call rfl
      (.call rfl (.stop _ _))))))
  obtain ⟨_, -, run⟩ := Machine.run_spawned (run_moved condition drifts) rfl entry_noting plays
    (fun c' => starts c' _) admitted
  exact ⟨_, run⟩

theorem entry_emission : (watching ["/srv/app"] ⟨1, 0, .visitor⟩).spawn
      ⟨handed.world, handed.threads⟩ (.emission 0)
    (emitCommit "/srv/app" (some "a1") "b2") := ⟨_, rfl, rfl⟩

/-- What git says where it is not asked for `HEAD`. -/
theorem describes {cmd : List String} (differs : ∀ repo, cmd ≠ headCmd repo)
    (w : Watched) (out : List UInt8) :
    Watched.perform ⟨1, 0, .visitor⟩ (.checkOutput cmd) w (.ok out) w :=
  ⟨fun repo same => absurd same (differs repo), rfl⟩

/-- With every call answered the job of `b2` is pushed. -/
theorem run_settled : ∃ trace world,
    Transition.Run (Transition.Guarded (watching ["/srv/app"] ⟨1, 0, .visitor⟩).Step Serving)
    knowing trace (settled world) := by
  obtain ⟨_, handles⟩ := run_handed Serving (fun _ _ _ _ _ same => by contradiction)
    (fun _ _ _ _ _ same => by contradiction)
    fun d x before d' member j y before' same => by
      cases same
      exact heard_handing member
  obtain ⟨world, emits⟩ : ∃ world,
    Plays ((watching ["/srv/app"] ⟨1, 0, .visitor⟩).perform (.emission 0))
      (emitCommit "/srv/app" (some "a1") "b2") handed.world emitting (.done (.ok ()))
          { handed.world with world := world } :=
    ⟨_, .call (describes (by simp [authorCmd, headCmd]) _ _)
      (.call (describes (by simp [subjectCmd, headCmd]) _ _)
      (.call (describes (by simp [showCmd, headCmd]) _ _)
        (.call rfl (.call ⟨_, rfl, rfl⟩ (.call ⟨_, ⟨rfl, rfl⟩, rfl⟩
        (.call ⟨_, ⟨_, rfl, rfl⟩, rfl⟩ (.stop _ _)))))))⟩
  obtain ⟨_, -, run⟩ := Machine.run_spawned handles rfl entry_emission emits
    (fun _ _ _ _ same => by contradiction)
    fun d x before d' member j y before' same => by
      cases same
      exact heard_emitting member
  exact ⟨_, world, run⟩

/-! ### Nothing noted is lost -/

/-- As long as every call is answered, whatever a handler has noted has been enqueued, or is on its
way there. -/
theorem observed_kept (fresh : Fresh start)
    (run : Transition.Run (Transition.Guarded (watching repos i).Step Serving) start trace c) :
    ∀ commit ∈ advances trace, commit ∈ enqueued trace ∨ UnderWay c commit := by
  intro commit noted
  obtain ⟨j, member⟩ := (mem_recorded fresh run.unguard).mp noted
  obtain ⟨x, there, same⟩ := List.mem_filterMap.mp member
  cases thread : c.threads j with
  | absent => simp [thread, Thread.past] at there
  | lost seen => exact absurd thread (never_lost fresh run.unguard)
  | active seen rest =>
      cases rest with
      | await call onReply => exact .inr (.inl ⟨j, ⟨seen, _, thread, trivial⟩, x, there, same⟩)
      | done result =>
          rw [thread] at member
          have given : commit ∈ seen.filterMap handedOver := by
            cases j with
            | emission n =>
                obtain ⟨e, -, -, none, -⟩ := ended_done fresh run thread
                rw [Thread.past, none] at member
                contradiction
            | event n | reconcile =>
                have hands : Hands seen := ended_done fresh run thread
                rw [← hands.1]
                exact member
          have handed : commit ∈ c.world.scheduled.map Emission.commit := by
            rw [run_scheduled fresh run.unguard, mem_recorded fresh run.unguard]
            exact ⟨j, by rw [thread]; exact given⟩
          obtain ⟨e, listed, rfl⟩ := List.mem_map.mp handed
          obtain ⟨n, found⟩ := List.mem_iff_getElem?.mp listed
          have onWay (waiting : c.threads (.emission n) = .absent ∨
              (c.threads (.emission n)).Live) : UnderWay c e.commit :=
            .inr ⟨n, e, found, rfl, waiting⟩
          cases coroutine : c.threads (.emission n) with
          | absent => exact .inr (onWay (.inl coroutine))
          | lost seen => exact absurd coroutine (never_lost fresh run.unguard)
          | active past rest =>
              cases rest with
              | await call onReply => exact .inr (onWay (.inr ⟨past, _, coroutine, trivial⟩))
              | done result =>
                  obtain ⟨e', found', pushes, -⟩ := ended_done fresh run coroutine
                  cases Option.some.inj (found.symm.trans found')
                  refine .inl ((mem_recorded fresh run.unguard).mpr ⟨.emission n, ?_⟩)
                  rw [coroutine, Thread.past, pushes]
                  exact List.mem_singleton.mpr rfl

theorem observed_kept_settled : ∃ world trace,
    Transition.Run (Transition.Guarded (watching ["/srv/app"] ⟨1, 0, .visitor⟩).Step Serving)
    knowing trace (settled world) ∧ (("/srv/app", "b2") ∈ enqueued trace ∨
      UnderWay (settled world) ("/srv/app", "b2")) := by
  obtain ⟨trace, world, run⟩ := run_settled
  have noted : ("/srv/app", "b2") ∈ advances trace :=
    (mem_recorded fresh_knowing run.unguard).mpr ⟨.event 0, by simp [settled_past, handing, noting,
      advanced]⟩
  exact ⟨world, trace, run, observed_kept fresh_knowing run _ noted⟩

/-- The author is not text in UTF-8: the handler has noted and handed over a commit whose coroutine
raises. -/
theorem observed_lost : ∃ (start c : WatchPool) (trace : List WatchEvent), Fresh start ∧
    Transition.Run (watching ["/srv/app"] ⟨1, 0, .visitor⟩).Step start trace c ∧
    ("/srv/app", "b2") ∈ advances trace ∧ ¬ (("/srv/app", "b2") ∈ enqueued trace ∨
      PutBack c ("/srv/app", "b2") ∨ UnderWay c ("/srv/app", "b2")) := by
  obtain ⟨_, handles⟩ := run_handed (fun _ _ _ => True) (fun _ _ => trivial)
    (fun _ _ => trivial) fun _ _ _ _ _ => trivial
  have unread : Plays ((watching ["/srv/app"] ⟨1, 0, .visitor⟩).perform (.emission 0))
    (emitCommit "/srv/app" (some "a1") "b2")
      handed.world [⟨.checkOutput (authorCmd "/srv/app" "b2"), .ok [0xFF]⟩]
      (.done (.error ⟨.unicodeDecodeError, "'utf-8' codec can't decode bytes"⟩)) handed.world :=
    .call (describes (by simp [authorCmd, headCmd]) _ _) (.stop _ _)
  obtain ⟨_, -, run⟩ := Machine.run_spawned handles rfl entry_emission unread
    (fun _ => trivial) fun _ _ _ _ _ => trivial
  refine ⟨knowing, concluded _ _ World.initial, _, fresh_knowing, run.unguard,
    (mem_recorded fresh_knowing run.unguard).mpr ⟨.event 0, ?_⟩, ?_⟩
  · simp [Thread.past, handing, noting, advanced]
  · rintro (pushes | ⟨-, back⟩ | ⟨j, live, -⟩ | ⟨n, e, given, -, waiting⟩)
    · obtain ⟨j, member⟩ :=
        (mem_recorded fresh_knowing (c := concluded _ _ World.initial) run.unguard).mp pushes
      rw [concluded_past] at member
      split at member
      · simp [pushed] at member
      · split at member <;> simp [handing, noting, pushed] at member
    · exact back rfl
    · exact concluded_ended j live
    · cases n with
      | zero => exact waiting.elim (fun absent => by simp [concluded] at absent) (concluded_ended _)
      | succ n => simp [concluded, handed, remembering] at given

end WiseOrder.EventWatcher
