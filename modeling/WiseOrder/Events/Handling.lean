import WiseOrder.Events.Watcher

/-! What each thread of the watcher has done when it has ended: how a handler that
found `HEAD` moved has noted it and handed it to the loop, and how a coroutine that
was handed one has enqueued its job. -/
namespace WiseOrder.EventWatcher
open Coroutine Coroutine.Program
variable {repo prev sha text : String} {seen : List (Interaction watchCalls)}

/-- The commit that the text of a job is for. -/
def commitNamed (blob : String) : Option (String × String) :=
  match Job.fromJson blob with
  | .ok job =>
      match job.type, job.payload with
      | .str "commit_pipeline", .obj fields =>
          match Json.lookup "repo" fields, Json.lookup "sha" fields with
          | some (.str repo), some (.str sha) => some (repo, sha)
          | _, _ => none
      | _, _ => none
  | .error _ => none

def pushed : Interaction watchCalls → Option (String × String)
  | ⟨.run (.redis (.rpush .normal blob)), .ok _⟩ => commitNamed blob
  | _ => none

def advanced : Interaction watchCalls → Option (String × String)
  | ⟨.setLastSha repo sha, .ok _⟩ => some (repo, sha)
  | _ => none

def handedOver : Interaction watchCalls → Option (String × String)
  | ⟨.schedule repo _ sha, .ok _⟩ => some (repo, sha)
  | _ => none

/-- Text of git that is not read as `HEAD` is. -/
def described (cmd : List String) : Prop :=
  ∃ repo sha, cmd = authorCmd repo sha ∨ cmd = subjectCmd repo sha

/-- The answers of a watcher that nothing fails: a handler finds the loop, the loop takes what it is
given, git describes commits in UTF-8 or with the errors that are handled, and the job is pushed. -/
def Heard : Party → Interaction watchCalls → Prop
  | .event _, ⟨.loop, reply⟩ => reply = .ok .accepting
  | _, ⟨.schedule .., reply⟩ => reply = .ok ()
  | .emission _, ⟨.checkOutput cmd, .ok out⟩ => described cmd → ∃ text, Python.decode out = .ok text
  | .emission _, ⟨.checkOutput _, .error e⟩ => e.kind ∈ gitErrors
  | .emission _, ⟨.getQueue, reply⟩ => reply = .ok ()
  | .emission _, ⟨.run _, reply⟩ => ∃ x, reply = .ok x
  | _, _ => True

/-- The attributes of a handler can always be read and written. -/
def Attributes : Interaction watchCalls → Prop
  | ⟨.loop, .error _⟩ | ⟨.getLastSha _, .error _⟩ | ⟨.setLastSha .., .error _⟩ => False
  | _ => True

def Answers (i : Party) (x : Interaction watchCalls) : Prop := Heard i x ∧ Attributes x

/-! ### Coroutines -/

/-- The job of a commit. -/
def commitJob (id : String) (now : Time) (event : GitCommitEvent) (prevSha : Option String) : Job :=
  Job.new id "commit_pipeline" (commitPayload event prevSha) now

theorem commitJob_limits (id : String) (now : Time) (event : GitCommitEvent)
    (prevSha : Option String) :
    (commitJob id now event prevSha).asdict.nesting ≤ Python.encoding.depth ∧
    (commitJob id now event prevSha).asdict.longest ≤ Python.encoding.digits := by
  obtain ⟨deep, short⟩ := Job.new_limits id "commit_pipeline" (commitPayload event prevSha) now
  rw [commitJob, deep, short]
  cases prevSha <;>
    simp [commitPayload, Json.nesting, Json.nestingFields, Json.longest,
      Json.longestFields, Python.encoding]

theorem commitNamed_job (id : String) (now : Time) (event : GitCommitEvent)
    (prevSha : Option String) : commitNamed (commitJob id now event prevSha).asdict.dumps =
      some (event.repo, event.sha) := by
  have distinct : (commitJob id now event prevSha).asdict.Distinct := by
    cases prevSha <;> simp [commitJob, Job.new, Job.asdict, commitPayload, Json.Distinct,
      Json.DistinctFields, Json.DistinctItems]
  obtain ⟨deep, short⟩ := commitJob_limits id now event prevSha
  rw [commitNamed, Job.fromJson_within distinct deep short]
  rfl

/-- What git says of a commit is read, or its default taken. -/
theorem answered_output {n : Nat} {cmd : List String} {reads : List UInt8 → Watch String}
    {default : String}
    (read : ∀ out, Heard (.emission n) ⟨.checkOutput cmd, .ok out⟩ →
      ∃ text, reads out = .done (.ok text)) :
    (Watch.tryKinds gitErrors (Watch.await (.checkOutput cmd) >>= reads) fun _ =>
      return default).Answered (Answers (.emission n))
      (fun result later => (∃ text, result = .ok text) ∧ ∃ reply, later = seen ++
        [⟨.checkOutput cmd, reply⟩]) seen := by
  apply answered_catching (M := fun result later =>
    ((∃ text, result = .ok text) ∨ ∃ e : PyException, result = .error e ∧ e.kind ∈ gitErrors) ∧
      ∃ reply, later = seen ++ [⟨.checkOutput cmd, reply⟩])
  · apply answered_call
    · exact fun e answered => ⟨.inr ⟨e, rfl, answered.1⟩, _, rfl⟩
    · intro out answered
      obtain ⟨text, same⟩ := read out answered.1
      rw [same]
      exact ⟨.inl ⟨text, rfl⟩, _, rfl⟩
  · rintro text later ⟨-, made⟩
    exact ⟨⟨_, rfl⟩, made⟩
  · rintro e later - ⟨-, made⟩
    exact ⟨⟨_, rfl⟩, made⟩
  · rintro e later missed ⟨⟨_, same⟩ | ⟨_, same, handled⟩, -⟩
    · contradiction
    · cases same
      simp [handled] at missed

theorem reads_text {n : Nat} {cmd : List String} {out : List UInt8} (text : described cmd)
    (heard : Heard (.emission n) ⟨.checkOutput cmd, .ok out⟩) :
    ∃ text, (Program.ofExcept (Python.decode out) >>= fun text =>
      (return Python.strip text : Watch String)) = .done (.ok text) := by
  obtain ⟨text, decoded⟩ := heard text
  exact ⟨Python.strip text, by rw [decoded]; rfl⟩

/-- The calls of a coroutine that neither push nor change what a handler remembers. -/
def Quiet (x : Interaction watchCalls) : Prop :=
  pushed x = none ∧ advanced x = none ∧ handedOver x = none

theorem answered_readCommit {n : Nat} : (readCommit repo sha).Answered (Answers (.emission n))
    (fun result later => (∃ texts, result = .ok texts) ∧ ∃ made, later = seen ++ made ∧
      ∀ x ∈ made, Quiet x) seen := by
  have quiet (cmd : List String) (reply : Except PyException (List UInt8)) : Quiet
    ⟨.checkOutput cmd, reply⟩ := ⟨rfl, rfl, rfl⟩
  apply answered_bind (answered_output fun out => reads_text ⟨repo, sha, .inl rfl⟩)
  · rintro author later ⟨-, first, rfl⟩
    apply answered_bind (answered_output fun out => reads_text ⟨repo, sha, .inr rfl⟩)
    · rintro subject later ⟨-, second, rfl⟩
      apply answered_bind (answered_output fun out _ => ⟨_, rfl⟩)
      · rintro diff later ⟨-, third, rfl⟩
        refine ⟨⟨_, rfl⟩, _, by rw [List.append_assoc, List.append_assoc], ?_⟩
        simp only [List.mem_append, List.mem_singleton]
        rintro x (rfl | rfl | rfl) <;> exact quiet _ _
      · rintro e later ⟨⟨_, same⟩, -⟩
        contradiction
    · rintro e later ⟨⟨_, same⟩, -⟩
      contradiction
  · rintro e later ⟨⟨_, same⟩, -⟩
    contradiction

theorem only_pushed {made : List (Interaction watchCalls)} {x : Interaction watchCalls}
    (quiet : ∀ y ∈ made, Quiet y) (last : pushed x = some (repo, sha))
    (only : advanced x = none ∧ handedOver x = none) : (made ++ [x]).filterMap pushed =
    [(repo, sha)] ∧ (made ++ [x]).filterMap advanced = [] ∧
      (made ++ [x]).filterMap handedOver = [] := by
  have before : made.filterMap pushed = [] ∧ made.filterMap advanced = [] ∧
      made.filterMap handedOver = [] := by
    simp only [List.filterMap_eq_nil_iff]
    exact ⟨fun y member => (quiet y member).1, fun y member => (quiet y member).2.1,
      fun y member => (quiet y member).2.2⟩
  simp [before, last, only]

/-- A coroutine that is answered enqueues the job of its commit, and only that. -/
theorem answered_emitCommit {n : Nat} {prevSha : Option String} :
    (emitCommit repo prevSha sha).Answered (Answers (.emission n))
    (fun _ later => later.filterMap pushed = [(repo, sha)] ∧ later.filterMap advanced = [] ∧
      later.filterMap handedOver = []) [] := by
  apply answered_bind answered_readCommit
  · rintro ⟨author, subject, diff⟩ later ⟨-, made, same, quiet⟩
    rw [List.nil_append] at same
    subst same
    apply answered_call
    · exact fun e answered => absurd answered.1 (by simp [Heard])
    · intro u _
      apply answered_call
      · exact fun e answered => absurd answered.1 (by simp [Heard])
      · intro id _
        apply answered_call
        · exact fun e answered => absurd answered.1 (by simp [Heard])
        · intro now _
          obtain ⟨deep, short⟩ := commitJob_limits id now ⟨repo, sha, author, subject, diff⟩ prevSha
          simp only [commitJob] at deep short
          simp only [RedisQueue.enqueue_within deep short]
          refine ⟨trivial, fun reply _ answered => ?_⟩
          obtain ⟨x, rfl⟩ := answered.1
          refine only_pushed ?_ (commitNamed_job id now ⟨repo, sha, author, subject, diff⟩ prevSha)
            ⟨rfl, rfl⟩
          simp only [List.mem_append, List.mem_singleton]
          rintro y (((member | rfl) | rfl) | rfl)
          · exact quiet y member
          all_goals exact ⟨rfl, rfl, rfl⟩
  · rintro e later ⟨⟨_, same⟩, -⟩
    contradiction

/-! ### Handlers -/

/-- The commit that is read from what git says of `HEAD`. -/
def headSha : Except PyException (List UInt8) → Option String
  | .ok out => (Python.decode out).toOption.map Python.strip
  | .error _ => none

/-- One look of a handler at its repository: `HEAD` cannot be read, is what it was last, or has
moved; then the new value is noted and handed over, after the loop was asked for if `asks` says
so. -/
inductive Looked (repo : String) (asks : List (Interaction watchCalls)) :
    List (Interaction watchCalls) → Prop where
  | unread (reply) (nothing : headSha reply = none ∨ headSha reply = some "") :
      Looked repo asks [⟨.checkOutput (headCmd repo), reply⟩]
  | unmoved (reply sha) (read : headSha reply = some sha) :
      Looked repo asks [⟨.checkOutput (headCmd repo), reply⟩, ⟨.getLastSha repo, .ok (some sha)⟩]
  | moved (reply sha) (last prev : Option String) (read : headSha reply = some sha)
      (named : sha ≠ "")
      (differs : last ≠ some sha) :
      Looked repo asks ([⟨.checkOutput (headCmd repo), reply⟩, ⟨.getLastSha repo, .ok last⟩,
        ⟨.getLastSha repo, .ok prev⟩,
        ⟨.setLastSha repo sha, .ok ()⟩] ++ asks ++ [⟨.schedule repo prev sha, .ok ()⟩])

variable {answers : Interaction watchCalls → Prop}

theorem answered_gitText {cmd : List String} :
    (gitText cmd).Answered answers (fun result later => ∃ reply,
    later = seen ++ [⟨.checkOutput cmd, reply⟩] ∧
      ((∃ text, result = .ok text ∧ headSha reply = some text) ∨ headSha reply = none ∧
        ∃ e, result = .error e)) seen := by
  apply answered_call
  · exact fun e _ => ⟨.error e, rfl, .inr ⟨rfl, e, rfl⟩⟩
  · intro out _
    apply answered_ofExcept
    · exact fun e failed =>
        ⟨.ok out, rfl, .inr ⟨by simp [headSha, failed, Except.toOption], e, rfl⟩⟩
    · intro text decoded
      exact answered_ret ⟨.ok out, rfl, .inl ⟨_, rfl, by simp [headSha, decoded, Except.toOption]⟩⟩

theorem answered_currentHeadSha :
    (currentHeadSha repo).Answered answers (fun result later => ∃ reply,
    later = seen ++ [⟨.checkOutput (headCmd repo), reply⟩] ∧
      (result = .ok (headSha reply) ∨ headSha reply = none ∧ ∃ e, result = .error e)) seen := by
  refine answered_catching (M := fun result later => ∃ reply,
    later = seen ++ [⟨.checkOutput (headCmd repo), reply⟩] ∧
      (result = .ok (headSha reply) ∨ headSha reply = none ∧ ∃ e, result = .error e)) ?_ ?_ ?_ ?_
  · refine answered_bind answered_gitText ?_ ?_
    · rintro text later ⟨reply, rfl, ⟨_, same, read⟩ | ⟨-, _, same⟩⟩
      · cases same
        exact answered_ret ⟨reply, rfl, .inl (by rw [read])⟩
      · contradiction
    · rintro e later ⟨reply, rfl, ⟨_, same, -⟩ | failed⟩
      · contradiction
      · exact ⟨reply, rfl, .inr ⟨failed.1, e, rfl⟩⟩
  · exact fun sha later holds => holds
  · rintro e later - ⟨reply, rfl, same | ⟨nothing, -⟩⟩
    · contradiction
    · exact answered_ret ⟨reply, rfl, .inl (by rw [nothing])⟩
  · exact fun e later _ holds => holds

/-- What is handed over has been handed over when `schedule` returns. -/
theorem answered_schedule {i : Party} {prevSha : Option String} :
    (EventWatcher.schedule repo prevSha sha).Answered (Answers i)
    (fun result later => result = .ok () ∧ later = seen ++ [⟨.schedule repo prevSha sha, .ok ()⟩])
    seen := by
  refine ⟨trivial, fun reply _ answered => ?_⟩
  have given : reply = .ok () := by
    have := answered.1
    cases i <;> simpa [Heard] using this
  subst reply
  exact ⟨rfl, rfl⟩

/-- A handler looks once, and a move is handed over as `moved` does it. -/
theorem answered_ifMoved {i : Party} (asks : List (Interaction watchCalls))
    {moved : Option String → String → Watch Unit}
    (hands : ∀ prev sha seen, (moved prev sha).Answered (Answers i)
      (fun result later => result = .ok () ∧ later = seen ++
        (asks ++ [⟨.schedule repo prev sha, .ok ()⟩])) seen) :
    (ifMoved repo moved).Answered (Answers i) (fun _ later => ∃ made, later = seen ++ made ∧
      Looked repo asks made) seen := by
  apply answered_bind answered_currentHeadSha
  · rintro current later ⟨reply, rfl, same | ⟨-, _, same⟩⟩
    · cases same
      cases read : headSha reply with
      | none => exact answered_ret ⟨_, rfl, .unread reply (.inl read)⟩
      | some sha =>
          dsimp only
          split
          · rename_i empty
            exact answered_ret ⟨_, rfl, .unread reply (.inr (by rw [read, empty]))⟩
          · rename_i named
            apply answered_call
            · exact fun e answered => absurd answered.2 id
            · intro last _
              split
              · rename_i same
                subst same
                exact answered_ret ⟨_, List.append_assoc .., .unmoved reply sha read⟩
              · rename_i differs
                apply answered_call
                · exact fun e answered => absurd answered.2 id
                · intro prev _
                  apply answered_call
                  · exact fun e answered => absurd answered.2 id
                  · intro _ _
                    refine (hands prev sha _).mono ?_
                    rintro result later _ ⟨-, rfl⟩
                    exact ⟨_, by simp only [List.append_assoc]; rfl,
                      .moved reply sha last prev read named differs⟩
    · contradiction
  · rintro e later ⟨reply, rfl, same | ⟨nothing, -⟩⟩
    · contradiction
    · exact ⟨_, rfl, .unread reply (.inl nothing)⟩

theorem answered_onAnyEvent {n : Nat} {srcPath : String} :
    (onAnyEvent repo srcPath).Answered (Answers (.event n))
    (fun _ later => if relevant srcPath then Looked repo [⟨.loop, .ok .accepting⟩] later
      else later = []) [] := by
  unfold onAnyEvent
  cases relevant srcPath with
  | false => exact answered_ret rfl
  | true =>
      refine (answered_ifMoved [⟨.loop, .ok .accepting⟩] fun prev sha seen => ?_).mono ?_
      · apply answered_call
        · exact fun e answered => absurd answered.2 id
        · intro loop answered
          obtain rfl : loop = .accepting := Except.ok.inj answered.1
          refine answered_schedule.mono ?_
          rintro result later _ ⟨rfl, rfl⟩
          exact ⟨rfl, List.append_assoc ..⟩
      · rintro result later _ ⟨made, rfl, looked⟩
        exact looked

/-- Looks at repositories one after the other. -/
inductive Looks : List String → List (Interaction watchCalls) → Prop where
  | stop (repos) : Looks repos []
  | next {repo repos first rest} (looked : Looked repo [] first) (later : Looks repos rest) :
      Looks (repo :: repos) (first ++ rest)

theorem answered_reconcileRepos {repos : List String} :
    (reconcileRepos repos).Answered (Answers .reconcile)
    (fun _ later => ∃ made, later = seen ++ made ∧ Looks repos made) seen := by
  induction repos generalizing seen with
  | nil => exact answered_ret ⟨[], (List.append_nil _).symm, .stop _⟩
  | cons repo repos ih =>
      apply answered_bind (answered_ifMoved [] fun prev sha seen => answered_schedule)
      · rintro _ later ⟨first, rfl, looked⟩
        refine ih.mono ?_
        rintro result later _ ⟨rest, rfl, looks⟩
        exact ⟨_, List.append_assoc .., .next looked looks⟩
      · rintro e later ⟨first, rfl, looked⟩
        exact ⟨first, rfl, by simpa using Looks.next looked (.stop repos)⟩

theorem answered_reconcileAfterStart {repos : List String} :
    (reconcileAfterStart repos).Answered (Answers .reconcile)
    (fun _ later => ∃ loop made, later = ⟨.loop, .ok loop⟩ :: made ∧ Looks repos made) [] := by
  apply answered_call
  · exact fun e answered => absurd answered.2 id
  · intro loop _
    cases loop with
    | missing => exact answered_ret ⟨_, [], rfl, .stop _⟩
    | closed | accepting =>
        refine answered_reconcileRepos.mono ?_
        rintro result later _ ⟨made, rfl, looks⟩
        exact ⟨_, made, rfl, looks⟩

/-! ### What is noted is handed over -/

/-- What a handler has noted it has handed over, and it pushes nothing. -/
def Hands (made : List (Interaction watchCalls)) : Prop :=
  made.filterMap advanced = made.filterMap handedOver ∧ made.filterMap pushed = []

theorem Hands.append {first rest : List (Interaction watchCalls)} (left : Hands first)
    (right : Hands rest) : Hands (first ++ rest) := by
  simp only [Hands, List.filterMap_append, left.1, left.2, right.1,
    right.2, List.append_nil, and_self]

theorem Looked.hands {asks made : List (Interaction watchCalls)}
    (asked : asks = [] ∨ asks = [⟨.loop, .ok .accepting⟩]) (looked : Looked repo asks made) :
    Hands made := by
  cases looked with
  | unread | unmoved => exact ⟨rfl, rfl⟩
  | moved => rcases asked with rfl | rfl <;> exact ⟨rfl, rfl⟩

theorem Looks.hands {repos : List String} {made : List (Interaction watchCalls)}
    (looks : Looks repos made) : Hands made := by
  induction looks with
  | stop repos => exact ⟨rfl, rfl⟩
  | next looked later ih => exact (looked.hands (.inl rfl)).append ih

end WiseOrder.EventWatcher
