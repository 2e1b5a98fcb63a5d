import WiseOrder.Runtime.Invariants

/-! What a demo request leaves behind when it has ended. Where it looks outside and
nothing is raised it is settled: completed, or failed along with the step that failed.
Where something is raised there is no handler, and the workflow is left running. -/
namespace WiseOrder.DemoForge
open Coroutine Coroutine.Program Relational
variable {s : Settings} {i : CallId} {c c' : Pool} {trace : List RunEvent}
    {payload : Json} {h : History}
  {r : Except PyException Returned}

/-- The rows of a request that has ended say how it ended, and no task runs. -/
def Settled (r : Except PyException Returned) (v : OwnRows) : Prop :=
  match r with
  | .ok _ => ∃ id, Finished id .completed v
  | .error _ => ∃ id, Finished id .failed v ∧ ∃ taskId, Last taskId .failed v

/-- No orchestrator that comes up takes a workflow from its call. -/
def Unreaped (c : Pool) (e : RunEvent) (c' : Pool) : Prop := ¬ Reaps c e c'

theorem running_unfinished {v : OwnRows} {id id' : Nat} {status : Status} (running : v.Running id)
    (finished : Finished id' status v) : status = .running := by
  obtain ⟨w, only, runs⟩ := running
  obtain ⟨⟨w', only', rfl⟩, -⟩ := finished
  rw [only] at only'
  cases only'
  exact runs

/-- A request whose row was inserted, and whose own transactions committed, is settled when it has
ended if and only if nothing that it looked at outside raised. -/
theorem demo_settled (fresh : Fresh c)
    (run : Transition.Run (Transition.Guarded (Step s) Unreaped) c trace c')
    (made : .spawn i (runDemoForgeRequest s payload) ∈ trace) (role : i.role = .pipeline)
    (ended : c'.threads i = .active h (.done r)) (created : History.recorded h = true)
    (committed : Committed h) : Settled r (view i c'.world) ↔ Clean h := by
  have specified : (runDemoForgeRequest s payload).Obeys (protocol s i)
      outcome [] OwnRows.none := by
    unfold protocol
    rw [role]
    exact obeys_runDemoForgeRequest payload
  have final := run_ends (fun taken => taken) run fresh made role specified ended
  cases r with
  | ok r => exact iff_of_true final.2 final.1
  | error e =>
      rcases final with none | ⟨id, ⟨clean, finished, last⟩ | ⟨unclean, running⟩ | lost⟩
      · rw [created] at none
        contradiction
      · exact iff_of_true ⟨id, finished, last⟩ clean
      · refine iff_of_false ?_ unclean
        rintro ⟨id', finished, -⟩
        exact absurd (running_unfinished running finished) (by decide)
      · exact absurd committed lost

theorem unreaped_calls {script : History}
    (plain : ∀ x ∈ script, ∀ cutoff marker, x.call ≠ .session (.reap cutoff marker)) :
    ∀ c x before c', x ∈ script → Unreaped c (.call i x before) c' := by
  rintro c x before c' member ⟨-, j, cutoff, marker, n, w, same⟩
  cases same
  exact plain _ member cutoff marker rfl

/-- A job's payload for one of the demos. -/
def demoPayload : Json := .obj [("scenario", .str "001")]

def demoStarted : LogEntry :=
  ⟨0, "demo_request_started", .obj [("scenario", .str "001"), ("trigger", .str "manual"),
  ("demo_forge_dir", .str "/root/Desktop/demo-forge"), ("skip_render", .bool false)]⟩

/-- The first calls of a request, up to the task of its first step. -/
def demoOpening : History :=
  [⟨.isFile "/root/Desktop/demo-forge/Makefile", .ok true⟩, ⟨.now, .ok (0 : Time)⟩,
  ⟨.session (.addWorkflow "demo_request" taskChain [demoStarted]), .ok (1 : Nat)⟩,
  ⟨.session (.createTask "check_tools" 1 (.obj [("scenario", .str "001")])), .ok (1 : Nat)⟩]

theorem demoOpening_ok : ∀ x ∈ demoOpening, x.raised = none := by
  intro x member
  simp only [demoOpening, List.mem_cons, List.not_mem_nil, or_false] at member
  rcases member with rfl | rfl | rfl | rfl <;> rfl

/-- The rest of a request whose tools are missing. -/
def demoMissing : History := [
  ⟨.subprocess ["make", "check-tools"] "/root/Desktop/demo-forge" 90,
    .ok ((2 : Int), "", "ffmpeg")⟩,
  ⟨.session (.failTask 1 "DEMO_FORGE_MISSING_TOOLS: make check-tools rc=2"), .ok ()⟩,
  ⟨.session (.failWorkflow 1 "demo_request_failed" "missing tools in demo-forge env"), .ok ()⟩]

/-- The tools are missing, and the step gives up. -/
theorem demo_settled_missing :
    ∃ trace c', Transition.Run (Transition.Guarded (Step (.defaults "/root")) Unreaped)
    Pool.initial trace c' ∧ ∃ e, Settled (.error e) (view ⟨1, 1, .pipeline⟩ c'.world) := by
  obtain ⟨_, -, ended⟩ :=
    run_entry (run_start (.defaults "/root") Unreaped Pool.initial) ⟨1, 1, .pipeline⟩
    (.demoRequest demoPayload) (demoOpening ++ demoMissing)
    (.call rfl (.call ⟨rfl, rfl⟩ (.call ⟨_, rfl, rfl⟩ (.call ⟨_, rfl, rfl⟩ (.call rfl
      (.call ⟨_, rfl, rfl⟩ (.call ⟨_, rfl, rfl⟩ (.stop _ _)))))))) rfl rfl rfl
    (by simp [Unreaped, Reaps]) (unreaped_calls (by simp [demoOpening, demoMissing]))
  have quiet : ∀ x ∈ demoOpening ++ demoMissing, x.raised = none := by
    intro x member
    rcases List.mem_append.mp member with first | last
    · exact demoOpening_ok x first
    · simp only [demoMissing, List.mem_cons, List.not_mem_nil, or_false] at last
      rcases last with rfl | rfl | rfl <;> rfl
  have settled :=
    (demo_settled fresh_initial ended (List.mem_append_right _ List.mem_cons_self) rfl rfl rfl
    fun x member _ => quiet x member).mpr fun x member => .inl (quiet x member)
  exact ⟨_, _, ended, _, settled⟩

/-- `make` does not start, and the exception passes. -/
theorem demo_stuck : ∃ trace c' h e,
    Transition.Run (Transition.Guarded (Step (.defaults "/root")) Unreaped)
      Pool.initial trace c' ∧
    c'.threads ⟨1, 1, .pipeline⟩ = .active h (.done (.error e)) ∧ History.recorded h = true ∧
    Committed h ∧ ¬ Settled (.error e) (view ⟨1, 1, .pipeline⟩ c'.world) := by
  let missing : PyException := ⟨.fileNotFoundError, "[Errno 2] No such file or directory: 'make'"⟩
  obtain ⟨_, -, raised⟩ :=
    run_entry (run_start (.defaults "/root") Unreaped Pool.initial) ⟨1, 1, .pipeline⟩
    (.demoRequest demoPayload)
    (demoOpening ++ [⟨.subprocess ["make", "check-tools"] "/root/Desktop/demo-forge" 90,
      .error missing⟩])
    (.call rfl (.call ⟨rfl, rfl⟩ (.call ⟨_, rfl, rfl⟩ (.call ⟨_, rfl, rfl⟩ (.call rfl
      (.stop _ _)))))) rfl rfl rfl
    (by simp [Unreaped, Reaps]) (unreaped_calls (by simp [demoOpening]))
  refine ⟨_, _, _, _, raised, rfl, rfl, fun x member own => ?_, ?_⟩
  · rcases List.mem_append.mp member with first | last
    · exact demoOpening_ok x first
    · rw [List.mem_singleton.mp last] at own
      exact own.elim
  · rintro ⟨id, finished, -⟩
    exact absurd (running_unfinished ⟨_, rfl, rfl⟩ finished) (by decide)

end WiseOrder.DemoForge
