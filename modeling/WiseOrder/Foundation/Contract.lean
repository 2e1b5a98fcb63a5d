import WiseOrder.Foundation.Pool

/-! Thread-modular reasoning. A protocol says which calls a thread may issue, given
its own history and its own view of the world, and how a call changes that view.
A program that obeys the protocol on its view alone keeps obeying it in a pool,
as long as no other step disturbs what it sees. -/
namespace Coroutine
variable {calls : Signature} {κ W ν α β : Type}

structure Protocol (calls : Signature) (ν : Type) where
  allowed : List (Interaction calls) → calls.Call → ν → Prop
  effect : (c : calls.Call) → ν → Except calls.Error (calls.Reply c) → ν → Prop

abbrev Post (calls : Signature) (ν α : Type) :=
  Except calls.Error α → List (Interaction calls) → ν → Prop

/-- A postcondition given for a returned value and for a raised exception apart. -/
def ending (returns : α → List (Interaction calls) → ν → Prop)
    (raises : calls.Error → List (Interaction calls) → ν → Prop) : Post calls ν α
  | .ok a => returns a
  | .error e => raises e

namespace Program
variable {P : Protocol calls ν} {post : Post calls ν α}

/-- Every call is allowed where it is issued, whatever the calls before it replied,
and every way the program can end meets the postcondition. -/
def Obeys (P : Protocol calls ν) (post : Post calls ν α) :
    Program calls α → List (Interaction calls) → ν → Prop
  | .done result, seen, view => post result seen view
  | .await call onReply, seen, view => P.allowed seen call view ∧
      ∀ reply after, P.effect call view reply after →
        (onReply reply).Obeys P post (seen ++ [⟨call, reply⟩]) after

theorem obeys_andThen {m : Program calls α} {next : Except calls.Error α → Program calls β}
    {post : Post calls ν β} :
    (m.andThen next).Obeys P post seen view ↔
      m.Obeys P (fun result => (next result).Obeys P post) seen view := by
  induction m generalizing seen view with
  | done result => exact Iff.rfl
  | await call onReply ih => simp only [andThen, Obeys, ih]

theorem Obeys.mono {m : Program calls α} {weaker : Post calls ν α}
    (obeys : m.Obeys P post seen view)
    (implies : ∀ result seen view, post result seen view → weaker result seen view) :
    m.Obeys P weaker seen view := by
  induction m generalizing seen view with
  | done result => exact implies _ _ _ obeys
  | await call onReply ih =>
      exact ⟨obeys.1, fun reply after moved => ih reply (obeys.2 reply after moved)⟩

/-- A program obeys a protocol that allows more and lets less happen. -/
theorem Obeys.relax {Q : Protocol calls ν} {m : Program calls α} (obeys : m.Obeys P post seen view)
    (allows : ∀ seen c view, P.allowed seen c view → Q.allowed seen c view)
    (effects : ∀ c view reply after, Q.effect c view reply after → P.effect c view reply after) :
    m.Obeys Q post seen view := by
  induction m generalizing seen view with
  | done result => exact obeys
  | await call onReply ih =>
      exact ⟨allows _ _ _ obeys.1, fun reply after moved =>
        ih reply (obeys.2 reply after (effects _ _ _ _ moved))⟩

/-- A history only grows. -/
theorem Obeys.grows {m : Program calls α} (obeys : m.Obeys P post seen view) :
    m.Obeys P (fun result later view => post result later view ∧ seen <+: later) seen view := by
  have since (first : List (Interaction calls)) : ∀ seen view,
    first <+: seen → m.Obeys P post seen view →
      m.Obeys P (fun result later view => post result later view ∧ first <+: later) seen view := by
    clear obeys
    induction m with
    | done result => exact fun _ _ started holds => ⟨holds, started⟩
    | await call onReply ih =>
        exact fun _ _ started obeys => ⟨obeys.1, fun reply after moved =>
          ih reply _ _ (started.trans (List.prefix_append _ _)) (obeys.2 reply after moved)⟩
  exact since seen seen view (List.prefix_refl seen) obeys

theorem obeys_ret {a : α} (holds : post (.ok a) seen view) :
    (pure a : Program calls α).Obeys P post seen view := holds

theorem obeys_raise {e : calls.Error} (holds : post (.error e) seen view) :
    (raise e : Program calls α).Obeys P post seen view := holds

theorem obeys_call {c : calls.Call} {post : Post calls ν (calls.Reply c)}
    (allowed : P.allowed seen c view)
    (replied : ∀ reply after, P.effect c view reply after →
      post reply (seen ++ [⟨c, reply⟩]) after) :
    (call c).Obeys P post seen view :=
  ⟨allowed, replied⟩

theorem obeys_bind_iff {m : Program calls α} {f : α → Program calls β} {post : Post calls ν β} :
    (m >>= f).Obeys P post seen view ↔
      m.Obeys P (ending (fun a => (f a).Obeys P post) fun e => post (.error e)) seen view := by
  constructor
  · intro obeys
    apply (obeys_andThen.mp obeys).mono
    intro result seen view holds
    cases result <;> exact holds
  · intro obeys
    apply obeys_andThen.mpr
    apply obeys.mono
    intro result seen view holds
    cases result <;> exact holds

theorem obeys_bind {m : Program calls α} {f : α → Program calls β} {middle : Post calls ν α}
    {post : Post calls ν β} (first : m.Obeys P middle seen view)
    (returns : ∀ a seen view, middle (.ok a) seen view → (f a).Obeys P post seen view)
    (raises : ∀ e seen view, middle (.error e) seen view → post (.error e) seen view) :
    (m >>= f).Obeys P post seen view := by
  apply obeys_bind_iff.mpr
  apply first.mono
  intro result seen view holds
  cases result with
  | ok a => exact returns a seen view holds
  | error e => exact raises e seen view holds

theorem obeys_catching {m : Program calls α} {caught : calls.Error → Bool}
    {handler : calls.Error → Program calls α} {middle : Post calls ν α}
    (body : m.Obeys P middle seen view)
    (returns : ∀ a seen view, middle (.ok a) seen view → post (.ok a) seen view)
    (handles : ∀ e seen view, caught e = true → middle (.error e) seen view →
      (handler e).Obeys P post seen view)
    (passes : ∀ e seen view, caught e = false → middle (.error e) seen view →
      post (.error e) seen view) :
    (m.catching caught handler).Obeys P post seen view := by
  apply obeys_andThen.mpr
  apply body.mono
  intro result seen view holds
  cases result with
  | ok a => exact returns a seen view holds
  | error e =>
      cases selected : caught e with
      | true => simpa only [selected, if_true] using handles e seen view selected holds
      | false =>
          simp only [selected, Bool.false_eq_true, if_false]
          exact passes e seen view selected holds

theorem obeys_finallyDo {m : Program calls α} {closing : Program calls β} {middle : Post calls ν α}
    (body : m.Obeys P middle seen view)
    (closes : ∀ result seen view, middle result seen view →
      closing.Obeys P (ending (fun _ => post result) fun e => post (.error e)) seen view) :
    (m.finallyDo closing).Obeys P post seen view := by
  apply obeys_andThen.mpr
  apply body.mono
  intro result seen view holds
  apply obeys_andThen.mpr
  apply (closes result seen view holds).mono
  intro closed seen view holds
  cases closed <;> exact holds

/-- Only calls that `may` admits are issued, whatever the calls before them replied. -/
def Within (may : calls.Call → Prop) : Program calls α → Prop
  | .done _ => True
  | .await call onReply => may call ∧ ∀ reply, (onReply reply).Within may

section
variable {may : calls.Call → Prop}

theorem within_andThen {m : Program calls α} {next : Except calls.Error α → Program calls β}
    (first : m.Within may) (rest : ∀ result, (next result).Within may) :
    (m.andThen next).Within may := by
  induction m with
  | done result => exact rest result
  | await call onReply ih => exact ⟨first.1, fun reply => ih reply (first.2 reply)⟩

theorem within_call {c : calls.Call} (admitted : may c) : (call c).Within may :=
  ⟨admitted, fun _ => trivial⟩

theorem within_bind {m : Program calls α} {f : α → Program calls β} (first : m.Within may)
    (rest : ∀ a, (f a).Within may) : (m >>= f).Within may := by
  apply within_andThen first
  intro result
  cases result with
  | ok a => exact rest a
  | error e => trivial

theorem within_catching {m : Program calls α} {caught : calls.Error → Bool}
    {handler : calls.Error → Program calls α} (body : m.Within may)
    (handles : ∀ e, (handler e).Within may) : (m.catching caught handler).Within may := by
  apply within_andThen body
  intro result
  cases result with
  | ok a => trivial
  | error e =>
      dsimp only
      split
      · exact handles e
      · trivial

theorem within_ite {p : Prop} [Decidable p] {yes no : Program calls α} (left : p → yes.Within may)
    (right : ¬ p → no.Within may) : (if p then yes else no).Within may := by
  split
  · exact left ‹p›
  · exact right ‹¬ p›

theorem Within.mono {other : calls.Call → Prop} {m : Program calls α} (within : m.Within may)
    (weaker : ∀ c, may c → other c) : m.Within other := by
  induction m with
  | done result => trivial
  | await call onReply ih => exact ⟨weaker _ within.1, fun reply => ih reply (within.2 reply)⟩

theorem within_embed {wider : Signature} {as : calls.Call → wider.Call}
    {back : ∀ c, Except wider.Error (wider.Reply (as c)) → Except calls.Error (calls.Reply c)}
    {ends : Except calls.Error α → Except wider.Error β} {other : wider.Call → Prop}
    {m : Program calls α} (within : m.Within fun c => other (as c)) :
    (m.embed as back ends).Within other := by
  induction m with
  | done result => trivial
  | await call onReply ih => exact ⟨within.1, fun reply => ih _ (within.2 _)⟩

/-- A program obeys whose calls are all allowed once something has happened, as it has. -/
theorem Within.obeys_since {m : Program calls α} {F : List (Interaction calls) → Prop}
    (within : m.Within may) (stays : ∀ seen x, may x.call → F seen → F (seen ++ [x]))
    (admits : ∀ seen c view, F seen → may c → P.allowed seen c view)
    (start : F seen) : m.Obeys P (fun _ seen _ => F seen) seen view := by
  induction m generalizing seen view with
  | done result => exact start
  | await call onReply ih =>
      exact ⟨admits _ _ _ start within.1, fun reply after _ =>
        ih reply (within.2 reply) (stays _ ⟨_, reply⟩ within.1 start)⟩

/-- A program all of whose calls are allowed everywhere obeys the protocol. -/
theorem Within.obeys {m : Program calls α} (within : m.Within may)
    (admitted : ∀ seen c view, may c → P.allowed seen c view) (seen : List (Interaction calls))
    (view : ν) : m.Obeys P (fun _ _ _ => True) seen view :=
  within.obeys_since (F := fun _ => True) (fun _ _ _ _ => trivial) (fun seen c view _ =>
    admitted seen c view) trivial

end

/-- Once its history admits every call, and goes on to, a program obeys. -/
theorem obeys_free {m : Program calls α} {F : List (Interaction calls) → Prop}
    (stays : ∀ seen x, F seen → F (seen ++ [x]))
    (admits : ∀ seen c view, F seen → P.allowed seen c view) (start : F seen) :
    m.Obeys P (fun _ _ _ => True) seen view := by
  induction m generalizing seen view with
  | done result => trivial
  | await call onReply ih =>
      exact ⟨admits _ _ _ start, fun reply after _ => ih reply (stays _ _ start)⟩

/-- What the history of a program says when it ends, whatever its calls reply. -/
def Leads (m : Program calls α) (Q : Except calls.Error α → List (Interaction calls) → Prop)
    (seen : List (Interaction calls)) : Prop :=
  m.Obeys (ν := Unit) ⟨fun _ _ _ => True, fun _ _ _ _ => True⟩ (fun result seen _ =>
    Q result seen) seen ()

section
variable {Q : Except calls.Error β → List (Interaction calls) → Prop}
    {seen : List (Interaction calls)}

theorem leads_any {m : Program calls β} : m.Leads (fun _ _ => True) seen := by
  induction m generalizing seen with
  | done result => trivial
  | await call onReply ih => exact ⟨trivial, fun reply _ _ => ih reply⟩

theorem leads_call {c : calls.Call} {f : calls.Reply c → Program calls β}
    (raises : ∀ e, Q (.error e) (seen ++ [⟨c, .error e⟩]))
    (replies : ∀ x, (f x).Leads Q (seen ++ [⟨c, .ok x⟩])) : (call c >>= f).Leads Q seen := by
  apply obeys_bind_iff.mpr
  apply obeys_call trivial
  intro reply _ _
  cases reply with
  | ok x => exact replies x
  | error e => exact raises e

theorem leads_bind {m : Program calls α} {f : α → Program calls β}
    {middle : Except calls.Error α → List (Interaction calls) → Prop} (first : m.Leads middle seen)
    (returns : ∀ a seen, middle (.ok a) seen → (f a).Leads Q seen)
    (raises : ∀ e seen, middle (.error e) seen → Q (.error e) seen) : (m >>= f).Leads Q seen :=
  obeys_bind
    first (fun a seen _ holds => returns a seen holds) fun e seen _ holds => raises e seen holds

end

/-- What the history of a program says when it ends, as long as its calls get answers. -/
def Answered (answers : Interaction calls → Prop) (m : Program calls α)
    (Q : Except calls.Error α → List (Interaction calls) → Prop) (seen : List (Interaction calls)) :
    Prop :=
  m.Obeys (ν := Unit) ⟨fun _ _ _ => True, fun c _ reply _ => answers ⟨c, reply⟩⟩
    (fun result seen _ => Q result seen) seen ()

section
variable {answers : Interaction calls → Prop}
    {Q : Except calls.Error β → List (Interaction calls) → Prop}

theorem answered_ret {b : β} (holds : Q (.ok b) seen) :
    (pure b : Program calls β).Answered answers Q seen := holds

theorem answered_any {m : Program calls β} : m.Answered answers (fun _ _ => True) seen := by
  induction m generalizing seen with
  | done result => trivial
  | await call onReply ih => exact ⟨trivial, fun reply _ _ => ih reply⟩

theorem answered_ofExcept {x : Except calls.Error α} {f : α → Program calls β}
    (raises : ∀ e, x = .error e → Q (.error e) seen)
    (returns : ∀ a, x = .ok a → (f a).Answered answers Q seen) :
    (ofExcept x >>= f).Answered answers Q seen := by
  cases x with
  | ok a => exact returns a rfl
  | error e => exact raises e rfl

theorem answered_call {c : calls.Call} {f : calls.Reply c → Program calls β}
    (raises : ∀ e, answers ⟨c, .error e⟩ → Q (.error e) (seen ++ [⟨c, .error e⟩]))
    (replies : ∀ x, answers ⟨c, .ok x⟩ → (f x).Answered answers Q (seen ++ [⟨c, .ok x⟩])) :
    (call c >>= f).Answered answers Q seen := by
  apply obeys_bind_iff.mpr
  apply obeys_call trivial
  intro reply _ answered
  cases reply with
  | ok x => exact replies x answered
  | error e => exact raises e answered

theorem answered_bind {m : Program calls α} {f : α → Program calls β}
    {middle : Except calls.Error α → List (Interaction calls) → Prop}
    (first : m.Answered answers middle seen)
    (returns : ∀ a seen, middle (.ok a) seen → (f a).Answered answers Q seen)
    (raises : ∀ e seen, middle (.error e) seen → Q (.error e) seen) :
    (m >>= f).Answered answers Q seen :=
  obeys_bind
    first (fun a seen _ holds => returns a seen holds) fun e seen _ holds => raises e seen holds

theorem answered_catching {m : Program calls β} {caught : calls.Error → Bool}
    {handler : calls.Error → Program calls β}
    {M : Except calls.Error β → List (Interaction calls) → Prop} (body : m.Answered answers M seen)
    (returns : ∀ a seen, M (.ok a) seen → Q (.ok a) seen)
    (handles : ∀ e seen, caught e = true → M (.error e) seen → (handler e).Answered answers Q seen)
    (passes : ∀ e seen, caught e = false → M (.error e) seen → Q (.error e) seen) :
    (m.catching caught handler).Answered answers Q seen :=
  obeys_catching body (fun a seen _ => returns a seen)
    (fun e seen _ => handles e seen) fun e seen _ => passes e seen

end

/-- A program made of calls of a wider signature obeys there, if what its wider history stands for
is its own. -/
theorem obeys_embed {wider : Signature} {as : calls.Call → wider.Call}
    {back : ∀ c, Except wider.Error (wider.Reply (as c)) → Except calls.Error (calls.Reply c)}
    {ends : Except calls.Error α → Except wider.Error β} {P' : Protocol wider ν}
    {m : Program calls α} {R : List (Interaction wider) → List (Interaction calls) → Prop}
    {wide : List (Interaction wider)}
    (grows : ∀ {wide seen} c reply, R wide seen →
      R (wide ++ [⟨as c, reply⟩]) (seen ++ [⟨c, back c reply⟩]))
    (admits : ∀ {wide seen} c view, R wide seen → P.allowed seen c view →
      P'.allowed wide (as c) view)
    (effects : ∀ {c view reply after}, P'.effect (as c) view reply after →
      P.effect c view (back c reply) after)
    (related : R wide seen) (obeys : m.Obeys P post seen view) :
    (m.embed as back ends).Obeys P' (fun result wide view => ∃ inner seen, result = ends inner ∧
      R wide seen ∧ post inner seen view)
      wide view := by
  induction m generalizing wide seen view with
  | done result => exact ⟨result, seen, rfl, related, obeys⟩
  | await c onReply ih =>
      exact ⟨admits c view related obeys.1, fun reply after moved =>
        ih _ (grows c reply related) (obeys.2 _ after (effects moved))⟩

/-- A program whose calls are all allowed adds only these to its history, and ends as that leads
to. -/
theorem Within.traced {may : calls.Call → Prop} {m : Program calls α}
    {Q : Except calls.Error α → List (Interaction calls) → Prop}
    (within : m.Within may) (leads : m.Leads Q seen)
    (admitted : ∀ seen c view, may c → P.allowed seen c view) :
    m.Obeys P (fun result later _ => Q result later ∧ ∃ more, later = seen ++ more ∧
      ∀ x ∈ more, may x.call) seen view := by
  induction m generalizing seen view with
  | done result =>
      exact ⟨leads, [], (List.append_nil _).symm, fun x member => absurd member List.not_mem_nil⟩
  | await call onReply ih =>
      refine ⟨admitted _ _ _ within.1, fun reply after _ => ?_⟩
      refine (ih reply (within.2 reply) (leads.2 reply () trivial)).mono ?_
      rintro result later view ⟨holds, more, rfl, all⟩
      refine ⟨holds, ⟨call, reply⟩ :: more, by simp, fun x member => ?_⟩
      rcases List.mem_cons.mp member with rfl | rest
      · exact within.1
      · exact all x rest

end Program

/-- Each thread sees the world through `view`, and a call that is allowed there has
the effect on the caller's view that the protocol gives it. -/
structure Tracks (m : Machine κ W calls α) (P : κ → Protocol calls ν) (view : κ → W → ν) :
    Prop where
  effect : ∀ {i seen call w reply w'}, (P i).allowed seen call (view i w) →
    m.perform i call w reply w' → (P i).effect call (view i w) reply (view i w')

/-- All threads obey their protocol in what they have yet to do. -/
def Config.Obeys (P : κ → Protocol calls ν) (post : κ → Post calls ν α) (view : κ → W → ν)
    (c : Config κ W calls α) : Prop :=
  ∀ i seen rest, c.threads i = .active seen rest → rest.Obeys (P i) (post i) seen (view i c.world)

namespace Machine
variable [DecidableEq κ] {m : Machine κ W calls α} {P : κ → Protocol calls ν}
  {post : κ → Post calls ν α} {view : κ → W → ν}

theorem Step.allowed (obeys : c.Obeys P post view) (step : m.Step c (.call i x before) c') :
    (P i).allowed (c.threads i).past x.call (view i c.world) := by
  cases step with
  | call awaiting performed =>
      have ready := obeys i _ _ awaiting
      rw [awaiting]
      exact ready.1

/-- The rule for one step of a pool. `spawned` and `resumed` are about programs that
start; `undisturbed` is what the step owes to the threads that do not take it. -/
theorem Step.obeys (tracks : Tracks m P view) (step : m.Step c e c')
    (spawned : ∀ i p, e = .spawn i p → p.Obeys (P i) (post i) [] (view i c.world))
    (resumed : ∀ i p seen a, e = .again i p → c.threads i = .active seen (.done (.ok a)) →
      post i (.ok a) seen (view i c.world) → p.Obeys (P i) (post i) seen (view i c.world))
    (undisturbed : ∀ j seen rest, c.threads j = .active seen rest → ¬ e.By j →
      rest.Obeys (P j) (post j) seen (view j c.world) → rest.Obeys (P j)
      (post j) seen (view j c'.world))
    (obeys : c.Obeys P post view) : c'.Obeys P post view := by
  intro j seen rest active
  by_cases mine : e.By j
  · cases step with
    | @spawn i p unused entry =>
        cases mine
        simp only [Function.update_self, Thread.active.injEq] at active
        obtain ⟨rfl, rfl⟩ := active
        exact spawned j p rfl
    | @call i seen call onReply reply world awaiting performed =>
        cases mine
        simp only [Function.update_self, Thread.active.injEq] at active
        obtain ⟨rfl, rfl⟩ := active
        have ready := obeys j _ _ awaiting
        exact ready.2 reply _ (tracks.effect ready.1 performed)
    | @again i seen a p returned next =>
        cases mine
        simp only [Function.update_self, Thread.active.injEq] at active
        obtain ⟨rfl, rfl⟩ := active
        exact resumed j p _ a rfl returned (obeys j _ _ returned)
    | drift | crash => exact mine.elim
  · have before := step.other mine active
    exact undisturbed j seen rest before mine (obeys j seen rest before)

/-- A protocol on histories alone is kept by every step, if what is spawned obeys it, and what a
thread goes on with. -/
theorem Step.history {P : Protocol calls Unit} (step : m.Step c e c')
    (free : ∀ call view reply after, P.effect call view reply after)
    (spawned : ∀ c i p, m.spawn c i p → p.Obeys P (fun _ _ _ => True) [] ())
    (resumed : ∀ w i a p seen, m.again w i a p → p.Obeys P (fun _ _ _ => True) seen ())
    (obeys : c.Obeys (fun _ => P) (fun _ _ _ _ => True) fun _ _ => ()) :
    c'.Obeys (fun _ => P) (fun _ _ _ _ => True) fun _ _ => () := by
  have tracks : Tracks m (fun _ => P) fun _ _ => () := ⟨fun _ _ => free _ _ _ _⟩
  apply step.obeys tracks ?_ ?_ (fun _ _ _ _ _ obeys => obeys) obeys
  · rintro i p rfl
    cases step with
    | spawn unused entry => exact spawned _ _ _ entry
  · rintro i p seen a rfl returned -
    cases step with
    | again returned next => exact resumed _ _ _ _ _ next

/-- What a protocol says of the history wherever a thread calls or ends holds of every history, of
lost threads too. -/
theorem Step.histories {Q : κ → List (Interaction calls) → Prop} (step : m.Step c e c')
    (after : c'.Obeys P post view)
    (calling : ∀ i seen call view, (P i).allowed seen call view → Q i seen)
    (ends : ∀ i result seen view, post i result seen view → Q i seen)
    (before : ∀ i, Q i (c.threads i).past) (i : κ) : Q i (c'.threads i).past := by
  have grown := step.past i
  cases now : c'.threads i with
  | absent =>
      rw [now] at grown
      have never : (c.threads i).past = [] := (List.append_eq_nil_iff.mp grown.symm).1
      have held := before i
      rwa [never] at held
  | active seen rest =>
      have ready := after i seen rest now
      cases rest with
      | done result => exact ends i result seen _ ready
      | await call onReply => exact calling i seen call _ ready.1
  | lost seen =>
      have quiet : e.own i = none := Event.own_other fun mine => by
        obtain ⟨seen', rest, active⟩ := step.active mine
        rw [now] at active
        contradiction
      rw [quiet, Option.toList_none, List.append_nil, now] at grown
      exact grown ▸ before i

/-- What holds of a program when it is spawned, and of what is left of it after each reply that its
calls may get, holds of its thread at any time, whatever the others do. -/
theorem run_answered {step : Config κ W calls α → Event κ W calls α → Config κ W calls α → Prop}
    {K : List (Interaction calls) → Program calls α → Prop} {Q : List (Interaction calls) → Prop}
    {answers : Interaction calls → Prop} (sub : ∀ {c e c'}, step c e c' → m.Step c e c')
    (heard : ∀ {c c' x before}, step c (.call i x before) c' → answers x)
    (run : Transition.Run step c trace c') (spawned : .spawn i p ∈ trace)
    (once : ∀ w a q, ¬ m.again w i a q) (start : K [] p)
    (kept : ∀ seen call onReply reply, answers ⟨call, reply⟩ → K seen (.await call onReply) →
      K (seen ++ [⟨call, reply⟩]) (onReply reply))
    (shows : ∀ seen rest, K seen rest → Q seen) :
    Q (c'.threads i).past ∧ ∀ seen rest, c'.threads i = .active seen rest → K seen rest := by
  obtain ⟨past, later, rfl⟩ := List.append_of_mem spawned
  obtain ⟨t, t', -, taken, after⟩ := run.split_at
  let Follows (u : Config κ W calls α) : Prop := u.threads i ≠ .absent ∧ Q (u.threads i).past ∧
    ∀ seen rest, u.threads i = .active seen rest → K seen rest
  have begun : Follows t' := by
    cases sub taken with
    | spawn unused entry =>
        refine ⟨by simp, by simpa [Thread.past] using shows _ _ start, fun seen rest active => ?_⟩
        simp only [Function.update_self, Thread.active.injEq] at active
        obtain ⟨rfl, rfl⟩ := active
        exact start
  refine (after.invariant (P := Follows) ?_ begun).2
  rintro u e u' ⟨there, shown, holds⟩ step
  have taken := sub step
  have follows : ∀ seen rest, u'.threads i = .active seen rest → K seen rest := by
    intro seen rest active
    by_cases mine : e.By i
    · cases taken with
      | spawn unused entry =>
          cases mine
          exact absurd unused there
      | call awaiting performed =>
          cases mine
          simp only [Function.update_self, Thread.active.injEq] at active
          obtain ⟨rfl, rfl⟩ := active
          exact kept _ _ _ _ (heard step) (holds _ _ awaiting)
      | again returned next =>
          cases mine
          exact absurd next (once _ _ _)
      | drift | crash => exact mine.elim
    · exact holds seen rest (taken.other mine active)
  refine ⟨(taken.present i).mpr (.inl there), ?_, follows⟩
  cases now : u'.threads i with
  | active seen rest => exact shows seen rest (follows seen rest now)
  | absent => exact absurd now ((taken.present i).mpr (.inl there))
  | lost seen =>
      have same := taken.past i
      rw [now] at same
      have quiet : e.own i = none := Event.own_other fun mine => by
        obtain ⟨seen', rest, active⟩ := taken.active mine
        rw [now] at active
        contradiction
      rw [quiet, Option.toList_none, List.append_nil] at same
      exact same ▸ shown

/-- What holds of a program when it is spawned, and of what is left of it after each reply, holds of
its thread at any time, whatever the others do. -/
theorem run_thread {step : Config κ W calls α → Event κ W calls α → Config κ W calls α → Prop}
    {K : List (Interaction calls) → Program calls α → Prop} {Q : List (Interaction calls) → Prop}
    (sub : ∀ {c e c'}, step c e c' → m.Step c e c') (run : Transition.Run step c trace c')
    (spawned : .spawn i p ∈ trace) (once : ∀ w a q, ¬ m.again w i a q) (start : K [] p)
    (kept : ∀ seen call onReply reply, K seen (.await call onReply) →
      K (seen ++ [⟨call, reply⟩]) (onReply reply))
    (shows : ∀ seen rest, K seen rest → Q seen) :
    Q (c'.threads i).past ∧ ∀ seen rest, c'.threads i = .active seen rest → K seen rest :=
  run_answered sub (fun _ => trivial) run spawned once start
    (fun seen call onReply reply _ => kept seen call onReply reply) shows

/-- The history of a thread that has ended is as its program leads to, whatever the others did. -/
theorem run_leads {step : Config κ W calls α → Event κ W calls α → Config κ W calls α → Prop}
    (sub : ∀ {c e c'}, step c e c' → m.Step c e c') (run : Transition.Run step c trace c')
    (spawned : .spawn i p ∈ trace) (once : ∀ w a q, ¬ m.again w i a q) (leads : p.Leads Q [])
    (ended : c'.threads i = .active seen (.done result)) : Q result seen :=
  (run_thread (K := fun seen rest => rest.Leads Q seen) (Q := fun _ =>
    True) sub run spawned once leads
    (fun _ _ _ reply ready => ready.2 reply () trivial) fun _ _ _ => trivial).2 seen _ ended

/-- The history of a thread that has ended is as its program says for the answers that it got. -/
theorem run_answers {step : Config κ W calls α → Event κ W calls α → Config κ W calls α → Prop}
    {answers : Interaction calls → Prop} (sub : ∀ {c e c'}, step c e c' → m.Step c e c')
    (heard : ∀ {c c' x before}, step c (.call i x before) c' → answers x)
    (run : Transition.Run step c trace c') (spawned : .spawn i p ∈ trace)
    (once : ∀ w a q, ¬ m.again w i a q) (answered : p.Answered answers Q [])
    (ended : c'.threads i = .active seen (.done result)) : Q result seen :=
  (run_answered (K := fun seen rest => rest.Answered answers Q seen) (Q := fun _ =>
    True) sub heard run spawned once
    answered (fun _ _ _ reply heard ready => ready.2 reply () heard) fun _ _ _ =>
      trivial).2 seen _ ended

/-- The calls of a thread are those that its program may make. -/
theorem run_within {step : Config κ W calls α → Event κ W calls α → Config κ W calls α → Prop}
    {may : calls.Call → Prop} (sub : ∀ {c e c'}, step c e c' → m.Step c e c')
    (run : Transition.Run step c trace c') (spawned : .spawn i p ∈ trace)
    (once : ∀ w a q, ¬ m.again w i a q) (within : p.Within may) :
    ∀ x ∈ (c'.threads i).past, may x.call := by
  refine (run_thread (K := fun seen rest => (∀ x ∈ seen, may x.call) ∧ rest.Within may)
    (Q := fun seen => ∀ x ∈ seen, may x.call) sub run spawned once
    ⟨fun x member => absurd member List.not_mem_nil, within⟩ ?_ fun _ _ holds => holds.1).1
  rintro seen call onReply reply ⟨made, admitted, rest⟩
  refine ⟨fun x member => ?_, rest reply⟩
  rcases List.mem_append.mp member with old | new
  · exact made x old
  · rw [List.mem_singleton.mp new]
    exact admitted

end Machine

end Coroutine
