import WiseOrder.Foundation.Contract

/-! Cells that are written once. A cell is read without its lock and written under it; who finds it
empty takes the lock, looks again, and writes it if it is still empty. Threads that keep to this,
and take locks in one order, agree on what the cells hold, and never wait for one another in a
circle. -/
namespace Once
open Coroutine Coroutine.Program
variable {ι κ : Type} {V : ι → Type} {Work : Type} {Reply : Work → Type} {E α β γ : Type}

inductive Call (V : ι → Type) (Work : Type) where
  | load (c : ι)
  | acquire (c : ι)
  | release (c : ι)
  | store (c : ι) (v : V c)
  | work (w : Work)

def Call.Answer (Reply : Work → Type) : Call V Work → Type
  | .load c => Option (V c)
  | .acquire _ | .release _ | .store .. => Unit
  | .work w => Reply w

abbrev calls (V : ι → Type) (Reply : Work → Type) (E : Type) : Signature :=
  ⟨Call V Work, Call.Answer Reply, E⟩

abbrev History (V : ι → Type) (Reply : Work → Type) (E : Type) :=
  List (Interaction (calls V Reply E))

structure Cells (κ : Type) (V : ι → Type) where
  value : (c : ι) → Option (V c)
  holder : ι → Option κ

section
variable [DecidableEq ι]

def perform (i : κ) (c : Call V Work) (w : Cells κ V) (reply : Except E (c.Answer Reply))
    (w' : Cells κ V) : Prop :=
  match c, reply with
  | .load c, .ok v => v = w.value c ∧ w' = w
  | .acquire c, .ok _ =>
      w.holder c = none ∧ w' = { w with holder := Function.update w.holder c (some i) }
  | .release c, .ok _ =>
      w.holder c = some i ∧ w' = { w with holder := Function.update w.holder c none }
  | .store c v, .ok _ => w' = { w with value := Function.update w.value c (some v) }
  | .work _, _ => w' = w
  | _, .error _ => False

/-- Threads that execute programs over the cells, and end. -/
def machine (programs : Program (calls V Reply E) α → Prop) :
    Machine κ (Cells κ V) (calls V Reply E) α where
  spawn _ _ p := programs p
  perform := perform
  again _ _ _ _ := False
  drift _ _ := False
  crash _ _ _ := False

/-! ### What a thread knows -/

/-- How a thread has a lock: it may have found the cell empty since it has it. -/
inductive Grip where
  | free
  | held
  | empty

structure Sense (V : ι → Type) where
  grip : ι → Grip
  known : (c : ι) → Option (V c)

namespace Sense

def none : Sense V := ⟨fun _ => .free, fun _ => Option.none⟩

def next (n : Sense V) (x : Interaction (calls V Reply E)) : Sense V :=
  match x with
  | ⟨.load c, .ok (some v)⟩ => { n with known := Function.update n.known c (some v) }
  | ⟨.load c, .ok Option.none⟩ => match n.grip c with
      | .free => n
      | _ => { n with grip := Function.update n.grip c .empty }
  | ⟨.acquire c, .ok _⟩ => { n with grip := Function.update n.grip c .held }
  | ⟨.release c, .ok _⟩ => { n with grip := Function.update n.grip c .free }
  | ⟨.store c v, .ok _⟩ => ⟨Function.update n.grip c .held, Function.update n.known c (some v)⟩
  | _ => n

/-- What a call may reply to a thread that knows what it knows. -/
def Admits (n : Sense V) (x : Interaction (calls V Reply E)) : Prop :=
  match x with
  | ⟨.load c, .ok v⟩ =>
      (∀ u, n.known c = some u → v = some u) ∧ (n.grip c = .empty → v = Option.none)
  | ⟨.work _, _⟩ => True
  | ⟨_, .ok _⟩ => True
  | ⟨_, .error _⟩ => False

/-- A cell that was found empty is not known to hold a value. -/
def Sound (n : Sense V) : Prop := ∀ c, n.grip c = .empty → n.known c = Option.none

end Sense

def sense (h : History V Reply E) : Sense V := h.foldl Sense.next .none

@[simp]
theorem sense_snoc (h : History V Reply E) (x : Interaction (calls V Reply E)) :
    sense (h ++ [x]) = (sense h).next x := by
  simp [sense]

end

/-! ### Programs -/

def load (c : ι) : Program (calls V Reply E) (Option (V c)) := @call (calls V Reply E) (.load c)

def store (c : ι) (v : V c) : Program (calls V Reply E) Unit := @call (calls V Reply E) (.store c v)

/-- What is done besides, which may raise. -/
def work (w : Work) : Program (calls V Reply E) (Reply w) := @call (calls V Reply E) (.work w)

/-- `with lock:`. -/
def locked (c : ι) (body : Program (calls V Reply E) β) : Program (calls V Reply E) β := do
  @call (calls V Reply E) (.acquire c)
  body.finallyDo (@call (calls V Reply E) (.release c))

/-- Look, take the lock, look again, and make what is not there. -/
def double (c : ι) (found : Program (calls V Reply E) β) (make : Program (calls V Reply E) (V c)) :
    Program (calls V Reply E) β := do
  let first ← load c
  if first.isSome then
    found
  else locked c do
    let second ← load c
    if second.isSome then
      found
    else
      let v ← make
      store c v
      found

/-- The locks are as they were, and nothing is forgotten. -/
structure Balanced (n n' : Sense V) : Prop where
  grip : n'.grip = n.grip
  known : ∀ c v, n.known c = some v → n'.known c = some v

/-- The same, but for a lock that is held now. -/
structure Inside (c : ι) (n n' : Sense V) : Prop where
  mine : n'.grip c ≠ .free
  others : ∀ c', c' ≠ c → n'.grip c' = n.grip c'
  known : ∀ c v, n.known c = some v → n'.known c = some v

/-- A part that ends with its locks given back, and with a value that `Q` holds of unless it
raises. -/
def Made (n : Sense V) (Q : β → History V Reply E → Sense V → Prop) :
    Post (calls V Reply E) (Sense V) β :=
  fun r h n' => Balanced n n' ∧ ∀ b, r = .ok b → Q b h n'

section
variable {c : ι} {n n' n'' : Sense V}

theorem Balanced.refl (n : Sense V) : Balanced n n := ⟨rfl, fun _ _ => id⟩

theorem made_error {h : History V Reply E} {Q : β → History V Reply E → Sense V → Prop} {e : E} :
    Made n Q (.error e) h n :=
  ⟨.refl n, fun b same => by cases same⟩

theorem Balanced.trans (first : Balanced n n') (second : Balanced n' n'') : Balanced n n'' :=
  ⟨second.grip.trans first.grip, fun c v known => second.known c v (first.known c v known)⟩

theorem Inside.balanced (inside : Inside c n n') (balanced : Balanced n' n'') : Inside c n n'' :=
  ⟨balanced.grip ▸ inside.mine, fun c' other =>
    (congrFun balanced.grip c').trans (inside.others c' other),
    fun c v known => balanced.known c v (inside.known c v known)⟩

end

section
variable [DecidableEq ι] (rank : ι → Nat) (proper : (c : ι) → V c → History V Reply E → Prop)

/-- Locks are taken downwards and given back, and a cell is written that was found empty since its
lock was taken, with a proper value. -/
def Lawful (h : History V Reply E) (n : Sense V) : Call V Work → Prop
  | .acquire c => n.grip c = .free ∧ ∀ c', n.grip c' ≠ .free → rank c < rank c'
  | .release c => n.grip c ≠ .free
  | .store c v => n.grip c = .empty ∧ proper c v h
  | _ => True

def protocol : Protocol (calls V Reply E) (Sense V) :=
  ⟨fun h c n => Lawful rank proper h n c, fun c n reply n' => n.Admits ⟨c, reply⟩ ∧
    n' = n.next ⟨c, reply⟩ ∧ n'.Sound⟩

variable {rank proper} {c : ι} {n n' n'' : Sense V} {h : History V Reply E}
    {found : Program (calls V Reply E) β}
  {make : Program (calls V Reply E) (V c)}

theorem obeys_sound {m : Program (calls V Reply E) β} {post : Post (calls V Reply E) (Sense V) β}
    (sound : n.Sound) (obeys : m.Obeys (protocol rank proper) post h n) :
    m.Obeys (protocol rank proper) (fun r h n' => post r h n' ∧ n'.Sound) h n := by
  induction m generalizing h n with
  | done result => exact ⟨obeys, sound⟩
  | await call onReply ih =>
      exact ⟨obeys.1, fun reply after moved => ih reply moved.2.2 (obeys.2 reply after moved)⟩

theorem obeys_acquire {post : Post (calls V Reply E) (Sense V) Unit} (free : n.grip c = .free)
    (below : ∀ c', n.grip c' ≠ .free → rank c < rank c')
    (holds : ∀ n', Inside c n n' → post (.ok ()) (h ++ [⟨.acquire c, .ok ()⟩]) n') :
    (@call (calls V Reply E) (.acquire c)).Obeys (protocol rank proper) post h n := by
  refine obeys_call ⟨free, below⟩ ?_
  rintro reply after ⟨admits, rfl, sound⟩
  cases reply with
  | error e => exact admits.elim
  | ok x =>
      refine holds _ ⟨?_, fun c' other => Function.update_of_ne other _ _, fun _ _ => id⟩
      simp [Sense.next]

theorem obeys_release {post : Post (calls V Reply E) (Sense V) Unit} (free : n.grip c = .free)
    (inside : Inside c n n')
    (holds : ∀ n'', Balanced n n'' → n''.known = n'.known →
      post (.ok ()) (h ++ [⟨.release c, .ok ()⟩]) n'') :
    (@call (calls V Reply E) (.release c)).Obeys (protocol rank proper) post h n' := by
  refine obeys_call inside.mine ?_
  rintro reply after ⟨admits, rfl, sound⟩
  cases reply with
  | error e => exact admits.elim
  | ok x =>
      refine holds _ ⟨?_, inside.known⟩ rfl
      funext c'
      by_cases same : c' = c
      · subst c'
        simp [Sense.next, free]
      · simp [Sense.next, same, inside.others c' same]

/-- A body that keeps the lock is balanced with the lock around it. -/
theorem made_locked {Q : β → History V Reply E → Sense V → Prop}
    {body : Program (calls V Reply E) β} (free : n.grip c = .free)
    (below : ∀ c', n.grip c' ≠ .free → rank c < rank c')
    (later : ∀ b h x n n', n'.known = n.known → Q b h n → Q b (h ++ [x]) n')
    (runs : ∀ h n', Inside c n n' → body.Obeys (protocol rank proper) (fun r h n'' =>
      Inside c n n'' ∧ ∀ b, r = .ok b → Q b h n'') h n') :
    (locked c body).Obeys (protocol rank proper) (Made n Q) h n := by
  apply obeys_bind_iff.mpr
  refine obeys_acquire free below fun n' inside => ?_
  refine obeys_finallyDo (runs _ n' inside) ?_
  rintro result h n'' ⟨inside, holds⟩
  refine obeys_release free inside fun after balanced same => ?_
  exact ⟨balanced, fun b returned => later b h _ n'' after same (holds b returned)⟩

/-- A look at a cell leaves what it says known. -/
theorem obeys_load {post : Post (calls V Reply E) (Sense V) (Option (V c))}
    (there : ∀ v n', Balanced n n' → n'.known c = some v →
      post (.ok (some v)) (h ++ [⟨.load c, .ok (some v)⟩]) n')
    (absent : n.known c = none →
      (n.next (⟨.load c, .ok none⟩ : Interaction (calls V Reply E))).Sound →
      post (.ok none) (h ++ [⟨.load c, .ok none⟩])
      (n.next (⟨.load c, .ok none⟩ : Interaction (calls V Reply E)))) :
    (load c).Obeys (protocol rank proper) post h n := by
  refine obeys_call trivial ?_
  rintro reply after ⟨admits, rfl, sound⟩
  match reply with
  | .error e => exact admits.elim
  | .ok (some v) =>
      refine there v _ ⟨rfl, fun c' u known => ?_⟩ (Function.update_self _ _ _)
      by_cases same : c' = c
      · subst c'
        rw [show (n.next (⟨.load c, .ok (some v)⟩ : Interaction (calls V Reply E))).known c = some v
          from Function.update_self _ _ _]
        exact admits.1 u known
      · simpa [Sense.next, same] using known
  | .ok none =>
      refine absent ?_ sound
      cases known : n.known c with
      | none => rfl
      | some u => exact absurd (admits.1 u known) (by simp)

/-- A cell that was just written is known, and its lock is still held. -/
theorem Inside.stores {v : V c} (inside : Inside c n n') (absent : n'.known c = none) :
    Inside c n (n'.next (⟨.store c v, .ok ()⟩ : Interaction (calls V Reply E))) := by
  refine ⟨by simp [Sense.next], fun c' other =>
    (Function.update_of_ne other _ _).trans (inside.others c' other), fun c' u known => ?_⟩
  have before := inside.known c' u known
  by_cases same : c' = c
  · subst c'
    rw [absent] at before
    contradiction
  · exact (Function.update_of_ne same _ _).trans before

section
variable {Q : β → History V Reply E → Sense V → Prop} {R : γ → History V Reply E → Sense V → Prop}
    {b : β}

theorem made_pure (holds : Q b h n) :
    (pure b : Program (calls V Reply E) β).Obeys (protocol rank proper) (Made n Q) h n := by
  refine ⟨.refl n, fun b' same => ?_⟩
  cases same
  exact holds

theorem made_andThen {m : Program (calls V Reply E) γ}
    {f : Except E γ → Program (calls V Reply E) β}
    (first : m.Obeys (protocol rank proper) (Made n R) h n)
    (next : ∀ r h' n', Balanced n n' → h <+: h' → (∀ a, r = .ok a → R a h' n') →
      (f r).Obeys (protocol rank proper) (Made n' Q) h' n') :
    (m.andThen f).Obeys (protocol rank proper) (Made n Q) h n := by
  refine obeys_andThen.mpr (first.grows.mono ?_)
  rintro r h' n' ⟨⟨balanced, holds⟩, since⟩
  refine (next r h' n' balanced since holds).mono ?_
  rintro r h'' n'' ⟨after, holds⟩
  exact ⟨balanced.trans after, holds⟩

theorem made_bind {m : Program (calls V Reply E) γ} {f : γ → Program (calls V Reply E) β}
    (first : m.Obeys (protocol rank proper) (Made n R) h n)
    (next : ∀ a h' n', Balanced n n' → h <+: h' → R a h' n' →
      (f a).Obeys (protocol rank proper) (Made n' Q) h' n') :
    (m >>= f).Obeys (protocol rank proper) (Made n Q) h n := by
  refine made_andThen first fun r h' n' balanced since holds => ?_
  cases r with
  | ok a => exact next a h' n' balanced since (holds a rfl)
  | error e => exact made_error

/-- What is done besides leaves locks and cells. -/
theorem made_work {w : Work} {f : Reply w → Program (calls V Reply E) β}
    (next : ∀ a, (f a).Obeys (protocol rank proper) (Made n Q) (h ++ [⟨.work w, .ok a⟩]) n) :
    (work w >>= f).Obeys (protocol rank proper) (Made n Q) h n := by
  refine obeys_bind_iff.mpr (obeys_call trivial ?_)
  rintro reply after ⟨-, rfl, -⟩
  cases reply with
  | ok a => exact next a
  | error e => exact made_error

theorem made_last {w : Work} {Q : Reply w → History V Reply E → Sense V → Prop}
    (holds : ∀ a, Q a (h ++ [⟨.work w, .ok a⟩]) n) :
    (work w).Obeys (protocol rank proper) (Made n Q) h n := by
  refine obeys_call trivial ?_
  rintro reply after ⟨-, rfl, -⟩
  refine ⟨.refl _, fun a same => ?_⟩
  cases same
  exact holds a

/-- A look at a cell that is known. -/
theorem made_load {Q : Option (V c) → History V Reply E → Sense V → Prop} {v : V c}
    (known : n.known c = some v)
    (holds : ∀ n', Balanced n n' → Q (some v) (h ++ [⟨.load c, .ok (some v)⟩]) n') :
    (load c).Obeys (protocol rank proper) (Made n Q) h n := by
  refine obeys_load (fun u n' balanced known' => ?_) fun absent _ => ?_
  · cases (balanced.known c v known).symm.trans known'
    refine ⟨balanced, fun b same => ?_⟩
    cases same
    exact holds n' balanced
  · rw [known] at absent
    contradiction

end

/-- The cell is known when `found` is executed, and it is made with its lock held. -/
theorem made_double {Q : β → History V Reply E → Sense V → Prop} (free : n.grip c = .free)
    (below : ∀ c', n.grip c' ≠ .free → rank c < rank c')
    (later : ∀ b h x n n', n'.known = n.known → Q b h n → Q b (h ++ [x]) n')
    (exits : ∀ h n' v, n'.known c = some v → found.Obeys (protocol rank proper) (Made n' Q) h n')
    (makes : ∀ h n', Inside c n n' →
      make.Obeys (protocol rank proper) (Made n' fun v h _ => proper c v h) h n') :
    (double c found make).Obeys (protocol rank proper) (Made n Q) h n := by
  apply obeys_bind_iff.mpr
  refine obeys_load (fun v n' balanced known => ?_) fun _ _ => ?_
  · refine (exits _ n' v known).mono ?_
    rintro r h n'' ⟨after, holds⟩
    exact ⟨balanced.trans after, holds⟩
  · have same : n.next (⟨.load c, .ok none⟩ : Interaction (calls V Reply E)) =
      n := by simp [Sense.next, free]
    rw [same]
    refine made_locked free below later fun h n' inside => ?_
    apply obeys_bind_iff.mpr
    refine obeys_load (fun v n'' balanced known => ?_) fun absent sound => ?_
    · refine (exits _ n'' v known).mono ?_
      rintro r h n''' ⟨after, holds⟩
      exact ⟨(inside.balanced balanced).balanced after, holds⟩
    · have looked : n'.next (⟨.load c, .ok none⟩ : Interaction (calls V Reply E)) =
        { n' with grip := Function.update n'.grip c .empty } := by
        have mine := inside.mine
        simp only [Sense.next]
      rw [looked] at sound ⊢
      have inside : Inside c n { n' with grip := Function.update n'.grip c .empty } :=
        ⟨by simp, fun c' other => (Function.update_of_ne other _ _).trans (inside.others c' other),
          inside.known⟩
      refine obeys_bind (obeys_sound sound (makes _ _ inside)) (fun v h n'' made => ?_)
        fun e h n'' made => ⟨inside.balanced made.1.1, fun b same => by cases same⟩
      obtain ⟨⟨balanced, proper⟩, sound⟩ := made
      have empty : n''.grip c = .empty := by
        rw [balanced.grip]
        exact Function.update_self _ _ _
      apply obeys_bind_iff.mpr
      refine obeys_call ⟨empty, proper v rfl⟩ ?_
      rintro reply after ⟨admits, rfl, -⟩
      cases reply with
      | error e => exact admits.elim
      | ok x =>
          refine (exits _ _ v (Function.update_self _ _ _)).mono ?_
          rintro r h n''' ⟨after, holds⟩
          exact ⟨((inside.balanced balanced).stores (sound c empty)).balanced after, holds⟩

end

/-! ### Runs -/

section
variable [DecidableEq ι] {rank : ι → Nat} {proper : (c : ι) → V c → History V Reply E → Prop}
    {i j : κ} {h : History V Reply E}
  {w w' : Cells κ V} {x : Interaction (calls V Reply E)} {l : ι} {v : V l}

/-- What a thread knows is so. -/
structure Fits (i : κ) (h : History V Reply E) (w : Cells κ V) : Prop where
  holds : ∀ l, w.holder l = some i ↔ (sense h).grip l ≠ .free
  known : ∀ l v, (sense h).known l = some v → w.value l = some v
  empty : ∀ l, (sense h).grip l = .empty → w.value l = none
  loaded : ∀ l v, (⟨.load l, .ok (some v)⟩ : Interaction (calls V Reply E)) ∈ h → w.value l = some v

theorem Fits.sound (fits : Fits i h w) : (sense h).Sound := by
  intro l empty
  cases known : (sense h).known l with
  | none => rfl
  | some v =>
      have there := fits.known l v known
      rw [fits.empty l empty] at there
      contradiction

theorem fits_nil (free : ∀ l, w.holder l ≠ some i) : Fits i ([] : History V Reply E) w where
  holds l := ⟨fun held => absurd held (free l), fun held => absurd rfl held⟩
  known l v known := by cases known
  empty l empty := by cases empty
  loaded l v member := absurd member List.not_mem_nil

/-- What a cell holds stays. -/
theorem value_stays (fits : Fits i h w) (lawful : Lawful rank proper h (sense h) x.call)
    (performed : perform i x.call w x.reply w') (there : w.value l = some v) :
    w'.value l = some v := by
  obtain ⟨call, reply⟩ := x
  cases call with
  | store c u =>
      cases reply with
      | error e => exact performed.elim
      | ok y =>
          cases performed
          have none := fits.empty c lawful.1
          have other : l ≠ c := by
            rintro rfl
            rw [none] at there
            contradiction
          exact (Function.update_of_ne other _ _).trans there
  | work o =>
      cases performed
      exact there
  | load c =>
      cases reply with
      | error e => exact performed.elim
      | ok y =>
          cases performed.2
          exact there
  | acquire c | release c =>
      cases reply with
      | error e => exact performed.elim
      | ok y =>
          rw [performed.2]
          exact there

/-- What is replied is what the thread may be told. -/
theorem perform_admits (fits : Fits i h w) (performed : perform i x.call w x.reply w') :
    (sense h).Admits x := by
  obtain ⟨call, reply⟩ := x
  cases call with
  | load c =>
      cases reply with
      | error e => exact performed.elim
      | ok v =>
          obtain ⟨rfl, -⟩ := performed
          exact ⟨fun u known => fits.known c u known, fun empty => fits.empty c empty⟩
  | acquire c | release c | store c u =>
      cases reply with
      | error e => exact performed.elim
      | ok y => trivial
  | work o => trivial

theorem grip_load {n : Sense V} {c : ι} (u : Option (V c)) :
    (n.next (⟨.load c, .ok u⟩ : Interaction (calls V Reply E))).grip l ≠ .free ↔
    n.grip l ≠ .free := by
  cases u with
  | some u => exact Iff.rfl
  | none =>
      simp only [Sense.next]
      split
      · exact Iff.rfl
      · rename_i held
        by_cases same : l = c
        · subst l
          exact iff_of_true (by simp) held
        · simp [same]

/-- The thread that makes a call knows what came of it. -/
theorem fits_own (fits : Fits i h w) (lawful : Lawful rank proper h (sense h) x.call)
    (performed : perform i x.call w x.reply w') : Fits i (h ++ [x]) w' := by
  have stays {l : ι} {v : V l} (there : w.value l = some v) :=
    value_stays fits lawful performed there
  have loaded (l : ι) (v : V l)
      (member : (⟨.load l, .ok (some v)⟩ : Interaction (calls V Reply E)) ∈ h ++ [x]) : w'.value l =
      some v := by
    rcases List.mem_append.mp member with old | new
    · exact stays (fits.loaded l v old)
    · cases List.mem_singleton.mp new
      exact stays performed.1.symm
  obtain ⟨call, reply⟩ := x
  cases call with
  | load c =>
      cases reply with
      | error e => exact performed.elim
      | ok u =>
          obtain ⟨rfl, rfl⟩ := performed
          refine ⟨fun l => ?_, fun l v known => ?_, fun l empty => ?_, loaded⟩
          · rw [sense_snoc, grip_load]
            exact fits.holds l
          · rw [sense_snoc] at known
            cases there : w'.value c with
            | none =>
                rw [there] at known
                refine fits.known l v ?_
                simp only [Sense.next] at known
                split at known <;> exact known
            | some u =>
                rw [there] at known
                by_cases same : l = c
                · subst l
                  have here : ((sense h).next (⟨.load c, .ok (some u)⟩ : Interaction
                      (calls V Reply E))).known c = some u :=
                    Function.update_self _ _ _
                  rw [here] at known
                  cases known
                  exact there
                · exact fits.known l v ((Function.update_of_ne same _ _).symm.trans known)
          · rw [sense_snoc] at empty
            cases there : w'.value c with
            | some u =>
                rw [there] at empty
                exact fits.empty l empty
            | none =>
                by_cases same : l = c
                · subst l
                  exact there
                · rw [there] at empty
                  refine fits.empty l ?_
                  simp only [Sense.next] at empty
                  split at empty
                  · exact empty
                  · exact (Function.update_of_ne same _ _).symm.trans empty
  | acquire c =>
      cases reply with
      | error e => exact performed.elim
      | ok y =>
          obtain ⟨-, rfl⟩ := performed
          refine ⟨fun l => ?_, fun l v known => ?_, fun l empty => ?_, loaded⟩
          · rw [sense_snoc]
            by_cases same : l = c
            · subst l
              simp [Sense.next]
            · simpa [Sense.next, same] using fits.holds l
          · rw [sense_snoc] at known
            exact fits.known l v known
          · rw [sense_snoc] at empty
            by_cases same : l = c
            · subst l
              simp [Sense.next] at empty
            · exact fits.empty l ((Function.update_of_ne same _ _).symm.trans empty)
  | release c =>
      cases reply with
      | error e => exact performed.elim
      | ok y =>
          obtain ⟨-, rfl⟩ := performed
          refine ⟨fun l => ?_, fun l v known => ?_, fun l empty => ?_, loaded⟩
          · rw [sense_snoc]
            by_cases same : l = c
            · subst l
              simp [Sense.next]
            · simpa [Sense.next, same] using fits.holds l
          · rw [sense_snoc] at known
            exact fits.known l v known
          · rw [sense_snoc] at empty
            by_cases same : l = c
            · subst l
              simp [Sense.next] at empty
            · exact fits.empty l ((Function.update_of_ne same _ _).symm.trans empty)
  | store c u =>
      cases reply with
      | error e => exact performed.elim
      | ok y =>
          cases performed
          refine ⟨fun l => ?_, fun l v known => ?_, fun l empty => ?_, loaded⟩
          · rw [sense_snoc]
            by_cases same : l = c
            · subst l
              have held := (fits.holds c).mpr (by rw [lawful.1]; exact Grip.noConfusion)
              simp [Sense.next, held]
            · simpa [Sense.next, same] using fits.holds l
          · rw [sense_snoc] at known
            by_cases same : l = c
            · subst l
              simpa [Sense.next] using known
            · exact stays (fits.known l v ((Function.update_of_ne same _ _).symm.trans known))
          · rw [sense_snoc] at empty
            by_cases same : l = c
            · subst l
              simp [Sense.next] at empty
            · exact (Function.update_of_ne same _ _).trans
                (fits.empty l ((Function.update_of_ne same _ _).symm.trans empty))
  | work o =>
      cases performed
      have still : sense (h ++ [⟨.work o, reply⟩]) = sense h := by
        rw [sense_snoc]
        cases reply <;> rfl
      exact ⟨still ▸ fits.holds, still ▸ fits.known, still ▸ fits.empty, loaded⟩

/-- What the others know stays so. -/
theorem fits_other {g : History V Reply E} (other : j ≠ i) (fits : Fits i h w) (theirs : Fits j g w)
    (lawful : Lawful rank proper h (sense h) x.call) (performed : perform i x.call w x.reply w') :
    Fits j g w' := by
  have stays {l : ι} {v : V l} (there : w.value l = some v) :=
    value_stays fits lawful performed there
  refine ⟨fun l => ?_, fun l v known => stays (theirs.known l v known), fun l empty => ?_,
    fun l v member => stays (theirs.loaded l v member)⟩
  · rw [← theirs.holds l]
    obtain ⟨call, reply⟩ := x
    cases call with
    | acquire c =>
        cases reply with
        | error e => exact performed.elim
        | ok y =>
            obtain ⟨free, rfl⟩ := performed
            by_cases same : l = c
            · subst l
              simp [free, other.symm]
            · simp [same]
    | release c =>
        cases reply with
        | error e => exact performed.elim
        | ok y =>
            obtain ⟨held, rfl⟩ := performed
            by_cases same : l = c
            · subst l
              simp [held, other.symm]
            · simp [same]
    | load c =>
        cases reply with
        | error e => exact performed.elim
        | ok y => rw [performed.2]
    | store c u =>
        cases reply with
        | error e => exact performed.elim
        | ok y => rw [show w' = _ from performed]
    | work o => rw [show w' = _ from performed]
  · have none := theirs.empty l empty
    obtain ⟨call, reply⟩ := x
    cases call with
    | store c u =>
        cases reply with
        | error e => exact performed.elim
        | ok y =>
            cases performed
            have apart : l ≠ c := by
              rintro rfl
              have mine := (fits.holds l).mpr (by rw [lawful.1]; exact Grip.noConfusion)
              have yours := (theirs.holds l).mpr (by rw [empty]; exact Grip.noConfusion)
              rw [mine] at yours
              exact other (Option.some.inj yours).symm
            exact (Function.update_of_ne apart _ _).trans none
    | acquire c | release c | load c =>
        cases reply with
        | error e => exact performed.elim
        | ok y =>
            rw [performed.2]
            exact none
    | work o =>
        rw [show w' = _ from performed]
        exact none

end

section
variable [DecidableEq ι] {rank : ι → Nat} {proper : (c : ι) → V c → History V Reply E → Prop}
  {programs : Program (calls V Reply E) α → Prop} {c c' : Config κ (Cells κ V) (calls V Reply E) α}
  {e : Event κ (Cells κ V) (calls V Reply E) α}
    {trace : List (Event κ (Cells κ V) (calls V Reply E) α)} {i j : κ} {l : ι} {v u : V l}
  {post : Post (calls V Reply E) (Sense V) α}

/-- The cells are as the threads know them, every thread goes on lawfully, and what a cell holds is
proper. -/
structure Synced (rank : ι → Nat) (proper : (c : ι) → V c → History V Reply E → Prop)
    (post : Post (calls V Reply E) (Sense V) α) (c : Config κ (Cells κ V) (calls V Reply E) α) :
    Prop where
  fits : ∀ i, Fits i (c.threads i).past c.world
  goes : ∀ i seen rest, c.threads i = .active seen rest →
    rest.Obeys (protocol rank proper) post seen (sense seen)
  there : ∀ i seen, c.threads i ≠ .lost seen
  made : ∀ l v, c.world.value l = some v → ∃ i, proper l v (c.threads i).past

theorem fresh_synced (fresh : ∀ i, c.threads i = .absent) (free : ∀ l, c.world.holder l = none)
    (unset : ∀ l, c.world.value l = none) : Synced rank proper post c where
  fits i := by
    rw [fresh i]
    exact fits_nil fun l => by simp [free l]
  goes i seen rest active := by simp [fresh i] at active
  there i seen lost := by simp [fresh i] at lost
  made l v there := by simp [unset l] at there

/-- Every call can be performed but a lock that is taken. -/
theorem performs [∀ w, Nonempty (Reply w)] {call : Call V Work} {h : History V Reply E}
    {w : Cells κ V} (fits : Fits i h w) (lawful : Lawful rank proper h (sense h) call)
    (free : ∀ l, call = .acquire l → w.holder l = none) :
    ∃ (a : call.Answer Reply) (w' : Cells κ V), perform (E := E) i call w (.ok a) w' := by
  cases call with
  | load l => exact ⟨w.value l, w, rfl, rfl⟩
  | acquire l => exact ⟨(), _, free l rfl, rfl⟩
  | release l => exact ⟨(), _, (fits.holds l).mpr lawful, rfl⟩
  | store l v => exact ⟨(), _, rfl⟩
  | work o =>
      obtain ⟨a⟩ : Nonempty (Reply o) := inferInstance
      exact ⟨a, w, rfl⟩

variable [DecidableEq κ]

theorem step_synced (later : ∀ l v h x, proper l v h → proper l v (h ++ [x]))
    (starts : ∀ p, programs p → p.Obeys (protocol rank proper) post [] .none)
    (synced : Synced rank proper post c) (step : (machine programs).Step c e c') :
    Synced rank proper post c' := by
  cases step with
  | @spawn i p unused entry =>
      have past (j : κ) : (Function.update c.threads i (.active [] p) j).past =
          (c.threads j).past := by
        by_cases same : j = i
        · subst j
          simp [unused, Thread.past]
        · rw [Function.update_of_ne same]
      refine ⟨fun j => by rw [past j]; exact synced.fits j, fun j seen rest active => ?_,
        fun j seen lost => ?_, fun l v there => ?_⟩
      · by_cases same : j = i
        · subst j
          simp only [Function.update_self, Thread.active.injEq] at active
          obtain ⟨rfl, rfl⟩ := active
          exact starts _ entry
        · exact synced.goes j seen rest ((Function.update_of_ne same _ _).symm.trans active)
      · by_cases same : j = i
        · subst j
          simp at lost
        · exact synced.there j seen ((Function.update_of_ne same _ _).symm.trans lost)
      · obtain ⟨j, made⟩ := synced.made l v there
        exact ⟨j, by rw [past j]; exact made⟩
  | @call i seen call onReply reply world awaiting performed =>
      change perform i call c.world reply world at performed
      obtain ⟨lawful, rest⟩ := synced.goes i _ _ awaiting
      have fits := synced.fits i
      rw [awaiting] at fits
      have own := fits_own (x := ⟨call, reply⟩) fits lawful performed
      have mine : (Function.update c.threads i (.active (seen ++ [⟨call, reply⟩]) (onReply reply))
          i).past = seen ++ [⟨call, reply⟩] := by
        rw [Function.update_self]
        rfl
      refine ⟨fun j => ?_, fun j past later active => ?_, fun j past lost => ?_, fun l v there =>
        ?_⟩
      · by_cases same : j = i
        · subst j
          rw [mine]
          exact own
        · dsimp only
          rw [Function.update_of_ne same]
          exact fits_other (x := ⟨call, reply⟩) same fits (synced.fits j) lawful performed
      · by_cases same : j = i
        · subst j
          simp only [Function.update_self, Thread.active.injEq] at active
          obtain ⟨rfl, rfl⟩ := active
          rw [sense_snoc]
          exact rest reply _ ⟨perform_admits (x := ⟨call, reply⟩) fits performed,
            rfl, by rw [← sense_snoc]; exact own.sound⟩
        · exact synced.goes j past later ((Function.update_of_ne same _ _).symm.trans active)
      · by_cases same : j = i
        · subst j
          simp at lost
        · exact synced.there j past ((Function.update_of_ne same _ _).symm.trans lost)
      · have kept (old : c.world.value l = some v) : ∃ j, proper l v
            (Function.update c.threads i (.active (seen ++ [⟨call, reply⟩]) (onReply reply))
                j).past := by
          obtain ⟨j, made⟩ := synced.made l v old
          refine ⟨j, ?_⟩
          by_cases same : j = i
          · subst j
            rw [mine]
            rw [awaiting] at made
            exact later _ _ _ _ made
          · rwa [Function.update_of_ne same]
        cases call with
        | store d u =>
            cases reply with
            | error e => exact performed.elim
            | ok y =>
                cases performed
                by_cases same : l = d
                · subst l
                  have here : Function.update c.world.value d (some u) d = some u :=
                    Function.update_self _ _ _
                  cases Option.some.inj (here.symm.trans there)
                  exact ⟨i, by rw [mine]; exact later _ _ _ _ lawful.2⟩
                · exact kept ((Function.update_of_ne same _ _).symm.trans there)
        | load d | acquire d | release d =>
            cases reply with
            | error e => exact performed.elim
            | ok y =>
                obtain ⟨-, rfl⟩ := performed
                exact kept there
        | work o =>
            cases performed
            exact kept there
  | again returned next => exact next.elim
  | drift moved => exact moved.elim
  | crash fell => exact fell.elim

def writes (l : ι) : Event κ (Cells κ V) (calls V Reply E) α → Bool
  | .call _ ⟨.store c _, .ok _⟩ _ => c = l
  | _ => false

/-- A cell is written when it is empty, and only by the writes that are seen. -/
theorem step_writes (synced : Synced rank proper post c) (step : (machine programs).Step c e c') :
    (writes l e).toNat + (c.world.value l).isSome.toNat = (c'.world.value l).isSome.toNat := by
  cases step with
  | spawn => simp [writes]
  | @call i seen call onReply reply world awaiting performed =>
      change perform i call c.world reply world at performed
      have fits := synced.fits i
      have lawful := (synced.goes i _ _ awaiting).1
      rw [awaiting] at fits
      cases call with
      | store d u =>
          cases reply with
          | error e => exact performed.elim
          | ok y =>
              cases performed
              by_cases same : l = d
              · subst l
                simp [writes, fits.empty d lawful.1]
              · simp [writes, same, Ne.symm same]
      | load d | acquire d | release d =>
          cases reply with
          | error e => exact performed.elim
          | ok y =>
              obtain ⟨-, rfl⟩ := performed
              simp [writes]
      | work o =>
          cases performed
          simp [writes]
  | again returned next => exact next.elim
  | drift moved => exact moved.elim
  | crash fell => exact fell.elim

section
variable (later : ∀ l v h x, proper l v h → proper l v (h ++ [x]))
  (starts : ∀ p, programs p → p.Obeys (protocol rank proper) post [] .none)
include later starts

theorem run_synced (synced : Synced rank proper post c)
    (run : Transition.Run (machine programs).Step c trace c') : Synced rank proper post c' :=
  run.invariant (fun synced step => step_synced later starts synced step) synced

/-- A cell that was empty is written once at most. -/
theorem run_writes (synced : Synced rank proper post c)
    (run : Transition.Run (machine programs).Step c trace c') (unset : c.world.value l = none) :
    trace.countP (writes l) = (c'.world.value l).isSome.toNat := by
  induction run with
  | refl => simp [unset]
  | @next past t e u earlier taken ih =>
      have step := step_writes (l := l) (run_synced later starts synced earlier) taken
      rw [List.countP_append, ih, ← step, Nat.add_comm]
      cases written : writes l e <;> simp [written]

end

/-- Whoever waits for a lock waits for a thread that is further down, so one of them goes on. -/
theorem progress [∀ w, Nonempty (Reply w)] (released : ∀ r h n, post r h n → ∀ l, n.grip l = .free)
    (synced : Synced rank proper post c) (live : (c.threads i).Live) :
    ∃ j call a c', (machine programs).Step c (.call j ⟨call, .ok a⟩ c.world) c' := by
  have goes (i : κ) (seen : History V Reply E) (call : Call V Work) (onReply)
    (active : c.threads i = .active seen (.await call onReply))
      (free : ∀ l, call = .acquire l → c.world.holder l = none) : ∃ j call a c',
          (machine programs).Step c (.call j ⟨call, .ok a⟩ c.world) c' := by
    have fits := synced.fits i
    rw [active] at fits
    obtain ⟨a, w, performed⟩ := performs fits (synced.goes i _ _ active).1 free
    exact ⟨i, call, a, _, .call active performed⟩
  have down (n : Nat) : ∀ i seen call onReply, c.threads i = .active seen (.await call onReply) →
      (∀ l, call = .acquire l → rank l < n) →
          ∃ j call a c', (machine programs).Step c (.call j ⟨call, .ok a⟩ c.world) c' := by
    induction n with
    | zero =>
        intro i seen call onReply active below
        exact goes i seen call onReply active fun l same =>
          absurd (below l same) (Nat.not_lt_zero _)
    | succ n ih =>
        intro i seen call onReply active below
        by_cases free : ∀ l, call = .acquire l → c.world.holder l = none
        · exact goes i seen call onReply active free
        · simp only [not_forall] at free
          obtain ⟨l, rfl, taken⟩ := free
          obtain ⟨j, holder⟩ := Option.ne_none_iff_exists'.mp taken
          have held := ((synced.fits j).holds l).mp holder
          cases thread : c.threads j with
          | absent =>
              rw [thread] at held
              exact absurd rfl held
          | lost seen => exact absurd thread (synced.there j seen)
          | active past rest =>
              rw [thread] at held
              cases rest with
              | done result => exact absurd (released _ _ _ (synced.goes j _ _ thread) l) held
              | await other onReply =>
                  refine ih j past other onReply thread fun l' same => ?_
                  subst same
                  have lower := (synced.goes j _ _ thread).1.2 l held
                  exact Nat.lt_of_lt_of_le lower (Nat.le_of_lt_succ (below l rfl))
  obtain ⟨seen, rest, active, waiting⟩ := live
  obtain ⟨call, onReply, rfl⟩ := waiting.await
  cases call with
  | acquire l =>
      refine down (rank l + 1) i seen _ onReply active fun l' same => ?_
      cases same
      exact Nat.lt_succ_self _
  | load l | release l | store l v | work o =>
      refine goes i seen _ onReply active fun l' same => ?_
      cases same

end

end Once
