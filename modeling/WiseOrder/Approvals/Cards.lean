import WiseOrder.Approvals.Delivery

/-! When a call asks for approval, and what it may do from then on. Cards go out once the
row of the approval is committed; what is raised from then on reaches the caller
unless it comes from an attempt at delivery. -/
namespace WiseOrder
open Coroutine Coroutine.Program ApprovalGateway
variable {h more : History} {c : Call} {e : PyException} {s : Settings} {α β : Type}

namespace History

/-- The row of an approval was committed. -/
def Asked (h : History) : Prop :=
  ∃ (req : ApprovalRequest) (id : Nat),
    (⟨.session (.addApproval req), .ok id⟩ : Interaction calls) ∈ h

/-- After the row of an approval was committed, a call raised an exception that was not
swallowed. -/
def Hurt (h : History) : Prop :=
  ∃ before c e after, h = before ++ ⟨c, .error e⟩ :: after ∧ Asked before ∧ e.isException = true ∧
    ¬ Attempt c

/-- The workflow may be marked failed: no card is out, or the call was hurt. -/
def Failing (h : History) : Prop := Asked h → Hurt h

theorem asked_append : Asked (h ++ more) ↔ Asked h ∨ Asked more := by
  simp only [Asked, List.mem_append, exists_or]

theorem Asked.append (asked : Asked h) (more : History) : Asked (h ++ more) :=
  asked_append.mpr (.inl asked)

theorem Hurt.append (hurt : Hurt h) (more : History) : Hurt (h ++ more) := by
  obtain ⟨before, c, e, after, rfl, asked, caught, loud⟩ := hurt
  exact ⟨before, c, e, after ++ more, by simp, asked, caught, loud⟩

theorem Hurt.asked (hurt : Hurt h) : Asked h := by
  obtain ⟨before, c, e, after, rfl, asked, -⟩ := hurt
  exact asked.append _

theorem hurt_error (asked : Asked h) (caught : e.isException = true) (loud : ¬ Attempt c) :
    Hurt (h ++ [⟨c, .error e⟩]) :=
  ⟨h, c, e, [], rfl, asked, caught, loud⟩

theorem unasked_nil : ¬ Asked [] := fun ⟨_, _, member⟩ => List.not_mem_nil member

end History

open History

/-- Cards go out when the row is there, and a workflow with an approval is marked failed only after
the call was hurt. -/
def cardAllowed (h : History) (c : Call) : Prop :=
  match c with
  | .session (.failWorkflow ..) => Failing h
  | .appendFile _ | .httpPost .. => Asked h
  | _ => True

def cardProtocol : Protocol calls Unit := ⟨fun h c _ => cardAllowed h c, fun _ _ _ _ => True⟩

namespace Call

/-- Neither asks for an approval nor delivers a card. -/
def Plain : Call → Prop
  | .session (.addApproval _) | .appendFile _ | .httpPost .. => False
  | _ => True

/-- Does not mark a workflow failed. -/
def Unfailing : Call → Prop
  | .session (.failWorkflow ..) => False
  | _ => True

end Call

theorem Call.Plain.allowed (plain : c.Plain) (failing : Failing h) : cardAllowed h c := by
  cases c with
  | session t =>
      cases t with
      | failWorkflow id event error => exact failing
      | _ => trivial
  | appendFile | httpPost => exact plain.elim
  | _ => trivial

theorem Call.Unfailing.allowed (unfailing : c.Unfailing) (asked : Asked h) : cardAllowed h c := by
  cases c with
  | session t =>
      cases t with
      | failWorkflow id event error => exact unfailing.elim
      | _ => trivial
  | appendFile | httpPost => exact asked
  | _ => trivial

theorem Call.Plain.asked (plain : c.Plain) {reply : Except PyException c.Reply}
    (asked : Asked (h ++ [⟨c, reply⟩])) : Asked h := by
  rcases asked_append.mp asked with before | ⟨req, id, member⟩
  · exact before
  · cases List.mem_singleton.mp member
    exact plain.elim

/-- Apart from `send`, a program that has not asked goes on without asking. -/
theorem obeys_plain {m : Async α} (within : m.Within Call.Plain) (unasked : ¬ Asked h) :
    m.Obeys cardProtocol (fun _ h _ => ¬ Asked h) h () := by
  induction m generalizing h with
  | done result => exact unasked
  | await call onReply ih =>
      exact ⟨within.1.allowed fun asked => absurd asked unasked,
        fun reply _ _ => ih reply (within.2 reply) fun asked => unasked (within.1.asked asked)⟩

/-- Apart from `send`, a program may fail to the end once it may. -/
theorem obeys_failing {m : Async α} (within : m.Within Call.Plain) (failing : Failing h) :
    m.Obeys cardProtocol (fun _ h _ => Failing h) h () := by
  induction m generalizing h with
  | done result => exact failing
  | await call onReply ih =>
      exact ⟨within.1.allowed failing, fun reply _ _ => ih reply (within.2 reply)
        fun asked => (failing (within.1.asked asked)).append _⟩

/-! ### After asking -/

/-- The program was hurt if it ends with an exception. -/
def blamed : Post calls Unit α := fun r h _ => Asked h ∧ ∀ e, r = .error e →
    e.isException = true → Hurt h

/-- From when the row is there on, whatever the program raises was raised by one of its calls. -/
def Blames (m : Async α) : Prop := ∀ h, Asked h → m.Obeys cardProtocol blamed h ()

theorem Blames.pure (a : α) : Blames (Pure.pure a : Async α) := fun _ asked => ⟨asked, nofun⟩

theorem Blames.call (unfailing : c.Unfailing) (loud : ¬ Attempt c) : Blames (await c) := by
  intro h asked
  refine ⟨unfailing.allowed asked, fun reply _ _ => ⟨asked.append _, ?_⟩⟩
  rintro e rfl caught
  exact hurt_error asked caught loud

theorem Blames.bind {m : Async α} {f : α → Async β} (first : Blames m) (next : ∀ a, Blames (f a)) :
    Blames (m >>= f) := by
  intro h asked
  apply obeys_bind (first h asked)
  · exact fun a h _ holds => next a h holds.1
  · rintro e h _ ⟨asked, hurt⟩
    exact ⟨asked, fun e' same => hurt e' (by cases same; rfl)⟩

/-- An attempt swallows what it raises. -/
theorem Blames.attempt (unfailing : c.Unfailing) (f : c.Reply → List String) :
    Blames (tryExcept (do let r ← await c; return f r) fun _ => return []) := by
  intro h asked
  have body : (do let r ← await c; return f r : Async (List String)).Obeys cardProtocol
      (fun _ h _ => Asked h) h () := by
    apply obeys_bind_iff.mpr
    refine ⟨unfailing.allowed asked, fun reply _ _ => ?_⟩
    cases reply <;> exact asked.append _
  apply obeys_catching body
  · exact fun a h _ asked => ⟨asked, nofun⟩
  · exact fun e h _ caught asked => ⟨asked, nofun⟩
  · refine fun e h _ passes asked => ⟨asked, fun e' same caught => ?_⟩
    cases same
    exact absurd (passes.symm.trans caught) (by decide)

theorem Blames.finally {m : Async α} {closing : Async β}
    (body : Blames m) (closes : Blames closing) : Blames (m.finallyDo closing) := by
  intro h asked
  apply obeys_finallyDo (body h asked)
  rintro result h - ⟨asked, hurt⟩
  apply (closes h asked).grows.mono
  rintro closed h' - ⟨⟨asked', hurt'⟩, more, rfl⟩
  cases closed with
  | ok b => exact ⟨asked', fun e same caught => (hurt e same caught).append more⟩
  | error e => exact ⟨asked', fun e' same => hurt' e' (by cases same; rfl)⟩

namespace ApprovalGateway

theorem blames_deliver (name url : String) (body : Json) : Blames (deliver name url body) :=
  .attempt (c := .httpPost url body) trivial fun r => if HttpResponse.statusCode r < 300 then [name]
    else []

theorem blames_sendFile (record : Record) : Blames (sendFile record) :=
  .attempt (c := .appendFile (record.json.dumps ++ "\n")) trivial fun _ => ["file"]

theorem blames_sendDiscord (record : Record) : Blames (sendDiscord s record) := by
  unfold sendDiscord
  split
  · exact blames_deliver _ _ _
  · exact .pure _

theorem blames_sendTelegram (record : Record) : Blames (sendTelegram s record) := by
  unfold sendTelegram
  split
  · exact blames_deliver _ _ _
  · exact .pure _

theorem blames_sendCards (record : Record) : Blames (sendCards s record) := by
  refine .bind (.call trivial id) fun _ => .finally ?_ (.call trivial id)
  exact .bind (blames_sendDiscord record) fun discord =>
    .bind (blames_sendTelegram record) fun telegram => .pure _

/-- An exception out of `send` finds the call not asking yet, or hurt. -/
theorem obeys_sendCard {req : ApprovalRequest} (unasked : ¬ Asked h) :
    (send s req).Obeys cardProtocol (ending (fun _ h _ => Asked h)
      fun e h _ => e.isException = true → Failing h) h () := by
  apply obeys_bind_iff.mpr
  refine ⟨trivial, fun reply _ _ => ?_⟩
  cases reply with
  | error e =>
      intro _ asked
      rcases asked_append.mp asked with before | ⟨req, id, member⟩
      · exact absurd before unasked
      · cases List.mem_singleton.mp member
  | ok approvalId =>
      have asked : Asked (h ++ [⟨.session (.addApproval req), .ok approvalId⟩]) :=
        ⟨req, approvalId, List.mem_append_right _ (List.mem_singleton.mpr rfl)⟩
      have rest : Blames (do
          let ts ← utcnow
          let file ← sendFile ⟨approvalId, ts, req⟩
          let cards ← sendCards s ⟨approvalId, ts, req⟩
          let delivered := file ++ cards
          session (.setDelivered approvalId (if delivered.isEmpty then none
            else some (",".intercalate delivered)))
          return approvalId) :=
        .bind (.call trivial id) fun ts => .bind (blames_sendFile _) fun file =>
          .bind (blames_sendCards _) fun cards => .bind (.call trivial id) fun _ => .pure _
      apply (rest _ asked).mono
      rintro r h - ⟨asked, hurt⟩
      cases r with
      | ok id => exact asked
      | error e => exact fun caught _ => hurt e rfl caught

end ApprovalGateway

end WiseOrder
