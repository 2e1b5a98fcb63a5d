import WiseOrder.Runtime.Protocol

/-! Rules for calls that act on the caller's own rows, and for the shape of `try`
blocks, whatever a protocol allows. -/
namespace WiseOrder
open Coroutine Coroutine.Program Relational
variable {admits : History → Call → OwnRows → Prop} {h : History} {v : OwnRows}

section
variable {t : Transaction} {post : Post calls OwnRows t.Reply}

theorem obeys_session (lawful : admits h (.session t) v)
    (commits : ∀ x now, t.New v x → post (.ok x) (h ++ [⟨.session t, .ok x⟩]) (t.commit now v x))
    (raises : ∀ e v', t.Unanswered v v' → post (.error e) (h ++ [⟨.session t, .error e⟩]) v') :
    (session t).Obeys ⟨admits, ownEffect⟩ post h v := by
  refine ⟨lawful, fun reply after moved => ?_⟩
  cases reply with
  | ok x =>
      obtain ⟨now, new, rfl⟩ := moved
      exact commits x now new
  | error e => exact raises e after moved

end

theorem obeys_utcnow {post : Post calls OwnRows Time} (admitted : admits h .now v)
    (replies : ∀ now, post (.ok now) (h ++ [⟨.now, .ok now⟩]) v) :
    utcnow.Obeys ⟨admits, ownEffect⟩ post h v := by
  refine ⟨admitted, fun reply after moved => ?_⟩
  cases reply with
  | ok now =>
      cases moved
      exact replies now
  | error e => exact moved.elim

/-- A call that is neither a transaction nor a reading of the clock. -/
def Call.Outside : Call → Prop
  | .session _ | .now => False
  | _ => True

theorem ownEffect_outside {c : Call} {reply : Except PyException c.Reply}
    {after : OwnRows} (outside : c.Outside) (moved : ownEffect c v reply after) : after = v := by
  cases c with
  | session t => exact outside.elim
  | now => exact outside.elim
  | _ => cases reply <;> exact moved

theorem obeys_await {c : Call} {post : Post calls OwnRows c.Reply} (outside : c.Outside)
    (admitted : admits h c v) (replies : ∀ reply, post reply (h ++ [⟨c, reply⟩]) v) :
    (await c).Obeys ⟨admits, ownEffect⟩ post h v := by
  refine ⟨admitted, fun reply after moved => ?_⟩
  cases ownEffect_outside outside moved
  exact replies reply

theorem obeys_ofExcept {r : Except PyException α} {post : Post calls OwnRows α}
    (holds : post r h v) : (ofExcept r : Async α).Obeys ⟨admits, ownEffect⟩ post h v := holds

/-- `try … except Exception`, with what the body ends in as the middle assertion. -/
theorem obeys_tryExcept {body : Async α} {handler : PyException → Async α}
    {middle post : Post calls OwnRows α} (runs : body.Obeys ⟨admits, ownEffect⟩ middle h v)
    (returns : ∀ a h v, middle (.ok a) h v → post (.ok a) h v)
    (handles : ∀ e h v, e.isException = true → middle (.error e) h v →
      (handler e).Obeys ⟨admits, ownEffect⟩ post h v)
    (passes : ∀ e h v, e.isException = false → middle (.error e) h v → post (.error e) h v) :
    (tryExcept body handler).Obeys ⟨admits, ownEffect⟩ post h v :=
  obeys_catching runs returns handles passes

end WiseOrder
