import WiseOrder.Runtime.Rules

/-! What `send` keeps. Between its two transactions it only appends to a file and
posts cards, and swallows what these raise; so whatever its calls leave alone
holds when it returns. -/
namespace WiseOrder.ApprovalGateway
open Coroutine Coroutine.Program Relational

/-- The calls that deliver a card. -/
def Delivery : Call → Prop
  | .now | .appendFile _ | .httpOpen | .httpPost .. | .httpClose => True
  | _ => False

/-- Deliveries whose exception is swallowed. -/
def Attempt : Call → Prop
  | .appendFile _ | .httpPost .. => True
  | _ => False

theorem Attempt.delivery {c : Call} (attempt : Attempt c) : Delivery c := by
  cases c with
  | appendFile line | httpPost url body => trivial
  | _ => exact attempt.elim

/-! ### The calls of `send` -/

section
variable {s : Settings} {may : Call → Prop} {req : ApprovalRequest} {h : History}

theorem within_deliver (delivers : ∀ c, Delivery c → may c) (name url : String) (body : Json) :
    (deliver name url body).Within may :=
  within_catching (within_bind (within_call (delivers _ (by trivial))) fun _ => trivial) fun _ =>
    trivial

theorem within_sendFile (delivers : ∀ c, Delivery c → may c) (record : Record) :
    (sendFile record).Within may :=
  within_catching (within_bind (within_call (delivers _ (by trivial))) fun _ => trivial) fun _ =>
    trivial

theorem within_sendCards (delivers : ∀ c, Delivery c → may c) (record : Record) :
    (sendCards s record).Within may := by
  apply within_bind (within_call (delivers _ (by trivial)))
  intro _
  apply within_andThen
  · apply within_bind (within_ite (fun _ => within_deliver delivers _ _ _) fun _ => by trivial)
    intro discord
    exact within_bind (within_ite (fun _ => within_deliver delivers _ _ _) fun _ => by trivial)
      fun telegram => trivial
  · intro result
    apply within_andThen (within_call (delivers _ (by trivial)))
    intro closed
    cases closed <;> trivial

theorem within_send (delivers : ∀ c, Delivery c → may c) (asks : may (.session (.addApproval req)))
    (marks : ∀ id via, may (.session (.setDelivered id via))) : (send s req).Within may := by
  apply within_bind (within_call asks)
  intro approvalId
  apply within_bind (within_call (delivers _ (by trivial)))
  intro ts
  apply within_bind (within_sendFile delivers _)
  intro file
  exact within_bind (within_sendCards delivers _) fun _ =>
    within_bind (within_call (marks _ _)) fun _ => trivial

/-- The id that `send` returns is that of the row it has inserted. -/
theorem leads_send : (send s req).Leads
    (fun r h => ∀ id, r = .ok id → (⟨.session (.addApproval req), .ok id⟩ : Interaction calls) ∈
      h) h := by
  apply leads_call
  · exact fun _ _ same => nomatch same
  intro approvalId
  have returns (record : Record) (h : History) : (do
      let file ← sendFile record
      let cards ← sendCards s record
      let delivered := file ++ cards
      session (.setDelivered approvalId (if delivered.isEmpty then none
        else some (",".intercalate delivered)))
      return approvalId : Async Nat).Leads (fun r _ => ∀ id, r = .ok id → id = approvalId) h := by
    refine leads_bind leads_any (fun file _ _ => ?_) fun _ _ _ _ same => nomatch same
    refine leads_bind leads_any (fun cards _ _ => ?_) fun _ _ _ _ same => nomatch same
    refine leads_call (fun _ _ same => nomatch same) fun _ id same => ?_
    exact (Except.ok.inj same).symm
  apply leads_call
  · exact fun _ _ same => nomatch same
  intro ts
  apply (returns ⟨approvalId, ts, req⟩ _).grows.mono
  rintro r h' - ⟨one, more, rfl⟩ id same
  cases one id same
  simp

end

/-! ### What outlives it -/

/-- `good` outlives the deliveries of an approval, and an exception out of one
leads to `bad`, which closing the client does not mend. -/
structure Outlives (good : History → OwnRows → Prop)
    (bad : PyException → History → OwnRows → Prop) : Prop where
  replied : ∀ {h v} {c : Call} (x : c.Reply), Delivery c → good h v → good (h ++ [⟨c, .ok x⟩]) v
  swallowed : ∀ {h v c} e, Attempt c → e.isException = true → good h v →
    good (h ++ [⟨c, .error e⟩]) v
  raised : ∀ {h v c} e, Delivery c → c.Outside → (Attempt c → e.isException = false) → good h v →
    bad e (h ++ [⟨c, .error e⟩]) v
  closed : ∀ {h v e}, bad e h v → bad e (h ++ [⟨.httpClose, .ok ()⟩]) v
  unclosed : ∀ {h v e} e', bad e h v → bad e' (h ++ [⟨.httpClose, .error e'⟩]) v

section
variable {s : Settings} {h : History} {v : OwnRows} {good : History → OwnRows → Prop}
  {bad : PyException → History → OwnRows → Prop}

theorem obeys_delivery (outlives : Outlives good bad) {c : Call} (delivery : Delivery c)
    (outside : c.Outside) (passes : ¬ Attempt c) (holds : good h v) :
    (await c).Obeys (pipelineProtocol s) (ending (fun _ => good) bad) h v := by
  apply obeys_await outside
  · cases c with
    | appendFile line | httpPost url body | httpOpen | httpClose | now => trivial
    | _ => exact delivery.elim
  · intro reply
    cases reply with
    | ok x => exact outlives.replied x delivery holds
    | error e =>
        exact outlives.raised e delivery outside (fun attempt => absurd attempt passes) holds

/-- One attempt, whose exception is swallowed. -/
theorem obeys_attempt (outlives : Outlives good bad) {c : Call} (attempt : Attempt c)
    (outside : c.Outside) (holds : good h v) (f : c.Reply → List String) :
    (tryExcept (do let r ← await c; return f r) fun _ => return []).Obeys (pipelineProtocol s)
      (ending (fun _ => good) bad) h v := by
  have runs : (do let r ← await c; return f r : Async (List String)).Obeys (pipelineProtocol s)
      (ending (fun _ => good) fun e h v => (e.isException = true → good h v) ∧
          (e.isException = false → bad e h v)) h v := by
    apply obeys_bind_iff.mpr
    apply obeys_await outside
    · cases c with
      | appendFile line | httpPost url body => trivial
      | _ => exact attempt.elim
    · intro reply
      cases reply with
      | ok x => exact outlives.replied x attempt.delivery holds
      | error e =>
          exact ⟨fun caught => outlives.swallowed e attempt caught holds,
            fun passes => outlives.raised e attempt.delivery outside (fun _ => passes) holds⟩
  apply obeys_tryExcept runs
  · exact fun a h v holds => holds
  · exact fun e h v caught holds => holds.1 caught
  · exact fun e h v passes holds => holds.2 passes

theorem obeys_sendFile (outlives : Outlives good bad) (record : Record) (holds : good h v) :
    (sendFile record).Obeys (pipelineProtocol s) (ending (fun _ => good) bad) h v :=
  obeys_attempt outlives (c := .appendFile (record.json.dumps ++ "\n")) trivial
    trivial holds fun _ => ["file"]

theorem obeys_deliver (outlives : Outlives good bad) (name url : String)
    (body : Json) (holds : good h v) :
    (deliver name url body).Obeys (pipelineProtocol s) (ending (fun _ => good) bad) h v :=
  obeys_attempt outlives (c := .httpPost url body) trivial trivial holds
    fun r => if HttpResponse.statusCode r < 300 then [name] else []

theorem obeys_sendDiscord (outlives : Outlives good bad) (record : Record) (holds : good h v) :
    (sendDiscord s record).Obeys (pipelineProtocol s) (ending (fun _ => good) bad) h v := by
  unfold sendDiscord
  split
  · exact obeys_deliver outlives _ _ _ holds
  · exact holds

theorem obeys_sendTelegram (outlives : Outlives good bad) (record : Record) (holds : good h v) :
    (sendTelegram s record).Obeys (pipelineProtocol s) (ending (fun _ => good) bad) h v := by
  unfold sendTelegram
  split
  · exact obeys_deliver outlives _ _ _ holds
  · exact holds

theorem obeys_sendCards (outlives : Outlives good bad) (record : Record) (holds : good h v) :
    (sendCards s record).Obeys (pipelineProtocol s) (ending (fun _ => good) bad) h v := by
  apply obeys_bind (obeys_delivery outlives (c := .httpOpen) trivial trivial
    (fun attempt => attempt) holds)
  · intro _ h v holds
    have body : (do
        let discord ← sendDiscord s record
        let telegram ← sendTelegram s record
        return discord ++ telegram : Async (List String)).Obeys (pipelineProtocol s)
          (ending (fun _ => good) bad) h v := by
      apply obeys_bind (obeys_sendDiscord outlives record holds)
      · intro discord h v holds
        apply obeys_bind (obeys_sendTelegram outlives record holds)
        · exact fun telegram h v holds => holds
        · exact fun e h v raised => raised
      · exact fun e h v raised => raised
    apply obeys_finallyDo body
    intro result h v ended
    apply obeys_await
    · trivial
    · trivial
    · intro reply
      cases result with
      | ok cards =>
          cases reply with
          | ok x => exact outlives.replied x trivial ended
          | error e => exact outlives.raised e trivial trivial (fun attempt => attempt.elim) ended
      | error raised =>
          cases reply with
          | ok x => exact outlives.closed ended
          | error e => exact outlives.unclosed e ended
  · exact fun e h v raised => raised

/-- The rule for `send`: `good` starts with the approval row inserted, and `sent`
holds once the row says how the card was delivered. -/
theorem obeys_send {req : ApprovalRequest} (good : Nat → History → OwnRows → Prop)
    {sent : History → OwnRows → Prop} (lawful : (Transaction.addApproval req).Lawful h v)
    (outlives : ∀ id, Outlives (good id) bad)
    (added : ∀ (id : Nat) now, good id (h ++ [⟨.session (.addApproval req), .ok id⟩])
      (Transaction.commit now v (.addApproval req) id))
    (refused : ∀ e v', (Transaction.addApproval req).Unanswered v v' →
      bad e (h ++ [⟨.session (.addApproval req), .error e⟩]) v')
    (held : ∀ id h v, good id h v → v.approvals.Holds id)
    (marked : ∀ id via now h v, good id h v →
      sent (h ++ [⟨.session (.setDelivered id via), .ok ()⟩])
      (Transaction.commit now v (.setDelivered id via) ()))
    (unmarked : ∀ id via e h v v', good id h v → (Transaction.setDelivered id via).Unanswered v v' →
      bad e (h ++ [⟨.session (.setDelivered id via), .error e⟩]) v') :
    (send s req).Obeys (pipelineProtocol s) (ending (fun _ => sent) bad) h v := by
  apply obeys_bind_iff.mpr
  apply obeys_session
  · exact lawful
  · intro id now _
    have holds := added id now
    apply obeys_bind_iff.mpr
    apply obeys_utcnow trivial
    intro ts
    have holds := (outlives id).replied (c := .now) ts trivial holds
    apply obeys_bind (obeys_sendFile (outlives id) _ holds)
    · intro file h v holds
      apply obeys_bind (obeys_sendCards (outlives id) _ holds)
      · intro cards h v holds
        apply obeys_bind_iff.mpr
        apply obeys_session
        · exact held id h v holds
        · exact fun _ later _ => marked id _ later h v holds
        · exact fun e v' unanswered => unmarked id _ e h v v' holds unanswered
      · exact fun e h v raised => raised
    · exact fun e h v raised => raised
  · exact refused

end

end WiseOrder.ApprovalGateway
