import WiseOrder.Approvals.Decision

/-! Any number of sends and decisions at once. Each approval keeps what its send was
given, and what becomes of its delivery and what is decided on it do not get in each
other's way. -/
namespace WiseOrder
open Coroutine Coroutine.Program Relational

/-- The row of an approval says what was requested. -/
structure Approval.Of (req : ApprovalRequest) (a : Approval) : Prop where
  summary : a.summary = req.summary
  outputs : a.outputs = req.outputs
  affected : a.affected = req.affected
  riskLevel : a.riskLevel = req.riskLevel
  workflowId : a.workflowId = req.workflowId
  taskId : a.taskId = req.taskId

namespace ApprovalGateway

/-- What a call of the gateway is made for. -/
inductive Ask where
  | send (req : ApprovalRequest)
  | decide (approvalId : Int) (decision : String)

/-- What it returns. -/
inductive Answer where
  | sent (approvalId : Nat)
  | decided (found : Bool)

def Ask.program (s : Settings) : Ask → Async Answer
  | .send req => do
      let approvalId ← ApprovalGateway.send s req
      return .sent approvalId
  | .decide approvalId decision => do
      let found ← ApprovalGateway.decide approvalId decision
      return .decided found

abbrev Desk := Config CallId World calls Answer

abbrev DeskEvent := Event CallId World calls Answer

/-- A pool of calls of the gateway, each made for what `asks` says. -/
def desk (s : Settings) (asks : CallId → Ask) : Machine CallId World calls Answer where
  spawn := fun c i p => c.world.db.own i = OwnRows.none ∧ p = (asks i).program s
  perform := perform
  again := fun _ _ _ _ => False
  drift := drifts
  crash := crashes

theorem desk_hosted (s : Settings) (asks : CallId → Ask) : Hosted (desk s asks) := ⟨rfl, rfl, rfl⟩

/-! ### Deliveries -/

/-- A card for Telegram names the chat it is for. -/
def channel (body : Json) : String :=
  match body with
  | .obj fields => if (Json.lookup "chat_id" fields).isSome then "telegram" else "discord"
  | _ => "discord"

/-- The channel that accepted the card, if the call delivered it to one. -/
def accepted : Interaction calls → Option String
  | ⟨.appendFile _, .ok _⟩ => some "file"
  | ⟨.httpPost _ body, .ok r⟩ =>
      if HttpResponse.statusCode r < 300 then some (channel body) else none
  | _ => none

def deliveredVia (names : List String) : Option String :=
  if names.isEmpty then none else some (",".intercalate names)

/-- A card that tells of a record. -/
inductive Card (s : Settings) (record : Record) : String → Json → Prop where
  | discord : Card s record s.discordWebhookUrl (formatDiscord record)
  | telegram : Card s record ("https://api.telegram.org/bot" ++ s.telegramBotToken ++
      "/sendMessage")
      (.obj [("chat_id", .str s.telegramChatId), ("text", .str (formatTelegram record)),
        ("parse_mode", .str "Markdown")])

/-- The send has inserted the row that the record is of. -/
structure Recorded (req : ApprovalRequest) (record : Record) (h : History) : Prop where
  same : record.req = req
  added : (⟨.session (.addApproval req), .ok record.approvalId⟩ : Interaction calls) ∈ h

/-- The send has appended the record to the file, or has swallowed what kept it from that. -/
def Attempted (record : Record) (h : History) : Prop :=
  ∃ reply : Except PyException Unit,
    (⟨.appendFile (record.json.dumps ++ "\n"), reply⟩ : Interaction calls) ∈ h ∧
    ∀ e, reply = .error e → e.isException = true

/-! ### Protocol -/

def sendAllowed (s : Settings) (req : ApprovalRequest) (h : History) (c : Call) (v : OwnRows) :
    Prop :=
  match c with
  | .session (.addApproval req') => req' = req ∧ v.approvals = []
  | .session (.setDelivered id via) =>
      v.approvals.Holds id ∧ via = deliveredVia (h.filterMap accepted)
  | .session _ => False
  | .appendFile line => (∃ record, Recorded req record h ∧ line = record.json.dumps ++ "\n") ∧
      ∀ x ∈ h, ∀ line, x.call ≠ .appendFile line
  | .httpPost url body =>
      ∃ record, Recorded req record h ∧ Attempted record h ∧ Card s record url body
  | _ => True

def decideAllowed (h : History) (c : Call) : Prop :=
  match c with
  | .session (.findApproval _) | .now => True
  | .session (.updateDecision id decision decidedAt) => Considered h id decision decidedAt
  | _ => False

def deskProtocol (s : Settings) (asks : CallId → Ask) (i : CallId) : Protocol calls OwnRows :=
  match asks i with
  | .send req => ⟨sendAllowed s req, ownEffect⟩
  | .decide .. => ⟨fun h c _ => decideAllowed h c, ownEffect⟩

/-- What a send has done when it returns: its row names the channels that accepted. -/
def Sent (req : ApprovalRequest) (answer : Answer) (h : History) (v : OwnRows) : Prop :=
  ∃ record, Recorded req record h ∧ Attempted record h ∧ answer = .sent record.approvalId ∧
    ∃ a, (record.approvalId, a) ∈ v.approvals ∧ a.deliveredVia = deliveredVia (h.filterMap accepted)

def deskEnds (asks : CallId → Ask) (i : CallId) : Post calls OwnRows Answer :=
  match asks i with
  | .send req => ending (Sent req) fun _ _ _ => True
  | .decide .. => fun _ _ _ => True

/-! ### Programs -/

/-- How far a send has come: its record, and the channels that have accepted. -/
structure Stage (req : ApprovalRequest) (record : Record) (names : List String)
    (h : History) (v : OwnRows) : Prop where
  recorded : Recorded req record h
  held : v.approvals.Holds record.approvalId
  taken : h.filterMap accepted = names

section
variable {s : Settings} {req : ApprovalRequest} {record : Record} {names : List String}
    {h : History} {v : OwnRows}
  {x : Interaction calls}

theorem Recorded.append (recorded : Recorded req record h) : Recorded req record (h ++ [x]) :=
  ⟨recorded.same, List.mem_append_left _ recorded.added⟩

theorem Attempted.append (attempted : Attempted record h) : Attempted record (h ++ [x]) := by
  obtain ⟨reply, member, swallowed⟩ := attempted
  exact ⟨reply, List.mem_append_left _ member, swallowed⟩

theorem Stage.append (stage : Stage req record names h v) (x : Interaction calls) :
    Stage req record (names ++ (accepted x).toList) (h ++ [x]) v where
  recorded := stage.recorded.append
  held := stage.held
  taken := by
    rw [List.filterMap_append, stage.taken]
    cases taken : accepted x <;> simp [taken]

theorem Stage.pass (stage : Stage req record names h v) (refused : accepted x = none) :
    Stage req record names (h ++ [x]) v := by
  simpa [refused] using stage.append x

/-- The file is tried first. -/
theorem desk_sendFile (stage : Stage req record [] h v)
    (once : ∀ x ∈ h, ∀ line, x.call ≠ .appendFile line) :
    (sendFile record).Obeys ⟨sendAllowed s req, ownEffect⟩
      (ending (fun names h v => Stage req record names h v ∧ Attempted record h) fun _ _ _ =>
        True) h v := by
  have written : (do
      await (.appendFile (record.json.dumps ++ "\n"))
      return ["file"] : Async (List String)).Obeys ⟨sendAllowed s req, ownEffect⟩
      (ending (fun names h v => Stage req record names h v ∧ Attempted record h)
        fun e h v => e.isException = true → Stage req record [] h v ∧ Attempted record h) h v := by
    apply obeys_bind_iff.mpr
    apply obeys_await
    · trivial
    · exact ⟨⟨record, stage.recorded, rfl⟩, once⟩
    · intro reply
      cases reply with
      | ok done =>
          exact ⟨stage.append ⟨.appendFile _, .ok done⟩, .ok done,
            List.mem_append_right _ (List.mem_singleton.mpr rfl), fun e same => by cases same⟩
      | error e =>
          intro caught
          refine ⟨stage.pass rfl, .error e, List.mem_append_right _ (List.mem_singleton.mpr rfl),
            fun e' same => ?_⟩
          cases same
          exact caught
  apply obeys_tryExcept written
  · exact fun names h v holds => holds
  · exact fun e h v caught holds => holds caught
  · exact fun _ _ _ _ _ => trivial

/-- One card: its channel joins those that accepted, if it did. -/
theorem desk_deliver (stage : Stage req record names h v) (attempted : Attempted record h)
    {url : String} {body : Json} (card : Card s record url body) :
    (deliver (channel body) url body).Obeys ⟨sendAllowed s req, ownEffect⟩
      (ending (fun more h v => Stage req record (names ++ more) h v ∧ Attempted record h)
        fun _ _ _ => True) h v := by
  have posted : (do
      let r ← await (.httpPost url body)
      return if HttpResponse.statusCode r < 300 then [channel body]
        else [] : Async (List String)).Obeys
      ⟨sendAllowed s req, ownEffect⟩
      (ending (fun more h v => Stage req record (names ++ more) h v ∧ Attempted record h)
        fun _ h v => Stage req record names h v ∧ Attempted record h) h v := by
    apply obeys_bind_iff.mpr
    apply obeys_await
    · trivial
    · exact ⟨record, stage.recorded, attempted, card⟩
    · intro reply
      cases reply with
      | ok r =>
          refine ⟨?_, attempted.append⟩
          have appended := stage.append ⟨.httpPost url body, .ok r⟩
          by_cases good : HttpResponse.statusCode r < 300 <;> simpa [accepted, good] using appended
      | error e => exact ⟨stage.pass rfl, attempted.append⟩
  apply obeys_tryExcept posted
  · exact fun more h v holds => holds
  · intro e h v caught holds
    refine obeys_ret ?_
    simpa [ending] using holds
  · exact fun _ _ _ _ _ => trivial

theorem desk_sendDiscord (stage : Stage req record names h v) (attempted : Attempted record h) :
    (sendDiscord s record).Obeys ⟨sendAllowed s req, ownEffect⟩
      (ending (fun more h v => Stage req record (names ++ more) h v ∧ Attempted record h)
        fun _ _ _ => True) h v := by
  unfold sendDiscord
  split
  · exact desk_deliver stage attempted .discord
  · exact ⟨by simpa using stage, attempted⟩

theorem desk_sendTelegram (stage : Stage req record names h v) (attempted : Attempted record h) :
    (sendTelegram s record).Obeys ⟨sendAllowed s req, ownEffect⟩
      (ending (fun more h v => Stage req record (names ++ more) h v ∧ Attempted record h)
        fun _ _ _ => True) h v := by
  unfold sendTelegram
  split
  · exact desk_deliver stage attempted .telegram
  · exact ⟨by simpa using stage, attempted⟩

theorem desk_sendCards (stage : Stage req record names h v) (attempted : Attempted record h) :
    (sendCards s record).Obeys ⟨sendAllowed s req, ownEffect⟩
      (ending (fun more h v => Stage req record (names ++ more) h v ∧ Attempted record h)
        fun _ _ _ => True) h v := by
  apply obeys_bind_iff.mpr
  apply obeys_await
  · trivial
  · trivial
  · intro reply
    cases reply with
    | error e => trivial
    | ok opened =>
        have body : (do
            let discord ← sendDiscord s record
            let telegram ← sendTelegram s record
            return discord ++ telegram : Async (List String)).Obeys ⟨sendAllowed s req, ownEffect⟩
              (ending (fun more h v => Stage req record (names ++ more) h v ∧
                Attempted record h) fun _ _ _ => True)
              (h ++ [⟨.httpOpen, .ok opened⟩]) v := by
          apply obeys_bind (desk_sendDiscord (stage.pass rfl) attempted.append)
          · rintro discord h v ⟨stage, attempted⟩
            apply obeys_bind (desk_sendTelegram stage attempted)
            · rintro telegram h v ⟨stage, attempted⟩
              refine obeys_ret ⟨?_, attempted⟩
              rwa [List.append_assoc] at stage
            · exact fun _ _ _ _ => trivial
          · exact fun _ _ _ _ => trivial
        apply obeys_finallyDo body
        intro result h v ended
        apply obeys_await
        · trivial
        · trivial
        · intro reply
          cases reply with
          | error e => trivial
          | ok closed =>
              cases result with
              | error e => trivial
              | ok more =>
                  obtain ⟨stage, attempted⟩ := ended
                  exact ⟨stage.pass rfl, attempted.append⟩

theorem desk_send (none : v.approvals = []) :
    ((Ask.send req).program s).Obeys ⟨sendAllowed s req, ownEffect⟩
    (ending (Sent req) fun _ _ _ => True) [] v := by
  apply obeys_bind_iff.mpr
  apply obeys_bind_iff.mpr
  apply obeys_session (t := .addApproval req)
  · exact ⟨rfl, none⟩
  · intro id added _
    have holds : (Transaction.commit added v (.addApproval req) id).approvals.Holds id :=
      ⟨Transaction.newApproval added req, List.mem_append_right _ (List.mem_singleton.mpr rfl)⟩
    apply obeys_bind_iff.mpr
    apply obeys_utcnow trivial
    intro ts
    let record : Record := ⟨id, ts, req⟩
    have stage : Stage req record [] ([] ++ [⟨.session (.addApproval req), .ok id⟩] ++
      [⟨.now, .ok ts⟩])
        (Transaction.commit added v (.addApproval req) id) :=
      ⟨⟨rfl, List.mem_append_left _ (List.mem_singleton.mpr rfl)⟩, holds, rfl⟩
    have once : ∀ x ∈ ([] ++ [⟨.session (.addApproval req), .ok id⟩] ++ [⟨.now, .ok ts⟩] : History),
        ∀ line, x.call ≠ .appendFile line := by simp
    apply obeys_bind (desk_sendFile stage once)
    · rintro file h v ⟨stage, attempted⟩
      apply obeys_bind (desk_sendCards stage attempted)
      · rintro cards h v ⟨stage, attempted⟩
        apply obeys_bind_iff.mpr
        apply obeys_session (t := .setDelivered id (deliveredVia (file ++ cards)))
        · exact ⟨stage.held, by rw [stage.taken]⟩
        · intro done marked _
          obtain ⟨a, member⟩ := stage.held
          refine ⟨record, stage.recorded.append, attempted.append, rfl,
            a.deliver (deliveredVia (file ++ cards)), ?_, ?_⟩
          · exact List.mem_map.mpr ⟨(id, a), member, if_pos rfl⟩
          · rw [(stage.pass (x := ⟨.session (.setDelivered id (deliveredVia (file ++ cards))),
              .ok done⟩) rfl).taken]
            rfl
        · exact fun e v' unanswered => trivial
      · exact fun _ _ _ _ => trivial
    · exact fun _ _ _ _ => trivial
  · exact fun e v' unanswered => trivial

theorem desk_decide (approvalId : Int) (decision : String) :
    ((Ask.decide approvalId decision).program s).Obeys ⟨fun h c _ => decideAllowed h c, ownEffect⟩
    (fun _ _ _ => True) [] v := by
  apply obeys_bind_iff.mpr
  unfold ApprovalGateway.decide
  split
  · rename_i known
    apply obeys_bind_iff.mpr
    refine obeys_call trivial fun row v _ => ?_
    cases row with
    | error e => trivial
    | ok row =>
        cases row with
        | none => trivial
        | some columns =>
            obtain ⟨read, readAt⟩ := columns
            apply obeys_bind_iff.mpr
            refine obeys_utcnow trivial fun now => ?_
            apply obeys_bind_iff.mpr
            refine obeys_call ⟨approvalId, decision, read, readAt, now, known, rfl, rfl,
              rfl, rfl⟩ fun reply _ _ => ?_
            cases reply <;> trivial
  · trivial

end

/-! ### Steps -/

section
variable {s : Settings} {asks : CallId → Ask} {i j : CallId} {c c' : Desk}
    {e : DeskEvent} {trace : List DeskEvent}
  {h : History} {v : OwnRows} {w : World}

theorem free {start : Desk} (run : Transition.Run (desk s asks).Step start trace c) :
    Transition.Run (Transition.Guarded (desk s asks).Step fun _ _ _ => True) start trace c :=
  run.mono fun step => ⟨step, trivial⟩

/-- A call of the gateway is made and goes through a script. -/
theorem desk_entry {start : Desk} {past : List DeskEvent} {threads : CallId → Thread calls Answer}
    {p' : Async Answer} {w' : World}
    (earlier : Transition.Run (desk s asks).Step start past ⟨w, threads⟩) (i : CallId)
    (script : List (Interaction calls))
    (plays : Plays (perform i) ((asks i).program s) w script p' w') (unused : threads i = .absent)
    (rows : w.db.own i = OwnRows.none) : ∃ events, Machine.Playing i script events ∧
      Transition.Run (desk s asks).Step start (past ++ .spawn i ((asks i).program s) :: events)
        ⟨w', Function.update threads i (.active script p')⟩ := by
  obtain ⟨events, playing, run⟩ :=
    Machine.run_spawned (free earlier) unused ⟨rows, rfl⟩ plays (fun _ => trivial) fun _ _ _ _ _ =>
    trivial
  exact ⟨events, playing, run.unguard⟩

/-- One awaited call is answered. -/
theorem desk_call {start : Desk} {past : List DeskEvent} {threads : CallId → Thread calls Answer}
    {seen : List (Interaction calls)} {w' : World}
    (earlier : Transition.Run (desk s asks).Step start past ⟨w, threads⟩)
    (i : CallId) (x : Interaction calls)
    {onReply : Except PyException (calls.Reply x.call) → Async Answer}
    (active : threads i = .active seen (.await x.call onReply))
    (performed : perform i x.call w x.reply w') :
    Transition.Run (desk s asks).Step start (past ++ [.call i x w])
      ⟨w', Function.update threads i (.active (seen ++ [x]) (onReply x.reply))⟩ :=
  earlier.next (.call active performed)

/-- It goes on through another one. -/
theorem desk_on {start : Desk} {past : List DeskEvent} {threads : CallId → Thread calls Answer}
    {seen : List (Interaction calls)} {p p' : Async Answer} {w' : World}
    (earlier : Transition.Run (desk s asks).Step start past ⟨w, threads⟩) (i : CallId)
    (active : threads i = .active seen p) (script : List (Interaction calls))
    (plays : Plays (perform i) p w script p' w') : ∃ events, Machine.Playing i script events ∧
    Transition.Run (desk s asks).Step start (past ++ events)
      ⟨w', Function.update threads i (.active (seen ++ script) p')⟩ := by
  obtain ⟨events, playing, run⟩ := Machine.run_plays (free earlier) active plays fun _ _ _ _ _ =>
    trivial
  exact ⟨events, playing, run.unguard⟩

theorem desk_program (fresh : v.approvals = []) :
    ((asks i).program s).Obeys (deskProtocol s asks i) (deskEnds asks i) [] v := by
  unfold deskProtocol deskEnds
  cases asks i with
  | send req => exact desk_send fresh
  | decide approvalId decision => exact desk_decide _ _

theorem desk_effect : (deskProtocol s asks i).effect = ownEffect := by
  unfold deskProtocol
  cases asks i <;> rfl

/-- The transactions of the gateway. -/
inductive Permitted (asks : CallId → Ask) (i : CallId) (h : History) (v : OwnRows) :
    Transaction → Prop where
  | add {req} (asked : asks i = .send req) (none : v.approvals = []) :
      Permitted asks i h v (.addApproval req)
  | deliver {req id} (asked : asks i = .send req) (held : v.approvals.Holds id) :
      Permitted asks i h v (.setDelivered id (deliveredVia (h.filterMap accepted)))
  | find {id} : Permitted asks i h v (.findApproval id)
  | decide {id decision decidedAt} (considered : Considered h id decision decidedAt) :
      Permitted asks i h v (.updateDecision id decision decidedAt)

theorem desk_permitted {t : Transaction}
    (allowed : (deskProtocol s asks i).allowed h (.session t) v) :
    Permitted asks i h v t := by
  unfold deskProtocol at allowed
  cases asked : asks i with
  | send req =>
      rw [asked] at allowed
      cases t with
      | addApproval req' =>
          obtain ⟨rfl, none⟩ := allowed
          exact .add asked none
      | setDelivered id via =>
          obtain ⟨held, rfl⟩ := allowed
          exact .deliver asked held
      | _ => exact allowed.elim
  | decide approvalId decision =>
      rw [asked] at allowed
      cases t with
      | findApproval id => exact .find
      | updateDecision id decision decidedAt => exact .decide allowed
      | _ => exact allowed.elim

theorem Permitted.mine {t : Transaction} (permitted : Permitted asks i h v t) : t.Mine v := by
  cases permitted with
  | add | find | decide => trivial
  | deliver asked held => exact held

theorem desk_tracks (s : Settings) (asks : CallId → Ask) :
    Tracks (desk s asks) (deskProtocol s asks) view where
  effect := by
    intro i seen call w reply w' allowed performed
    rw [desk_effect]
    apply perform_own performed
    rintro t x db rfl ran
    exact Transaction.own_commit ran (desk_permitted allowed).mine

/-- What a step may do to the database, and so to the rows of each call. -/
theorem desk_step (obeys : c.Obeys (deskProtocol s asks) (deskEnds asks) view)
    (step : (desk s asks).Step c e c') : c'.world.db = c.world.db ∨
    ∃ (i : CallId) (t : Transaction) (x : t.Reply) (reply : Except PyException t.Reply),
      e = .call i ⟨.session t, reply⟩ c.world ∧ Permitted asks i
      (c.threads i).past (view i c.world) t ∧
      t.run i c.world.clock c.world.db = .ok (x, c'.world.db) := by
  rcases (desk_hosted s asks).ran step with ⟨same, -⟩ | ⟨i, t, x, reply, rfl, -, ran⟩
  · exact .inl same
  · exact .inr ⟨i, t, x, reply, rfl, desk_permitted (step.allowed obeys), ran⟩

theorem desk_view_other (obeys : c.Obeys (deskProtocol s asks) (deskEnds asks) view)
    (step : (desk s asks).Step c e c') (idle : ¬ e.By j) : view j c'.world = view j c.world := by
  rcases desk_step obeys step with same | ⟨i, t, x, reply, rfl, permitted, ran⟩
  · exact congrArg (fun db => Db.own db j) same
  · exact Transaction.own_other ran permitted.mine idle

theorem desk_obeys (obeys : c.Obeys (deskProtocol s asks) (deskEnds asks) view)
    (step : (desk s asks).Step c e c') : c'.Obeys (deskProtocol s asks) (deskEnds asks) view := by
  refine step.obeys (desk_tracks s asks) ?_ ?_ ?_ obeys
  · rintro i p rfl
    cases step with
    | spawn unused entry =>
        obtain ⟨none, rfl⟩ := entry
        exact desk_program (congrArg OwnRows.approvals none)
  · rintro i p seen a rfl - -
    cases step with
    | again returned next => exact next.elim
  · intro j seen rest active idle ready
    rwa [desk_view_other obeys step idle]

/-- A call has one row at most. -/
theorem desk_single (obeys : c.Obeys (deskProtocol s asks) (deskEnds asks) view)
    (step : (desk s asks).Step c e c') (single : (view j c.world).approvals.length ≤ 1) :
    (view j c'.world).approvals.length ≤ 1 := by
  by_cases mine : e.By j
  · rcases desk_step obeys step with same | ⟨i, t, x, reply, rfl, permitted, ran⟩
    · unfold view
      rwa [same]
    · cases mine
      have same : view j c'.world = t.commit c.world.clock (view j c.world) x :=
        (Transaction.own_commit ran permitted.mine).2
      rw [same]
      cases permitted with
      | add asked none => simp [Transaction.commit, none, Rows.add]
      | deliver asked held => simpa [Transaction.commit, Rows.change] using single
      | find | decide => exact single
  · rwa [desk_view_other obeys step mine]

/-! ### Rows -/

/-- A row is as it was requested, and its decision, if there is one, is known and dated. -/
structure Sound (asks : CallId → Ask) (e : Relational.Entry CallId Approval) : Prop where
  request : ∃ req, asks e.owner = .send req ∧ e.row.Of req
  decision : e.row.decision ∈ [none, some "approved", some "rejected"]
  stamped : e.row.decidedAt.isSome = e.row.decision.isSome

theorem Sound.deliver {e : Relational.Entry CallId Approval} (sound : Sound asks e)
    (via : Option String) : Sound asks { e with row := e.row.deliver via } := by
  obtain ⟨⟨req, asked, of⟩, decision, stamped⟩ := sound
  exact ⟨⟨req, asked, ⟨of.1, of.2, of.3, of.4, of.5, of.6⟩⟩, decision, stamped⟩

/-- A column that had a value when it was read, or is given one, has one. -/
theorem changed_isSome {β : Type} [DecidableEq β] {read column : Option β} {value : β}
    (kept : read.isSome → column.isSome) : ((changed read value).or column).isSome = true := by
  unfold changed
  split
  · rename_i same
    simpa [same] using kept
  · rfl

/-- The row of an approval that was looked at has in each column what was read there, or a later
value. -/
def Consulted (table : Table CallId Approval) (h : History) : Prop := ∀ approvalId read readAt,
  (⟨.session (.findApproval approvalId), .ok (some (read, readAt))⟩ : Interaction calls) ∈ h →
    ∃ e ∈ table.entries, Int.ofNat e.id = approvalId ∧
      (Option.isSome read → e.row.decision.isSome) ∧
      (Option.isSome readAt → e.row.decidedAt.isSome)

theorem Sound.decide {e : Relational.Entry CallId Approval} {decision : Option String}
    {decidedAt : Option Time} {table : Table CallId Approval} (sound : Sound asks e)
    (member : e ∈ table.entries) (consulted : Consulted table h)
    (considered : Considered h e.id decision decidedAt) :
    Sound asks { e with row := e.row.decide decision decidedAt } := by
  obtain ⟨⟨req, asked, of⟩, before, -⟩ := sound
  obtain ⟨approvalId, verdict, read, readAt, now, known, same, rfl, rfl, rfl⟩ := considered
  obtain ⟨e', there, names, decided, dated⟩ := consulted approvalId read readAt List.mem_cons_self
  have here : e'.id = e.id := by rw [same, ← names]; rfl
  obtain rfl := Table.unique there member here
  have written : (e'.row.decide (changed read verdict) (changed readAt now)).decision.isSome =
    true := changed_isSome decided
  have stamped : (e'.row.decide (changed read verdict) (changed readAt now)).decidedAt.isSome =
    true := changed_isSome dated
  refine ⟨⟨req, asked, ⟨of.1, of.2, of.3, of.4, of.5, of.6⟩⟩, ?_, stamped.trans written.symm⟩
  unfold Approval.decide changed
  split
  · exact before
  · rcases known with rfl | rfl <;> simp

theorem sound_updateAt {t : Table CallId Approval} {f : Approval → Approval} (n : Nat)
    (sound : ∀ e ∈ t.entries, Sound asks e)
    (kept : ∀ e ∈ t.entries, e.id = n → Sound asks e → Sound asks { e with row := f e.row }) :
    ∀ e ∈ (t.updateAt n f).entries, Sound asks e := by
  intro e member
  obtain ⟨old, present, rfl⟩ := Table.mem_update.mp member
  split
  · rename_i chosen
    exact kept old present (of_decide_eq_true chosen) (sound old present)
  · exact sound old present

theorem sound_step (obeys : c.Obeys (deskProtocol s asks) (deskEnds asks) view)
    (step : (desk s asks).Step c e c')
    (consulted : ∀ i, Consulted c.world.db.approvals (c.threads i).past)
    (sound : ∀ e ∈ c.world.db.approvals.entries, Sound asks e) :
    ∀ e ∈ c'.world.db.approvals.entries, Sound asks e := by
  rcases desk_step obeys step with same | ⟨i, t, x, reply, rfl, permitted, ran⟩
  · rwa [same]
  · cases permitted with
    | @add req asked none =>
        obtain ⟨-, same⟩ := Prod.mk.inj (Except.ok.inj ran)
        rw [← same]
        intro e member
        rcases Table.mem_insert.mp member with old | rfl
        · exact sound e old
        · exact ⟨⟨req, asked, ⟨rfl, rfl, rfl, rfl, rfl, rfl⟩⟩, List.mem_cons_self, rfl⟩
    | deliver asked held =>
        rw [Transaction.update_ok ran]
        exact sound_updateAt _ sound fun e _ _ sound => sound.deliver _
    | find => rwa [(Transaction.find_ok ran).1]
    | decide considered =>
        rw [Transaction.update_ok ran]
        refine sound_updateAt _ sound fun e member same sound => ?_
        subst same
        exact sound.decide member (consulted i) considered

/-- No column of a verdict is emptied. -/
theorem decided_step (obeys : c.Obeys (deskProtocol s asks) (deskEnds asks) view)
    (step : (desk s asks).Step c e c') {row : Relational.Entry CallId Approval}
    (member : row ∈ c.world.db.approvals.entries) : ∃ row' ∈ c'.world.db.approvals.entries,
    row'.id = row.id ∧ (row.row.decision.isSome → row'.row.decision.isSome) ∧
      (row.row.decidedAt.isSome → row'.row.decidedAt.isSome) := by
  have updated (n : Nat) {f : Approval → Approval} (decision : ∀ a, a.decision.isSome →
    (f a).decision.isSome)
      (decidedAt : ∀ a, a.decidedAt.isSome → (f a).decidedAt.isSome) :
      ∃ row' ∈ (c.world.db.approvals.updateAt n f).entries, row'.id = row.id ∧
        (row.row.decision.isSome → row'.row.decision.isSome) ∧
            (row.row.decidedAt.isSome → row'.row.decidedAt.isSome) := by
    refine ⟨_, Table.mem_update.mpr ⟨row, member, rfl⟩, ?_⟩
    split
    · exact ⟨rfl, decision row.row, decidedAt row.row⟩
    · exact ⟨rfl, fun some => some, fun some => some⟩
  rcases desk_step obeys step with same | ⟨i, t, x, reply, rfl, permitted, ran⟩
  · exact ⟨row, same ▸ member, rfl, fun some => some, fun some => some⟩
  · cases permitted with
    | add asked none =>
        obtain ⟨-, same⟩ := Prod.mk.inj (Except.ok.inj ran)
        rw [← same]
        exact ⟨row, Table.mem_insert.mpr (.inl member), rfl, fun some => some, fun some => some⟩
    | deliver asked held =>
        rw [Transaction.update_ok ran]
        exact updated _ (fun _ some => some) fun _ some => some
    | find =>
        exact ⟨row, (Transaction.find_ok ran).1 ▸ member, rfl, fun some => some, fun some => some⟩
    | @decide id decision decidedAt considered =>
        rw [Transaction.update_ok ran]
        refine updated _ (fun a some => ?_) fun a some => ?_
        · cases decision <;> first | exact some | rfl
        · cases decidedAt <;> first | exact some | rfl

theorem consulted_step (obeys : c.Obeys (deskProtocol s asks) (deskEnds asks) view)
    (step : (desk s asks).Step c e c')
    (consulted : ∀ i, Consulted c.world.db.approvals (c.threads i).past) (i : CallId) :
    Consulted c'.world.db.approvals (c'.threads i).past := by
  intro approvalId read readAt member
  have since {row : Relational.Entry CallId Approval} (present : row ∈ c.world.db.approvals.entries)
      (names : Int.ofNat row.id = approvalId) (decision : Option.isSome read →
        row.row.decision.isSome)
      (decidedAt : Option.isSome readAt → row.row.decidedAt.isSome) :
      ∃ row ∈ c'.world.db.approvals.entries, Int.ofNat row.id = approvalId ∧
        (Option.isSome read → row.row.decision.isSome) ∧
            (Option.isSome readAt → row.row.decidedAt.isSome) := by
    obtain ⟨row', later, same, decided, dated⟩ := decided_step obeys step present
    exact ⟨row', later, same ▸ names, fun some => decided (decision some),
      fun some => dated (decidedAt some)⟩
  rw [step.past i] at member
  rcases List.mem_append.mp member with old | new
  · obtain ⟨row, present, names, decision, decidedAt⟩ := consulted i approvalId read readAt old
    exact since present names decision decidedAt
  · obtain ⟨before, rfl⟩ := Event.mem_own.mp new
    cases step with
    | call awaiting performed =>
        obtain ⟨db, ran, rfl⟩ := performed
        obtain ⟨rfl, found⟩ := Transaction.find_ok ran
        obtain ⟨row, there, columns⟩ := Option.map_eq_some_iff.mp found.symm
        obtain ⟨rfl, rfl⟩ := Prod.mk.inj columns
        have names := List.find?_some there
        exact ⟨row, List.mem_of_find?_eq_some there, of_decide_eq_true names, id, id⟩

/-- An approval has lost nothing: it is as it was requested, its verdict is as decides have written
it, and once its send has returned it names the channels that accepted it. -/
structure Kept (asks : CallId → Ask) (trace : List DeskEvent) (c : Desk)
    (e : Relational.Entry CallId Approval) : Prop extends Sound asks e where
  written : ∃ written, List.Forall₂ (Writes e.id) trace written ∧ e.row.verdict =
    written.foldl Verdict.amend (none, none)
  delivered : ∀ h answer, c.threads e.owner = .active h (.done (.ok answer)) →
    e.row.deliveredVia = deliveredVia (h.filterMap accepted)

/-- What holds of the gateway in every state reached. -/
structure Orderly (asks : CallId → Ask) (s : Settings) (c : Desk) : Prop where
  obeys : c.Obeys (deskProtocol s asks) (deskEnds asks) view
  single : ∀ i, (view i c.world).approvals.length ≤ 1
  consulted : ∀ i, Consulted c.world.db.approvals (c.threads i).past
  sound : ∀ e ∈ c.world.db.approvals.entries, Sound asks e

theorem orderly_step (orderly : Orderly asks s c) (step : (desk s asks).Step c e c') :
    Orderly asks s c' where
  obeys := desk_obeys orderly.obeys step
  single := fun i => desk_single orderly.obeys step (orderly.single i)
  consulted := consulted_step orderly.obeys step orderly.consulted
  sound := sound_step orderly.obeys step orderly.consulted orderly.sound

/-- A gateway without approvals and without calls. -/
def Desk.Fresh (c : Desk) : Prop := c.world.db.approvals = .empty ∧ c.threads = fun _ => .absent

theorem orderly_fresh (fresh : c.Fresh) : Orderly asks s c := by
  obtain ⟨none, absent⟩ := fresh
  refine ⟨fun i seen rest active => ?_, fun i => ?_, fun i approvalId read readAt member => ?_,
    fun e member => ?_⟩
  · rw [absent] at active
    contradiction
  · simp [view, Db.own, none, Table.owned, Table.empty, unsigned]
  · rw [absent] at member
    exact absurd member List.not_mem_nil
  · rw [none] at member
    exact absurd member List.not_mem_nil

theorem orderly_run {start : Desk} (fresh : start.Fresh)
    (run : Transition.Run (desk s asks).Step start trace c) : Orderly asks s c :=
  run.invariant (fun orderly step => orderly_step orderly step) (orderly_fresh fresh)

theorem Orderly.returned (orderly : Orderly asks s c) {req : ApprovalRequest} {answer : Answer}
    (asked : asks i = .send req) (returned : c.threads i = .active h (.done (.ok answer))) :
    Sent req answer h (view i c.world) := by
  have ended := orderly.obeys i _ _ returned
  simp only [deskEnds, asked, Program.Obeys, ending] at ended
  exact ended

theorem unsigned_mem {e : Relational.Entry CallId Approval}
    (member : e ∈ c.world.db.approvals.entries) :
    (e.id, e.row.undecided) ∈ (view e.owner c.world).approvals :=
  List.mem_map.mpr ⟨(e.id, e.row), Table.mem_owned.mpr member, rfl⟩

/-- Approval rows lose no update, in whatever order sends and decisions take their steps. -/
theorem approvals_kept {start : Desk} (fresh : start.Fresh)
    (run : Transition.Run (desk s asks).Step start trace c) :
    (∀ e ∈ c.world.db.approvals.entries, Kept asks trace c e) ∧
      ∀ i req h answer, asks i = .send req → c.threads i = .active h (.done (.ok answer)) →
        ∃ e ∈ c.world.db.approvals.entries, e.owner = i ∧ answer = .sent e.id := by
  have orderly := orderly_run fresh run
  refine ⟨fun e member => ⟨orderly.sound e member, ?_, fun h answer returned => ?_⟩,
    fun i req h answer asked returned => ?_⟩
  · obtain ⟨written, wrote, verdict⟩ := (desk_hosted s asks).verdicts run e.id
    have none : start.world.db.verdict e.id = (none, none) := by simp [Db.verdict,
      fresh.1, Table.find?, Table.empty]
    rw [none, Db.verdict, Table.find?_of_mem member] at verdict
    exact ⟨written, wrote, verdict⟩
  · obtain ⟨req, asked, -⟩ := (orderly.sound e member).request
    obtain ⟨record, -, -, -, a, there, via⟩ := orderly.returned asked returned
    have same : a = e.row.undecided :=
      congrArg Prod.snd (Rows.only (orderly.single e.owner) there (unsigned_mem member))
    rw [← via, same]
    rfl
  · obtain ⟨record, -, -, rfl, a, there, -⟩ := orderly.returned asked returned
    obtain ⟨⟨id, row⟩, member, same⟩ := List.mem_map.mp there
    exact ⟨⟨id, i, row⟩, Table.mem_owned.mp member, rfl, by rw [← (Prod.mk.inj same).1]⟩

end

/-! ### A decision between the two transactions of a send -/

/-- A webhook for Discord is set. -/
def webhook : Settings :=
  { Settings.defaults "/root" with discordWebhookUrl := "https://discord.com/api/webhooks/7/t" }

def sampleRequest : ApprovalRequest :=
  ⟨"Commit 4c1d in app: (no subject)", .obj [], [], "low", some 1, some 4⟩

/-- One call sends, and any other approves what it sends. -/
def sampleAsks (i : CallId) : Ask := if i = ⟨1, 1, .visitor⟩ then .send sampleRequest
      else .decide 1 "approved"

def sampleRecord : Record := ⟨1, 0, sampleRequest⟩

def Desk.idle : Desk := ⟨World.initial, fun _ => .absent⟩

/-- The card is decided on before it is delivered. -/
theorem approvals_kept_decided :
    ∃ trace c, Transition.Run (desk webhook sampleAsks).Step Desk.idle trace c ∧
    (∃ e ∈ c.world.db.approvals.entries, e.row.verdict = (some "approved", some 0) ∧
      e.row.deliveredVia = some "file,discord") ∧
    ∀ e ∈ c.world.db.approvals.entries, Kept sampleAsks trace c e := by
  have idle : Transition.Run (desk webhook sampleAsks).Step Desk.idle [] Desk.idle := .refl _
  obtain ⟨_, -, opened⟩ := desk_entry idle ⟨1, 1, .visitor⟩
    [⟨.session (.addApproval sampleRequest), .ok (1 : Nat)⟩, ⟨.now, .ok (0 : Time)⟩,
    ⟨.appendFile (sampleRecord.json.dumps ++ "\n"), .ok ()⟩, ⟨.httpOpen, .ok ()⟩]
    (.call ⟨_, rfl, rfl⟩ (.call ⟨rfl, rfl⟩ (.call rfl (.call rfl (.stop _ _))))) rfl rfl
  obtain ⟨_, -, decided⟩ :=
    desk_entry opened ⟨1, 2, .visitor⟩ (decideScript none none 0 (some "approved") (some 0))
    (.call ⟨_, rfl, rfl⟩ (.call ⟨rfl, rfl⟩ (.call ⟨_, rfl, rfl⟩ (.stop _ _)))) rfl rfl
  obtain ⟨_, -, delivered⟩ := desk_on decided ⟨1, 1, .visitor⟩ rfl
    [⟨.httpPost webhook.discordWebhookUrl (formatDiscord sampleRecord), .ok ⟨204, ""⟩⟩,
      ⟨.httpClose, .ok ()⟩,
      ⟨.session (.setDelivered 1 (some "file,discord")), .ok ()⟩]
    (.call rfl (.call rfl (.call ⟨_, rfl, rfl⟩ (.stop _ _))))
  exact ⟨_, _, delivered, ⟨_, List.mem_singleton.mpr rfl, rfl, rfl⟩,
    (approvals_kept ⟨rfl, rfl⟩ delivered).1⟩

end ApprovalGateway

end WiseOrder
