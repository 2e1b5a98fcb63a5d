import WiseOrder.Approvals.Desk
import WiseOrder.Foundation.JsonRoundTrip

/-! The file of approvals. An approval is in it before anyone is told of it, unless the
append raised: then the exception is swallowed, and the card goes out all the same. -/
namespace WiseOrder.ApprovalGateway
open Coroutine Coroutine.Program Relational
variable {s : Settings} {asks : CallId → Ask} {i j : CallId} {c c' start : Desk}
    {e : DeskEvent} {trace : List DeskEvent}
  {h : History} {req : ApprovalRequest} {record : Record} {books : List (CallId × Record)}

/-- The line that a call adds to the file. -/
def appendedLine : Interaction calls → Option String
  | ⟨.appendFile line, .ok _⟩ => some line
  | _ => none

def lines (file : List String) : List String := Python.split '\n' (String.join file)

/-- Exactly one line of the file is the record of an approval. -/
def Filed (file : List String) (approvalId : Nat) (req : ApprovalRequest) : Prop :=
  ∃ before line after ts, lines file = before ++ line :: after ∧
    Json.Scanner.Spells line (Record.json ⟨approvalId, ts, req⟩) ∧
    ∀ other ∈ before ++ after, ∀ record : Record, Json.Scanner.Spells other record.json →
      record.approvalId ≠ approvalId

/-! ### Records -/

theorem json_distinct (distinct : record.req.outputs.Distinct) : record.json.Distinct := by
  have items (names : List String) : Json.DistinctItems (names.map .str) := by
    induction names with
    | nil => trivial
    | cons name rest ih => exact ⟨trivial, ih⟩
  have optional (id : Option Nat) : (Record.optionId id).Distinct := by cases id <;> trivial
  have keys : ["approval_id", "ts", "summary", "outputs", "affected", "risk_level", "workflow_id",
    "task_id"].Nodup := by decide
  exact ⟨keys, trivial, trivial, trivial, distinct, items _, trivial,
    optional _, optional _, trivial⟩

theorem json_approvalId {other : Record} (same : record.json = other.json) :
    record.approvalId = other.approvalId := by
  simp only [Record.json, Json.obj.injEq, List.cons.injEq, Prod.mk.injEq,
    Json.int.injEq, true_and] at same
  exact Int.ofNat.inj same.1

theorem spells_record (distinct : record.req.outputs.Distinct) :
    Json.Scanner.Spells record.json.dumps record.json :=
  Json.Scanner.spells_dumps _ (json_distinct distinct)

theorem lines_records (books : List (CallId × Record)) :
    lines (books.map fun b => b.2.json.dumps ++ "\n") = books.map
    (fun b => b.2.json.dumps) ++ [""] := by
  have clean : ∀ body ∈ books.map (fun b => b.2.json.dumps), '\n' ∉ body.toList := by
    intro body member
    obtain ⟨b, -, rfl⟩ := List.mem_map.mp member
    simpa only [Json.dumps, String.toList_ofList] using Json.newline_write _
  have split := Python.split_lines clean
  rwa [List.map_map] at split

theorem spells_nothing {v : Json} : ¬ Json.Scanner.Spells "" v := by
  rintro ⟨limits, read⟩
  contradiction

/-! ### Steps -/

theorem perform_file {call : Call} {w w' : World} {reply : Except PyException call.Reply}
    (performed : perform i call w reply w') : w'.approvalsFile = w.approvalsFile ++
    (appendedLine ⟨call, reply⟩).toList := by
  cases call with
  | appendFile line =>
      cases reply with
      | ok x =>
          cases performed
          rfl
      | error e =>
          cases performed
          exact (List.append_nil _).symm
  | redis command =>
      cases reply with
      | ok x =>
          obtain ⟨r, -, rfl⟩ := performed
          exact (List.append_nil _).symm
      | error e => rcases performed with rfl | ⟨x, r, -, rfl⟩ <;> exact (List.append_nil _).symm
  | session t =>
      cases reply with
      | ok x =>
          obtain ⟨db, -, rfl⟩ := performed
          exact (List.append_nil _).symm
      | error e => rcases performed with rfl | ⟨x, db, -, rfl⟩ <;> exact (List.append_nil _).symm
  | now =>
      cases reply with
      | ok x =>
          obtain ⟨-, rfl⟩ := performed
          exact (List.append_nil _).symm
      | error e => exact performed.elim
  | stopIsSet =>
      cases reply with
      | ok x =>
          obtain ⟨-, rfl⟩ := performed
          exact (List.append_nil _).symm
      | error e =>
          cases performed
          exact (List.append_nil _).symm
  | httpPost url body =>
      cases reply with
      | ok x =>
          cases performed
          exact (List.append_nil _).symm
      | error e => rcases performed with rfl | rfl <;> exact (List.append_nil _).symm
  | _ => cases reply <;> cases performed <;> exact (List.append_nil _).symm

theorem file_step (step : (desk s asks).Step c e c') :
    c'.world.approvalsFile = c.world.approvalsFile ++ (e.made.bind appendedLine).toList := by
  cases step with
  | spawn | again => exact (List.append_nil _).symm
  | drift moved => rcases moved with ⟨t, -, rfl⟩ | ⟨process, rfl⟩ <;> exact (List.append_nil _).symm
  | crash fell =>
      obtain ⟨process, -, rfl⟩ := fell
      exact (List.append_nil _).symm
  | call awaiting performed => exact perform_file performed

/-- A row that a call inserted stays its own. -/
theorem held_step {id : Nat} (obeys : c.Obeys (deskProtocol s asks) (deskEnds asks) view)
    (step : (desk s asks).Step c e c') (held : (view j c.world).approvals.Holds id) :
    (view j c'.world).approvals.Holds id := by
  by_cases mine : e.By j
  · rcases desk_step obeys step with same | ⟨i, t, x, reply, rfl, permitted, ran⟩
    · unfold view
      rwa [same]
    · cases mine
      rw [show view j c'.world = _ from (Transaction.own_commit ran permitted.mine).2]
      cases permitted with
      | add asked none =>
          rw [none] at held
          exact absurd held (by simp [Rows.Holds])
      | deliver asked there => exact Rows.holds_change.mpr held
      | find => exact held
      | decide considered => exact held
  · rwa [desk_view_other obeys step mine]

/-! ### Books -/

/-- The file is the records of the sends that appended theirs, one each. -/
structure Booked (asks : CallId → Ask) (c : Desk) (books : List (CallId × Record)) : Prop where
  file : c.world.approvalsFile = books.map fun b => b.2.json.dumps ++ "\n"
  once : (books.map Prod.fst).Nodup
  recorded : ∀ b ∈ books, ∃ req, asks b.1 = .send req ∧ Recorded req b.2 (c.threads b.1).past
  written : ∀ i line, (⟨.appendFile line, .ok ()⟩ : Interaction calls) ∈ (c.threads i).past ↔
    ∃ record, (i, record) ∈ books ∧ line = record.json.dumps ++ "\n"
  held : ∀ i req id, (⟨.session (.addApproval req), .ok id⟩ : Interaction calls) ∈
    (c.threads i).past →
    (view i c.world).approvals.Holds id

theorem Recorded.grows {more : History} (recorded : Recorded req record h) :
    Recorded req record (h ++ more) :=
  ⟨recorded.same, List.mem_append_left _ recorded.added⟩

theorem held_kept (obeys : c.Obeys (deskProtocol s asks) (deskEnds asks) view)
    (step : (desk s asks).Step c e c')
    (held : ∀ i req id, (⟨.session (.addApproval req), .ok id⟩ : Interaction calls) ∈
      (c.threads i).past →
      (view i c.world).approvals.Holds id) {id : Nat}
    (added : (⟨.session (.addApproval req), .ok id⟩ : Interaction calls) ∈ (c'.threads i).past) :
    (view i c'.world).approvals.Holds id := by
  rw [step.past i] at added
  rcases List.mem_append.mp added with old | new
  · exact held_step obeys step (held i req id old)
  · obtain ⟨before, rfl⟩ := Event.mem_own.mp new
    rcases (desk_hosted s asks).ran step with ⟨-, idle⟩ | ⟨j, t, x, reply, same, told, ran⟩
    · exact absurd rfl (idle i (.addApproval req) id before)
    · cases same
      cases told id rfl
      rw [show view i c'.world = _ from (Transaction.own_commit ran trivial).2]
      exact ⟨_, List.mem_append_right _ (List.mem_singleton.mpr rfl)⟩

/-- What the file grows by is the record of a send that had not appended before. -/
theorem appended_record (obeys : c.Obeys (deskProtocol s asks) (deskEnds asks) view)
    (step : (desk s asks).Step c e c') {line : String}
    (appended : e.made.bind appendedLine = some line) :
    ∃ i before req record, e = .call i ⟨.appendFile line, .ok ()⟩ before ∧
      asks i = .send req ∧ Recorded req record (c.threads i).past ∧
      line = record.json.dumps ++ "\n" ∧
      ∀ x ∈ (c.threads i).past, ∀ line, x.call ≠ .appendFile line := by
  cases e with
  | call i x before =>
      obtain ⟨call, reply⟩ := x
      change appendedLine ⟨call, reply⟩ = some line at appended
      unfold appendedLine at appended
      split at appended
      · rename_i same
        cases Option.some.inj appended
        cases same
        have allowed := step.allowed obeys
        unfold deskProtocol at allowed
        cases asked : asks i with
        | send req =>
            rw [asked] at allowed
            obtain ⟨⟨record, recorded, text⟩, once⟩ := allowed
            exact ⟨i, before, req, record, rfl, asked, recorded, text, once⟩
        | decide approvalId decision =>
            rw [asked] at allowed
            exact allowed.elim
      · contradiction
  | _ => contradiction

theorem booked_step (obeys : c.Obeys (deskProtocol s asks) (deskEnds asks) view)
    (step : (desk s asks).Step c e c') (booked : Booked asks c books) :
    ∃ books, Booked asks c' books := by
  have file := file_step step
  cases appended : e.made.bind appendedLine with
  | none =>
      refine ⟨books, ?_, booked.once, fun b member => ?_, fun i line => ?_, fun i req id added =>
        held_kept obeys step booked.held added⟩
      · rw [file, appended, booked.file]
        exact List.append_nil _
      · obtain ⟨req, asked, recorded⟩ := booked.recorded b member
        rw [step.past]
        exact ⟨req, asked, recorded.grows⟩
      · rw [step.past, List.mem_append, booked.written]
        refine or_iff_left fun new => ?_
        obtain ⟨before, rfl⟩ := Event.mem_own.mp new
        cases appended
  | some line =>
      obtain ⟨i, before, req, record, rfl, asked, recorded, rfl, once⟩ :=
        appended_record obeys step appended
      have fresh : i ∉ books.map Prod.fst := by
        intro member
        obtain ⟨⟨_, r⟩, there, rfl⟩ := List.mem_map.mp member
        exact once _ ((booked.written _ _).mpr ⟨r, there, rfl⟩) _ rfl
      refine ⟨books ++ [(i, record)], ?_, ?_, fun b member => ?_, fun j line => ?_,
        fun i req id added => held_kept obeys step booked.held added⟩
      · rw [file, appended, booked.file, List.map_append]
        rfl
      · rw [List.map_append]
        refine List.nodup_append.mpr ⟨booked.once, List.nodup_singleton _,
          fun a old b new same => fresh ?_⟩
        have mine : b = i := List.mem_singleton.mp new
        rwa [← mine, ← same]
      · rw [step.past]
        rcases List.mem_append.mp member with old | new
        · obtain ⟨req, asked, recorded⟩ := booked.recorded b old
          exact ⟨req, asked, recorded.grows⟩
        · cases List.mem_singleton.mp new
          exact ⟨req, asked, recorded.grows⟩
      · rw [step.past, List.mem_append, booked.written, Event.mem_own]
        constructor
        · rintro (⟨r, member, rfl⟩ | ⟨before, same⟩)
          · exact ⟨r, List.mem_append_left _ member, rfl⟩
          · cases same
            exact ⟨record, List.mem_append_right _ (List.mem_singleton.mpr rfl), rfl⟩
        · rintro ⟨r, member, rfl⟩
          rcases List.mem_append.mp member with old | new
          · exact .inl ⟨r, old, rfl⟩
          · cases List.mem_singleton.mp new
            exact .inr ⟨before, rfl⟩

theorem booked_fresh (fresh : start.Fresh) (empty : start.world.approvalsFile = []) :
    Booked asks start [] := by
  have none (i : CallId) : (start.threads i).past = [] := by rw [fresh.2]; rfl
  refine ⟨empty, List.nodup_nil, fun b member => ?_, fun i line => ?_, fun i req id added => ?_⟩
  · exact absurd member List.not_mem_nil
  · simp [none]
  · simp [none] at added

theorem booked_run (fresh : start.Fresh) (empty : start.world.approvalsFile = [])
    (run : Transition.Run (desk s asks).Step start trace c) : ∃ books, Booked asks c books := by
  refine run.traced (P := fun _ c => ∃ books, Booked asks c books) ⟨[], booked_fresh fresh empty⟩ ?_
  rintro past c e c' earlier ⟨books, booked⟩ step
  exact booked_step (orderly_run fresh earlier).obeys step booked

/-- Records of two sends are of two approvals. -/
theorem Booked.apart (booked : Booked asks c books) {a b : CallId × Record}
    (left : a ∈ books) (right : b ∈ books) (other : a.1 ≠ b.1) :
    a.2.approvalId ≠ b.2.approvalId := by
  intro same
  obtain ⟨_, -, recorded⟩ := booked.recorded a left
  obtain ⟨_, -, recorded'⟩ := booked.recorded b right
  obtain ⟨row, mine⟩ := unsigned_holds.mp (booked.held _ _ _ recorded.added)
  obtain ⟨row', mine'⟩ := unsigned_holds.mp (booked.held _ _ _ recorded'.added)
  have one := Table.unique (Table.mem_owned.mp mine) (Table.mem_owned.mp mine') same
  exact other (congrArg Entry.owner one)

/-- A send that has appended its record finds it in the file, once. -/
theorem Booked.filed (booked : Booked asks c books)
    (distinct : ∀ i req, asks i = .send req → req.outputs.Distinct)
    (asked : asks i = .send req) (recorded : Recorded req record (c.threads i).past)
    (appended : (⟨.appendFile (record.json.dumps ++ "\n"), .ok ()⟩ : Interaction calls) ∈
      (c.threads i).past) :
    Filed c.world.approvalsFile record.approvalId req := by
  have sound (b : CallId × Record) (member : b ∈ books) : Json.Scanner.Spells
      b.2.json.dumps b.2.json := by
    obtain ⟨req', asked', recorded'⟩ := booked.recorded b member
    exact spells_record (recorded'.same ▸ distinct b.1 req' asked')
  obtain ⟨r, member, text⟩ := (booked.written i _).mp appended
  have body : record.json.dumps = r.json.dumps := (String.append_left_inj "\n").mp text
  have same : record = ⟨record.approvalId, record.ts, req⟩ := by rw [← recorded.same]
  obtain ⟨before, after, rfl⟩ := List.append_of_mem member
  have loaded : Json.Scanner.Spells r.json.dumps record.json := by
    rw [← body]
    exact spells_record (recorded.same ▸ distinct i req asked)
  have theirs : Json.Scanner.Spells r.json.dumps r.json := sound (i, r) member
  have mine : record.approvalId = r.approvalId :=
    json_approvalId (Json.Scanner.spells_unique loaded theirs)
  have records : lines c.world.approvalsFile =
      before.map (fun b => b.2.json.dumps) ++ r.json.dumps ::
          (after.map (fun b => b.2.json.dumps) ++ [""]) := by
    rw [booked.file, lines_records, List.map_append, List.map_cons,
      List.append_assoc, List.cons_append]
  have told : Json.Scanner.Spells r.json.dumps (Record.json ⟨record.approvalId, record.ts,
      req⟩) := by
    rw [← same]
    exact loaded
  refine ⟨_, _, _, record.ts, records, told, ?_⟩
  intro other listed record' parsed named
  have others : other = "" ∨ ∃ b ∈ before ++ after, other = b.2.json.dumps := by
    simp only [List.mem_append, List.mem_map, List.mem_singleton] at listed ⊢
    rcases listed with ⟨b, there, rfl⟩ | ⟨b, there, rfl⟩ | rfl
    · exact .inr ⟨b, .inl there, rfl⟩
    · exact .inr ⟨b, .inr there, rfl⟩
    · exact .inl rfl
  rcases others with rfl | ⟨b, there, rfl⟩
  · exact spells_nothing parsed
  · have listed : b ∈ before ++ (i, r) :: after := by
      rcases List.mem_append.mp there with left | right
      · exact List.mem_append_left _ left
      · exact List.mem_append_right _ (List.mem_cons_of_mem _ right)
    have apart : b.1 ≠ i := by
      intro same
      have once := booked.once
      rw [List.map_append, List.map_cons, List.nodup_middle, List.nodup_cons,
        ← List.map_append, ← same] at once
      have twice : b.1 ∈ (before ++ after).map Prod.fst := List.mem_map_of_mem there
      exact once.1 twice
    have id : b.2.approvalId = record'.approvalId :=
      json_approvalId (Json.Scanner.spells_unique (sound b listed) parsed)
    exact booked.apart listed member apart (id.trans (named.trans mine))

/-- No append to the file fails in a way that a send swallows. -/
def Appends (trace : List DeskEvent) : Prop :=
  ∀ (i : CallId) (line : String) (e : PyException) (before : World),
    (.call i ⟨.appendFile line, .error e⟩ before : DeskEvent) ∈ trace → e.isException = false

/-- With every append done, a send that has tried it finds its record in the file. -/
theorem attempted_filed (distinct : ∀ i req, asks i = .send req → req.outputs.Distinct)
    (fresh : start.Fresh) (empty : start.world.approvalsFile = [])
    (run : Transition.Run (desk s asks).Step start trace c) (appends : Appends trace)
    (asked : asks i = .send req) (recorded : Recorded req record (c.threads i).past)
    (attempted : Attempted record (c.threads i).past) :
    Filed c.world.approvalsFile record.approvalId req := by
  obtain ⟨books, booked⟩ := booked_run fresh empty run
  apply booked.filed distinct asked recorded
  obtain ⟨reply, member, swallowed⟩ := attempted
  cases reply with
  | ok done => exact member
  | error e =>
      have absent : start.threads i = .absent := by rw [fresh.2]
      obtain ⟨before, taken⟩ := (Machine.mem_past id run absent).mp member
      have passed := appends i _ e before taken
      rw [swallowed e rfl] at passed
      contradiction

/-- The file is complete: when a card is posted, or a send has returned, the approval is on
exactly one of its lines, as long as no append fails. -/
theorem approvals_filed (distinct : ∀ i req, asks i = .send req → req.outputs.Distinct)
    (fresh : start.Fresh) (empty : start.world.approvalsFile = [])
    (run : Transition.Run (desk s asks).Step start trace c) (appends : Appends trace) :
    (∀ (i : CallId) (url : String) (body : Json) (reply : Except PyException
      HttpResponse) (before : World),
      (.call i ⟨.httpPost url body, reply⟩ before : DeskEvent) ∈ trace → ∃ record, asks i =
        .send record.req ∧ Card s record url body ∧
        Filed before.approvalsFile record.approvalId record.req) ∧
    ∀ i req h answer, asks i = .send req → c.threads i = .active h (.done (.ok answer)) →
      ∃ approvalId, answer = .sent approvalId ∧ Filed c.world.approvalsFile approvalId req := by
  refine ⟨fun i url body reply before posted => ?_, fun i req h answer asked returned => ?_⟩
  · obtain ⟨past, rest, rfl⟩ := List.append_of_mem posted
    obtain ⟨t, t', earlier, taken, -⟩ := run.split_at
    have allowed := taken.allowed (orderly_run fresh earlier).obeys
    unfold deskProtocol at allowed
    cases asked : asks i with
    | decide approvalId decision =>
        rw [asked] at allowed
        exact allowed.elim
    | send req =>
        rw [asked] at allowed
        obtain ⟨record, recorded, attempted, card⟩ := allowed
        have here : before = t.world := by
          cases taken
          rfl
        refine ⟨record, recorded.same ▸ rfl, card, ?_⟩
        rw [here, recorded.same]
        exact attempted_filed distinct fresh empty earlier
          (fun j line e w member => appends j line e w (List.mem_append_left _ member)) asked
            recorded attempted
  · obtain ⟨record, recorded, attempted, answered, -⟩ :=
      (orderly_run fresh run).returned asked returned
    refine ⟨record.approvalId, answered, ?_⟩
    rw [show h = (c.threads i).past by rw [returned]; rfl] at recorded attempted
    exact attempted_filed distinct fresh empty run appends asked recorded attempted

/-- A send up to its card, with what its append is answered. -/
def sampleScript (appended : Except PyException Unit) : History :=
  [⟨.session (.addApproval sampleRequest), .ok (1 : Nat)⟩, ⟨.now, .ok (0 : Time)⟩,
    ⟨.appendFile (sampleRecord.json.dumps ++ "\n"), appended⟩, ⟨.httpOpen, .ok ()⟩]

/-- The card is posted and accepted. -/
def samplePost : Interaction calls :=
  ⟨.httpPost webhook.discordWebhookUrl (formatDiscord sampleRecord), .ok ⟨204, ""⟩⟩

theorem sampleAsks_distinct : ∀ i req, sampleAsks i = .send req → req.outputs.Distinct := by
  intro i req asked
  unfold sampleAsks at asked
  split at asked
  · cases asked
    exact ⟨List.nodup_nil, trivial⟩
  · contradiction

/-- A send whose append is done. -/
theorem approvals_filed_sent :
    ∃ trace c h, Transition.Run (desk webhook sampleAsks).Step Desk.idle trace c ∧
    c.threads ⟨1, 1, .visitor⟩ = .active h (.done (.ok (.sent 1))) ∧
    ∃ approvalId, Answer.sent 1 = .sent approvalId ∧
    Filed c.world.approvalsFile approvalId sampleRequest := by
  have idle : Transition.Run (desk webhook sampleAsks).Step Desk.idle [] Desk.idle := .refl _
  obtain ⟨events, playing, sent⟩ := desk_entry idle ⟨1, 1, .visitor⟩
    (sampleScript (.ok ()) ++ [samplePost, ⟨.httpClose, .ok ()⟩,
      ⟨.session (.setDelivered 1 (some "file,discord")), .ok ()⟩])
    (.call ⟨_, rfl, rfl⟩ (.call ⟨rfl, rfl⟩ (.call rfl (.call rfl (.call rfl (.call rfl
      (.call ⟨_, rfl, rfl⟩ (.stop _ _)))))))) rfl rfl
  have answered : ∀ x ∈ sampleScript (.ok ()) ++
      [samplePost, ⟨.httpClose, .ok ()⟩, ⟨.session (.setDelivered 1 (some "file,discord")),
          .ok ()⟩], x.raised = none := by
    simp [sampleScript, samplePost, Interaction.raised]
  have appends : Appends ([] ++
      .spawn ⟨1, 1, .visitor⟩ ((sampleAsks ⟨1, 1, .visitor⟩).program webhook) :: events) := by
    intro i line e before member
    rcases List.mem_cons.mp member with same | later
    · contradiction
    · obtain ⟨x, scripted, w, same⟩ := playing _ later
      obtain ⟨rfl, rfl, rfl⟩ := Event.call.inj same
      exact absurd (answered _ scripted) (by simp [Interaction.raised])
  exact ⟨_, _, _, sent, rfl, (approvals_filed sampleAsks_distinct ⟨rfl, rfl⟩ rfl sent appends).2
    ⟨1, 1, .visitor⟩ sampleRequest _ _ rfl rfl⟩

theorem unfiled (id : Nat) (req : ApprovalRequest) : ¬ Filed [] id req := by
  rintro ⟨before, line, after, ts, split, loaded, -⟩
  have one : [""] = before ++ line :: after := split
  obtain ⟨rfl, rfl, rfl⟩ : before = [] ∧ line = "" ∧ after = [] := by
    cases before with
    | nil => simpa [eq_comm] using one
    | cons b rest => simp at one
  exact spells_nothing loaded

/-- The append raises: the card is posted and the id returned, with nothing in the file. -/
theorem approvals_unfiled :
    ∃ trace c h before, Transition.Run (desk webhook sampleAsks).Step Desk.idle trace c ∧
    (.call ⟨1, 1, .visitor⟩ samplePost before : DeskEvent) ∈ trace ∧
    (∀ id req, ¬ Filed before.approvalsFile id req) ∧ c.threads ⟨1, 1, .visitor⟩ = .active h
    (.done (.ok (.sent 1))) ∧ ∀ id req, ¬ Filed c.world.approvalsFile id req := by
  have idle : Transition.Run (desk webhook sampleAsks).Step Desk.idle [] Desk.idle := .refl _
  obtain ⟨_, -, opened⟩ :=
    desk_entry idle ⟨1, 1, .visitor⟩
    (sampleScript (.error ⟨.other "OSError", "[Errno 28] No space left on device"⟩))
    (.call ⟨_, rfl, rfl⟩ (.call ⟨rfl, rfl⟩ (.call rfl (.call rfl (.stop _ _))))) rfl rfl
  have posted := desk_call opened ⟨1, 1, .visitor⟩ samplePost rfl rfl
  obtain ⟨_, -, sent⟩ := desk_on posted ⟨1, 1, .visitor⟩ rfl [⟨.httpClose, .ok ()⟩,
    ⟨.session (.setDelivered 1 (some "discord")), .ok ()⟩]
    (.call rfl (.call ⟨_, rfl, rfl⟩ (.stop _ _)))
  exact ⟨_, _, _, _, sent,
    List.mem_append_left _ (List.mem_append_right _ (List.mem_singleton.mpr rfl)), unfiled,
    rfl, unfiled⟩

end WiseOrder.ApprovalGateway
