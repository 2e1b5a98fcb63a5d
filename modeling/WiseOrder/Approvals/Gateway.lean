import WiseOrder.Effects

/-! Approval requests: a row, a line in the approvals file, and cards on the
configured webhooks. Only the row is required; the rest is attempted. -/
namespace WiseOrder.ApprovalGateway
open Coroutine

structure Record where
  approvalId : Nat
  ts : Time
  req : ApprovalRequest

namespace Record

def optionId : Option Nat → Json
  | none => .null
  | some id => .int id

def json (record : Record) : Json := .obj [
  ("approval_id", .int record.approvalId), ("ts", .str (Python.isoformat record.ts)),
  ("summary", .str record.req.summary), ("outputs", record.req.outputs),
  ("affected", .arr (record.req.affected.map .str)), ("risk_level", .str record.req.riskLevel),
  ("workflow_id", optionId record.req.workflowId), ("task_id", optionId record.req.taskId)]

/-- `outputs.get(name, "")`; the workflows put strings there. -/
def output (record : Record) (name : String) : String :=
  match record.req.outputs with
  | .obj fields => match Json.lookup name fields with
      | some (.str text) => text
      | _ => ""
  | _ => ""

def bullets (record : Record) : String :=
  "\n".intercalate ((record.req.affected.take 10).map ("• " ++ ·))

end Record

def trim (n : Nat) (s : String) : String :=
  if s.length ≤ n then s else Python.take (n - 3) s ++ "..."

def riskColor (risk : String) : Int :=
  if risk = "low" then 0x2ECC71
  else if risk = "medium" then 0xF1C40F
  else if risk = "high" then 0xE74C3C
  else 0x95A5A6

def formatDiscord (record : Record) : Json :=
  let affected := if record.bullets = "" then "(none listed)" else record.bullets
  let field (name value : String) : Json :=
    .obj [("name", .str name), ("value", .str (trim 1024 value)), ("inline", .bool false)]
  let eng := record.output "engineering_summary"
  let social := record.output "social_post"
  let fields := (if eng ≠ "" then [field "Engineering summary" eng] else []) ++
    (if social ≠ "" then [field "Social draft" social] else []) ++ [field "Affected files" affected]
  .obj [("username", .str "WiseOrder"), ("embeds", .arr [.obj [
    ("title", .str ("Approval #" ++ toString record.approvalId ++ " — " ++
      record.req.riskLevel.toUpper)),
    ("description", .str (trim 2048 record.req.summary)),
    ("color", .int (riskColor record.req.riskLevel)),
    ("fields", .arr fields),
    ("timestamp", .str (Python.isoformat record.ts))]])]

def formatTelegram (record : Record) : String :=
  let eng := record.output "engineering_summary"
  let social := record.output "social_post"
  let section_ (title text : String) : List String := ["", "*" ++ title ++ "*", text]
  let parts := ["*Approval #" ++ toString record.approvalId ++ "* — `" ++
    record.req.riskLevel ++ "`", "",
      record.req.summary] ++
    (if eng ≠ "" then section_ "Engineering summary" (trim 1500 eng) else []) ++
    (if social ≠ "" then section_ "Social draft" (trim 1000 social) else []) ++
    (if record.req.affected.isEmpty then [] else section_ "Affected files" record.bullets)
  Python.take 4000 ("\n".intercalate parts)

/-- One card: delivered when the post is answered with a status below 300. -/
def deliver (name url : String) (body : Json) : Async (List String) :=
  tryExcept (do
      let r ← await (.httpPost url body)
      return if HttpResponse.statusCode r < 300 then [name] else [])
    fun _ => return []

def sendFile (record : Record) : Async (List String) :=
  tryExcept (do
      await (.appendFile (record.json.dumps ++ "\n"))
      return ["file"])
    fun _ => return []

def sendDiscord (s : Settings) (record : Record) : Async (List String) :=
  if s.discordWebhookUrl ≠ "" then deliver "discord" s.discordWebhookUrl (formatDiscord record)
  else return []

def sendTelegram (s : Settings) (record : Record) : Async (List String) :=
  if s.telegramBotToken ≠ "" ∧ s.telegramChatId ≠ "" then
    deliver "telegram" ("https://api.telegram.org/bot" ++ s.telegramBotToken ++ "/sendMessage")
      (.obj [("chat_id", .str s.telegramChatId), ("text", .str (formatTelegram record)),
        ("parse_mode", .str "Markdown")])
  else return []

def sendCards (s : Settings) (record : Record) : Async (List String) := do
  await .httpOpen
  Program.finallyDo (do
      let discord ← sendDiscord s record
      let telegram ← sendTelegram s record
      return discord ++ telegram)
    (await .httpClose)

def send (s : Settings) (req : ApprovalRequest) : Async Nat := do
  let approvalId ← session (.addApproval req)
  let ts ← utcnow
  let record : Record := ⟨approvalId, ts, req⟩
  let file ← sendFile record
  let cards ← sendCards s record
  let delivered := file ++ cards
  session (.setDelivered approvalId (if delivered.isEmpty then none
    else some (",".intercalate delivered)))
  return approvalId

/-- The value that an update sets a column to, if it is another one than was read. -/
def changed [DecidableEq α] (read : Option α) (value : α) : Option α :=
  if read = some value then none else some value

def decide (approvalId : Int) (decision : String) : Async Bool :=
  if decision = "approved" ∨ decision = "rejected" then do
    let row ← session (.findApproval approvalId)
    match row with
    | none => return false
    | some (read, readAt) => do
        let now ← utcnow
        session (.updateDecision approvalId.toNat (changed read decision) (changed readAt now))
        return true
  else raise (.valueError "decision must be 'approved' or 'rejected'")

end WiseOrder.ApprovalGateway
