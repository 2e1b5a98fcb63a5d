import WiseOrder.Effects
import WiseOrder.Memory.Queries
import WiseOrder.Watchers.Records

/-! The calls that the HTTP server and the daily summary await: those of the pipelines,
and reads of the database, the vector index and the files. -/
namespace WiseOrder
open Coroutine

/-- The lists of one query to the vector index. -/
structure VectorResult where
  ids : List Json
  documents : List Json
  metadatas : List Json
  distances : List Json

inductive ServiceCall where
  | run (c : Call)
  | select (q : Query)
  | watchers
  | vectorQuery (text : String) (nResults : Int)
  | vectorCount
  | makeLogDir
  | readLogTail (path : String)
  | appendSummary (line : String)

def ServiceCall.Reply : ServiceCall → Type
  | .run c => c.Reply
  | .select q => q.Reply
  | .watchers => Watchers
  | .vectorQuery .. => VectorResult
  | .vectorCount => Nat
  | .makeLogDir => Unit
  | .readLogTail _ => String
  | .appendSummary _ => Unit

abbrev serviceCalls : Signature := ⟨ServiceCall, ServiceCall.Reply, PyException⟩

abbrev Service := Program serviceCalls

namespace Service

def await (c : ServiceCall) : Service c.Reply := @Program.call serviceCalls c

def raise (e : PyException) : Service α := @Program.raise serviceCalls _ e

def select (q : Query) : Service q.Reply := await (.select q)

/-- A coroutine of the rest of the program. -/
def run (m : Async α) : Service α :=
  @Program.embed calls α α serviceCalls ServiceCall.run
    (fun _ reply => reply) (fun result => result) m

def tryExcept (body : Service α) (handler : PyException → Service α) : Service α :=
  body.catching PyException.isException handler

end Service

/-- What the server's process shares with the rest: the services, what its watchers keep, and its
files. -/
structure Host where
  world : World
  watchers : Watchers
  summaryFile : List String

/-- A read leaves everything as it is, and replies with what is there where that is ours to know. -/
def Host.perform (i : CallId) (c : ServiceCall) (host : Host) (reply : Except PyException c.Reply)
    (host' : Host) : Prop :=
  match c, reply with
  | .run c, reply =>
      ∃ world, WiseOrder.perform i c host.world reply world ∧ host' = { host with world := world }
  | .select q, .ok x => q.run host.world.db = .ok x ∧ host' = host
  | .watchers, .ok x => x = host.watchers ∧ host' = host
  | .watchers, .error _ => False
  | .appendSummary line, .ok _ => host' = { host with summaryFile := host.summaryFile ++ [line] }
  | _, _ => host' = host

namespace Api
variable {i : CallId} {host host' : Host}

/-- The calls that leave the host as it is. -/
def Reads : ServiceCall → Prop
  | .select _ | .watchers | .vectorQuery .. | .vectorCount | .readLogTail _ => True
  | .run .now | .run (.redis (.llen _)) | .run (.redis (.lrange ..)) | .run .redisPing
      | .run .dbPing | .run (.isFile _) => True
  | _ => False

theorem perform_reads {c : ServiceCall} {reply : Except PyException c.Reply} (reads : Reads c)
    (performed : host.perform i c reply host') : host' = host := by
  cases c with
  | select q =>
      cases reply with
      | ok x => exact performed.2
      | error e => exact performed
  | watchers =>
      cases reply with
      | ok x => exact performed.2
      | error e => exact performed.elim
  | vectorQuery | vectorCount | readLogTail => cases reply <;> exact performed
  | makeLogDir | appendSummary => exact reads.elim
  | run c =>
      obtain ⟨world, performed, rfl⟩ := performed
      have same : world = host.world := by
        cases c with
        | redis command =>
            cases command with
            | llen queue =>
                cases reply with
                | ok x =>
                    obtain ⟨r, ran, rfl⟩ := performed
                    cases ran
                    rfl
                | error e =>
                    rcases performed with rfl | ⟨x, r, ran, rfl⟩
                    · rfl
                    · cases ran
                      rfl
            | lrange queue start stop =>
                cases reply with
                | ok x =>
                    obtain ⟨r, ran, rfl⟩ := performed
                    rw [(RedisCommand.run_lrange ran).2]
                | error e =>
                    rcases performed with rfl | ⟨x, r, ran, rfl⟩
                    · rfl
                    · rw [(RedisCommand.run_lrange ran).2]
            | _ => exact reads.elim
        | now =>
            cases reply with
            | ok t => exact performed.2
            | error e => exact performed.elim
        | redisPing | dbPing | isFile => cases reply <;> exact performed
        | _ => exact reads.elim
      rw [same]

end Api

end WiseOrder
