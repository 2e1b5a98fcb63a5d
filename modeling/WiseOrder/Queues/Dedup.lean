import WiseOrder.Effects
import WiseOrder.Foundation.Sha256

/-! The claim on a commit: a key in Redis, set once and expiring by itself. -/
namespace WiseOrder.Dedup

def keyPrefix : String := "wiseorder:dedup:commit_pipeline"

def pending : String := "PENDING"

structure ClaimResult where
  acquired : Bool
  existingValue : Option String

def key (repo sha : Json) : String :=
  let digest := Sha256.hexdigest (Python.str repo ++ "\x00" ++ Python.str sha).toUTF8.toList
  keyPrefix ++ ":" ++ digest

def acquire (s : Settings) (repo sha : Json) : Async ClaimResult := do
  let won : Bool ← redis (.setNx (key repo sha) pending s.dedupTtlSeconds)
  if won then
    return ⟨true, none⟩
  else
    let existing ← redis (.get (key repo sha))
    return ⟨false, existing⟩

def attachWorkflowId (s : Settings) (repo sha : Json) (workflowId : Nat) : Async Unit :=
  redis (.setEx (key repo sha) (toString workflowId) s.dedupTtlSeconds)

def release (repo sha : Json) : Async Unit := redis (.delete (key repo sha))

end WiseOrder.Dedup
