import WiseOrder.Python
import Mathlib

/-! Who may change anything through the API: the bind that is accepted at startup, and
the bearer token that the changing endpoints ask for. -/
namespace WiseOrder.Api

/-- `HTTPException` -/
structure HttpException where
  statusCode : Nat
  detail : String
  deriving DecidableEq

def loopbackHosts : List String := ["127.0.0.1", "localhost", "::1"]

def validateBindSafety (host : String) (allowRemote : Bool) (authToken : String) :
    Except PyException Unit :=
  if loopbackHosts.contains host then .ok ()
  else if !allowRemote then
    .error (.runtimeError ("refusing to bind API to non-loopback host " ++ Python.reprString host ++
      ". Set WISEORDER_API_ALLOW_REMOTE_BIND=true to opt in."))
  else if authToken = "" then
    .error (.runtimeError ("refusing to bind API to " ++ Python.reprString host ++
      " without auth. Set WISEORDER_API_AUTH_TOKEN to a non-empty secret first."))
  else .ok ()

def bearer : String := "Bearer "

/-- `hmac.compare_digest` of the UTF-8 bytes. -/
def compareDigest (presented expected : String) : Bool := presented.toUTF8 = expected.toUTF8

def requireToken (expected : String) (authorization : Option String) : Except HttpException Unit :=
  if expected = "" then .ok ()
  else match authorization with
    | none => .error ⟨401, "Bearer token required"⟩
    | some header =>
        if bearer.toList.isPrefixOf header.toList then
          let presented := String.ofList (header.toList.drop bearer.length)
          if compareDigest presented expected then .ok () else .error ⟨403, "invalid token"⟩
        else .error ⟨401, "Bearer token required"⟩

/-- A bind that is accepted away from loopback was opted into, and has a token. -/
theorem remote_accepted {host token : String} {allowRemote : Bool} (remote : host ∉ loopbackHosts)
    (accepted : validateBindSafety host allowRemote token = .ok ()) :
    allowRemote = true ∧ token ≠ "" := by
  have away : loopbackHosts.contains host = false := by simpa using remote
  simp only [validateBindSafety, away, Bool.false_eq_true, if_false] at accepted
  cases allowRemote with
  | false => simp at accepted
  | true =>
      refine ⟨rfl, fun empty => ?_⟩
      simp [empty] at accepted

theorem compareDigest_iff {presented expected : String} : compareDigest presented expected =
      true ↔ presented = expected := by
  rw [compareDigest, decide_eq_true_iff]
  exact ⟨fun same => String.toByteArray_inj.mp same, fun same => same ▸ rfl⟩

/-- A header is taken if and only if it is the word followed by the token. -/
theorem requireToken_iff {expected : String} (set : expected ≠ "") {authorization : Option String} :
    requireToken expected authorization = .ok () ↔ authorization = some (bearer ++ expected) := by
  unfold requireToken
  rw [if_neg set]
  cases authorization with
  | none => simp
  | some header =>
      have whole {presented : String} (prefixed : bearer.toList <+: header.toList)
          (rest : String.ofList (header.toList.drop bearer.length) = presented) : header = bearer ++
              presented := by
        apply String.toList_inj.mp
        obtain ⟨more, same⟩ := prefixed
        rw [← rest, String.toList_append, String.toList_ofList, ← same, ← String.length_toList,
          List.drop_left]
      constructor
      · intro accepted
        dsimp only at accepted
        split at accepted
        · rename_i prefixed
          split at accepted
          · rename_i same
            rw [whole (List.isPrefixOf_iff_prefix.mp prefixed) (compareDigest_iff.mp same)]
          · contradiction
        · contradiction
      · intro same
        cases same
        have prefixed : bearer.toList <+: (bearer ++ expected).toList :=
          ⟨expected.toList, String.toList_append.symm⟩
        have rest : String.ofList ((bearer ++ expected).toList.drop bearer.length) = expected := by
          apply String.toList_inj.mp
          rw [String.toList_ofList, String.toList_append, ← String.length_toList, List.drop_left]
        dsimp only
        rw [if_pos (List.isPrefixOf_iff_prefix.mpr prefixed), rest,
          if_pos (compareDigest_iff.mpr rfl)]

end WiseOrder.Api
