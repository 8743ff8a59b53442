import RdmaPlatform.Scheduler.Model
import RdmaPlatform.Library.Json

/-! Request bodies: `decodeJSON` of `internal/api/router.go`. A body is one JSON
value; an object is decoded member by member into the request's fields, an
unknown name or a value of the wrong type refusing the whole body. Names are compared
without regard to case. -/
namespace RdmaPlatform.Scheduler
open Library

/-- A number literal as a Go `int`: no fraction, no exponent, 64 bits. -/
def decodeLiteral (literal : Bytes) : Option Int64 :=
  let (negative,digits) := match literal with
    | 45::digits => (true,digits)
    | digits => (false,digits)
  let magnitude : Int := Decimal.value digits
  let number := if negative then -magnitude else magnitude
  if digits ≠ [] ∧ (∀ byte ∈ digits, Decimal.IsDigit byte) ∧ -2^63 ≤ number ∧
    number < 2^63 then
    some (Int64.ofInt number)
  else none

/-- A `null` leaves a scalar field as it is. -/
def decodeString (old : Bytes) : Json → Option Bytes
  | .string text => some text
  | .null => some old
  | _ => none

def decodeInt (old : Int64) : Json → Option Int64
  | .number literal => decodeLiteral literal
  | .null => some old
  | _ => none

def decodeBool (old : Bool) : Json → Option Bool
  | .bool flag => some flag
  | .null => some old
  | _ => none

def decodeStrings : Json → Option (List Bytes)
  | .array items => items.mapM (decodeString [])
  | .null => some []
  | _ => none

/-- `foldName` of `encoding/json`, as far as it matters for a name in ASCII: beside the small
letters only the long s, U+017F, and the Kelvin sign, U+212A, fold to a capital letter. -/
def foldName : Bytes → Bytes
  | [] => []
  | 0xC5::0xBF::rest => 83::foldName rest
  | 0xE2::0x84::0xAA::rest => 75::foldName rest
  | byte::rest => (if 97 ≤ byte ∧ byte ≤ 122 then byte - 32 else byte)::foldName rest

/-- The name of a member is that of the field. -/
def names (name : Bytes) (field : String) : Bool := foldName name = foldName (utf8 field)

def RegisterNodeRequest.setMember (req : RegisterNodeRequest) (name : Bytes) (json : Json) :
    Option RegisterNodeRequest :=
  if names name "id" then (decodeString req.id json).map (fun id => {req with id := id})
  else if names name "address" then
    (decodeString req.address json).map (fun address => {req with address := address})
  else if names name "capacity" then
    (decodeInt req.capacity json).map (fun capacity => {req with capacity := capacity})
  else if names name "labels" then (decodeStrings json).map (fun labels => {req with labels := labels})
  else none

def HeartbeatRequest.setMember (req : HeartbeatRequest) (name : Bytes) (json : Json) :
    Option HeartbeatRequest :=
  if names name "id" then (decodeString req.id json).map (fun id => {req with id := id})
  else if names name "running_tasks" then
    (decodeInt req.runningTasks json).map (fun runningTasks => {req with runningTasks := runningTasks})
  else if names name "status" then (decodeString req.status json).map
    (fun status => {req with status := status})
  else if names name "active_task_ids" then
    (decodeStrings json).map (fun activeTaskIDs => {req with activeTaskIDs := activeTaskIDs})
  else none

def CompleteTaskRequest.setMember (req : CompleteTaskRequest) (name : Bytes) (json : Json) :
    Option CompleteTaskRequest :=
  if names name "success" then (decodeBool req.success json).map
    (fun success => {req with success := success})
  else if names name "message" then
    (decodeString req.message json).map (fun message => {req with message := message})
  else none

def decodeStruct {σ : Type} (setMember : σ → Bytes → Json → Option σ) (zero : σ) :
      Json → Option σ
  | .object members => members.foldlM (fun req member => setMember req member.1 member.2) zero
  | .null => some zero
  | _ => none

def decodeJSON {σ : Type} (setMember : σ → Bytes → Json → Option σ) (zero : σ) (body : Bytes) :
    Option σ :=
  (Json.parse body).bind (decodeStruct setMember zero)

def decodeRegister : Bytes → Option RegisterNodeRequest :=
  decodeJSON RegisterNodeRequest.setMember ⟨[],[],0,[]⟩

def decodeHeartbeat : Bytes → Option HeartbeatRequest :=
  decodeJSON HeartbeatRequest.setMember ⟨[],0,[],[]⟩

def decodeComplete : Bytes → Option CompleteTaskRequest :=
  decodeJSON CompleteTaskRequest.setMember ⟨false,[]⟩

theorem decodeLiteral_signed (n : Int) (low : -2^63 ≤ n) (high : n < 2^63) :
    decodeLiteral (Decimal.signed n) = some (Int64.ofInt n) := by
  have digits := Decimal.decimal_digits n.natAbs
  have nonempty := Decimal.decimal_ne_nil n.natAbs
  have value := Decimal.value_decimal n.natAbs
  unfold Decimal.signed
  split
  next negative =>
    have number : -((Decimal.value (Decimal.decimal n.natAbs) : Nat) : Int) = n := by
      rw [value]
      omega
    simp only [decodeLiteral,if_true]
    rw [number,if_pos ⟨nonempty,digits,low,high⟩]
  next positive =>
    have number : ((Decimal.value (Decimal.decimal n.natAbs) : Nat) : Int) = n := by
      rw [value]
      omega
    -- A numeral does not start with the minus sign.
    have unsigned : (match Decimal.decimal n.natAbs with
        | 45::rest => (true,rest)
        | other => (false,other)) = (false,Decimal.decimal n.natAbs) := by
      split
      next rest same =>
        have sign := digits 45 (by rw [same]; simp)
        exact absurd sign (by decide)
      next => rfl
    simp only [decodeLiteral,unsigned,Bool.false_eq_true,if_false]
    rw [number,if_pos ⟨nonempty,digits,low,high⟩]

end RdmaPlatform.Scheduler
