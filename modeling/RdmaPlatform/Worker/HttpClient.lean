import RdmaPlatform.Worker.Config
import RdmaPlatform.Worker.SchedulerClient
import RdmaPlatform.Library.Http

/-! `SchedulerClient::postJSON`: one request to the scheduler over a connection of its own.
The request is written by hand and sent in as many pieces as the system takes; the answer is
everything that arrives until the other side closes, and only its first line is looked at. -/
namespace RdmaPlatform.Worker
open Library

def slash : UInt8 := 47

/-- The host and the port are what stands before and behind the last colon. -/
def splitHostPort (address : Bytes) : Option (Bytes × Bytes) :=
  let scheme := utf8 "http://"
  let normalized := if scheme.isPrefixOf address then address.drop scheme.length else address
  let authority := normalized.takeWhile (fun byte => byte ≠ slash)
  match cut Http.colon authority.reverse with
  | none => none
  | some (port,host) => if host = [] ∨ port = [] then none else some (host.reverse,port.reverse)

def requestText (host port path body : Bytes) : Bytes :=
  utf8 "POST " ++ path ++ utf8 " HTTP/1.1\r\n" ++
    utf8 "Host: " ++ host ++ utf8 ":" ++ port ++ utf8 "\r\n" ++
    utf8 "Content-Type: application/json\r\n" ++
    utf8 "Connection: close\r\n" ++
    utf8 "Content-Length: " ++ Decimal.decimal body.length ++ utf8 "\r\n\r\n" ++ body

/-- `>>` into an `int` from a text that does not begin with white space. -/
def extractInt (text : Bytes) : Int :=
  let unsigned := if text.head? = some 45 ∨ text.head? = some 43 then text.tail else text
  let digits := unsigned.takeWhile (fun byte => Decimal.IsDigit byte)
  if digits = [] then 0
  else if text.head? = some 45 then
    if Decimal.value digits > 2147483648 then -2147483648 else -(Decimal.value digits : Int)
  else if Decimal.value digits > 2147483647 then 2147483647
  else Decimal.value digits

/-- The word behind the first one, read as a number. A stream that ends too early leaves the
variable as it was. -/
def readStatus (line : Bytes) : Int :=
  let word := line.dropWhile isSpace
  if word = [] then -1
  else
    let number := (word.dropWhile (fun byte => !isSpace byte)).dropWhile isSpace
    if number = [] then -1 else extractInt number

def statusCode (response : Bytes) : Int :=
  match Http.cutLine response with
  | none => -1
  | some (line,_) => readStatus line

/-- The result of one `send` call. -/
inductive Sent where
  | written (count : Nat)
  | failed

inductive Progress (α : Type) where
  | waiting
  | failed
  | done (value : α)
  deriving DecidableEq

/-- What the loop around `send` has put on the wire, and how it stands. -/
def sendAll : List Sent → Bytes → Bytes × Progress Unit
  | _, [] => ([],.done ())
  | [], _::_ => ([],.waiting)
  | .failed::_, _::_ => ([],.failed)
  | .written count::rest, text =>
    let (wire,progress) := sendAll rest (text.drop count)
    (text.take count ++ wire,progress)

/-- The loop around `recv`; the socket has no timeout. -/
def receiveAll : List Received → Bytes → Progress Bytes
  | [], _ => .waiting
  | .data chunk::rest, response => receiveAll rest (response ++ chunk)
  | .interrupted::rest, response => receiveAll rest response
  | .timedOut _::_, _ | .failed::_, _ => .failed
  | .closed::_, response => .done response

/-- What the system answers during one call: whether the name resolves, which of its
addresses can be connected to, and the results of `send` and `recv`. -/
structure Attempt where
  resolved : Bool
  connects : List Bool
  sends : List Sent
  reads : List Received

/-- The bytes on the wire, and the result of the call once it has one. -/
def postJSON (schedulerAddr path body : Bytes) (attempt : Attempt) : Bytes × Progress Int :=
  match splitHostPort schedulerAddr with
  | none => ([],.done (-1))
  | some (host,port) =>
    if !attempt.resolved then ([],.done (-1))
    else if true ∉ attempt.connects then ([],.done (-1))
    else
      match sendAll attempt.sends (requestText host port path body) with
      | (wire,.waiting) => (wire,.waiting)
      | (wire,.failed) => (wire,.done (-1))
      | (wire,.done ()) =>
        match receiveAll attempt.reads [] with
        | .waiting => (wire,.waiting)
        | .failed => (wire,.done (-1))
        | .done response => (wire,.done (statusCode response))

/-- The request that the text of `postJSON` is. -/
def postRequest (host port path body : Bytes) : Http.Request where
  method := utf8 "POST"
  target := path
  fields :=
    [(utf8 "Host",host ++ Http.colon::port),(utf8 "Content-Type",utf8 "application/json"),
      (utf8 "Connection",utf8 "close"),(utf8 "Content-Length",Decimal.decimal body.length)]
  body := body

theorem requestText_eq (host port path body : Bytes) :
    requestText host port path body = (postRequest host port path body).text := by
  have method : utf8 "POST " = utf8 "POST" ++ [Http.space] := rfl
  have line : utf8 " HTTP/1.1\r\n" = Http.space::(Http.version ++ Http.crlf) := rfl
  have name : utf8 "Host: " = utf8 "Host" ++ [Http.colon,Http.space] := rfl
  have separator : utf8 ":" = [Http.colon] := rfl
  have newline_ : utf8 "\r\n" = Http.crlf := rfl
  have type_ : utf8 "Content-Type: application/json\r\n" =
    utf8 "Content-Type" ++ Http.colon::Http.space::utf8 "application/json" ++ Http.crlf := rfl
  have closes : utf8 "Connection: close\r\n" =
    utf8 "Connection" ++ Http.colon::Http.space::utf8 "close" ++ Http.crlf := rfl
  have size : utf8 "Content-Length: " = utf8 "Content-Length" ++ [Http.colon,Http.space] := rfl
  have ends : utf8 "\r\n\r\n" = Http.crlf ++ Http.crlf := rfl
  simp [requestText,postRequest,Http.Request.text,Http.writeField,method,line,name,separator,
    newline_,type_,closes,size,ends,List.append_assoc]

/-- A host and a port that the server takes in the field `Host`. -/
def HostSound (host port : Bytes) : Prop :=
  ∀ byte ∈ host ++ Http.colon::port, Http.isHostByte byte = true

/-- What the fields of the request are called. -/
theorem postRequest_named (host port path body : Bytes) :
    (postRequest host port path body).fields.find? (Http.isNamed "content-length") =
        some (utf8 "Content-Length",Decimal.decimal body.length) ∧
      (postRequest host port path body).fields.filter (Http.isNamed "host") =
        [(utf8 "Host",host ++ Http.colon::port)] ∧
      (postRequest host port path body).fields.any (Http.isNamed "transfer-encoding") = false := by
  have length : [utf8 "Host",utf8 "Content-Type",utf8 "Connection",utf8 "Content-Length"].map
      (fun name => decide (Http.lower name = utf8 "content-length")) =
        [false,false,false,true] := by decide
  have first : [utf8 "Host",utf8 "Content-Type",utf8 "Connection",utf8 "Content-Length"].map
      (fun name => decide (Http.lower name = utf8 "host")) = [true,false,false,false] := by decide
  have chunked : [utf8 "Host",utf8 "Content-Type",utf8 "Connection",utf8 "Content-Length"].map
      (fun name => decide (Http.lower name = utf8 "transfer-encoding")) =
        [false,false,false,false] := by decide
  simp only [List.map_cons,List.map_nil,List.cons.injEq,and_true] at length first chunked
  simp [postRequest,Http.isNamed,length,first,chunked]

theorem contentLength_fields (host port path body : Bytes) :
    Http.contentLength (postRequest host port path body).fields = some body.length := by
  rw [Http.contentLength,(postRequest_named host port path body).1]
  simp only [if_pos (And.intro (Decimal.decimal_ne_nil body.length)
    (Decimal.decimal_digits body.length)),Decimal.value_decimal]

theorem isServed_fields {host port : Bytes} (sound : HostSound host port) (path body : Bytes) :
    Http.isServed (postRequest host port path body).fields = true := by
  obtain ⟨_,named,whole⟩ := postRequest_named host port path body
  simp only [Http.isServed,named,whole,List.all_eq_true.mpr sound]
  rfl

theorem isHostByte_solid {byte : UInt8} (allowed : Http.isHostByte byte = true) :
    byte ≠ 13 ∧ Http.isBlank byte = false := by
  refine ⟨?_,decide_eq_false ?_⟩
  · rintro rfl
    revert allowed
    decide
  · rintro (rfl | rfl) <;> revert allowed <;> decide

theorem postRequest_sound {host port path : Bytes} (sound : HostSound host port)
    (plain : 13 ∉ path ∧ Http.space ∉ path) (body : Bytes) :
    (postRequest host port path body).Sound where
  method := (by decide : 13 ∉ utf8 "POST" ∧ Http.space ∉ utf8 "POST")
  target := plain
  fields := by
    have digits := Decimal.decimal_digits body.length
    have solid : ∀ byte ∈ Decimal.decimal body.length, Http.isBlank byte = false := by
      intro byte member
      have digit := digits byte member
      unfold Decimal.IsDigit at digit
      refine decide_eq_false ?_
      rintro (rfl | rfl) <;> exact absurd digit (by decide)
    have unbroken : 13 ∉ Decimal.decimal body.length := fun member =>
      absurd (digits 13 member) (by decide)
    have shown : 13 ∉ host ++ Http.colon::port := fun member =>
      (isHostByte_solid (sound 13 member)).1 rfl
    have trimmed := trim_of_solid fun byte member => (isHostByte_solid (sound byte member)).2
    simp only [postRequest,List.forall_mem_cons]
    exact ⟨⟨(by decide : 13 ∉ utf8 "Host" ∧ Http.colon ∉ utf8 "Host"),shown,trimmed⟩,
      ⟨by decide,by decide⟩,⟨by decide,by decide⟩,
      ⟨(by decide : 13 ∉ utf8 "Content-Length" ∧ Http.colon ∉ utf8 "Content-Length"),unbroken,
        trim_of_solid solid⟩,by simp⟩
  served := isServed_fields sound path body
  length := contentLength_fields host port path body

section Sending

/-- The wire carries the text from its front, and all of it exactly when the loop is done. -/
theorem sendAll_spec (sends : List Sent) (text : Bytes) :
    (sendAll sends text).1 <+: text ∧
      ((sendAll sends text).2 = .done () ↔ (sendAll sends text).1 = text) := by
  induction sends generalizing text with
  | nil => cases text <;> simp [sendAll]
  | cons result rest ih =>
    cases text with
    | nil => simp [sendAll]
    | cons byte more =>
      cases result with
      | failed => simp [sendAll]
      | written count =>
        obtain ⟨front,whole⟩ := ih ((byte::more).drop count)
        have parts := List.take_append_drop count (byte::more)
        simp only [sendAll]
        refine ⟨?_,whole.trans ⟨fun same => ?_,fun same => ?_⟩⟩
        · have longer := (List.prefix_append_right_inj ((byte::more).take count)).mpr front
          rwa [parts] at longer
        · rw [same,parts]
        · exact List.append_cancel_left (same.trans parts.symm)

/-- The request goes onto the wire from the front. If all of it does, the call returns the
status of whatever answer it reads to the end, and otherwise it returns a failure. -/
theorem postJSON_spec {schedulerAddr host port : Bytes}
    (located : splitHostPort schedulerAddr = some (host,port)) (path body : Bytes)
    (attempt : Attempt) :
    (postJSON schedulerAddr path body attempt).1 <+: requestText host port path body ∧
    ((postJSON schedulerAddr path body attempt).1 = requestText host port path body →
      ∀ response, receiveAll attempt.reads [] = .done response →
        (postJSON schedulerAddr path body attempt).2 = .done (statusCode response)) ∧
    ∀ status, (postJSON schedulerAddr path body attempt).2 = .done status →
      status = -1 ∨ ∃ response, receiveAll attempt.reads [] = .done response ∧
        status = statusCode response := by
  have unsent : [] ≠ requestText host port path body := by
    rw [requestText_eq]
    simp [Http.Request.text]
  obtain ⟨front,whole⟩ := sendAll_spec attempt.sends (requestText host port path body)
  have failed (status : Int) (same : (.done (-1) : Progress Int) = .done status) :
      status = -1 ∨ ∃ response, receiveAll attempt.reads [] = .done response ∧
        status = statusCode response := by
    cases same
    exact .inl rfl
  simp only [postJSON,located]
  split
  next => exact ⟨List.nil_prefix,fun same => absurd same unsent,failed⟩
  next =>
    split
    next => exact ⟨List.nil_prefix,fun same => absurd same unsent,failed⟩
    next =>
      split
      next wire sending =>
        rw [sending] at front whole
        refine ⟨front,fun same => ?_,fun status same => ?_⟩
        · cases whole.mpr same
        · cases same
      next wire sending =>
        rw [sending] at front whole
        refine ⟨front,fun same => ?_,failed⟩
        cases whole.mpr same
      next wire sending =>
        rw [sending] at front
        cases receiving : receiveAll attempt.reads [] with
        | waiting => refine ⟨front,fun _ response same => ?_,fun status same => ?_⟩ <;> cases same
        | failed =>
          rw [receiving] at failed
          refine ⟨front,fun _ response same => ?_,failed⟩
          cases same
        | done response =>
          refine ⟨front,fun _ other same => ?_,fun status same => ?_⟩
          · cases same
            rfl
          · cases same
            exact .inr ⟨response,rfl,rfl⟩

end Sending

section Answers

/-- The first line of an answer and what may follow it. -/
def answerText (status : Nat) (reason rest : Bytes) : Bytes :=
  Http.version ++ Http.space::(Decimal.decimal status ++ Http.space::reason) ++ (Http.crlf ++ rest)

theorem readStatus_line (status : Nat) (reason : Bytes) (small : status ≤ 2147483647) :
    readStatus (Http.version ++ Http.space::(Decimal.decimal status ++ Http.space::reason)) =
      status := by
  have digits := Decimal.decimal_digits status
  have nonempty := Decimal.decimal_ne_nil status
  obtain ⟨first,others,shape⟩ := List.exists_cons_of_ne_nil nonempty
  have digit : Decimal.IsDigit first := digits first (by rw [shape]; simp)
  unfold Decimal.IsDigit at digit
  have solid : isSpace first = false := by
    simp only [isSpace,decide_eq_false_iff_not,UInt8.le_iff_toNat_le,← UInt8.toNat_inj]
    simp
    omega
  have word : (Http.version ++
    Http.space::(Decimal.decimal status ++ Http.space::reason)).dropWhile isSpace =
      Http.version ++ Http.space::(Decimal.decimal status ++ Http.space::reason) := by
    rw [List.dropWhile_append]
    rfl
  have number : ((Http.version ++ Http.space::(Decimal.decimal status ++ Http.space::reason)).dropWhile
      (fun byte => !isSpace byte)).dropWhile isSpace = Decimal.decimal status ++
        Http.space::reason := by
    have unspaced : ∀ byte ∈ Http.version, (!isSpace byte) = true := List.all_eq_true.mp rfl
    rw [List.dropWhile_append_of_pos unspaced,List.dropWhile_cons_of_neg (by decide),
      List.dropWhile_cons_of_pos (by decide),shape,List.cons_append,
        List.dropWhile_cons_of_neg (by simp [solid])]
  have value : extractInt (Decimal.decimal status ++ Http.space::reason) = status := by
    have unsigned : ¬ ((Decimal.decimal status ++ Http.space::reason).head? = some 45 ∨
        (Decimal.decimal status ++ Http.space::reason).head? = some 43) := by
      rw [shape]
      simp only [List.cons_append,List.head?_cons,Option.some.injEq]
      rintro (rfl | rfl) <;> exact absurd digit (by decide)
    have taken : (Decimal.decimal status ++ Http.space::reason).takeWhile
      (fun byte => Decimal.IsDigit byte) =
        Decimal.decimal status := by
      rw [List.takeWhile_append_of_pos (by simpa using digits),
        List.takeWhile_cons_of_neg (by decide),List.append_nil]
    simp only [extractInt,if_neg unsigned,taken,nonempty,if_false,
      if_neg (fun minus => unsigned (.inl minus)),Decimal.value_decimal,if_neg (Nat.not_lt.mpr small)]
  rw [readStatus,word,number,if_neg (by simp),if_neg (by simp),value]

theorem statusCode_answerText (status : Nat) (reason rest : Bytes) (small : status ≤ 2147483647)
    (plain : 13 ∉ reason) :
    statusCode (answerText status reason rest) = status := by
  have digits := Decimal.decimal_digits status
  have unbroken : 13 ∉ Http.version ++ Http.space::(Decimal.decimal status ++ Http.space::reason) := by
    have number : 13 ∉ Decimal.decimal status := fun member => absurd (digits 13 member) (by decide)
    have front : 13 ∉ Http.version := by decide
    simp [number,front,plain,Http.space]
  rw [statusCode,answerText,Http.cutLine_append _ rest unbroken]
  exact readStatus_line status reason small

/-- A client that reads only the front of an answer reads its status or none. -/
theorem statusCode_part {status : Nat} {reason rest part : Bytes} (small : status ≤ 2147483647)
    (plain : 13 ∉ reason) (front : part <+: answerText status reason rest) :
    statusCode part = if (Http.cutLine part).isSome then (status : Int) else -1 := by
  obtain ⟨more,whole⟩ := front
  have all := statusCode_answerText status reason rest small plain
  unfold statusCode at all ⊢
  cases read : Http.cutLine part with
  | none => rfl
  | some both =>
    obtain ⟨line,after⟩ := both
    rw [← whole,Http.cutLine_extend read more] at all
    exact all

end Answers

end RdmaPlatform.Worker
