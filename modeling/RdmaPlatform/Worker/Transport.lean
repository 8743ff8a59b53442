import RdmaPlatform.Scheduler.Deliverer
import RdmaPlatform.Library.Split
import Mathlib.Data.List.Induction
import Mathlib.Data.List.TakeWhile

/-! The worker's end of a delivery: `TcpTransport::handleClient`. The bytes of a
connection arrive in chunks of any size; the first line of them, less one
carriage return, is split at its first bar into a task identifier and a prompt. -/
namespace RdmaPlatform.Worker
open Library Scheduler

structure Task where
  id : Bytes
  prompt : Bytes
  deriving DecidableEq

def newline : UInt8 := 10
def carriageReturn : UInt8 := 13
def bar : UInt8 := 124

/-- The result of one `recv` call. `timedOut` carries the value of `running_` it finds. -/
inductive Received where
  | data (chunk : Bytes)
  | interrupted
  | timedOut (running : Bool)
  | failed
  | closed

inductive Outcome where
  | waiting
  | dropped
  | payload (bytes : Bytes)
  deriving DecidableEq

def receive (payload : Bytes) : List Received → Outcome
  | [] => .waiting
  | .interrupted::rest => receive payload rest
  | .timedOut running::rest => if running then receive payload rest else .dropped
  | .failed::_ => .dropped
  | .closed::_ => .payload payload
  | .data chunk::rest =>
    match cut newline (payload ++ chunk) with
    | some (line,_) => .payload line
    | none => receive (payload ++ chunk) rest

def stripReturn (payload : Bytes) : Bytes :=
  if payload.getLast? = some carriageReturn then payload.dropLast else payload

def parseTask (payload : Bytes) : Option Task :=
  if stripReturn payload = [] then none
  else
    match cut bar (stripReturn payload) with
    | none => none
    | some (id,prompt) => if id = [] then none else some ⟨id,prompt⟩

def handleClient (events : List Received) : List Task :=
  match receive [] events with
  | .payload payload => (parseTask payload).toList
  | _ => []

/-- The calls of `recv` that deliver `bytes` and then the end of the stream, in
chunks that fit the buffer, with interrupts and timeouts anywhere between them. -/
inductive Delivers : List Received → Bytes → Prop
  | closed : Delivers [.closed] []
  | data (chunk events bytes) (some_ : chunk ≠ []) (fits : chunk.length ≤ 1024)
      (rest : Delivers events bytes) : Delivers (.data chunk::events) (chunk ++ bytes)
  | interrupted (events bytes) (rest : Delivers events bytes) : Delivers (.interrupted::events) bytes
  | timedOut (events bytes) (rest : Delivers events bytes) : Delivers (.timedOut true::events) bytes

def firstLine (bytes : Bytes) : Bytes := ((cut newline bytes).map Prod.fst).getD bytes

theorem firstLine_eq_takeWhile (bytes : Bytes) :
    firstLine bytes = bytes.takeWhile (fun byte => byte ≠ newline) :=
  fst_cut_getD newline bytes

theorem firstLine_self (bytes : Bytes) (absent : newline ∉ bytes) : firstLine bytes = bytes := by
  rw [firstLine,cut_eq_none.mpr absent]
  rfl

theorem firstLine_append_plain (front rest : Bytes) (plain : newline ∉ front) :
    firstLine (front ++ rest) = front ++ firstLine rest := by
  rw [firstLine_eq_takeWhile,firstLine_eq_takeWhile]
  refine List.takeWhile_append_of_pos (fun byte member => ?_)
  exact decide_eq_true (ne_of_mem_of_not_mem member plain)

theorem firstLine_append (line rest : Bytes) (absent : newline ∉ line) :
    firstLine (line ++ newline::rest) = line := by
  rw [firstLine,cut_append newline line rest absent]
  rfl

/-- A newline at the end changes no first line. -/
theorem firstLine_concat (bytes : Bytes) : firstLine (bytes ++ [newline]) = firstLine bytes := by
  by_cases inside : newline ∈ bytes
  · obtain ⟨left,right,parts,absent⟩ := List.eq_append_cons_of_mem inside
    rw [parts,List.append_assoc,List.cons_append,firstLine_append left _ absent,
      firstLine_append left _ absent]
  · rw [firstLine_append bytes [] inside,firstLine_self bytes inside]

theorem receive_firstLine (events : List Received) (bytes payload : Bytes)
    (delivered : Delivers events bytes) (open_ : newline ∉ payload) :
    receive payload events = .payload (firstLine (payload ++ bytes)) := by
  induction delivered generalizing payload with
  | closed => simp [receive,firstLine_self payload open_]
  | interrupted events bytes rest ih => exact ih payload open_
  | timedOut events bytes rest ih => exact ih payload open_
  | data chunk events bytes some_ fits rest ih =>
    rw [receive]
    split
    next line after found =>
      obtain ⟨parts,absent⟩ := cut_eq_some found
      rw [← List.append_assoc,parts,List.append_assoc,List.cons_append,firstLine_append line _ absent]
    next single =>
      rw [ih (payload ++ chunk) (cut_eq_none.mp single),List.append_assoc]

theorem formatTaskID_plain (counter : UInt64) (byte : UInt8) (special : byte = newline ∨ byte = bar) :
    byte ∉ formatTaskID counter := by
  intro member
  rcases List.mem_append.mp member with tag | digit
  · rcases special with same | same
    · rw [same] at tag
      exact absurd tag (by decide)
    · rw [same] at tag
      exact absurd tag (by decide)
  · have range := Decimal.padded_digits 6 counter.toNat byte digit
    rcases special with same | same
    · rw [same] at range
      exact absurd range (by decide)
    · rw [same] at range
      exact absurd range (by decide)

theorem frame_eq (item : Assignment) :
    item.frame = item.taskID ++ bar::(item.payload ++ [newline]) := by
  simp [Assignment.frame,show utf8 "|" = [bar] from rfl,show utf8 "\n" = [newline] from rfl]

theorem firstLine_frame (item : Assignment) (plain : newline ∉ item.taskID) :
    firstLine item.frame = item.taskID ++ bar::firstLine item.payload := by
  have header : newline ∉ item.taskID ++ [bar] := by
    rw [List.mem_append]
    exact not_or.mpr ⟨plain,by decide⟩
  rw [frame_eq,List.append_cons,firstLine_append_plain _ _ header,firstLine_concat]
  simp

theorem stripReturn_append (id prompt : Bytes) :
    stripReturn (id ++ bar::prompt) = id ++ bar::stripReturn prompt := by
  cases prompt using List.reverseRecOn with
  | nil =>
    have last : (id ++ [bar]).getLast? ≠ some carriageReturn := by
      rw [List.getLast?_concat]
      decide
    rw [stripReturn,if_neg last]
    rfl
  | append_singleton front last =>
    have regroup : id ++ bar::(front ++ [last]) = (id ++ bar::front) ++ [last] := by simp
    simp only [stripReturn,regroup,List.getLast?_concat,List.dropLast_concat]
    split <;> simp

theorem parseTask_append (id prompt : Bytes) (named : id ≠ []) (plain : bar ∉ id) :
    parseTask (id ++ bar::prompt) = some ⟨id,stripReturn prompt⟩ := by
  rw [parseTask,stripReturn_append,if_neg (by simp),cut_append bar id _ plain]
  simp [named]

theorem handleClient_frame (item : Assignment) (events : List Received)
    (delivered : Delivers events item.frame) (named : item.taskID ≠ [])
    (plain : newline ∉ item.taskID) (single : bar ∉ item.taskID) :
    handleClient events = [⟨item.taskID,stripReturn (firstLine item.payload)⟩] := by
  have received := receive_firstLine events item.frame [] delivered (by simp)
  rw [List.nil_append,firstLine_frame item plain] at received
  rw [handleClient,received]
  simp only
  rw [parseTask_append item.taskID _ named single]
  rfl

theorem stripReturn_firstLine_eq (payload : Bytes) :
    stripReturn (firstLine payload) = payload ↔ newline ∉ payload ∧
      payload.getLast? ≠ some carriageReturn := by
  have shorter (bytes : Bytes) : (stripReturn bytes).length ≤ bytes.length := by
    unfold stripReturn
    split <;> simp
  by_cases inside : newline ∈ payload
  · have lost : (firstLine payload).length < payload.length := by
      cases found : cut newline payload with
      | none => exact absurd inside (cut_eq_none.mp found)
      | some parts =>
        obtain ⟨equal,absent⟩ := cut_eq_some found
        rw [equal,firstLine_append _ _ absent]
        simp
    refine iff_of_false ?_ (fun both => both.1 inside)
    intro same
    have length := shorter (firstLine payload)
    rw [same] at length
    omega
  · rw [firstLine_self _ inside]
    simp only [inside,not_false_iff,true_and]
    constructor
    · intro same last
      have nonempty : payload ≠ [] := by
        intro empty
        rw [empty] at last
        cases last
      rw [stripReturn,if_pos last] at same
      have length := congrArg List.length same
      have positive := List.length_pos_of_ne_nil nonempty
      rw [List.length_dropLast] at length
      omega
    · intro last
      rw [stripReturn,if_neg last]

/-- For every task the scheduler can hold and every chunking of its frame, the
handler is called once with the task's identifier and payload exactly if the
payload has no newline and does not end in a carriage return. -/
theorem frame_lossless_iff (counter : UInt64) (payload address : Bytes) (events : List Received)
    (delivered : Delivers events (Assignment.frame ⟨formatTaskID counter,payload,address⟩)) :
    handleClient events = [⟨formatTaskID counter,payload⟩] ↔
      newline ∉ payload ∧ payload.getLast? ≠ some carriageReturn := by
  rw [handleClient_frame _ events delivered (formatTaskID_ne_nil counter)
    (formatTaskID_plain counter newline (.inl rfl)) (formatTaskID_plain counter bar (.inr rfl))]
  simp only [List.cons.injEq,Task.mk.injEq,true_and,and_true]
  exact stripReturn_firstLine_eq payload

theorem frame_lossless_iff_chunked :
    handleClient [.data (utf8 "task-0"),.interrupted,.data (utf8 "00001|hello\n"),
      .timedOut true,.closed] = [⟨utf8 "task-000001",utf8 "hello"⟩] :=
  (frame_lossless_iff 1 (utf8 "hello") (utf8 "127.0.0.1:9001") _
    (.data (utf8 "task-0") _ (utf8 "00001|hello\n") (by decide) (by decide)
      (.interrupted _ _ (.data (utf8 "00001|hello\n") _ [] (by decide) (by decide)
        (.timedOut _ _ .closed))))).mpr
    ⟨by decide,by decide⟩

/-- A prompt of two lines reaches the handler as its first line. -/
theorem frame_truncates_second_line :
    Delivers [.data (Assignment.frame ⟨formatTaskID 1,utf8 "first\nsecond",utf8 "127.0.0.1:9001"⟩),
      .closed] (Assignment.frame ⟨formatTaskID 1,utf8 "first\nsecond",utf8 "127.0.0.1:9001"⟩) ∧
    handleClient [.data (Assignment.frame ⟨formatTaskID 1,utf8 "first\nsecond",
      utf8 "127.0.0.1:9001"⟩),.closed] = [⟨formatTaskID 1,utf8 "first"⟩] ∧
    handleClient [.data (Assignment.frame ⟨formatTaskID 1,utf8 "first\nsecond",
      utf8 "127.0.0.1:9001"⟩),.closed] ≠ [⟨formatTaskID 1,utf8 "first\nsecond"⟩] := by
  refine ⟨?_,by decide,by decide⟩
  have whole := Delivers.data (Assignment.frame ⟨formatTaskID 1,utf8 "first\nsecond",
    utf8 "127.0.0.1:9001"⟩)
    [.closed] [] (by decide) (by decide) .closed
  rwa [List.append_nil] at whole

end RdmaPlatform.Worker
