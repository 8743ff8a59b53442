import RdmaPlatform.Scheduler.Decode
import RdmaPlatform.Library.JsonText

/-! The worker's scheduler client: `scheduler_client.cpp`. Its request bodies are
concatenated by hand; strings go through an escaper that knows the two
characters JSON reserves and three of the control characters. -/
namespace RdmaPlatform.Worker
open Library Scheduler

def escapeByte (byte : UInt8) : Bytes :=
  if byte = 92 then utf8 "\\\\"
  else if byte = 34 then utf8 "\\\""
  else if byte = 10 then utf8 "\\n"
  else if byte = 13 then utf8 "\\r"
  else if byte = 9 then utf8 "\\t"
  else [byte]

def escapeJSONString (input : Bytes) : Bytes := input.flatMap escapeByte

def registerBody (workerID address : Bytes) (capacity : Int32) : Bytes :=
  utf8 "\x7b\"id\":\"" ++ escapeJSONString workerID ++ utf8 "\"," ++
    utf8 "\"address\":\"" ++ escapeJSONString address ++ utf8 "\"," ++
    utf8 "\"capacity\":" ++ Decimal.signed capacity.toInt ++ utf8 "\x7d"

def writeIDs (activeTaskIDs : List Bytes) : Bytes :=
  activeTaskIDs.zipIdx.flatMap (fun entry =>
    (if entry.2 > 0 then utf8 "," else []) ++ utf8 "\"" ++ escapeJSONString entry.1 ++ utf8 "\"")

def heartbeatBody (workerID : Bytes) (runningTasks : Int32) (activeTaskIDs : List Bytes) : Bytes :=
  utf8 "\x7b\"id\":\"" ++ escapeJSONString workerID ++ utf8 "\"," ++
    utf8 "\"running_tasks\":" ++ Decimal.signed runningTasks.toInt ++ utf8 "," ++
    utf8 "\"status\":\"" ++ (if runningTasks > 0 then utf8 "busy" else utf8 "ready") ++ utf8 "\"" ++
    (if activeTaskIDs = [] then [] else utf8 ",\"active_task_ids\":[" ++ writeIDs activeTaskIDs ++
      utf8 "]") ++
    utf8 "\x7d"

def resultBody (success : Bool) (output : Bytes) : Bytes :=
  utf8 "\x7b\"success\":" ++ (if success then utf8 "true" else utf8 "false") ++ utf8 "," ++
    utf8 "\"message\":\"" ++ escapeJSONString output ++ utf8 "\"\x7d"

/-- The path and body a call posts; without a worker id it posts nothing. -/
def registerWorker (workerID address : Bytes) (capacity : Int32) : Option (Bytes × Bytes) :=
  if workerID = [] then none else some (utf8 "/workers/register",registerBody workerID address capacity)

def sendHeartbeat (workerID : Bytes) (runningTasks : Int32) (activeTaskIDs : List Bytes) :
    Option (Bytes × Bytes) :=
  if workerID = [] then none
  else some (utf8 "/workers/heartbeat",heartbeatBody workerID runningTasks activeTaskIDs)

def reportResult (workerID taskID : Bytes) (success : Bool) (output : Bytes) : Option (Bytes × Bytes) :=
  if workerID = [] then none
  else some (utf8 "/tasks/" ++ taskID ++ utf8 "/complete",resultBody success output)

/-- No control character but tab, line feed and carriage return. -/
def Printable (bytes : Bytes) : Prop :=
  ∀ byte ∈ bytes, ¬ byte < 32 ∨ byte = 9 ∨ byte = 10 ∨ byte = 13

instance (bytes : Bytes) : Decidable (Printable bytes) :=
  List.decidableBAll (fun byte => ¬ byte < 32 ∨ byte = 9 ∨ byte = 10 ∨ byte = 13) bytes

theorem stringBody_escapeByte (byte : UInt8) (rest : Bytes) :
    Json.stringBody 0 (escapeByte byte ++ rest) =
      if ¬ byte < 32 ∨ byte = 9 ∨ byte = 10 ∨ byte = 13 then
        (Json.stringBody 0 rest).map (fun parts => (byte::parts.1,parts.2))
      else none := by
  unfold escapeByte
  split
  next same => subst same; rfl
  split
  next same => subst same; rfl
  split
  next same => subst same; rfl
  split
  next same => subst same; rfl
  split
  next same => subst same; rfl
  next slash quote feed return_ tab =>
    have plain : byte ≠ Json.quote ∧ byte ≠ Json.backslash := ⟨quote,slash⟩
    simp only [List.cons_append,List.nil_append,Json.stringBody,if_neg plain.1,if_neg plain.2]
    by_cases control : byte < 32
    · simp [control,feed,return_,tab]
    · simp [control]

theorem stringBody_escapeJSONString (input rest : Bytes) :
    Json.stringBody 0 (escapeJSONString input ++ Json.quote::rest) =
      (if Printable input then some input else none).map (fun bytes => (bytes,rest)) := by
  induction input with
  | nil => rfl
  | cons byte others ih =>
    have step := stringBody_escapeByte byte (escapeJSONString others ++ Json.quote::rest)
    have shape : escapeJSONString (byte::others) ++ Json.quote::rest =
        escapeByte byte ++ (escapeJSONString others ++ Json.quote::rest) := by
      simp [escapeJSONString]
    have both : Printable (byte::others) ↔ (¬ byte < 32 ∨ byte = 9 ∨ byte = 10 ∨ byte = 13) ∧
        Printable others :=
      List.forall_mem_cons
    rw [shape,step,ih]
    by_cases first : ¬ byte < 32 ∨ byte = 9 ∨ byte = 10 ∨ byte = 13
    · by_cases later : Printable others
      · rw [if_pos first,if_pos later,if_pos (both.mpr ⟨first,later⟩)]
        rfl
      · rw [if_pos first,if_neg later,if_neg (fun all => later (both.mp all).2)]
        rfl
    · rw [if_neg first,if_neg (fun all => first (both.mp all).1)]
      rfl

private def quoted (text : Bytes) : Bytes := Json.quote::escapeJSONString text ++ [Json.quote]

/-- What a quoted text is read as. -/
def readText (text : Bytes) : Option Json :=
  if Printable text then some (.string (Utf8.toValid text)) else none

theorem reads_text (text : Bytes) : Json.Reads 1 (quoted text) (readText text) := by
  have reads := Json.reads_string _ _ (stringBody_escapeJSONString text)
  have same : (if Printable text then some text else none).map
    (fun bytes => Json.string (Utf8.toValid bytes)) =
      readText text := by
    rw [readText]
    split <;> rfl
  rwa [same] at reads

theorem member_reads (depth : Nat) (name : String) (text : Bytes) (result : Option Json)
    (plain : escapeJSONString (utf8 name) = utf8 name ∧ Printable (utf8 name))
    (reads : Json.Reads depth text result) : Json.Member.Reads depth ⟨utf8 name,text,result⟩ := by
  refine ⟨Utf8.toValid_utf8 name,?_,reads⟩
  intro rest
  have body := stringBody_escapeJSONString (utf8 name) rest
  rwa [plain.1,if_pos plain.2] at body

/-- `body` is one object with known names only and is decoded as `expected`. -/
def ReadAs {σ : Type} (decode : Bytes → Option σ) (known : List Bytes) (body : Bytes)
    (expected : σ) : Prop :=
  ∃ members, Json.parse body = some (.object members) ∧ (∀ member ∈ members, member.1 ∈ known) ∧
    decode body = some expected

section Reading
variable {σ : Type} {setMember : σ → Bytes → Json → Option σ} {zero expected : σ}
  {known : List Bytes} {body : Bytes}
  {members : List (Bytes × Json)} {readable : Prop} [Decidable readable]

/-- A body that is an object if it is readable, and else no JSON, is decoded or refused so. -/
theorem decodeJSON_of_parse
    (parsed : Json.parse body = if readable then some (.object members) else none)
    (decoded : decodeStruct setMember zero (.object members) = some expected) :
    decodeJSON setMember zero body = if readable then some expected else none := by
  rw [decodeJSON,parsed]
  split
  · exact decoded
  · rfl

theorem readAs_iff (parsed : Json.parse body = if readable then some (.object members) else none)
    (known_ : ∀ member ∈ members, member.1 ∈ known)
    (decoded : decodeStruct setMember zero (.object members) = some expected) :
    ReadAs (decodeJSON setMember zero) known body expected ↔ readable := by
  have whole := decodeJSON_of_parse parsed decoded
  constructor
  · rintro ⟨_,found,_⟩
    by_contra unreadable
    rw [parsed,if_neg unreadable] at found
    cases found
  · intro holds
    rw [if_pos holds] at parsed whole
    exact ⟨members,parsed,known_,whole⟩

end Reading

/-- An object that is written without white space. -/
theorem parse_members {depth : Nat} {fields : List Json.Member} {body : Bytes}
    (written : body = Json.openBrace::Json.joinComma (fields.map Json.Member.render) ++
      [Json.closeBrace])
    (some_ : fields ≠ []) (all : ∀ member ∈ fields, member.Reads depth) (short : depth ≤ 2) :
    Json.parse body =
      (Json.collect (fields.map
        (fun member => member.result.map (fun json => (member.name,json))))).map .object := by
  rw [written]
  refine Json.parse_of_reads (Json.reads_object depth _ some_ all) ?_
  simp only [List.length_append,List.length_cons,List.length_nil]
  omega

theorem decodeLiteral_int32 (n : Int32) : decodeLiteral (Decimal.signed n.toInt) = some n.toInt64 := by
  have low := n.le_toInt
  have high := n.toInt_lt
  have same : Int64.ofInt n.toInt = n.toInt64 := by
    apply Int64.toInt_inj.mp
    rw [Int64.toInt_ofInt_of_le (by omega) (by omega),Int32.toInt_toInt64]
  rw [decodeLiteral_signed n.toInt (by omega) (by omega),same]

section Register
variable (workerID address : Bytes) (capacity : Int32)

private def registerMembers : List Json.Member :=
  [⟨utf8 "id",quoted workerID,readText workerID⟩,⟨utf8 "address",quoted address,readText address⟩,
    ⟨utf8 "capacity",Decimal.signed capacity.toInt,some (.number (Decimal.signed capacity.toInt))⟩]

private def registerObject : List (Bytes × Json) :=
  [(utf8 "id",.string (Utf8.toValid workerID)),(utf8 "address",.string (Utf8.toValid address)),
    (utf8 "capacity",.number (Decimal.signed capacity.toInt))]

theorem parse_registerBody : Json.parse (registerBody workerID address capacity) =
    if Printable workerID ∧ Printable address then
      some (.object (registerObject workerID address capacity))
    else none := by
  have written : registerBody workerID address capacity =
      Json.openBrace::Json.joinComma ((registerMembers workerID address capacity).map
        Json.Member.render) ++ [Json.closeBrace] := by
    have first : utf8 "\x7b\"id\":\"" =
      Json.openBrace::Json.quote::(utf8 "id" ++ [Json.quote,Json.colon,Json.quote]) := rfl
    have second : utf8 "\"address\":\"" =
      Json.quote::(utf8 "address" ++ [Json.quote,Json.colon,Json.quote]) := rfl
    have third : utf8 "\"capacity\":" = Json.quote::(utf8 "capacity" ++ [Json.quote,Json.colon]) := rfl
    have ends : utf8 "\"," = [Json.quote,Json.comma] := rfl
    have brace : utf8 "\x7d" = [Json.closeBrace] := rfl
    simp [registerBody,registerMembers,quoted,Json.joinComma,Json.Member.render,first,second,
      third,ends,brace]
  have all : ∀ member ∈ registerMembers workerID address capacity, member.Reads 1 := by
    simp only [registerMembers,List.forall_mem_cons]
    exact ⟨member_reads 1 "id" _ _ (by decide) (reads_text workerID),
      member_reads 1 "address" _ _ (by decide) (reads_text address),
      member_reads 1 "capacity" _ _ (by decide) (Json.reads_integer _),by simp⟩
  rw [parse_members written (by simp [registerMembers]) all (by decide)]
  by_cases id : Printable workerID <;> by_cases place : Printable address <;>
    simp [registerMembers,registerObject,readText,Json.collect,id,place]

theorem decode_registerObject :
    decodeStruct RegisterNodeRequest.setMember ⟨[],[],0,[]⟩
      (.object (registerObject workerID address capacity)) =
      some ⟨Utf8.toValid workerID,Utf8.toValid address,capacity.toInt64,[]⟩ := by
  have number := decodeLiteral_int32 capacity
  have distinct : names (utf8 "id") "id" ∧ names (utf8 "address") "address" ∧
    names (utf8 "capacity") "capacity" ∧
      names (utf8 "address") "id" = false ∧ names (utf8 "capacity") "id" = false ∧
      names (utf8 "capacity") "address" = false := by decide
  simp [decodeStruct,registerObject,RegisterNodeRequest.setMember,decodeString,decodeInt,
    number,distinct]

theorem decodeRegister_registerBody : decodeRegister (registerBody workerID address capacity) =
    if Printable workerID ∧ Printable address then
      some ⟨Utf8.toValid workerID,Utf8.toValid address,capacity.toInt64,[]⟩
    else none :=
  decodeJSON_of_parse (parse_registerBody workerID address capacity)
    (decode_registerObject workerID address capacity)

theorem register_read_iff :
    ReadAs decodeRegister [utf8 "id",utf8 "address",utf8 "capacity",utf8 "labels"]
      (registerBody workerID address capacity) ⟨Utf8.toValid workerID,Utf8.toValid address,
        capacity.toInt64,[]⟩ ↔
      Printable workerID ∧ Printable address :=
  readAs_iff (parse_registerBody workerID address capacity) (by simp [registerObject])
    (decode_registerObject workerID address capacity)

end Register

section Heartbeat

private theorem joinComma_cons (first : Bytes) (rest : List Bytes) :
    Json.joinComma (first::rest) = first ++ rest.flatMap (fun text => Json.comma::text) := by
  induction rest generalizing first with
  | nil => simp [Json.joinComma]
  | cons next others ih => simp [Json.joinComma,ih next]

theorem writeIDs_eq (activeTaskIDs : List Bytes) :
    writeIDs activeTaskIDs = Json.joinComma (activeTaskIDs.map quoted) := by
  have mark : utf8 "\"" = [Json.quote] := rfl
  have separator : utf8 "," = [Json.comma] := rfl
  have later (ids : List Bytes) (index : Nat) (positive : index > 0) :
      (ids.zipIdx index).flatMap (fun entry =>
        (if entry.2 > 0 then utf8 "," else []) ++ utf8 "\"" ++ escapeJSONString entry.1 ++ utf8 "\"") =
      (ids.map quoted).flatMap (fun text => Json.comma::text) := by
    induction ids generalizing index with
    | nil => rfl
    | cons id rest ih =>
      have tail := ih (index + 1) (by omega)
      simp only [List.zipIdx_cons,List.flatMap_cons,List.map_cons]
      rw [tail,if_pos positive]
      simp [quoted,mark,separator]
  cases activeTaskIDs with
  | nil => rfl
  | cons id rest =>
    have tail := later rest 1 (by decide)
    rw [List.map_cons,joinComma_cons,← tail]
    simp [writeIDs,quoted,mark]

private theorem collect_strings (texts : List Bytes) :
    Json.collect (texts.map readText) =
      if ∀ text ∈ texts, Printable text then
        some (texts.map (fun text => .string (Utf8.toValid text))) else none := by
  induction texts with
  | nil => rfl
  | cons text rest ih =>
    by_cases first : Printable text <;> by_cases later : ∀ other ∈ rest, Printable other <;>
      simp [Json.collect,readText,ih,first,later]

private theorem decode_strings (texts : List Bytes) :
    decodeStrings (.array (texts.map (fun text => .string (Utf8.toValid text)))) =
      some (texts.map Utf8.toValid) := by
  rw [decodeStrings]
  induction texts with
  | nil => rfl
  | cons text rest ih => simp [decodeString,ih]

private def reportedStatus (runningTasks : Int32) : Bytes :=
  if runningTasks > 0 then utf8 "busy" else utf8 "ready"

/-- Both words are written and read as they are. -/
private theorem reportedStatus_plain (runningTasks : Int32) :
    escapeJSONString (reportedStatus runningTasks) = reportedStatus runningTasks ∧
      readText (reportedStatus runningTasks) = some (.string (reportedStatus runningTasks)) := by
  have valid : Utf8.toValid (reportedStatus runningTasks) = reportedStatus runningTasks := by
    unfold reportedStatus
    split <;> exact Utf8.toValid_utf8 _
  have printable : Printable (reportedStatus runningTasks) := by
    unfold reportedStatus
    split <;> decide
  refine ⟨?_,by rw [readText,if_pos printable,valid]⟩
  unfold reportedStatus
  split <;> decide

variable (workerID : Bytes) (runningTasks : Int32) (activeTaskIDs : List Bytes)

private def heartbeatMembers : List Json.Member :=
  [⟨utf8 "id",quoted workerID,readText workerID⟩,
    ⟨utf8 "running_tasks",Decimal.signed runningTasks.toInt,
      some (.number (Decimal.signed runningTasks.toInt))⟩,
    ⟨utf8 "status",quoted (reportedStatus runningTasks),readText (reportedStatus runningTasks)⟩] ++
    if activeTaskIDs = [] then [] else
      [⟨utf8 "active_task_ids",Json.openBracket::Json.joinComma (activeTaskIDs.map quoted) ++
        [Json.closeBracket],(Json.collect (activeTaskIDs.map readText)).map .array⟩]

private def heartbeatObject : List (Bytes × Json) :=
  [(utf8 "id",.string (Utf8.toValid workerID)),
    (utf8 "running_tasks",.number (Decimal.signed runningTasks.toInt)),
    (utf8 "status",.string (reportedStatus runningTasks))] ++ if activeTaskIDs = [] then [] else
      [(utf8 "active_task_ids",.array (activeTaskIDs.map (fun id => .string (Utf8.toValid id))))]

private theorem heartbeatMembers_reads :
    ∀ member ∈ heartbeatMembers workerID runningTasks activeTaskIDs, member.Reads 2 := by
  have array (some_ : activeTaskIDs ≠ []) : Json.Reads 2
      (Json.openBracket::Json.joinComma (activeTaskIDs.map quoted) ++ [Json.closeBracket])
      ((Json.collect (activeTaskIDs.map readText)).map .array) := by
    apply Json.reads_array 1 _ _ (by simpa using some_)
    rw [List.forall₂_map_left_iff,List.forall₂_map_right_iff]
    exact List.forall₂_same.mpr (fun id _ => reads_text id)
  intro member inside
  rcases List.mem_append.mp inside with base | extra
  · simp only [List.mem_cons,List.not_mem_nil,or_false] at base
    rcases base with rfl | rfl | rfl
    · exact member_reads 2 "id" _ _ (by decide) ((reads_text workerID).mono (by decide))
    · exact member_reads 2 "running_tasks" _ _ (by decide) ((Json.reads_integer _).mono (by decide))
    · exact member_reads 2 "status" _ _ (by decide) ((reads_text _).mono (by decide))
  · split at extra
    next => cases extra
    next some_ =>
      rw [List.mem_singleton.mp extra]
      exact member_reads 2 "active_task_ids" _ _ (by decide) (array some_)

private theorem heartbeatBody_eq : heartbeatBody workerID runningTasks activeTaskIDs =
    Json.openBrace::Json.joinComma ((heartbeatMembers workerID runningTasks activeTaskIDs).map
      Json.Member.render) ++ [Json.closeBrace] := by
  have first : utf8 "\x7b\"id\":\"" =
    Json.openBrace::Json.quote::(utf8 "id" ++ [Json.quote,Json.colon,Json.quote]) := rfl
  have second : utf8 "\"running_tasks\":" =
    Json.quote::(utf8 "running_tasks" ++ [Json.quote,Json.colon]) := rfl
  have third : utf8 "\"status\":\"" =
    Json.quote::(utf8 "status" ++ [Json.quote,Json.colon,Json.quote]) := rfl
  have fourth : utf8 ",\"active_task_ids\":[" =
    Json.comma::Json.quote::(utf8 "active_task_ids" ++ [Json.quote,Json.colon,Json.openBracket]) := rfl
  have ends : utf8 "\"," = [Json.quote,Json.comma] := rfl
  have separator : utf8 "," = [Json.comma] := rfl
  have mark : utf8 "\"" = [Json.quote] := rfl
  have bracket : utf8 "]" = [Json.closeBracket] := rfl
  have brace : utf8 "\x7d" = [Json.closeBrace] := rfl
  have status := (reportedStatus_plain runningTasks).1
  rw [heartbeatBody,writeIDs_eq,← reportedStatus]
  by_cases none_ : activeTaskIDs = []
  · simp [heartbeatMembers,none_,Json.joinComma,Json.Member.render,quoted,first,second,third,ends,
      separator,mark,brace,status]
  · simp [heartbeatMembers,none_,Json.joinComma,Json.Member.render,quoted,first,second,third,
      fourth,ends,separator,mark,bracket,brace,status]

theorem parse_heartbeatBody : Json.parse (heartbeatBody workerID runningTasks activeTaskIDs) =
    if Printable workerID ∧ ∀ id ∈ activeTaskIDs, Printable id then
      some (.object (heartbeatObject workerID runningTasks activeTaskIDs))
    else none := by
  have status := (reportedStatus_plain runningTasks).2
  rw [parse_members (heartbeatBody_eq workerID runningTasks activeTaskIDs) (by simp [heartbeatMembers])
    (heartbeatMembers_reads workerID runningTasks activeTaskIDs) (by decide)]
  by_cases id : Printable workerID
  · have own : readText workerID = some (.string (Utf8.toValid workerID)) := if_pos id
    by_cases empty : activeTaskIDs = []
    · simp [heartbeatMembers,heartbeatObject,status,own,Json.collect,empty,id]
    · have ids := collect_strings activeTaskIDs
      by_cases all : ∀ id ∈ activeTaskIDs, Printable id
      · rw [if_pos all] at ids
        rw [if_pos ⟨id,all⟩]
        simp [heartbeatMembers,heartbeatObject,status,own,ids,Json.collect,empty]
      · rw [if_neg all] at ids
        rw [if_neg (fun both => all both.2)]
        simp [heartbeatMembers,status,own,ids,Json.collect,empty]
  · have own : readText workerID = none := if_neg id
    rw [if_neg (fun both => id both.1)]
    simp [heartbeatMembers,own,Json.collect]

theorem decode_heartbeatObject :
    decodeStruct HeartbeatRequest.setMember ⟨[],0,[],[]⟩
        (.object (heartbeatObject workerID runningTasks activeTaskIDs)) =
      some ⟨Utf8.toValid workerID,runningTasks.toInt64,reportedStatus runningTasks,
        activeTaskIDs.map Utf8.toValid⟩ := by
  have number := decodeLiteral_int32 runningTasks
  have texts := decode_strings activeTaskIDs
  have distinct : names (utf8 "id") "id" ∧ names (utf8 "running_tasks") "running_tasks" ∧
      names (utf8 "status") "status" ∧ names (utf8 "active_task_ids") "active_task_ids" ∧
      names (utf8 "running_tasks") "id" = false ∧ names (utf8 "status") "id" = false ∧
      names (utf8 "status") "running_tasks" = false ∧ names (utf8 "active_task_ids") "id" = false ∧
      names (utf8 "active_task_ids") "running_tasks" = false ∧
        names (utf8 "active_task_ids") "status" = false := by
    decide
  by_cases empty : activeTaskIDs = []
  · simp [decodeStruct,heartbeatObject,HeartbeatRequest.setMember,decodeString,decodeInt,number,
      distinct,empty]
  · simp [decodeStruct,heartbeatObject,HeartbeatRequest.setMember,decodeString,decodeInt,number,
      distinct,texts,empty]

theorem decodeHeartbeat_heartbeatBody :
    decodeHeartbeat (heartbeatBody workerID runningTasks activeTaskIDs) =
    if Printable workerID ∧ ∀ id ∈ activeTaskIDs, Printable id then
      some ⟨Utf8.toValid workerID,runningTasks.toInt64,if runningTasks > 0 then utf8 "busy"
        else utf8 "ready",activeTaskIDs.map Utf8.toValid⟩
    else none :=
  decodeJSON_of_parse (parse_heartbeatBody workerID runningTasks activeTaskIDs)
    (decode_heartbeatObject workerID runningTasks activeTaskIDs)

theorem heartbeat_read_iff :
    ReadAs decodeHeartbeat [utf8 "id",utf8 "running_tasks",utf8 "status",utf8 "active_task_ids"]
      (heartbeatBody workerID runningTasks activeTaskIDs)
      ⟨Utf8.toValid workerID,runningTasks.toInt64,if runningTasks > 0 then utf8 "busy"
        else utf8 "ready",activeTaskIDs.map Utf8.toValid⟩ ↔
      Printable workerID ∧ ∀ id ∈ activeTaskIDs, Printable id := by
  refine readAs_iff (parse_heartbeatBody workerID runningTasks activeTaskIDs) ?_
    (decode_heartbeatObject workerID runningTasks activeTaskIDs)
  unfold heartbeatObject
  split <;> simp

end Heartbeat

section Result
variable (success : Bool) (output : Bytes)

private def resultMembers : List Json.Member :=
  [⟨utf8 "success",if success then utf8 "true" else utf8 "false",some (.bool success)⟩,
    ⟨utf8 "message",quoted output,readText output⟩]

private def resultObject : List (Bytes × Json) :=
  [(utf8 "success",.bool success),(utf8 "message",.string (Utf8.toValid output))]

theorem parse_resultBody : Json.parse (resultBody success output) =
    if Printable output then some (.object (resultObject success output)) else none := by
  have written : resultBody success output =
      Json.openBrace::Json.joinComma ((resultMembers success output).map Json.Member.render) ++
        [Json.closeBrace] := by
    have first : utf8 "\x7b\"success\":" =
      Json.openBrace::Json.quote::(utf8 "success" ++ [Json.quote,Json.colon]) := rfl
    have second : utf8 "\"message\":\"" =
      Json.quote::(utf8 "message" ++ [Json.quote,Json.colon,Json.quote]) := rfl
    have separator : utf8 "," = [Json.comma] := rfl
    have ends : utf8 "\"\x7d" = [Json.quote,Json.closeBrace] := rfl
    simp [resultBody,resultMembers,Json.joinComma,Json.Member.render,quoted,first,second,separator,ends]
  have all : ∀ member ∈ resultMembers success output, member.Reads 1 := by
    simp only [resultMembers,List.forall_mem_cons]
    exact ⟨member_reads 1 "success" _ _ (by decide) (Json.reads_bool success),
      member_reads 1 "message" _ _ (by decide) (reads_text output),by simp⟩
  rw [parse_members written (by simp [resultMembers]) all (by decide)]
  by_cases printable : Printable output <;>
    simp [resultMembers,resultObject,readText,Json.collect,printable]

theorem decode_resultObject :
    decodeStruct CompleteTaskRequest.setMember ⟨false,[]⟩ (.object (resultObject success output)) =
      some ⟨success,Utf8.toValid output⟩ := by
  have distinct : names (utf8 "success") "success" ∧ names (utf8 "message") "message" ∧
      names (utf8 "message") "success" = false := by decide
  simp [decodeStruct,resultObject,CompleteTaskRequest.setMember,decodeString,decodeBool,distinct]

/-- A report is refused for a control character that the escaper misses, and otherwise read
with every malformed part of its text replaced. -/
theorem decodeComplete_resultBody : decodeComplete (resultBody success output) =
    if Printable output then some ⟨success,Utf8.toValid output⟩ else none :=
  decodeJSON_of_parse (parse_resultBody success output) (decode_resultObject success output)

theorem result_read_iff :
    ReadAs decodeComplete [utf8 "success",utf8 "message"] (resultBody success output)
      ⟨success,Utf8.toValid output⟩ ↔ Printable output :=
  readAs_iff (parse_resultBody success output) (by simp [resultObject])
    (decode_resultObject success output)

end Result

/-- The scheduler reads a body of the worker as the values the worker put in
exactly if none of its strings holds a control character the escaper misses. -/
theorem bodies_read_iff (workerID address output : String) (capacity runningTasks : Int32)
    (activeTaskIDs : List String) (success : Bool) :
    (ReadAs decodeRegister [utf8 "id",utf8 "address",utf8 "capacity",utf8 "labels"]
      (registerBody (utf8 workerID) (utf8 address) capacity)
      ⟨utf8 workerID,utf8 address,capacity.toInt64,[]⟩ ↔
        Printable (utf8 workerID) ∧ Printable (utf8 address)) ∧
    (ReadAs decodeHeartbeat [utf8 "id",utf8 "running_tasks",utf8 "status",utf8 "active_task_ids"]
      (heartbeatBody (utf8 workerID) runningTasks (activeTaskIDs.map utf8))
      ⟨utf8 workerID,runningTasks.toInt64,if runningTasks > 0 then utf8 "busy" else utf8 "ready",
        activeTaskIDs.map utf8⟩ ↔
        Printable (utf8 workerID) ∧ ∀ id ∈ activeTaskIDs, Printable (utf8 id)) ∧
    (ReadAs decodeComplete [utf8 "success",utf8 "message"] (resultBody success (utf8 output))
      ⟨success,utf8 output⟩ ↔ Printable (utf8 output)) := by
  have register := register_read_iff (utf8 workerID) (utf8 address) capacity
  have heartbeat := heartbeat_read_iff (utf8 workerID) runningTasks (activeTaskIDs.map utf8)
  have result := result_read_iff success (utf8 output)
  have valid : Utf8.toValid ∘ utf8 = utf8 := funext Utf8.toValid_utf8
  simp only [Utf8.toValid_utf8,List.map_map,valid,List.forall_mem_map] at register heartbeat result
  exact ⟨register,heartbeat,result⟩

theorem control_character_refused :
    ¬ ReadAs decodeComplete [utf8 "success",utf8 "message"]
      (resultBody true (utf8 "processed: \x1b[1mhi")) ⟨true,utf8 "processed: \x1b[1mhi"⟩ := by
  rintro ⟨members,parsed,_⟩
  have refused : Json.parse (resultBody true (utf8 "processed: \x1b[1mhi")) = none := by decide
  rw [refused] at parsed
  cases parsed

end RdmaPlatform.Worker
