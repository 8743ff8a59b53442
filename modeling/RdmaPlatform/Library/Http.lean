import RdmaPlatform.Library.Decimal
import RdmaPlatform.Library.Split
import RdmaPlatform.Library.Trim
import RdmaPlatform.Library.Url

/-! Requests of HTTP/1.1 from a client that names its host and announces the length of the
body. A request is written as a request line, its header fields, an empty line and the body;
whoever reads it takes the same parts from the front of what has arrived, and finds nothing to
read while some of it is missing. A server may take other requests as well: of HTTP/1.0, with a
body in chunks, with lines that end in a bare line feed, with an absolute target. These are not
read here. -/
namespace RdmaPlatform.Library.Http

def crlf : Bytes := [13,10]

def space : UInt8 := 32

def colon : UInt8 := 58

/-- The text in front of the first line end and the text behind it. -/
def cutLine : Bytes → Option (Bytes × Bytes)
  | [] => none
  | 13::10::rest => some ([],rest)
  | byte::rest => (cutLine rest).map (fun parts => (byte::parts.1,parts.2))

structure Request where
  method : Bytes
  target : Bytes
  fields : List (Bytes × Bytes)
  body : Bytes
  deriving DecidableEq

def version : Bytes := utf8 "HTTP/1.1"

def writeField (field : Bytes × Bytes) : Bytes := field.1 ++ colon::space::field.2 ++ crlf

def Request.text (request : Request) : Bytes :=
  request.method ++ space::(request.target ++ space::(version ++ (crlf ++
    (request.fields.flatMap writeField ++ (crlf ++ request.body)))))

/-- White space around the value of a field. -/
def isBlank (byte : UInt8) : Bool := byte = space ∨ byte = 9

/-- Letters in lower case; the names of fields are compared in it. -/
def lower (name : Bytes) : Bytes :=
  name.map (fun byte => if 65 ≤ byte ∧ byte ≤ 90 then byte + 32 else byte)

/-- The fields up to the empty line and what comes after it, with `fuel` for the lines. -/
def readFields : Nat → Bytes → Option (List (Bytes × Bytes) × Bytes)
  | 0, _ => none
  | fuel + 1, text => do
    let (line,rest) ← cutLine text
    if line = [] then some ([],rest)
    else
      let (name,value) ← cut colon line
      let (fields,after) ← readFields fuel rest
      some ((name,trim isBlank value)::fields,after)

def isNamed (name : String) (field : Bytes × Bytes) : Bool := lower field.1 = utf8 name

/-- The length of the body that the fields announce; none if it is not a number. -/
def contentLength (fields : List (Bytes × Bytes)) : Option Nat :=
  match fields.find? (isNamed "content-length") with
  | none => some 0
  | some field =>
    if field.2 ≠ [] ∧ ∀ byte ∈ field.2, Decimal.IsDigit byte then some (Decimal.value field.2)
    else none

/-- The bytes of a host with its port. -/
def isHostByte (byte : UInt8) : Bool :=
  Url.isAlphanumeric byte ∨ byte ∈ utf8 "!$%&()*+,-.:;=[]_~" ∨ byte = 39

/-- There is one `Host` field, with the name of a host, and the body is not in chunks. -/
def isServed (fields : List (Bytes × Bytes)) : Bool :=
  match fields.filter (isNamed "host") with
  | [host] => host.2.all isHostByte && !fields.any (isNamed "transfer-encoding")
  | _ => false

/-- The first request of a text and what comes after it. -/
def readRequest (text : Bytes) : Option (Request × Bytes) := do
  let (line,rest) ← cutLine text
  let (method,more) ← cut space line
  let (target,proto) ← cut space more
  if proto ≠ version then none
  else
    let (fields,after) ← readFields rest.length rest
    let length ← contentLength fields
    if !isServed fields ∨ after.length < length then none
    else some (⟨method,target,fields,after.take length⟩,after.drop length)

def isControl (byte : UInt8) : Bool := byte ≤ 31 ∨ byte = 127

/-- The path of a target in origin form, with its escapes; none if the target is malformed. -/
def requestPath (target : Bytes) : Option Bytes :=
  if target.head? = some Url.slash ∧ !target.any isControl then
    Url.escapedPath (target.takeWhile (fun byte => byte ≠ 63))
  else none

section Lines

theorem cutLine_append (line rest : Bytes) (plain : 13 ∉ line) :
    cutLine (line ++ (crlf ++ rest)) = some (line,rest) := by
  induction line with
  | nil => rfl
  | cons byte more ih =>
    obtain ⟨other,later⟩ := List.ne_and_not_mem_of_not_mem_cons plain
    simp [cutLine,Ne.symm other,ih later]

/-- A line that is read stays read when more text arrives. -/
theorem cutLine_extend {text line rest : Bytes} (read : cutLine text = some (line,rest))
    (more : Bytes) :
    cutLine (text ++ more) = some (line,rest ++ more) := by
  induction text using cutLine.induct generalizing line with
  | case1 => cases read
  | case2 after =>
    cases read
    rfl
  | case3 byte after other ih =>
    rw [cutLine.eq_3 _ _ other] at read
    obtain ⟨⟨front,back⟩,inner,same⟩ := Option.map_eq_some_iff.mp read
    cases same
    cases after with
    | nil => cases inner
    | cons next others =>
      rw [List.cons_append,List.cons_append,cutLine.eq_3 _ _ (fun tail first second => ?_),
        ← List.cons_append,ih inner]
      · rfl
      · cases second
        exact other others first rfl

end Lines

section Fields

/-- A field that its line shows. -/
structure FieldSound (field : Bytes × Bytes) : Prop where
  name : 13 ∉ field.1 ∧ colon ∉ field.1
  value : 13 ∉ field.2 ∧ trim isBlank field.2 = field.2

theorem cutLine_writeField {field : Bytes × Bytes} (sound : FieldSound field) (rest : Bytes) :
    cutLine (writeField field ++ rest) = some (field.1 ++ colon::space::field.2,rest) := by
  rw [writeField,List.append_assoc]
  refine cutLine_append _ rest ?_
  simp [sound.name.1,sound.value.1,colon,space]

theorem readFields_written (fields : List (Bytes × Bytes))
    (sound : ∀ field ∈ fields, FieldSound field) (body : Bytes) (fuel : Nat)
    (enough : fields.length < fuel) :
    readFields fuel (fields.flatMap writeField ++ (crlf ++ body)) = some (fields,body) := by
  induction fields generalizing fuel with
  | nil =>
    cases fuel with
    | zero => cases enough
    | succ fuel => rfl
  | cons field rest ih =>
    cases fuel with
    | zero => cases enough
    | succ fuel =>
      obtain ⟨first,others⟩ := List.forall_mem_cons.mp sound
      have later := ih others fuel (Nat.lt_of_succ_lt_succ enough)
      have shown : trim isBlank (space::field.2) = field.2 := by
        have gone : trim isBlank ([space] ++ field.2) = trim isBlank field.2 :=
          trim_append_left (List.forall_mem_singleton.mpr rfl)
        exact gone.trans first.value.2
      rw [List.flatMap_cons,List.append_assoc,readFields,cutLine_writeField first]
      simp [cut_append colon field.1 _ first.name.2,later,shown]

theorem readFields_extend {fuel : Nat} {text after : Bytes} {fields : List (Bytes × Bytes)}
    (read : readFields fuel text = some (fields,after)) {larger : Nat} (enough : fuel ≤ larger)
    (more : Bytes) :
    readFields larger (text ++ more) = some (fields,after ++ more) := by
  induction fuel generalizing text fields larger with
  | zero => cases read
  | succ fuel ih =>
    cases larger with
    | zero => cases enough
    | succ larger =>
      obtain ⟨⟨line,rest⟩,cut_,read⟩ := Option.bind_eq_some_iff.mp read
      rw [readFields,cutLine_extend cut_ more]
      simp only [Option.bind_eq_bind,Option.bind_some] at read ⊢
      split at read
      next empty =>
        cases read
        rw [if_pos empty]
      next solid =>
        rw [if_neg solid]
        obtain ⟨⟨name,value⟩,parts,read⟩ := Option.bind_eq_some_iff.mp read
        obtain ⟨⟨others,final⟩,later,read⟩ := Option.bind_eq_some_iff.mp read
        cases read
        simp [parts,ih later (Nat.le_of_succ_le_succ enough)]

end Fields

section Requests

/-- A request that can be written and read: its parts do not hold what ends them, and the
fields name the host and announce the body. -/
structure Request.Sound (request : Request) : Prop where
  method : 13 ∉ request.method ∧ space ∉ request.method
  target : 13 ∉ request.target ∧ space ∉ request.target
  fields : ∀ field ∈ request.fields, FieldSound field
  served : isServed request.fields = true
  length : contentLength request.fields = some request.body.length

theorem readRequest_text (request : Request) (sound : request.Sound) :
    readRequest request.text = some (request,[]) := by
  have line : cutLine request.text = some (request.method ++ space::(request.target ++ space::version),
      request.fields.flatMap writeField ++ (crlf ++ request.body)) := by
    have plain : 13 ∉ request.method ++ space::(request.target ++ space::version) := by
      simp [sound.method.1,sound.target.1,space,version]
      decide
    have read := cutLine_append _ (request.fields.flatMap writeField ++ (crlf ++ request.body)) plain
    simpa [Request.text,List.append_assoc] using read
  have enough : request.fields.length <
      (request.fields.flatMap writeField ++ (crlf ++ request.body)).length := by
    have each : request.fields.length ≤ (request.fields.flatMap writeField).length := by
      induction request.fields with
      | nil => exact Nat.zero_le _
      | cons field rest ih =>
        rw [List.flatMap_cons,List.length_append,List.length_cons]
        simp only [writeField,List.length_append,List.length_cons]
        omega
    simp only [List.length_append,crlf,List.length_cons]
    omega
  simp only [readRequest,Option.bind_eq_bind,line,Option.bind_some,cut_append space _ _ sound.method.2,
    cut_append space _ _ sound.target.2,ne_eq,not_true_eq_false,if_false,
    readFields_written request.fields sound.fields request.body _ enough,sound.length,sound.served,
      Bool.not_true,
    Bool.false_eq_true,false_or,Nat.lt_irrefl,List.take_length,List.drop_length]

/-- A request that is read stays read when more text arrives. -/
theorem readRequest_extend {text after : Bytes} {request : Request}
    (read : readRequest text = some (request,after)) (more : Bytes) :
    readRequest (text ++ more) = some (request,after ++ more) := by
  obtain ⟨⟨line,rest⟩,first,read⟩ := Option.bind_eq_some_iff.mp read
  obtain ⟨⟨method,others⟩,second,read⟩ := Option.bind_eq_some_iff.mp read
  obtain ⟨⟨target,proto⟩,third,read⟩ := Option.bind_eq_some_iff.mp read
  simp only [readRequest,Option.bind_eq_bind,cutLine_extend first more,Option.bind_some,second,third]
  dsimp only at read
  split at read
  next => cases read
  next same =>
    rw [if_neg same]
    obtain ⟨⟨fields,left⟩,fourth,read⟩ := Option.bind_eq_some_iff.mp read
    obtain ⟨length,fifth,read⟩ := Option.bind_eq_some_iff.mp read
    have longer : rest.length ≤ (rest ++ more).length := by simp
    simp only [readFields_extend fourth longer more,Option.bind_some,fifth]
    dsimp only at read
    split at read
    next => cases read
    next enough =>
      cases read
      obtain ⟨served,enough⟩ := not_or.mp enough
      have still : ¬ (!isServed fields ∨ (left ++ more).length < length) := by
        rw [List.length_append]
        exact not_or.mpr ⟨served,by omega⟩
      rw [if_neg still,List.take_append_of_le_length (by omega),
        List.drop_append_of_le_length (by omega)]

/-- Nothing is read from a request of which the end is missing. -/
theorem readRequest_part {request : Request} (sound : request.Sound) {part : Bytes}
    (front : part <+: request.text) (missing : part ≠ request.text) : readRequest part = none := by
  obtain ⟨more,whole⟩ := front
  cases read : readRequest part with
  | none => rfl
  | some both =>
    obtain ⟨other,after⟩ := both
    have all := readRequest_extend read more
    rw [whole,readRequest_text request sound] at all
    have empty : after ++ more = [] := (Prod.mk.inj (Option.some.inj all)).2.symm
    rw [(List.append_eq_nil_iff.mp empty).2,List.append_nil] at whole
    exact absurd whole missing

end Requests

end RdmaPlatform.Library.Http
