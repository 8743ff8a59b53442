import RdmaPlatform.Cluster.Results
import RdmaPlatform.Scheduler.Router
import RdmaPlatform.Worker.HttpClient

/-! A call of the worker to the scheduler from end to end. The client of the worker writes a
request, the wire carries it or a part of it, the router of the scheduler reads, routes and
decodes it and calls the service, and the client reads what it gets of the answer. Either side
may lose the connection at any point. -/
namespace RdmaPlatform.Cluster
open Library Worker

/-- The three calls of `SchedulerClient`. -/
inductive Call where
  | registerWorker (address : Bytes) (capacity : Int32)
  | sendHeartbeat (runningTasks : Int32) (activeTaskIDs : List Bytes)
  | reportResult (taskID : Bytes) (success : Bool) (output : Bytes)

namespace Call

/-- The path and the body; nothing without a worker id. -/
def post (workerID : Bytes) : Call → Option (Bytes × Bytes)
  | .registerWorker address capacity => Worker.registerWorker workerID address capacity
  | .sendHeartbeat runningTasks activeTaskIDs =>
    Worker.sendHeartbeat workerID runningTasks activeTaskIDs
  | .reportResult taskID success output => Worker.reportResult workerID taskID success output

/-- The status that the call takes for success. -/
def expected : Call → Nat
  | .registerWorker _ _ => 201
  | .sendHeartbeat _ _ | .reportResult _ _ _ => 200

/-- What the worker means, as the scheduler decodes it: in every text of the body malformed
UTF-8 is replaced. -/
def request (workerID : Bytes) : Call → Scheduler.Request
  | .registerWorker address capacity =>
    .register ⟨Utf8.toValid workerID,Utf8.toValid address,capacity.toInt64,[]⟩
  | .sendHeartbeat runningTasks activeTaskIDs =>
    .heartbeat ⟨Utf8.toValid workerID,runningTasks.toInt64,
      if runningTasks > 0 then utf8 "busy" else utf8 "ready",activeTaskIDs.map Utf8.toValid⟩
  | .reportResult taskID success output => .complete taskID ⟨success,Utf8.toValid output⟩

/-- The bytes on the wire, and whether the call returns and with what. -/
def perform (schedulerAddr workerID : Bytes) (attempt : Attempt) (call : Call) :
    Bytes × Progress Bool :=
  match call.post workerID with
  | none => ([],.done false)
  | some (path,body) =>
    match postJSON schedulerAddr path body attempt with
    | (wire,.waiting) => (wire,.waiting)
    | (wire,.failed) => (wire,.failed)
    | (wire,.done status) => (wire,.done (status = call.expected))

end Call

/-- A task identifier that is one part of a path and that the path shows as it is: the worker
escapes nothing. -/
structure PathPart (part : Bytes) : Prop where
  nonempty : part ≠ []
  plain : ∀ byte ∈ part, Http.isControl byte = false ∧ byte ∉ utf8 " %/?"
  named : part ≠ utf8 "." ∧ part ≠ utf8 ".."

namespace Call
open Scheduler

/-- What the scheduler can read: no text holds a control character that is not escaped. -/
def Readable (workerID : Bytes) : Call → Prop
  | .registerWorker address _ => Printable workerID ∧ Printable address
  | .sendHeartbeat _ activeTaskIDs => Printable workerID ∧ ∀ id ∈ activeTaskIDs, Printable id
  | .reportResult _ _ output => Printable output

instance (workerID : Bytes) : ∀ call : Call, Decidable (call.Readable workerID)
  | .registerWorker address _ => inferInstanceAs (Decidable (Printable workerID ∧ Printable address))
  | .sendHeartbeat _ activeTaskIDs =>
    inferInstanceAs (Decidable (Printable workerID ∧ ∀ id ∈ activeTaskIDs, Printable id))
  | .reportResult _ _ output => inferInstanceAs (Decidable (Printable output))

/-- The handler of the scheduler for a call, and the value of its path variable. -/
def handler : Call → Router.Handler
  | .registerWorker _ _ => .register
  | .sendHeartbeat _ _ => .heartbeat
  | .reportResult _ _ _ => .completeTask

def values : Call → List Bytes
  | .reportResult taskID _ _ => [taskID]
  | .registerWorker _ _ | .sendHeartbeat _ _ => []

/-- Only a result is reported under a path of its own. -/
def Addressed : Call → Prop
  | .reportResult taskID _ _ => PathPart taskID
  | .registerWorker _ _ | .sendHeartbeat _ _ => True

section Routes

/-- The identifier may come with escapes. -/
theorem route_complete {taskID part : Bytes} (apart : Url.slash ∉ part) (nonempty : part ≠ [])
    (named : part ≠ utf8 "." ∧ part ≠ utf8 "..") (shown : Router.segment part = taskID)
    (solid : Url.slash ∉ taskID) :
    Router.route (utf8 "POST") (utf8 "/tasks/" ++ part ++ utf8 "/complete") =
      .handler .completeTask [taskID] := by
  have parts : (utf8 "/tasks/" ++ part ++ utf8 "/complete").splitOn Url.slash =
      [[],utf8 "tasks",part,utf8 "complete"] := by
    have pieces : utf8 "/tasks/" ++ part ++ utf8 "/complete" =
        [Url.slash].intercalate [[],utf8 "tasks",part,utf8 "complete"] := by
      have first : utf8 "/tasks/" = Url.slash::(utf8 "tasks" ++ [Url.slash]) := rfl
      have last : utf8 "/complete" = Url.slash::utf8 "complete" := rfl
      simp [List.intercalate,List.intersperse,first,last]
    rw [pieces]
    refine List.splitOn_intercalate Url.slash ?_ (by simp)
    simp only [List.forall_mem_cons]
    exact ⟨by simp,by decide,apart,by decide,by simp⟩
  have words : utf8 "tasks" ≠ [] ∧ utf8 "tasks" ≠ utf8 "." ∧ utf8 "tasks" ≠ utf8 ".." ∧
      utf8 "complete" ≠ utf8 "." ∧ utf8 "complete" ≠ utf8 ".." ∧ utf8 "tasks" ≠ utf8 "workers" ∧
      utf8 "tasks" ≠ utf8 "nodes" := by decide
  have clean : Router.isClean [[],utf8 "tasks",part,utf8 "complete"] = true := by
    simp [Router.isClean,nonempty,named,words]
  have segments : [utf8 "tasks",part,utf8 "complete"].map Router.segment =
      [utf8 "tasks",taskID,utf8 "complete"] := by
    have first : Router.segment (utf8 "tasks") = utf8 "tasks" := by decide
    have last : Router.segment (utf8 "complete") = utf8 "complete" := by decide
    simp [first,last,shown]
  have other : utf8 "/tasks/" ++ part ++ utf8 "/complete" ≠ utf8 "*" := by
    have first : utf8 "/tasks/" = Url.slash::utf8 "tasks/" := rfl
    have star : utf8 "*" = [42] := rfl
    rw [first,star,List.append_assoc]
    exact fun same => absurd (List.cons.inj same).1 (by decide)
  have single : taskID ≠ [Url.slash] := by
    rintro rfl
    exact solid (List.mem_singleton_self _)
  have posts : Router.post = utf8 "POST" ∧ utf8 "POST" ≠ Router.get ∧
      utf8 "POST" ≠ utf8 "HEAD" := by decide
  rw [Router.route,if_neg other,parts,List.tail_cons,segments]
  simp [clean,Router.routes,Router.Pattern.accepts,Router.matchSegments,posts,words,single]

/-- Nothing in the path of a report is cut off or refused. -/
theorem requestPath_complete {taskID : Bytes} (part : PathPart taskID) :
    Http.requestPath (utf8 "/tasks/" ++ taskID ++ utf8 "/complete") =
        Url.escapedPath (utf8 "/tasks/" ++ taskID ++ utf8 "/complete") ∧
      Url.percent ∉ utf8 "/tasks/" ++ taskID ++ utf8 "/complete" := by
  have around : ∀ byte ∈ utf8 "/tasks/" ++ utf8 "/complete",
      Http.isControl byte = false ∧ byte ≠ 63 ∧ byte ≠ Url.percent := by decide +kernel
  have plain : ∀ byte ∈ utf8 "/tasks/" ++ taskID ++ utf8 "/complete",
      Http.isControl byte = false ∧ byte ≠ 63 ∧ byte ≠ Url.percent := by
    intro byte member
    rw [List.append_assoc,List.mem_append,List.mem_append] at member
    rcases member with before | inside | behind
    · exact around byte (List.mem_append_left _ before)
    · obtain ⟨shown,other⟩ := part.plain byte inside
      refine ⟨shown,?_,?_⟩ <;> rintro rfl <;> exact other (by decide)
    · exact around byte (List.mem_append_right _ behind)
  have first : (utf8 "/tasks/" ++ taskID ++ utf8 "/complete").head? = some Url.slash := by
    rw [List.append_assoc]
    rfl
  have shown : (utf8 "/tasks/" ++ taskID ++ utf8 "/complete").any Http.isControl = false :=
    List.any_eq_false.mpr (fun byte member => Bool.eq_false_iff.mp (plain byte member).1)
  refine ⟨?_,fun member => (plain _ member).2.2 rfl⟩
  rw [Http.requestPath,first,shown,if_pos ⟨rfl,rfl⟩,List.takeWhile_eq_self_iff.mpr]
  intro byte member
  simpa using (plain byte member).2.1

/-- The path arrives as it was written or with escapes, and leads to the same identifier. -/
theorem complete_routed {taskID : Bytes} (part : PathPart taskID) :
    ∃ shown, Http.requestPath (utf8 "/tasks/" ++ taskID ++ utf8 "/complete") = some shown ∧
      Router.route (utf8 "POST") shown = .handler .completeTask [taskID] := by
  obtain ⟨whole,plain⟩ := requestPath_complete part
  have apart : Url.slash ∉ taskID := fun member => (part.plain _ member).2 (by decide)
  rw [whole]
  rcases Url.escapedPath_plain plain with kept | anew
  · have shown : Router.segment taskID = taskID := by
      rw [Router.segment,if_neg part.nonempty,
        Url.unescape_plain (fun member => (part.plain _ member).2 (by decide))]
      rfl
    exact ⟨_,kept,route_complete apart part.nonempty part.named shown apart⟩
  · have nonempty : Url.escape taskID ≠ [] := Url.escape_ne rfl part.nonempty
    have shown : Router.segment (Url.escape taskID) = taskID := by
      rw [Router.segment,if_neg nonempty,Url.unescape_escape]
      rfl
    have parts : Url.escape (utf8 "/tasks/" ++ taskID ++ utf8 "/complete") =
        utf8 "/tasks/" ++ Url.escape taskID ++ utf8 "/complete" := by
      have first : Url.escape (utf8 "/tasks/") = utf8 "/tasks/" := by decide
      have last : Url.escape (utf8 "/complete") = utf8 "/complete" := by decide
      rw [Url.escape_append,Url.escape_append,first,last]
    rw [parts] at anew
    exact ⟨_,anew,route_complete (Url.slash_not_mem_escape apart) nonempty
      ⟨Url.escape_ne (by decide) part.named.1,Url.escape_ne (by decide) part.named.2⟩ shown apart⟩

end Routes

section Service
variable {workerID path body host port : Bytes} {call : Call}

theorem path_plain (addressed : call.Addressed) (posted : call.post workerID = some (path,body)) :
    13 ∉ path ∧ Http.space ∉ path := by
  cases call with
  | registerWorker address capacity =>
    obtain ⟨_,posted⟩ := Option.ite_none_left_eq_some.mp posted
    cases posted
    decide
  | sendHeartbeat runningTasks activeTaskIDs =>
    obtain ⟨_,posted⟩ := Option.ite_none_left_eq_some.mp posted
    cases posted
    decide
  | reportResult taskID success output =>
    obtain ⟨_,posted⟩ := Option.ite_none_left_eq_some.mp posted
    cases posted
    have first : 13 ∉ utf8 "/tasks/" ∧ Http.space ∉ utf8 "/tasks/" := by decide
    have last : 13 ∉ utf8 "/complete" ∧ Http.space ∉ utf8 "/complete" := by decide
    have inside : 13 ∉ taskID ∧ Http.space ∉ taskID :=
      ⟨fun member => absurd (addressed.plain 13 member).1 (by decide),
        fun member => (addressed.plain 32 member).2 (by decide)⟩
    simp [first,last,inside]

/-- The path of a call leads to its handler. -/
theorem post_routed (addressed : call.Addressed) (posted : call.post workerID = some (path,body)) :
    ∃ shown, Http.requestPath path = some shown ∧
      Router.route (utf8 "POST") shown = .handler call.handler call.values := by
  cases call with
  | registerWorker address capacity =>
    obtain ⟨_,posted⟩ := Option.ite_none_left_eq_some.mp posted
    cases posted
    have routed : Router.route (utf8 "POST") (utf8 "/workers/register") =
        .handler .register [] := by decide +kernel
    exact ⟨utf8 "/workers/register",by decide +kernel,routed⟩
  | sendHeartbeat runningTasks activeTaskIDs =>
    obtain ⟨_,posted⟩ := Option.ite_none_left_eq_some.mp posted
    cases posted
    have routed : Router.route (utf8 "POST") (utf8 "/workers/heartbeat") =
        .handler .heartbeat [] := by decide +kernel
    exact ⟨utf8 "/workers/heartbeat",by decide +kernel,routed⟩
  | reportResult taskID success output =>
    obtain ⟨_,posted⟩ := Option.ite_none_left_eq_some.mp posted
    cases posted
    exact complete_routed addressed

theorem map_ite {α : Type} {readable : Prop} [Decidable readable] (request : α → Request) (req : α) :
    (if readable then some req else none).map request =
      if readable then some (request req) else none := by
  split <;> rfl

/-- The body of a call is read by its handler as what the call means. -/
theorem post_decoded (posted : call.post workerID = some (path,body)) :
    call.handler.request (call.values.headD []) (some body) =
      if call.Readable workerID then some (call.request workerID) else none := by
  cases call with
  | registerWorker address capacity =>
    obtain ⟨_,posted⟩ := Option.ite_none_left_eq_some.mp posted
    cases posted
    simp only [handler,Router.Handler.request,Option.bind_some,decodeRegister_registerBody]
    exact map_ite _ _
  | sendHeartbeat runningTasks activeTaskIDs =>
    obtain ⟨_,posted⟩ := Option.ite_none_left_eq_some.mp posted
    cases posted
    simp only [handler,Router.Handler.request,Option.bind_some,decodeHeartbeat_heartbeatBody]
    exact map_ite _ _
  | reportResult taskID success output =>
    obtain ⟨_,posted⟩ := Option.ite_none_left_eq_some.mp posted
    cases posted
    simp only [handler,values,Router.Handler.request,Option.bind_some,decodeComplete_resultBody]
    exact map_ite _ _

/-- A request that has arrived is the call that the worker means, or is refused. -/
theorem serve_request (config : Config) (now : Time) (state : State) (sound : HostSound host port)
    (addressed : call.Addressed) (posted : call.post workerID = some (path,body)) :
    Router.serveConn config now state (requestText host port path body) =
      if call.Readable workerID then
        (Router.answer (call.request workerID) ((call.request workerID).call config now state).1,
          ((call.request workerID).call config now state).2)
      else (⟨400,.error .invalidBody⟩,state) := by
  have read := Http.readRequest_text _ (postRequest_sound sound (path_plain addressed posted) body)
  obtain ⟨shown,target,routed⟩ := post_routed addressed posted
  have posts : call.handler.posts = true := by cases call <;> rfl
  rw [← requestText_eq] at read
  simp only [Router.serveConn,read,postRequest,target,Router.serveHTTP,routed,
    Router.run_posts config now state posts,post_decoded posted]
  split <;> rfl

/-- What the scheduler makes of what has arrived of a request. -/
theorem serve_arrived (config : Config) (now : Time) (state : State) (sound : HostSound host port)
    (addressed : call.Addressed) (posted : call.post workerID = some (path,body)) {arrived : Bytes}
    (carried : arrived <+: requestText host port path body) :
    (Router.serveConn config now state arrived).1.status = call.expected ∧
        arrived = requestText host port path body ∧ ¬ (call.request workerID).Invalid state ∧
        (Router.serveConn config now state arrived).2 =
          ((call.request workerID).call config now state).2 ∨
      ((Router.serveConn config now state arrived).1.status = 400 ∨
          (Router.serveConn config now state arrived).1.status = 404) ∧
        (Router.serveConn config now state arrived).2 = state := by
  by_cases whole : arrived = requestText host port path body
  · rw [whole,serve_request config now state sound addressed posted]
    have success : Router.successOf (call.request workerID) = call.expected := by cases call <;> rfl
    split
    next =>
      rcases Router.call_outcome config now state (call.request workerID) with
        ⟨_,failed,same⟩ | ⟨valid,served⟩
      · exact .inr ⟨Router.answer_refused _ failed,same⟩
      · exact .inl ⟨(Router.answer_served _ served).trans success,rfl,valid,rfl⟩
    next => exact .inr ⟨.inl rfl,rfl⟩
  · rw [requestText_eq] at carried whole
    have missing := Http.readRequest_part
      (postRequest_sound sound (path_plain addressed posted) body) carried whole
    rw [Router.serveConn,missing]
    exact .inr ⟨.inl rfl,rfl⟩

end Service

section Client
variable {schedulerAddr workerID host port path body : Bytes} {call : Call}

theorem perform_spec (attempt : Attempt) (located : splitHostPort schedulerAddr = some (host,port))
    (posted : call.post workerID = some (path,body)) :
    (call.perform schedulerAddr workerID attempt).1 <+: requestText host port path body ∧
    ((call.perform schedulerAddr workerID attempt).2 = .done true →
      ∃ response, receiveAll attempt.reads [] = .done response ∧
        statusCode response = call.expected) ∧
    ((call.perform schedulerAddr workerID attempt).2 = .done false →
      (call.perform schedulerAddr workerID attempt).1 = requestText host port path body →
      ∀ response, receiveAll attempt.reads [] = .done response →
        statusCode response ≠ call.expected) := by
  obtain ⟨front,answers,result⟩ := postJSON_spec located path body attempt
  simp only [perform,posted]
  split
  next wire sending =>
    rw [sending] at front
    refine ⟨front,fun same => ?_,fun same => ?_⟩ <;> cases same
  next wire sending =>
    rw [sending] at front
    refine ⟨front,fun same => ?_,fun same => ?_⟩ <;> cases same
  next wire status sending =>
    rw [sending] at front answers result
    refine ⟨front,fun same => ?_,fun same whole response received => ?_⟩
    · have expects : status = call.expected := of_decide_eq_true (Progress.done.inj same)
      rcases result status rfl with failed | ⟨response,received,shown⟩
      · omega
      · exact ⟨response,received,shown.symm.trans expects⟩
    · have other : ¬ status = call.expected := of_decide_eq_false (Progress.done.inj same)
      rwa [Progress.done.inj (answers whole response received)] at other

end Client

/-- A call that the worker sees succeed was executed by the scheduler as the worker meant it.
Whatever is lost on the way, the scheduler executes the call as it was meant or not at all;
and if the worker reads the status of the answer and it is not success, then not at all. -/
theorem executed_as_meant (config : Config) (now : Time) (state : State)
    (schedulerAddr host port workerID : Bytes) (attempt : Attempt) (call : Call)
    (arrived rest : Bytes) (located : splitHostPort schedulerAddr = some (host,port))
    (sound : HostSound host port) (addressed : call.Addressed)
    (carried : arrived <+: (call.perform schedulerAddr workerID attempt).1)
    (answered : ∀ response, receiveAll attempt.reads [] = .done response →
      response <+: answerText (Router.serveConn config now state arrived).1.status
        (Router.statusText (Router.serveConn config now state arrived).1.status) rest) :
    ((call.perform schedulerAddr workerID attempt).2 = .done true →
      ¬ (call.request workerID).Invalid state ∧
        (Router.serveConn config now state arrived).2 =
          ((call.request workerID).call config now state).2) ∧
    ((Router.serveConn config now state arrived).2 = state ∨
      ¬ (call.request workerID).Invalid state ∧
        (Router.serveConn config now state arrived).2 =
          ((call.request workerID).call config now state).2) ∧
    ((call.perform schedulerAddr workerID attempt).2 = .done false →
      ∀ response, receiveAll attempt.reads [] = .done response →
        (Http.cutLine response).isSome = true →
        (Router.serveConn config now state arrived).2 = state) := by
  cases posted : call.post workerID with
  | none =>
    have silent : call.perform schedulerAddr workerID attempt = ([],.done false) := by
      simp only [perform,posted]
    rw [silent] at carried ⊢
    have nothing : Router.serveConn config now state arrived = (Router.refusal 400,state) := by
      rw [List.prefix_nil.mp carried]
      rfl
    rw [nothing]
    refine ⟨fun same => ?_,.inl rfl,fun _ _ _ _ => rfl⟩
    cases same
  | some both =>
    obtain ⟨path,body⟩ := both
    obtain ⟨front,succeeds,fails⟩ := perform_spec attempt located posted
    have expects : call.expected = 200 ∨ call.expected = 201 := by cases call <;> simp [expected]
    rcases serve_arrived config now state sound addressed posted (carried.trans front) with
      ⟨status,whole,valid,next⟩ | ⟨status,same⟩
    · refine ⟨fun _ => ⟨valid,next⟩,.inr ⟨valid,next⟩,fun failed response received read => ?_⟩
      -- The worker would have read the status that it expects.
      have all : (call.perform schedulerAddr workerID attempt).1 = requestText host port path body :=
        front.eq_of_length_le (by rw [← whole]; exact carried.length_le)
      have shown := answered response received
      rw [status] at shown
      have plain : 13 ∉ Router.statusText call.expected := by
        rcases expects with same | same <;> rw [same] <;> decide
      have code := statusCode_part (by omega) plain shown
      rw [if_pos read] at code
      exact absurd code (fails failed all response received)
    · refine ⟨fun succeeded => ?_,.inl same,fun _ _ _ _ => same⟩
      -- A refusal is not read as a success.
      obtain ⟨response,received,code⟩ := succeeds succeeded
      have shown := answered response received
      have refused : 13 ∉ Router.statusText (Router.serveConn config now state arrived).1.status := by
        rcases status with same | same <;> rw [same] <;> decide
      have read := statusCode_part (by omega) refused shown
      rw [code] at read
      split at read <;> omega

/-- The request goes out in two pieces and the first line of the answer comes in two. -/
def brokenUp : Attempt :=
  ⟨true,[false,true],[.written 100,.written 1000],
    [.data (utf8 "HTTP/1.1 201 Cr"),.interrupted,
      .data (utf8 "eated\r\nContent-Type: application/json\r\n"),.closed]⟩

theorem executed_as_meant_brokenUp :
    ((registerWorker (utf8 "127.0.0.1:9001") 4).perform (utf8 "http://localhost:8080/")
      (utf8 "worker-1") brokenUp).2 = .done true ∧
    (Router.serveConn defaultConfig 1 newMemoryStore
      ((registerWorker (utf8 "127.0.0.1:9001") 4).perform (utf8 "http://localhost:8080/")
        (utf8 "worker-1") brokenUp).1).2 =
      (((registerWorker (utf8 "127.0.0.1:9001") 4).request (utf8 "worker-1")).call defaultConfig 1
        newMemoryStore).2 := by
  have returned : ((registerWorker (utf8 "127.0.0.1:9001") 4).perform
      (utf8 "http://localhost:8080/") (utf8 "worker-1") brokenUp).2 = .done true := by
    decide +kernel
  have status : (Router.serveConn defaultConfig 1 newMemoryStore
      ((registerWorker (utf8 "127.0.0.1:9001") 4).perform (utf8 "http://localhost:8080/")
        (utf8 "worker-1") brokenUp).1).1.status = 201 := by
    decide +kernel
  have sound : HostSound (utf8 "localhost") (utf8 "8080") := List.all_eq_true.mp rfl
  refine ⟨returned,((executed_as_meant defaultConfig 1 newMemoryStore
    (utf8 "http://localhost:8080/") (utf8 "localhost") (utf8 "8080") (utf8 "worker-1") brokenUp
    (registerWorker (utf8 "127.0.0.1:9001") 4) _ (utf8 "Content-Type: application/json\r\n")
    (by decide +kernel) sound trivial (List.prefix_refl _) ?_).1 returned).2⟩
  intro response received
  rw [status]
  cases received
  exact List.isPrefixOf_iff_prefix.mp (by decide +kernel)

end Call

end RdmaPlatform.Cluster
