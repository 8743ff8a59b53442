import RdmaPlatform.Scheduler.Concurrent
import RdmaPlatform.Scheduler.Decode
import RdmaPlatform.Scheduler.FrontEnds
import RdmaPlatform.Library.Http

/-! The HTTP interface of the scheduler: `router.go` and the handlers beside it. A request is
matched against the patterns of the router by its method and the parts of its path, its body is
decoded, the service is called, and the answer carries a status that says how that went. The
router begins where `net/http` hands it a request; the bytes on a connection come in only for
the requests that the worker writes. -/
namespace RdmaPlatform.Scheduler
open Library

/-- `metadata` is decoded into the map that is there already. -/
def decodeStringMap (old : Metadata) : Json → Option Metadata
  | .object members =>
    (members.foldlM (fun table member => (decodeString [] member.2).map
      (fun text => Table.put table member.1 text)) (old.getD ∅)).map some
  | .null => some none
  | _ => none

def SubmitTaskRequest.setMember (req : SubmitTaskRequest) (name : Bytes) (json : Json) :
    Option SubmitTaskRequest :=
  if names name "model" then (decodeString req.model json).map (fun model => {req with model := model})
  else if names name "operation" then
    (decodeString req.operation json).map (fun operation => {req with operation := operation})
  else if names name "payload_ref" then
    (decodeString req.payloadRef json).map (fun payloadRef => {req with payloadRef := payloadRef})
  else if names name "metadata" then
    (decodeStringMap req.metadata json).map (fun metadata => {req with metadata := metadata})
  else none

def decodeSubmit : Bytes → Option SubmitTaskRequest :=
  decodeJSON SubmitTaskRequest.setMember ⟨[],[],[],none⟩

namespace Router
open FrontEnds

/-- A request that `net/http` has read. `path` is `EscapedPath` of its URL; there is no body if
reading it to its end fails. -/
structure Incoming where
  method : Bytes
  path : Bytes
  body : Option Bytes

inductive Handler where
  | healthz
  | register
  | heartbeat
  | submitTask
  | completeTask
  | getTask
  | status
  deriving DecidableEq

inductive Segment where
  | literal (text : Bytes)
  | wildcard

structure Pattern where
  method : Bytes
  segments : List Segment
  handler : Handler

def get : Bytes := utf8 "GET"

def post : Bytes := utf8 "POST"

def routes : List Pattern :=
  [⟨get,[.literal (utf8 "healthz")],.healthz⟩,
    ⟨post,[.literal (utf8 "workers"),.literal (utf8 "register")],.register⟩,
    ⟨post,[.literal (utf8 "nodes"),.literal (utf8 "register")],.register⟩,
    ⟨post,[.literal (utf8 "workers"),.literal (utf8 "heartbeat")],.heartbeat⟩,
    ⟨post,[.literal (utf8 "nodes"),.literal (utf8 "heartbeat")],.heartbeat⟩,
    ⟨post,[.literal (utf8 "tasks"),.literal (utf8 "submit")],.submitTask⟩,
    ⟨post,[.literal (utf8 "tasks"),.wildcard,.literal (utf8 "complete")],.completeTask⟩,
    ⟨get,[.literal (utf8 "tasks"),.wildcard],.getTask⟩,
    ⟨get,[.literal (utf8 "cluster"),.literal (utf8 "overview")],.status⟩,
    ⟨get,[.literal (utf8 "status")],.status⟩]

/-- `firstSegment`: a part of the path without its escapes; behind a last slash it is the slash. -/
def segment (part : Bytes) : Bytes := if part = [] then [Url.slash] else (Url.unescape part).getD part

/-- The values of the wildcards; none of them is a slash. -/
def matchSegments : List Segment → List Bytes → Option (List Bytes)
  | [], [] => some []
  | .literal text::rest, part::parts => if part = text then matchSegments rest parts else none
  | .wildcard::rest, part::parts =>
    if part = [Url.slash] then none else (matchSegments rest parts).map (fun values => part::values)
  | _, _ => none

/-- A `GET` pattern also takes `HEAD`. -/
def Pattern.accepts (pattern : Pattern) (method : Bytes) : Bool :=
  method = pattern.method ∨ pattern.method = get ∧ method = utf8 "HEAD"

inductive Destination where
  | handler (handler : Handler) (values : List Bytes)
  | badRequest
  | redirect
  | methodNotAllowed
  | notFound
  deriving DecidableEq

/-- The parts of a path that `cleanPath` leaves as it is. -/
def isClean : List Bytes → Bool
  | [] => false
  | first::parts =>
    first = [] ∧ parts ≠ [] ∧ (∀ part ∈ parts.dropLast, part ≠ []) ∧
      ∀ part ∈ parts, part ≠ utf8 "." ∧ part ≠ utf8 ".."

/-- The multiplexer. No two patterns of one method match the same path. It does not clean the
path of a `CONNECT`, but no pattern accepts that method either. -/
def route (method path : Bytes) : Destination :=
  let parts := path.splitOn Url.slash
  let segments := parts.tail.map segment
  if path = utf8 "*" then .badRequest
  else if !isClean parts then .redirect
  else
    match routes.findSome? (fun pattern => if pattern.accepts method then
        (matchSegments pattern.segments segments).map (fun values => (pattern.handler,values))
          else none) with
    | some (handler,values) => .handler handler values
    | none =>
      if routes.any (fun pattern => (matchSegments pattern.segments segments).isSome) then
        .methodNotAllowed
      else .notFound

/-- The body of an answer; `plain` is a text that `net/http` writes itself. -/
inductive Payload where
  | error (error : HttpError)
  | plain
  | health
  | node (node : Node)
  | task (task : Task)
  | status (response : StatusResponse)

structure Answer where
  status : Nat
  payload : Payload

def errorStatus : HttpError → Nat
  | .invalidBody | .badRequest _ => 400
  | .notFound _ | .taskNotFound => 404

/-- `writeError` or `writeJSON` with the result of a handler. -/
def write {α : Type} (status : Nat) (payload : α → Payload) :
    Except HttpError α × State → Answer × State
  | (.error error,state) => (⟨errorStatus error,.error error⟩,state)
  | (.ok value,state) => (⟨status,payload value⟩,state)

/-- `id` is the value of the path variable. -/
def Handler.run (config : Config) (now : Time) (state : State) (id : Bytes) (body : Option Bytes) :
    Handler → Answer × State
  | .healthz => (⟨200,.health⟩,state)
  | .register => write 201 .node (handleRegister config (body.bind decodeRegister) now state)
  | .heartbeat => write 200 .node (handleHeartbeat config (body.bind decodeHeartbeat) now state)
  | .submitTask => write 201 .task (handleSubmitTask config (body.bind decodeSubmit) now state)
  | .completeTask => write 200 .task (handleCompleteTask config id (body.bind decodeComplete) now state)
  | .getTask => write 200 .task (handleGetTask id state,state)
  | .status =>
    let (response,state) := handleStatus config now state
    (⟨200,.status response⟩,state)

def refusal (status : Nat) : Answer := ⟨status,.plain⟩

def serveHTTP (config : Config) (now : Time) (state : State) (request : Incoming) : Answer × State :=
  match route request.method request.path with
  | .handler handler values => handler.run config now state (values.headD []) request.body
  | .badRequest => (refusal 400,state)
  | .redirect => (refusal 301,state)
  | .methodNotAllowed => (refusal 405,state)
  | .notFound => (refusal 404,state)

/-- The answer and the store after whatever has arrived of a request on a connection. The
handlers that the worker calls read a body to its end before they call a service, so nothing
happens while some of it is missing. -/
def serveConn (config : Config) (now : Time) (state : State) (arrived : Bytes) : Answer × State :=
  match Http.readRequest arrived with
  | none => (refusal 400,state)
  | some (request,_) =>
    match Http.requestPath request.target with
    | none => (refusal 400,state)
    | some path => serveHTTP config now state ⟨request.method,path,some request.body⟩

/-- `http.StatusText`, for the statuses used. -/
def statusText (status : Nat) : Bytes :=
  if status = 200 then utf8 "OK"
  else if status = 201 then utf8 "Created"
  else if status = 301 then utf8 "Moved Permanently"
  else if status = 400 then utf8 "Bad Request"
  else if status = 404 then utf8 "Not Found"
  else if status = 405 then utf8 "Method Not Allowed"
  else []

section Calls
variable (config : Config) (now : Time) (state : State)

/-- A valid call is served, any other one leaves the store. -/
theorem call_outcome (request : Request) :
    request.Invalid state ∧ (request.call config now state).1.failed = true ∧
        (request.call config now state).2 = state ∨
      ¬ request.Invalid state ∧ (request.call config now state).1.failed = false := by
  rw [Request.call_eq_serve]
  rcases request.write_outcome config now state with ⟨invalid,error,failed⟩ |
    ⟨valid,key,next,written,present⟩
  · refine .inl ⟨invalid,?_⟩
    rw [Request.serve,failed]
    exact ⟨request.failure_failed error,rfl⟩
  · refine .inr ⟨valid,?_⟩
    rw [Request.serve,written]
    obtain ⟨nodes,tasks⟩ := apply_keys config next (.dispatchPending now)
    refine Request.read_present ?_
    cases request with
    | register | heartbeat => exact nodes present
    | submit | complete => exact tasks present

/-- The error of a failed call and the status of a successful one. -/
def refusalOf : Request → Error → HttpError
  | .register _ | .submit _ => .badRequest
  | .heartbeat _ | .complete _ _ => .notFound

def successOf : Request → Nat
  | .register _ | .submit _ => 201
  | .heartbeat _ | .complete _ _ => 200

def answer (request : Request) : Response → Answer
  | .node (.error error) | .task (.error error) =>
    ⟨errorStatus (refusalOf request error),.error (refusalOf request error)⟩
  | .node (.ok node) => ⟨successOf request,.node node⟩
  | .task (.ok task) => ⟨successOf request,.task task⟩

theorem answer_served (request : Request) {response : Response}
    (served : response.failed = false) :
    (answer request response).status = successOf request := by
  rcases response with (_ | _) | (_ | _)
  · cases served
  · rfl
  · cases served
  · rfl

theorem answer_refused (request : Request) {response : Response}
    (failed : response.failed = true) :
    (answer request response).status = 400 ∨ (answer request response).status = 404 := by
  rcases response with (_ | _) | (_ | _)
  · cases request <;> simp [answer,refusalOf,errorStatus]
  · cases failed
  · cases request <;> simp [answer,refusalOf,errorStatus]
  · cases failed

/-- The call that a handler makes of its body, if it has one that decodes. -/
def Handler.request (id : Bytes) (body : Option Bytes) : Handler → Option Request
  | .register => (body.bind decodeRegister).map .register
  | .heartbeat => (body.bind decodeHeartbeat).map .heartbeat
  | .submitTask => (body.bind decodeSubmit).map .submit
  | .completeTask => (body.bind decodeComplete).map (.complete id)
  | .healthz | .getTask | .status => none

/-- The handlers of requests with a body. -/
def Handler.posts : Handler → Bool
  | .register | .heartbeat | .submitTask | .completeTask => true
  | .healthz | .getTask | .status => false

theorem run_posts {handler : Handler} (posts : handler.posts = true) (id : Bytes)
    (body : Option Bytes) :
    handler.run config now state id body =
      ((handler.request id body).map (fun request =>
        (answer request (request.call config now state).1,(request.call config now state).2))).getD
          (⟨400,.error .invalidBody⟩,state) := by
  cases handler with
  | healthz | getTask | status => cases posts
  | register =>
    simp only [Handler.run,Handler.request,handleRegister]
    cases body.bind decodeRegister with
    | none => rfl
    | some req =>
      simp only [callService,Option.map_some,Option.getD_some,Request.call]
      rcases NodeService.register config req now state with ⟨_ | _,_⟩ <;> rfl
  | heartbeat =>
    simp only [Handler.run,Handler.request,handleHeartbeat]
    cases body.bind decodeHeartbeat with
    | none => rfl
    | some req =>
      simp only [callService,Option.map_some,Option.getD_some,Request.call]
      rcases NodeService.heartbeat config req now state with ⟨_ | _,_⟩ <;> rfl
  | submitTask =>
    simp only [Handler.run,Handler.request,handleSubmitTask]
    cases body.bind decodeSubmit with
    | none => rfl
    | some req =>
      simp only [callService,Option.map_some,Option.getD_some,Request.call]
      rcases TaskService.submit config req now state with ⟨_ | _,_⟩ <;> rfl
  | completeTask =>
    simp only [Handler.run,Handler.request,handleCompleteTask]
    cases body.bind decodeComplete with
    | none => rfl
    | some req =>
      simp only [callService,Option.map_some,Option.getD_some,Request.call]
      rcases TaskService.complete config id req now state with ⟨_ | _,_⟩ <;> rfl

end Calls

end Router

end RdmaPlatform.Scheduler
