import RdmaPlatform.Scheduler.FrontEnds
import RdmaPlatform.Scheduler.Calls
import RdmaPlatform.Scheduler.Tables
import RdmaPlatform.Scheduler.Decode

/-! The calls that workers make through the two front ends, and the 32-bit numbers of
gRPC. Both front ends write 64-bit counters into one store. A request over gRPC is
widened, so it fits 32 bits when it is read back; one over HTTP need not. -/
namespace RdmaPlatform.Scheduler
open Library

namespace Grpc

structure WorkerDescriptor where
  id : Bytes
  address : Bytes
  capacity : UInt32
  labels : List Bytes

/-- An unspecified state is `none`. -/
structure HeartbeatRequest where
  workerID : Bytes
  runningTasks : UInt32
  reportedState : Option ProtoNodeState

def fromProtoNodeState : Option ProtoNodeState → Bytes
  | some .busy => utf8 "busy"
  | some .offline => utf8 "offline"
  | some .ready | none => utf8 "ready"

def registerReq (worker : WorkerDescriptor) : RegisterNodeRequest :=
  ⟨worker.id,worker.address,worker.capacity.toUInt64.toInt64,worker.labels⟩

def heartbeatReq (req : HeartbeatRequest) : Scheduler.HeartbeatRequest :=
  ⟨req.workerID,req.runningTasks.toUInt64.toInt64,fromProtoNodeState req.reportedState,[]⟩

structure WorkerReply where
  worker : WorkerStatus
  message : Bytes

inductive RegisterStatus where
  | workerRequired
  | invalidArgument (cause : Error)

def registerWorker (config : Config) (worker : Option WorkerDescriptor) (now : Time) (state : State) :
    Except RegisterStatus WorkerReply × State :=
  match worker with
  | none => (.error .workerRequired,state)
  | some worker =>
    match NodeService.register config (registerReq worker) now state with
    | (.error error,state) => (.error (.invalidArgument error),state)
    | (.ok node,state) => (.ok ⟨toWorkerStatus node,utf8 "worker registered"⟩,state)

def heartbeat (config : Config) (req : HeartbeatRequest) (now : Time) (state : State) :
    Except Status WorkerReply × State :=
  match NodeService.heartbeat config (heartbeatReq req) now state with
  | (.error error,state) => (.error (translate error),state)
  | (.ok node,state) => (.ok ⟨toWorkerStatus node,utf8 "heartbeat accepted"⟩,state)

end Grpc

namespace FrontEnds
open Grpc

/-- A call of a worker as it arrives at a front end. -/
inductive NodeCall where
  | httpRegister (body : Bytes)
  | httpHeartbeat (body : Bytes)
  | grpcRegister (worker : Option WorkerDescriptor)
  | grpcHeartbeat (req : Grpc.HeartbeatRequest)

namespace NodeCall

def perform (config : Config) (now : Time) (state : State) : NodeCall → State
  | .httpRegister body => (handleRegister config (decodeRegister body) now state).2
  | .httpHeartbeat body => (handleHeartbeat config (decodeHeartbeat body) now state).2
  | .grpcRegister worker => (registerWorker config worker now state).2
  | .grpcHeartbeat req => (Grpc.heartbeat config req now state).2

/-- The service call that it becomes, if any. -/
def request : NodeCall → Option Request
  | .httpRegister body => (decodeRegister body).map .register
  | .httpHeartbeat body => (decodeHeartbeat body).map .heartbeat
  | .grpcRegister worker => worker.map (fun worker => .register (registerReq worker))
  | .grpcHeartbeat req => some (.heartbeat (heartbeatReq req))

theorem perform_eq_call (config : Config) (now : Time) (state : State) (call : NodeCall) :
    call.perform config now state =
      (call.request.map (fun request => (request.call config now state).2)).getD state := by
  cases call with
  | httpRegister body =>
    simp only [perform,request]
    cases decodeRegister body with
    | none => rfl
    | some req => exact callService_state _ _ req state
  | httpHeartbeat body =>
    simp only [perform,request]
    cases decodeHeartbeat body with
    | none => rfl
    | some req => exact callService_state _ _ req state
  | grpcRegister worker =>
    cases worker with
    | none => rfl
    | some worker =>
      simp only [perform,request,registerWorker,Option.map_some,Option.getD_some,Request.call]
      rcases NodeService.register config (registerReq worker) now state with ⟨_ | _,_⟩ <;> rfl
  | grpcHeartbeat req =>
    simp only [perform,request,Grpc.heartbeat,Option.map_some,Option.getD_some,Request.call]
    rcases NodeService.heartbeat config (heartbeatReq req) now state with ⟨_ | _,_⟩ <;> rfl

/-- No number in it needs more than 32 bits. -/
def Narrow : NodeCall → Prop
  | .httpRegister body => ∀ req ∈ decodeRegister body, req.capacity.toInt < 2^32
  | .httpHeartbeat body => ∀ req ∈ decodeHeartbeat body, req.runningTasks.toInt < 2^32
  | .grpcRegister _ | .grpcHeartbeat _ => True

end NodeCall

def setsCounter : Section → Bool
  | .register _ _ | .heartbeat _ _ => true
  | _ => false

/-- One access to the store: the write of a worker's call, or any access of another kind. -/
inductive Access where
  | worker (call : NodeCall) (now : Time)
  | other (step : Section) (silent : setsCounter step = false)

namespace Access

def sections : Access → List Section
  | .worker call now => (call.request.map (Request.access now)).toList
  | .other step _ => [step]

def Narrow : Access → Prop
  | .worker call _ => call.Narrow
  | .other _ _ => True

end Access

/-- The state after the accesses of any number of interleaved calls. -/
def reached (config : Config) (accesses : List Access) : State :=
  exec config (accesses.flatMap Access.sections) newMemoryStore

/-- Without interference a call is its write and, if that succeeds, a dispatch. -/
theorem NodeCall.perform_reached (config : Config) (accesses : List Access) (call : NodeCall)
    (now : Time) :
    ∃ dispatch, call.perform config now (reached config accesses) =
      reached config (accesses ++ .worker call now::dispatch) := by
  have later (dispatch : List Access) : reached config (accesses ++ .worker call now::dispatch) =
      exec config (dispatch.flatMap Access.sections)
        (exec config (Access.worker call now).sections (reached config accesses)) := by
    rw [reached,List.flatMap_append,List.flatMap_cons,exec_append,exec_append,reached]
  rw [perform_eq_call]
  generalize reached config accesses = state at later ⊢
  cases made : call.request with
  | none =>
    refine ⟨[],?_⟩
    rw [later,Access.sections,made]
    rfl
  | some request =>
    have written := request.write_state config now state
    have first : exec config (Access.worker call now).sections state =
        (request.write config now state).2 := by
      rw [written,Access.sections,made]
      rfl
    rw [Option.map_some,Option.getD_some,request.call_eq_serve,Request.serve]
    rcases outcome : request.write config now state with ⟨error | key,next⟩
    · exact ⟨[],by rw [later,first,outcome]; rfl⟩
    · exact ⟨[.other (.dispatchPending now) rfl],by rw [later,first,outcome]; rfl⟩

/-- A worker's numbers as gRPC shows them are the stored ones. -/
def Shows (node : Node) (status : WorkerStatus) : Prop :=
  (status.capacity.toNat : Int) = node.capacity.toInt ∧
    (status.runningTasks.toNat : Int) = node.runningTasks.toInt

def Fits (node : Node) : Prop := node.capacity.toInt < 2^32 ∧ node.runningTasks.toInt < 2^32

/-- The two overviews of a state have the same numbers. -/
structure Agrees (stored : StatusResponse) (shown : ClusterOverview) : Prop where
  workers : List.Forall₂ Shows stored.workers shown.workers
  totalWorkers : shown.totalWorkers.toNat = stored.totalWorkers
  activeWorkers : shown.activeWorkers.toNat = stored.activeWorkers
  pendingTasks : shown.pendingTasks.toNat = stored.pendingTasks
  runningTasks : shown.runningTasks.toNat = stored.runningTasks
  completedTasks : shown.completedTasks.toNat = stored.completedTasks

structure OverviewFits (stored : StatusResponse) : Prop where
  workers : ∀ node ∈ stored.workers, Fits node
  totalWorkers : stored.totalWorkers < 2^32
  activeWorkers : stored.activeWorkers < 2^32
  pendingTasks : stored.pendingTasks < 2^32
  runningTasks : stored.runningTasks < 2^32
  completedTasks : stored.completedTasks < 2^32

theorem shows_toWorkerStatus_iff {id : Bytes} {node : Node} (sound : node.Sound id) :
    Shows node (toWorkerStatus node) ↔ Fits node := by
  have capacity := Counter.pos_iff.mp sound.capacity
  have running := Counter.nonneg_iff.mp sound.running
  simp only [Shows,Fits,toWorkerStatus,Counter.toUInt32_exact_iff]
  omega

theorem ofNat_exact_iff (count : Nat) : (UInt32.ofNat count).toNat = count ↔ count < 2^32 := by
  rw [UInt32.toNat_ofNat']
  omega

theorem agrees_iff (stored : StatusResponse) (sound : ∀ node ∈ stored.workers, node.Sound node.id) :
    Agrees stored (toClusterOverview stored) ↔ OverviewFits stored := by
  have workers : List.Forall₂ Shows stored.workers (toClusterOverview stored).workers ↔
      ∀ node ∈ stored.workers, Fits node := by
    rw [toClusterOverview,List.forall₂_map_right_iff,List.forall₂_same]
    exact forall₂_congr (fun node member => shows_toWorkerStatus_iff (sound node member))
  constructor
  · intro agrees
    exact ⟨workers.mp agrees.workers,(ofNat_exact_iff _).mp agrees.totalWorkers,
      (ofNat_exact_iff _).mp agrees.activeWorkers,(ofNat_exact_iff _).mp agrees.pendingTasks,
      (ofNat_exact_iff _).mp agrees.runningTasks,(ofNat_exact_iff _).mp agrees.completedTasks⟩
  · intro fits
    exact ⟨workers.mpr fits.workers,(ofNat_exact_iff _).mpr fits.totalWorkers,
      (ofNat_exact_iff _).mpr fits.activeWorkers,(ofNat_exact_iff _).mpr fits.pendingTasks,
      (ofNat_exact_iff _).mpr fits.runningTasks,(ofNat_exact_iff _).mpr fits.completedTasks⟩

theorem mem_overview_workers {config : Config} {now : Time} {state : State} {node : Node}
    (member : node ∈ (overview config now state).1.workers) :
    ∃ id stored, state.nodes.lookup id = some stored ∧
      node = refreshed config.offlineAfter now stored := by
  have value := (List.mem_insertionSort _).mp member
  obtain ⟨id,found⟩ := (Table.mem_values_iff _ _).mp value
  simp only [refreshNodeStatesLocked,Table.lookup_mapValues,Option.map_eq_some_iff] at found
  obtain ⟨stored,lookup,rfl⟩ := found
  exact ⟨id,stored,lookup,rfl⟩

def SectionNarrow : Section → Prop
  | .register req _ => req.capacity.toInt < 2^32
  | .heartbeat req _ => req.runningTasks.toInt < 2^32
  | _ => True

theorem widened_lt (number : UInt32) : number.toUInt64.toInt64.toInt < 2^32 := by
  have bits : number.toUInt64.toInt64.toInt = number.toUInt64.toBitVec.toInt := rfl
  have same : number.toUInt64.toBitVec.toNat = number.toNat := UInt32.toNat_toUInt64 number
  have below := number.toNat_lt
  rw [bits,BitVec.toInt_eq_toNat_cond,same]
  split <;> omega

/-- A call over gRPC cannot bring a number of more than 32 bits. -/
theorem Access.Narrow.sections {access : Access} (narrow : access.Narrow) {step : Section}
    (member : step ∈ access.sections) : SectionNarrow step := by
  cases access with
  | other other silent =>
    cases List.mem_singleton.mp member
    cases step with
    | register | heartbeat => cases silent
    | submit | complete | dispatchPending | refreshNodeStates | refresh | overview => trivial
  | worker call now =>
    obtain ⟨request,made,rfl⟩ := Option.map_eq_some_iff.mp (Option.mem_toList.mp member)
    cases call with
    | httpRegister body =>
      obtain ⟨req,decoded,rfl⟩ := Option.map_eq_some_iff.mp made
      exact narrow req decoded
    | httpHeartbeat body =>
      obtain ⟨req,decoded,rfl⟩ := Option.map_eq_some_iff.mp made
      exact narrow req decoded
    | grpcRegister worker =>
      obtain ⟨worker,_,rfl⟩ := Option.map_eq_some_iff.mp made
      exact widened_lt worker.capacity
    | grpcHeartbeat req =>
      cases made
      exact widened_lt req.runningTasks

def StoreFits (state : State) : Prop := ∀ id node, state.nodes.lookup id = some node → Fits node

theorem registered_fits {config : Config} {req : RegisterNodeRequest} {now : Time} {node : Node}
    (narrow : req.capacity.toInt < 2^32) (fits : Fits node) :
    Fits (registered config req now node) := by
  refine ⟨?_,fits.2⟩
  change (effectiveCapacity req).toInt < 2^32
  unfold effectiveCapacity
  split
  next => decide
  next => exact narrow

theorem beaten_fits {config : Config} {req : Scheduler.HeartbeatRequest} {now : Time} {node : Node}
    (narrow : req.runningTasks.toInt < 2^32) (fits : Fits node) :
    Fits (beaten config req now node) := by
  refine ⟨fits.1,?_⟩
  change (if req.runningTasks < 0 then 0 else req.runningTasks).toInt < 2^32
  split
  next => decide
  next => exact narrow

theorem released_fits {node : Node} (fits : Fits node) : Fits (released node) := by
  unfold released
  split
  next positive =>
    refine ⟨fits.1,?_⟩
    have lowered := Counter.toInt_pred positive
    have below := fits.2
    change (node.runningTasks - 1).toInt < 2^32
    omega
  next => exact fits

/-- A node is chosen below its capacity, so its counter stays within it. -/
theorem occupied_fits (config : Config) (now : Time) {id : Bytes} {node : Node} (sound : node.Sound id)
    (free : eligible node = true) (fits : Fits node) : Fits (occupied config now node) := by
  refine ⟨fits.1,?_⟩
  have below := eligible_below sound free
  have raised := Counter.toInt_succ below
  have room := Int64.lt_iff_toInt_lt.mp below
  have capacity := fits.1
  change (node.runningTasks + 1).toInt < 2^32
  omega

theorem change_fits {config : Config} {step : Section} {state next : State}
    (narrow : SectionNarrow step) (formed : WellFormed state) (fits : StoreFits state)
    (change : Change config step state next) :
    StoreFits next := by
  cases change with
  | register req now _ named =>
    have admittedFits : StoreFits (admitted req.id state) :=
      admitted_forall req.id fits (fun _ => by simp [Fits,freshNode])
    exact Table.modify_forall _ _ _ (fun _ => Fits) admittedFits (fun _ _ => registered_fits narrow)
  | heartbeat req now _ node found =>
    exact Table.modify_forall _ _ _ (fun _ => Fits) fits (fun _ _ => beaten_fits narrow)
  | submit | complete => exact fits
  | refresh _ offlineAfter now =>
    exact Table.mapValues_forall _ _ (fun _ => Fits) fits (fun _ _ before => before)
  | release taskID req now _ task found running owned =>
    exact Table.modify_forall _ _ _ (fun _ => Fits) fits (fun _ _ => released_fits)
  | assign now _ taskKey nodeKey task node index found pending chosen free bounds =>
    refine Table.modify_forall _ _ _ (fun _ => Fits) fits ?_
    intro other lookup before
    have same : other = node := Option.some.inj (lookup.symm.trans chosen)
    exact occupied_fits config now (formed.node nodeKey other lookup) (same ▸ free) before

theorem exec_fits (config : Config) (sections : List Section)
    (narrow : ∀ step ∈ sections, SectionNarrow step) :
    StoreFits (exec config sections newMemoryStore) := by
  have both := exec_invariant config (fun state => WellFormed state ∧ StoreFits state) sections
    newMemoryStore
    ⟨newMemoryStore_wellFormed,by intro id node found; cases found⟩ ?_
  · exact both.2
  · intro step member state next before change
    exact ⟨change_wellFormed config step state next before.1 change,
      change_fits (narrow step member) before.1 before.2 change⟩

def registeredID : Section → Option Bytes
  | .register req _ => some req.id
  | _ => none

def registeredIDs (sections : List Section) : List Bytes := sections.filterMap registeredID

theorem exec_nodeOrder_length (config : Config) (sections : List Section) :
    (exec config sections newMemoryStore).nodeOrder.length ≤ (registeredIDs sections).length := by
  have known : (exec config sections newMemoryStore).nodeOrder ⊆ registeredIDs sections := by
    refine exec_invariant config (fun state => state.nodeOrder ⊆ registeredIDs sections) sections
      newMemoryStore (List.nil_subset _) ?_
    intro step member state next before change
    cases change with
    | register req now =>
      have here : req.id ∈ registeredIDs sections := List.mem_filterMap.mpr ⟨_,member,rfl⟩
      simp only [admitted]
      split
      next => exact before
      next => exact List.append_subset.mpr ⟨before,by simpa using here⟩
    | heartbeat | submit | release | complete | refresh | assign => exact before
  have distinct : (exec config sections newMemoryStore).nodeOrder.Nodup :=
    (node_table config sections).1
  exact (List.subperm_of_subset distinct known).length_le

/-- Fewer than 2^32 registrations and submissions keep the counts of an overview narrow. -/
theorem overview_fits (config : Config) (sections : List Section) (now : Time)
    (narrow : ∀ step ∈ sections, SectionNarrow step) (fewNodes : (registeredIDs sections).length < 2^32)
    (fewTasks : submissions sections < 2^32) :
    OverviewFits (overview config now (exec config sections newMemoryStore)).1 := by
  have formed := exec_wellFormed config sections
  have nodes : (overview config now (exec config sections newMemoryStore)).1.totalWorkers < 2^32 := by
    have listed := formed.order.length_eq
    have bound := exec_nodeOrder_length config sections
    have counted : (overview config now (exec config sections newMemoryStore)).1.totalWorkers =
        (exec config sections newMemoryStore).nodes.keys.length := by
      simp [overview,refreshNodeStatesLocked,Table.values,Table.mapValues,Table.mapEntries,
        AList.keys,List.keys]
    omega
  have tasks (p : Task → Bool) : (exec config sections newMemoryStore).tasks.values.countP
      p < 2^32 := by
    have keys := (exec_taskKeys config sections (by omega)).length_eq
    have size : (exec config sections newMemoryStore).tasks.values.length =
        (exec config sections newMemoryStore).tasks.keys.length := by
      simp [Table.values,AList.keys,List.keys]
    have issued : (issuedIDs (submissions sections)).length = submissions sections := by
      simp [issuedIDs]
    have count : (exec config sections newMemoryStore).tasks.values.countP p ≤ _ :=
      List.countP_le_length
    omega
  refine ⟨fun node member => ?_,nodes,?_,tasks _,tasks _,tasks _⟩
  · obtain ⟨id,stored,lookup,rfl⟩ := mem_overview_workers member
    exact exec_fits config sections narrow id stored lookup
  · have active : (overview config now (exec config sections newMemoryStore)).1.activeWorkers ≤
        (overview config now (exec config sections newMemoryStore)).1.totalWorkers :=
          List.countP_le_length
    omega

/-- In every state that calls over the two front ends reach, a worker's status and the
overview are exact over gRPC exactly where the stored numbers have 32 bits. They have if
every number received over HTTP does and the store stays below 2^32 nodes and tasks. -/
theorem grpc_numbers_exact_iff (config : Config) (accesses : List Access) (now : Time) :
    let state := reached config accesses
    let stored := (handleStatus config now state).1
    let shown := (getClusterOverview config now state).1
    (∀ id node, state.nodes.lookup id = some node →
      (Shows node (toWorkerStatus node) ↔ Fits node)) ∧
    (Agrees stored shown ↔ OverviewFits stored) ∧
    ((∀ access ∈ accesses, access.Narrow) →
      (∀ id node, state.nodes.lookup id = some node → Shows node (toWorkerStatus node)) ∧
      ((registeredIDs (accesses.flatMap Access.sections)).length < 2^32 →
        submissions (accesses.flatMap Access.sections) < 2^32 → Agrees stored shown)) := by
  intro state stored shown
  have formed : WellFormed state := exec_wellFormed config _
  have worker (id : Bytes) (node : Node) (found : state.nodes.lookup id = some node) :
      Shows node (toWorkerStatus node) ↔ Fits node :=
        shows_toWorkerStatus_iff (formed.node id node found)
  have agrees : Agrees stored shown ↔ OverviewFits stored := by
    refine agrees_iff stored (fun node member => ?_)
    obtain ⟨id,before,lookup,rfl⟩ := mem_overview_workers member
    have sound := refreshed_sound config.offlineAfter now (formed.node id before lookup)
    exact sound.key.symm ▸ sound
  refine ⟨worker,agrees,fun narrow => ?_⟩
  have steps (step : Section) (member : step ∈ accesses.flatMap Access.sections) :
      SectionNarrow step := by
    obtain ⟨access,inside,member⟩ := List.mem_flatMap.mp member
    exact (narrow access inside).sections member
  refine ⟨fun id node found => (worker id node found).mpr (exec_fits config _ steps id node found),?_⟩
  intro fewNodes fewTasks
  exact agrees.mpr (overview_fits config _ now steps fewNodes fewTasks)

/-- A worker that registers over HTTP and sends a heartbeat over gRPC. -/
def narrowAccesses : List Access :=
  [.worker (.httpRegister (utf8 "\x7b\"id\":\"w1\",\"address\":\"a\",\"capacity\":4\x7d")) 2,
    .other (.dispatchPending 2) rfl,.worker (.grpcHeartbeat ⟨utf8 "w1",3,none⟩) 3]

theorem grpc_numbers_exact_iff_narrow :
    (handleStatus defaultConfig 4 (reached defaultConfig narrowAccesses)).1.workers.map
      (fun node => (node.capacity,node.runningTasks)) = [(4,3)] ∧
    Agrees (handleStatus defaultConfig 4 (reached defaultConfig narrowAccesses)).1
      (getClusterOverview defaultConfig 4 (reached defaultConfig narrowAccesses)).1 := by
  refine ⟨by decide +kernel,?_⟩
  refine ((grpc_numbers_exact_iff defaultConfig narrowAccesses 4).2.2 ?_).2 (by decide +kernel)
    (by decide +kernel)
  simp only [narrowAccesses,List.forall_mem_cons,Access.Narrow,NodeCall.Narrow]
  exact ⟨by decide +kernel,trivial,trivial,by simp⟩

/-- A capacity of 2^32 + 1 registered over HTTP is a capacity of 1 over gRPC. -/
def wideAccesses : List Access :=
  [.worker (.httpRegister (utf8 "\x7b\"id\":\"w1\",\"address\":\"a\",\"capacity\":4294967297\x7d")) 2]

theorem wide_capacity_truncated :
    (handleStatus defaultConfig 2 (reached defaultConfig wideAccesses)).1.workers.map (·.capacity) =
      [4294967297] ∧
    (getClusterOverview defaultConfig 2 (reached defaultConfig wideAccesses)).1.workers.map
      (·.capacity) = [1] := by
  decide +kernel

end FrontEnds
end RdmaPlatform.Scheduler
