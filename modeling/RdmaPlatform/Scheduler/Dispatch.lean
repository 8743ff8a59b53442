import RdmaPlatform.Scheduler.Model
import Mathlib.Data.List.Sort

/-! Node selection and task assignment: `internal/scheduler`. Selection scans the
registration order once from a rotating start; assignment writes through the
task and node pointers; dispatch assigns pending tasks in creation order until
the first one that finds no node. -/
namespace RdmaPlatform.Scheduler
open Library

/-- A node ranking; a nil node is `none`. Negative prefers the left node. -/
structure Strategy where
  compare : Option Node → Option Node → Int

structure NodeLoadSnapshot where
  runningTasks : Int64
  capacity : Int64
  available : Int64

def snapshotNodeLoad (node : Option Node) : NodeLoadSnapshot :=
  match node with
  | none => ⟨0,1,0⟩
  | some node =>
    let runningTasks := if node.runningTasks < 0 then 0 else node.runningTasks
    let capacity := if node.capacity ≤ 0 then 1 else node.capacity
    let available := capacity - runningTasks
    ⟨runningTasks,capacity,if available < 0 then 0 else available⟩

def compareAscending (left right : Int64) : Int :=
  if left < right then -1 else if left > right then 1 else 0

def compareDescending (left right : Int64) : Int := compareAscending right left

/-- Cross-multiplied ratios in 64-bit arithmetic. -/
def compareLoadRatio (left right : NodeLoadSnapshot) : Int :=
  let leftValue := left.runningTasks * right.capacity
  let rightValue := right.runningTasks * left.capacity
  if leftValue < rightValue then -1 else if leftValue > rightValue then 1 else 0

def leastLoadedStrategy : Strategy where
  compare left right :=
    match left, right with
    | none, none => 0
    | none, some _ => 1
    | some _, none => -1
    | some left, some right =>
      let leftLoad := snapshotNodeLoad (some left)
      let rightLoad := snapshotNodeLoad (some right)
      let ratio := compareLoadRatio leftLoad rightLoad
      let available := compareDescending leftLoad.available rightLoad.available
      let running := compareAscending leftLoad.runningTasks rightLoad.runningTasks
      if ratio ≠ 0 then ratio
      else if available ≠ 0 then available
      else if running ≠ 0 then running
      else 0

/-- `scheduler.Scheduler` and `registry.Registry` without the shared store. -/
structure Config where
  strategy : Option Strategy
  offlineAfter : Duration
  registryOfflineAfter : Duration

def Config.effectiveStrategy (config : Config) : Strategy := config.strategy.getD leastLoadedStrategy

def nodeAt (state : State) (index : Int) : Option (Bytes × Node) := do
  let key ← state.nodeOrder[index.toNat]?
  let node ← state.nodes.lookup key
  return (key,node)

/-- The two `continue` tests of the scan, negated. -/
def eligible (node : Node) : Bool :=
  node.status ≠ .offline && !(node.capacity > 0 && node.runningTasks ≥ node.capacity)

def scan (strategy : Strategy) (state : State) (start : Int)
    (best : Option (Int × Node)) (offset : Nat) : Option (Int × Node) :=
  let index := (start + offset).tmod state.nodeOrder.length
  match nodeAt state index with
  | none => best
  | some (_,node) =>
    if eligible node then
      match best with
      | none => some (index,node)
      | some (_,incumbent) =>
        if strategy.compare (some node) (some incumbent) < 0 then some (index,node) else best
    else best

def selectNodeLocked (config : Config) (state : State) : Option (Bytes × State) :=
  let size : Int := state.nodeOrder.length
  if state.nodeOrder.length = 0 then none
  else
    let start := state.nextNodeIndex.tmod size
    match (List.range state.nodeOrder.length).foldl
      (scan config.effectiveStrategy state start) none with
    | none => none
    | some (bestIndex,_) =>
      (nodeAt state bestIndex).map (fun chosen =>
        (chosen.1,{state with nextNodeIndex := (bestIndex + 1).tmod size}))

def assigned (node : Node) (now : Time) (task : Task) : Task :=
  {task with
    assignedWorker := node.id
    status := .running
    message := utf8 "assigned to worker"
    startedAt := some now}

def occupied (config : Config) (now : Time) (node : Node) : Node :=
  let node := {node with runningTasks := node.runningTasks + 1}
  {node with status := deriveNodeState (some node) now config.offlineAfter}

/-- `none` is the `false` result, which leaves the state as it was. -/
def assignTaskLocked (config : Config) (state : State) (taskKey : Bytes) (now : Time) :
    Option State := do
  let task ← state.tasks.lookup taskKey
  if task.status ≠ .pending then none
  else
    let (nodeKey,selected) ← selectNodeLocked config state
    let node ← selected.nodes.lookup nodeKey
    return {selected with
      tasks := selected.tasks.modify taskKey (assigned node now)
      nodes := selected.nodes.modify nodeKey (occupied config now)}

def earlier (left right : Task) : Prop :=
  if left.createdAt = right.createdAt then left.id < right.id else left.createdAt < right.createdAt

instance (left right : Task) : Decidable (earlier left right) := by
  unfold earlier; infer_instance

def pendingTasks (state : State) : List ((_ : Bytes) × Task) :=
  (state.tasks.entries.filter (fun e => e.2.status = .pending)).insertionSort
    (fun left right => ¬ earlier right.2 left.2)

def assignAll (config : Config) (now : Time) : List Bytes → State → State
  | [], state => state
  | key::rest, state =>
    match assignTaskLocked config state key now with
    | none => state
    | some next => assignAll config now rest next

def dispatchPendingLocked (config : Config) (state : State) (now : Time) : State :=
  assignAll config now ((pendingTasks state).map (·.1)) state

def refreshed (offlineAfter : Duration) (now : Time) (node : Node) : Node :=
  {node with status := deriveNodeState (some node) now offlineAfter}

def refreshNodeStatesLocked (config : Config) (state : State) (now : Time) : State :=
  {state with nodes := state.nodes.mapValues (refreshed config.offlineAfter now)}

def dispatchPending (config : Config) (now : Time) (state : State) : State :=
  dispatchPendingLocked config (refreshNodeStatesLocked config state now) now

def refreshNodeStates (config : Config) (now : Time) (state : State) : State :=
  refreshNodeStatesLocked config state now

def overview (config : Config) (now : Time) (state : State) : StatusResponse × State :=
  let state := refreshNodeStatesLocked config state now
  let nodes := state.nodes.values
  let tasks := state.tasks.values
  ({generatedAt := now
    totalWorkers := nodes.length
    activeWorkers := nodes.countP (fun node => node.status ≠ .offline)
    pendingTasks := tasks.countP (fun task => task.status = .pending)
    runningTasks := tasks.countP (fun task => task.status = .running)
    completedTasks := tasks.countP (fun task => task.status = .completed)
    workers := nodes.insertionSort (fun left right => ¬ right.id < left.id)
    tasks := (tasks.map cloneTask).insertionSort (fun left right => ¬ earlier right left)},state)

end RdmaPlatform.Scheduler
