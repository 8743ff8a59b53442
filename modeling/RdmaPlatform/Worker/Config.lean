import RdmaPlatform.Worker.Transport
import RdmaPlatform.Library.Trim

/-! The configuration of the worker: `loadConfig` of `worker_node.cpp`, with the two places
that use the port it reads. A file is read line by line into a copy of the configuration,
which replaces the configuration once every line and every value was accepted. -/
namespace RdmaPlatform.Worker
open Library

structure WorkerConfig where
  workerID : Bytes
  listenPort : Int32
  schedulerAddr : Bytes
  heartbeatInterval : Int32
  threads : Int32
  deriving DecidableEq

def WorkerConfig.default : WorkerConfig := ⟨utf8 "worker-1",9001,utf8 "127.0.0.1:8080",5,4⟩

def colon : UInt8 := 58
def numberSign : UInt8 := 35

/-- The characters that `trim` removes. -/
def isBlank (byte : UInt8) : Bool := byte = 32 ∨ byte = 9 ∨ byte = 13 ∨ byte = 10

def trim (value : Bytes) : Bytes := Library.trim isBlank value

/-- The characters that `strtol` skips. -/
def isSpace (byte : UInt8) : Bool := byte = 32 ∨ 9 ≤ byte ∧ byte ≤ 13

def isDigit (byte : UInt8) : Bool := Decimal.IsDigit byte

/-- `std::stoi`: the number and the count of characters it was read from, or an exception. -/
def stoi (text : Bytes) : Option (Int32 × Nat) :=
  let (negative,unsigned) := match text.dropWhile isSpace with
    | 45::rest => (true,rest)
    | 43::rest => (false,rest)
    | rest => (false,rest)
  let digits := unsigned.takeWhile isDigit
  let magnitude : Int := Decimal.value digits
  let number := if negative then -magnitude else magnitude
  if digits ≠ [] ∧ -2^31 ≤ number ∧ number < 2^31 then
    some (Int32.ofInt number,text.length - (unsigned.dropWhile isDigit).length)
  else none

def parseInt (text : Bytes) : Option Int32 :=
  match stoi text with
  | none => none
  | some (parsed,index) => if index = text.length then some parsed else none

inductive Field where
  | workerID
  | listenPort
  | schedulerAddr
  | heartbeatInterval
  | threads
  deriving DecidableEq

def Field.name : Field → Bytes
  | .workerID => utf8 "worker_id"
  | .listenPort => utf8 "listen_port"
  | .schedulerAddr => utf8 "scheduler_addr"
  | .heartbeatInterval => utf8 "heartbeat_interval"
  | .threads => utf8 "threads"

/-- The branch of the `if` chain that takes a key. -/
def Field.ofKey (key : Bytes) : Option Field :=
  if key = Field.workerID.name then some .workerID
  else if key = Field.listenPort.name then some .listenPort
  else if key = Field.schedulerAddr.name then some .schedulerAddr
  else if key = Field.heartbeatInterval.name then some .heartbeatInterval
  else if key = Field.threads.name then some .threads
  else none

def Field.readInt (field : Field) (value : Bytes) : Except Bytes Int32 :=
  match parseInt value with
  | none => .error (utf8 "invalid " ++ field.name ++ utf8 ": " ++ value)
  | some number => .ok number

/-- The assignment in the branch; an error is the line that is logged before `return false`. -/
def Field.assign (field : Field) (value : Bytes) (loaded : WorkerConfig) : Except Bytes WorkerConfig :=
  match field with
  | .workerID => .ok {loaded with workerID := value}
  | .listenPort => (field.readInt value).map (fun number => {loaded with listenPort := number})
  | .schedulerAddr => .ok {loaded with schedulerAddr := value}
  | .heartbeatInterval =>
    (field.readInt value).map (fun number => {loaded with heartbeatInterval := number})
  | .threads => (field.readInt value).map (fun number => {loaded with threads := number})

def beforeComment (line : Bytes) : Bytes := ((cut numberSign line).map Prod.fst).getD line

/-- The key and the value of a line; a line that is empty without its comment has none. -/
def parseLine (line : Bytes) : Except Bytes (Option (Bytes × Bytes)) :=
  let line := trim (beforeComment line)
  if line = [] then .ok none
  else
    match cut colon line with
    | none => .error (utf8 "invalid config line: " ++ line)
    | some (key,value) => .ok (some (trim key,trim value))

/-- One round of the loop. -/
def loadLine (loaded : WorkerConfig) (line : Bytes) : Except Bytes WorkerConfig := do
  match ← parseLine line with
  | none => return loaded
  | some (key,value) =>
    match Field.ofKey key with
    | none => return loaded
    | some field => field.assign value loaded

def checkLoaded (loaded : WorkerConfig) : Except Bytes Unit :=
  if loaded.workerID = [] then .error (utf8 "config worker_id is empty")
  else if loaded.listenPort ≤ 0 then .error (utf8 "config listen_port must be greater than zero")
  else if loaded.schedulerAddr = [] then .error (utf8 "config scheduler_addr is empty")
  else if loaded.heartbeatInterval ≤ 0 then
    .error (utf8 "config heartbeat_interval must be greater than zero")
  else if loaded.threads ≤ 0 then .error (utf8 "config threads must be greater than zero")
  else .ok ()

def readConfig (content : Bytes) (config : WorkerConfig) : Except Bytes WorkerConfig := do
  let loaded ← (lines newline content).foldlM loadLine config
  checkLoaded loaded
  return loaded

/-- The result, which is `true` where there is no error, and `config_` after the call. The
file is `none` if it cannot be opened. -/
def loadConfig (path : Bytes) (file : Option Bytes) (config : WorkerConfig) :
    Except Bytes Unit × WorkerConfig :=
  match file with
  | none => (.error (utf8 "open config failed: " ++ path),config)
  | some content =>
    match readConfig content config with
    | .error text => (.error text,config)
    | .ok loaded => (.ok (),loaded)

/-- What a loaded configuration has been checked for. -/
structure WorkerConfig.Valid (config : WorkerConfig) : Prop where
  workerID : config.workerID ≠ []
  listenPort : 0 < config.listenPort
  schedulerAddr : config.schedulerAddr ≠ []
  heartbeatInterval : 0 < config.heartbeatInterval
  threads : 0 < config.threads

theorem valid_of_checkLoaded {loaded : WorkerConfig} (passed : checkLoaded loaded = .ok ()) :
    loaded.Valid := by
  unfold checkLoaded at passed
  split at passed
  next => cases passed
  next workerID =>
    split at passed
    next => cases passed
    next listenPort =>
      split at passed
      next => cases passed
      next schedulerAddr =>
        split at passed
        next => cases passed
        next heartbeatInterval =>
          split at passed
          next => cases passed
          next threads =>
            exact ⟨workerID,Int32.not_le.mp listenPort,schedulerAddr,Int32.not_le.mp heartbeatInterval,
              Int32.not_le.mp threads⟩

theorem readConfig_valid {content : Bytes} {config loaded : WorkerConfig}
    (accepted : readConfig content config = .ok loaded) : loaded.Valid := by
  unfold readConfig at accepted
  cases read : (lines newline content).foldlM loadLine config with
  | error text =>
    rw [read] at accepted
    cases accepted
  | ok result =>
    rw [read] at accepted
    cases passed : checkLoaded result with
    | error text =>
      simp only [bind,Except.bind,passed] at accepted
      cases accepted
    | ok _ =>
      simp only [bind,Except.bind,passed] at accepted
      cases accepted
      exact valid_of_checkLoaded passed

/-- A failed load leaves the configuration as it was, a successful one leaves a valid one. -/
theorem loadConfig_cases (path : Bytes) (file : Option Bytes) (config : WorkerConfig) :
    (∃ text, loadConfig path file config = (.error text,config)) ∨
    ∃ loaded, loadConfig path file config = (.ok (),loaded) ∧ loaded.Valid := by
  cases file with
  | none => exact .inl ⟨_,rfl⟩
  | some content =>
    cases read : readConfig content config with
    | error text => exact .inl ⟨text,by simp only [loadConfig,read]⟩
    | ok loaded => exact .inr ⟨loaded,by simp only [loadConfig,read],readConfig_valid read⟩

def workerAddress (config : WorkerConfig) : Bytes :=
  utf8 "127.0.0.1:" ++ Decimal.signed config.listenPort.toInt

/-- The port that `TcpTransport::start` asks `bind` for, in the order of the host. -/
def requestedPort (port : Int32) : UInt16 := port.toUInt32.toUInt16

/-- The port that the socket then has: for port 0 it is one that the system chooses. -/
def boundPort (chosen : UInt16) (port : Int32) : UInt16 :=
  if requestedPort port = 0 then chosen else requestedPort port

/-- The port that a dialer reads in an address. -/
def addressPort (address : Bytes) : Option Nat :=
  (cut colon address).map (fun parts => Decimal.value parts.2)

theorem addressPort_workerAddress {config : WorkerConfig} (positive : 0 < config.listenPort) :
    addressPort (workerAddress config) = some config.listenPort.toInt.toNat := by
  have above : 0 < config.listenPort.toInt := Int32.lt_iff_toInt_lt.mp positive
  have host : cut colon (utf8 "127.0.0.1" ++ colon::Decimal.decimal config.listenPort.toInt.natAbs) =
      some (utf8 "127.0.0.1",Decimal.decimal config.listenPort.toInt.natAbs) :=
    cut_append colon _ _ (by decide)
  have text : workerAddress config = utf8 "127.0.0.1" ++
      colon::Decimal.decimal config.listenPort.toInt.natAbs := by
    rw [workerAddress,Decimal.signed,if_neg (Int.not_lt.mpr above.le)]
    rfl
  have magnitude : config.listenPort.toInt.natAbs = config.listenPort.toInt.toNat := by omega
  rw [addressPort,text,host,Option.map_some,Decimal.value_decimal,magnitude]

theorem requestedPort_toNat {port : Int32} (positive : 0 < port) :
    (requestedPort port).toNat = port.toInt.toNat % 2^16 := by
  have above : 0 < port.toInt := Int32.lt_iff_toInt_lt.mp positive
  have unsigned : port.toUInt32.toNat = port.toInt.toNat := by
    have bits : port.toInt = port.toBitVec.toInt := rfl
    have same : port.toUInt32.toNat = port.toBitVec.toNat := rfl
    rw [bits,BitVec.toInt_eq_toNat_cond] at above ⊢
    rw [same]
    split at above <;> omega
  rw [requestedPort,UInt32.toNat_toUInt16,unsigned]

/-- A port of 16 bits is bound as it is; no other port is, whatever the system chooses. -/
theorem boundPort_eq_iff (chosen : UInt16) {port : Int32} (positive : 0 < port) :
    (boundPort chosen port).toNat = port.toInt.toNat ↔ port ≤ 65535 := by
  have above : 0 < port.toInt := Int32.lt_iff_toInt_lt.mp positive
  have narrow : port ≤ 65535 ↔ port.toInt.toNat < 2^16 := by
    have limit : (65535 : Int32).toInt = 65535 := rfl
    rw [Int32.le_iff_toInt_le,limit]
    omega
  have requested := requestedPort_toNat positive
  have below := (boundPort chosen port).toNat_lt
  rw [narrow]
  constructor
  · omega
  · intro small
    have some_ : requestedPort port ≠ 0 := by
      rw [ne_eq,← UInt16.toNat_inj,requested,UInt16.toNat_zero]
      omega
    rw [boundPort,if_neg some_,requested]
    omega

/-- The port in the address that an accepted configuration announces is the one that the
worker binds, whatever the system chooses for port 0, exactly if it is at most 65535. -/
theorem announced_port_bound_iff (path : Bytes) (file : Option Bytes) (config loaded : WorkerConfig)
    (chosen : UInt16) (accepted : loadConfig path file config = (.ok (),loaded)) :
    addressPort (workerAddress loaded) = some (boundPort chosen loaded.listenPort).toNat ↔
      loaded.listenPort ≤ 65535 := by
  have valid : loaded.Valid := by
    rcases loadConfig_cases path file config with ⟨text,refused⟩ | ⟨other,same,valid⟩
    · rw [accepted] at refused
      cases refused
    · rw [accepted] at same
      cases same
      exact valid
  rw [addressPort_workerAddress valid.listenPort,Option.some.injEq,eq_comm]
  exact boundPort_eq_iff chosen valid.listenPort

theorem announced_port_bound_iff_default :
    addressPort (workerAddress .default) = some (boundPort 0 WorkerConfig.default.listenPort).toNat :=
  (announced_port_bound_iff (utf8 "worker.yaml") (some []) .default .default 0 rfl).mpr (by decide)

/-- A port above 65535 is accepted: the worker registers 127.0.0.1:70000 and listens on 4464. -/
theorem wide_port_bound_elsewhere :
    ∃ loaded, loadConfig (utf8 "worker.yaml") (some (utf8 "listen_port: 70000\n")) .default =
        (.ok (),loaded) ∧
      workerAddress loaded = utf8 "127.0.0.1:70000" ∧
      addressPort (workerAddress loaded) = some 70000 ∧
      ∀ chosen, boundPort chosen loaded.listenPort = 4464 := by
  refine ⟨{WorkerConfig.default with listenPort := 70000},?_,?_,?_,fun chosen => ?_⟩
  · decide +kernel
  · decide +kernel
  · decide +kernel
  · exact if_neg (by decide)

end RdmaPlatform.Worker
