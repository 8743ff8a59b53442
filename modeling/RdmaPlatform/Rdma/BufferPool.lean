import RdmaPlatform.Rdma.Registry
import RdmaPlatform.Library.Leasing
import RdmaPlatform.Library.Transition

/-! The pool of registered buffers: `buffer_pool.cpp`. It hands out the keys of a free
list and registers another buffer when the list is empty. The run of a pool is watched:
the keys that were acquired and not released since, and the most of them at once. -/
namespace RdmaPlatform.Rdma
open Library

structure BufferPoolConfig where
  buffers : Nat
  bufferSize : Nat

/-- `knownKeys` is a set, kept without duplicates. -/
structure BufferPool where
  config : BufferPoolConfig
  freeKeys : List Bytes
  knownKeys : List Bytes

namespace BufferPool

def insertKey (key : Bytes) (keys : List Bytes) : List Bytes := if key ∈ keys then keys else key::keys

/-- One round of the loop in the constructor. -/
def addBuffer (state : BufferPool × MemoryRegistry) : BufferPool × MemoryRegistry :=
  let (region,registry) := state.2.registerSize state.1.config.bufferSize
  ({state.1 with
    freeKeys := state.1.freeKeys ++ [region.key]
    knownKeys := insertKey region.key state.1.knownKeys},registry)

def new (config : BufferPoolConfig) (registry : MemoryRegistry) : BufferPool × MemoryRegistry :=
  (List.range config.buffers).foldl (fun state _ => addBuffer state) (⟨config,[],[]⟩,registry)

/-- A failed lookup leaves the pool without the key. -/
def acquire (pool : BufferPool) (registry : MemoryRegistry) :
    Except Bytes MemoryRegion × BufferPool × MemoryRegistry :=
  match pool.freeKeys with
  | [] =>
    let (region,registry) := registry.registerSize pool.config.bufferSize
    (.ok region,{pool with knownKeys := insertKey region.key pool.knownKeys},registry)
  | key::rest =>
    match registry.lookup key with
    | .error text => (.error text,{pool with freeKeys := rest},registry)
    | .ok region =>
      if region.storage ≠ none ∧ region.size ≠ pool.config.bufferSize then
        (.ok (region.write (resizeBuffer pool.config.bufferSize)),{pool with freeKeys := rest},
          registry.write key (resizeBuffer pool.config.bufferSize))
      else (.ok region,{pool with freeKeys := rest},registry)

def release (pool : BufferPool) (key : Bytes) (registry : MemoryRegistry) :
    Except Bytes Unit × BufferPool × MemoryRegistry :=
  if key ∉ pool.knownKeys then (.ok (),pool,registry)
  else if key ∈ pool.freeKeys then (.ok (),pool,registry)
  else
    match registry.lookup key with
    | .error text => (.error text,pool,registry)
    | .ok _ =>
      (.ok (),{pool with freeKeys := pool.freeKeys ++ [key]},
        registry.write key (resizeBuffer pool.config.bufferSize))

def available (pool : BufferPool) : Nat := pool.freeKeys.length

end BufferPool

/-- `held` are the keys from the `Acquire` that returned them to the next `Release` of
them, `peak` is the largest number of them so far. -/
structure Lease where
  registry : MemoryRegistry
  pool : BufferPool
  held : List Bytes
  peak : Nat

inductive PoolEvent where
  | acquire
  | release (key : Bytes)
  | others (call : RegistryCall)

namespace Lease

/-- A pool that is made on a registry which others have used before. -/
def start (config : BufferPoolConfig) (prior : List RegistryCall) : Lease :=
  let (pool,registry) := BufferPool.new config (prior.foldl RegistryCall.apply MemoryRegistry.new)
  ⟨registry,pool,[],0⟩

/-- Nobody else takes a key of the pool out of the registry. -/
def step (lease : Lease) : PoolEvent → Option Lease
  | .acquire =>
    match lease.pool.acquire lease.registry with
    | (.error _,pool,registry) => some {lease with registry := registry,pool := pool}
    | (.ok region,pool,registry) =>
      some ⟨registry,pool,region.key::lease.held,Nat.max lease.peak (lease.held.length + 1)⟩
  | .release key =>
    let (_,pool,registry) := lease.pool.release key lease.registry
    some ⟨registry,pool,lease.held.filter (fun other => other ≠ key),lease.peak⟩
  | .others call =>
    if call.removes lease.pool.knownKeys then none
    else some {lease with registry := call.apply lease.registry}

/-- `floor` is the number of buffers that the constructor has made. -/
structure Sound (config : BufferPoolConfig) (floor : Nat) (lease : Lease) : Prop where
  registry : lease.registry.Sound
  configured : lease.pool.config = config
  kept : MemoryRegistry.Keeps lease.pool.knownKeys lease.registry
  leasing : Leasing floor lease.pool.freeKeys lease.held lease.pool.knownKeys lease.peak

section Steps
variable {config : BufferPoolConfig} {floor : Nat} {lease : Lease}

theorem insertKey_of_fresh {key : Bytes} {keys : List Bytes} (fresh : key ∉ keys) :
    BufferPool.insertKey key keys = key::keys :=
  if_neg fresh

theorem size_write_resize (region : MemoryRegion) (size : Nat) (stored : region.storage ≠ none) :
    (region.write (resizeBuffer size)).size = size := by
  obtain ⟨bytes,equal⟩ := Option.ne_none_iff_exists'.mp stored
  simp only [MemoryRegion.write,MemoryRegion.size,equal,Option.map_some,Option.getD_some,resizeBuffer,
    List.length_append,List.length_take,List.length_replicate]
  omega

/-- The buffer of a known key can be looked up and has storage. -/
theorem Sound.lookup_known (sound : lease.Sound config floor) {key : Bytes}
    (known : key ∈ lease.pool.knownKeys) :
    ∃ region, lease.registry.lookup key = .ok region ∧ region.key = key ∧
      region.storage ≠ none := by
  obtain ⟨region,found⟩ := Option.ne_none_iff_exists'.mp (sound.kept key known)
  obtain ⟨keyed,stored,_⟩ := sound.registry.issued key region found
  exact ⟨region,by rw [MemoryRegistry.lookup,found],keyed,stored⟩

theorem acquire_of_free (sound : lease.Sound config floor) {key : Bytes} {rest : List Bytes}
    (free : lease.pool.freeKeys = key::rest) : ∃ region registry,
      lease.pool.acquire lease.registry = (.ok region,{lease.pool with freeKeys := rest},registry) ∧
      region.key = key ∧ region.size = config.bufferSize ∧ registry.Sound ∧
      MemoryRegistry.Keeps lease.pool.knownKeys registry := by
  have known : key ∈ lease.pool.knownKeys := sound.leasing.parted.mem_iff.mp (by simp [free])
  obtain ⟨region,found,keyed,stored⟩ := sound.lookup_known known
  by_cases fits : region.size = config.bufferSize
  · refine ⟨region,lease.registry,?_,keyed,fits,sound.registry,sound.kept⟩
    simp only [BufferPool.acquire,free,found,sound.configured,fits,ne_eq,not_true,and_false,if_false]
  · refine ⟨region.write (resizeBuffer config.bufferSize),
      lease.registry.write key (resizeBuffer config.bufferSize),?_,keyed,
        size_write_resize region _ stored,
      MemoryRegistry.write_sound sound.registry key _,sound.kept.write key _⟩
    simp only [BufferPool.acquire,free,found,sound.configured,ne_eq,stored,fits,not_false_eq_true,
      and_self,if_true]

/-- `Acquire` returns a key that is not held, with a buffer of the configured size. -/
theorem acquire_spec (sound : lease.Sound config floor) : ∃ region pool registry,
    lease.pool.acquire lease.registry = (.ok region,pool,registry) ∧
    (registry.registrations < 2^64 → region.key ∉ lease.held ∧ region.size = config.bufferSize ∧
      Sound config floor ⟨registry,pool,region.key::lease.held,
        Nat.max lease.peak (lease.held.length + 1)⟩) := by
  cases free : lease.pool.freeKeys with
  | nil =>
    have leasing := sound.leasing
    rw [free] at leasing
    let bytes : Bytes := List.replicate lease.pool.config.bufferSize 0
    let region := (lease.registry.register bytes).1
    let registry := (lease.registry.register bytes).2
    let pool : BufferPool :=
      {lease.pool with knownKeys := BufferPool.insertKey region.key lease.pool.knownKeys}
    have result : lease.pool.acquire lease.registry = (.ok region,pool,registry) := by
      unfold BufferPool.acquire
      split
      next => rfl
      next some_ => cases free.symm.trans some_
    refine ⟨region,pool,registry,result,fun room => ?_⟩
    have fresh : region.key ∉ lease.pool.knownKeys := sound.kept.not_mem sound.registry room bytes
    have size : region.size = config.bufferSize := by
      simp [MemoryRegion.size,region,MemoryRegistry.register,bytes,sound.configured]
    have known : pool.knownKeys = region.key::lease.pool.knownKeys := insertKey_of_fresh fresh
    refine ⟨fun lent => fresh (leasing.parted.mem_iff.mp lent),size,
      MemoryRegistry.register_sound sound.registry room bytes,sound.configured,?_,?_⟩
    · rw [known]
      exact sound.kept.register sound.registry room bytes
    · rw [known,show pool.freeKeys = [] from free]
      exact leasing.grow fresh
  | cons key rest =>
    have leasing := sound.leasing
    rw [free] at leasing
    obtain ⟨region,registry,result,keyed,size,sound',kept⟩ := acquire_of_free sound free
    refine ⟨region,_,registry,result,fun _ => ?_⟩
    rw [keyed]
    exact ⟨leasing.not_mem_held (List.mem_cons_self ..),size,sound',sound.configured,kept,leasing.take⟩

theorem release_sound (sound : lease.Sound config floor) (key : Bytes) : Sound config floor
    ⟨(lease.pool.release key lease.registry).2.2,(lease.pool.release key lease.registry).2.1,
      lease.held.filter (fun other => other ≠ key),lease.peak⟩ := by
  by_cases known : key ∈ lease.pool.knownKeys
  · by_cases free : key ∈ lease.pool.freeKeys
    · have same := sound.leasing.filter_unlent (.inr free)
      simp only [BufferPool.release,known,free,not_true,if_false,if_true,same]
      exact sound
    · obtain ⟨region,found,_⟩ := sound.lookup_known known
      simp only [BufferPool.release,known,free,not_true,if_false,found]
      exact ⟨MemoryRegistry.write_sound sound.registry key _,sound.configured,sound.kept.write key _,
        sound.leasing.giveBack known free⟩
  · have same := sound.leasing.filter_unlent (.inl known)
    simp only [BufferPool.release,known,not_false_eq_true,if_true,same]
    exact sound

theorem addBuffer_sound {state : BufferPool × MemoryRegistry}
    (sound : Sound config floor ⟨state.2,state.1,[],0⟩)
    (room : (BufferPool.addBuffer state).2.registrations < 2^64) :
    Sound config (floor + 1) ⟨(BufferPool.addBuffer state).2,(BufferPool.addBuffer state).1,[],0⟩ := by
  let bytes : Bytes := List.replicate state.1.config.bufferSize 0
  have fresh : (state.2.register bytes).1.key ∉ state.1.knownKeys :=
    sound.kept.not_mem sound.registry room bytes
  have known : (BufferPool.addBuffer state).1.knownKeys =
      (state.2.register bytes).1.key::state.1.knownKeys :=
    insertKey_of_fresh fresh
  refine ⟨MemoryRegistry.register_sound sound.registry room bytes,sound.configured,?_,?_⟩
  · rw [known]
    exact sound.kept.register sound.registry room bytes
  · rw [known]
    exact sound.leasing.add fresh

theorem foldl_addBuffer_sound (registry : MemoryRegistry) (config : BufferPoolConfig)
    (sound : registry.registrations < 2^64 → registry.Sound) (count : Nat) :
    let state := (List.range count).foldl (fun state _ => BufferPool.addBuffer state)
      (⟨config,[],[]⟩,registry)
    state.2.registrations < 2^64 → Sound config count ⟨state.2,state.1,[],0⟩ := by
  induction count with
  | zero => exact fun room => ⟨sound room,rfl,by simp [MemoryRegistry.Keeps],Leasing.empty⟩
  | succ count ih =>
    simp only [List.range_succ,List.foldl_append,List.foldl_cons,List.foldl_nil]
    exact fun room => addBuffer_sound (ih (Nat.lt_of_succ_lt room)) room

theorem start_sound (config : BufferPoolConfig) (prior : List RegistryCall)
    (room : (start config prior).registry.registrations < 2^64) :
    Sound config config.buffers (start config prior) :=
  foldl_addBuffer_sound _ config
    (RegistryCall.foldl_apply_sound prior _ (fun _ => MemoryRegistry.new_sound)) config.buffers room

theorem registrations_acquire (pool : BufferPool) (registry : MemoryRegistry) :
    registry.registrations ≤ (pool.acquire registry).2.2.registrations := by
  unfold BufferPool.acquire
  split
  next => exact Nat.le_succ _
  next =>
    split
    next => exact Nat.le_refl _
    next => split <;> exact Nat.le_refl _

theorem registrations_release (pool : BufferPool) (key : Bytes) (registry : MemoryRegistry) :
    (pool.release key registry).2.2.registrations = registry.registrations := by
  unfold BufferPool.release
  split
  next => rfl
  next =>
    split
    next => rfl
    next => split <;> rfl

theorem registrations_step {next : Lease} {event : PoolEvent} (taken : lease.step event = some next) :
    lease.registry.registrations ≤ next.registry.registrations := by
  cases event with
  | acquire =>
    have grows := registrations_acquire lease.pool lease.registry
    simp only [step] at taken
    split at taken
    next result => cases taken; rwa [result] at grows
    next result => cases taken; rwa [result] at grows
  | release key =>
    cases taken
    exact Nat.le_of_eq (registrations_release lease.pool key lease.registry).symm
  | others call =>
    simp only [step] at taken
    split at taken
    next => cases taken
    next =>
      cases taken
      exact RegistryCall.registrations_apply _ call

theorem step_sound {next : Lease} {event : PoolEvent} (sound : lease.Sound config floor)
    (taken : lease.step event = some next) (room : next.registry.registrations < 2^64) :
    next.Sound config floor := by
  cases event with
  | acquire =>
    obtain ⟨region,pool,registry,result,spec⟩ := acquire_spec sound
    simp only [step,result] at taken
    cases taken
    exact (spec room).2.2
  | release key =>
    cases taken
    exact release_sound sound key
  | others call =>
    simp only [step] at taken
    split at taken
    next => cases taken
    next spares =>
      cases taken
      exact ⟨RegistryCall.apply_sound sound.registry call room,sound.configured,
        RegistryCall.apply_keeps sound.kept sound.registry call room (by simpa using spares),
          sound.leasing⟩

end Steps

/-- Over every run in which the counter of the registry does not wrap around: the free
and the held keys part the known keys, of which there are as many as the constructor
made or as were ever held at once, and the next `Acquire` returns a key that is not held
with a buffer of the configured size. -/
theorem pool_lends_once (config : BufferPoolConfig) (prior : List RegistryCall)
    (events : List PoolEvent) (final : Lease)
    (ran : Transition.run step events (start config prior) = some final)
    (bound : final.registry.registrations < 2^64) :
    final.pool.freeKeys.Nodup ∧ final.pool.knownKeys.Nodup ∧
    (final.pool.freeKeys ++ final.held).Perm final.pool.knownKeys ∧
    final.pool.knownKeys.length = Nat.max config.buffers final.peak ∧
    ∃ region pool registry, final.pool.acquire final.registry = (.ok region,pool,registry) ∧
      (registry.registrations < 2^64 → region.key ∉ final.held ∧
        region.size = config.bufferSize) := by
  have preserved (lease : Lease) (event : PoolEvent) (next : Lease)
      (before : lease.registry.registrations < 2^64 → lease.Sound config config.buffers)
      (taken : lease.step event = some next) (room : next.registry.registrations < 2^64) :
      next.Sound config config.buffers :=
    step_sound (before (Nat.lt_of_le_of_lt (registrations_step taken) room)) taken room
  have sound := Transition.run_kept preserved events _ final (start_sound config prior) ran bound
  have leasing := sound.leasing
  obtain ⟨region,pool,registry,result,spec⟩ := acquire_spec sound
  exact ⟨(List.nodup_append.mp leasing.nodup).1,leasing.distinct,leasing.parted,leasing.grown,
    region,pool,registry,result,fun room => ⟨(spec room).1,(spec room).2.1⟩⟩

/-- A pool of one buffer on a used registry: a second buffer is made, one caller shrinks
its buffer, and a key is released twice. -/
def grownPool : List PoolEvent :=
  [.acquire,.acquire,.others (.write (utf8 "mr-2") [1]),.others (.register [7]),.release (utf8 "mr-2"),
    .release (utf8 "mr-2"),.release (utf8 "mr-9")]

theorem pool_lends_once_grown : ∃ final,
    Transition.run step grownPool (start ⟨1,4⟩ [.register [5]]) = some final ∧
      final.held = [utf8 "mr-3"] ∧ final.pool.freeKeys = [utf8 "mr-2"] ∧
      final.pool.knownKeys.length = 2 := by
  have shown : (Transition.run step grownPool (start ⟨1,4⟩ [.register [5]])).map (fun final =>
      (final.held,final.pool.freeKeys,final.peak,final.registry.registrations)) =
        some ([utf8 "mr-3"],[utf8 "mr-2"],2,4) := by decide
  obtain ⟨final,ran,equal⟩ := Option.map_eq_some_iff.mp shown
  simp only [Prod.mk.injEq] at equal
  obtain ⟨held,free,peak,count⟩ := equal
  have bound : final.registry.registrations < 2^64 := by
    rw [count]
    decide
  have grown := (pool_lends_once ⟨1,4⟩ [.register [5]] grownPool final ran bound).2.2.2.1
  rw [peak] at grown
  exact ⟨final,ran,held,free,grown⟩

end Lease

end RdmaPlatform.Rdma
