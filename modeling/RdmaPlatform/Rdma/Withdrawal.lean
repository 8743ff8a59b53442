import RdmaPlatform.Rdma.BufferPool

/-! A pool whose registry others may take any key from. A call that then finds no
region throws: `Release` before it changes anything, `Acquire` after it has taken the
key off the free list. Such a key stays known to the pool and never becomes free again. -/
namespace RdmaPlatform.Rdma
open Library

inductive PoolCall where
  | acquire
  | release (key : Bytes)
  deriving DecidableEq

/-- Whether the call throws, and what it leaves behind. -/
def PoolCall.perform (pool : BufferPool) (registry : MemoryRegistry) :
    PoolCall → Except Bytes Unit × BufferPool × MemoryRegistry
  | .acquire =>
    let (result,after) := pool.acquire registry
    (result.map (fun _ => ()),after)
  | .release key => pool.release key registry

namespace BufferPool
variable {pool : BufferPool} {registry : MemoryRegistry} {text : Bytes}

theorem acquire_thrown (thrown : (pool.acquire registry).1 = .error text) : ∃ key rest,
    pool.freeKeys = key::rest ∧ registry.lookup key = .error text ∧
    pool.acquire registry = (.error text,{pool with freeKeys := rest},registry) := by
  unfold acquire at thrown ⊢
  split at thrown
  next => cases thrown
  next key rest free =>
    split at thrown
    next missing =>
      cases thrown
      exact ⟨key,rest,free,missing,rfl⟩
    next => split at thrown <;> cases thrown

theorem release_thrown {key : Bytes} (thrown : (pool.release key registry).1 = .error text) :
    registry.lookup key = .error text ∧ pool.release key registry = (.error text,pool,registry) := by
  unfold release at thrown ⊢
  split at thrown
  next => cases thrown
  next known =>
    split at thrown
    next => cases thrown
    next lent =>
      split at thrown
      next missing =>
        cases thrown
        exact ⟨missing,by rw [if_neg known,if_neg lent]⟩
      next => cases thrown

/-- All that `Acquire` can do: make a buffer, or take the first free key. -/
theorem acquire_effect (pool : BufferPool) (registry : MemoryRegistry) :
    (pool.freeKeys = [] ∧ ∃ bytes, (pool.acquire registry).2 =
      ({pool with knownKeys := insertKey (registry.register bytes).1.key pool.knownKeys},
        (registry.register bytes).2)) ∨
    ∃ key rest, pool.freeKeys = key::rest ∧
      (pool.acquire registry).2.1 = {pool with freeKeys := rest} ∧
      ((pool.acquire registry).2.2 = registry ∨
      ∃ f, (pool.acquire registry).2.2 = registry.write key f) := by
  unfold acquire
  split
  next free => exact .inl ⟨free,_,rfl⟩
  next key rest free =>
    refine .inr ⟨key,rest,free,?_⟩
    split
    next => exact ⟨rfl,.inl rfl⟩
    next =>
      split
      next => exact ⟨rfl,.inr ⟨_,rfl⟩⟩
      next => exact ⟨rfl,.inl rfl⟩

/-- All that `Release` can do: nothing, or put a lent key that it finds on the free list. -/
theorem release_effect (pool : BufferPool) (key : Bytes) (registry : MemoryRegistry) :
    (pool.release key registry).2 = (pool,registry) ∨
    key ∈ pool.knownKeys ∧ key ∉ pool.freeKeys ∧ registry.regions.lookup key ≠ none ∧
      ∃ f, (pool.release key registry).2 = ({pool with freeKeys := pool.freeKeys ++ [key]},
        registry.write key f) := by
  unfold release
  split
  next => exact .inl rfl
  next known =>
    split
    next => exact .inl rfl
    next lent =>
      split
      next => exact .inl rfl
      next region found =>
        refine .inr ⟨not_not.mp known,lent,?_,_,rfl⟩
        intro missing
        rw [MemoryRegistry.lookup,missing] at found
        cases found

end BufferPool

/-- A call that throws leaves the keys of the pool as they were exactly if it is a
`Release`; an `Acquire` has lost the first free key, which is the one it did not find. -/
theorem thrown_call_keeps_iff (pool : BufferPool) (registry : MemoryRegistry) (call : PoolCall)
    (text : Bytes) (thrown : (call.perform pool registry).1 = .error text) :
    ((call.perform pool registry).2.1.freeKeys = pool.freeKeys ∧
      (call.perform pool registry).2.1.knownKeys = pool.knownKeys ↔ call ≠ .acquire) ∧
    (call = .acquire → ∃ key, registry.lookup key = .error text ∧
      pool.freeKeys = key::(call.perform pool registry).2.1.freeKeys ∧
      (call.perform pool registry).2.1.knownKeys = pool.knownKeys) := by
  cases call with
  | acquire =>
    have failed : (pool.acquire registry).1 = .error text := by
      rcases result : pool.acquire registry with ⟨error | region,after⟩
      · simpa [PoolCall.perform,result,Except.map] using thrown
      · simp [PoolCall.perform,result,Except.map] at thrown
    obtain ⟨key,rest,free,missing,result⟩ := BufferPool.acquire_thrown failed
    simp only [PoolCall.perform,result]
    refine ⟨⟨fun kept => ?_,fun other => absurd rfl other⟩,fun _ => ⟨key,missing,free,trivial⟩⟩
    have same : rest = key::rest := kept.1.trans free
    exact absurd (congrArg List.length same) (by simp)
  | release key =>
    obtain ⟨_,result⟩ := BufferPool.release_thrown thrown
    simp only [PoolCall.perform,result]
    exact ⟨⟨fun _ => PoolCall.noConfusion,fun _ => ⟨trivial,trivial⟩⟩,
      fun acquires => PoolCall.noConfusion acquires⟩

/-- A pool of one buffer, lent or free, whose key another holder of the registry released. -/
def withdrawn (lent : Bool) : BufferPool × MemoryRegistry :=
  let lease := Lease.start ⟨1,4⟩ []
  let pool := if lent then (lease.pool.acquire lease.registry).2.1 else lease.pool
  (pool,lease.registry.release (utf8 "mr-1"))

theorem thrown_call_keeps_iff_release :
    ((PoolCall.release (utf8 "mr-1")).perform (withdrawn true).1 (withdrawn true).2).1 =
      .error (utf8 "memory region not found: mr-1") ∧
    ((PoolCall.release (utf8 "mr-1")).perform (withdrawn true).1 (withdrawn true).2).2.1.freeKeys =
      (withdrawn true).1.freeKeys := by
  have thrown : ((PoolCall.release (utf8 "mr-1")).perform (withdrawn true).1 (withdrawn true).2).1 =
      .error (utf8 "memory region not found: mr-1") := by rfl
  exact ⟨thrown,((thrown_call_keeps_iff _ _ _ _ thrown).1.mpr PoolCall.noConfusion).1⟩

/-- The free key is gone after the `Acquire` that threw. -/
theorem thrown_acquire_loses_key :
    (PoolCall.acquire.perform (withdrawn false).1 (withdrawn false).2).1 =
      .error (utf8 "memory region not found: mr-1") ∧
    (withdrawn false).1.freeKeys = [utf8 "mr-1"] ∧ (withdrawn false).1.knownKeys = [utf8 "mr-1"] ∧
    (PoolCall.acquire.perform (withdrawn false).1 (withdrawn false).2).2.1.freeKeys = [] ∧
    (PoolCall.acquire.perform (withdrawn false).1 (withdrawn false).2).2.1.knownKeys = [utf8 "mr-1"] :=
  ⟨rfl,rfl,rfl,rfl,rfl⟩

structure SharedPool where
  registry : MemoryRegistry
  pool : BufferPool

namespace SharedPool

def start (config : BufferPoolConfig) (prior : List RegistryCall) : SharedPool :=
  ⟨(Lease.start config prior).registry,(Lease.start config prior).pool⟩

def step (shared : SharedPool) : PoolEvent → SharedPool
  | .acquire => ⟨(shared.pool.acquire shared.registry).2.2,(shared.pool.acquire shared.registry).2.1⟩
  | .release key => ⟨(shared.pool.release key shared.registry).2.2,
    (shared.pool.release key shared.registry).2.1⟩
  | .others call => {shared with registry := call.apply shared.registry}

/-- Every known key was issued by the registry, and the free keys are distinct known ones. -/
structure Sound (shared : SharedPool) : Prop where
  registry : shared.registry.Sound
  issued : ∀ key ∈ shared.pool.knownKeys, ∃ id ≤ shared.registry.registrations,
    key = MemoryRegistry.regionKey id
  known : shared.pool.freeKeys ⊆ shared.pool.knownKeys
  distinct : shared.pool.freeKeys.Nodup

theorem start_sound (config : BufferPoolConfig) (prior : List RegistryCall)
    (room : (start config prior).registry.registrations < 2^64) : (start config prior).Sound := by
  have sound := Lease.start_sound config prior room
  refine ⟨sound.registry,?_,?_,(List.nodup_append.mp sound.leasing.nodup).1⟩
  · intro key known
    obtain ⟨region,found⟩ := Option.ne_none_iff_exists'.mp (sound.kept key known)
    exact (sound.registry.issued key region found).2.2
  · exact fun key free => sound.leasing.parted.mem_iff.mp (List.mem_append_left _ free)

/-- The pool knows the key, but it is neither free nor in the registry. -/
structure Lost (key : Bytes) (shared : SharedPool) : Prop where
  known : key ∈ shared.pool.knownKeys
  taken : key ∉ shared.pool.freeKeys
  missing : shared.registry.regions.lookup key = none

section Steps
variable {shared : SharedPool}

theorem lookup_write_none {registry : MemoryRegistry} {key : Bytes}
    (missing : registry.regions.lookup key = none) (other : Bytes) (f : Bytes → Bytes) :
    (registry.write other f).regions.lookup key = none := by
  rw [MemoryRegistry.write,Table.lookup_modify]
  split
  next => rw [missing,Option.map_none]
  next => exact missing

/-- A key that was issued before is not made again. -/
theorem Sound.lookup_register_none (sound : shared.Sound) {key : Bytes}
    (known : key ∈ shared.pool.knownKeys) (missing : shared.registry.regions.lookup key = none)
    (bytes : Bytes) (room : shared.registry.registrations + 1 < 2^64) :
    (shared.registry.register bytes).2.regions.lookup key = none := by
  obtain ⟨id,small,rfl⟩ := sound.issued key known
  rw [MemoryRegistry.lookup_register sound.registry room,MemoryRegistry.register_key sound.registry
    room,if_neg,missing]
  intro same
  have equal := MemoryRegistry.regionKey_injective same
  omega

theorem registrations_step (shared : SharedPool) (event : PoolEvent) :
    shared.registry.registrations ≤ (shared.step event).registry.registrations := by
  cases event with
  | acquire => exact Lease.registrations_acquire shared.pool shared.registry
  | release key => exact Nat.le_of_eq (Lease.registrations_release shared.pool key shared.registry).symm
  | others call => exact RegistryCall.registrations_apply shared.registry call

theorem mem_insertKey {key other : Bytes} {keys : List Bytes} :
    other ∈ BufferPool.insertKey key keys ↔ other = key ∨ other ∈ keys := by
  unfold BufferPool.insertKey
  split
  next inside => exact ⟨.inr,fun either => either.elim (fun same => same ▸ inside) id⟩
  next => exact List.mem_cons

theorem step_sound (sound : shared.Sound) (event : PoolEvent)
    (room : (shared.step event).registry.registrations < 2^64) : (shared.step event).Sound := by
  cases event with
  | acquire =>
    rcases BufferPool.acquire_effect shared.pool shared.registry with ⟨free,bytes,result⟩ |
      ⟨key,rest,free,pool,registry⟩
    · simp only [step,result] at room ⊢
      refine ⟨MemoryRegistry.register_sound sound.registry room bytes,fun key known => ?_,?_,
        sound.distinct⟩
      · rcases mem_insertKey.mp known with made | old
        · exact ⟨_,Nat.le_refl _,made.trans (MemoryRegistry.register_key sound.registry room bytes)⟩
        · obtain ⟨id,small,equal⟩ := sound.issued key old
          exact ⟨id,Nat.le_succ_of_le small,equal⟩
      · exact fun key inside => mem_insertKey.mpr (.inr (sound.known inside))
    · have distinct := sound.distinct
      have known := sound.known
      rw [free] at distinct known
      have fewer := (List.nodup_cons.mp distinct).2
      have inside : rest ⊆ shared.pool.knownKeys := fun key member =>
        known (List.mem_cons_of_mem _ member)
      rcases registry with same | ⟨f,written⟩
      · simp only [step,pool,same]
        exact ⟨sound.registry,sound.issued,inside,fewer⟩
      · simp only [step,pool,written]
        exact ⟨MemoryRegistry.write_sound sound.registry key f,sound.issued,inside,fewer⟩
  | release key =>
    rcases BufferPool.release_effect shared.pool key shared.registry with same | ⟨known,lent,_,f,result⟩
    · simp only [step,same]
      exact sound
    · simp only [step,result]
      refine ⟨MemoryRegistry.write_sound sound.registry key f,sound.issued,?_,?_⟩
      · exact List.append_subset.mpr ⟨sound.known,List.cons_subset.mpr ⟨known,List.nil_subset _⟩⟩
      · refine List.nodup_append.mpr ⟨sound.distinct,List.nodup_singleton key,?_⟩
        intro other free added member same
        rw [same,List.mem_singleton.mp member] at free
        exact lent free
  | others call =>
    refine ⟨RegistryCall.apply_sound sound.registry call room,fun key known => ?_,sound.known,
      sound.distinct⟩
    obtain ⟨id,small,equal⟩ := sound.issued key known
    exact ⟨id,Nat.le_trans small (RegistryCall.registrations_apply shared.registry call),equal⟩

theorem step_lost (sound : shared.Sound) {key : Bytes} (lost : shared.Lost key) (event : PoolEvent)
    (room : (shared.step event).registry.registrations < 2^64) : (shared.step event).Lost key := by
  cases event with
  | acquire =>
    rcases BufferPool.acquire_effect shared.pool shared.registry with ⟨_,bytes,result⟩ |
      ⟨first,rest,free,pool,registry⟩
    · simp only [step,result] at room ⊢
      exact ⟨mem_insertKey.mpr (.inr lost.known),lost.taken,
        sound.lookup_register_none lost.known lost.missing bytes room⟩
    · have taken : key ∉ rest := fun inside =>
        lost.taken (by rw [free]; exact List.mem_cons_of_mem _ inside)
      rcases registry with same | ⟨f,written⟩
      · simp only [step,pool,same]
        exact ⟨lost.known,taken,lost.missing⟩
      · simp only [step,pool,written]
        exact ⟨lost.known,taken,lookup_write_none lost.missing first f⟩
  | release other =>
    rcases BufferPool.release_effect shared.pool other shared.registry with same | ⟨_,_,found,f,result⟩
    · simp only [step,same]
      exact lost
    · have different : key ≠ other := fun same => found (same ▸ lost.missing)
      simp only [step,result]
      refine ⟨lost.known,?_,lookup_write_none lost.missing other f⟩
      simpa [different] using lost.taken
  | others call =>
    refine ⟨lost.known,lost.taken,?_⟩
    cases call with
    | register bytes => exact sound.lookup_register_none lost.known lost.missing bytes room
    | release other =>
      by_cases same : key = other
      · subst same
        simp [step,RegistryCall.apply,MemoryRegistry.release,Table.lookup]
      · exact (MemoryRegistry.lookup_release_ne shared.registry same).trans lost.missing
    | write other bytes => exact lookup_write_none lost.missing other _

end Steps

theorem foldl_step {Inv : SharedPool → Prop}
    (preserved : ∀ shared event, Inv shared → (shared.step event).registry.registrations < 2^64 →
      Inv (shared.step event))
    (events : List PoolEvent) (shared : SharedPool)
    (initial : shared.registry.registrations < 2^64 → Inv shared)
    (room : (events.foldl step shared).registry.registrations < 2^64) :
    Inv (events.foldl step shared) := by
  induction events generalizing shared with
  | nil => exact initial room
  | cons event rest ih =>
    refine ih (shared.step event) (fun below => ?_) room
    exact preserved shared event
      (initial (Nat.lt_of_le_of_lt (registrations_step shared event) below)) below

/-- Once an `Acquire` has thrown, the key that it took is never free again, whatever is
done with the pool and the registry after it. -/
theorem thrown_key_stays_lost (config : BufferPoolConfig) (prior : List RegistryCall)
    (before after : List PoolEvent) (key : Bytes) (rest : List Bytes)
    (free : (before.foldl step (start config prior)).pool.freeKeys = key::rest)
    (missing : (before.foldl step (start config prior)).registry.regions.lookup key = none)
    (room : ((before ++ .acquire::after).foldl step (start config prior)).registry.registrations <
      2^64) :
    ((before ++ .acquire::after).foldl step (start config prior)).Lost key := by
  rw [List.foldl_append,List.foldl_cons] at room ⊢
  generalize reached : before.foldl step (start config prior) = shared at free missing room ⊢
  have sound (below : shared.registry.registrations < 2^64) : shared.Sound := by
    subst reached
    exact foldl_step (fun shared event sound => step_sound sound event) before _
      (start_sound config prior) below
  have first : shared.step .acquire = ⟨shared.registry,{shared.pool with freeKeys := rest}⟩ := by
    simp only [step,BufferPool.acquire,free,MemoryRegistry.lookup,missing]
  rw [first] at room ⊢
  have preserved (shared : SharedPool) (event : PoolEvent) (both : shared.Sound ∧ shared.Lost key)
      (below : (shared.step event).registry.registrations < 2^64) :
      (shared.step event).Sound ∧ (shared.step event).Lost key :=
    ⟨step_sound both.1 event below,step_lost both.1 both.2 event below⟩
  refine (foldl_step preserved after _ (fun below => ?_) room).2
  have known := (sound below).known
  have distinct := (sound below).distinct
  rw [free] at known distinct
  have taken := List.nodup_cons.mp distinct
  exact ⟨⟨(sound below).registry,(sound below).issued,
    fun other inside => known (List.mem_cons_of_mem _ inside),taken.2⟩,
    known (List.mem_cons_self ..),taken.1,missing⟩

theorem thrown_key_stays_lost_withdrawn :
    ([.others (.release (utf8 "mr-1")),.acquire,.release (utf8 "mr-1"),.acquire].foldl step
      (start ⟨2,8⟩ [])).Lost (utf8 "mr-1") :=
  thrown_key_stays_lost ⟨2,8⟩ [] [.others (.release (utf8 "mr-1"))] [.release (utf8 "mr-1"),
    .acquire] (utf8 "mr-1") [utf8 "mr-2"] rfl rfl (by decide)

end SharedPool

end RdmaPlatform.Rdma
