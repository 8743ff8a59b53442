import RdmaPlatform.Rdma.Transport
import RdmaPlatform.Library.Decimal

/-! The memory registry: `memory_region.cpp`. A region points to its storage, which the
registry and every holder of the region share, so the contents are kept with the entry
of the registry and a write by anyone is a write there. The model counts the calls of
`Register`; the code has no such number and no function reads it. While nothing is
released, each call leaves an entry in a map whose size is a `std::size_t`, so there are
fewer than 2^64 of them and the keys do not repeat. -/
namespace RdmaPlatform.Rdma
open Library

def MemoryRegion.size (region : MemoryRegion) : Nat := (region.storage.map List.length).getD 0

/-- `ByteBuffer::resize`. -/
def resizeBuffer (size : Nat) (bytes : Bytes) : Bytes :=
  bytes.take size ++ List.replicate (size - bytes.length) 0

def MemoryRegion.write (region : MemoryRegion) (f : Bytes → Bytes) : MemoryRegion :=
  {region with storage := region.storage.map f}

structure MemoryRegistry where
  nextRegionId : UInt64
  nextAccessKey : UInt32
  regions : Table Bytes MemoryRegion
  registrations : Nat

namespace MemoryRegistry

def new : MemoryRegistry := ⟨0,1024,∅,0⟩

def regionKey (id : Nat) : Bytes := utf8 "mr-" ++ Decimal.decimal id

/-- `emplace` leaves an entry that is there already. -/
def emplace (key : Bytes) (region : MemoryRegion) (regions : Table Bytes MemoryRegion) :
    Table Bytes MemoryRegion :=
  match regions.lookup key with
  | some _ => regions
  | none => regions.put key region

/-- The two access keys are made here in the order of the arguments, which C++ leaves
open. -/
def register (registry : MemoryRegistry) (bytes : Bytes) : MemoryRegion × MemoryRegistry :=
  let id := registry.nextRegionId + 1
  let key := regionKey id.toNat
  let region : MemoryRegion := ⟨key,registry.nextAccessKey,registry.nextAccessKey + 1,some bytes⟩
  (region,⟨id,registry.nextAccessKey + 2,emplace key region registry.regions,
    registry.registrations + 1⟩)

def registerSize (registry : MemoryRegistry) (size : Nat) : MemoryRegion × MemoryRegistry :=
  registry.register (List.replicate size 0)

/-- The error is the text of the exception. -/
def lookup (registry : MemoryRegistry) (key : Bytes) : Except Bytes MemoryRegion :=
  match registry.regions.lookup key with
  | none => .error (utf8 "memory region not found: " ++ key)
  | some region => .ok region

def release (registry : MemoryRegistry) (key : Bytes) : MemoryRegistry :=
  {registry with regions := AList.erase key registry.regions}

/-- A write to the storage of a region through one of the pointers to it. -/
def write (registry : MemoryRegistry) (key : Bytes) (f : Bytes → Bytes) : MemoryRegistry :=
  {registry with regions := registry.regions.modify key (fun region => region.write f)}

end MemoryRegistry

/-- What anybody may do with a registry, and with the contents of its regions. -/
inductive RegistryCall where
  | register (bytes : Bytes)
  | release (key : Bytes)
  | write (key bytes : Bytes)

def RegistryCall.apply (registry : MemoryRegistry) : RegistryCall → MemoryRegistry
  | .register bytes => (registry.register bytes).2
  | .release key => registry.release key
  | .write key bytes => registry.write key (fun _ => bytes)

namespace MemoryRegistry

/-- Every entry was issued by the counter and has storage. -/
structure Sound (registry : MemoryRegistry) : Prop where
  counted : registry.nextRegionId.toNat = registry.registrations
  issued : ∀ key region, registry.regions.lookup key = some region →
    region.key = key ∧ region.storage ≠ none ∧ ∃ id ≤ registry.registrations, key = regionKey id

theorem new_sound : new.Sound where
  counted := rfl
  issued key region found := by cases found

theorem regionKey_injective : Function.Injective regionKey := by
  intro first second same
  have digits := List.append_cancel_left same
  rw [← Decimal.value_decimal first,digits,Decimal.value_decimal]

section Register
variable {registry : MemoryRegistry} (sound : registry.Sound)
  (room : registry.registrations + 1 < 2^64) (bytes : Bytes)
include sound room

theorem register_key : (registry.register bytes).1.key = regionKey (registry.registrations + 1) := by
  have next : (registry.nextRegionId + 1).toNat = registry.registrations + 1 := by
    rw [UInt64.toNat_add,sound.counted]
    exact Nat.mod_eq_of_lt room
  exact congrArg regionKey next

theorem register_fresh : registry.regions.lookup (registry.register bytes).1.key = none := by
  rw [register_key sound room bytes]
  cases found : registry.regions.lookup (regionKey (registry.registrations + 1)) with
  | none => rfl
  | some region =>
    obtain ⟨_,_,id,small,same⟩ := sound.issued _ _ found
    have equal := regionKey_injective same
    omega

theorem lookup_register (key : Bytes) : (registry.register bytes).2.regions.lookup key =
    if key = (registry.register bytes).1.key then some (registry.register bytes).1
    else registry.regions.lookup key := by
  have fresh := register_fresh sound room bytes
  have put : (registry.register bytes).2.regions =
      registry.regions.put (registry.register bytes).1.key (registry.register bytes).1 := by
    change emplace (registry.register bytes).1.key (registry.register bytes).1 registry.regions = _
    rw [emplace,fresh]
  rw [put,Table.lookup_put]

theorem register_sound : (registry.register bytes).2.Sound where
  counted := by
    change (registry.nextRegionId + 1).toNat = registry.registrations + 1
    rw [UInt64.toNat_add,sound.counted]
    exact Nat.mod_eq_of_lt room
  issued key region found := by
    rw [lookup_register sound room bytes] at found
    split at found
    next same =>
      cases found
      refine ⟨same.symm,Option.some_ne_none _,registry.registrations + 1,Nat.le_refl _,?_⟩
      rw [same,register_key sound room bytes]
    next =>
      obtain ⟨keyed,stored,id,small,equal⟩ := sound.issued key region found
      exact ⟨keyed,stored,id,Nat.le_succ_of_le small,equal⟩

end Register

theorem write_sound {registry : MemoryRegistry} (sound : registry.Sound) (key : Bytes)
    (f : Bytes → Bytes) :
    (registry.write key f).Sound where
  counted := sound.counted
  issued := by
    refine Table.modify_forall _ _ _ _ sound.issued (fun region found old => ⟨old.1,?_,old.2.2⟩)
    simpa [MemoryRegion.write] using old.2.1

theorem lookup_release_ne (registry : MemoryRegistry) {key other : Bytes} (distinct : other ≠ key) :
    (registry.release key).regions.lookup other = registry.regions.lookup other :=
  AList.lookup_erase_ne distinct

theorem release_sound {registry : MemoryRegistry} (sound : registry.Sound) (key : Bytes) :
    (registry.release key).Sound where
  counted := sound.counted
  issued other region found := by
    by_cases same : other = key
    · subst same
      exact absurd found (by simp [release,Table.lookup])
    · rw [lookup_release_ne registry same] at found
      exact sound.issued other region found

/-- These keys can be looked up. -/
def Keeps (keys : List Bytes) (registry : MemoryRegistry) : Prop :=
  ∀ key ∈ keys, registry.regions.lookup key ≠ none

theorem Keeps.write {keys : List Bytes} {registry : MemoryRegistry} (kept : Keeps keys registry)
    (key : Bytes) (f : Bytes → Bytes) : Keeps keys (registry.write key f) := by
  intro other member
  have present := kept other member
  rw [MemoryRegistry.write,Table.lookup_modify]
  split
  next => simpa using present
  next => exact present

theorem Keeps.register {keys : List Bytes} {registry : MemoryRegistry} (kept : Keeps keys registry)
    (sound : registry.Sound) (room : registry.registrations + 1 < 2^64) (bytes : Bytes) :
    Keeps ((registry.register bytes).1.key::keys) (registry.register bytes).2 := by
  intro other member
  rw [lookup_register sound room bytes]
  split
  next => exact Option.some_ne_none _
  next different => exact kept other ((List.mem_cons.mp member).resolve_left different)

theorem Keeps.not_mem {keys : List Bytes} {registry : MemoryRegistry} (kept : Keeps keys registry)
    (sound : registry.Sound) (room : registry.registrations + 1 < 2^64) (bytes : Bytes) :
    (registry.register bytes).1.key ∉ keys :=
  fun member => kept _ member (register_fresh sound room bytes)

end MemoryRegistry

def RegistryCall.removes (keys : List Bytes) : RegistryCall → Bool
  | .release key => key ∈ keys
  | .register _ | .write _ _ => false

namespace RegistryCall
open MemoryRegistry

theorem registrations_apply (registry : MemoryRegistry) (call : RegistryCall) :
    registry.registrations ≤ (call.apply registry).registrations := by
  cases call with
  | register bytes => exact Nat.le_succ _
  | release | write => exact Nat.le_refl _

theorem apply_sound {registry : MemoryRegistry} (sound : registry.Sound) (call : RegistryCall)
    (room : (call.apply registry).registrations < 2^64) : (call.apply registry).Sound := by
  cases call with
  | register bytes => exact register_sound sound room bytes
  | release key => exact release_sound sound key
  | write key bytes => exact write_sound sound key _

theorem apply_keeps {keys : List Bytes} {registry : MemoryRegistry} (kept : Keeps keys registry)
    (sound : registry.Sound) (call : RegistryCall) (room : (call.apply registry).registrations < 2^64)
    (spares : call.removes keys = false) : Keeps keys (call.apply registry) := by
  cases call with
  | register bytes =>
    exact fun key member => kept.register sound room bytes key (List.mem_cons_of_mem _ member)
  | write key bytes => exact kept.write key _
  | release key =>
    intro other member
    have outside : key ∉ keys := of_decide_eq_false spares
    rw [apply,lookup_release_ne registry (ne_of_mem_of_not_mem member outside)]
    exact kept other member

theorem foldl_apply_sound (calls : List RegistryCall) (registry : MemoryRegistry)
    (sound : registry.registrations < 2^64 → registry.Sound)
    (room : (calls.foldl apply registry).registrations < 2^64) :
    (calls.foldl apply registry).Sound := by
  induction calls generalizing registry with
  | nil => exact sound room
  | cons call rest ih =>
    refine ih (call.apply registry) (fun below => ?_) room
    exact apply_sound (sound (Nat.lt_of_le_of_lt (registrations_apply registry call) below)) call below

end RegistryCall

end RdmaPlatform.Rdma
