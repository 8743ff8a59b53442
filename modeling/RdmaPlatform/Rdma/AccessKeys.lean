import RdmaPlatform.Rdma.Registry
import Mathlib.Data.Nat.ModEq
import Mathlib.Data.List.Nodup
import Mathlib.Data.List.Induction

/-! The keys of live regions. A region's name comes from a 64-bit counter that moves once
for each registration and does not return within 2^64 of them. Its two access keys come
from a 32-bit counter that moves twice, so they return after 2^31 registrations, at which
a region that is still live shares them. -/
namespace RdmaPlatform.Rdma
open Library

namespace MemoryRegistry

/-- The access keys that the registration with this number gets. -/
def localKeyOf (id : Nat) : UInt32 := .ofNat (1022 + 2 * id)

def remoteKeyOf (id : Nat) : UInt32 := .ofNat (1023 + 2 * id)

def accessKeys (region : MemoryRegion) : List UInt32 := [region.localKey,region.remoteKey]

/-- The access keys of all live regions, two for each. -/
def liveAccessKeys (registry : MemoryRegistry) : List UInt32 :=
  registry.regions.values.flatMap accessKeys

/-- No two live regions were registered a multiple of 2^31 registrations apart. -/
def Spread (registry : MemoryRegistry) : Prop :=
  ∀ first second, regionKey first ∈ registry.regions.keys →
    regionKey second ∈ registry.regions.keys → first ≡ second [MOD 2^31] → first = second

def IssuedAs (id : Nat) (key : Bytes) (region : MemoryRegion) : Prop :=
  key = regionKey id ∧ region.localKey = localKeyOf id ∧ region.remoteKey = remoteKeyOf id

structure Keyed (registry : MemoryRegistry) : Prop where
  next : registry.nextAccessKey = localKeyOf (registry.registrations + 1)
  issued : ∀ key region, registry.regions.lookup key = some region → ∃ id, IssuedAs id key region

theorem new_keyed : new.Keyed where
  next := rfl
  issued key region found := by cases found

theorem localKeyOf_succ (id : Nat) : localKeyOf id + 2 = localKeyOf (id + 1) :=
  (UInt32.ofNat_add (1022 + 2 * id) 2).symm

theorem localKeyOf_add_one (id : Nat) : localKeyOf id + 1 = remoteKeyOf id := by
  rw [remoteKeyOf,show 1023 + 2 * id = 1022 + 2 * id + 1 by omega]
  exact (UInt32.ofNat_add (1022 + 2 * id) 1).symm

theorem localKeyOf_eq_iff (first second : Nat) :
    localKeyOf first = localKeyOf second ↔ first ≡ second [MOD 2^31] := by
  rw [localKeyOf,localKeyOf,← UInt32.toNat_inj,UInt32.toNat_ofNat',UInt32.toNat_ofNat',Nat.ModEq]
  omega

theorem remoteKeyOf_eq_iff (first second : Nat) :
    remoteKeyOf first = remoteKeyOf second ↔ first ≡ second [MOD 2^31] := by
  rw [remoteKeyOf,remoteKeyOf,← UInt32.toNat_inj,UInt32.toNat_ofNat',UInt32.toNat_ofNat',Nat.ModEq]
  omega

/-- A local key is even and a remote key is odd. -/
theorem localKeyOf_ne_remoteKeyOf (first second : Nat) : localKeyOf first ≠ remoteKeyOf second := by
  rw [localKeyOf,remoteKeyOf,ne_eq,← UInt32.toNat_inj,UInt32.toNat_ofNat',UInt32.toNat_ofNat']
  omega

theorem disjoint_keys_iff (first second : Nat) :
    List.Disjoint [localKeyOf first,remoteKeyOf first] [localKeyOf second,remoteKeyOf second] ↔
      ¬ first ≡ second [MOD 2^31] := by
  simp [localKeyOf_eq_iff,remoteKeyOf_eq_iff,localKeyOf_ne_remoteKeyOf,
    (localKeyOf_ne_remoteKeyOf _ _).symm,Nat.ModEq.comm]

section Calls
variable {registry : MemoryRegistry} (keyed : registry.Keyed)
include keyed

theorem Keyed.register (sound : registry.Sound) (room : registry.registrations + 1 < 2^64)
    (bytes : Bytes) :
    (registry.register bytes).2.Keyed where
  next := by
    change registry.nextAccessKey + 2 = localKeyOf (registry.registrations + 2)
    rw [keyed.next,localKeyOf_succ]
  issued key region found := by
    rw [lookup_register sound room bytes] at found
    split at found
    next same =>
      cases found
      refine ⟨registry.registrations + 1,same.trans (register_key sound room bytes),keyed.next,?_⟩
      change registry.nextAccessKey + 1 = _
      rw [keyed.next,localKeyOf_add_one]
    next => exact keyed.issued key region found

theorem Keyed.release (released : Bytes) : (registry.release released).Keyed where
  next := keyed.next
  issued key region found := by
    by_cases same : key = released
    · subst same
      exact absurd found (by simp [MemoryRegistry.release,Table.lookup])
    · rw [lookup_release_ne registry same] at found
      exact keyed.issued key region found

theorem Keyed.write (written : Bytes) (f : Bytes → Bytes) : (registry.write written f).Keyed where
  next := keyed.next
  issued := Table.modify_forall _ _ _ (fun key region => ∃ id, IssuedAs id key region) keyed.issued
    (fun _ _ known => known)

theorem Keyed.apply (sound : registry.Sound) (call : RegistryCall)
    (room : (call.apply registry).registrations < 2^64) :
    (call.apply registry).Keyed := by
  cases call with
  | register bytes => exact keyed.register sound room bytes
  | release key => exact keyed.release key
  | write key bytes => exact keyed.write key _

theorem Keyed.entry {entry : (_ : Bytes) × MemoryRegion} (member : entry ∈ registry.regions.entries) :
    ∃ id, IssuedAs id entry.1 entry.2 :=
  keyed.issued entry.1 entry.2 ((Table.mem_entries_iff _ _ _).mp member)

theorem Keyed.liveAccessKeys_nodup_iff : registry.liveAccessKeys.Nodup ↔ registry.Spread := by
  rw [liveAccessKeys,Table.values,List.flatMap_map,List.nodup_flatMap]
  constructor
  · rintro ⟨_,apart⟩ first second firstLive secondLive congruent
    obtain ⟨one,oneFound⟩ := (Table.mem_keys_iff _ _).mp firstLive
    obtain ⟨other,otherFound⟩ := (Table.mem_keys_iff _ _).mp secondLive
    obtain ⟨i,iKey,iLocal,iRemote⟩ := keyed.issued _ one oneFound
    obtain ⟨j,jKey,jLocal,jRemote⟩ := keyed.issued _ other otherFound
    obtain rfl := regionKey_injective iKey
    obtain rfl := regionKey_injective jKey
    by_contra different
    have : Std.Symm (Function.onFun List.Disjoint
        (fun entry : (_ : Bytes) × MemoryRegion => accessKeys entry.2)) :=
      ⟨fun _ _ => List.disjoint_symm⟩
    have unequal : (⟨regionKey first,one⟩ : (_ : Bytes) × MemoryRegion) ≠
        ⟨regionKey second,other⟩ :=
      fun same => different (regionKey_injective (congrArg Sigma.fst same))
    have disjoint := apart.forall ((Table.mem_entries_iff _ _ _).mpr oneFound)
      ((Table.mem_entries_iff _ _ _).mpr otherFound) unequal
    simp only [Function.onFun,accessKeys,iLocal,iRemote,jLocal,jRemote,disjoint_keys_iff] at disjoint
    exact disjoint congruent
  · intro spread
    constructor
    · intro entry member
      obtain ⟨id,_,localKey,remoteKey⟩ := keyed.entry member
      simp [accessKeys,localKey,remoteKey,localKeyOf_ne_remoteKeyOf]
    · have distinct : registry.regions.entries.Pairwise (fun left right => left.1 ≠ right.1) :=
        List.pairwise_map.mp registry.regions.nodupKeys
      refine distinct.imp_of_mem ?_
      intro left right leftMember rightMember different
      obtain ⟨i,iKey,iLocal,iRemote⟩ := keyed.entry leftMember
      obtain ⟨j,jKey,jLocal,jRemote⟩ := keyed.entry rightMember
      simp only [Function.onFun,accessKeys,iLocal,iRemote,jLocal,jRemote,disjoint_keys_iff]
      intro congruent
      have leftLive : regionKey i ∈ registry.regions.keys := iKey ▸ List.mem_keys_of_mem leftMember
      have rightLive : regionKey j ∈ registry.regions.keys := jKey ▸ List.mem_keys_of_mem rightMember
      rw [iKey,jKey,spread i j leftLive rightLive congruent] at different
      exact different rfl

end Calls

end MemoryRegistry

namespace RegistryCall
open MemoryRegistry

/-- Any calls on a registry that nobody has used before. -/
def history (calls : List RegistryCall) : MemoryRegistry := calls.foldl apply new

theorem history_sound (calls : List RegistryCall) (room : (history calls).registrations < 2^64) :
    (history calls).Sound ∧ (history calls).Keyed := by
  induction calls using List.reverseRecOn with
  | nil => exact ⟨new_sound,new_keyed⟩
  | append_singleton before call ih =>
    rw [history,List.foldl_append] at room ⊢
    obtain ⟨sound,keyed⟩ := ih (Nat.lt_of_le_of_lt (registrations_apply _ call) room)
    exact ⟨apply_sound sound call room,keyed.apply sound call room⟩

/-- After any calls with fewer than 2^64 registrations the live regions have distinct
names, and their access keys are distinct exactly if no two of them were registered a
multiple of 2^31 registrations apart. -/
theorem live_keys_distinct_iff (calls : List RegistryCall)
    (room : (history calls).registrations < 2^64) :
    ((history calls).regions.values.map MemoryRegion.key).Nodup ∧
    ((history calls).liveAccessKeys.Nodup ↔ (history calls).Spread) := by
  obtain ⟨sound,keyed⟩ := history_sound calls room
  refine ⟨?_,keyed.liveAccessKeys_nodup_iff⟩
  have named : (history calls).regions.values.map MemoryRegion.key = (history calls).regions.keys := by
    rw [Table.values,List.map_map]
    apply List.map_congr_left
    intro entry member
    exact (sound.issued entry.1 entry.2 ((Table.mem_entries_iff _ _ _).mp member)).1
  rw [named]
  exact (history calls).regions.nodupKeys

/-- It is enough that every live region is among the last 2^31 registered. -/
theorem spread_of_recent {registry : MemoryRegistry} (sound : registry.Sound)
    (recent : ∀ id, regionKey id ∈ registry.regions.keys → registry.registrations < id + 2^31) :
    registry.Spread := by
  have small (id : Nat) (live : regionKey id ∈ registry.regions.keys) :
      id ≤ registry.registrations := by
    obtain ⟨region,found⟩ := (Table.mem_keys_iff _ _).mp live
    obtain ⟨_,_,other,bound,same⟩ := sound.issued _ region found
    rwa [regionKey_injective same]
  intro first second firstLive secondLive congruent
  have firstRecent := recent first firstLive
  have secondRecent := recent second secondLive
  have firstSmall := small first firstLive
  have secondSmall := small second secondLive
  rw [Nat.ModEq] at congruent
  omega

theorem live_keys_distinct_iff_recent :
    (history [.register [1],.register [2],.release (utf8 "mr-1"),.register [3]]).liveAccessKeys =
      [1028,1029,1026,1027] ∧
    (history [.register [1],.register [2],.release (utf8 "mr-1"),
      .register [3]]).liveAccessKeys.Nodup := by
  have room : (history [.register [1],.register [2],.release (utf8 "mr-1"),
      .register [3]]).registrations < 2^64 := by
    decide
  refine ⟨by rfl,(live_keys_distinct_iff _ room).2.mpr (spread_of_recent (history_sound _ room).1 ?_)⟩
  intro id _
  have count : (history [.register [1],.register [2],.release (utf8 "mr-1"),
    .register [3]]).registrations = 3 := rfl
  omega

/-- One region is kept while this many others come and go. -/
def churn (rounds : Nat) : List RegistryCall :=
  .register []::(List.range rounds).flatMap
    (fun round => [.register [],.release (regionKey (round + 2))])

theorem history_concat (calls : List RegistryCall) (call : RegistryCall) :
    history (calls ++ [call]) = call.apply (history calls) := by
  simp [history]

theorem churn_succ (rounds : Nat) :
    churn (rounds + 1) = churn rounds ++ [.register []] ++ [.release (regionKey (rounds + 2))] := by
  simp [churn,List.range_succ]

theorem mem_keys_register {registry : MemoryRegistry} (sound : registry.Sound)
    (room : registry.registrations + 1 < 2^64) (bytes key : Bytes) :
    key ∈ (registry.register bytes).2.regions.keys ↔
      key = regionKey (registry.registrations + 1) ∨ key ∈ registry.regions.keys := by
  rw [Table.mem_keys_iff,lookup_register sound room,register_key sound room,Table.mem_keys_iff]
  split
  next same => simp [same]
  next different => simp [different]

theorem history_churn (rounds : Nat) (room : rounds + 1 < 2^64) :
    (history (churn rounds)).registrations = rounds + 1 ∧
    ∀ key, key ∈ (history (churn rounds)).regions.keys ↔ key = regionKey 1 := by
  induction rounds with
  | zero => exact ⟨rfl,fun key => List.mem_singleton⟩
  | succ rounds ih =>
    obtain ⟨count,live⟩ := ih (by omega)
    have sound := (history_sound (churn rounds) (by omega)).1
    rw [churn_succ,history_concat,history_concat]
    refine ⟨congrArg (· + 1) count,fun key => ?_⟩
    have fresh : regionKey 1 ≠ regionKey (rounds + 2) := fun same =>
      absurd (regionKey_injective same) (by omega)
    have kept : key ∈ ((RegistryCall.register []).apply (history (churn rounds))).regions.keys ↔
        key = regionKey (rounds + 2) ∨ key = regionKey 1 := by
      rw [← live,show rounds + 2 = (history (churn rounds)).registrations + 1 by omega]
      exact mem_keys_register sound (by omega) [] key
    change key ∈ AList.erase _ _ ↔ _
    rw [AList.mem_erase,AList.mem_keys,kept]
    exact ⟨fun ⟨different,either⟩ => either.resolve_left different,
      fun same => ⟨same ▸ fresh,.inr same⟩⟩

/-- The kept region and one more are live then. -/
theorem history_churn_register (rounds : Nat) (room : rounds + 2 < 2^64) :
    (history (churn rounds ++ [.register []])).registrations = rounds + 2 ∧
    (history (churn rounds ++ [.register []])).regions.keys.Perm [regionKey (rounds + 2),
      regionKey 1] := by
  obtain ⟨count,live⟩ := history_churn rounds (by omega)
  have sound := (history_sound (churn rounds) (by omega)).1
  rw [history_concat]
  refine ⟨congrArg (· + 1) count,?_⟩
  have distinct : [regionKey (rounds + 2),regionKey 1].Nodup := by
    simp only [List.nodup_cons,List.mem_singleton,List.not_mem_nil,not_false_eq_true,
      List.nodup_nil,and_true]
    exact fun same => absurd (regionKey_injective same) (by omega)
  refine (List.perm_ext_iff_of_nodup (AList.nodupKeys _) distinct).mpr (fun key => ?_)
  have keys := mem_keys_register sound (by omega) [] key
  rw [count,live] at keys
  simp only [List.mem_cons,List.not_mem_nil,or_false]
  exact keys

theorem churn_shares_access_keys (rounds : Nat) (long : rounds + 1 = 2^31) :
    (history (churn rounds ++ [.register []])).registrations < 2^64 ∧
    (history (churn rounds ++ [.register []])).regions.values.length = 2 ∧
    ¬ (history (churn rounds ++ [.register []])).liveAccessKeys.Nodup := by
  obtain ⟨count,both⟩ := history_churn_register rounds (by omega)
  have room : (history (churn rounds ++ [.register []])).registrations < 2^64 := by omega
  refine ⟨room,?_,?_⟩
  · have size := both.length_eq
    simpa [Table.values,AList.keys,List.keys] using size
  · rw [(history_sound _ room).2.liveAccessKeys_nodup_iff]
    intro spread
    have congruent : 1 ≡ rounds + 2 [MOD 2^31] := by
      rw [Nat.ModEq]
      omega
    have same := spread 1 (rounds + 2) (both.mem_iff.mpr (by simp))
      (both.mem_iff.mpr (by simp)) congruent
    omega

/-- A region that is kept while 2^31 - 1 others come and go shares its access keys with
the next region, though only the two are live. -/
theorem kept_region_shares_access_keys : ∃ calls : List RegistryCall,
    (history calls).registrations < 2^64 ∧ (history calls).regions.values.length = 2 ∧
    ¬ (history calls).liveAccessKeys.Nodup :=
  ⟨_,churn_shares_access_keys (2^31 - 1) (by omega)⟩

end RegistryCall

end RdmaPlatform.Rdma
