import RdmaPlatform.Library.Bytes
import Mathlib.Algebra.BigOperators.Group.List.Basic

/-! Tensors: `worker/model/tensor.cpp`. The number of elements is computed from the shape
in 64-bit arithmetic each time it is asked for; the number of bytes comes from the data
that the constructor has allocated. -/
namespace RdmaPlatform.Worker
open Library

/-- `std::vector<float>::max_size`. -/
def maxSize : Nat := (2^63 - 1) / 4

structure Tensor where
  name : Bytes
  shape : List UInt64
  data : List Float32
  fits : data.length ≤ maxSize

namespace Tensor

/-- The result of `ElementCount` for a shape. -/
def countElements (shape : List UInt64) : UInt64 :=
  if shape = [] then 1 else shape.foldl (fun lhs rhs => lhs * rhs) 1

def elementCount (tensor : Tensor) : UInt64 := countElements tensor.shape

/-- `Tensor() = default`. -/
def default : Tensor := ⟨[],[],[],Nat.zero_le _⟩

inductive Thrown where
  | lengthError
  | badAlloc

/-- The constructor; `allocates` tells for which numbers of bytes there is memory. -/
def make (allocates : Nat → Bool) (name : Bytes) (shape : List UInt64) : Except Thrown Tensor :=
  let elements := (countElements shape).toNat
  if room : elements ≤ maxSize then
    if elements = 0 ∨ allocates (4 * elements) then
      .ok ⟨name,shape,List.replicate elements (Float32.ofBits 0),by rwa [List.length_replicate]⟩
    else .error .badAlloc
  else .error .lengthError

def fillRamp (start step : Float32) (tensor : Tensor) : Tensor where
  name := tensor.name
  shape := tensor.shape
  data := tensor.data.mapIdx (fun i _ => start + Float32.ofNat i * step)
  fits := by rw [List.length_mapIdx]; exact tensor.fits

def byteSize (tensor : Tensor) : UInt64 := UInt64.ofNat tensor.data.length * 4

/-- A float in memory, the least significant byte first. -/
def floatBytes (value : Float32) : Bytes :=
  [value.toBits.toUInt8,(value.toBits >>> 8).toUInt8,(value.toBits >>> 16).toUInt8,
    (value.toBits >>> 24).toUInt8]

def memcpy (target source : Bytes) (count : Nat) : Bytes := source.take count ++ target.drop count

def serialize (tensor : Tensor) : Bytes :=
  let bytes := List.replicate tensor.byteSize.toNat 0
  if tensor.data = [] then bytes else memcpy bytes (tensor.data.flatMap floatBytes) bytes.length

/-- The product of the dimensions without a bound. -/
def exactCount (shape : List UInt64) : Nat := (shape.map UInt64.toNat).prod

theorem foldl_mul_toNat (shape : List UInt64) (initial : UInt64) :
    (shape.foldl (fun lhs rhs => lhs * rhs) initial).toNat =
      initial.toNat * exactCount shape % 2^64 := by
  induction shape generalizing initial with
  | nil =>
    simp only [List.foldl_nil,exactCount,List.map_nil,List.prod_nil,Nat.mul_one]
    exact (Nat.mod_eq_of_lt initial.toNat_lt).symm
  | cons dim rest ih =>
    rw [List.foldl_cons,ih,UInt64.toNat_mul,Nat.mod_mul_mod]
    simp only [exactCount,List.map_cons,List.prod_cons,Nat.mul_assoc]

theorem countElements_toNat (shape : List UInt64) :
    (countElements shape).toNat = exactCount shape % 2^64 := by
  unfold countElements
  split
  next empty => rw [empty]; rfl
  next => rw [foldl_mul_toNat,UInt64.toNat_one,Nat.one_mul]

theorem byteSize_toNat (tensor : Tensor) : tensor.byteSize.toNat = 4 * tensor.data.length := by
  have fits := tensor.fits
  have four : (4 : UInt64).toNat = 4 := rfl
  rw [byteSize,UInt64.toNat_mul,UInt64.toNat_ofNat',four]
  simp only [maxSize] at fits
  omega

theorem serialize_length (tensor : Tensor) : tensor.serialize.length = tensor.byteSize.toNat := by
  have memory : (tensor.data.flatMap floatBytes).length = 4 * tensor.data.length := by
    simp [List.length_flatMap,floatBytes,Nat.mul_comm]
  unfold serialize
  split
  next => rw [List.length_replicate]
  next =>
    rw [memcpy,List.length_append,List.length_take,List.length_drop,List.length_replicate,memory,
      byteSize_toNat]
    omega

/-- The ways to construct a tensor. -/
inductive Construction where
  | default
  | shaped (name : Bytes) (shape : List UInt64)

def Construction.build (allocates : Nat → Bool) : Construction → Except Thrown Tensor
  | .default => .ok Tensor.default
  | .shaped name shape => make allocates name shape

/-- There is a shape, and the number of its elements has 64 bits. -/
def Construction.Counted : Construction → Prop
  | .default => False
  | .shaped _ shape => exactCount shape < 2^64

structure SizesExact (tensor : Tensor) : Prop where
  elements : tensor.elementCount.toNat = exactCount tensor.shape
  bytes : tensor.byteSize.toNat = 4 * tensor.elementCount.toNat
  serialized : tensor.serialize.length = tensor.byteSize.toNat

theorem make_eq_ok {allocates : Nat → Bool} {name : Bytes} {shape : List UInt64} {tensor : Tensor}
    (made : make allocates name shape = .ok tensor) :
    tensor.shape = shape ∧ tensor.data.length = (countElements shape).toNat := by
  unfold make at made
  simp only at made
  split at made
  next =>
    split at made
    next =>
      cases made
      exact ⟨rfl,List.length_replicate⟩
    next => cases made
  next => cases made

/-- The sizes depend on the shape and the length of the data, which filling keeps. -/
theorem sizesExact_iff (tensor : Tensor) :
    tensor.SizesExact ↔ exactCount tensor.shape < 2^64 ∧
      tensor.data.length = exactCount tensor.shape := by
  have elements : tensor.elementCount.toNat = exactCount tensor.shape % 2^64 :=
    countElements_toNat tensor.shape
  have bytes := byteSize_toNat tensor
  constructor
  · rintro ⟨counted,sized,_⟩
    omega
  · rintro ⟨small,stored⟩
    exact ⟨by omega,by omega,serialize_length tensor⟩

theorem fillRamp_sizesExact (start step : Float32) (tensor : Tensor) :
    (tensor.fillRamp start step).SizesExact ↔ tensor.SizesExact := by
  rw [sizesExact_iff,sizesExact_iff,fillRamp,List.length_mapIdx]

theorem fillRamps_sizesExact (ramps : List (Float32 × Float32)) (tensor : Tensor) :
    (ramps.foldl (fun filled ramp => filled.fillRamp ramp.1 ramp.2) tensor).SizesExact ↔
      tensor.SizesExact := by
  induction ramps generalizing tensor with
  | nil => rfl
  | cons ramp rest ih => exact (ih _).trans (fillRamp_sizesExact ramp.1 ramp.2 tensor)

/-- However often it is filled, a tensor has exact and consistent sizes exactly if it was
constructed from a shape whose elements can be counted. -/
theorem sizes_exact_iff_counted (allocates : Nat → Bool) (construction : Construction) (tensor : Tensor)
    (built : construction.build allocates = .ok tensor) (ramps : List (Float32 × Float32)) :
    (ramps.foldl (fun filled ramp => filled.fillRamp ramp.1 ramp.2) tensor).SizesExact ↔
      construction.Counted := by
  rw [fillRamps_sizesExact,sizesExact_iff]
  cases construction with
  | default =>
    cases built
    exact iff_of_false (fun sizes => absurd sizes.2 (by decide)) id
  | shaped name shape =>
    obtain ⟨rfl,stored⟩ := make_eq_ok built
    rw [stored,countElements_toNat,Construction.Counted]
    omega

theorem sizes_exact_iff_counted_matrix :
    ∃ tensor, make (fun _ => true) (utf8 "m") [2,3] = .ok tensor ∧ (tensor.fillRamp 0 1).SizesExact :=
  ⟨_,rfl,(sizes_exact_iff_counted (fun _ => true) (.shaped (utf8 "m") [2,3]) _ rfl [(0,1)]).mpr
    (show exactCount [2,3] < 2^64 by decide)⟩

/-- A default tensor counts one element and has no byte, and 2^32 rows of 2^32 elements are
constructed as a tensor without elements. -/
theorem sizes_inexact :
    (default.elementCount = 1 ∧ default.byteSize = 0) ∧
    ∃ tensor, make (fun _ => true) (utf8 "m") [4294967296,4294967296] = .ok tensor ∧
      exactCount tensor.shape = 2^64 ∧ tensor.elementCount = 0 ∧ tensor.byteSize = 0 :=
  ⟨⟨rfl,rfl⟩,_,rfl,rfl,rfl,rfl⟩

end Tensor

end RdmaPlatform.Worker
