import Mathlib.Data.List.AList
import Mathlib.Algebra.BigOperators.Group.List.Basic
import Mathlib.Tactic.Abel

/-! Finite tables whose values are updated in place. A table enumerates its
entries in some order; updates keep the keys and that order, so sums and counts
over a table move only by what the touched entry contributes. -/
namespace RdmaPlatform.Library

abbrev Table (κ ν : Type) := AList (fun _ : κ => ν)

namespace Table
variable {κ ν : Type}

def mapEntries (m : Table κ ν) (g : κ → ν → ν) : Table κ ν :=
  ⟨m.entries.map (fun e => ⟨e.1,g e.1 e.2⟩),List.NodupKeys.map₂ g m.entries m.nodupKeys⟩

def mapValues (m : Table κ ν) (f : ν → ν) : Table κ ν := m.mapEntries (fun _ => f)

def values (m : Table κ ν) : List ν := m.entries.map (·.2)

def count (m : Table κ ν) (p : ν → Prop) [DecidablePred p] : Nat :=
  m.entries.countP (fun e => decide (p e.2))

def total {M : Type} [AddCommMonoid M] (m : Table κ ν) (weight : ν → M) : M :=
  (m.entries.map (fun e => weight e.2)).sum

theorem keys_mapEntries (m : Table κ ν) (g : κ → ν → ν) : (m.mapEntries g).keys = m.keys := by
  simp [mapEntries,AList.keys,List.keys]

@[simp] theorem keys_mapValues (m : Table κ ν) (f : ν → ν) : (m.mapValues f).keys = m.keys :=
  keys_mapEntries m _

variable [DecidableEq κ]

def lookup (m : Table κ ν) (key : κ) : Option ν := AList.lookup key m

def put (m : Table κ ν) (key : κ) (value : ν) : Table κ ν := AList.insert key value m

/-- A write through the pointer stored under a key. -/
def modify (m : Table κ ν) (key : κ) (f : ν → ν) : Table κ ν :=
  m.mapEntries (fun k v => if k = key then f v else v)

@[simp] theorem lookup_mapEntries (m : Table κ ν) (g : κ → ν → ν) (key : κ) :
    (m.mapEntries g).lookup key = (m.lookup key).map (g key) :=
  List.dlookup_map₂ key

@[simp] theorem lookup_mapValues (m : Table κ ν) (f : ν → ν) (key : κ) :
    (m.mapValues f).lookup key = (m.lookup key).map f :=
  lookup_mapEntries m _ key

theorem lookup_modify (m : Table κ ν) (key other : κ) (f : ν → ν) :
    (m.modify key f).lookup other = if other = key then (m.lookup other).map f else m.lookup other := by
  by_cases same : other = key
  · simp [modify,same]
  · simp [modify,same]

@[simp] theorem lookup_modify_self (m : Table κ ν) (key : κ) (f : ν → ν) :
    (m.modify key f).lookup key = (m.lookup key).map f := by
  simp [lookup_modify]

theorem lookup_modify_ne (m : Table κ ν) {key other : κ} (f : ν → ν) (distinct : other ≠ key) :
    (m.modify key f).lookup other = m.lookup other := by
  simp [lookup_modify,distinct]

@[simp] theorem keys_modify (m : Table κ ν) (key : κ) (f : ν → ν) : (m.modify key f).keys = m.keys :=
  keys_mapEntries m _

theorem lookup_put (m : Table κ ν) (key other : κ) (value : ν) :
    (m.put key value).lookup other = if other = key then some value else m.lookup other := by
  by_cases same : other = key
  · subst other
    simp [lookup,put]
  · simp [lookup,put,AList.lookup_insert_ne same,same]

theorem modify_forall (m : Table κ ν) (key : κ) (f : ν → ν) (P : κ → ν → Prop)
    (before : ∀ k v, m.lookup k = some v → P k v)
    (step : ∀ v, m.lookup key = some v → P key v → P key (f v)) :
    ∀ k v, (m.modify key f).lookup k = some v → P k v := by
  intro k v found
  rw [lookup_modify] at found
  split at found
  next same =>
    subst same
    obtain ⟨old,lookup,rfl⟩ := Option.map_eq_some_iff.mp found
    exact step old lookup (before k old lookup)
  next => exact before k v found

theorem mapValues_forall (m : Table κ ν) (f : ν → ν) (P : κ → ν → Prop)
    (before : ∀ k v, m.lookup k = some v → P k v) (step : ∀ k v, P k v → P k (f v)) :
    ∀ k v, (m.mapValues f).lookup k = some v → P k v := by
  intro k v found
  rw [lookup_mapValues] at found
  obtain ⟨old,lookup,rfl⟩ := Option.map_eq_some_iff.mp found
  exact step k old (before k old lookup)

theorem put_forall (m : Table κ ν) (key : κ) (value : ν) (P : κ → ν → Prop)
    (before : ∀ k v, m.lookup k = some v → P k v) (stored : P key value) :
    ∀ k v, (m.put key value).lookup k = some v → P k v := by
  intro k v found
  rw [lookup_put] at found
  split at found
  next same =>
    subst same
    cases found
    exact stored
  next => exact before k v found

theorem keys_put_fresh (m : Table κ ν) (key : κ) (value : ν) (fresh : m.lookup key = none) :
    (m.put key value).keys = key :: m.keys := by
  rw [put,AList.keys,AList.entries_insert_of_notMem (AList.lookup_eq_none.mp fresh)]
  rfl

def copyIf (m : Table κ ν) (keep : κ → Bool) : Table κ ν :=
  m.entries.foldl (fun output e => if keep e.1 then output.put e.1 e.2 else output) (∅ : Table κ ν)

private theorem lookup_copy_fold (keep : κ → Bool) (entries : List ((_ : κ) × ν))
    (distinct : entries.NodupKeys) (initial : Table κ ν) (key : κ) :
    (entries.foldl (fun output e => if keep e.1 then output.put e.1 e.2 else output) initial).lookup
      key = if keep key ∧ key ∈ entries.keys then entries.dlookup key else initial.lookup key := by
  induction entries generalizing initial with
  | nil => simp
  | cons entry rest ih =>
    rcases entry with ⟨first,value⟩
    have absent := List.notMem_keys_of_nodupKeys_cons distinct
    rw [List.foldl_cons,ih (List.nodupKeys_of_nodupKeys_cons distinct)]
    by_cases same : key = first
    · subst same
      by_cases kept : keep key
      · simp [absent,kept,lookup_put,List.dlookup_cons_eq]
      · simp [kept]
    · rw [List.dlookup_cons_ne _ _ same]
      by_cases kept : keep first
      · simp [kept,lookup_put,same]
      · simp [kept,same]

theorem lookup_copyIf (m : Table κ ν) (keep : κ → Bool) (key : κ) :
    (m.copyIf keep).lookup key = if keep key then m.lookup key else none := by
  rw [copyIf,lookup_copy_fold keep m.entries m.nodupKeys]
  by_cases kept : keep key
  · by_cases present : key ∈ m.entries.keys
    · simp [kept,present,lookup,AList.lookup]
    · simp [kept,present,lookup,AList.lookup,List.dlookup_eq_none.mpr present]
  · simp [kept,lookup]

omit [DecidableEq κ] in
theorem mapValues_mapValues (m : Table κ ν) (f g : ν → ν) :
    (m.mapValues f).mapValues g = m.mapValues (fun v => g (f v)) := by
  apply AList.ext
  simp [mapValues,mapEntries]

/-- A view of the values that a write through a pointer respects. -/
theorem mapValues_modify (m : Table κ ν) (key : κ) (f view : ν → ν)
    (respects : ∀ v, view (f (view v)) = view (f v)) (stable : ∀ v, view (view v) = view v) :
    ((m.mapValues view).modify key f).mapValues view = (m.modify key f).mapValues view := by
  apply AList.ext
  simp only [modify,mapValues,mapEntries,List.map_map]
  apply List.map_congr_left
  intro e _
  simp only [Function.comp_apply,apply_ite view,respects,stable]

theorem mapEntries_put_fresh (m : Table κ ν) (key : κ) (value : ν) (g : κ → ν → ν)
    (fresh : m.lookup key = none) :
    (m.put key value).mapEntries g = (m.mapEntries g).put key (g key value) := by
  have absent : key ∉ m := AList.lookup_eq_none.mp fresh
  have mapped : key ∉ m.mapEntries g := by
    rw [← AList.lookup_eq_none]
    exact (lookup_mapEntries m g key).trans (by rw [fresh]; rfl)
  apply AList.ext
  rw [put,put,AList.entries_insert_of_notMem mapped]
  simp only [mapEntries]
  rw [AList.entries_insert_of_notMem absent]
  rfl

theorem mapValues_put_fresh (m : Table κ ν) (key : κ) (value : ν) (f : ν → ν)
    (fresh : m.lookup key = none) :
    (m.put key value).mapValues f = (m.mapValues f).put key (f value) :=
  mapEntries_put_fresh m key value _ fresh

theorem modify_put_fresh (m : Table κ ν) {key other : κ} (value : ν) (f : ν → ν)
    (fresh : m.lookup key = none) (distinct : key ≠ other) :
    (m.put key value).modify other f = (m.modify other f).put key value := by
  have moved := mapEntries_put_fresh m key value (fun k v => if k = other then f v else v) fresh
  simp only [if_neg distinct] at moved
  exact moved

theorem mem_entries_iff (m : Table κ ν) (key : κ) (value : ν) :
    (⟨key,value⟩ : (_ : κ) × ν) ∈ m.entries ↔ m.lookup key = some value :=
  AList.mem_lookup_iff.symm

/-- A loop over the keys that writes through each pointer once. -/
theorem foldl_modify (m : Table κ ν) (keys : List κ) (f : ν → ν) (distinct : keys.Nodup) :
    keys.foldl (fun table key => table.modify key f) m =
      m.mapEntries (fun k v => if k ∈ keys then f v else v) := by
  induction keys generalizing m with
  | nil =>
    apply AList.ext
    simp [mapEntries]
  | cons key rest ih =>
    obtain ⟨apart,tail⟩ := List.nodup_cons.mp distinct
    rw [List.foldl_cons,ih _ tail]
    apply AList.ext
    simp only [modify,mapEntries,List.map_map]
    apply List.map_congr_left
    intro e _
    by_cases same : e.1 = key
    · simp [same,apart]
    · simp [same]

theorem foldl_modify_keys (m : Table κ ν) (keys : List κ) (f : ν → ν) (all : keys.Perm m.keys) :
    keys.foldl (fun table key => table.modify key f) m = m.mapValues f := by
  rw [foldl_modify m keys f (all.nodup_iff.mpr m.nodupKeys)]
  apply AList.ext
  apply List.map_congr_left
  intro e member
  simp only [if_pos (all.mem_iff.mpr (List.mem_keys_of_mem member))]

theorem mem_keys_iff (m : Table κ ν) (key : κ) :
    key ∈ m.keys ↔ ∃ value, m.lookup key = some value := by
  rw [← AList.mem_keys,← AList.lookup_isSome,Option.isSome_iff_exists]
  rfl

theorem mem_values_iff (m : Table κ ν) (value : ν) :
    value ∈ m.values ↔ ∃ key, m.lookup key = some value := by
  simp only [values,List.mem_map,← mem_entries_iff]
  exact ⟨fun ⟨entry,member,same⟩ => ⟨entry.1,same ▸ member⟩,
    fun ⟨key,member⟩ => ⟨⟨key,value⟩,member,rfl⟩⟩

theorem keys_put (m : Table κ ν) (key : κ) (value : ν) : m.keys ⊆ (m.put key value).keys := by
  intro other member
  exact AList.mem_keys.mp ((AList.mem_insert _).mpr (.inr (AList.mem_keys.mpr member)))

section Totals
variable {M : Type} [AddCommMonoid M]

omit [DecidableEq κ] in
theorem count_eq_total (m : Table κ ν) (p : ν → Prop) [DecidablePred p] :
    m.count p = m.total (fun v => if p v then 1 else 0) := by
  rcases m with ⟨entries,distinct⟩
  simp only [count,total]
  clear distinct
  induction entries with
  | nil => rfl
  | cons entry rest ih =>
    by_cases holds : p entry.2
    · simp [holds,ih,Nat.add_comm]
    · simp [holds,ih]

private theorem sum_update (entries : List ((_ : κ) × ν)) (distinct : entries.NodupKeys)
    (key : κ) (value : ν) (f : ν → ν) (weight : ν → M)
    (member : (⟨key,value⟩ : (_ : κ) × ν) ∈ entries) :
    (entries.map (fun e => weight (if e.1 = key then f e.2 else e.2))).sum + weight value =
      (entries.map (fun e => weight e.2)).sum + weight (f value) := by
  induction entries with
  | nil => cases member
  | cons entry rest ih =>
    have absent := List.notMem_keys_of_nodupKeys_cons distinct
    have tail := List.nodupKeys_of_nodupKeys_cons distinct
    rcases List.mem_cons.mp member with same | inside
    · subst same
      have untouched : rest.map (fun e => weight (if e.1 = key then f e.2 else e.2)) =
          rest.map (fun e => weight e.2) := by
        apply List.map_congr_left
        intro e inside
        have other : e.1 ≠ key := by
          intro equal
          exact absent (List.mem_keys.mpr ⟨e.2,by simpa [← equal] using inside⟩)
        rw [if_neg other]
      simp only [List.map_cons,List.sum_cons,if_true,untouched]
      abel
    · have other : entry.1 ≠ key := by
        intro equal
        exact absent (List.mem_keys.mpr ⟨value,by simpa [equal] using inside⟩)
      simp only [List.map_cons,List.sum_cons,if_neg other,add_assoc]
      rw [ih tail inside]

theorem total_modify (m : Table κ ν) (key : κ) (value : ν) (f : ν → ν) (weight : ν → M)
    (found : m.lookup key = some value) :
    (m.modify key f).total weight + weight value = m.total weight + weight (f value) := by
  have member := (mem_entries_iff m key value).mpr found
  have updated := sum_update m.entries m.nodupKeys key value f weight member
  simpa [total,modify,mapEntries,List.map_map,Function.comp_def] using updated

theorem total_put_fresh (m : Table κ ν) (key : κ) (value : ν) (weight : ν → M)
    (fresh : m.lookup key = none) :
    (m.put key value).total weight = weight value + m.total weight := by
  rw [total,put,AList.entries_insert_of_notMem (AList.lookup_eq_none.mp fresh)]
  simp [total]

theorem total_put_present (m : Table κ ν) (key : κ) (value old : ν) (weight : ν → M)
    (found : m.lookup key = some old) :
    (m.put key value).total weight + weight old = m.total weight + weight value := by
  have present : key ∈ m.entries.keys := by
    have member := (mem_entries_iff m key old).mpr found
    exact List.mem_keys_of_mem member
  obtain ⟨stored,before,after,outside,split,erased⟩ := List.exists_of_kerase present
  have same : stored = old := by
    have inside : (⟨key,stored⟩ : (_ : κ) × ν) ∈ m.entries := by rw [split]; simp
    have lookup := (mem_entries_iff m key stored).mp inside
    exact Option.some.inj (lookup.symm.trans found)
  subst same
  rw [total,put,AList.entries_insert,erased,total,split]
  simp only [List.map_cons,List.map_append,List.sum_cons,List.sum_append]
  abel

omit [DecidableEq κ] in
theorem total_mapValues (m : Table κ ν) (f : ν → ν) (weight : ν → M)
    (same : ∀ v, weight (f v) = weight v) : (m.mapValues f).total weight = m.total weight := by
  simp [total,mapValues,mapEntries,List.map_map,Function.comp_def,same]

end Totals

theorem count_modify (m : Table κ ν) (key : κ) (value : ν) (f : ν → ν)
    (p : ν → Prop) [DecidablePred p] (found : m.lookup key = some value) :
    (m.modify key f).count p + (if p value then 1 else 0) =
      m.count p + (if p (f value) then 1 else 0) := by
  simp only [count_eq_total]
  exact total_modify m key value f (fun v => if p v then 1 else 0) found

theorem count_put_fresh (m : Table κ ν) (key : κ) (value : ν)
    (p : ν → Prop) [DecidablePred p] (fresh : m.lookup key = none) :
    (m.put key value).count p = (if p value then 1 else 0) + m.count p := by
  simp only [count_eq_total]
  exact total_put_fresh m key value (fun v => if p v then 1 else 0) fresh

theorem count_put_le (m : Table κ ν) (key : κ) (value : ν)
    (p : ν → Prop) [DecidablePred p] (lacks : ¬ p value) :
    (m.put key value).count p ≤ m.count p := by
  cases found : m.lookup key with
  | none =>
    rw [count_put_fresh m key value p found,if_neg lacks]
    omega
  | some old =>
    have moved := total_put_present m key value old (fun v => if p v then 1 else 0) found
    simp only [← count_eq_total,if_neg lacks] at moved
    omega

theorem count_pos (m : Table κ ν) (p : ν → Prop) [DecidablePred p] (key : κ) (value : ν)
    (found : m.lookup key = some value) (holds : p value) : 0 < m.count p := by
  apply List.countP_pos_iff.mpr
  exact ⟨⟨key,value⟩,(mem_entries_iff m key value).mpr found,by simpa using holds⟩

theorem count_eq_zero (m : Table κ ν) (p : ν → Prop) [DecidablePred p]
    (none : ∀ key value, m.lookup key = some value → ¬ p value) : m.count p = 0 := by
  apply List.countP_eq_zero.mpr
  rintro ⟨key,value⟩ member
  simpa using none key value ((mem_entries_iff m key value).mp member)

private theorem sum_indicator {ω : Type} [DecidableEq ω] (owners : List ω) (distinct : owners.Nodup)
    (target : ω) (p : Prop) [Decidable p] (covered : p → target ∈ owners) :
    (owners.map (fun k => if p ∧ target = k then 1 else 0)).sum = if p then 1 else 0 := by
  have counted (keys : List ω) : (keys.map (fun k => if target = k then 1 else 0)).sum =
      keys.count target := by
    induction keys with
    | nil => rfl
    | cons head rest ih =>
      rw [List.map_cons,List.sum_cons,ih,List.count_cons]
      by_cases same : target = head
      · simp [same,Nat.add_comm]
      · simp [same,Ne.symm same]
  by_cases holds : p
  · simp only [holds,true_and,if_true]
    rw [counted,List.count_eq_one_of_mem distinct (covered holds)]
  · simp [holds]

omit [DecidableEq κ] in
/-- Values with an owner are counted once when counted owner by owner. -/
theorem sum_count_owner {ω : Type} [DecidableEq ω] (m : Table κ ν) (owners : List ω)
    (distinct : owners.Nodup) (p : ν → Prop) [DecidablePred p] (owner : ν → ω)
    (covered : ∀ e ∈ m.entries, p e.2 → owner e.2 ∈ owners) :
    (owners.map (fun k => m.count (fun v => p v ∧ owner v = k))).sum = m.count p := by
  rcases m with ⟨entries,keys⟩
  simp only [count] at covered ⊢
  clear keys
  induction entries with
  | nil => simp
  | cons entry rest ih =>
    simp only [List.countP_cons,decide_eq_true_eq]
    rw [List.sum_map_add,ih (fun e member => covered e (by simp [member])),
      sum_indicator owners distinct (owner entry.2) (p entry.2) (covered entry (by simp))]

end Table
end RdmaPlatform.Library
