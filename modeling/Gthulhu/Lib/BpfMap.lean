/-
The two kinds of BPF map, as the kernel documents them: a hash map takes a
fixed number of entries and refuses a new key when it is full; an array has
all its slots from the start and refuses an index beyond them.

`HashMap.lookup_create` and the lemmas beside it say what each operation
leaves under every key; the bound on the number of entries is a field.
-/
import Mathlib.Data.List.AList
import Mathlib.Data.Set.Card

namespace Lib.Bpf

open AList

/-- What a map operation fails with; the maps themselves give the first three. -/
inductive Errno where
  | eexist
  | enoent
  | e2big
  | other (code : Nat)
  deriving DecidableEq

/-! ## Hash maps -/

/-- `BPF_MAP_TYPE_HASH` with `maxEntries`. -/
structure HashMap (κ ν : Type) [DecidableEq κ] (maxEntries : Nat) where
  entries : AList fun _ : κ => ν
  fits : entries.keys.length ≤ maxEntries

namespace HashMap

variable {κ ν : Type} [DecidableEq κ] {n : Nat}

@[ext] theorem ext {m m' : HashMap κ ν n} (h : m.entries = m'.entries) : m = m' := by
  cases m
  cases m'
  cases h
  rfl

def empty : HashMap κ ν n := ⟨∅, Nat.zero_le n⟩

def lookup (m : HashMap κ ν n) (k : κ) : Option ν := m.entries.lookup k

def size (m : HashMap κ ν n) : Nat := m.entries.keys.length

theorem lookup_isSome {m : HashMap κ ν n} {k} : (m.lookup k).isSome ↔ k ∈ m.entries :=
  AList.lookup_isSome

theorem lookup_eq_none {m : HashMap κ ν n} {k} : m.lookup k = none ↔ k ∉ m.entries :=
  AList.lookup_eq_none

@[simp] theorem lookup_empty (k : κ) : (empty : HashMap κ ν n).lookup k = none :=
  AList.lookup_empty k

private theorem length_insert_of_mem {m : AList fun _ : κ => ν} {k : κ} (v : ν) (h : k ∈ m) :
    (m.insert k v).keys.length = m.keys.length := by
  rw [keys_insert, List.length_cons, List.length_erase_of_mem (mem_keys.mp h)]
  exact Nat.sub_add_cancel (List.length_pos_of_mem (mem_keys.mp h))

private theorem length_insert_of_notMem {m : AList fun _ : κ => ν} {k : κ} (v : ν) (h : k ∉ m) :
    (m.insert k v).keys.length = m.keys.length + 1 := by
  rw [keys_insert, List.length_cons, List.erase_of_not_mem h]

private theorem length_erase_le_keys (m : AList fun _ : κ => ν) (k : κ) :
    (m.erase k).keys.length ≤ m.keys.length := by
  rw [keys_erase]
  exact List.length_erase_le

/-- Writing through the pointer that a lookup of `k` returned. -/
def store (m : HashMap κ ν n) (k : κ) (v : ν) : HashMap κ ν n :=
  if h : k ∈ m.entries then
    ⟨m.entries.insert k v, Nat.le_trans (Nat.le_of_eq (length_insert_of_mem v h)) m.fits⟩
  else m

/-- `bpf_map_update_elem` with `BPF_NOEXIST`. -/
def create (m : HashMap κ ν n) (k : κ) (v : ν) : Except Errno (HashMap κ ν n) :=
  if hk : k ∈ m.entries then .error .eexist
  else if hn : m.size < n then
    .ok ⟨m.entries.insert k v, Nat.le_trans (Nat.le_of_eq (length_insert_of_notMem v hk)) hn⟩
  else .error .e2big

/-- `bpf_map_update_elem` with `BPF_ANY`. -/
def update (m : HashMap κ ν n) (k : κ) (v : ν) : Except Errno (HashMap κ ν n) :=
  if k ∈ m.entries then .ok (m.store k v) else m.create k v

/-- `bpf_map_delete_elem`. -/
def delete (m : HashMap κ ν n) (k : κ) : Except Errno (HashMap κ ν n) :=
  if k ∈ m.entries then
    .ok ⟨m.entries.erase k, Nat.le_trans (length_erase_le_keys m.entries k) m.fits⟩
  else .error .enoent

/-- The map after an operation whose outcome the caller ignores. -/
def after (m : HashMap κ ν n) (outcome : Except Errno (HashMap κ ν n)) : HashMap κ ν n :=
  match outcome with
  | .ok m' => m'
  | .error _ => m

theorem lookup_store {m : HashMap κ ν n} {k} (v : ν) (k' : κ) :
    (m.store k v).lookup k' = if k' = k then (m.lookup k).map fun _ => v else m.lookup k' := by
  by_cases hk : k ∈ m.entries
  · have hs : (m.lookup k).isSome := lookup_isSome.mpr hk
    obtain ⟨_, hw⟩ := Option.isSome_iff_exists.mp hs
    by_cases h : k' = k
    · subst h
      simp only [store, hk, lookup, dif_pos, lookup_insert, if_true]
      rw [lookup] at hw
      rw [hw]
      rfl
    · simp only [store, hk, lookup, dif_pos, lookup_insert_ne h, if_neg h]
  · have hn : m.lookup k = none := lookup_eq_none.mpr hk
    by_cases h : k' = k
    · subst h
      simp [store, hk, hn]
    · simp [store, hk, h]

/-- A new entry is there after `create` if there was room for it. -/
theorem lookup_create {m : HashMap κ ν n} {k} (v : ν) (hk : m.lookup k = none) (k' : κ) :
    (m.after (m.create k v)).lookup k' =
      if k' = k then (if m.size < n then some v else none) else m.lookup k' := by
  have hk' : k ∉ m.entries := lookup_eq_none.mp hk
  by_cases hn : m.size < n
  · by_cases h : k' = k
    · subst h
      simp [create, hk', hn, after, lookup]
    · simp [create, hk', hn, after, lookup, h, lookup_insert_ne h]
  · by_cases h : k' = k
    · subst h
      simp [create, hk', hn, after, hk]
    · simp [create, hk', hn, after, h]

theorem lookup_delete (m : HashMap κ ν n) (k k' : κ) :
    (m.after (m.delete k)).lookup k' = if k' = k then none else m.lookup k' := by
  by_cases hk : k ∈ m.entries
  · by_cases h : k' = k
    · subst h
      simp [delete, hk, after, lookup]
    · simp [delete, hk, after, lookup, h, lookup_erase_ne h]
  · by_cases h : k' = k
    · subst h
      simp [delete, hk, after, lookup_eq_none.mpr hk]
    · simp [delete, hk, after, h]

/-- A key has the value after an `update` that succeeded; the others are as
they were. -/
theorem lookup_update {m m' : HashMap κ ν n} {k v} (h : m.update k v = .ok m') (k' : κ) :
    m'.lookup k' = if k' = k then some v else m.lookup k' := by
  unfold update at h
  split at h
  case isTrue hk =>
    cases h
    obtain ⟨_, hw⟩ := Option.isSome_iff_exists.mp (lookup_isSome.mpr hk)
    rw [lookup_store, hw]
    rfl
  case isFalse hk =>
    have hcreate := lookup_create v (lookup_eq_none.mpr hk) k'
    rw [h] at hcreate
    unfold create at h
    rw [dif_neg hk] at h
    split at h
    case isTrue hn =>
      rw [if_pos hn] at hcreate
      exact hcreate
    case isFalse => cases h

/-- A key is there after an `update` that succeeded; the others are as they
were. -/
theorem mem_update {m m' : HashMap κ ν n} {k v} (h : m.update k v = .ok m') (k' : κ) :
    k' ∈ m'.entries ↔ k' = k ∨ k' ∈ m.entries := by
  rw [← lookup_isSome, lookup_update h, ← lookup_isSome]
  by_cases hk : k' = k <;> simp [hk]

/-- A key is gone after a `delete`, whether it was there or not. -/
theorem mem_delete (m : HashMap κ ν n) (k k' : κ) :
    k' ∈ (m.after (m.delete k)).entries ↔ k' ≠ k ∧ k' ∈ m.entries := by
  rw [← lookup_isSome, lookup_delete, ← lookup_isSome]
  by_cases h : k' = k <;> simp [h]

/-- A map has no more entries than any finite set that holds its keys. -/
theorem size_le_ncard (m : HashMap κ ν n) {S : Set κ} (hS : S.Finite) (h : ∀ k, (m.lookup k).isSome → k ∈ S) :
    m.size ≤ S.ncard := by
  have hcard : m.entries.keys.toFinset.card = m.size := List.toFinset_card_of_nodup m.entries.nodupKeys
  rw [← hcard, ← Set.ncard_coe_finset]
  refine Set.ncard_le_ncard (fun k hk => ?_) hS
  have hmem : k ∈ m.entries.keys := by simpa using hk
  exact h k (lookup_isSome.mpr (mem_keys.mpr hmem))

end HashMap

/-! ## Arrays -/

/-- `BPF_MAP_TYPE_ARRAY` with `n` slots. -/
def Array (ν : Type) (n : Nat) : Type := Fin n → ν

namespace Array

variable {ν : Type} {n : Nat}

def lookup (a : Array ν n) (i : Nat) : Option ν := if h : i < n then some (a ⟨i, h⟩) else none

def update (a : Array ν n) (i : Nat) (v : ν) : Except Errno (Array ν n) :=
  if h : i < n then .ok (Function.update a ⟨i, h⟩ v) else .error .e2big

theorem lookup_update {a a' : Array ν n} {i v} (h : a.update i v = .ok a') (j : Nat) :
    a'.lookup j = if j = i then some v else a.lookup j := by
  unfold update at h
  split at h
  case isFalse => cases h
  case isTrue hi =>
    cases h
    by_cases hj : j = i
    · subst hj
      rw [if_pos rfl]
      unfold lookup
      rw [dif_pos hi]
      exact congrArg some (Function.update_self (⟨j, hi⟩ : Fin n) v a)
    · rw [if_neg hj]
      unfold lookup
      split
      case isTrue hn =>
        have hne : (⟨j, hn⟩ : Fin n) ≠ ⟨i, hi⟩ := fun h => hj (Fin.mk.inj h)
        exact congrArg some (Function.update_of_ne hne v a)
      case isFalse => rfl

end Array

end Lib.Bpf
