import Mathlib.Data.List.Nodup
import Mathlib.Logic.Function.Basic

namespace Bbdd.Lib.Directory

variable {K V : Type} [DecidableEq K]

/-- A finite map with a fixed iteration order, in the manner of a chained
hash table: keys are listed once each, in order of insertion. -/
structure Dir (K V : Type) where
  keys : List K
  find : K → Option V
  nodup : keys.Nodup
  sound : ∀ k, k ∈ keys ↔ (find k).isSome

namespace Dir

def empty : Dir K V := ⟨[], fun _ => none, List.nodup_nil, by simp⟩

/-- Bind a key, at the end of the order when it is new. -/
def insert (m : Dir K V) (k : K) (v : V) : Dir K V where
  keys := if k ∈ m.keys then m.keys else m.keys ++ [k]
  find := Function.update m.find k (some v)
  nodup := by
    split
    · exact m.nodup
    · rename_i h
      exact List.nodup_append.mpr ⟨m.nodup, List.nodup_singleton k, by
        intro a ha b hb
        rw [List.mem_singleton] at hb
        exact fun he => h (hb ▸ he ▸ ha)⟩
  sound := by
    intro j
    by_cases hj : j = k
    · subst hj
      split <;> simp_all
    · rw [Function.update_of_ne hj, ← m.sound j]
      split <;> simp [hj]

def erase (m : Dir K V) (k : K) : Dir K V where
  keys := m.keys.filter (· ≠ k)
  find := Function.update m.find k none
  nodup := m.nodup.filter _
  sound := by
    intro j
    by_cases hj : j = k
    · subst hj; simp
    · simp [hj, ← m.sound j]

def values (m : Dir K V) : List V := m.keys.filterMap m.find

def count (m : Dir K V) : Nat := m.keys.length

omit [DecidableEq K] in
@[simp] theorem find_empty (k : K) : (empty : Dir K V).find k = none := rfl

@[simp] theorem find_insert_self (m : Dir K V) (k : K) (v : V) : (m.insert k v).find k = some v := by
  simp [insert]

theorem find_insert_of_ne (m : Dir K V) {j k : K} (h : j ≠ k) (v : V) :
    (m.insert k v).find j = m.find j := by
  simp [insert, h]

theorem find_insert (m : Dir K V) (j k : K) (v : V) :
    (m.insert k v).find j = if j = k then some v else m.find j := by
  by_cases h : j = k
  · subst h; simp
  · simp [find_insert_of_ne m h, h]

@[simp] theorem find_erase_self (m : Dir K V) (k : K) : (m.erase k).find k = none := by
  simp [erase]

theorem find_erase_of_ne (m : Dir K V) {j k : K} (h : j ≠ k) : (m.erase k).find j = m.find j := by
  simp [erase, h]

theorem find_erase (m : Dir K V) (j k : K) :
    (m.erase k).find j = if j = k then none else m.find j := by
  by_cases h : j = k
  · subst h; simp
  · simp [find_erase_of_ne m h, h]

theorem keys_insert_of_mem (m : Dir K V) {k : K} (h : k ∈ m.keys) (v : V) :
    (m.insert k v).keys = m.keys := by
  simp [insert, h]

omit [DecidableEq K] in
theorem ext {m m' : Dir K V} (hk : m.keys = m'.keys) (hf : m.find = m'.find) : m = m' := by
  cases m
  cases m'
  cases hk
  cases hf
  rfl

theorem insert_insert (m : Dir K V) (k : K) (v v' : V) : (m.insert k v).insert k v' = m.insert k v' := by
  refine ext ?_ ?_
  · have hk : k ∈ (m.insert k v).keys := ((m.insert k v).sound k).mpr (by simp)
    exact keys_insert_of_mem (m.insert k v) hk v'
  · simp [insert]

omit [DecidableEq K] in
theorem mem_values {m : Dir K V} {v : V} : v ∈ m.values ↔ ∃ k, m.find k = some v := by
  simp only [values, List.mem_filterMap]
  exact ⟨fun ⟨k, _, h⟩ => ⟨k, h⟩, fun ⟨k, h⟩ => ⟨k, (m.sound k).mpr (by simp [h]), h⟩⟩

omit [DecidableEq K] in
theorem map_values {m : Dir K V} {f : V → K} (h : ∀ k v, m.find k = some v → f v = k) :
    m.values.map f = m.keys := by
  have hall : ∀ ks : List K, (∀ k ∈ ks, (m.find k).isSome) → (ks.filterMap m.find).map f = ks := by
    intro ks
    induction ks with
    | nil => exact fun _ => rfl
    | cons k ks ih =>
      intro hks
      obtain ⟨v, hv⟩ := Option.isSome_iff_exists.mp (hks k List.mem_cons_self)
      simp only [List.filterMap_cons, hv, List.map_cons, h k v hv]
      rw [ih (fun j hj => hks j (List.mem_cons_of_mem _ hj))]
  exact hall m.keys (fun k hk => (m.sound k).mp hk)

end Dir

end Bbdd.Lib.Directory
