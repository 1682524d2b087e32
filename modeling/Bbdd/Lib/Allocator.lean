import Mathlib.Data.List.Basic
import Mathlib.Logic.Function.Basic

namespace Bbdd.Lib.Allocator

section Words

variable {w : Nat}

def ffs (x : BitVec w) : Nat :=
  match (List.range w).find? (fun i => x.getLsbD i) with
  | none => 0
  | some i => i + 1

theorem ffs_eq_zero {x : BitVec w} (h : ffs x = 0) (i : Nat) : x.getLsbD i = false := by
  unfold ffs at h
  split at h
  · rename_i hf
    by_cases hi : i < w
    · simpa using List.find?_eq_none.mp hf i (List.mem_range.mpr hi)
    · exact BitVec.getLsbD_of_ge x i (Nat.le_of_not_lt hi)
  · cases h

theorem ffs_eq_succ {x : BitVec w} {i : Nat} (h : ffs x = i + 1) : i < w ∧ x.getLsbD i = true := by
  unfold ffs at h
  split at h
  · cases h
  · rename_i j hf
    cases h
    exact ⟨List.mem_range.mp (List.mem_of_find?_eq_some hf), List.find?_some hf⟩

def bit (words : Nat → BitVec w) (i : Nat) : Bool := (words (i / w)).getLsbD (i % w)

def setBit (words : Nat → BitVec w) (i j : Nat) : Nat → BitVec w :=
  Function.update words i (words i ||| (1#w <<< j))

def clearBit (words : Nat → BitVec w) (i j : Nat) : Nat → BitVec w :=
  Function.update words i (words i &&& ~~~(1#w <<< j))

theorem getLsbD_one_shift {i j : Nat} (hi : i < w) : (1#w <<< j).getLsbD i = decide (i = j) := by
  have hw : 0 < w := Nat.zero_lt_of_lt hi
  rw [BitVec.getLsbD_shiftLeft, BitVec.getLsbD_one]
  by_cases h : i < j
  · simp [hi, h, Nat.ne_of_lt h]
  · have : (i - j = 0) ↔ i = j := by omega
    simp [hi, hw, h, this]

theorem eq_position {i j k : Nat} (hj : j < w) : k = i * w + j ↔ k / w = i ∧ k % w = j := by
  have hw : 0 < w := Nat.zero_lt_of_lt hj
  constructor
  · rintro rfl
    rw [Nat.mul_comm, Nat.mul_add_div hw, Nat.mul_add_mod, Nat.div_eq_of_lt hj, Nat.mod_eq_of_lt hj]
    exact ⟨Nat.add_zero i, rfl⟩
  · rintro ⟨rfl, rfl⟩
    rw [Nat.mul_comm]
    exact (Nat.div_add_mod k w).symm

theorem bit_setBit (words : Nat → BitVec w) {i j : Nat} (hj : j < w) (k : Nat) :
    bit (setBit words i j) k = (decide (k = i * w + j) || bit words k) := by
  have hk : k % w < w := Nat.mod_lt k (Nat.zero_lt_of_lt hj)
  simp only [bit, setBit, Function.update_apply, eq_position hj]
  by_cases hi : k / w = i
  · simp [hi, getLsbD_one_shift hk, Bool.or_comm]
  · simp [hi]

theorem bit_clearBit (words : Nat → BitVec w) {i j : Nat} (hj : j < w) (k : Nat) :
    bit (clearBit words i j) k = (!decide (k = i * w + j) && bit words k) := by
  have hk : k % w < w := Nat.mod_lt k (Nat.zero_lt_of_lt hj)
  simp only [bit, clearBit, Function.update_apply, eq_position hj]
  by_cases hi : k / w = i
  · simp only [hi, if_true, true_and, BitVec.getLsbD_and, BitVec.getLsbD_not, getLsbD_one_shift hk,
      hk, decide_true,
      Bool.true_and, Bool.and_comm]
  · simp [hi]

theorem clearBit_setBit (words : Nat → BitVec w) {i j : Nat} (h : (words i).getLsbD j = false) :
    clearBit (setBit words i j) i j = words := by
  have hword : (words i ||| (1#w <<< j)) &&& ~~~(1#w <<< j) = words i := by
    apply BitVec.eq_of_getLsbD_eq
    intro k hk
    simp only [BitVec.getLsbD_and, BitVec.getLsbD_or, BitVec.getLsbD_not, getLsbD_one_shift hk, hk]
    by_cases he : k = j
    · subst he
      simp [h]
    · simp [he]
  simp only [clearBit, setBit, Function.update_self, Function.update_idem, hword, Function.update_eq_self]

end Words

section Leases

variable {ι κ : Type} [DecidableEq ι] [DecidableEq κ]

structure Exact (taken : ι → Bool) (held : κ → Option ι) : Prop where
  taken_iff : ∀ i, taken i = true ↔ ∃ k, held k = some i
  apart : ∀ k l i, held k = some i → held l = some i → k = l

variable {taken taken' : ι → Bool} {held held' : κ → Option ι} {i : ι} {k : κ}

omit [DecidableEq ι] [DecidableEq κ] in
theorem exact_none : Exact (fun _ : ι => false) (fun _ : κ => none) :=
  ⟨by simp, by simp⟩

theorem Exact.lease (h : Exact taken held) (hi : taken i = false) (hk : held k = none)
    (ht : ∀ j, taken' j = (decide (j = i) || taken j))
    (hh : ∀ l, held' l = if l = k then some i else held l) :
    Exact taken' held' := by
  have hfree : ∀ l, held l ≠ some i := fun l hl => by
    rw [(h.taken_iff i).mpr ⟨l, hl⟩] at hi
    cases hi
  refine ⟨fun j => ?_, fun l m j hl hm => ?_⟩
  · rw [ht, Bool.or_eq_true, decide_eq_true_eq, h.taken_iff]
    constructor
    · rintro (rfl | ⟨l, hl⟩)
      · exact ⟨k, by rw [hh, if_pos rfl]⟩
      · refine ⟨l, ?_⟩
        rw [hh, if_neg, hl]
        rintro rfl
        rw [hk] at hl
        cases hl
    · rintro ⟨l, hl⟩
      rw [hh] at hl
      split at hl
      · exact .inl (Option.some.inj hl).symm
      · exact .inr ⟨l, hl⟩
  · rw [hh] at hl hm
    split at hl <;> split at hm
    · rename_i h₁ h₂
      rw [h₁, h₂]
    · cases hl
      exact absurd hm (hfree m)
    · cases hm
      exact absurd hl (hfree l)
    · exact h.apart l m j hl hm

theorem Exact.release (h : Exact taken held) (hk : held k = some i)
    (ht : ∀ j, taken' j = (!decide (j = i) && taken j))
    (hh : ∀ l, held' l = if l = k then none else held l) :
    Exact taken' held' := by
  refine ⟨fun j => ?_, fun l m j hl hm => ?_⟩
  · rw [ht, Bool.and_eq_true, Bool.not_eq_true', decide_eq_false_iff_not, h.taken_iff]
    constructor
    · rintro ⟨hj, l, hl⟩
      refine ⟨l, ?_⟩
      rw [hh, if_neg, hl]
      rintro rfl
      exact hj (Option.some.inj (hl.symm.trans hk))
    · rintro ⟨l, hl⟩
      rw [hh] at hl
      split at hl
      · cases hl
      · rename_i hne
        refine ⟨?_, l, hl⟩
        rintro rfl
        exact hne (h.apart l k j hl hk)
  · rw [hh] at hl hm
    split at hl
    · cases hl
    · split at hm
      · cases hm
      · exact h.apart l m j hl hm

omit [DecidableEq ι] [DecidableEq κ] in
theorem Exact.congr (h : Exact taken held) (ht : ∀ j, taken' j = taken j) (hh : ∀ l, held' l = held l) :
    Exact taken' held' := by
  obtain rfl : taken' = taken := funext ht
  obtain rfl : held' = held := funext hh
  exact h

end Leases

end Bbdd.Lib.Allocator
