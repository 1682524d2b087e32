import Bbdd.Lib.Wire

namespace Bbdd.Lib.Checksum

open Wire

def full : Nat := 65535

def endAround (a b : Nat) : Nat := if a + b ≤ full then a + b else a + b - full

def onesSum (words : List Nat) : Nat := words.foldl endAround 0

def residue (n : Nat) : Nat := if n = 0 then 0 else (n - 1) % full + 1

def words : Bytes → List Nat
  | [] => []
  | [b] => [b.toNat]
  | lo :: hi :: rest => (lo.toNat + 256 * hi.toNat) :: words rest

/-- The words of some bytes in network order. -/
def netWords : Bytes → List Nat
  | [] => []
  | [b] => [256 * b.toNat]
  | hi :: lo :: rest => (256 * hi.toNat + lo.toNat) :: netWords rest

section

variable {n w : Nat} {ws : List Nat} {bytes pre post : Bytes}

theorem residue_le (n : Nat) : residue n ≤ full := by
  simp only [residue, full]
  split <;> omega

theorem residue_eq_full : residue n = full ↔ n ≠ 0 ∧ full ∣ n := by
  simp only [residue, full]
  split <;> omega

theorem endAround_residue (hw : w ≤ full) : endAround (residue n) w = residue (n + w) := by
  simp only [endAround, residue, full] at hw ⊢
  split_ifs <;> omega

theorem onesSum_eq (h : ∀ w ∈ ws, w ≤ full) : onesSum ws = residue ws.sum := by
  have hfold (n : Nat) : ws.foldl endAround (residue n) = residue (n + ws.sum) := by
    induction ws generalizing n with
    | nil => rfl
    | cons w ws ih =>
      obtain ⟨hw, hws⟩ := List.forall_mem_cons.mp h
      rw [List.foldl_cons, endAround_residue hw, ih hws, List.sum_cons, Nat.add_assoc]
  have hzero := hfold 0
  rwa [Nat.zero_add] at hzero

theorem residue_complement (hn : n ≠ 0) : residue (n + (full - residue n)) = full := by
  rw [residue_eq_full]
  simp only [residue, full, if_neg hn]
  omega

theorem words_le (bytes : Bytes) : ∀ w ∈ words bytes, w ≤ full := by
  fun_induction words bytes with
  | case1 => simp
  | case2 b =>
    have hb := b.toNat_lt
    simp only [List.mem_singleton, forall_eq, full]
    omega
  | case3 lo hi rest ih =>
    have hlo := lo.toNat_lt
    have hhi := hi.toNat_lt
    refine List.forall_mem_cons.mpr ⟨?_, ih⟩
    simp only [full]
    omega

theorem netWords_le (bytes : Bytes) : ∀ w ∈ netWords bytes, w ≤ full := by
  fun_induction netWords bytes with
  | case1 => simp
  | case2 b =>
    have hb := b.toNat_lt
    simp only [List.mem_singleton, forall_eq, full]
    omega
  | case3 hi lo rest ih =>
    have hlo := lo.toNat_lt
    have hhi := hi.toNat_lt
    refine List.forall_mem_cons.mpr ⟨?_, ih⟩
    simp only [full]
    omega

theorem netWords_sum (bytes : Bytes) :
    (∃ k, (netWords bytes).sum + full * k = 256 * (words bytes).sum) ∧
    ((netWords bytes).sum = 0 ↔ (words bytes).sum = 0) := by
  fun_induction words bytes with
  | case1 => exact ⟨⟨0, rfl⟩, Iff.rfl⟩
  | case2 b => exact ⟨⟨0, by simp [netWords]⟩, by simp [netWords]⟩
  | case3 lo hi rest ih =>
    obtain ⟨⟨k, hk⟩, hz⟩ := ih
    simp only [netWords, List.sum_cons, full] at hk ⊢
    refine ⟨⟨k + hi.toNat, by omega⟩, by omega⟩

theorem onesSum_netWords (bytes : Bytes) :
    onesSum (netWords bytes) = full ↔ onesSum (words bytes) = full := by
  obtain ⟨⟨k, hk⟩, hz⟩ := netWords_sum bytes
  rw [onesSum_eq (netWords_le bytes), onesSum_eq (words_le bytes), residue_eq_full, residue_eq_full]
  simp only [full] at hk ⊢
  omega

theorem words_append (h : pre.length % 2 = 0) : words (pre ++ post) = words pre ++ words post := by
  fun_induction words pre with
  | case1 => rfl
  | case2 b => simp at h
  | case3 lo hi rest ih =>
    simp only [List.length_cons] at h
    rw [List.cons_append, List.cons_append, words, ih (by omega), List.cons_append]

theorem words_sum_le (bytes : Bytes) : (words bytes).sum ≤ full * ((bytes.length + 1) / 2) := by
  fun_induction words bytes with
  | case1 => simp
  | case2 b =>
    have hb := b.toNat_lt
    simp only [List.sum_singleton, List.length_singleton, full]
    omega
  | case3 lo hi rest ih =>
    have hlo := lo.toNat_lt
    have hhi := hi.toNat_lt
    simp only [List.sum_cons, List.length_cons, full] at ih ⊢
    omega

end

end Bbdd.Lib.Checksum
