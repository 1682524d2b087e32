import Bbdd.Lib.Checksum
import Mathlib.Data.Nat.ModEq

namespace Bbdd.Lib.Splice

open Wire Checksum

def slice (bytes : Bytes) (off n : Nat) : Option Bytes :=
  if off + n ≤ bytes.length then some ((bytes.drop off).take n) else none

def splice (bytes : Bytes) (off : Nat) (field : Bytes) : Bytes :=
  bytes.take off ++ field ++ bytes.drop (off + field.length)

structure Replacement where
  replace : UInt16 → UInt32 → UInt32 → UInt16
  keeps : ∀ check old new, (replace check old new).toNat + new.toNat ≡ check.toNat + old.toNat [MOD full]

/-- Zero stands for no checksum, and the other zero for a checksum that came out zero. -/
def Replacement.mangled (R : Replacement) (check : UInt16) (old new : UInt32) : UInt16 :=
  if check = 0 then 0
  else if R.replace check old new = 0 then 0xffff
  else R.replace check old new

def Replacement.replaceAll (R : Replacement) (check : UInt16) (pairs : List (UInt32 × UInt32)) : UInt16 :=
  pairs.foldl (fun check p => R.replace check p.1 p.2) check

section

variable {m n : Nat}

theorem residue_full_congr (h : n ≡ m [MOD full]) (hn : n ≠ 0) (hm : m ≠ 0) :
    residue n = full ↔ residue m = full := by
  rw [residue_eq_full, residue_eq_full, h.dvd_iff dvd_rfl]
  exact ⟨fun h' => ⟨hm, h'.2⟩, fun h' => ⟨hn, h'.2⟩⟩

theorem Replacement.replaceAll_keeps (R : Replacement) (check : UInt16) (pairs : List (UInt32 × UInt32)) :
    (R.replaceAll check pairs).toNat + (pairs.map (·.2.toNat)).sum ≡ check.toNat +
    (pairs.map (·.1.toNat)).sum [MOD full] := by
  induction pairs generalizing check with
  | nil => exact Nat.ModEq.refl _
  | cons p pairs ih =>
    have hstep := (R.keeps check p.1 p.2).add_right (pairs.map (·.1.toNat)).sum
    have hrest := (ih (R.replace check p.1 p.2)).add_right p.2.toNat
    simp only [List.map_cons, List.sum_cons]
    calc (R.replaceAll (R.replace check p.1 p.2) pairs).toNat + (p.2.toNat + (pairs.map (·.2.toNat)).sum)
        = (R.replaceAll (R.replace check p.1 p.2) pairs).toNat + (pairs.map (·.2.toNat)).sum +
          p.2.toNat := by omega
      _ ≡ (R.replace check p.1 p.2).toNat + (pairs.map (·.1.toNat)).sum + p.2.toNat [MOD full] := hrest
      _ = (R.replace check p.1 p.2).toNat + p.2.toNat + (pairs.map (·.1.toNat)).sum := by omega
      _ ≡ check.toNat + p.1.toNat + (pairs.map (·.1.toNat)).sum [MOD full] := hstep
      _ = check.toNat + (p.1.toNat + (pairs.map (·.1.toNat)).sum) := by omega

theorem Replacement.mangled_eq_zero (R : Replacement) (check : UInt16) (old new : UInt32) :
    R.mangled check old new = 0 ↔ check = 0 := by
  unfold mangled
  split_ifs with h hz
  · exact iff_of_true rfl h
  · exact iff_of_false (by decide) h
  · exact iff_of_false hz h

end

end Bbdd.Lib.Splice
