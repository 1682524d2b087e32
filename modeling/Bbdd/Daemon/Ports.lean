import Bbdd.Lib.Allocator

namespace Bbdd.Daemon

open Lib.Allocator

def bitsPerLong : Nat := 64
def sportLo : UInt16 := 49152
def sportHi : UInt16 := 65535
def sportCap : Nat := sportHi.toNat - sportLo.toNat + 1
def sportNwords : Nat := sportCap / bitsPerLong

/-- The source ports the daemon hands out: one bits where they are taken, zero
bits where they are free. -/
structure SportAlloc where
  occ : Nat → BitVec 64

def SportAlloc.empty : SportAlloc := ⟨fun _ => 0⟩

def sportGetFrom (alloc : SportAlloc) : Nat → Nat → Option (UInt16 × SportAlloc)
  | _, 0 => none
  | i, n + 1 =>
    match ffs (~~~ alloc.occ i) with
    | 0 => sportGetFrom alloc (i + 1) n
    | f + 1 => some (UInt16.ofNat (sportLo.toNat + i * bitsPerLong + f), ⟨setBit alloc.occ i f⟩)

def sportGet (alloc : SportAlloc) : Option (UInt16 × SportAlloc) := sportGetFrom alloc 0 sportNwords

def SportAlloc.put (alloc : SportAlloc) (port : UInt16) : SportAlloc :=
  let d := port - sportLo
  ⟨clearBit alloc.occ (d.toNat / bitsPerLong) (d.toNat % bitsPerLong)⟩

def SportAlloc.taken (alloc : SportAlloc) (off : Nat) : Bool := bit alloc.occ off

def sportOff (port : UInt16) : Nat := port.toNat - sportLo.toNat

variable {alloc alloc' : SportAlloc} {port : UInt16}

theorem toNat_sub_sportLo (h : sportLo ≤ port) : (port - sportLo).toNat = sportOff port :=
  UInt16.toNat_sub_of_le _ _ h

theorem put_eq (alloc : SportAlloc) (h : sportLo ≤ port) :
    alloc.put port = ⟨clearBit alloc.occ (sportOff port / 64) (sportOff port % 64)⟩ := by
  rw [SportAlloc.put, toNat_sub_sportLo h]
  rfl

theorem put_taken (alloc : SportAlloc) (h : sportLo ≤ port) (j : Nat) :
    (alloc.put port).taken j = (!decide (j = sportOff port) && alloc.taken j) := by
  rw [put_eq alloc h, SportAlloc.taken, bit_clearBit _ (Nat.mod_lt _ (by decide)), Nat.div_add_mod']
  rfl

/-- What taking a port does: it was free, and nothing but its bit changes. -/
structure Taken (alloc : SportAlloc) (port : UInt16) (alloc' : SportAlloc) : Prop where
  lo : sportLo ≤ port
  free : alloc.taken (sportOff port) = false
  taken : ∀ j, alloc'.taken j = (decide (j = sportOff port) || alloc.taken j)
  undo : alloc'.put port = alloc

theorem taken_position {i f : Nat} (hi : i < sportNwords) (hf : f < 64)
    (hbit : (alloc.occ i).getLsbD f = false) :
    Taken alloc (UInt16.ofNat (sportLo.toNat + i * bitsPerLong + f)) ⟨setBit alloc.occ i f⟩ := by
  have hi' : i < 256 := hi
  have hport : (UInt16.ofNat (sportLo.toNat + i * bitsPerLong + f)).toNat = 49152 + (i * 64 + f) := by
    rw [UInt16.toNat_ofNat', bitsPerLong]
    change (49152 + i * 64 + f) % 65536 = _
    omega
  have hlo : sportLo ≤ UInt16.ofNat (sportLo.toNat + i * bitsPerLong + f) := by
    rw [UInt16.le_iff_toNat_le, hport]
    exact Nat.le_add_right _ _
  have hoff : sportOff (UInt16.ofNat (sportLo.toNat + i * bitsPerLong + f)) = i * 64 + f := by
    rw [sportOff, hport]
    exact Nat.add_sub_cancel_left ..
  obtain ⟨hdiv, hmod⟩ := (eq_position hf).mp (rfl : i * 64 + f = i * 64 + f)
  refine ⟨hlo, ?_, fun j => ?_, ?_⟩
  · rw [hoff, SportAlloc.taken, bit, hdiv, hmod]
    exact hbit
  · rw [hoff]
    exact bit_setBit _ hf j
  · rw [put_eq _ hlo, hoff, hdiv, hmod, clearBit_setBit _ hbit]

theorem sportGetFrom_some {i n : Nat} (hn : i + n ≤ sportNwords)
    (h : sportGetFrom alloc i n = some (port, alloc')) :
    Taken alloc port alloc' := by
  induction n generalizing i with
  | zero => cases h
  | succ n ih =>
    simp only [sportGetFrom] at h
    split at h
    · exact ih (by omega) h
    · rename_i f hf
      cases h
      obtain ⟨hlt, hbit⟩ := ffs_eq_succ hf
      exact taken_position (by omega) hlt (by simpa [hlt] using hbit)

theorem sportGet_some (h : sportGet alloc = some (port, alloc')) : Taken alloc port alloc' :=
  sportGetFrom_some (Nat.le_of_eq (Nat.zero_add _)) h

theorem sportGetFrom_none {i n : Nat} (h : sportGetFrom alloc i n = none) {off : Nat} (hlo : i * 64 ≤ off)
    (hhi : off < (i + n) * 64) : alloc.taken off = true := by
  induction n generalizing i with
  | zero => omega
  | succ n ih =>
    simp only [sportGetFrom] at h
    split at h
    · rename_i hf
      by_cases hoff : (i + 1) * 64 ≤ off
      · exact ih h hoff (by omega)
      · -- the word that was just found to be full
        have hdiv : off / 64 = i := by omega
        have hlt : off % 64 < 64 := Nat.mod_lt _ (by decide)
        have := ffs_eq_zero hf (off % 64)
        rw [SportAlloc.taken, bit, hdiv]
        simpa [hlt] using this
    · cases h

theorem sportGet_none (h : sportGet alloc = none) {off : Nat} (hoff : off < sportCap) :
    alloc.taken off = true :=
  sportGetFrom_none h (Nat.zero_le _) hoff

end Bbdd.Daemon
