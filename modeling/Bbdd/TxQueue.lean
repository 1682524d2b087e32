import Bbdd.Session
import Mathlib.Data.List.Nodup

namespace Bbdd.TxQueue

open Session

inductive SlotKind
  | final
  | periodic
  deriving DecidableEq, Repr

structure SlotRef where
  owner : UInt32
  kind : SlotKind
  deriving DecidableEq, Repr

structure Tx where
  finals : List SlotRef
  periodics : List SlotRef
  nfinals : Nat
  nperiodics : Nat
  deriving DecidableEq, Repr

def create : Tx := ⟨[], [], 0, 0⟩

def enqueue (tx : Tx) (ref : SlotRef) (slot : TxSlot) (isFinal : Bool) (discr : UInt32) (txIfindex : Veth)
    (bfdFlags : UInt8) : Bool × Tx × TxSlot :=
  if slot.linked then (false, tx, slot)
  else if isFinal then
    (true, { tx with finals := tx.finals ++ [ref], nfinals := tx.nfinals + 1 },
      ⟨discr, txIfindex, bfdFlags, true, isFinal⟩)
  else
    (true, { tx with periodics := tx.periodics ++ [ref], nperiodics := tx.nperiodics + 1 },
      ⟨discr, txIfindex, bfdFlags, true, isFinal⟩)

def peek (tx : Tx) : Option SlotRef :=
  match tx.finals with
  | ref :: _ => some ref
  | [] => tx.periodics.head?

def unlink (tx : Tx) (ref : SlotRef) (slot : TxSlot) : Tx × TxSlot :=
  if !slot.linked then (tx, slot)
  else if slot.isFinal then
    ({ tx with finals := tx.finals.erase ref, nfinals := tx.nfinals - 1 }, { slot with linked := false })
  else
    ({ tx with periodics := tx.periodics.erase ref, nperiodics := tx.nperiodics - 1 },
      { slot with linked := false })

def pending (tx : Tx) : Bool := !tx.finals.isEmpty || !tx.periodics.isEmpty

def slotOf (bsess : BSession) : SlotKind → TxSlot
  | .final => bsess.finalSlot
  | .periodic => bsess.periodicSlot

def setSlot (bsess : BSession) (slot : TxSlot) : SlotKind → BSession
  | .final => { bsess with finalSlot := slot }
  | .periodic => { bsess with periodicSlot := slot }

def listOf (tx : Tx) : SlotKind → List SlotRef
  | .final => tx.finals
  | .periodic => tx.periodics

theorem pending_eq_peek (tx : Tx) : pending tx = (peek tx).isSome := by
  obtain ⟨finals, periodics, _, _⟩ := tx
  cases finals <;> cases periodics <;> simp [pending, peek]

theorem mem_of_peek {tx : Tx} {ref : SlotRef} (h : peek tx = some ref) :
    ref ∈ tx.finals ∨ ref ∈ tx.periodics := by
  obtain ⟨finals, periodics, _, _⟩ := tx
  cases finals with
  | cons r rs =>
    simp only [peek, Option.some.injEq] at h
    exact .inl (h ▸ List.mem_cons_self)
  | nil => exact .inr (List.mem_of_mem_head? h)

section

variable (tx : Tx) (owner discr : UInt32) (kind : SlotKind) (slot : TxSlot) (veth : Veth) (flags : UInt8)

theorem enqueue_linked (h : slot.linked = true) (ref : SlotRef) (isFinal : Bool) :
    enqueue tx ref slot isFinal discr veth flags = (false, tx, slot) := by
  simp [enqueue, h]

theorem enqueue_slot (h : slot.linked = false) (ref : SlotRef) (isFinal : Bool) :
    (enqueue tx ref slot isFinal discr veth flags).2.2 = ⟨discr, veth, flags, true, isFinal⟩ := by
  cases isFinal <;> simp [enqueue, h]

theorem listOf_enqueue (h : slot.linked = false) (ref : SlotRef) (k : SlotKind) :
    listOf (enqueue tx ref slot (decide (kind = .final)) discr veth flags).2.1 k =
      if k = kind then listOf tx k ++ [ref] else listOf tx k := by
  cases kind <;> cases k <;> simp [enqueue, h, listOf]

theorem unlink_unlinked (h : slot.linked = false) (ref : SlotRef) : unlink tx ref slot = (tx, slot) := by
  simp [unlink, h]

theorem unlink_slot (h : slot.linked = true) (ref : SlotRef) :
    (unlink tx ref slot).2 = { slot with linked := false } := by
  cases hf : slot.isFinal <;> simp [unlink, h, hf]

theorem listOf_unlink (h : slot.linked = true) (hf : slot.isFinal = decide (kind = .final)) (ref : SlotRef)
    (k : SlotKind) :
    listOf (unlink tx ref slot).1 k = if k = kind then (listOf tx k).erase ref else listOf tx k := by
  cases kind <;> cases k <;> simp [unlink, h, hf, listOf]

end

theorem slotOf_setSlot (bsess : BSession) (slot : TxSlot) (kind k : SlotKind) :
    slotOf (setSlot bsess slot kind) k = if k = kind then slot else slotOf bsess k := by
  cases kind <;> cases k <;> simp [slotOf, setSlot]

@[simp] theorem setSlot_discr (bsess : BSession) (slot : TxSlot) (kind : SlotKind) :
    (setSlot bsess slot kind).discr = bsess.discr := by
  cases kind <;> rfl

end Bbdd.TxQueue
