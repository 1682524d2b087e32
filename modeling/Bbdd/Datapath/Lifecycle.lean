import Bbdd.Datapath.Receive

namespace Bbdd.Datapath

open Lib.Program Session TxQueue

def txCapMult : UInt32 := 2
def txSkbTrueSize : Nat := 2048
def int32Max : Nat := 2147483647

def txDynCapacity (sessions : Nat) (add : Bool) : UInt32 :=
  (UInt32.ofNat sessions + if add then 1 else 0) * txCapMult

def txApplyCapacity (cap : UInt32) : Act (Except String Unit) := do
  if cap.toNat * txSkbTrueSize > int32Max / 2 then
    pure (.error s!"Cannot reserve capacity {cap}: buffer over 2G")
  else
    let a ← ask
    let sndbuf := cap.toNat * txSkbTrueSize
    if !a.setsockopt then pure (.error s!"setsockopt(SO_SNDBUFFORCE={sndbuf}): {a.strerror}")
    else
      onBpf (fun b => { b with txCapacity := cap })
      pure (.ok ())

/-- Fit the socket buffer to the number of sessions, unless the capacity was
given on the command line. -/
def txResize (sessions : Nat) (add : Bool) : Act (Except String Unit) := do
  let c ← read
  let cap := if c.bpf.envTxCapacity ≠ 0 then c.bpf.envTxCapacity else txDynCapacity sessions add
  if c.bpf.txCapacity = cap then pure (.ok ()) else txApplyCapacity cap

def sessionConfAdd : Act (Except String Unit) := do
  attempt (sessionConfUpdate ⟨0, 0, 0, 0, 0, 0, false⟩) fun _ => do
    let a ← ask
    let c ← read
    let discr := c.dsess.localData.discr
    if a.mapUpdate then
      onBpf (fun b => { b with kernel := b.kernel.setData discr (some .fresh) })
      pure (.ok ())
    else
      let d ← ask
      whenever d.mapDelete (onBpf (fun b => { b with kernel := b.kernel.setConfig discr none }))
      pure (.error s!"Failed to insert session data: {a.strerror}")

def sessionConfDelete (discr : UInt32) : Act Unit := do
  let a ← ask
  whenever a.mapDelete (onBpf (fun b => { b with kernel := b.kernel.setConfig discr none }))
  let a ← ask
  whenever a.mapDelete (onBpf (fun b => { b with kernel := b.kernel.setData discr none }))

def freshBsess (discr : UInt32) (ptr : Nat) : BSession where
  discr := discr
  genId := 0
  genBumps := 0
  bstate := .onHold
  effData := ⟨⟨0, 0, 0⟩, false⟩
  dfrData := ⟨⟨0, 0, 0⟩, false⟩
  qdChange := false
  shwait := none
  hold := none
  timerPeriodUs := 0
  stats := fun _ => 0
  diagStats := fun _ => 0
  finalSlot := .zero
  periodicSlot := .zero
  ptr := ptr

/-- Bring up a fresh session, which the caller enters into the directory when
this succeeds. Every session starts on hold. -/
def sessionAdd (sessions : Nat) : Act (Except String Unit) := do
  let a ← ask
  if !a.malloc then pure (.error a.strerror)
  else
    attempt holdStart fun _ => do
      match ← attempt (txResize sessions true) fun _ => sessionConfAdd with
      | .error e =>
        holdStop
        pure (.error e)
      | .ok () => pure (.ok ())

def txUnlink (kind : SlotKind) : Act Unit := do
  let c ← read
  let (tx, slot) := unlink c.bpf.tx ⟨c.bsess.discr, kind⟩ (slotOf c.bsess kind)
  onBpf (fun b => { b with tx := tx })
  onBsess (fun s => setSlot s slot kind)

def sessionDel (sessions : Nat) : Act Unit := do
  let c ← read
  whenever c.bsess.hold.isSome holdStop
  whenever c.bsess.shwait.isSome shwaitStop
  txUnlink .final
  txUnlink .periodic
  sessionConfDelete c.bsess.discr
  reported (txResize sessions false) "session del tx resize"

end Bbdd.Datapath
