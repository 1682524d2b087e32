import Bbdd.Datapath.Inject

namespace Bbdd.Datapath

open Lib.Program Packet Session Prog

def uint32Max : UInt32 := 0xffffffff

def maxU32 (x y : UInt32) : UInt32 := if x > y then x else y

theorem maxU32_toNat (x y : UInt32) : (maxU32 x y).toNat = max x.toNat y.toNat := by
  unfold maxU32
  split
  · rename_i h
    have := UInt32.lt_iff_toNat_lt.mp h
    omega
  · rename_i h
    have := UInt32.le_iff_toNat_le.mp (UInt32.not_lt.mp h)
    omega

/-- The detection time, or nothing when the remote multiplier is zero, which
the source asserts it is not. -/
def sessionDetectTimeUs (effData : BData) (remote : SessionData) : Option UInt32 :=
  if remote.timing.detectMult = 0 then none
  else
    let base := maxU32 effData.timing.minRxUs remote.timing.minTxUs
    let mult := remote.timing.detectMult.toUInt32
    if base > uint32Max / mult then some uint32Max else some (base * mult)

def shouldInject (dsess : DSession) (bsess : BSession) : Bool :=
  let quiet := dsess.localData.state.state = .adminDown ∧ bsess.bstate = .stable
  let unknown := dsess.remoteData.discr = 0 ∧ dsess.localData.flags.passive
  !(decide quiet || decide unknown)

def isDown (dsess : DSession) : Bool := dsess.localData.state.state = .down

def isAdmDown (dsess : DSession) : Bool := dsess.localData.state.state = .adminDown

def txIntervalUs (dsess : DSession) (effData : BData) : UInt32 :=
  if isDown dsess then slowIntervalUs else maxU32 effData.timing.minTxUs dsess.remoteData.timing.minRxUs

def minIntervalUs (dsess : DSession) (effData : BData) : UInt32 :=
  if isDown dsess then txIntervalUs dsess effData else txIntervalUs dsess effData * 75 / 100

def maxIntervalUs (dsess : DSession) (effData : BData) : UInt32 :=
  if isDown dsess then txIntervalUs dsess effData
  else if effData.timing.detectMult = 1 then txIntervalUs dsess effData * 90 / 100
  else txIntervalUs dsess effData

def fibFlags (dsess : DSession) : UInt32 :=
  (if dsess.vrfTable ≠ 0 then bpfFibLookupDirect ||| bpfFibLookupTbid else 0) |||
    (if dsess.ifindex ≠ 0 then bpfFibLookupOutput else 0) |||
    (if dsess.src.family = 0 then bpfFibLookupSrc else 0)

def rearmTimer (dsess : DSession) : Bool := !(isDown dsess || isAdmDown dsess)

def updateArgs (bpf : Bpf) (dsess : DSession) (bsess : BSession) (detectTimeUs : UInt32) : ConfArgs where
  ifindex := if dsess.ifindex ≠ 0 then dsess.ifindex else bpf.vethTxIfindex
  tbid := dsess.vrfTable
  fibFlags := fibFlags dsess
  minIntervalUs := minIntervalUs dsess bsess.effData
  maxIntervalUs := maxIntervalUs dsess bsess.effData
  detectTimeUs := detectTimeUs
  rearmTimer := rearmTimer dsess

def injectRearmPacket : Act (Except String Unit) := sessionInjectPkt .rx 0

def updateInject (inject : Bool) : Act (Except String Unit) := do
  if inject then
    let c ← read
    match injectBfdFlags c.dsess c.bsess with
    | none => crash .onHold
    | some flags => sessionInjectPkt .tx flags
  else pure (.ok ())

def updateRearm (detectTimeUs : UInt32) : Act (Except String Unit) := do
  let c ← read
  if rearmTimer c.dsess && c.bsess.timerPeriodUs ≠ detectTimeUs then
    attempt injectRearmPacket fun _ => do
      onBsess (fun s => { s with timerPeriodUs := detectTimeUs })
      pure (.ok ())
  else
    onBsess (fun s => { s with timerPeriodUs := 0 })
    pure (.ok ())

/-- Without room for the replacement the whole update waits in the queue, and
the packet that circulates stays current. -/
def updateDefer : Act (Except String Unit) := do
  let c ← read
  match injectBfdFlags c.dsess c.bsess with
  | none => crash .onHold
  | some flags =>
    let isFinal := hasBit flags bitFinal
    txEnqueue (if isFinal then .final else .periodic) isFinal flags
    pure (.ok ())

def updateNow (inject : Bool) : Act (Except String Unit) := do
  onBsess (fun s => { s with genId := s.genId + 1, genBumps := s.genBumps + 1 })
  let c ← read
  match sessionDetectTimeUs c.bsess.effData c.dsess.remoteData with
  | none => crash .detectMult
  | some detectTimeUs =>
    attempt (sessionConfUpdate (updateArgs c.bpf c.dsess c.bsess detectTimeUs)) fun _ =>
      attempt (updateInject inject) fun _ => updateRearm detectTimeUs

def sessionUpdateInner : Act (Except String Unit) := do
  let c ← read
  if shouldInject c.dsess c.bsess then
    if ← txHaveCapacity then updateNow true else updateDefer
  else updateNow false

def sessionCallUpdate : Act Unit := do
  let c ← read
  reported sessionUpdateInner s!"session {c.dsess.localData.discr} state change: Failed to update session"

def sessionStateChanged : Act Unit := do
  sessionCallUpdate
  let c ← read
  onBpf (·.output (.stateChanged c.dsess))

end Bbdd.Datapath
