import Bbdd.Datapath.Update

namespace Bbdd.Datapath

open Lib.Program Packet Session TxQueue

def shwaitStop : Act Unit := do
  let c ← read
  match c.bsess.shwait with
  | none => crash .nullPointer
  | some id =>
    timerCancel id
    onBsess (fun s => { s with shwait := none })

def shwaitStart : Act (Except String Unit) := do
  let c ← read
  match sessionDetectTimeUs c.bsess.effData c.dsess.remoteData with
  | none => crash .detectMult
  | some _ =>
    let a ← ask
    if !a.malloc then pure (.error s!"Failed to create shwait: {a.strerror}")
    else
      attempt (timerSet .shwait) fun id => do
        onBsess (fun s => { s with shwait := some id })
        pure (.ok ())

def holdStop : Act Unit := do
  let c ← read
  match c.bsess.hold with
  | none => crash .nullPointer
  | some id =>
    timerCancel id
    onBsess (fun s => { s with hold := none })

def holdStart : Act (Except String Unit) := do
  let a ← ask
  if !a.malloc then pure (.error s!"Failed to create hold: {a.strerror}")
  else
    attempt (timerSet .hold) fun id => do
      onBsess (fun s => { s with hold := some id })
      pure (.ok ())

/-- What an update of the user configuration asks for, against the one in
force or being polled. -/
structure Decision where
  needShwait : Bool
  stopShwait : Bool
  needPoll : Bool
  applyImm : Bool
  deriving DecidableEq, Repr

def updateDecision (lstate : PktState) (udata bdata : BData) : Decision :=
  if udata.shutdown && !bdata.shutdown then ⟨true, false, false, false⟩
  else
    { needShwait := false
      stopShwait := !udata.shutdown && bdata.shutdown
      needPoll := udata.timing.minTxUs ≠ bdata.timing.minTxUs ∨ udata.timing.minRxUs ≠ bdata.timing.minRxUs
      applyImm := !(decide (lstate = .up ∧ udata.timing.minTxUs > bdata.timing.minTxUs) ||
        decide (lstate = .up ∧ udata.timing.minRxUs < bdata.timing.minRxUs)) }

def setBdata (bsess : BSession) (data : BData) : BSession :=
  match bsess.bstate with
  | .onHold => bsess
  | .stable => { bsess with effData := data }
  | .awaitFinal | .awaitNonFinal | .shuttingDown => { bsess with dfrData := data }

def localEnd (dsess : DSession) (state : PktState) (diag : Diag) : DSession :=
  { dsess with localData := { dsess.localData with state := ⟨state, diag⟩ } }

def remoteEnd (dsess : DSession) (state : PktState) (diag : Diag) : DSession :=
  { dsess with remoteData := { dsess.remoteData with state := ⟨state, diag⟩ } }

def updateNext (d : Decision) (udata : BData) : Act (Except String Unit) := do
  if d.needPoll then
    onBsess (fun s => { s with dfrData := udata, bstate := .awaitFinal })
    if d.needShwait then crash .exclusive else pure (.ok ())
  else if d.needShwait then
    attempt shwaitStart fun _ => do
      onBsess (fun s => { s with dfrData := udata, bstate := .shuttingDown })
      onDsess (fun s => remoteEnd (localEnd s .adminDown .adminDown) .down .down)
      pure (.ok ())
  else pure (.ok ())

def updateSettled (d : Decision) (udata : BData) : Act (Except String Unit) := do
  whenever d.stopShwait (onDsess (fun s => localEnd s .down .down))
  updateNext d udata

def updateApply (d : Decision) (udata : BData) : Act (Except String Unit) := do
  if (d.stopShwait && d.needShwait) || (d.needPoll && d.needShwait) then crash .exclusive
  else
    let c ← read
    match c.bsess.bstate with
    | .onHold => crash .onHold
    | .shuttingDown =>
      if d.stopShwait then
        shwaitStop
        onBsess (fun s => { s with bstate := .awaitFinal })
        updateSettled d udata
      else updateSettled d udata
    | .stable => updateSettled d udata
    | .awaitFinal | .awaitNonFinal =>
      if d.needPoll || d.needShwait || d.stopShwait then
        onBsess (fun s => { s with qdChange := true })
        pure (.ok ())
      else pure (.ok ())

def handleSessionUpdate : Act (Except String Unit) := do
  let c ← read
  match injectBdata c.bsess with
  | none => crash .onHold
  | some bdata =>
    let udata := userBdata c.dsess
    let d := updateDecision c.dsess.localData.state.state udata bdata
    whenever d.applyImm (onBsess (fun s => setBdata s udata))
    updateApply d udata

def gotFinal : Act Unit := do
  onBsess (fun s => { s with bstate := .awaitNonFinal })
  sessionCallUpdate

def takeQdChange : Act Unit := do
  let c ← read
  onBsess (fun s => { s with qdChange := false })
  reported handleSessionUpdate s!"session discr {c.dsess.localData.discr}: handling qd_change"

def gotNonFinal : Act Unit := do
  onBsess (fun s => { s with effData := s.dfrData, bstate := .stable })
  let c ← read
  whenever c.bsess.qdChange takeQdChange
  sessionCallUpdate

def shwaitTimerCb : Act Unit := do
  shwaitStop
  gotNonFinal

def holdTimerCb : Act Unit := do
  let c ← read
  onBsess (fun s => { s with effData := userBdata c.dsess, bstate := .stable })
  onDsess (fun s => { s with holdTimeUs := 0 })
  sessionStateChanged
  holdStop

def sessionUpdate : Act (Except String Unit) := do
  let c ← read
  if c.bsess.bstate = .onHold then pure (.ok ())
  else
    attempt handleSessionUpdate fun _ => sessionUpdateInner

end Bbdd.Datapath
