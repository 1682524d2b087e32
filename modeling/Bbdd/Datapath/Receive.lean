import Bbdd.Datapath.Poll

namespace Bbdd.Datapath

open Lib.Program Packet Session

structure Parsed where
  remote : SessionData
  poll : Bool
  final : Bool
  deriving DecidableEq, Repr

/-- Why a packet is discarded, as the counter that records it, or the peer's
data with what the packet says. Version and length are checked by the
program. -/
def parsePacket (packet : BfdPkt) (remote : SessionData) : Except SessionDiagStat Parsed :=
  let bits := pktBits packet
  let remoteDiscr := ntoh32 packet.myDisc
  let localDiscr := ntoh32 packet.yourDisc
  let state := pktState packet
  if ntoh32 packet.requiredEchoRx ≠ 0 ∨ hasBit bits (bitAuth ||| bitDemand) then .error .rxUnsupported
  else if hasBit bits bitMulti then .error .rxMultipointNot0
  else if packet.detectionMultiplier = 0 then .error .rxDetectionMultiplier0
  else if remoteDiscr = 0 then .error .rxMyDiscr0
  else if localDiscr = 0 ∧ state ≠ .adminDown ∧ state ≠ .down then .error .rxYourDiscr0NotDown
  else
    .ok
      { remote :=
          { remote with
            discr := remoteDiscr
            timing := ⟨packet.detectionMultiplier, ntoh32 packet.desiredTx, ntoh32 packet.requiredRx⟩
            state := ⟨state, pktDiag packet⟩
            flags := { remote.flags with cpi := hasBit bits bitCpi } }
        poll := hasBit bits bitPoll
        final := hasBit bits bitFinal }

/-- The session state machine: the local end after a packet that shows the
remote end in the given state. -/
def fsmNext (loc : StateEnd) (remote : PktState) : StateEnd :=
  match remote, loc.state with
  | .adminDown, .down => loc
  | .adminDown, _ => ⟨.down, .down⟩
  | _, .adminDown => loc
  | .down, .down => ⟨.init, .nothing⟩
  | .init, .down => ⟨.up, .nothing⟩
  | .up, .down => loc
  | .init, .init => ⟨.up, .nothing⟩
  | .up, .init => ⟨.up, .nothing⟩
  | .down, .init => loc
  | .down, .up => ⟨.down, .down⟩
  | .init, .up => loc
  | .up, .up => loc

def setLocalState (dsess : DSession) (state : StateEnd) : DSession :=
  { dsess with localData := { dsess.localData with state := state } }

def respondPoll : Act Unit := do
  if ← txHaveCapacity then
    reported (sessionInjectPkt .tx bitFinal) "Failed to respond to a poll packet"
  else txEnqueue .final true bitFinal

def concludePacket (final : Bool) : Act Unit := do
  let c ← read
  match c.bsess.bstate with
  | .onHold => crash .onHold
  | .stable | .shuttingDown => pure ()
  | .awaitFinal => if final then gotFinal else pure ()
  | .awaitNonFinal => if final then pure () else gotNonFinal

def acceptPacket (p : Parsed) : Act Unit := do
  let old ← read
  onDsess (fun s => { s with remoteData := p.remote })
  reported injectRearmPacket "Failed to rearm timer for unexpected packet"
  onDsess (fun s => setLocalState s (fsmNext s.localData.state s.remoteData.state.state))
  let c ← read
  whenever (old.dsess.localData ≠ c.dsess.localData ∨ old.dsess.remoteData ≠ c.dsess.remoteData)
    sessionStateChanged
  whenever p.poll respondPoll
  concludePacket p.final

def handlePacket (packet : BfdPkt) (wireLen : UInt32) (ttl : UInt8) : Act Unit := do
  let c ← read
  if c.bsess.bstate = .onHold ∨ c.bsess.bstate = .shuttingDown then pure ()
  else
    onBsess (fun s => (s.bump .rxPackets 1).bump .rxBytes wireLen.toNat)
    if c.dsess.localData.state.state = .adminDown then onBsess (·.bumpDiag .rxAdminDown)
    else if c.dsess.ttl > ttl then onBsess (·.bumpDiag .rxTtlLow)
    else
      match parsePacket packet c.dsess.remoteData with
      | .error st => onBsess (·.bumpDiag st)
      | .ok p => acceptPacket p

def timeoutEnds (dsess : DSession) : DSession :=
  let ends := remoteEnd (localEnd dsess .down .timeExpired) .down .timeExpired
  { ends with remoteData := { ends.remoteData with discr := dsess.userRemoteDiscr } }

def timeoutDown : Act Unit := do
  let c ← read
  if c.dsess.localData.state.state = .init ∨ c.dsess.localData.state.state = .up then
    onDsess timeoutEnds
    sessionStateChanged
  else pure ()

def handleTimeout : Act Unit := do
  let c ← read
  match c.bsess.bstate with
  | .onHold => crash .onHold
  | .stable => timeoutDown
  | .shuttingDown =>
    shwaitStop
    gotNonFinal
    timeoutDown
  | .awaitFinal | .awaitNonFinal =>
    gotNonFinal
    timeoutDown

end Bbdd.Datapath
