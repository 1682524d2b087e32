import Bbdd.Daemon.World

namespace Bbdd.Daemon

open Lib.Program Packet Session Prog TxQueue Datapath

def lookupSession (discr : UInt32) : Cmd (DSession × BSession) := do
  let w ← read
  match w.sdir.find discr, w.bsdir.find discr with
  | some dsess, some bsess => pure (dsess, bsess)
  | _, _ => crash .noSession

def haveCapacity : Cmd Bool := do
  let _ ← askWorld
  let w ← read
  pure (decide (w.bpf.txPinned < w.bpf.txCapacity))

def drainSlot (slot : TxSlot) : Act Unit := do
  reported (if slot.isFinal then sessionInjectPkt slot.txIfindex slot.bfdFlags else sessionUpdateInner)
    s!"Failed to drain queued packet for session discr {slot.discr}"
  onBpf (·.bump .skDeqCount)

def txPolloutDisarm (b : Bpf) : Bpf := { b with txPolloutRegistered := false }

/-- Drain the queue while there is room. The bound is on the number of slots
taken; nothing is returned when it is reached before the loop ends. -/
def txDrain : Nat → Cmd (Option Unit)
  | 0 => pure none
  | n + 1 => do
    let w ← read
    match peek w.bpf.tx with
    | none =>
      update (fun w => w.setBpf (txPolloutDisarm w.bpf))
      pure (some ())
    | some ref =>
      if ← haveCapacity then
        let w ← read
        match w.bsdir.find ref.owner with
        | none => crash .dangling
        | some owner =>
          let slot := slotOf owner ref.kind
          let (tx, unlinked) := unlink w.bpf.tx ref slot
          update (fun w => { w with
            bpf := { w.bpf with tx := tx }, bsdir := w.bsdir.insert ref.owner
              (setSlot owner unlinked ref.kind) })
          let (dsess, bsess) ← lookupSession slot.discr
          onSession slot.discr dsess bsess (drainSlot slot)
          txDrain n
      else pure (some ())

def addrToSockaddr (ethtype : UInt16) (addr : Addr) (context : String) : Except String Sockaddr :=
  if ethtype = ethPIp then .ok ⟨afInet, 0, ⟨addr.w0, 0, 0, 0⟩⟩
  else if ethtype = ethPIpv6 then .ok ⟨afInet6, 0, addr⟩
  else .error s!"{context}: invalid ethtype {ethtype}"

structure MatchDigest where
  ifindex : UInt32
  ttl : UInt8
  multihop : Bool
  table : UInt32
  myDisc : UInt32
  src : Sockaddr
  dst : Sockaddr
  deriving DecidableEq, Repr

def sameAddr (sa sb : Sockaddr) : Bool :=
  decide (sa.family = sb.family) && if sa.family = afInet then sa.addr.w0 = sb.addr.w0 else sa.addr = sb.addr

/-- Whether a packet without a discriminator can be for a session; the packet
comes from the session's destination. -/
def sessionCompatible (digest : MatchDigest) (dsess : DSession) : Bool :=
  decide (digest.multihop = dsess.localData.flags.multihop) &&
  !decide (dsess.ifindex ≠ 0 ∧ digest.ifindex ≠ 0 ∧ dsess.ifindex ≠ digest.ifindex) &&
  decide (dsess.vrfTable = digest.table) &&
  !decide (digest.ttl < dsess.ttl) &&
  !decide (dsess.userRemoteDiscr ≠ 0 ∧ digest.myDisc ≠ dsess.userRemoteDiscr) &&
  (decide (dsess.src.family = 0) || sameAddr dsess.src digest.dst) &&
  (decide (dsess.dst.family = 0) || sameAddr dsess.dst digest.src)

def matchSession (w : World) (digest : MatchDigest) : List DSession :=
  w.sdir.values.filter (sessionCompatible digest)

def packetFor (dsess : Option DSession) (packet : BfdPkt) (wireLen : UInt32) (ttl : UInt8) : Cmd Unit := do
  match dsess with
  | none => pure ()
  | some dsess =>
    let (dsess, bsess) ← lookupSession dsess.localData.discr
    onSession dsess.localData.discr dsess bsess (handlePacket packet wireLen ttl)

def discr0Digest (nl : Nl) (ifindex : UInt32) (ethtype : UInt16) (ttl : UInt8) (multihop : Bool)
    (saddr daddr : Addr) (packet : BfdPkt) : Except String MatchDigest :=
  match nl.ifinfoTable ifindex with
  | .error e => .error e
  | .ok table =>
    match addrToSockaddr ethtype saddr "BBDD_BPF_RB_ELEM_RX_DISCR_0",
        addrToSockaddr ethtype daddr "BBDD_BPF_RB_ELEM_RX_DISCR_0" with
    | .error e, _ => .error e
    | _, .error e => .error e
    | .ok src, .ok dst =>
      .ok ⟨if table ≠ 0 then 0 else ifindex, ttl, multihop, table, ntoh32 packet.myDisc, src, dst⟩

def rbHandleNoNeigh (ethtype : UInt16) (addr : Addr) : Cmd Unit := do
  match addrToSockaddr ethtype addr "BBDD_BPF_RB_ELEM_TX_NO_NEIGH" with
  | .error e => outputWorld (.senderr "no neighbor" e)
  | .ok _ =>
    let a ← askWorld
    if a.netlink then pure () else outputWorld (.senderr "no neighbor" a.strerror)

def rbHandleTimeout (discr : UInt32) : Cmd Unit := do
  let w ← read
  match w.sdir.find discr with
  | none => pure ()
  | some _ =>
    let (dsess, bsess) ← lookupSession discr
    onSession discr dsess bsess handleTimeout

def rbHandle (nl : Nl) : RbElem → Cmd Unit
  | .txNoNeigh _ ethtype addr => rbHandleNoNeigh ethtype addr
  | .rxDiscr0 ifindex wireLen ethtype ttl multihop saddr daddr packet => do
    match discr0Digest nl ifindex ethtype ttl multihop saddr daddr packet with
    | .error e => outputWorld (.senderr "`your_discr' of 0" e)
    | .ok digest =>
      let w ← read
      match matchSession w digest with
      | [dsess] => packetFor (some dsess) packet wireLen ttl
      | _ => update (fun w => w.setBpf (w.bpf.bump .rxNoUniqueSession))
  | .rxUnxPkt wireLen ttl packet => do
    let w ← read
    packetFor (w.sdir.find (ntoh32 packet.yourDisc)) packet wireLen ttl
  | .rxTimeout discr => rbHandleTimeout discr

end Bbdd.Daemon
