import Bbdd.Datapath.State

namespace Bbdd.Datapath

open Lib.Program Packet Session Prog

def bpfFibLookupDirect : UInt32 := 1
def bpfFibLookupOutput : UInt32 := 2
def bpfFibLookupTbid : UInt32 := 8
def bpfFibLookupSrc : UInt32 := 16

def egress (b : Bpf) (a : Answer) (veth : Veth) (skb : Skb) : TcAct × Skb × Kernel :=
  match veth with
  | .tx => xmitVethTx b.vethTxIfindex a.tx skb b.kernel
  | .rx => xmitVethRxXmit a.timer skb b.kernel

/-- One sendmsg. It fails exactly when the program shoots the packet down; a
packet the program lets pass enters the loop. -/
def Bpf.send (b : Bpf) (a : Answer) (veth : Veth) (skb : Skb) : Bool × Bpf :=
  let discr := ntoh32 skb.bfd.myDisc
  let call : Send := ⟨veth, skb, b.kernel.config discr, (b.kernel.data discr).isSome, a.tx⟩
  match egress b a veth skb with
  | (.shot, _, k) => (false, { b with kernel := k, sends := call :: b.sends })
  | (.ok, skb', k) =>
    (true, { b with kernel := { k with circ := k.circ ++ [skb'] }, sends := call :: b.sends }.bump .skSentCount)
  | (_, _, k) => (true, { b with kernel := k, sends := call :: b.sends }.bump .skSentCount)

def sessionSend (veth : Veth) (skb : Skb) : Act (Except String Unit) := do
  let a ← ask
  let c ← read
  let (sent, bpf) := c.bpf.send a veth skb
  onBpf (fun _ => bpf)
  if sent then pure (.ok ()) else pure (.error s!"sendmsg(bfd_tx): {a.errno} {a.strerror}")

def injectBdata (bsess : BSession) : Option BData :=
  match bsess.bstate with
  | .onHold => none
  | .stable => some bsess.effData
  | .awaitFinal | .awaitNonFinal | .shuttingDown => some bsess.dfrData

/-- The frame around a BFD packet: link, network and transport headers before
its 24 bytes. -/
def injectSkb (dsess : DSession) (genId : UInt32) (bfd : BfdPkt) : Skb where
  protocol := if dsess.dst.family = afInet then ethPIp else ethPIpv6
  ipProtocol := ipprotoUdp
  udpDest := dsess.dst.port
  bfd := bfd
  mark := genId
  hash := 0
  len := if dsess.dst.family = afInet then 14 + 20 + 8 + 24 else 14 + 40 + 8 + 24
  tstamp := 0

def Bpf.handoff (b : Bpf) (veth : Veth) (dsess : DSession) (bstate : BState) : Bpf :=
  match veth with
  | .tx => { b with handoffs := ⟨dsess, bstate⟩ :: b.handoffs }
  | .rx => b

def sessionInjectPkt (veth : Veth) (bfdFlags : UInt8) : Act (Except String Unit) := do
  let c ← read
  match injectBdata c.bsess with
  | none => crash .onHold
  | some bdata =>
    if bdata.timing.detectMult = 0 then crash .detectMult
    else
      onBpf (·.handoff veth c.dsess c.bsess.bstate)
      sessionSend veth (injectSkb c.dsess c.bsess.genId
        (makePacket c.dsess.localData.discr bdata.timing c.dsess.localData.state
          c.dsess.remoteData.discr bfdFlags))

def rxExpectBfdFlagsBstate : BState → UInt8
  | .onHold => 0
  | .stable | .awaitFinal | .shuttingDown => 0
  | .awaitNonFinal => bitFinal

def bfdSessionFlags (data : SessionData) : UInt8 := if data.flags.cpi then bitCpi else 0

def rxExpectBfdFlags (dsess : DSession) (bsess : BSession) : UInt8 :=
  rxExpectBfdFlagsBstate bsess.bstate ||| bfdSessionFlags dsess.remoteData

def injectBfdFlagsBstate : BState → Option UInt8
  | .onHold => none
  | .stable | .shuttingDown => some 0
  | .awaitFinal => some bitPoll
  | .awaitNonFinal => some 0

def injectBfdFlags (dsess : DSession) (bsess : BSession) : Option UInt8 :=
  (injectBfdFlagsBstate bsess.bstate).map (· ||| bfdSessionFlags dsess.localData)

structure ConfArgs where
  ifindex : UInt32
  tbid : UInt32
  fibFlags : UInt32
  minIntervalUs : UInt32
  maxIntervalUs : UInt32
  detectTimeUs : UInt32
  rearmTimer : Bool
  deriving DecidableEq, Repr

def confFamily (dsess : DSession) : UInt16 :=
  if dsess.src.family ≠ 0 then dsess.src.family else dsess.dst.family

def confAddrs (dsess : DSession) : Except String (Addr × Addr) :=
  let af := confFamily dsess
  if af ≠ dsess.dst.family then .error "Mismatch in families of source and destination addresses"
  else if af = afInet then
    .ok (⟨dsess.src.addr.w0, 0, 0, 0⟩, ⟨dsess.dst.addr.w0, 0, 0, 0⟩)
  else if af = afInet6 then .ok (dsess.src.addr, dsess.dst.addr)
  else .error s!"Unsupported session address family {af}"

/-- A session that has somewhere to send to, and no source address of the
other family. -/
def Addressed (dsess : DSession) : Prop :=
  (dsess.dst.family = afInet ∨ dsess.dst.family = afInet6) ∧
    (dsess.src.family = 0 ∨ dsess.src.family = dsess.dst.family)

theorem Addressed.confAddrs {dsess : DSession} (h : Addressed dsess) :
    ∃ addrs, confAddrs dsess = .ok addrs := by
  have haf : confFamily dsess = dsess.dst.family := by
    unfold confFamily
    split
    · rename_i hs
      exact h.2.resolve_left hs
    · rfl
  have hne : afInet6 ≠ afInet := by decide
  obtain hf | hf := h.1 <;> simp [Datapath.confAddrs, haf, hf, hne]

def confEntry (dsess : DSession) (bsess : BSession) (args : ConfArgs) (addrs : Addr × Addr) :
    SessionConfig where
  fibLookup :=
    { family := (confFamily dsess).toUInt8, l4Protocol := ipprotoUdp
      sport := dsess.src.port, dport := dsess.dst.port
      ifindex := args.ifindex, tbid := args.tbid, mark := bsess.genId
      src := addrs.1, dst := addrs.2 }
  bpfFibLookupFlags := args.fibFlags
  minIntervalUs := args.minIntervalUs
  maxIntervalUs := args.maxIntervalUs
  detectTimeUs := args.detectTimeUs
  genId := bsess.genId
  adminDown := dsess.localData.state.state = .adminDown
  rearmTimer := args.rearmTimer
  ttl := dsess.ttl
  rxExpect := makePacket dsess.remoteData.discr dsess.remoteData.timing dsess.remoteData.state
    dsess.localData.discr (rxExpectBfdFlags dsess bsess)

def sessionConfUpdate (args : ConfArgs) : Act (Except String Unit) := do
  let c ← read
  match confAddrs c.dsess with
  | .error e => pure (.error e)
  | .ok addrs =>
    let a ← ask
    if !a.mapUpdate then pure (.error s!"Failed to insert / update BPF session config: {a.strerror}")
    else
      onBpf (fun b => { b with
        kernel := b.kernel.setConfig c.dsess.localData.discr (some (confEntry c.dsess c.bsess args addrs)) })
      pure (.ok ())

end Bbdd.Datapath
