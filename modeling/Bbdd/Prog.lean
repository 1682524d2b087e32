import Bbdd.Session

namespace Bbdd.Prog

open Packet Session

def ethPIp : UInt16 := 0x0800
def ethPIpv6 : UInt16 := 0x86dd
def ipprotoUdp : UInt8 := 17
def bfdSingleHopPort : UInt16 := 3784
def bfdMultiHopPort : UInt16 := 4784
def slowIntervalUs : UInt32 := 1000000

def BfdPort (dsess : DSession) : Prop :=
  dsess.dst.port = bfdSingleHopPort ∨ dsess.dst.port = bfdMultiHopPort

structure FibLookup where
  family : UInt8
  l4Protocol : UInt8
  sport : UInt16
  dport : UInt16
  ifindex : UInt32
  tbid : UInt32
  mark : UInt32
  src : Addr
  dst : Addr
  deriving DecidableEq, Repr

structure SessionConfig where
  fibLookup : FibLookup
  bpfFibLookupFlags : UInt32
  minIntervalUs : UInt32
  maxIntervalUs : UInt32
  detectTimeUs : UInt32
  genId : UInt32
  adminDown : Bool
  rearmTimer : Bool
  ttl : UInt8
  rxExpect : BfdPkt
  deriving DecidableEq, Repr

/-- The data map's entry: the counters and the detection timer, with the
period it was last started with while it is running. -/
structure SessionEntry where
  stats : SessionStat → Nat
  diagStats : SessionDiagStat → Nat
  timer : Option UInt64
  timerInitd : Bool

def SessionEntry.fresh : SessionEntry := ⟨fun _ => 0, fun _ => 0, none, false⟩

/-- A packet of the transmit loop, as far as its programs read or write it.
The daemon injects it whole, so its headers can always be read; the protocol
and the port are in host order. -/
structure Skb where
  protocol : UInt16
  ipProtocol : UInt8
  udpDest : UInt16
  bfd : BfdPkt
  mark : UInt32
  hash : UInt32
  len : UInt32
  tstamp : UInt64
  deriving DecidableEq, Repr

/-- A datagram that reached one of the receive sockets. The payload is absent
when the headers or the payload could not be read. -/
structure RxFrame where
  ingressIfindex : UInt32
  protocol : UInt16
  saddr : Addr
  daddr : Addr
  ttl : UInt8
  udpDest : UInt16
  wireLen : UInt32
  bfd : Option BfdPkt
  deriving DecidableEq, Repr

inductive RbElem
  | txNoNeigh (ifindex : UInt32) (ethtype : UInt16) (addr : Addr)
  | rxDiscr0 (ifindex wireLen : UInt32) (ethtype : UInt16) (ttl : UInt8) (multihop : Bool)
      (saddr daddr : Addr) (packet : BfdPkt)
  | rxUnxPkt (wireLen : UInt32) (ttl : UInt8) (packet : BfdPkt)
  | rxTimeout (discr : UInt32)
  deriving DecidableEq, Repr

inductive TcAct
  | ok
  | shot
  | stolen
  | redirect
  deriving DecidableEq, Repr

/-- What the kernel shares between the programs and with the daemon. The
packets charged to the transmit socket are those of the loop; wire lists
what was handed to a real device, newest first. -/
structure Kernel where
  config : UInt32 → Option SessionConfig
  data : UInt32 → Option SessionEntry
  diagStats : GlobalDiagStat → Nat
  circ : List Skb
  ring : List RbElem
  wire : List (UInt32 × BfdPkt)

def Kernel.empty : Kernel := ⟨fun _ => none, fun _ => none, fun _ => 0, [], [], []⟩

def Kernel.bump (k : Kernel) (st : GlobalDiagStat) : Kernel :=
  { k with diagStats := Function.update k.diagStats st (k.diagStats st + 1) }

def Kernel.mapData (k : Kernel) (discr : UInt32) (f : SessionEntry → SessionEntry) : Kernel :=
  { k with data := Function.update k.data discr ((k.data discr).map f) }

def Kernel.setConfig (k : Kernel) (discr : UInt32) (config : Option SessionConfig) : Kernel :=
  { k with config := Function.update k.config discr config }

def Kernel.setData (k : Kernel) (discr : UInt32) (data : Option SessionEntry) : Kernel :=
  { k with data := Function.update k.data discr data }

def SessionEntry.bump (e : SessionEntry) (st : SessionStat) (n : Nat) : SessionEntry :=
  { e with stats := Function.update e.stats st (e.stats st + n) }

def SessionEntry.bumpDiag (e : SessionEntry) (st : SessionDiagStat) : SessionEntry :=
  { e with diagStats := Function.update e.diagStats st (e.diagStats st + 1) }

def Kernel.bumpDiag (k : Kernel) (discr : UInt32) (st : SessionDiagStat) : Kernel :=
  k.mapData discr (·.bumpDiag st)

def Kernel.notify (k : Kernel) (reserve : Bool) (elem : RbElem) : Kernel :=
  if reserve then { k with ring := k.ring ++ [elem] } else k.bump .ringBufferError

inductive FibRet
  | error
  | success
  | blackhole
  | unreachable
  | prohibit
  | notFwded
  | fwdDisabled
  | unsuppLwt
  | noNeigh
  | fragNeeded
  | noSrcAddr
  | other
  deriving DecidableEq, Repr

/-- What the kernel helpers answer during one run of the transmit program. The
route lookup also rewrites the destination when it goes through a gateway. -/
structure TxHelpers where
  fib : FibRet
  ifindex : UInt32
  dst : Addr
  update : Bool
  redirect : Bool
  reserve : Bool
  prandom : UInt32
  ktimeNs : UInt64
  deriving DecidableEq, Repr

inductive TimerInit
  | ok
  | busy
  | error
  deriving DecidableEq, Repr

structure TimerHelpers where
  init : TimerInit
  setCallback : Bool
  start : Bool
  deriving DecidableEq, Repr

/-- The element that asks userspace to resolve a neighbor; an IPv4 address is
the first word alone. -/
def txNotifyNoNeigh (h : TxHelpers) (protocol : UInt16) : RbElem :=
  .txNoNeigh h.ifindex protocol (if protocol = ethPIp then ⟨h.dst.w0, 0, 0, 0⟩ else h.dst)

def txGetBfd (skb : Skb) : Option BfdPkt :=
  if skb.protocol ≠ ethPIp ∧ skb.protocol ≠ ethPIpv6 then none
  else if skb.ipProtocol ≠ ipprotoUdp then none
  else if skb.udpDest ≠ bfdSingleHopPort ∧ skb.udpDest ≠ bfdMultiHopPort then none
  else some skb.bfd

/-- The diagnostic a failed route lookup is counted under; a lookup that
found no neighbor also asks userspace to resolve it. -/
def fibFailure : FibRet → Option SessionDiagStat
  | .error => some .txFailLookup
  | .blackhole => some .txDstBlackholed
  | .unreachable => some .txDstUnreachable
  | .prohibit => some .txDstProhibited
  | .fwdDisabled => some .txIndevNoForwarding
  | .unsuppLwt => some .txReqEncap
  | .noNeigh => some .txNoNeigh
  | .fragNeeded => some .txReqFragmentation
  | .noSrcAddr => some .txNoSrcAddr
  | .notFwded => some .txNotForwarded
  | .success | .other => none

def txInterval (config : SessionConfig) (prandom : UInt32) : UInt64 :=
  let span : UInt64 := (config.maxIntervalUs - config.minIntervalUs).toUInt64
  prandom.toUInt64 * span / 0xffffffff + config.minIntervalUs.toUInt64

def txOut (h : TxHelpers) (config : SessionConfig) (final : Bool) (finalRc : TcAct) (skb : Skb)
    (k : Kernel) :
    TcAct × Skb × Kernel :=
  if final then (finalRc, skb, k.bump .skReleasedCount)
  else (.ok, { skb with tstamp := h.ktimeNs + txInterval config h.prandom * 1000 }, k)

def txForward (vethTxIfindex : UInt32) (h : TxHelpers) (config : SessionConfig) (discr : UInt32)
    (final : Bool) (skb : Skb) (k : Kernel) : TcAct × Skb × Kernel :=
  if h.ifindex = vethTxIfindex then txOut h config final .shot skb (k.bumpDiag discr .txLoopbackFilter)
  else if !h.update then txOut h config final .shot skb (k.bumpDiag discr .txFailUpdate)
  else if final && !h.redirect then
    (.shot, skb, (k.bumpDiag discr .txFailRedir).bump .skReleasedCount)
  else if !h.redirect then txOut h config final .shot skb (k.bumpDiag discr .txFailRedir)
  else
    let sent : Kernel := { k with wire := (h.ifindex, skb.bfd) :: k.wire }
    txOut h config final .redirect skb
      (sent.mapData discr (fun e => (e.bump .txPackets 1).bump .txBytes skb.len.toNat))

/-- The egress program of the transmit side: each packet of the loop passes
through it once per interval. -/
def xmitVethTx (vethTxIfindex : UInt32) (h : TxHelpers) (skb : Skb) (k : Kernel) : TcAct × Skb × Kernel :=
  match txGetBfd skb with
  | none => (.shot, skb, k.bump .txNotBfd)
  | some bfd =>
    let final := hasBit (pktBits bfd) bitFinal
    let discr := ntoh32 bfd.myDisc
    match k.config discr, k.data discr with
    | some config, some _ =>
      if skb.mark ≠ config.genId then
        (.shot, skb, (k.bumpDiag discr .txWrongGenId).bump .skReleasedCount)
      else
        let skb := if skb.hash = 0 then { skb with hash := discr ^^^ (config.genId * 2654435761) } else skb
        match fibFailure h.fib with
        | none => txForward vethTxIfindex h config discr final skb k
        | some .txNoNeigh =>
          let k := k.notify h.reserve (txNotifyNoNeigh h skb.protocol)
          if final then (.stolen, skb, (k.bumpDiag discr .txNoNeighFinal).bump .skReleasedCount)
          else txOut h config final .shot skb (k.bumpDiag discr .txNoNeigh)
        | some st => txOut h config final .shot skb (k.bumpDiag discr st)
    | _, _ => (.shot, skb, (k.bump .txNoSession).bump .skReleasedCount)

def recvRearmTimer (h : TimerHelpers) (config : SessionConfig) (e : SessionEntry) : SessionEntry :=
  if !config.rearmTimer then e
  else if !e.timerInitd && h.init = .error then e.bumpDiag .raFailTimer
  else if !e.timerInitd && !h.setCallback then e.bumpDiag .raFailTimer
  else if !h.start then { e with timerInitd := true }.bumpDiag .raFailTimer
  else { e with timerInitd := true, timer := some (config.detectTimeUs.toUInt64 * 1000) }

/-- The egress program of the receive side, which only restarts the detection
timer of the packet's session. -/
def xmitVethRxXmit (h : TimerHelpers) (skb : Skb) (k : Kernel) : TcAct × Skb × Kernel :=
  match txGetBfd skb with
  | none => (.shot, skb, k.bump .raNotBfd)
  | some bfd =>
    let discr := ntoh32 bfd.myDisc
    match k.config discr, k.data discr with
    | some config, some _ =>
      (.stolen, skb, (k.mapData discr (recvRearmTimer h config)).bump .skReleasedCount)
    | _, _ => (.shot, skb, (k.bump .raNoSession).bump .skReleasedCount)

inductive RecvVerdict
  | notBfd
  | wrongVersion
  | invalidLength
  | discr0 (bfd : BfdPkt)
  | noSession
  | adminDown (discr : UInt32)
  | ttlLow (discr : UInt32)
  | unexpected (bfd : BfdPkt)
  | expected (discr : UInt32) (config : SessionConfig)
  deriving DecidableEq, Repr

def recvVerdict (k : Kernel) (frame : RxFrame) : RecvVerdict :=
  match frame.bfd with
  | none => .notBfd
  | some bfd =>
    if pktVersion bfd ≠ 1 then .wrongVersion
    else if bfd.length ≠ pktSize then .invalidLength
    else if ntoh32 bfd.yourDisc = 0 then .discr0 bfd
    else
      let discr := ntoh32 bfd.yourDisc
      match k.config discr, k.data discr with
      | some config, some _ =>
        if config.adminDown then .adminDown discr
        else if config.ttl > frame.ttl then .ttlLow discr
        else if bfd ≠ config.rxExpect then .unexpected bfd
        else .expected discr config
      | _, _ => .noSession

def recv (h : TimerHelpers) (reserve : Bool) (frame : RxFrame) (k : Kernel) : Kernel :=
  match recvVerdict k frame with
  | .notBfd => k.bump .rxNotBfd
  | .wrongVersion => k.bump .rxWrongVersionNumber
  | .invalidLength => k.bump .rxInvalidLength
  | .discr0 bfd =>
    (k.bump .rxYourDiscr0).notify reserve
      (.rxDiscr0 frame.ingressIfindex frame.wireLen frame.protocol frame.ttl
        (frame.udpDest = bfdMultiHopPort) frame.saddr frame.daddr bfd)
  | .noSession => k.bump .rxNoSession
  | .adminDown discr => k.bumpDiag discr .rxAdminDown
  | .ttlLow discr => k.bumpDiag discr .rxTtlLow
  | .unexpected bfd => k.notify reserve (.rxUnxPkt frame.wireLen frame.ttl bfd)
  | .expected discr config =>
    k.mapData discr (fun e =>
      ((recvRearmTimer h config e).bump .rxPackets 1).bump .rxBytes frame.wireLen.toNat)

def sessionExpired (reserve : Bool) (discr : UInt32) (k : Kernel) : Kernel :=
  match k.data discr with
  | none => k
  | some e =>
    if e.timer.isNone then k
    else (k.mapData discr (fun e => { e with timer := none }.bumpDiag .rxTimeout)).notify reserve
      (.rxTimeout discr)

/-- A packet of the loop comes around: the program decides whether it stays
charged to the socket. -/
def pass (vethTxIfindex : UInt32) (i : Nat) (h : TxHelpers) (k : Kernel) : Kernel :=
  match k.circ[i]? with
  | none => k
  | some skb =>
    match xmitVethTx vethTxIfindex h skb k with
    | (.ok, skb', k') => { k' with circ := k'.circ.set i skb' }
    | (_, _, k') => { k' with circ := k'.circ.eraseIdx i }

/-- What the kernel does on its own, while the daemon runs or sleeps. -/
inductive KernelEvent
  | pass (i : Nat) (h : TxHelpers)
  | recv (h : TimerHelpers) (reserve : Bool) (frame : RxFrame)
  | expired (reserve : Bool) (discr : UInt32)

def Kernel.step (vethTxIfindex : UInt32) (k : Kernel) : KernelEvent → Kernel
  | .pass i h => pass vethTxIfindex i h k
  | .recv h reserve frame => recv h reserve frame k
  | .expired reserve discr => sessionExpired reserve discr k

def Kernel.steps (vethTxIfindex : UInt32) (k : Kernel) (evs : List KernelEvent) : Kernel :=
  evs.foldl (fun k ev => k.step vethTxIfindex ev) k

theorem Kernel.steps_append (vethTxIfindex : UInt32) (k : Kernel) (evs evs' : List KernelEvent) :
    k.steps vethTxIfindex (evs ++ evs') = (k.steps vethTxIfindex evs).steps vethTxIfindex evs' := by
  simp [Kernel.steps]

end Bbdd.Prog
