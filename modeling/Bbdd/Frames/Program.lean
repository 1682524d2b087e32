import Bbdd.Datapath.Checksum
import Bbdd.Lib.Splice

namespace Bbdd.Frames

open Lib.Wire Lib.Splice Packet Session Prog Datapath

/-- A hardware address. -/
structure Mac where
  b0 : UInt8
  b1 : UInt8
  b2 : UInt8
  b3 : UInt8
  b4 : UInt8
  b5 : UInt8
  deriving DecidableEq, Repr

def Mac.bytes (m : Mac) : Bytes := [m.b0, m.b1, m.b2, m.b3, m.b4, m.b5]

/-- A packet of the transmit loop with all its bytes, from the Ethernet header
on. The protocol is in host order. -/
structure Frame where
  protocol : UInt16
  data : Bytes
  mark : UInt32
  hash : UInt32
  tstamp : UInt64
  deriving DecidableEq, Repr

def load16 : Bytes → UInt16
  | b0 :: b1 :: _ => .ofNat (b0.toNat + 256 * b1.toNat)
  | _ => 0

def load32 : Bytes → UInt32
  | b0 :: b1 :: b2 :: b3 :: _ => .ofNat (b0.toNat + 256 * (b1.toNat + 256 * (b2.toNat + 256 * b3.toNat)))
  | _ => 0

def loadAddr (bytes : Bytes) : Addr :=
  ⟨load32 bytes, load32 (bytes.drop 4), load32 (bytes.drop 8), load32 (bytes.drop 12)⟩

def loadPkt (bytes : Bytes) : BfdPkt where
  versionDiag := bytes.getD 0 0
  stateBits := bytes.getD 1 0
  detectionMultiplier := bytes.getD 2 0
  length := bytes.getD 3 0
  myDisc := ⟨load32 (bytes.drop 4)⟩
  yourDisc := ⟨load32 (bytes.drop 8)⟩
  desiredTx := ⟨load32 (bytes.drop 12)⟩
  requiredRx := ⟨load32 (bytes.drop 16)⟩
  requiredEchoRx := ⟨load32 (bytes.drop 20)⟩

def ntohs (bytes : Bytes) : UInt16 := be16.get bytes

def ethSize : Nat := 14
def ipSize : Nat := 20
def ip6Size : Nat := 40
def udpSize : Nat := 8

def txIsBfdIpv4 (data : Bytes) (off : Nat) : Option (Nat × UInt16) := do
  let iph ← slice data off ipSize
  if iph.getD 9 0 ≠ ipprotoUdp then none
  else some (off + ipSize, ntohs (iph.drop 2))

def txIsBfdIpv6 (data : Bytes) (off : Nat) : Option (Nat × UInt16) := do
  let ip6h ← slice data off ip6Size
  if ip6h.getD 6 0 ≠ ipprotoUdp then none
  else some (off + ip6Size, ntohs (ip6h.drop 4) + 40)

def txIsBfd (protocol : UInt16) (data : Bytes) (off : Nat) : Option (Nat × UInt16) :=
  if protocol = ethPIp then txIsBfdIpv4 data off else txIsBfdIpv6 data off

def txGetBfd (frame : Frame) : Option (BfdPkt × UInt16) :=
  if frame.protocol ≠ ethPIp ∧ frame.protocol ≠ ethPIpv6 then none
  else do
    let (off, totLen) ← txIsBfd frame.protocol frame.data ethSize
    let udph ← slice frame.data off udpSize
    if ntohs (udph.drop 2) ≠ bfdSingleHopPort ∧ ntohs (udph.drop 2) ≠ bfdMultiHopPort then none
    else
      let bfd ← slice frame.data (off + udpSize) 24
      some (loadPkt bfd, totLen)

/-- What the route lookup gives: where the packet goes and what it is to carry. -/
structure FibParams where
  ifindex : UInt32
  src : Addr
  dst : Addr
  smac : Mac
  dmac : Mac
  deriving DecidableEq, Repr

/-- Which writes of one update go through. A header is written in place or
copied back, which can fail; so can each update of a checksum. -/
structure Writes where
  dynptr : Bool
  eth : Bool
  ip : Bool
  l3 : Bool
  l4 : Nat → Bool

def Writes.Steady (w : Writes) : Prop := w.l3 = true ∧ ∀ i, w.l4 i = true

def csumReplace (ok : Bool) (replace : UInt16 → UInt16) (off : Nat) (data : Bytes) : Option Bytes :=
  match slice data off 2 with
  | none => none
  | some check => if ok then some (splice data off (mem16 (replace (load16 check)))) else none

def csumReplaces (off : Nat) : List (Bool × (UInt16 → UInt16)) → Bytes → Bool × Bytes
  | [], data => (true, data)
  | (ok, replace) :: rest, data =>
    match csumReplace ok replace off data with
    | none => (false, data)
    | some data => csumReplaces off rest data

def txUpdateIpv4 (R : Replacement) (w : Writes) (params : FibParams) (data : Bytes) : Bool × Bytes :=
  match slice data ethSize ipSize with
  | none => (false, data)
  | some iph =>
    if !w.ip then (false, data)
    else
      let oldSaddr := load32 (iph.drop 12)
      let data := splice data (ethSize + 12) (mem32 params.src.w0)
      match csumReplace w.l3 (fun check => R.replace check oldSaddr params.src.w0) (ethSize + 10) data with
      | none => (false, data)
      | some data =>
        csumReplaces (ethSize + ipSize + 6) [(w.l4 0, fun check => R.mangled check oldSaddr params.src.w0)] data

def txUpdateIpv6 (R : Replacement) (w : Writes) (params : FibParams) (data : Bytes) : Bool × Bytes :=
  match slice data ethSize ip6Size with
  | none => (false, data)
  | some ip6h =>
    if !w.ip then (false, data)
    else
      let oldSrc := loadAddr (ip6h.drop 8)
      csumReplaces (ethSize + ip6Size + 6)
        [(w.l4 0, fun check => R.replace check oldSrc.w0 params.src.w0),
          (w.l4 1, fun check => R.replace check oldSrc.w1 params.src.w1),
          (w.l4 2, fun check => R.replace check oldSrc.w2 params.src.w2),
            (w.l4 3, fun check => R.replace check oldSrc.w3 params.src.w3)]
        (splice data (ethSize + 8) (memAddr params.src))

def txUpdate (R : Replacement) (w : Writes) (params : FibParams) (protocol : UInt16)
    (data : Bytes) : Bool × Bytes :=
  if !w.dynptr then (false, data)
  else
    match slice data 0 ethSize with
    | none => (false, data)
    | some _ =>
      if !w.eth then (false, data)
      else
        let data := splice (splice data 6 params.smac.bytes) 0 params.dmac.bytes
        if protocol = ethPIp then txUpdateIpv4 R w params data else txUpdateIpv6 R w params data

/-- What the kernel helpers answer during one run of the transmit program. -/
structure TxAnswers where
  fib : FibRet
  params : FibParams
  writes : Writes
  redirect : Bool
  reserve : Bool
  prandom : UInt32
  ktimeNs : UInt64

structure Line where
  kernel : Kernel
  circ : List Frame
  wire : List (UInt32 × Bytes)

def Line.empty : Line := ⟨.empty, [], []⟩

def Line.on (line : Line) (f : Kernel → Kernel) : Line := { line with kernel := f line.kernel }

section

variable (veth : UInt32) (R : Replacement) (h : TxAnswers)

def txNotifyNoNeigh (protocol : UInt16) : RbElem :=
  .txNoNeigh h.params.ifindex protocol (if protocol = ethPIp then ⟨h.params.dst.w0, 0, 0, 0⟩ else h.params.dst)

def txOut (config : SessionConfig) (final : Bool) (finalRc : TcAct) (frame : Frame) (line : Line) :
    TcAct × Frame × Line :=
  if final then (finalRc, frame, line.on (·.bump .skReleasedCount))
  else (.ok, { frame with tstamp := h.ktimeNs + txInterval config h.prandom * 1000 }, line)

def txForward (config : SessionConfig) (discr : UInt32) (final : Bool) (frame : Frame)
    (line : Line) : TcAct × Frame × Line :=
  if h.params.ifindex = veth then txOut h config final .shot frame (line.on (·.bumpDiag discr .txLoopbackFilter))
  else
    let (updated, data) := txUpdate R h.writes h.params frame.protocol frame.data
    let frame := { frame with data }
    if !updated then txOut h config final .shot frame (line.on (·.bumpDiag discr .txFailUpdate))
    else if final && !h.redirect then
      (.shot, frame, line.on (fun k => (k.bumpDiag discr .txFailRedir).bump .skReleasedCount))
    else if !h.redirect then txOut h config final .shot frame (line.on (·.bumpDiag discr .txFailRedir))
    else
      let sent : Line := { line with wire := (h.params.ifindex, data) :: line.wire }
      txOut h config final .redirect frame
        (sent.on (·.mapData discr (fun e => (e.bump .txPackets 1).bump .txBytes data.length)))

def xmitVethTx (frame : Frame) (line : Line) : TcAct × Frame × Line :=
  match txGetBfd frame with
  | none => (.shot, frame, line.on (·.bump .txNotBfd))
  | some (bfd, _) =>
    let final := hasBit (pktBits bfd) bitFinal
    let discr := ntoh32 bfd.myDisc
    match line.kernel.config discr, line.kernel.data discr with
    | some config, some _ =>
      if frame.mark ≠ config.genId then
        (.shot, frame, line.on (fun k => (k.bumpDiag discr .txWrongGenId).bump .skReleasedCount))
      else
        let frame := if frame.hash = 0
          then { frame with hash := discr ^^^ (config.genId * 2654435761) } else frame
        match fibFailure h.fib with
        | none => txForward veth R h config discr final frame line
        | some .txNoNeigh =>
          let line := line.on (·.notify h.reserve (txNotifyNoNeigh h frame.protocol))
          if final then (.stolen, frame, line.on
            (fun k => (k.bumpDiag discr .txNoNeighFinal).bump .skReleasedCount))
          else txOut h config final .shot frame (line.on (·.bumpDiag discr .txNoNeigh))
        | some st => txOut h config final .shot frame (line.on (·.bumpDiag discr st))
    | _, _ => (.shot, frame, line.on (fun k => (k.bump .txNoSession).bump .skReleasedCount))

def pass (i : Nat) (line : Line) : Line :=
  match line.circ[i]? with
  | none => line
  | some frame =>
    match xmitVethTx veth R h frame line with
    | (.ok, frame', line') => { line' with circ := line'.circ.set i frame' }
    | (_, _, line') => { line' with circ := line'.circ.eraseIdx i }

def send (frame : Frame) (line : Line) : Line :=
  match xmitVethTx veth R h frame line with
  | (.ok, frame', line') => { line' with circ := line'.circ ++ [frame'] }
  | (_, _, line') => line'

end

/-- A datagram at a receive socket. The program reads the headers from the
network header on, and the rest from the UDP header on. -/
structure SockSkb where
  ingressIfindex : UInt32
  protocol : UInt16
  net : Bytes
  udp : Bytes
  deriving DecidableEq, Repr

structure Digest where
  ttl : UInt8
  wireLen : UInt32
  saddr : Addr
  daddr : Addr
  deriving DecidableEq, Repr

def recvParseIpv4 (net : Bytes) : Option Digest := do
  let iph ← slice net 0 ipSize
  some ⟨iph.getD 8 0, 14 + (ntohs (iph.drop 2)).toUInt32, ⟨load32 (iph.drop 12), 0, 0, 0⟩,
    ⟨load32 (iph.drop 16), 0, 0, 0⟩⟩

def recvParseIpv6 (net : Bytes) : Option Digest := do
  let ip6h ← slice net 0 ip6Size
  some ⟨ip6h.getD 7 0, 14 + 40 + (ntohs (ip6h.drop 4)).toUInt32, loadAddr (ip6h.drop 8), loadAddr (ip6h.drop 24)⟩

def recvGetBfd (skb : SockSkb) : RxFrame :=
  let unread : RxFrame := ⟨skb.ingressIfindex, skb.protocol, .zero, .zero, 0, 0, 0, none⟩
  match if skb.protocol = ethPIp then recvParseIpv4 skb.net else recvParseIpv6 skb.net with
  | none => unread
  | some digest =>
    match slice skb.udp 0 udpSize with
    | none => unread
    | some udph =>
      ⟨skb.ingressIfindex, skb.protocol, digest.saddr, digest.daddr, digest.ttl, ntohs
        (udph.drop 2), digest.wireLen,
        (slice skb.udp udpSize 24).map loadPkt⟩

def Mac.broadcast : Mac := ⟨0xff, 0xff, 0xff, 0xff, 0xff, 0xff⟩

def injectFrame (smac : Mac) (dsess : DSession) (genId : UInt32) (bfd : BfdPkt) : Frame :=
  let protocol := if dsess.dst.family = afInet then ethPIp else ethPIpv6
  ⟨protocol, Mac.broadcast.bytes ++ smac.bytes ++ htons protocol ++ injectBytes dsess bfd, genId, 0, 0⟩

end Bbdd.Frames
