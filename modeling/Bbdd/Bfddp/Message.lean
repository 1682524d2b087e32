import Bbdd.Daemon.Config
import Bbdd.Lib.Wire

namespace Bbdd.Bfddp

open Lib.Program Lib.Wire Packet Session Daemon

structure Be16 where
  value : UInt16
  deriving DecidableEq, Repr

def bswap16 (x : UInt16) : UInt16 := (x <<< (8 : UInt16)) ||| (x >>> (8 : UInt16))

def hton16 (x : UInt16) : Be16 := ⟨bswap16 x⟩

def ntoh16 (x : Be16) : UInt16 := bswap16 x.value

theorem bswap16_bswap16 (x : UInt16) : bswap16 (bswap16 x) = x := by
  apply UInt16.toBitVec_inj.mp
  apply BitVec.eq_of_getLsbD_eq
  intro i hi
  interval_cases i <;> simp [bswap16]

@[simp] theorem ntoh16_hton16 (x : UInt16) : ntoh16 (hton16 x) = x := bswap16_bswap16 x

@[simp] theorem hton16_ntoh16 (x : Be16) : hton16 (ntoh16 x) = x := by
  cases x with
  | mk v => simp [hton16, ntoh16, bswap16_bswap16]

structure Be64 where
  high : Be32
  low : Be32
  deriving DecidableEq, Repr

def hton64 (x : UInt64) : Be64 := ⟨hton32 (x >>> (32 : UInt64)).toUInt32, hton32 x.toUInt32⟩

def ntoh64 (x : Be64) : UInt64 := ((ntoh32 x.high).toUInt64 <<< (32 : UInt64)) ||| (ntoh32 x.low).toUInt64

@[simp] theorem ntoh64_hton64 (x : UInt64) : ntoh64 (hton64 x) = x := by
  apply UInt64.toNat_inj.mp
  have hlow : x.toNat % 2 ^ 32 < 2 ^ 32 := Nat.mod_lt _ (by decide)
  have hhigh : x.toNat >>> 32 < 2 ^ 32 := by
    have hlt := x.toNat_lt
    rw [Nat.shiftRight_eq_div_pow]
    omega
  simp only [ntoh64, hton64, ntoh32_hton32, UInt64.toNat_or, UInt64.toNat_shiftLeft,
    UInt32.toNat_toUInt64, UInt64.toNat_toUInt32,
    UInt64.toNat_shiftRight, UInt64.reduceToNat, Nat.reduceMod, Nat.mod_eq_of_lt hhigh]
  rw [Nat.mod_eq_of_lt, ← Nat.shiftLeft_add_eq_or_of_lt hlow, Nat.shiftLeft_eq, Nat.shiftRight_eq_div_pow]
  · omega
  · rw [Nat.shiftLeft_eq]
    omega

structure Header where
  version : UInt8
  zero : UInt8
  type : Be16
  id : Be16
  length : Be16
  deriving DecidableEq, Repr

structure BfddpSession where
  flags : Be32
  src : Addr
  dst : Addr
  lid : Be32
  minTx : Be32
  minRx : Be32
  minEchoTx : Be32
  minEchoRx : Be32
  holdTime : Be32
  ttl : UInt8
  detectMult : UInt8
  zero : Be16
  ifindex : Be32
  ifname : Chars 64
  deriving DecidableEq, Repr

structure BfddpSessionCumulus where
  session : BfddpSession
  vrfId : Be32
  vrfname : Chars 36
  deriving DecidableEq, Repr

def half : Layout Be16 := be16.as hton16 ntoh16 hton16_ntoh16

def word : Layout Be32 := be32.as hton32 ntoh32 hton32_ntoh32

def quad : Layout Be64 := (word.seq word).as (fun (high, low) => ⟨high, low⟩)
    (fun x => (x.high, x.low)) (fun _ => rfl)

def in6Addr : Layout Addr :=
  (le32.seq (le32.seq (le32.seq le32))).as (fun (w0, w1, w2, w3) => ⟨w0, w1, w2, w3⟩)
    (fun a => (a.w0, a.w1, a.w2, a.w3))
    (fun _ => rfl)

def header : Layout Header :=
  (u8.seq (u8.seq (half.seq (half.seq half)))).as
    (fun (version, zero, type, id, length) => ⟨version, zero, type, id, length⟩)
    (fun h => (h.version, h.zero, h.type, h.id, h.length)) (fun _ => rfl)

def session : Layout BfddpSession :=
  (word.seq (in6Addr.seq (in6Addr.seq (word.seq (word.seq (word.seq (word.seq (word.seq (word.seq
    (u8.seq (u8.seq (half.seq (word.seq (chars 64)))))))))))))).as
    (fun (flags, src, dst, lid, minTx, minRx, minEchoTx, minEchoRx, holdTime, ttl, detectMult, zero,
      ifindex, ifname) =>
      ⟨flags, src, dst, lid, minTx, minRx, minEchoTx, minEchoRx, holdTime, ttl, detectMult, zero,
        ifindex, ifname⟩)
    (fun s => (s.flags, s.src, s.dst, s.lid, s.minTx, s.minRx, s.minEchoTx, s.minEchoRx, s.holdTime,
      s.ttl, s.detectMult,
      s.zero, s.ifindex, s.ifname)) (fun _ => rfl)

def sessionCumulus : Layout BfddpSessionCumulus :=
  (session.seq (word.seq (chars 36))).as (fun (session, vrfId, vrfname) => ⟨session, vrfId, vrfname⟩)
    (fun s => (s.session, s.vrfId, s.vrfname)) (fun _ => rfl)

def stdLen : Nat := header.size + session.size

def cmlLen : Nat := header.size + sessionCumulus.size

example : header.size = 8 ∧ stdLen = 140 ∧ cmlLen = 180 := by decide

def bfdDpVersion : UInt8 := 1

def dpAddSession : UInt16 := 2

def sessionMultihop : UInt32 := 1
def sessionDemand : UInt32 := 2
def sessionCbit : UInt32 := 4
def sessionEcho : UInt32 := 8
def sessionIpv6 : UInt32 := 16
def sessionPassive : UInt32 := 32
def sessionShutdown : UInt32 := 64

def zeroSession : DSession where
  src := .zero
  dst := .zero
  name := ""
  holdTimeUs := 0
  ttl := 255
  ifindex := 0
  vrfIfindex := 0
  userRemoteDiscr := 0
  vrfTable := 0
  localData := ⟨.none, 0, ⟨0, 0, 0⟩, ⟨.adminDown, .nothing⟩⟩
  remoteData := ⟨.none, 0, ⟨0, 0, 0⟩, ⟨.adminDown, .nothing⟩⟩

def sessionDFromC (nl : Nl) (csess : CSession) : Except Failure DSession :=
  match sessionApplyC nl zeroSession csess with
  | .error e => .error (.error e)
  | .ok (dsess, _) => .ok dsess

def copyAddr (sa : Sockaddr) (onto : Addr) : Except Failure Addr :=
  let af := sa.family
  if af = afInet then .ok { onto with w0 := sa.addr.w0 }
  else if af = afInet6 then .ok sa.addr
  else .error (.error s!"Unsupported address family {af}")

def srcBuffer (dsess : DSession) : Except Failure Addr :=
  if dsess.src.family ≠ 0 then copyAddr dsess.src .zero else .ok .zero

def dstBuffer (dsess : DSession) (stack : Addr) : Except Failure Addr :=
  if dsess.dst.family = 0 then .error .assert else copyAddr dsess.dst stack

def sessionFlags (ipv6 multihop cpi passive shutdown : Bool) : UInt32 :=
  (if ipv6 then sessionIpv6 else 0) ||| (if multihop then sessionMultihop else 0) |||
    (if cpi then sessionCbit else 0) |||
    (if passive then sessionPassive else 0) ||| (if shutdown then sessionShutdown else 0)

def msgFillNetif (nl : Nl) (strerror : String) (ifindex : UInt32) (n : Nat) : Except Failure (Chars n) :=
  if ifindex = 0 then .ok (.pad n [])
  else
    match nl.ifIndextoname ifindex with
    | some name => .ok (.pad n (bytesOf name))
    | none =>
      let index := ifindex.toInt32
      .error (.error s!"Could not translate ifindex {index} to interface name: {strerror}")

def addHeader (dsess : DSession) (msgId : UInt16) : Header where
  version := bfdDpVersion
  zero := 0
  type := hton16 dpAddSession
  id := hton16 msgId
  length := hton16 (.ofNat (if dsess.vrfTable ≠ 0 then cmlLen else stdLen))

def addData (dsess : DSession) (src dst : Addr) (ifname : Chars 64) (vrfname : Chars 36) :
    BfddpSessionCumulus where
  session :=
    { flags := hton32 (sessionFlags (decide (dsess.dst.family = afInet6)) dsess.localData.flags.multihop
        dsess.localData.flags.cpi dsess.localData.flags.passive dsess.localData.flags.shutdown)
      src := src
      dst := dst
      lid := hton32 dsess.localData.discr
      minTx := hton32 dsess.localData.timing.minTxUs
      minRx := hton32 dsess.localData.timing.minRxUs
      minEchoTx := hton32 0
      minEchoRx := hton32 0
      holdTime := hton32 (dsess.holdTimeUs / 1000)
      ttl := dsess.ttl
      detectMult := dsess.localData.timing.detectMult
      zero := hton16 0
      ifindex := hton32 dsess.ifindex
      ifname := ifname }
  vrfId := hton32 dsess.vrfTable
  vrfname := vrfname

def writeEnqueue (h : Header) (data : BfddpSessionCumulus) : Bytes :=
  (header.put h ++ sessionCumulus.put data).take (ntoh16 h.length).toNat

def bfddDAddSession (nl : Nl) (strerror : String) (stack : Addr) (csess : CSession) (msgId : UInt16) :
    Except Failure Bytes := do
  let dsess ← sessionDFromC nl csess
  let src ← srcBuffer dsess
  let dst ← dstBuffer dsess stack
  let vrfname ← msgFillNetif nl strerror dsess.vrfIfindex 36
  let ifname ← msgFillNetif nl strerror dsess.ifindex 64
  pure (writeEnqueue (addHeader dsess msgId) (addData dsess src dst ifname vrfname))

def hasFlag (flags mask : UInt32) : Bool := flags &&& mask ≠ 0

def sessionToCAddrBfddp (ntop : Ntop) (af : UInt16) (addr : Addr) : CAddr := ⟨false, af, ntop af addr⟩

def familyOf (ipv6 : Bool) : UInt16 := if ipv6 then afInet6 else afInet

def readSrc (ntop : Ntop) (ipv6 : Bool) (src : Addr) : CAddr :=
  if (if ipv6 then src = .zero else src.w0 = 0) then ⟨true, 0, ""⟩ else sessionToCAddrBfddp ntop
    (familyOf ipv6) src

def copyName {n : Nat} (name : Chars n) : Option String :=
  if name.val.headD 0 = 0 then none else some (textOf (name.upto (ifNameSize - 1)))

def readNetif (session : BfddpSession) : CNetif :=
  if ntoh32 session.ifindex = 0 then ⟨true, none, none⟩
  else ⟨false, copyName session.ifname, some (ntoh32 session.ifindex)⟩

def readVrf (cmsess : BfddpSessionCumulus) : CVrf :=
  if ntoh32 cmsess.vrfId = 0 then ⟨⟨true, none, none⟩, none⟩
  else ⟨⟨false, copyName cmsess.vrfname, none⟩, some (ntoh32 cmsess.vrfId)⟩

def uint32Max : UInt32 := 4294967295

def bfddSessionToC (ntop : Ntop) (cmsess : BfddpSessionCumulus) : Except Failure CSession :=
  let fsess := cmsess.session
  let flags := ntoh32 fsess.flags
  let ipv6 := hasFlag flags sessionIpv6
  let holdTimeMs := ntoh32 fsess.holdTime
  if hasFlag flags sessionEcho then .error (.error "Echo not supported")
  else if hasFlag flags sessionDemand then .error (.error "Demand mode not supported")
  else if holdTimeMs > uint32Max / 1000 then .error (.error s!"hold_time {holdTimeMs} ms->us overflows uint32_t")
  else .ok
    { flags := ⟨some (hasFlag flags sessionMultihop), some (hasFlag flags sessionCbit),
      some (hasFlag flags sessionPassive),
        some (hasFlag flags sessionShutdown)⟩
      discr := if ntoh32 fsess.lid = 0 then none else some (ntoh32 fsess.lid)
      remoteDiscr := none
      minTxUs := some (ntoh32 fsess.minTx)
      minRxUs := some (ntoh32 fsess.minRx)
      holdTimeUs := some (holdTimeMs * 1000)
      ttl := some fsess.ttl
      detectMult := some fsess.detectMult
      src := readSrc ntop ipv6 fsess.src
      dst := sessionToCAddrBfddp ntop (familyOf ipv6) fsess.dst
      netif := readNetif fsess
      vrf := readVrf cmsess
      name := ⟨false, none⟩ }

def bfddSessionMsgToC (ntop : Ntop) (msg : Bytes) : Except Failure CSession :=
  let h := header.get msg
  let length := (ntoh16 h.length).toNat
  if ntoh16 h.type ≠ dpAddSession then .error .assert
  else if length = stdLen then bfddSessionToC ntop ⟨session.get (msg.drop header.size), hton32 0, .pad 36 []⟩
  else if length = cmlLen then bfddSessionToC ntop (sessionCumulus.get (msg.drop header.size))
  else .error (.error s!"DP_ADD_SESSION: Invalid length: got {length}, expected {stdLen} or {cmlLen}")

end Bbdd.Bfddp
