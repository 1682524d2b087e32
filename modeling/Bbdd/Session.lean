import Bbdd.Packet

namespace Bbdd.Session

open Packet

structure Addr where
  w0 : UInt32
  w1 : UInt32
  w2 : UInt32
  w3 : UInt32
  deriving DecidableEq, Repr

def Addr.zero : Addr := ⟨0, 0, 0, 0⟩

def afUnspec : UInt16 := 0
def afInet : UInt16 := 2
def afInet6 : UInt16 := 10

structure Sockaddr where
  family : UInt16
  port : UInt16
  addr : Addr
  deriving DecidableEq, Repr

def Sockaddr.zero : Sockaddr := ⟨afUnspec, 0, .zero⟩

structure Flags where
  multihop : Bool
  cpi : Bool
  passive : Bool
  shutdown : Bool
  deriving DecidableEq, Repr

def Flags.none : Flags := ⟨false, false, false, false⟩

structure SessionData where
  flags : Flags
  discr : UInt32
  timing : Timing
  state : StateEnd
  deriving DecidableEq, Repr

/-- One end-to-end session of the daemon: what the user configured and what
both ends last said. -/
structure DSession where
  src : Sockaddr
  dst : Sockaddr
  name : String
  holdTimeUs : UInt32
  ttl : UInt8
  ifindex : UInt32
  vrfIfindex : UInt32
  userRemoteDiscr : UInt32
  vrfTable : UInt32
  localData : SessionData
  remoteData : SessionData
  deriving DecidableEq, Repr

inductive BState
  | onHold
  | stable
  | awaitFinal
  | awaitNonFinal
  | shuttingDown
  deriving DecidableEq, Repr

structure BData where
  timing : Timing
  shutdown : Bool
  deriving DecidableEq, Repr

def userBdata (dsess : DSession) : BData := ⟨dsess.localData.timing, dsess.localData.flags.shutdown⟩

inductive SessionStat
  | rxBytes
  | rxPackets
  | txBytes
  | txPackets
  deriving DecidableEq, Repr

inductive SessionDiagStat
  | txDstBlackholed
  | txDstUnreachable
  | txDstProhibited
  | txIndevNoForwarding
  | txReqEncap
  | txNoNeigh
  | txNoNeighFinal
  | txReqFragmentation
  | txNoSrcAddr
  | txNotForwarded
  | txFailLookup
  | txFailCksumUpdate
  | txFailUpdate
  | txFailRedir
  | txLoopbackFilter
  | txWrongGenId
  | rxAdminDown
  | rxTtlLow
  | rxUnsupported
  | rxMultipointNot0
  | rxDetectionMultiplier0
  | rxMyDiscr0
  | rxYourDiscr0NotDown
  | rxTimeout
  | raFailTimer
  deriving DecidableEq, Repr

inductive GlobalDiagStat
  | txNoSession
  | txNotBfd
  | rxNotBfd
  | rxNoSession
  | rxWrongVersionNumber
  | rxInvalidLength
  | rxYourDiscr0
  | rxNoUniqueSession
  | ringBufferError
  | skSentCount
  | skReleasedCount
  | skEnqCount
  | skDeqCount
  | raNotBfd
  | raNoSession
  deriving DecidableEq, Repr

/-- The two ends of the daemon's veth pair, the only interfaces it injects to. -/
inductive Veth
  | rx
  | tx
  deriving DecidableEq, Repr

/-- A deferred injection. A session owns two, and a list of the queue names a
slot by the discriminator of its owner. -/
structure TxSlot where
  discr : UInt32
  txIfindex : Veth
  bfdFlags : UInt8
  linked : Bool
  isFinal : Bool
  deriving DecidableEq, Repr

def TxSlot.zero : TxSlot := ⟨0, .tx, 0, false, false⟩

/-- The data path's side of a session. The hold and shutdown-wait objects are
named by the timer each of them owns. Two fields are not the source's: ptr is
the identity of this object on the heap, which a discriminator alone does not
give, and genBumps counts the increments of genId without wrapping. -/
structure BSession where
  discr : UInt32
  genId : UInt32
  genBumps : Nat
  bstate : BState
  effData : BData
  dfrData : BData
  qdChange : Bool
  shwait : Option Nat
  hold : Option Nat
  timerPeriodUs : UInt32
  stats : SessionStat → Nat
  diagStats : SessionDiagStat → Nat
  finalSlot : TxSlot
  periodicSlot : TxSlot
  ptr : Nat

def BSession.bump (b : BSession) (st : SessionStat) (n : Nat) : BSession :=
  { b with stats := Function.update b.stats st (b.stats st + n) }

def BSession.bumpDiag (b : BSession) (st : SessionDiagStat) : BSession :=
  { b with diagStats := Function.update b.diagStats st (b.diagStats st + 1) }

end Bbdd.Session
