import Mathlib.Tactic.IntervalCases

namespace Bbdd.Packet

structure Be32 where
  value : UInt32
  deriving DecidableEq, Repr

def bswap32 (x : UInt32) : UInt32 :=
  (x <<< (24 : UInt32)) ||| ((x &&& (0xff00 : UInt32)) <<< (8 : UInt32)) |||
    ((x >>> (8 : UInt32)) &&& (0xff00 : UInt32)) ||| (x >>> (24 : UInt32))

def hton32 (x : UInt32) : Be32 := ⟨bswap32 x⟩

def ntoh32 (x : Be32) : UInt32 := bswap32 x.value

inductive PktState
  | adminDown
  | down
  | init
  | up
  deriving DecidableEq, Repr

def PktState.toUInt8 : PktState → UInt8
  | .adminDown => 0
  | .down => 1
  | .init => 2
  | .up => 3

def PktState.ofUInt8 (x : UInt8) : PktState :=
  if x = 0 then .adminDown else if x = 1 then .down else if x = 2 then .init else .up

abbrev Diag := Fin 32

def Diag.nothing : Diag := 0
def Diag.timeExpired : Diag := 1
def Diag.down : Diag := 3
def Diag.adminDown : Diag := 7

def Diag.ofNat (n : Nat) : Diag := Fin.ofNat 32 n

def bitMulti : UInt8 := 1
def bitDemand : UInt8 := 2
def bitAuth : UInt8 := 4
def bitCpi : UInt8 := 8
def bitFinal : UInt8 := 16
def bitPoll : UInt8 := 32

structure BfdPkt where
  versionDiag : UInt8
  stateBits : UInt8
  detectionMultiplier : UInt8
  length : UInt8
  myDisc : Be32
  yourDisc : Be32
  desiredTx : Be32
  requiredRx : Be32
  requiredEchoRx : Be32
  deriving DecidableEq, Repr

def pktSize : UInt8 := 24

def pktVersion (p : BfdPkt) : UInt8 := p.versionDiag >>> 5

def pktDiag (p : BfdPkt) : Diag := Fin.ofNat 32 (p.versionDiag &&& 0x1f).toNat

def pktState (p : BfdPkt) : PktState := .ofUInt8 (p.stateBits >>> 6)

def pktBits (p : BfdPkt) : UInt8 := p.stateBits &&& 0x3f

def hasBit (bits mask : UInt8) : Bool := bits &&& mask ≠ 0

structure StateEnd where
  state : PktState
  diag : Diag
  deriving DecidableEq, Repr

structure Timing where
  detectMult : UInt8
  minTxUs : UInt32
  minRxUs : UInt32
  deriving DecidableEq, Repr

def makePacket (myDisc : UInt32) (timing : Timing) (state : StateEnd) (yourDisc : UInt32)
    (flags : UInt8) : BfdPkt where
  versionDiag := ((1 : UInt8) <<< (5 : UInt8)) ||| UInt8.ofNat state.diag.val
  stateBits := (state.state.toUInt8 <<< (6 : UInt8)) ||| flags
  detectionMultiplier := timing.detectMult
  length := pktSize
  myDisc := hton32 myDisc
  yourDisc := hton32 yourDisc
  desiredTx := hton32 timing.minTxUs
  requiredRx := hton32 timing.minRxUs
  requiredEchoRx := ⟨0⟩

theorem bswap32_bswap32 (x : UInt32) : bswap32 (bswap32 x) = x := by
  apply UInt32.toBitVec_inj.mp
  apply BitVec.eq_of_getLsbD_eq
  intro i hi
  interval_cases i <;> simp [bswap32]

@[simp] theorem ntoh32_hton32 (x : UInt32) : ntoh32 (hton32 x) = x := bswap32_bswap32 x

@[simp] theorem hton32_ntoh32 (x : Be32) : hton32 (ntoh32 x) = x := by
  cases x with
  | mk v => simp [hton32, ntoh32, bswap32_bswap32]

theorem exists_fin_of_lt {x : UInt8} (h : x < 64) : ∃ f : Fin 64, x = UInt8.ofNat f.val :=
  ⟨⟨x.toNat, UInt8.lt_iff_toNat_lt.mp h⟩, by simp⟩

theorem byte_or_and (a b c : UInt8) : (a ||| b) &&& c = (a &&& c) ||| (b &&& c) := by
  apply UInt8.toBitVec_inj.mp
  apply BitVec.eq_of_getLsbD_eq
  intro i hi
  simp [Bool.and_or_distrib_right]

section MakePacket

variable (myDisc yourDisc : UInt32) (timing : Timing) (state : StateEnd) (flags : UInt8)

@[simp] theorem pktDiag_makePacket : pktDiag (makePacket myDisc timing state yourDisc flags) = state.diag := by
  obtain ⟨st, diag⟩ := state
  revert diag
  change ∀ diag : Diag,
    Fin.ofNat 32 ((((1 : UInt8) <<< (5 : UInt8)) ||| UInt8.ofNat diag.val) &&& 0x1f).toNat = diag
  decide

theorem pktState_makePacket (h : flags < 64) :
    pktState (makePacket myDisc timing state yourDisc flags) = state.state := by
  obtain ⟨f, rfl⟩ := exists_fin_of_lt h
  have hf : ∀ (st : PktState) (f : Fin 64),
      PktState.ofUInt8 (((st.toUInt8 <<< (6 : UInt8)) ||| UInt8.ofNat f.val) >>> 6) = st := by
    intro st
    cases st <;> decide
  exact hf state.state f

theorem pktBits_makePacket (h : flags < 64) :
    pktBits (makePacket myDisc timing state yourDisc flags) = flags := by
  obtain ⟨f, rfl⟩ := exists_fin_of_lt h
  have hf : ∀ (st : PktState) (f : Fin 64),
      ((st.toUInt8 <<< (6 : UInt8)) ||| UInt8.ofNat f.val) &&& 0x3f = UInt8.ofNat f.val := by
    intro st
    cases st <;> decide
  exact hf state.state f

theorem final_makePacket :
    hasBit (pktBits (makePacket myDisc timing state yourDisc flags)) bitFinal = hasBit flags bitFinal := by
  have hst : ∀ st : PktState, (st.toUInt8 <<< (6 : UInt8)) &&& bitFinal = 0 := by
    intro st
    cases st <;> decide
  have hmask : (0x3f : UInt8) &&& bitFinal = bitFinal := by decide
  have hbit : ((state.state.toUInt8 <<< (6 : UInt8)) ||| flags) &&& 0x3f &&& bitFinal = flags &&& bitFinal := by
    rw [UInt8.and_assoc, hmask, byte_or_and, hst, UInt8.zero_or]
  exact decide_eq_decide.mpr (not_congr (by rw [← hbit]; rfl))

end MakePacket

def BfdPkt.withoutFinal (p : BfdPkt) : BfdPkt := { p with stateBits := p.stateBits &&& ~~~bitFinal }

section Reencode

variable {p : BfdPkt}

theorem exists_byte (x : UInt8) : ∃ f : Fin 256, x = UInt8.ofNat f.val := ⟨⟨x.toNat, x.toNat_lt⟩, by simp⟩

theorem hasBit_none {x : UInt8} (h₁ : hasBit x (bitAuth ||| bitDemand) = false)
    (h₂ : hasBit x bitMulti = false) (h₃ : hasBit x bitPoll = false) :
    hasBit x (bitAuth ||| bitDemand ||| bitMulti ||| bitPoll) = false := by
  have hall : ∀ f : Fin 256, hasBit (UInt8.ofNat f.val) (bitAuth ||| bitDemand) = false →
      hasBit (UInt8.ofNat f.val) bitMulti = false → hasBit (UInt8.ofNat f.val) bitPoll = false →
        hasBit (UInt8.ofNat f.val) (bitAuth ||| bitDemand ||| bitMulti ||| bitPoll) = false := by
    decide +kernel
  obtain ⟨f, rfl⟩ := exists_byte x
  exact hall f h₁ h₂ h₃

theorem versionDiag_pkt (h : pktVersion p = 1) :
    ((1 : UInt8) <<< (5 : UInt8)) ||| UInt8.ofNat (pktDiag p).val = p.versionDiag := by
  have hall : ∀ f : Fin 256, UInt8.ofNat f.val >>> 5 = 1 →
      ((1 : UInt8) <<< (5 : UInt8)) ||| UInt8.ofNat (Fin.ofNat 32 (UInt8.ofNat f.val &&& 0x1f).toNat).val =
        UInt8.ofNat f.val := by
    decide +kernel
  unfold pktVersion at h
  unfold pktDiag
  obtain ⟨f, hf⟩ := exists_byte p.versionDiag
  rw [hf] at h ⊢
  exact hall f h

theorem stateBits_pkt (h : hasBit (pktBits p) (bitAuth ||| bitDemand ||| bitMulti ||| bitPoll) = false) :
    ((pktState p).toUInt8 <<< (6 : UInt8)) &&& ~~~bitFinal |||
    (if hasBit (pktBits p) bitCpi then bitCpi else 0) =
      p.stateBits &&& ~~~bitFinal := by
  have hall : ∀ f : Fin 256, hasBit (UInt8.ofNat f.val &&& 0x3f)
    (bitAuth ||| bitDemand ||| bitMulti ||| bitPoll) = false →
      ((PktState.ofUInt8 (UInt8.ofNat f.val >>> 6)).toUInt8 <<< (6 : UInt8)) &&& ~~~bitFinal |||
        (if hasBit (UInt8.ofNat f.val &&& 0x3f) bitCpi then bitCpi else 0) = UInt8.ofNat f.val &&&
          ~~~bitFinal := by
    decide +kernel
  unfold pktBits at h ⊢
  unfold pktState
  obtain ⟨f, hf⟩ := exists_byte p.stateBits
  rw [hf] at h ⊢
  exact hall f h

theorem makePacket_pkt (hv : pktVersion p = 1) (hl : p.length = pktSize) (he : p.requiredEchoRx = ⟨0⟩)
    (hb : hasBit (pktBits p) (bitAuth ||| bitDemand ||| bitMulti ||| bitPoll) = false) {flags : UInt8}
    (hf : flags &&& ~~~bitFinal = if hasBit (pktBits p) bitCpi then bitCpi else 0) :
    (makePacket (ntoh32 p.myDisc) ⟨p.detectionMultiplier, ntoh32 p.desiredTx, ntoh32 p.requiredRx⟩
      ⟨pktState p, pktDiag p⟩ (ntoh32 p.yourDisc) flags).withoutFinal = p.withoutFinal := by
  have hstate : ((pktState p).toUInt8 <<< (6 : UInt8) ||| flags) &&& ~~~bitFinal = p.stateBits &&&
    ~~~bitFinal := by
    rw [byte_or_and, hf, stateBits_pkt hb]
  simp only [BfdPkt.withoutFinal, makePacket, hton32_ntoh32, versionDiag_pkt hv, hstate, ← hl, ← he]

theorem eq_of_withoutFinal {q : BfdPkt} (h : p.withoutFinal = q.withoutFinal)
    (hf : hasBit (pktBits p) bitFinal = hasBit (pktBits q) bitFinal) : p = q := by
  have hsplit : ∀ x : UInt8, x = (x &&& ~~~bitFinal) ||| if hasBit (x &&& 0x3f) bitFinal
    then bitFinal else 0 := by
    have hall : ∀ f : Fin 256, UInt8.ofNat f.val = (UInt8.ofNat f.val &&& ~~~bitFinal) |||
        if hasBit (UInt8.ofNat f.val &&& 0x3f) bitFinal then bitFinal else 0 := by
      decide +kernel
    intro x
    obtain ⟨f, rfl⟩ := exists_byte x
    exact hall f
  obtain ⟨_, x, _, _, _, _, _, _, _⟩ := p
  obtain ⟨_, y, _, _, _, _, _, _, _⟩ := q
  simp only [BfdPkt.withoutFinal, BfdPkt.mk.injEq] at h
  obtain ⟨rfl, hbits, rfl, rfl, rfl, rfl, rfl, rfl, rfl⟩ := h
  have hxy : x = y := by
    rw [hsplit x, hsplit y, hbits]
    simp only [pktBits] at hf
    rw [hf]
  rw [hxy]

end Reencode

end Bbdd.Packet
