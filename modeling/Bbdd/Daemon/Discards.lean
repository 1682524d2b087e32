import Bbdd.Daemon.Coherence
import Bbdd.Daemon.FastPath
import Bbdd.Daemon.Handshake

namespace Bbdd.Daemon

open Lib.Program Lib.Directory Lib.Transition Packet Session Prog Datapath Poll

def clock (e : SessionEntry) : Option UInt64 × Bool := (e.timer, e.timerInitd)

def uncounted (s : BSession) : BSession := { s with stats := fun _ => 0, diagStats := fun _ => 0 }

/-- Nothing but counters differs, and perhaps what waits in the ring buffer
and the detection timers. -/
structure Unaffected (w w' : World) : Prop where
  dsess : ∀ d, w'.sdir.find d = w.sdir.find d
  bsess : ∀ d, (w'.bsdir.find d).map uncounted = (w.bsdir.find d).map uncounted
  config : w'.bpf.kernel.config = w.bpf.kernel.config
  circ : w'.bpf.kernel.circ = w.bpf.kernel.circ
  tx : w'.bpf.tx = w.bpf.tx
  timers : w'.bpf.timers = w.bpf.timers
  sends : w'.bpf.sends = w.bpf.sends

def carried : RbElem → Option (BfdPkt × UInt8)
  | .rxDiscr0 _ _ _ ttl _ _ _ packet | .rxUnxPkt _ ttl packet => some (packet, ttl)
  | .txNoNeigh _ _ _ | .rxTimeout _ => none

def handedOn (frame : RxFrame) (packet : BfdPkt) : RbElem :=
  if ntoh32 packet.yourDisc = 0 then
    .rxDiscr0 frame.ingressIfindex frame.wireLen frame.protocol frame.ttl
      (frame.udpDest = bfdMultiHopPort) frame.saddr
      frame.daddr packet
  else .rxUnxPkt frame.wireLen frame.ttl packet

/-- The session a packet is for: the one with its discriminator, or without one
the only one that its addresses fit. -/
def recipient (nl : Nl) (w : World) : RbElem → Option UInt32
  | .rxUnxPkt _ _ packet => (w.sdir.find (ntoh32 packet.yourDisc)).map (·.localData.discr)
  | .rxDiscr0 ifindex _ ethtype ttl multihop saddr daddr packet =>
    match discr0Digest nl ifindex ethtype ttl multihop saddr daddr packet with
    | .error _ => none
    | .ok digest =>
      match matchSession w digest with
      | [s] => some s.localData.discr
      | _ => none
  | .txNoNeigh _ _ _ | .rxTimeout _ => none

/-- The rules by which a packet is to be discarded. -/
inductive Rejected (w : World) (dest : Option UInt32) (packet : BfdPkt) (ttl : UInt8) : Prop
  | version : pktVersion packet ≠ 1 → Rejected w dest packet ttl
  | length : packet.length ≠ pktSize → Rejected w dest packet ttl
  | nobody : dest = none → Rejected w dest packet ttl
  | held {d bsess} : dest = some d → w.bsdir.find d = some bsess → bsess.bstate = .onHold ∨
      bsess.bstate = .shuttingDown →
      Rejected w dest packet ttl
  | adminDown {d dsess} : dest = some d → w.sdir.find d = some dsess → dsess.localData.state.state = .adminDown →
      Rejected w dest packet ttl
  | lowTtl {d dsess} : dest = some d → w.sdir.find d = some dsess → dsess.ttl > ttl → Rejected w dest packet ttl
  | echo : ntoh32 packet.requiredEchoRx ≠ 0 → Rejected w dest packet ttl
  | bits : hasBit (pktBits packet) (bitAuth ||| bitDemand) = true ∨ hasBit (pktBits packet) bitMulti = true →
      Rejected w dest packet ttl
  | mult : packet.detectionMultiplier = 0 → Rejected w dest packet ttl
  | myDisc : ntoh32 packet.myDisc = 0 → Rejected w dest packet ttl
  | yourDisc : ntoh32 packet.yourDisc = 0 → pktState packet = .init ∨ pktState packet = .up →
      Rejected w dest packet ttl

/-- An entry that has the detection timer run is the one an update of its
session would store. -/
def Current (w : World) (d : UInt32) : Prop :=
  ∀ config, w.bpf.kernel.config d = some config → config.rearmTimer = true →
    ∃ c, w.session d = some c ∧ c.wanted = some config

section

variable {w w' : World} {k : Kernel} {d : UInt32} {packet : BfdPkt} {ttl : UInt8} {frame : RxFrame}

theorem Unaffected.trans {w'' : World} (h : Unaffected w w') (k : Unaffected w' w'') :
    Unaffected w w'' where
  dsess := fun d => (k.dsess d).trans (h.dsess d)
  bsess := fun d => (k.bsess d).trans (h.bsess d)
  config := k.config.trans h.config
  circ := k.circ.trans h.circ
  tx := k.tx.trans h.tx
  timers := k.timers.trans h.timers
  sends := k.sends.trans h.sends

theorem notify_data (k : Kernel) (reserve : Bool) (elem : RbElem) :
    (k.notify reserve elem).data = k.data := by
  unfold Kernel.notify
  split <;> rfl

theorem parsePacket_none {remote : SessionData}
    (h : (ntoh32 packet.requiredEchoRx ≠ 0 ∨ hasBit (pktBits packet) (bitAuth ||| bitDemand) = true) ∨
      hasBit (pktBits packet) bitMulti = true ∨ packet.detectionMultiplier = 0 ∨ ntoh32 packet.myDisc = 0 ∨
      (ntoh32 packet.yourDisc = 0 ∧ pktState packet ≠ .adminDown ∧ pktState packet ≠ .down)) :
    (parsePacket packet remote).toOption = none := by
  unfold parsePacket
  dsimp only
  split_ifs with h₁ h₂ h₃ h₄ h₅
  · rfl
  · rfl
  · rfl
  · rfl
  · rfl
  · exact (h.elim h₁ (·.elim h₂ (·.elim h₃ (·.elim h₄ h₅)))).elim

theorem Rejected.untaken (h : Rejected w (some d) packet ttl) (hv : pktVersion packet = 1)
    (hl : packet.length = pktSize) {c : Ctx} (hd : w.sdir.find d = some c.dsess)
    (hb : w.bsdir.find d = some c.bsess) : taken c packet ttl = none := by
  unfold taken
  split_ifs with h₁ h₂ h₃
  · rfl
  · rfl
  · rfl
  · cases h with
    | version hne => exact absurd hv hne
    | length hne => exact absurd hl hne
    | nobody hn => cases hn
    | held ht hb' hs =>
      cases ht
      cases hb.symm.trans hb'
      exact absurd hs h₁
    | adminDown ht hd' ha =>
      cases ht
      cases hd.symm.trans hd'
      exact absurd ha h₂
    | lowTtl ht hd' hlow =>
      cases ht
      cases hd.symm.trans hd'
      exact absurd hlow h₃
    | echo he => exact parsePacket_none (.inl (.inl he))
    | bits hb' => exact parsePacket_none (hb'.elim (fun ha => .inl (.inr ha)) (fun hm => .inr (.inl hm)))
    | mult hm => exact parsePacket_none (.inr (.inr (.inl hm)))
    | myDisc hm => exact parsePacket_none (.inr (.inr (.inr (.inl hm))))
    | yourDisc hy hst =>
      refine parsePacket_none (.inr (.inr (.inr (.inr ⟨hy, ?_⟩))))
      obtain hst | hst := hst <;> rw [hst] <;> exact ⟨nofun, nofun⟩

theorem Unaffected.of_bpf {b : Bpf} (hcfg : b.kernel.config = w.bpf.kernel.config)
    (hcirc : b.kernel.circ = w.bpf.kernel.circ) (htx : b.tx = w.bpf.tx)
    (ht : b.timers = w.bpf.timers) (hs : b.sends = w.bpf.sends) : Unaffected w (w.setBpf b) :=
  ⟨fun _ => rfl, fun _ => rfl, hcfg, hcirc, htx, ht, hs⟩

theorem Rejected.setBpf {dest : Option UInt32} (h : Rejected w dest packet ttl) (b : Bpf) :
    Rejected (w.setBpf b) dest packet ttl := by
  cases h with
  | version h => exact .version h
  | length h => exact .length h
  | nobody h => exact .nobody h
  | held ht hb h => exact .held ht hb h
  | adminDown ht hd h => exact .adminDown ht hd h
  | lowTtl ht hd h => exact .lowTtl ht hd h
  | echo h => exact .echo h
  | bits h => exact .bits h
  | mult h => exact .mult h
  | myDisc h => exact .myDisc h
  | yourDisc h hs => exact .yourDisc h hs

theorem taken_expected {c : Ctx} (hs : Sane (view c)) (hl : c.dsess.localData.discr ≠ 0)
    (hr : c.dsess.remoteData.discr ≠ 0) (hb : c.bsess.bstate ≠ .onHold)
    (ha : c.dsess.localData.state.state ≠ .adminDown) (hlow : ¬ c.dsess.ttl > ttl) :
    (taken c (expectedPacket c.dsess c.bsess) ttl).isSome = true := by
  have hb' : ¬ (c.bsess.bstate = .onHold ∨ c.bsess.bstate = .shuttingDown) := by
    rintro (h | h)
    · exact hb h
    · exact ha (hs.course.shutting h).1
  simp only [taken, if_neg hb', if_neg ha, if_neg hlow, parse_expected c.bsess hr hl hs.remMult]
  rfl

end

end Bbdd.Daemon
