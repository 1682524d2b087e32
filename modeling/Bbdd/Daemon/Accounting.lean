import Bbdd.Daemon.Replay
import Bbdd.Datapath.Loop

namespace Bbdd.Daemon

open Lib.Program Lib.Transition Packet Session Prog TxQueue Datapath

def charged (b : Bpf) : Nat := b.kernel.circ.length

def refusals (b : Bpf) : Nat := b.sends.countP (·.refused b.vethTxIfindex)

def mostCharged : Nat := int32Max / 2 / txSkbTrueSize

/-- The books of the transmit socket. Every call that failed is counted as
released but not as sent. -/
structure Books (b : Bpf) : Prop where
  bfd : ∀ skb ∈ b.kernel.circ, skb.isBfd = true
  balance : b.released + charged b = b.sent + refusals b
  room : charged b ≤ mostCharged + refusals b
  cap : b.txCapacity.toNat * txSkbTrueSize ≤ int32Max / 2

section

variable {b b' : Bpf} {c c' : Ctx} {w w' : World} {l : Label}

theorem charged_le_of_flows (h : Flows b.kernel b'.kernel) : charged b' ≤ charged b := by
  simpa [charged] using h.circ.length_le

theorem Books.flow (hb : Books b) (h : Flows b.kernel b'.kernel) (hs : b'.sends = b.sends)
    (hn : b'.sent = b.sent) (hv : b'.vethTxIfindex = b.vethTxIfindex)
    (hc : b'.txCapacity.toNat * txSkbTrueSize ≤ int32Max / 2) : Books b' := by
  have hr : refusals b' = refusals b := by rw [refusals, hs, hv, refusals]
  refine ⟨h.isBfd hb.bfd, ?_, ?_, hc⟩
  · rw [hn, hr, ← hb.balance]
    exact h.released hb.bfd
  · rw [hr]
    exact (charged_le_of_flows h).trans hb.room

theorem Books.idle (hb : Books b) (h : Idle b b') : Books b' :=
  hb.flow h.flow h.sends h.sent h.veth (by rw [h.cap]; exact hb.cap)

theorem Books.flight (hb : Books b) (h : b.released ≤ b.sent) : b.txPinned.toNat = b.sent - b.released := by
  have hbal := hb.balance
  have hroom := hb.room
  have hmost : mostCharged < 2 ^ 32 := by decide
  have hsub : UInt64.ofNat b.sent - UInt64.ofNat b.released = UInt64.ofNat (b.sent - b.released) := by
    rw [show b.sent = b.released + (b.sent - b.released) by
      omega, UInt64.ofNat_add, UInt64.add_comm, UInt64.add_sub_cancel]
    congr 1
    omega
  have hp : b.txPinned = (UInt64.ofNat (b.sent - b.released)).toUInt32 := congrArg UInt64.toUInt32 hsub
  rw [hp, UInt64.toNat_toUInt32, UInt64.toNat_ofNat']
  omega

theorem Books.pinned (hb : Books b) (h : refusals b = 0) : b.txPinned.toNat = charged b := by
  have hbal := hb.balance
  rw [hb.flight (by omega)]
  omega

theorem Books.charged_lt (hb : Books b) (hp : b.txPinned < b.txCapacity) :
    charged b < mostCharged + refusals b := by
  have hbal := hb.balance
  have hmost : 0 < mostCharged := by decide
  by_cases hle : b.released ≤ b.sent
  · have hlt := UInt32.lt_iff_toNat_lt.mp hp
    have hcap := hb.cap
    rw [hb.flight hle] at hlt
    simp only [mostCharged, txSkbTrueSize, int32Max] at hcap ⊢
    omega
  · omega

theorem Books.send (hb : Books b) (a : Answer) (veth : Veth) {skb : Skb} (hs : skb.isBfd = true)
    (hroom : veth = .tx → skb.final = false → charged b < mostCharged + refusals b) :
    Books (b.send a veth skb).2 := by
  have hfate := send_fate b a veth hs
  have hsends := send_sends b a veth skb
  obtain ⟨kernel, ds, sends, heq⟩ := send_eq b a veth skb
  generalize (b.send a veth skb).2 = b' at hfate hsends heq
  have hv : b'.vethTxIfindex = b.vethTxIfindex := by rw [heq]
  have hcap : b'.txCapacity.toNat * txSkbTrueSize ≤ int32Max / 2 := by rw [heq]; exact hb.cap
  have hcount : refusals b' = refusals b + if (b.call a veth skb).refused b.vethTxIfindex then 1 else 0 := by
    rw [refusals, hsends, hv, List.countP_cons, refusals]
  have hbal := hb.balance
  cases hfate with
  | joined skb' hveth hfin hr hcore hcirc hsent hrel =>
    rw [hr, if_neg (by simp), Nat.add_zero] at hcount
    have hlen : charged b' = charged b + 1 := by simp [charged, hcirc]
    refine ⟨fun s hm => ?_, by omega, ?_, hcap⟩
    · rw [hcirc] at hm
      obtain hm | hm := List.mem_append.mp hm
      · exact hb.bfd s hm
      · rw [List.mem_singleton.mp hm, ← skb'.core_isBfd, hcore]
        exact hs
    · rw [hlen, hcount]
      exact hroom hveth hfin
  | left hr hcirc hsent hrel =>
    rw [hr, if_neg (by simp), Nat.add_zero] at hcount
    have hlen : charged b' = charged b := by rw [charged, hcirc, charged]
    exact ⟨by rw [hcirc]; exact hb.bfd, by omega, by rw [hlen, hcount]; exact hb.room, hcap⟩
  | refused hr hcirc hsent hrel =>
    rw [hr, if_pos rfl] at hcount
    have hlen : charged b' = charged b := by rw [charged, hcirc, charged]
    exact ⟨by rw [hcirc]; exact hb.bfd, by omega, by have := hb.room; omega, hcap⟩

def Kept (c : Ctx) : Prop := Books c.bpf ∧ BfdPort c.dsess

theorem Kept.drift (hk : Kept c) (h : Drift c c') : Kept c' := ⟨hk.1.idle h.idle, h.dport hk.2⟩

theorem Kept.sends {veth : Veth} {flags : UInt8} (hk : Kept c) (h : Sends veth flags c c')
    (hroom : veth = .tx → hasBit flags bitFinal = false → charged c.bpf < mostCharged + refusals
      c.bpf) : Kept c' := by
  obtain ⟨a, bdata, -, rfl⟩ := h
  refine ⟨hk.1.send a veth (packet_isBfd hk.2 bdata flags) (fun hv hf => hroom hv ?_), hk.2⟩
  rw [← hf, Skb.final, Ctx.packet, injectSkb, final_makePacket]

theorem Kept.trail (hk : Kept c) (h : Trail c c') : Kept c' := by
  refine keeps_of_moves (fun c c' hs hk => ?_) h hk
  obtain hd | hs := hs
  · exact hk.drift hd
  · exact hk.sends hs (fun hv => by cases hv)

theorem Kept.turn (hk : Kept c) (h : Turn c c') : Kept c' := by
  cases h with
  | drift hd => exact hk.drift hd
  | capacity hf hs hn hv hc hd hb => exact ⟨hk.1.flow hf hs hn hv hc, hd ▸ hk.2⟩
  | inject veth flags hvf hd _ hs =>
    refine (hk.drift hd).sends hs (fun hv hf => ?_)
    obtain rfl | hf' := hvf
    · cases hv
    · rw [hf] at hf'
      cases hf'
  | @update c₁ c₂ inject hcap hd _ hs ht =>
    have hk₁ : Kept c₁ := Kept.drift (c := c.bumped) hk hd
    refine Kept.trail ?_ ht
    obtain rfl | ⟨hi, flags, -, hs⟩ := hs
    · exact hk₁
    · refine hk₁.sends hs (fun _ _ => ?_)
      have href : refusals c₁.bpf = refusals c.bpf := by
        simp only [refusals, hd.idle.sends, hd.idle.veth]
        rfl
      rw [href]
      exact (charged_le_of_flows hd.idle.flow).trans_lt (hk.1.charged_lt (hcap hi))

theorem Kept.moves {own : Option UInt32} (hk : Kept c) (h : Moves own c c') : Kept c' :=
  keeps_of_moves (fun _ _ hm hk => hk.turn hm.turn) h hk

theorem Shared.idle (h : Shared b b') : Idle b b' := by
  cases h with
  | ask => exact idle_ask b
  | output | disarm => exact { Idle.refl b with }
  | count => exact { Idle.refl b with sent := by simp [Bpf.sent, Bpf.bump] }
  | kernel ev => exact { Idle.refl b with flow := Kernel.step_flows _ _ ev }
  | pop ring => exact { Idle.refl b with flow := .of_eq rfl rfl rfl }

theorem Step.books (h : Step l w w') (hw : Sound w) (hb : Books w.bpf) : Books w'.bpf := by
  cases h with
  | shared hs => exact hb.idle hs.idle
  | handled hc hh =>
    have hk : Kept _ := ⟨(session_eq_some.mp hc).2.2 ▸ hb, (hw.session _ _ hc).dport⟩
    exact (hk.moves (hw.handled hc hh).moves).1
  | @create _ d dsess n c' sports hn hbn _ hr =>
    have hk : Kept (w.fresh d dsess) := ⟨hb, hbn.dport⟩
    exact (hk.moves (hw.added hr).1).1
  | @refuse _ d dsess n e c' hn hbn hr =>
    have hk : Kept (w.fresh d dsess) := ⟨hb, hbn.dport⟩
    exact (hk.moves (hw.added hr).1).1
  | remove hc hr =>
    have hk : Kept _ := ⟨(session_eq_some.mp hc).2.2 ▸ hb, (hw.session _ _ hc).dport⟩
    exact (hk.moves (hw.deleted hc hr).1).1

theorem reachable_books (h : Reachable daemon w) : Books w.bpf := by
  refine Run.invariant (I := fun w => Books w.bpf) ?_ (fun w l w' hr hb _ hs => ?_) h
  · rintro s ⟨rx, tx, cap, answers, hcap, rfl⟩
    exact ⟨by simp [World.start, Kernel.empty], rfl, Nat.zero_le _, hcap⟩
  · refine step_keeps (I := fun w => Books w.bpf) (fun _ _ _ hw hs hb => hs.books hw hb)
      (reachable_sound hr) hs ?_
    exact hb.idle { Idle.refl w.bpf with }

end

/-- What the counters are for: they differ by the packets charged to the
socket, and so tell whether there is room for another. -/
structure Balanced (b : Bpf) : Prop where
  sent : b.sent = b.released + charged b
  pinned : b.txPinned.toNat = charged b
  capacity : b.txPinned < b.txCapacity ↔ charged b < b.txCapacity.toNat

/-- The counters are right exactly as long as no call of sendmsg has failed:
the program counts such a packet as released although it never was counted
as sent. -/
theorem balanced_iff {w : World} (hw : Reachable daemon w) :
    Balanced w.bpf ↔ ∀ s ∈ w.bpf.sends, s.refused w.bpf.vethTxIfindex = false := by
  have hb := reachable_books hw
  have hzero : refusals w.bpf = 0 ↔ ∀ s ∈ w.bpf.sends, s.refused w.bpf.vethTxIfindex = false := by
    simp [refusals, List.countP_eq_zero]
  rw [← hzero]
  constructor
  · intro h
    have := hb.balance
    have := h.sent
    omega
  · intro h
    have hp := hb.pinned h
    have hbal := hb.balance
    refine ⟨by omega, hp, ?_⟩
    rw [UInt32.lt_iff_toNat_lt, hp]

theorem balanced_up : ∃ w, Reachable daemon w ∧ w.bpf.sent = 6 ∧ charged w.bpf = 1 ∧ Balanced w.bpf := by
  obtain ⟨w, c, hw, -, hs, hc, hr⟩ := exists_replayed (inPlain settledUp)
    (P := fun w _ => w.bpf.sent = 6 ∧ charged w.bpf = 1 ∧ ∀ s ∈ w.bpf.sends,
      s.refused w.bpf.vethTxIfindex = false)
    (by decide +kernel)
  exact ⟨w, hw, hs, hc, (balanced_iff hw).mpr hr⟩

def Env.unrouted : Env := ⟨.plain, fun _ => { obliging with tx := { routed with fib := .unreachable } }⟩

/-- The peer polls twice while there is no route back to it. Neither Final is
sent, both are counted as released, and the difference of the counters wraps:
the socket has one packet of two, and seems to be full for good. -/
theorem unbalanced_unrouted : ∃ w, Reachable daemon w ∧ ¬ Balanced w.bpf ∧ w.bpf.sent < w.bpf.released ∧
    ¬ w.bpf.txPinned < w.bpf.txCapacity ∧ charged w.bpf < w.bpf.txCapacity.toNat := by
  obtain ⟨w, c, hw, -, hs, hp, hc⟩ := exists_replayed
    (inPlain settledUp ++
      (arrival (peerPacket .up bitPoll) ++ arrival (peerPacket .up bitPoll)).map (Env.unrouted, ·))
    (P := fun w _ => w.bpf.sent < w.bpf.released ∧ ¬ w.bpf.txPinned < w.bpf.txCapacity ∧
      charged w.bpf < w.bpf.txCapacity.toNat)
    (by decide +kernel)
  exact ⟨w, hw, fun h => hp (h.capacity.mpr hc), hs, hp, hc⟩

end Bbdd.Daemon
