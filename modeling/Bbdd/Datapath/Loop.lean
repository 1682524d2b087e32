import Bbdd.Datapath.Queue
import Bbdd.Prog.Loop

namespace Bbdd.Datapath

open Lib.Program Packet Session Prog TxQueue

def Send.refused (vethTxIfindex : UInt32) (s : Send) : Bool :=
  match s.veth with
  | .tx => refusedTx vethTxIfindex s.tx s.skb s.config s.hasData
  | .rx => !(s.config.isSome && s.hasData)

def Bpf.call (b : Bpf) (a : Answer) (veth : Veth) (skb : Skb) : Send :=
  ⟨veth, skb, b.kernel.config skb.discr, (b.kernel.data skb.discr).isSome, a.tx⟩

def Bpf.sent (b : Bpf) : Nat := b.diagStats .skSentCount

def Bpf.released (b : Bpf) : Nat := b.kernel.diagStats .skReleasedCount

/-- What became of a packet that was handed to the socket: it joined the loop,
it was let through and is gone, or it was refused. -/
inductive Fate (b : Bpf) (s : Send) (b' : Bpf) : Prop
  | joined (skb : Skb) : s.veth = .tx → s.skb.final = false → s.refused b.vethTxIfindex = false →
      skb.core = s.skb.core → b'.kernel.circ = b.kernel.circ ++ [skb] → b'.sent = b.sent + 1 →
      b'.released = b.released → Fate b s b'
  | left : s.refused b.vethTxIfindex = false → b'.kernel.circ = b.kernel.circ → b'.sent = b.sent + 1 →
      b'.released = b.released + 1 → Fate b s b'
  | refused : s.refused b.vethTxIfindex = true → b'.kernel.circ = b.kernel.circ → b'.sent = b.sent →
      b'.released = b.released + 1 → Fate b s b'

theorem send_sends (b : Bpf) (a : Answer) (veth : Veth) (skb : Skb) :
    (b.send a veth skb).2.sends = b.call a veth skb :: b.sends := by
  unfold Bpf.send
  split <;> rfl

theorem egress_shot (b : Bpf) (a : Answer) (veth : Veth) {skb : Skb} (hb : skb.isBfd = true) :
    (egress b a veth skb).1 = .shot ↔ (b.call a veth skb).refused b.vethTxIfindex = true := by
  cases veth with
  | tx => exact (xmitVethTx_run b.vethTxIfindex a.tx b.kernel hb).shot
  | rx =>
    obtain ⟨-, -, -, -, hshot⟩ := xmitVethRxXmit_run a.timer b.kernel hb
    exact hshot.trans (iff_of_eq (Bool.not_eq_true' _)).symm

theorem send_fate (b : Bpf) (a : Answer) (veth : Veth) {skb : Skb} (hb : skb.isBfd = true) :
    Fate b (b.call a veth skb) (b.send a veth skb).2 := by
  have hshot := egress_shot b a veth hb
  cases veth with
  | tx =>
    have hr := xmitVethTx_run b.vethTxIfindex a.tx b.kernel hb
    simp only [Bpf.send, egress] at hshot ⊢
    generalize xmitVethTx b.vethTxIfindex a.tx skb b.kernel = r at hr hshot
    obtain ⟨act, skb', k⟩ := r
    have hrel := hr.released
    cases act with
    | shot => exact .refused (hshot.mp rfl) hr.circ rfl hrel
    | ok =>
      refine .joined skb' rfl (hr.ok.mp rfl).2
        (Bool.eq_false_iff.mpr (fun h => by simpa using hshot.mpr h)) hr.core ?_ ?_ hrel
      · exact congrArg (· ++ [skb']) hr.circ
      · simp [Bpf.sent, Bpf.bump]
    | stolen | redirect =>
      exact .left (Bool.eq_false_iff.mpr (fun h => by simpa using hshot.mpr h)) hr.circ
        (by simp [Bpf.sent, Bpf.bump]) hrel
  | rx =>
    obtain ⟨hok, hcirc, hwire, hrel, -⟩ := xmitVethRxXmit_run a.timer b.kernel hb
    simp only [Bpf.send, egress] at hshot ⊢
    generalize xmitVethRxXmit a.timer skb b.kernel = r at hok hcirc hrel hshot
    obtain ⟨act, skb', k⟩ := r
    cases act with
    | shot => exact .refused (hshot.mp rfl) hcirc rfl hrel
    | ok => exact absurd rfl hok
    | stolen | redirect =>
      exact .left (Bool.eq_false_iff.mpr (fun h => by simpa using hshot.mpr h)) hcirc
        (by simp [Bpf.sent, Bpf.bump]) hrel

theorem send_sent (b : Bpf) (a : Answer) (veth : Veth) {skb : Skb} (hb : skb.isBfd = true) :
    (b.send a veth skb).1 = !(b.call a veth skb).refused b.vethTxIfindex := by
  have hshot := egress_shot b a veth hb
  unfold Bpf.send
  generalize egress b a veth skb = r at hshot
  obtain ⟨act, skb', k⟩ := r
  cases hr : (b.call a veth skb).refused b.vethTxIfindex <;> simp only [hr] at hshot <;> cases act <;> simp_all

theorem send_wire (b : Bpf) (a : Answer) (veth : Veth) {skb : Skb} (hb : skb.isBfd = true) :
    (b.send a veth skb).2.kernel.wire = b.kernel.wire ∨
      veth = .tx ∧ ∃ ifindex, (b.send a veth skb).2.kernel.wire = (ifindex, skb.bfd) :: b.kernel.wire := by
  cases veth with
  | tx =>
    have hr := (xmitVethTx_run b.vethTxIfindex a.tx b.kernel hb).wire
    simp only [Bpf.send, egress]
    generalize xmitVethTx b.vethTxIfindex a.tx skb b.kernel = r at hr
    obtain ⟨act, skb', k⟩ := r
    cases act <;> exact hr.imp_right (fun h => ⟨trivial, h⟩)
  | rx =>
    obtain ⟨-, -, hwire, -, -⟩ := xmitVethRxXmit_run a.timer b.kernel hb
    simp only [Bpf.send, egress]
    generalize xmitVethRxXmit a.timer skb b.kernel = r at hwire
    obtain ⟨act, skb', k⟩ := r
    cases act <;> exact .inl hwire

/-- Nothing is sent; the loop only flows. -/
structure Idle (b b' : Bpf) : Prop where
  flow : Flows b.kernel b'.kernel
  sends : b'.sends = b.sends
  sent : b'.sent = b.sent
  veth : b'.vethTxIfindex = b.vethTxIfindex
  cap : b'.txCapacity = b.txCapacity

theorem Idle.refl (b : Bpf) : Idle b b := ⟨.refl _, rfl, rfl, rfl, rfl⟩

theorem Idle.trans {a b c : Bpf} (h : Idle a b) (k : Idle b c) : Idle a c :=
  ⟨h.flow.trans k.flow, k.sends.trans h.sends, k.sent.trans h.sent, k.veth.trans h.veth, k.cap.trans h.cap⟩

theorem idle_ask (b : Bpf) : Idle b b.ask.2 := ⟨Kernel.steps_flows _ _ _, rfl, rfl, rfl, rfl⟩

/-- The session neither sends nor gets a new mark. -/
structure Drift (c c' : Ctx) : Prop where
  idle : Idle c.bpf c'.bpf
  genId : c'.bsess.genId = c.bsess.genId
  genBumps : c'.bsess.genBumps = c.bsess.genBumps
  discr : c'.dsess.localData.discr = c.dsess.localData.discr
  dport : BfdPort c.dsess → BfdPort c'.dsess

theorem Drift.refl (c : Ctx) : Drift c c := ⟨.refl _, rfl, rfl, rfl, id⟩

theorem Drift.trans {a b c : Ctx} (h : Drift a b) (k : Drift b c) : Drift a c :=
  ⟨h.idle.trans k.idle, k.genId.trans h.genId, k.genBumps.trans h.genBumps, k.discr.trans h.discr,
    k.dport ∘ h.dport⟩

instance : Std.Refl Drift := ⟨Drift.refl⟩

instance : IsTrans Ctx Drift := ⟨fun _ _ _ => Drift.trans⟩

theorem drift_ask : Within Drift ask := by
  intro c a c' h
  cases h
  exact ⟨idle_ask _, rfl, rfl, rfl, id⟩

theorem Timed.drift {c c' : Ctx} (h : Timed c c') : Drift c c' := by
  obtain ⟨hd, ⟨s, o, hb⟩, ⟨evs, t, n, tk, out, ar, hp⟩⟩ := h
  refine ⟨⟨?_, ?_, ?_, ?_, ?_⟩, by rw [hb], by rw [hb], by rw [hd], by rw [hd]; exact id⟩ <;> rw [hp]
  · exact Kernel.steps_flows _ _ _
  · rfl

theorem sessionConfUpdate_eq {c c' : Ctx} {args : ConfArgs} {r : Except String Unit}
    (h : sessionConfUpdate args c = .ok (r, c')) :
    (r.isOk = false ∧ (c' = c ∧ (∃ e, confAddrs c.dsess = .error e) ∨
      c' = { c with bpf := c.bpf.ask.2 } ∧ c.bpf.ask.1.mapUpdate = false)) ∨
    r.isOk = true ∧ ∃ addrs, confAddrs c.dsess = .ok addrs ∧ c' = { c with bpf := { c.bpf.ask.2 with
      kernel := c.bpf.ask.2.kernel.setConfig c.dsess.localData.discr
        (some (confEntry c.dsess c.bsess args addrs)) } } := by
  have h := read_ok.mp h
  cases haddr : confAddrs c.dsess with
  | error e =>
    simp only [haddr] at h
    obtain ⟨rfl, rfl⟩ := pure_ok.mp h
    exact .inl ⟨rfl, .inl ⟨rfl, e, rfl⟩⟩
  | ok addrs =>
    simp only [haddr] at h
    obtain ⟨a, c₁, ha, h⟩ := bind_ok.mp h
    cases ha
    split at h
    · rename_i hm
      obtain ⟨rfl, rfl⟩ := pure_ok.mp h
      exact .inl ⟨rfl, .inr ⟨rfl, by simpa using hm⟩⟩
    · obtain ⟨_, _, hu, h⟩ := bind_ok.mp h
      cases hu
      obtain ⟨rfl, rfl⟩ := pure_ok.mp h
      exact .inr ⟨rfl, addrs, rfl, rfl⟩

theorem drift_sessionConfUpdate (args : ConfArgs) : Within Drift (sessionConfUpdate args) := by
  intro c r c' h
  obtain ⟨-, ⟨rfl, -⟩ | ⟨rfl, -⟩⟩ | ⟨-, addrs, -, rfl⟩ := sessionConfUpdate_eq h
  · exact .refl _
  · exact ⟨idle_ask _, rfl, rfl, rfl, id⟩
  · exact ⟨(idle_ask _).trans ⟨.of_eq rfl rfl rfl, rfl, rfl, rfl, rfl⟩, rfl, rfl, rfl, id⟩

def Ctx.packet (c : Ctx) (bdata : BData) (flags : UInt8) : Skb :=
  injectSkb c.dsess c.bsess.genId
    (makePacket c.dsess.localData.discr bdata.timing c.dsess.localData.state c.dsess.remoteData.discr flags)

def Sends (veth : Veth) (flags : UInt8) (c c' : Ctx) : Prop :=
  ∃ a bdata, injectBdata c.bsess = some bdata ∧
    c' = { c with bpf := (c.bpf.send a veth (c.packet bdata flags)).2 }

theorem packet_isBfd {c : Ctx} (h : BfdPort c.dsess) (bdata : BData) (flags : UInt8) :
    (c.packet bdata flags).isBfd = true := by
  refine isBfd_of_headers ?_ rfl h
  simp only [Ctx.packet, injectSkb]
  split
  · exact .inl rfl
  · exact .inr rfl

@[simp] theorem packet_discr (c : Ctx) (bdata : BData) (flags : UInt8) :
    (c.packet bdata flags).discr = c.dsess.localData.discr := by
  simp [Skb.discr, Ctx.packet, injectSkb, makePacket]

theorem sessionSend_eq {c c' : Ctx} {veth : Veth} {skb : Skb} {r : Except String Unit}
    (h : sessionSend veth skb c = .ok (r, c')) :
    c' = { c with bpf := (c.bpf.ask.2.send c.bpf.ask.1 veth skb).2 } ∧
      r.isOk = (c.bpf.ask.2.send c.bpf.ask.1 veth skb).1 := by
  obtain ⟨a, c₁, ha, h⟩ := bind_ok.mp h
  cases ha
  have h := read_ok.mp h
  obtain ⟨_, _, hu, h⟩ := bind_ok.mp h
  have hend : ∀ (b : Bool) (e : String) {s t : Ctx},
      (if b = true then pure (.ok ()) else pure (.error e) : Act (Except String Unit)) s = .ok
        (r, t) → t = s ∧ r.isOk = b := by
    intro b e s t hs
    cases b <;> obtain ⟨rfl, rfl⟩ := pure_ok.mp hs <;> exact ⟨rfl, rfl⟩
  obtain ⟨rfl, hok⟩ := hend _ _ h
  cases hu
  exact ⟨rfl, hok⟩

def Ctx.handed (c : Ctx) (veth : Veth) : Ctx := { c with bpf := c.bpf.handoff veth c.dsess c.bsess.bstate }

@[simp] theorem handed_kernel (c : Ctx) (veth : Veth) : (c.handed veth).bpf.kernel = c.bpf.kernel :=
  by cases veth <;> rfl

theorem handed_drift (c : Ctx) (veth : Veth) : Drift c (c.handed veth) := by
  cases veth
  · exact .refl c
  · exact { Drift.refl c with idle := { Idle.refl c.bpf with } }

theorem sessionInjectPkt_eq {c c' : Ctx} {veth : Veth} {flags : UInt8} {r : Except String Unit}
    (h : sessionInjectPkt veth flags c = .ok (r, c')) : ∃ bdata, injectBdata c.bsess = some bdata ∧
      c' = { c with bpf :=
        ((c.handed veth).bpf.ask.2.send (c.handed veth).bpf.ask.1 veth (c.packet bdata flags)).2 } ∧
      r.isOk = ((c.handed veth).bpf.ask.2.send (c.handed veth).bpf.ask.1 veth (c.packet bdata flags)).1 := by
  have h := read_ok.mp h
  cases hb : injectBdata c.bsess with
  | none => simp only [hb] at h; cases h
  | some bdata =>
    simp only [hb] at h
    split at h
    · cases h
    · obtain ⟨_, _, hu, h⟩ := bind_ok.mp h
      cases hu
      exact ⟨bdata, rfl, (sessionSend_eq h :)⟩

theorem sessionInjectPkt_ok {c c' : Ctx} {veth : Veth} {flags : UInt8} {r : Except String Unit}
    (h : sessionInjectPkt veth flags c = .ok (r, c')) :
    ∃ c₁, Drift c c₁ ∧ Injected c c₁ ∧ Sends veth flags c₁ c' := by
  obtain ⟨bdata, hb, hc, -⟩ := sessionInjectPkt_eq h
  have hi : Injected c (c.handed veth) := injected_handoff veth c.dsess c.bsess.bstate c () _ rfl
  exact ⟨{ c with bpf := (c.handed veth).bpf.ask.2 }, (handed_drift c veth).trans
    (drift_ask (c.handed veth) _ _ rfl),
    hi.trans (injected_ask (c.handed veth) _ _ rfl), (c.handed veth).bpf.ask.1, bdata, hb, hc⟩

/-- Drifting, with the detection timer restarted now and then. -/
abbrev Trail : Ctx → Ctx → Prop := Relation.ReflTransGen fun c c' => Drift c c' ∨ Sends .rx 0 c c'

theorem trail_of_drift {α : Type} {p : Act α} (h : Within Drift p) : Within Trail p :=
  h.mono (fun _ _ hd => .single (.inl hd))

theorem trail_injectRearmPacket : Within Trail injectRearmPacket := by
  intro c r c' h
  obtain ⟨c₁, hd, -, hs⟩ := sessionInjectPkt_ok h
  exact .tail (.single (.inl hd)) (.inr hs)

theorem drift_timerPeriod (us : UInt32) :
    Within Drift (onBsess (fun s => { s with timerPeriodUs := us })) :=
  within_update (fun c => { Drift.refl c with })

theorem trail_updateRearm (us : UInt32) : Within Trail (updateRearm us) :=
  updateRearm_within trail_injectRearmPacket (fun _ => trail_of_drift (drift_timerPeriod _)) us

def Ctx.bumped (c : Ctx) : Ctx :=
  { c with bsess := { c.bsess with genId := c.bsess.genId + 1, genBumps := c.bsess.genBumps + 1 } }

theorem updateNow_marked {c c' : Ctx} {inject : Bool} {r : Except String Unit}
    (h : updateNow inject c = .ok (r, c')) :
    ∃ us, sessionDetectTimeUs c.bsess.effData c.dsess.remoteData = some us ∧
      attempt (sessionConfUpdate (updateArgs c.bpf c.dsess c.bumped.bsess us))
        (fun _ => attempt (updateInject inject) (fun _ => updateRearm us)) c.bumped = .ok (r, c') := by
  obtain ⟨_, _, hu, h⟩ := bind_ok.mp h
  cases hu
  have h := read_ok.mp h
  cases hus : sessionDetectTimeUs c.bsess.effData c.dsess.remoteData with
  | none =>
    simp only [hus] at h
    cases h
  | some us =>
    simp only [hus] at h
    exact ⟨us, rfl, h⟩

theorem updateNow_ok {c c' : Ctx} {inject : Bool} {r : Except String Unit}
    (h : updateNow inject c = .ok (r, c')) :
    ∃ c₁ c₂, Drift c.bumped c₁ ∧ Injected c.bumped c₁ ∧
      (c₂ = c₁ ∨ inject = true ∧ ∃ flags, injectBfdFlags c.dsess c.bsess = some flags ∧ Sends .tx flags c₁ c₂) ∧
      Trail c₂ c' := by
  obtain ⟨us, -, h⟩ := updateNow_marked h
  obtain ⟨r₁, c₁, h₁, h⟩ := bind_ok.mp h
  have hd₁ := drift_sessionConfUpdate _ _ _ _ h₁
  have hi₁ := injected_sessionConfUpdate _ _ _ _ h₁
  cases r₁ with
  | error e =>
    obtain ⟨-, rfl⟩ := pure_ok.mp h
    exact ⟨c₁, c₁, hd₁, hi₁, .inl rfl, .refl⟩
  | ok _ =>
    obtain ⟨r₂, c₂, h₂, h⟩ := bind_ok.mp h
    have htrail : Trail c₂ c' := by
      cases r₂ with
      | error e => obtain ⟨-, rfl⟩ := pure_ok.mp h; exact .refl
      | ok _ => exact trail_updateRearm _ _ _ _ h
    cases inject with
    | false =>
      obtain ⟨-, rfl⟩ := pure_ok.mp h₂
      exact ⟨c₁, c₁, hd₁, hi₁, .inl rfl, htrail⟩
    | true =>
      obtain ⟨_, _, hr, h₂⟩ := bind_ok.mp h₂
      cases hr
      have hds := hi₁.dsess
      obtain ⟨g, n, us', hbs⟩ := hi₁.bsess
      have hfl : injectBfdFlags c₁.dsess c₁.bsess = injectBfdFlags c.dsess c.bsess := by rw [hds, hbs]; rfl
      cases hf : injectBfdFlags c.dsess c.bsess with
      | none => simp only [hfl, hf] at h₂; cases h₂
      | some flags =>
        simp only [hfl, hf] at h₂
        obtain ⟨c₃, hd₃, hi₃, hs⟩ := sessionInjectPkt_ok h₂
        exact ⟨c₃, c₂, hd₁.trans hd₃, hi₁.trans hi₃, .inr ⟨rfl, flags, rfl, hs⟩, htrail⟩

/-- What a move is to the loop. -/
inductive Turn (c c' : Ctx) : Prop
  | drift : Drift c c' → Turn c c'
  | capacity : Flows c.bpf.kernel c'.bpf.kernel → c'.bpf.sends = c.bpf.sends → c'.bpf.sent = c.bpf.sent →
      c'.bpf.vethTxIfindex = c.bpf.vethTxIfindex → c'.bpf.txCapacity.toNat * txSkbTrueSize ≤ int32Max / 2 →
      c'.dsess = c.dsess → c'.bsess = c.bsess → Turn c c'
  | inject {c₁} (veth flags) : veth = .rx ∨ hasBit flags bitFinal = true → Drift c c₁ → Injected c c₁ →
      Sends veth flags c₁ c' → Turn c c'
  | update {c₁ c₂} (inject) : (inject = true → c.bpf.txPinned < c.bpf.txCapacity) → Drift c.bumped c₁ →
      Injected c.bumped c₁ →
      (c₂ = c₁ ∨ inject = true ∧ ∃ flags, injectBfdFlags c.dsess c.bsess = some flags ∧ Sends .tx flags c₁ c₂) →
      Trail c₂ c' → Turn c c'

theorem unlinked_drift (c : Ctx) (kind : SlotKind) : Drift c (c.unlinked kind) := by
  cases kind <;> exact { Drift.refl c with idle := { Idle.refl c.bpf with } }

theorem Move.turn {own : Option UInt32} {c c' : Ctx} (h : Move own c c') : Turn c c' := by
  cases h with
  | ask h => exact .drift (drift_ask _ _ _ h)
  | output | fired => exact .drift { Drift.refl c with idle := { Idle.refl c.bpf with } }
  | dequeued =>
    exact .drift { Drift.refl c with idle := { Idle.refl c.bpf with sent := by simp [Bpf.sent, Bpf.bump] } }
  | maps => exact .drift { Drift.refl c with idle := { Idle.refl c.bpf with flow := .of_eq rfl rfl rfl } }
  | capacity cap hc => exact .capacity (.refl _) rfl rfl rfl hc rfl rfl
  | shwaitStop h => exact .drift (timed_shwaitStop _ _ _ h).drift
  | shwaitStart h => exact .drift (timed_shwaitStart _ _ _ h).drift
  | holdStop h => exact .drift (timed_holdStop _ _ _ h).drift
  | holdStart h => exact .drift (timed_holdStart _ _ _ h).drift
  | write h => exact .drift ⟨by rw [h.bpf]; exact .refl _, h.genId, h.genBumps, h.discr, h.dport⟩
  | unlink kind h =>
    rw [txUnlink_ok h]
    exact .drift (unlinked_drift c kind)
  | enqueue kind flags hf h =>
    rw [hf] at h
    obtain ⟨diagStats, hsent, ht⟩ := txEnqueue_ok h
    refine .drift (Drift.trans ?_ ht.drift)
    cases kind <;> exact { Drift.refl c with idle := { Idle.refl c.bpf with sent := hsent } }
  | inject veth flags hf h =>
    obtain ⟨c₁, hd, hi, hs⟩ := sessionInjectPkt_ok h
    exact .inject veth flags hf hd hi hs
  | update inject hg h =>
    obtain ⟨c₁, c₂, hd, hi, hs, ht⟩ := updateNow_ok h
    exact .update inject hg hd hi hs ht

theorem Sends.veth {veth : Veth} {flags : UInt8} {c c' : Ctx} (h : Sends veth flags c c') :
    c'.bpf.vethTxIfindex = c.bpf.vethTxIfindex := by
  obtain ⟨a, bdata, -, rfl⟩ := h
  obtain ⟨kernel, diagStats, sends, hs⟩ := send_eq c.bpf a veth (c.packet bdata flags)
  rw [hs]

theorem Trail.veth {c c' : Ctx} (h : Trail c c') : c'.bpf.vethTxIfindex = c.bpf.vethTxIfindex := by
  refine keeps_of_moves (I := fun b => b.bpf.vethTxIfindex = c.bpf.vethTxIfindex) (fun a b hs ha => ?_) h rfl
  obtain hd | hs := hs
  · exact hd.idle.veth.trans ha
  · exact hs.veth.trans ha

theorem Turn.veth {c c' : Ctx} (h : Turn c c') : c'.bpf.vethTxIfindex = c.bpf.vethTxIfindex := by
  cases h with
  | drift hd => exact hd.idle.veth
  | capacity _ _ _ hv => exact hv
  | inject veth flags _ hd _ hs => exact hs.veth.trans hd.idle.veth
  | update inject _ hd _ hs ht =>
    obtain rfl | ⟨-, flags, -, hs⟩ := hs
    · exact ht.veth.trans hd.idle.veth
    · exact ht.veth.trans (hs.veth.trans hd.idle.veth)

theorem Moves.veth {own : Option UInt32} {c c' : Ctx} (h : Moves own c c') :
    c'.bpf.vethTxIfindex = c.bpf.vethTxIfindex :=
  keeps_of_moves (I := fun b => b.bpf.vethTxIfindex = c.bpf.vethTxIfindex)
    (fun _ _ hm hb => hm.turn.veth.trans hb) h rfl

end Bbdd.Datapath
