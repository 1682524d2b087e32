import Bbdd.Datapath.InStep

namespace Bbdd.Datapath

open Lib.Program Packet Session Prog TxQueue

def pktPace (packet : BfdPkt) : UInt32 × UInt32 := (ntoh32 packet.desiredTx, ntoh32 packet.requiredRx)

def pace (data : BData) : UInt32 × UInt32 := (data.timing.minTxUs, data.timing.minRxUs)

def IsPoll (d : UInt32) (packet : BfdPkt) : Prop :=
  ntoh32 packet.myDisc = d ∧ hasBit (pktBits packet) bitPoll = true

instance (d : UInt32) (packet : BfdPkt) : Decidable (IsPoll d packet) := inferInstanceAs (Decidable (_ ∧ _))

def Offers (d : UInt32) (rate : UInt32 × UInt32) (packet : BfdPkt) : Prop :=
  IsPoll d packet → pktPace packet = rate

/-- What holds of the packets that are under way: those of the loop, which go
out again and again, and those that went out after the first few. -/
structure Airs (Q : BfdPkt → Prop) (n : Nat) (k : Kernel) : Prop where
  passed : n ≤ k.wire.length
  circ : ∀ skb ∈ k.circ, Q skb.bfd
  wire : ∀ p ∈ k.wire.reverse.drop n, Q p.2

section

variable {Q : BfdPkt → Prop} {n : Nat} {k k' : Kernel}

instance [DecidablePred Q] : Decidable (Airs Q n k) :=
  decidable_of_iff (n ≤ k.wire.length ∧ (∀ skb ∈ k.circ, Q skb.bfd) ∧ ∀ p ∈ k.wire.reverse.drop n, Q p.2)
    ⟨fun h => ⟨h.1, h.2.1, h.2.2⟩, fun h => ⟨h.passed, h.circ, h.wire⟩⟩

theorem Airs.mono {Q' : BfdPkt → Prop} (h : Airs Q n k) (hQ : ∀ p, Q p → Q' p) : Airs Q' n k :=
  ⟨h.passed, fun skb hs => hQ _ (h.circ skb hs), fun p hp => hQ _ (h.wire p hp)⟩

theorem Airs.later (h : Airs Q n k) {n' : Nat} (hle : n ≤ n') (hn : n' ≤ k.wire.length) : Airs Q n' k :=
  ⟨hn, h.circ, fun p hp => h.wire p (List.drop_subset_drop_left _ hle hp)⟩

theorem Airs.sent (h : Airs Q n k) {out : List (UInt32 × BfdPkt)} (hw : k'.wire = out ++ k.wire)
    (hc : ∀ skb ∈ k'.circ, Q skb.bfd) (ho : ∀ p ∈ out, Q p.2) : Airs Q n k' := by
  refine ⟨?_, hc, fun p hp => ?_⟩
  · rw [hw, List.length_append]
    exact Nat.le_add_left_of_le h.passed
  · rw [hw, List.reverse_append, List.drop_append_of_le_length
      (by rw [List.length_reverse]; exact h.passed)] at hp
    obtain hp | hp := List.mem_append.mp hp
    · exact h.wire p hp
    · exact ho p (List.mem_reverse.mp hp)

theorem Airs.flows (h : Airs Q n k) (hf : Flows k k') : Airs Q n k' := by
  obtain ⟨out, hw, ho⟩ := hf.wire
  refine h.sent hw (hf.all (fun skb skb' he hq => ?_) h.circ) (fun p hp => ?_)
  · rw [← skb'.core_bfd, he, skb.core_bfd]
    exact hq
  · obtain ⟨skb, hs, he⟩ := ho p hp
    rw [he]
    exact h.circ skb hs

end

section

variable {Q : BfdPkt → Prop} {n : Nat} {c c' : Ctx} {veth : Veth} {flags : UInt8} {d : UInt32}
    {rate : UInt32 × UInt32}
  {r : Except String Unit}

theorem Airs.sends (h : Airs Q n c.bpf.kernel) (hs : Sends veth flags c c') (hp : BfdPort c.dsess)
    (hq : veth = .tx → ∀ bdata, injectBdata c.bsess = some bdata → Q (c.packet bdata flags).bfd) :
    Airs Q n c'.bpf.kernel := by
  obtain ⟨a, bdata, hb, rfl⟩ := hs
  have hbfd := packet_isBfd hp bdata flags
  have hcirc : ∀ skb ∈ (c.bpf.send a veth (c.packet bdata flags)).2.kernel.circ, Q skb.bfd := by
    intro skb hskb
    cases send_fate c.bpf a veth hbfd with
    | joined skb' hv _ _ hcore hjoin =>
      rw [hjoin] at hskb
      obtain hskb | hskb := List.mem_append.mp hskb
      · exact h.circ skb hskb
      · rw [List.mem_singleton.mp hskb, ← skb'.core_bfd, hcore]
        exact hq hv bdata hb
    | left _ hsame => exact h.circ skb (hsame ▸ hskb)
    | refused _ hsame => exact h.circ skb (hsame ▸ hskb)
  obtain hw | ⟨hv, ifindex, hw⟩ := send_wire c.bpf a veth hbfd
  · exact @Airs.sent _ _ _ _ h [] hw hcirc (by simp)
  · refine @Airs.sent _ _ _ _ h [_] hw hcirc (fun p hm => ?_)
    rw [List.mem_singleton.mp hm]
    exact hq hv bdata hb

theorem Airs.drift (h : Airs Q n c.bpf.kernel) (hd : Drift c c') : Airs Q n c'.bpf.kernel :=
  h.flows hd.idle.flow

theorem Airs.trail (h : Airs Q n c.bpf.kernel) (hp : BfdPort c.dsess) (ht : Trail c c') :
    Airs Q n c'.bpf.kernel := by
  refine (keeps_of_moves (I := fun b : Ctx => BfdPort b.dsess ∧ Airs Q n b.bpf.kernel)
    (fun a b hs ha => ?_) ht ⟨hp, h⟩).2
  obtain hd | hs := hs
  · exact ⟨hd.dport ha.1, ha.2.drift hd⟩
  · exact ⟨hs.same.1 ▸ ha.1, ha.2.sends hs ha.1 (fun hv => by cases hv)⟩

theorem poll_packet (bdata : BData) (hf : flags < 64) :
    hasBit (pktBits (c.packet bdata flags).bfd) bitPoll = hasBit flags bitPoll := by
  simp only [Ctx.packet, injectSkb, pktBits_makePacket _ _ _ _ _ hf]

@[simp] theorem pace_packet (bdata : BData) : pktPace (c.packet bdata flags).bfd = pace bdata := by
  simp [pktPace, pace, Ctx.packet, injectSkb, makePacket]

theorem offers_packet (bdata : BData) (hf : flags < 64) (hp : hasBit flags bitPoll = false) :
    Offers d rate (c.packet bdata flags).bfd := by
  rintro ⟨-, hpoll⟩
  rw [poll_packet bdata hf, hp] at hpoll
  cases hpoll

abbrev Aired (d : UInt32) (rate : UInt32 × UInt32) (n : Nat) (b : Bpf) : Prop :=
  Airs (Offers d rate) n b.kernel

theorem updateNow_airs {inject : Bool} (h : updateNow inject c = .ok (r, c')) (hp : BfdPort c.dsess)
    (hq : c.bsess.bstate = .awaitFinal → pace c.bsess.dfrData = rate) (ha : Aired d rate n c.bpf) :
    Aired d rate n c'.bpf := by
  obtain ⟨c₁, c₂, hd, hi, hs, ht⟩ := updateNow_ok h
  have ha₁ : Aired d rate n c₁.bpf := @Airs.drift _ n c.bumped c₁ ha hd
  have hp₁ : BfdPort c₁.dsess := hd.dport hp
  obtain rfl | ⟨-, flags, hf, hs⟩ := hs
  · exact ha₁.trail hp₁ ht
  · refine Airs.trail (ha₁.sends hs hp₁ (fun _ bdata hb => ?_)) (hs.same.1 ▸ hp₁) ht
    obtain ⟨hlt, -, hwait⟩ := injectBfdFlags_bits hf
    cases hpoll : hasBit flags bitPoll with
    | false => exact offers_packet bdata hlt hpoll
    | true =>
      have hst := hwait hpoll
      obtain ⟨g, m, us, hbs⟩ := hi.bsess
      rw [hbs] at hb
      simp only [injectBdata, Ctx.bumped, hst, Option.some.injEq] at hb
      intro _
      rw [pace_packet, ← hb]
      exact hq hst

theorem txEnqueue_airs {kind : SlotKind}
    (h : txEnqueue kind (decide (kind = .final)) flags c = .ok ((), c'))
    (ha : Airs Q n c.bpf.kernel) : Airs Q n c'.bpf.kernel := by
  obtain ⟨diagStats, -, ht⟩ := txEnqueue_ok h
  exact ha.flows ht.drift.idle.flow

theorem txHaveCapacity_drift {room : Bool} (h : txHaveCapacity c = .ok (room, c')) : Drift c c' :=
  txHaveCapacity_within drift_ask _ _ _ h

theorem sessionUpdateInner_airs (h : sessionUpdateInner c = .ok (r, c')) (hp : BfdPort c.dsess)
    (hq : c.bsess.bstate = .awaitFinal → pace c.bsess.dfrData = rate) (ha : Aired d rate n c.bpf) :
    Aired d rate n c'.bpf := by
  have h := read_ok.mp h
  split at h
  · obtain ⟨room, c₁, h₁, h⟩ := bind_ok.mp h
    have hf := within_txHaveCapacity _ _ _ h₁
    have ha₁ := ha.drift (txHaveCapacity_drift h₁)
    cases room with
    | true => exact updateNow_airs h (hf.dsess ▸ hp) (by rwa [hf.bstate, hf.dfrData]) ha₁
    | false =>
      obtain ⟨flags, -, he⟩ := updateDefer_ok h
      exact @txEnqueue_airs _ _ _ _ _ .periodic he ha₁
  · exact updateNow_airs h hp hq ha

theorem reported_airs {p : Act (Except String Unit)} {context : String}
    (h : reported p context c = .ok ((), c'))
    (hp : ∀ r c₁, p c = .ok (r, c₁) → Airs Q n c₁.bpf.kernel) : Airs Q n c'.bpf.kernel := by
  obtain ⟨r, c₁, h₁, h⟩ := bind_ok.mp h
  cases r with
  | error e =>
    have ha := hp _ _ h₁
    cases h
    exact ha
  | ok _ =>
    obtain ⟨-, rfl⟩ := pure_ok.mp h
    exact hp _ _ h₁

theorem sessionCallUpdate_airs (h : sessionCallUpdate c = .ok ((), c')) (hp : BfdPort c.dsess)
    (hq : c.bsess.bstate = .awaitFinal → pace c.bsess.dfrData = rate) (ha : Aired d rate n c.bpf) :
    Aired d rate n c'.bpf := by
  have h := read_ok.mp h
  exact reported_airs h (fun _ _ h₁ => sessionUpdateInner_airs h₁ hp hq ha)

theorem sessionStateChanged_airs (h : sessionStateChanged c = .ok ((), c')) (hp : BfdPort c.dsess)
    (hq : c.bsess.bstate = .awaitFinal → pace c.bsess.dfrData = rate) (ha : Aired d rate n c.bpf) :
    Aired d rate n c'.bpf := by
  obtain ⟨_, c₁, h₁, h⟩ := bind_ok.mp h
  have ha₁ := sessionCallUpdate_airs h₁ hp hq ha
  cases h
  exact ha₁

theorem sessionInjectPkt_airs (h : sessionInjectPkt veth flags c = .ok (r, c')) (hp : BfdPort c.dsess)
    (hv : veth = .rx ∨ flags = bitFinal) (ha : Aired d rate n c.bpf) : Aired d rate n c'.bpf := by
  obtain ⟨c₁, hd, -, hs⟩ := sessionInjectPkt_ok h
  refine (ha.drift hd).sends hs (hd.dport hp) (fun htx bdata _ => ?_)
  obtain rfl | rfl := hv
  · cases htx
  · exact offers_packet bdata (by decide) (by decide)

theorem respondPoll_airs (h : respondPoll c = .ok ((), c')) (hp : BfdPort c.dsess)
    (ha : Aired d rate n c.bpf) :
    Aired d rate n c'.bpf := by
  obtain ⟨room, c₁, h₁, h⟩ := bind_ok.mp h
  have ha₁ := ha.drift (txHaveCapacity_drift h₁)
  cases room with
  | true =>
    have hp₁ : BfdPort c₁.dsess := (txHaveCapacity_drift h₁).dport hp
    exact reported_airs h (fun _ _ h₂ => sessionInjectPkt_airs h₂ hp₁ (.inr rfl) ha₁)
  | false => exact @txEnqueue_airs _ _ _ _ _ .final h ha₁

theorem offers_other (hd : c.dsess.localData.discr ≠ d) (bdata : BData) (flags : UInt8) :
    Offers d rate (c.packet bdata flags).bfd := by
  rintro ⟨hdiscr, -⟩
  exact absurd ((packet_discr c bdata flags).symm.trans hdiscr) hd

theorem Trail.discr (h : Trail c c') : c'.dsess.localData.discr = c.dsess.localData.discr := by
  refine keeps_of_moves (I := fun b : Ctx => b.dsess.localData.discr = c.dsess.localData.discr)
    (fun a b hs ha => ?_) h rfl
  obtain hd | hs := hs
  · exact hd.discr.trans ha
  · rw [hs.same.1, ha]

theorem Turn.airs_other (h : Turn c c') (hp : BfdPort c.dsess) (hd : c.dsess.localData.discr ≠ d)
    (ha : Aired d rate n c.bpf) :
    c'.dsess.localData.discr ≠ d ∧ Aired d rate n c'.bpf := by
  cases h with
  | drift h => exact ⟨h.discr ▸ hd, ha.drift h⟩
  | capacity hf _ _ _ _ hds => exact ⟨hds ▸ hd, ha.flows hf⟩
  | inject veth flags _ h _ hs =>
    have hd₁ := h.discr ▸ hd
    exact ⟨hs.same.1 ▸ hd₁, (ha.drift h).sends hs (h.dport hp) (fun _ bdata _ => offers_other hd₁ bdata flags)⟩
  | @update c₁ c₂ inject _ h _ hs ht =>
    have hd₁ : c₁.dsess.localData.discr ≠ d := fun he => hd (h.discr.symm.trans he)
    have hp₁ : BfdPort c₁.dsess := h.dport hp
    have ha₁ : Aired d rate n c₁.bpf := @Airs.drift _ n c.bumped c₁ ha h
    obtain rfl | ⟨-, flags, -, hs⟩ := hs
    · exact ⟨ht.discr ▸ hd₁, ha₁.trail hp₁ ht⟩
    · have ha₂ := ha₁.sends hs hp₁ (fun _ bdata _ => offers_other hd₁ bdata flags)
      exact ⟨ht.discr ▸ hs.same.1 ▸ hd₁, ha₂.trail (hs.same.1 ▸ hp₁) ht⟩

theorem Moves.airs_other {own : Option UInt32} (h : Moves own c c') (hp : BfdPort c.dsess)
    (hd : c.dsess.localData.discr ≠ d) (ha : Aired d rate n c.bpf) : Aired d rate n c'.bpf := by
  refine (keeps_of_moves (I := fun b : Ctx => BfdPort b.dsess ∧ b.dsess.localData.discr ≠ d ∧
    Aired d rate n b.bpf)
    (fun a b hm hb => ?_) h ⟨hp, hd, ha⟩).2.2
  exact ⟨Moves.dport (.single hm) hb.1, hm.turn.airs_other hb.1 hb.2.1 hb.2.2⟩

end

end Bbdd.Datapath
