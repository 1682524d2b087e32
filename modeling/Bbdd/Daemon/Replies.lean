import Bbdd.Daemon.FastPath
import Bbdd.Datapath.Refresh
import Bbdd.Datapath.Tables
import Bbdd.Poll.Stages

namespace Bbdd.Daemon

open Lib.Program Packet Session Prog TxQueue Datapath Poll

def Pollless (k : Kernel) : Prop :=
  ∀ d config, k.config d = some config → hasBit (pktBits config.rxExpect) bitPoll = false

structure Mum (c c' : Ctx) : Prop where
  silent : NoFinal c.bpf c'.bpf
  slot : c'.bsess.finalSlot = c.bsess.finalSlot
  config : Pollless c.bpf.kernel → Pollless c'.bpf.kernel

theorem Mum.trans {a b c : Ctx} (h : Mum a b) (k : Mum b c) : Mum a c :=
  ⟨h.silent.trans k.silent, k.slot.trans h.slot, k.config ∘ h.config⟩

instance : Std.Refl Mum := ⟨fun _ => ⟨.of_eq rfl rfl, rfl, id⟩⟩

instance : IsTrans Ctx Mum := ⟨fun _ _ _ => Mum.trans⟩

section

variable {c c' : Ctx} {k k' : Kernel} {b b' : Bpf} {r : Except String Unit}

theorem Pollless.of_config (h : Pollless k) (hk : k'.config = k.config) : Pollless k' := by
  intro d config
  rw [hk]
  exact h d config

theorem Pollless.setConfig (h : Pollless k) {e : UInt32} {entry : Option SessionConfig}
    (he : ∀ config, entry = some config → hasBit (pktBits config.rxExpect) bitPoll = false) :
    Pollless (k.setConfig e entry) := by
  intro d config hd
  simp only [Kernel.setConfig, Function.update_apply] at hd
  split at hd
  · exact he config hd
  · exact h d config hd

theorem confEntry_pollless (dsess : DSession) (bsess : BSession) (args : ConfArgs) (addrs : Addr × Addr) :
    hasBit (pktBits (confEntry dsess bsess args addrs).rxExpect) bitPoll = false := by
  obtain ⟨hlt, -, -, hpoll, -⟩ := rxExpectBfdFlags_bits dsess bsess
  simp only [confEntry, pktBits_makePacket _ _ _ _ _ hlt, hpoll]

theorem Mum.of_still (hq : c'.bpf.tx = c.bpf.tx) (hs : c'.bpf.sends = c.bpf.sends)
    (hl : c'.bsess.finalSlot = c.bsess.finalSlot)
    (hk : Pollless c.bpf.kernel → Pollless c'.bpf.kernel) : Mum c c' :=
  ⟨.of_eq hq hs, hl, hk⟩

theorem Mum.of_bpf (hb : c'.bpf = c.bpf) (hl : c'.bsess.finalSlot = c.bsess.finalSlot) : Mum c c' :=
  .of_still (by rw [hb]) (by rw [hb]) hl (by rw [hb]; exact id)

theorem mum_of_timed (h : Timed c c') : Mum c c' := by
  have hk := Timed.config h
  obtain ⟨-, ⟨s, o, hb⟩, ⟨evs, t, n, tk, out, ar, hp⟩⟩ := h
  exact .of_still (by rw [hp]) (by rw [hp]) (by rw [hb]) (fun h => h.of_config hk)

theorem mum_timed {α : Type} {p : Act α} (hp : Within Timed p) : Within Mum p :=
  hp.mono (fun _ _ => mum_of_timed)

theorem mum_onBsess {f : BSession → BSession} (h : ∀ s, (f s).finalSlot = s.finalSlot) :
    Within Mum (onBsess f) :=
  within_update (fun c => .of_bpf rfl (h c.bsess))

/-- One packet of the session was passed to the socket. -/
structure Passed (veth : Veth) (flags : UInt8) (c c' : Ctx) : Prop where
  dsess : c'.dsess = c.dsess
  bsess : c'.bsess = c.bsess
  tx : c'.bpf.tx = c.bpf.tx
  config : c'.bpf.kernel.config = c.bpf.kernel.config
  sends : ∃ s, c'.bpf.sends = s :: c.bpf.sends ∧ s.veth = veth ∧ s.skb.discr = c.dsess.localData.discr ∧
    pktBits s.skb.bfd = flags

theorem sessionInjectPkt_passed {veth : Veth} {flags : UInt8} (hf : flags < 64)
    (h : sessionInjectPkt veth flags c = .ok (r, c')) : Passed veth flags c c' := by
  obtain ⟨hd, hb, hserved⟩ := sessionInjectPkt_served h
  refine ⟨hd, hb, (injected_sessionInjectPkt _ _ _ _ _ h).sameQueue.tx, hserved.config, ?_⟩
  obtain ⟨bdata, -, rfl, -⟩ := sessionInjectPkt_eq h
  have hs : (c.handed veth).bpf.sends = c.bpf.sends := (handed_drift c veth).idle.sends
  refine ⟨_, (send_sends _ _ _ _).trans (congrArg _ hs), rfl, ?_, ?_⟩
  · simp [Bpf.call, Skb.discr, Ctx.packet, injectSkb, makePacket]
  · simp only [Bpf.call, Ctx.packet, injectSkb, pktBits_makePacket _ _ _ _ _ hf]

theorem Passed.mum {veth : Veth} {flags : UInt8} (h : Passed veth flags c c')
    (hf : hasBit flags bitFinal = false) :
    Mum c c' := by
  obtain ⟨s, hs, -, -, hbits⟩ := h.sends
  refine ⟨⟨by rw [h.tx], [s], hs, fun s' hm => ?_⟩, by rw [h.bsess], fun hk => hk.of_config h.config⟩
  rw [List.mem_singleton.mp hm, Skb.final, hbits, hf]

theorem mum_sessionConfUpdate (args : ConfArgs) : Within Mum (sessionConfUpdate args) := by
  intro c r c' h
  have hask : Mum c { c with bpf := c.bpf.ask.2 } := mum_of_timed (timed_ask c _ _ rfl)
  obtain ⟨-, ⟨rfl, -⟩ | ⟨rfl, -⟩⟩ | ⟨-, addrs, -, rfl⟩ := sessionConfUpdate_eq h
  · exact refl_of Mum _
  · exact hask
  · refine .of_still rfl rfl rfl (fun hk => ?_)
    refine (hask.config hk).setConfig (fun config he => ?_)
    cases he
    exact confEntry_pollless _ _ _ _

theorem mum_injectRearmPacket : Within Mum injectRearmPacket :=
  fun _ _ _ h => (sessionInjectPkt_passed (by decide) h).mum (by decide)

theorem mum_updateNow (inject : Bool) : Within Mum (updateNow inject) := by
  refine updateNow_within (mum_onBsess (fun _ => rfl)) mum_sessionConfUpdate
    (updateInject_within (fun c r c' flags hf h => ?_) inject)
    (updateRearm_within mum_injectRearmPacket (fun _ => mum_onBsess (fun _ => rfl)))
  obtain ⟨hlt, hfin, -⟩ := injectBfdFlags_bits hf
  exact (sessionInjectPkt_passed hlt h).mum hfin

theorem enqueued_finals (c : Ctx) (flags : UInt8) :
    (c.enqueued .periodic flags).2.1.finals = c.bpf.tx.finals := by
  cases hl : (slotOf c.bsess .periodic).linked with
  | true => rw [Ctx.enqueued, enqueue_linked _ _ _ _ _ hl]
  | false => exact listOf_enqueue _ _ _ _ _ _ hl _ .final

theorem mum_of_chore (h : Chore c c') : Mum c c' := by
  cases h with
  | ask h => exact mum_of_timed (timed_ask _ _ _ h)
  | output o => exact .of_still rfl rfl rfl id
  | defer flags hf h =>
    rw [hf] at h
    obtain ⟨diagStats, -, ht⟩ := @txEnqueue_ok _ _ .periodic _ h
    refine Mum.trans ?_ (mum_of_timed ht)
    exact ⟨⟨enqueued_finals c flags, [], rfl, by simp⟩, rfl, id⟩
  | rearm h => exact mum_injectRearmPacket _ _ _ h
  | update inject _ h => exact mum_updateNow inject _ _ _ h
  | shwaitStop h => exact mum_of_timed (timed_shwaitStop _ _ _ h)
  | shwaitStart h => exact mum_of_timed (timed_shwaitStart _ _ _ h)
  | holdStop h => exact mum_of_timed (timed_holdStop _ _ _ h)
  | write h => exact .of_bpf h.bpf h.finalSlot

theorem mum_of_chores (h : Chores c c') : Mum c c' :=
  keeps_of_moves (I := Mum c) (fun _ _ hc hm => hm.trans (mum_of_chore hc)) h (refl_of Mum c)

theorem mum_chores {α : Type} {p : Act α} (hp : Within Chores p) : Within Mum p :=
  hp.mono (fun _ _ => mum_of_chores)

end

def replies (d : UInt32) (b : Bpf) : Nat :=
  b.sends.countP (fun s => s.skb.final && s.skb.discr == d) + b.tx.finals.count ⟨d, .final⟩

/-- What makes a reply a reply: no Poll is expected, a Final in the queue is
nothing but a Final, and no packet is both. -/
structure Straight (c : Ctx) : Prop where
  config : Pollless c.bpf.kernel
  slot : c.bsess.finalSlot.linked = true → c.bsess.finalSlot.bfdFlags = bitFinal
  sends : ∀ s ∈ c.bpf.sends, ¬ (s.skb.poll = true ∧ s.skb.final = true)

structure Tallies (d : UInt32) (n : Nat) (c c' : Ctx) : Prop where
  straight : Straight c → Straight c'
  own : replies d c'.bpf ≤ replies d c.bpf + n
  others : ∀ e, e ≠ d → replies e c'.bpf ≤ replies e c.bpf

/-- A Final of the session was passed to the socket, or waits in the queue. -/
def Given (d : UInt32) (c c' : Ctx) : Prop :=
  c'.bsess.finalSlot.linked = true ∨
    ∃ new, c'.bpf.sends = new ++ c.bpf.sends ∧ ∃ s ∈ new, s.veth = .tx ∧ s.skb.discr = d ∧ s.skb.final = true

section

variable {d : UInt32} {m n : Nat} {a b c c' : Ctx} {r : Except String Unit}

theorem Tallies.trans (h : Tallies d m a b) (k : Tallies d n b c) : Tallies d (m + n) a c where
  straight := k.straight ∘ h.straight
  own := by
    have := h.own
    have := k.own
    omega
  others := fun e he => Nat.le_trans (k.others e he) (h.others e he)

theorem replies_silent {b b' : Bpf} (h : NoFinal b b') (d : UInt32) : replies d b' = replies d b := by
  obtain ⟨new, hs, hn⟩ := h.sent
  have hz : new.countP (fun s => s.skb.final && s.skb.discr == d) = 0 :=
    List.countP_eq_zero.mpr (fun s hm => by simp [hn s hm])
  simp only [replies, hs, h.queued, List.countP_append, hz, Nat.zero_add]

theorem Mum.straight (h : Mum c c') (hc : Straight c) : Straight c' := by
  obtain ⟨new, hs, hn⟩ := h.silent.sent
  refine ⟨h.config hc.config, by rw [h.slot]; exact hc.slot, fun s hm => ?_⟩
  rw [hs] at hm
  obtain hm | hm := List.mem_append.mp hm
  · rw [hn s hm]
    exact fun hb => Bool.false_ne_true hb.2
  · exact hc.sends s hm

theorem Mum.tallies (h : Mum c c') : Tallies d 0 c c' :=
  ⟨h.straight, (replies_silent h.silent d).le, fun e _ => (replies_silent h.silent e).le⟩

theorem Mum.given (h : Mum a b) (k : Given d b c) (h' : Mum c c') : Given d a c' := by
  refine k.imp (fun hl => by rw [h'.slot]; exact hl) (fun ⟨new, hs, s, hm, hg⟩ => ?_)
  obtain ⟨new₁, hs₁, -⟩ := h.silent.sent
  obtain ⟨new₂, hs₂, -⟩ := h'.silent.sent
  refine ⟨new₂ ++ (new ++ new₁), by rw [hs₂, hs, hs₁]; simp, s, ?_, hg⟩
  exact List.mem_append_right _ (List.mem_append_left _ hm)

theorem Passed.tallies {veth : Veth} (h : Passed veth bitFinal c c') (hd : c.dsess.localData.discr = d) :
    Tallies d 1 c c' := by
  obtain ⟨s, hs, -, hdiscr, hbits⟩ := h.sends
  have hp : s.skb.poll = false := by rw [Skb.poll, hbits]; decide
  refine ⟨fun hc => ⟨hc.config.of_config h.config, by rw [h.bsess]; exact hc.slot, fun s' hm => ?_⟩,
    ?_, fun e he => ?_⟩
  · rw [hs] at hm
    obtain rfl | hm := List.mem_cons.mp hm
    · rw [hp]
      exact fun hb => Bool.false_ne_true hb.1
    · exact hc.sends s' hm
  · simp only [replies, hs, h.tx, List.countP_cons]
    split <;> omega
  · have hne : (s.skb.discr == e) = false := by
      rw [hdiscr, hd]
      exact beq_false_of_ne (Ne.symm he)
    simp [replies, hs, h.tx, hne]

theorem txEnqueue_final (h : txEnqueue .final true bitFinal c = .ok ((), c')) (hd : c.bsess.discr = d) :
    Tallies d 1 c c' ∧ Given d c c' := by
  obtain ⟨diagStats, -, ht⟩ := @txEnqueue_ok _ _ .final _ h
  have hm := mum_of_timed ht
  have hl := enqueued_linked c .final bitFinal
  refine ⟨Tallies.trans (m := 1) (n := 0) ?_ hm.tallies, .inl (by rw [hm.slot]; exact hl)⟩
  cases hlink : (slotOf c.bsess .final).linked with
  | true =>
    have he : c.enqueued .final bitFinal = (false, c.bpf.tx, c.bsess.finalSlot) :=
      enqueue_linked _ _ _ _ _ hlink _ _
    rw [he]
    exact ⟨fun hc => ⟨hc.config, hc.slot, hc.sends⟩, Nat.le_succ _, fun _ _ => Nat.le_refl _⟩
  | false =>
    have hlist : (c.enqueued .final bitFinal).2.1.finals = c.bpf.tx.finals ++ [⟨c.bsess.discr, .final⟩] :=
      listOf_enqueue _ _ _ _ _ _ hlink _ .final
    have hslot : (c.enqueued .final bitFinal).2.2.bfdFlags = bitFinal := by
      rw [Ctx.enqueued, enqueue_slot _ _ _ _ _ hlink]
    refine ⟨fun hc => ⟨hc.config, fun _ => hslot, hc.sends⟩, ?_, fun e he => ?_⟩
    · simp only [replies, hlist, List.count_append, List.count_singleton]
      split <;> omega
    · have hne : ((⟨c.bsess.discr, .final⟩ : SlotRef) == ⟨e, .final⟩) = false :=
        beq_false_of_ne (fun heq => he (hd ▸ (SlotRef.mk.inj heq).1).symm)
      simp [replies, hlist, List.count_append, List.count_singleton, hne]

theorem respondPoll_replies (hq : QueueOk c) (hd : c.bsess.discr = d) (h : respondPoll c = .ok ((), c')) :
    Tallies d 1 c c' ∧ Given d c c' := by
  obtain ⟨room, c₁, h₁, h⟩ := bind_ok.mp h
  have hch := chores_txHaveCapacity _ _ _ h₁
  have hm := mum_of_chores hch
  obtain ⟨hq₁, ha⟩ := Moves.queue (@Chores.moves none _ _ hch) hq
  have hd₁ := ha.discr.trans hd
  cases room with
  | false =>
    obtain ⟨ht, hg⟩ := txEnqueue_final h hd₁
    exact ⟨by simpa using hm.tallies.trans ht, hm.given hg (refl_of Mum _)⟩
  | true =>
    obtain ⟨r, c₂, h₂, h⟩ := bind_ok.mp h
    have hp := sessionInjectPkt_passed (by decide) h₂
    have hm' : Mum c₂ c' := by
      cases r with
      | error e => exact mum_chores (chores_output _) _ _ _ h
      | ok _ =>
        obtain ⟨-, rfl⟩ := pure_ok.mp h
        exact refl_of Mum _
    obtain ⟨s, hs, hv, hdiscr, hbits⟩ := hp.sends
    have hg : Given d c₁ c₂ := by
      refine .inr ⟨[s], hs, s, List.mem_singleton_self s, hv, ?_, ?_⟩
      · rw [hdiscr, hq₁.discr, hd₁]
      · rw [Skb.final, hbits]
        decide
    refine ⟨?_, hm.given hg hm'⟩
    simpa using (hm.tallies.trans (hp.tallies (hq₁.discr.trans hd₁))).trans hm'.tallies

theorem unlinked_finals (hq : QueueOk c) {kind : SlotKind} (hl : (slotOf c.bsess kind).linked = true) :
    (c.unlinked kind).bpf.tx.finals =
      if kind = .final then c.bpf.tx.finals.erase ⟨c.bsess.discr, .final⟩ else c.bpf.tx.finals := by
  have hlist := listOf_unlink c.bpf.tx kind _ hl (hq.slots kind hl).isFinal ⟨c.bsess.discr, kind⟩ .final
  cases kind <;> exact hlist

theorem mum_drainPeriodic (hq : QueueOk c) (hl : (slotOf c.bsess .periodic).linked = true)
    (h : drainSlot (slotOf c.bsess .periodic) (c.unlinked .periodic) = .ok ((), c')) : Mum c c' := by
  have hun : Mum c (c.unlinked .periodic) := ⟨⟨unlinked_finals hq hl, [], rfl, by simp⟩, rfl, id⟩
  obtain ⟨_, c₁, h₁, h⟩ := bind_ok.mp h
  rw [(hq.slots .periodic hl).isFinal] at h₁
  have hup := mum_chores (chores_reported chores_sessionUpdateInner _) _ _ _ h₁
  cases h
  exact (hun.trans hup).trans (.of_still rfl rfl rfl id)

theorem tallies_drainFinal (hq : QueueOk c) (hd : c.bsess.discr = d) (hc : Straight c)
    (hl : (slotOf c.bsess .final).linked = true)
    (h : drainSlot (slotOf c.bsess .final) (c.unlinked .final) = .ok ((), c')) : Tallies d 0 c c' := by
  have hlist := unlinked_finals hq hl
  have hmem : (⟨d, .final⟩ : SlotRef) ∈ c.bpf.tx.finals := hd ▸ (hq.linked .final).mpr hl
  have hflags := hc.slot hl
  have hun : Straight (c.unlinked .final) := by
    refine ⟨hc.config, fun hf => ?_, hc.sends⟩
    rw [show (c.unlinked .final).bsess.finalSlot.linked = false from unlinked_slot c .final] at hf
    cases hf
  obtain ⟨_, c₁, h₁, h⟩ := bind_ok.mp h
  rw [(hq.slots .final hl).isFinal] at h₁
  obtain ⟨r, c₂, h₂, h₁⟩ := bind_ok.mp h₁
  have hp : Passed c.bsess.finalSlot.txIfindex bitFinal (c.unlinked .final) c₂ := by
    change sessionInjectPkt _ c.bsess.finalSlot.bfdFlags _ = _ at h₂
    rw [hflags] at h₂
    exact sessionInjectPkt_passed (by decide) h₂
  have hm : Mum c₂ c' := by
    refine Mum.trans (b := c₁) ?_ ?_
    · cases r with
      | error e => exact mum_chores (chores_output _) _ _ _ h₁
      | ok _ =>
        obtain ⟨-, rfl⟩ := pure_ok.mp h₁
        exact refl_of Mum _
    · cases h
      exact .of_still rfl rfl rfl id
  have ht := (hp.tallies (hq.discr.trans hd)).trans (hm.tallies (d := d))
  have hcount : ∀ e, replies e (c.unlinked .final).bpf =
      c.bpf.sends.countP (fun s => s.skb.final && s.skb.discr == e) +
        (c.bpf.tx.finals.erase ⟨d, .final⟩).count ⟨e, .final⟩ := by
    intro e
    rw [← hd]
    exact congrArg (fun l => _ + List.count _ l) hlist
  refine ⟨fun _ => ht.straight hun, ?_, fun e he => ?_⟩
  · have hpos := List.count_pos_iff.mpr hmem
    have := ht.own
    rw [hcount d, List.count_erase_self] at this
    unfold replies at this ⊢
    omega
  · have := ht.others e he
    rw [hcount e, List.count_erase_of_ne (fun heq => he (SlotRef.mk.inj heq).1)] at this
    exact this

def Handler.polls (c : Ctx) : Handler → Bool
  | .packet pkt _ ttl => (taken c pkt ttl).any (·.poll)
  | _ => false

theorem packet_tallies {packet : BfdPkt} {wireLen : UInt32} {ttl : UInt8} (hq : QueueOk c)
    (hd : c.bsess.discr = d) (h : handlePacket packet wireLen ttl c = .ok ((), c')) :
    if (Handler.packet packet wireLen ttl).polls c then Tallies d 1 c c' ∧ Given d c c' else Mum c c' := by
  obtain ⟨ht, stats, diagStats, rfl⟩ | ⟨p, ht, -, ha⟩ := handlePacket_ok h
  · simp only [Handler.polls, ht, Option.any_none, Bool.false_eq_true, if_false]
    exact .of_bpf rfl rfl
  · simp only [Handler.polls, ht, Option.any_some]
    obtain ⟨c₁, c₂, c₃, hst⟩ := acceptPacket_ok ha
    have hcounted : Writes c (counted c wireLen) := { Writes.refl c with }
    have hch : Chores c c₂ := .head (.write hcounted) hst.chores
    have h₂ := mum_of_chores hch
    have h₄ : Mum c₃ c' := mum_chores (chores_of_tasks (tasks_concludePacket _)) _ _ _ hst.concluded
    obtain ⟨hq₂, ha₂⟩ := Moves.queue (@Chores.moves none _ _ hch) hq
    have hr := hst.replied
    cases hp : p.poll with
    | false =>
      rw [hp] at hr
      obtain ⟨-, rfl⟩ := pure_ok.mp hr
      exact h₂.trans h₄
    | true =>
      rw [hp] at hr
      obtain ⟨htal, hg⟩ := respondPoll_replies hq₂ (ha₂.discr.trans hd) hr
      exact ⟨by simpa using (h₂.tallies.trans htal).trans h₄.tallies, h₂.given hg h₄⟩

theorem Handled.tallies {h : Handler} {k : Nat} (hok : SessionOk k d c) (hc : Straight c)
    (hh : Handled h c c') :
    Tallies d (if h.polls c then 1 else 0) c c' := by
  cases hh with
  | set applied csess ha hu hr =>
    refine Mum.tallies (Mum.trans (b := { c with dsess := applied }) (.of_bpf rfl rfl) ?_)
    refine (mum_chores chores_sessionUpdate _ _ _ hr).trans ?_
    obtain he | he := announced_eq _ _ _ <;> rw [he]
    · exact refl_of Mum _
    · exact .of_still rfl rfl rfl id
  | packet packet wireLen ttl hr =>
    have ht := packet_tallies hok.queue hok.name hr
    split at ht
    · rw [if_pos (by assumption)]
      exact ht.1
    · rw [if_neg (by assumption)]
      exact ht.tallies
  | timeout hr => exact (mum_chores chores_handleTimeout _ _ _ hr).tallies
  | hold id hm hr =>
    exact Mum.tallies ((mum_chores chores_holdTimerCb _ _ _ hr).trans (.of_still rfl rfl rfl (fun h => h)))
  | shwait id hm hr =>
    exact Mum.tallies ((mum_chores chores_shwaitTimerCb _ _ _ hr).trans (.of_still rfl rfl rfl (fun h => h)))
  | drain kind hl hr =>
    cases kind with
    | final => exact tallies_drainFinal hok.queue hok.name hc hl hr
    | periodic => exact (mum_drainPeriodic hok.queue hl hr).tallies

end

end Bbdd.Daemon
