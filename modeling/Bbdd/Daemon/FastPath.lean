import Bbdd.Daemon.Replay
import Bbdd.Datapath.Loop

namespace Bbdd.Daemon

open Lib.Program Lib.Transition Packet Session Prog Datapath Poll

/-- Nothing that a packet could move has moved. -/
structure Unmoved (c c' : Ctx) : Prop where
  loc : c'.dsess.localData = c.dsess.localData
  rem : c'.dsess.remoteData = c.dsess.remoteData
  bstate : c'.bsess.bstate = c.bsess.bstate
  effData : c'.bsess.effData = c.bsess.effData
  dfrData : c'.bsess.dfrData = c.bsess.dfrData
  qdChange : c'.bsess.qdChange = c.bsess.qdChange

structure NoFinal (b b' : Bpf) : Prop where
  queued : b'.tx.finals = b.tx.finals
  sent : ∃ new, b'.sends = new ++ b.sends ∧ ∀ s ∈ new, s.skb.final = false

/-- The slow path takes the packet, and all it does about it is to count it
and to restart the detection timer. -/
def Redundant (c : Ctx) (packet : BfdPkt) (wireLen : UInt32) (ttl : UInt8) : Prop :=
  (taken c packet ttl).isSome = true ∧
    ∃ c', handlePacket packet wireLen ttl c = .ok ((), c') ∧ Unmoved c c' ∧ NoFinal c.bpf c'.bpf

section

variable {k : Kernel} {frame : RxFrame} {d : UInt32} {config : SessionConfig} {packet : BfdPkt} {c c' : Ctx}

theorem recvVerdict_expected (h : recvVerdict k frame = .expected d config) (hp : frame.bfd = some packet) :
    (pktVersion packet = 1 ∧ packet.length = pktSize) ∧ ntoh32 packet.yourDisc = d ∧ d ≠ 0 ∧
      k.config d = some config ∧
      config.adminDown = false ∧ ¬ config.ttl > frame.ttl ∧ packet = config.rxExpect := by
  simp only [recvVerdict, hp] at h
  split_ifs at h with h₁ h₂ h₃
  split at h
  · rename_i cfg e hcfg hdata
    split_ifs at h with h₄ h₅ h₆
    cases h
    exact ⟨⟨not_not.mp h₁, not_not.mp h₂⟩, rfl, h₃, hcfg, by simpa using h₄, h₅, by simpa using h₆⟩
  · cases h

theorem rxExpectBfdFlags_bits (dsess : DSession) (bsess : BSession) :
    rxExpectBfdFlags dsess bsess < 64 ∧
      hasBit (rxExpectBfdFlags dsess bsess) (bitAuth ||| bitDemand) = false ∧
      hasBit (rxExpectBfdFlags dsess bsess) bitMulti = false ∧
      hasBit (rxExpectBfdFlags dsess bsess) bitPoll = false ∧
      hasBit (rxExpectBfdFlags dsess bsess) bitCpi = dsess.remoteData.flags.cpi ∧
      hasBit (rxExpectBfdFlags dsess bsess) bitFinal = decide (bsess.bstate = .awaitNonFinal) := by
  unfold rxExpectBfdFlags bfdSessionFlags
  cases bsess.bstate <;> cases dsess.remoteData.flags.cpi <;> decide

def expectedPacket (dsess : DSession) (bsess : BSession) : BfdPkt :=
  makePacket dsess.remoteData.discr dsess.remoteData.timing dsess.remoteData.state dsess.localData.discr
    (rxExpectBfdFlags dsess bsess)

theorem parse_expected {dsess : DSession} (bsess : BSession) (hr : dsess.remoteData.discr ≠ 0)
    (hl : dsess.localData.discr ≠ 0) (hm : dsess.remoteData.timing.detectMult ≠ 0) :
    parsePacket (expectedPacket dsess bsess) dsess.remoteData =
      .ok ⟨dsess.remoteData, false, decide (bsess.bstate = .awaitNonFinal)⟩ := by
  obtain ⟨hlt, hauth, hmulti, hpoll, hcpi, hfin⟩ := rxExpectBfdFlags_bits dsess bsess
  have hbits := pktBits_makePacket dsess.remoteData.discr dsess.localData.discr dsess.remoteData.timing
    dsess.remoteData.state _ hlt
  have hstate := pktState_makePacket dsess.remoteData.discr dsess.localData.discr dsess.remoteData.timing
    dsess.remoteData.state _ hlt
  have hecho : ntoh32 (expectedPacket dsess bsess).requiredEchoRx = 0 := by
    simp only [expectedPacket, makePacket]
    decide
  simp only [parsePacket, hecho]
  simp only [expectedPacket, hbits, hstate, hauth, hmulti, hpoll, hcpi, hfin, pktDiag_makePacket]
  simp only [makePacket, ntoh32_hton32]
  simp [hr, hl, hm]

theorem parse_unknown (dsess : DSession) (bsess : BSession) (hr : dsess.remoteData.discr = 0) :
    (parsePacket (expectedPacket dsess bsess) dsess.remoteData).toOption = none := by
  have hmy : ntoh32 (expectedPacket dsess bsess).myDisc = 0 := by simp [expectedPacket, makePacket, hr]
  simp only [parsePacket, hmy]
  split_ifs <;> simp_all [Except.toOption]

theorem fsmNext_fixed {loc : StateEnd} {rem : PktState} (he : ends loc.state rem = true)
    (ha : loc.state ≠ .adminDown) (hd : ¬ (loc.state = .down ∧ (rem = .down ∨ rem = .init))) :
    fsmNext loc rem = loc := by
  obtain ⟨st, diag⟩ := loc
  cases st <;> cases rem <;>
    first
      | rfl
      | exact absurd rfl ha
      | exact absurd ⟨rfl, .inl rfl⟩ hd
      | exact absurd ⟨rfl, .inr rfl⟩ hd
      | cases he

theorem fsmNext_moves (loc : StateEnd) {rem : PktState} (hl : loc.state = .down)
    (hr : rem = .down ∨ rem = .init) :
    (fsmNext loc rem).state ≠ .down := by
  obtain ⟨st, diag⟩ := loc
  subst hl
  obtain rfl | rfl := hr <;> simp [fsmNext]

theorem answered_expected (m : Machine) (fresh : Option Nat) :
    m.answered (decide (m.bstate = .awaitNonFinal)) fresh = m := by
  unfold Machine.answered
  cases hb : m.bstate <;> rfl

theorem NoFinal.trans {a b b' : Bpf} (h : NoFinal a b) (k : NoFinal b b') : NoFinal a b' := by
  obtain ⟨new, hs, hn⟩ := h.sent
  obtain ⟨new', hs', hn'⟩ := k.sent
  refine ⟨k.queued.trans h.queued, new' ++ new, by rw [hs', hs, List.append_assoc], fun s hm => ?_⟩
  exact (List.mem_append.mp hm).elim (hn' s) (hn s)

theorem NoFinal.of_eq {b b' : Bpf} (hq : b'.tx = b.tx) (hs : b'.sends = b.sends) : NoFinal b b' :=
  ⟨by rw [hq], [], by rw [hs]; rfl, by simp⟩

theorem rearm_runs (h : Ready c) (context : String) :
    wp (reported injectRearmPacket context) (fun _ c' => Frame c c' ∧ NoFinal c.bpf c'.bpf) c := by
  refine wp_seq (wp_eq (sessionInjectPkt_runs h .rx 0)) (fun r c₁ h₁ => ?_)
  obtain ⟨hrun, hf⟩ := h₁
  have hnf : NoFinal c.bpf c₁.bpf := by
    obtain ⟨c₂, hd, hi, a, bdata, -, rfl⟩ := sessionInjectPkt_ok hrun
    obtain ⟨kernel, ds, sends, hsend⟩ := send_eq c₂.bpf a .rx (c₂.packet bdata 0)
    refine (NoFinal.of_eq hi.sameQueue.tx hd.idle.sends).trans
      ⟨by rw [hsend], [_], send_sends _ _ _ _, fun s hm => ?_⟩
    rw [List.mem_singleton.mp hm]
    have hbits := pktBits_makePacket c₂.dsess.localData.discr c₂.dsess.remoteData.discr bdata.timing
      c₂.dsess.localData.state 0 (by decide)
    simp only [Bpf.call, Skb.final, Ctx.packet, injectSkb, hbits]
    decide
  cases r with
  | error e =>
    refine (wp_update _ _ _).mpr ⟨hf.trans ?_, hnf.trans (.of_eq rfl rfl)⟩
    exact { Frame.refl _ with }
  | ok _ => exact (wp_pure _ _ _).mpr ⟨hf, hnf⟩

theorem acceptPacket_idle {p : Parsed} (h : Ready c) (hr : p.remote = c.dsess.remoteData) (hp : p.poll = false)
    (hf : p.final = decide (c.bsess.bstate = .awaitNonFinal))
    (hfix : fsmNext c.dsess.localData.state c.dsess.remoteData.state.state = c.dsess.localData.state) :
    wp (acceptPacket p) (fun _ c' => Frame c c' ∧ NoFinal c.bpf c'.bpf) c := by
  simp only [acceptPacket, wp_bind, wp_read, onDsess, wp_update, hr, hp, hf]
  refine wp_mono (rearm_runs h _) (fun _ c₁ h₁ => ?_)
  obtain ⟨hfr, hnf⟩ := h₁
  have hset : setLocalState c₁.dsess
    (fsmNext c₁.dsess.localData.state c₁.dsess.remoteData.state.state) = c₁.dsess := by
    rw [hfr.dsess, hfix]
    rfl
  simp only [wp_bind, wp_update, hset]
  simp only [wp_bind, wp_read, wp_whenever, hfr.dsess, hfr.bstate, ne_eq, not_true_eq_false,
    or_self, decide_false,
    Bool.false_eq_true, if_false, concludePacket]
  cases hb : c.bsess.bstate with
  | onHold => exact absurd hb h.awake
  | stable | shuttingDown | awaitFinal | awaitNonFinal =>
    simp only [reduceCtorEq, decide_false, decide_true, Bool.false_eq_true, if_true, if_false, wp_pure]
    exact ⟨{ hfr with dsess := rfl }, hnf⟩

theorem Frame.unmoved (h : Frame c c') : Unmoved c c' :=
  ⟨by rw [h.dsess], by rw [h.dsess], h.bstate, h.effData, h.dfrData, h.qdChange⟩

theorem redundant_of_fixed {ttl : UInt8} (hc : Sane (view c)) (hb : c.bsess.bstate ≠ .onHold)
    (ha : c.dsess.localData.state.state ≠ .adminDown) (ht : ¬ c.dsess.ttl > ttl)
    (hl : c.dsess.localData.discr ≠ 0) (hr : c.dsess.remoteData.discr ≠ 0)
    (hd : ¬ (c.dsess.localData.state.state = .down ∧
      (c.dsess.remoteData.state.state = .down ∨ c.dsess.remoteData.state.state = .init))) (wireLen : UInt32) :
    Redundant c (expectedPacket c.dsess c.bsess) wireLen ttl := by
  have hs : ¬ (c.bsess.bstate = .onHold ∨ c.bsess.bstate = .shuttingDown) := by
    rintro (ho | hsh)
    · exact hb ho
    · exact ha (hc.course.shutting hsh).1
  have hparse := parse_expected c.bsess hr hl hc.remMult
  refine ⟨by simp only [taken, if_neg hs, if_neg ha, if_neg ht, hparse]; rfl, ?_⟩
  have hfit := (hc.fit hb).1
  have hrun : wp (handlePacket (expectedPacket c.dsess c.bsess) wireLen ttl)
      (fun _ c' => Unmoved c c' ∧ NoFinal c.bpf c'.bpf) c := by
    simp only [handlePacket, wp_bind, wp_read, if_neg hs, if_neg ha, if_neg ht, onBsess, wp_update, hparse]
    refine wp_mono (acceptPacket_idle (Fit.ready hfit) rfl rfl rfl (fsmNext_fixed hc.ends ha hd))
      (fun _ c' h => ⟨?_, h.2⟩)
    exact { Frame.unmoved h.1 with }
  obtain ⟨_, c', hok, hu⟩ := hrun
  exact ⟨c', hok, hu⟩

theorem fixed_of_redundant {wireLen : UInt32} {ttl : UInt8} (hc : Sane (view c))
    (hl : c.dsess.localData.discr ≠ 0)
    (h : Redundant c (expectedPacket c.dsess c.bsess) wireLen ttl) :
    c.bsess.bstate ≠ .onHold ∧ c.dsess.remoteData.discr ≠ 0 ∧
      ¬ (c.dsess.localData.state.state = .down ∧
        (c.dsess.remoteData.state.state = .down ∨ c.dsess.remoteData.state.state = .init)) := by
  obtain ⟨htaken, c', hok, hu, -⟩ := h
  have hb : c.bsess.bstate ≠ .onHold := by
    intro ho
    simp [taken, ho] at htaken
  have hr : c.dsess.remoteData.discr ≠ 0 := by
    intro h0
    simp only [taken, parse_unknown c.dsess c.bsess h0, ite_self] at htaken
    cases htaken
  refine ⟨hb, hr, fun hd => ?_⟩
  have hrun := (wp_ok (handlePacket_runs (.inr (hc.fit hb).1) _ _ _) hok :)
  obtain ⟨p, hp⟩ := Option.isSome_iff_exists.mp htaken
  rw [hp] at hrun
  obtain rfl : p = ⟨c.dsess.remoteData, false, decide (c.bsess.bstate = .awaitNonFinal)⟩ := by
    simp only [taken, parse_expected c.bsess hr hl hc.remMult] at hp
    split_ifs at hp
    exact (Option.some.inj hp).symm
  obtain ⟨fresh, -, hv⟩ := hrun
  have hloc : (view c').loc =
    (fsmNext ⟨c.dsess.localData.state.state, .nothing⟩ c.dsess.remoteData.state.state).state := by
    rw [hv]
    exact congrArg Machine.loc (answered_expected ((view c).heard _ _) fresh)
  have hsame : (view c').loc = c.dsess.localData.state.state := congrArg (·.state.state) hu.loc
  rw [hsame] at hloc
  exact fsmNext_moves ⟨c.dsess.localData.state.state, .nothing⟩ hd.1 hd.2 (hloc.symm.trans hd.1)

end

/-- When the receive program consumes a packet on its own, the daemon would
have ignored it too, except for a session on hold, one that does not know its
peer yet, and one that is down while its peer is known to be down or coming
up: there the packet would have started it. -/
theorem fastPath_redundant_iff {w : World} {d : UInt32} {c : Ctx} {args : ConfArgs}
    {addrs : Addr × Addr} {frame : RxFrame} {packet : BfdPkt} {config : SessionConfig}
    (hw : Reachable daemon w) (hc : w.session d = some c)
    (hcfg : w.bpf.kernel.config d = some (confEntry c.dsess c.bsess args addrs))
    (hv : recvVerdict w.bpf.kernel frame = .expected d config) (hp : frame.bfd = some packet) :
    Redundant c packet frame.wireLen frame.ttl ↔
      c.bsess.bstate ≠ .onHold ∧ c.dsess.remoteData.discr ≠ 0 ∧
        ¬ (c.dsess.localData.state.state = .down ∧
          (c.dsess.remoteData.state.state = .down ∨ c.dsess.remoteData.state.state = .init)) := by
  have hok := (reachable_sound hw).session d c hc
  obtain ⟨-, -, hd0, hcfg', hadm, httl, rfl⟩ := recvVerdict_expected hv hp
  obtain rfl : confEntry c.dsess c.bsess args addrs = config := Option.some.inj (hcfg.symm.trans hcfg')
  have hl : c.dsess.localData.discr ≠ 0 := by rw [hok.queue.discr, hok.name]; exact hd0
  constructor
  · exact fixed_of_redundant hok.sane hl
  · rintro ⟨hb, hr, hd⟩
    exact redundant_of_fixed hok.sane hb (by simpa [confEntry] using hadm) httl hl hr hd _

def entryFive (w : World) (c : Ctx) : SessionConfig :=
  confEntry c.dsess c.bsess (updateArgs w.bpf c.dsess c.bsess 1000000) (.zero, ⟨1, 0, 0, 0⟩)

theorem fastPath_redundant_up : ∃ w c, Reachable daemon w ∧ w.session 5 = some c ∧
    recvVerdict w.bpf.kernel (peerFrame (peerPacket .up 0)) = .expected 5 (entryFive w c) ∧
    Redundant c (peerPacket .up 0) 66 255 := by
  obtain ⟨w, c, hw, hc, hcfg, hv, hrest⟩ := exists_replayed (inPlain settledUp)
    (P := fun w c => w.bpf.kernel.config 5 = some (entryFive w c) ∧
      recvVerdict w.bpf.kernel (peerFrame (peerPacket .up 0)) = .expected 5 (entryFive w c) ∧
      c.bsess.bstate ≠ .onHold ∧ c.dsess.remoteData.discr ≠ 0 ∧
        ¬ (c.dsess.localData.state.state = .down ∧
          (c.dsess.remoteData.state.state = .down ∨ c.dsess.remoteData.state.state = .init)))
    (by decide +kernel)
  exact ⟨w, c, hw, hc, hv, (fastPath_redundant_iff hw hc hcfg hv rfl).mpr hrest⟩

/-- A session was told its peer's discriminator and its hold is over. The
first packet of the peer would bring it from Down to Init, but the program
takes it for one that says nothing new. -/
theorem fastPath_swallows_down : ∃ w c, Reachable daemon w ∧ w.session 5 = some c ∧
    w.bpf.kernel.config 5 = some (entryFive w c) ∧
    recvVerdict w.bpf.kernel (peerFrame (peerPacket .down 0)) = .expected 5 (entryFive w c) ∧
    ¬ Redundant c (peerPacket .down 0) 66 255 := by
  obtain ⟨w, c, hw, hc, hcfg, hv, hinit⟩ := exists_replayed (inPlain [.addFive (some 7) none, .timer 0 none])
    (P := fun w c => w.bpf.kernel.config 5 = some (entryFive w c) ∧
      recvVerdict w.bpf.kernel (peerFrame (peerPacket .down 0)) = .expected 5 (entryFive w c) ∧
      ∀ c' ∈ (handlePacket (peerPacket .down 0) 66 255 c).toOption.map Prod.snd,
        c'.dsess.localData.state.state ≠ c.dsess.localData.state.state)
    (by decide +kernel)
  refine ⟨w, c, hw, hc, hcfg, hv, ?_⟩
  rintro ⟨-, c', hok, hu, -⟩
  exact hinit c' (by rw [hok]; rfl) (congrArg (·.state.state) hu.loc)

end Bbdd.Daemon
