import Bbdd.Daemon.Coherence
import Bbdd.Daemon.FastPath
import Bbdd.Poll.Ends

namespace Bbdd.Daemon

open Lib.Program Lib.Transition Packet Session Prog Datapath Poll

/-- The packet ends a poll sequence in which the user asked for a shutdown, so
that the shutdown starts with it. -/
def Closes (c : Ctx) (packet : BfdPkt) : Prop :=
  c.bsess.bstate = .awaitNonFinal ∧ hasBit (pktBits packet) bitFinal = false ∧ c.bsess.qdChange = true ∧
    c.bsess.dfrData.shutdown = false ∧ c.dsess.localData.flags.shutdown = true

section

variable {c c' : Ctx} {p : Parsed} {packet : BfdPkt}

theorem acceptPacket_remote (h : acceptPacket p c = .ok ((), c'))
    (hq : ¬ (c.bsess.bstate = .awaitNonFinal ∧ p.final = false ∧ c.bsess.qdChange = true ∧
      c.bsess.dfrData.shutdown = false ∧ c.dsess.localData.flags.shutdown = true)) :
    c'.dsess.remoteData = p.remote ∧ c'.dsess.localData.discr = c.dsess.localData.discr := by
  obtain ⟨c₁, c₂, c₃, hst⟩ := acceptPacket_ok h
  have hf := hst.frame
  have hd : c₃.dsess = heardEnds c.dsess p := hf.dsess
  obtain ⟨-, -, h⟩ | ⟨hb, hfin, h⟩ | ⟨-, -, -, rfl⟩ := concludePacket_ok hst.concluded
  · obtain ⟨_, _, hw, h⟩ := bind_ok.mp h
    cases hw
    have hs : c'.dsess = c₃.dsess := (within_sessionCallUpdate _ _ _ h).dsess
    rw [hs, hd]
    exact ⟨rfl, rfl⟩
  · have hends : c'.dsess.remoteData = c₃.dsess.remoteData ∧
      c'.dsess.localData.discr = c₃.dsess.localData.discr := by
      obtain hs | ⟨hqd, ht⟩ := gotNonFinal_ends h
      · rw [hs]
        exact ⟨rfl, rfl⟩
      · refine ht.remote (fun ⟨hdfr, hsh⟩ => hq ⟨hf.bstate ▸ hb, hfin, hf.qdChange ▸ hqd, hf.dfrData ▸ hdfr, ?_⟩)
        rw [hd] at hsh
        exact hsh
    rw [hends.1, hends.2, hd]
    exact ⟨rfl, rfl⟩
  · rw [hd]
    exact ⟨rfl, rfl⟩

theorem settled_rxExpect (h : Settled c) :
    ∃ entry, c.bpf.kernel.config c.dsess.localData.discr = some entry ∧
    entry.rxExpect = expectedPacket c.dsess c.bsess := by
  obtain ⟨entry, hw, he⟩ := h
  obtain ⟨args, addrs, rfl⟩ := wanted_eq hw
  exact ⟨_, he, rfl⟩

theorem rxExpectBfdFlags_clear (dsess : DSession) (bsess : BSession) :
    rxExpectBfdFlags dsess bsess &&& ~~~bitFinal = if dsess.remoteData.flags.cpi then bitCpi else 0 := by
  unfold rxExpectBfdFlags bfdSessionFlags
  cases bsess.bstate <;> cases dsess.remoteData.flags.cpi <;> decide

theorem expected_parsed {remote : SessionData} {dsess : DSession} (bsess : BSession)
    (hp : parsePacket packet remote = .ok p) (hv : pktVersion packet = 1) (hl : packet.length = pktSize)
    (hpoll : hasBit (pktBits packet) bitPoll = false) (hr : dsess.remoteData = p.remote)
    (hd : dsess.localData.discr = ntoh32 packet.yourDisc) :
    (expectedPacket dsess bsess).withoutFinal = packet.withoutFinal := by
  simp only [parsePacket] at hp
  split_ifs at hp with h₁ h₂ h₃ h₄ h₅
  cases hp
  rw [not_or, not_not] at h₁
  have hecho : packet.requiredEchoRx = ⟨0⟩ := by rw [← hton32_ntoh32 packet.requiredEchoRx, h₁.1]; decide
  have hbits := hasBit_none (by simpa using h₁.2) (by simpa using h₂) hpoll
  have hflags := rxExpectBfdFlags_clear dsess bsess
  rw [hr] at hflags
  rw [expectedPacket, hr, hd]
  exact makePacket_pkt hv hl hecho hbits hflags

theorem handlePacket_expected {ttl : UInt8} {wireLen : UInt32}
    (h : handlePacket packet wireLen ttl c = .ok ((), c')) (ht : taken c packet ttl = some p)
    (hv : pktVersion packet = 1) (hl : packet.length = pktSize)
    (hpoll : hasBit (pktBits packet) bitPoll = false)
    (hd : c.dsess.localData.discr = ntoh32 packet.yourDisc) (hq : ¬ Closes c packet)
    (hs : Settled c') :
    c'.dsess.localData.discr = c.dsess.localData.discr ∧
      ∃ entry, c'.bpf.kernel.config c'.dsess.localData.discr = some entry ∧
        entry.rxExpect.withoutFinal = packet.withoutFinal ∧
        hasBit (pktBits entry.rxExpect) bitFinal = decide (c'.bsess.bstate = .awaitNonFinal) := by
  obtain ⟨hno, -⟩ | ⟨q, hq', hp, h⟩ := handlePacket_ok h
  · rw [ht] at hno
    cases hno
  · obtain rfl : p = q := Option.some.inj (ht.symm.trans hq')
    obtain ⟨-, -, -, hfin⟩ := parsePacket_ok hp
    obtain ⟨hrem, hdiscr⟩ := acceptPacket_remote h (by rw [hfin]; exact hq)
    obtain ⟨entry, hcfg, he⟩ := settled_rxExpect hs
    refine ⟨hdiscr, entry, hcfg, ?_, ?_⟩
    · rw [he]
      exact expected_parsed _ hp hv hl hpoll hrem (hdiscr.trans hd)
    · rw [he, expectedPacket, final_makePacket]
      exact (rxExpectBfdFlags_bits _ _).2.2.2.2.2

end

/-- A packet without Poll that is taken becomes, up to its Final bit, the
packet the kernel expects, unless a shutdown the user asked for during a poll
sequence starts with it; and where the Final bit is the one to expect, the
kernel expects exactly that packet. -/
theorem accepted_expected {w v : World} {env : Env} {d : UInt32} {c : Ctx} {packet : BfdPkt}
    {ttl : UInt8} {p : Parsed} (h : Run daemon (fun _ l => l.1.Stores ∧ l.1.Supplied) w)
    (hst : env.Stores) (hsup : env.Supplied) (hv : Elsewhere d (w.enter env) v)
    (hc : v.session d = some c) (hvers : pktVersion packet = 1) (hlen : packet.length = pktSize)
    (hyour : ntoh32 packet.yourDisc = d) (hpoll : hasBit (pktBits packet) bitPoll = false)
    (ht : taken c packet ttl = some p) (hq : ¬ Closes c packet) (wireLen : UInt32) :
    wp (handlePacket packet wireLen ttl) (fun _ c' => ⟨d, .periodic⟩ ∉ c'.bpf.tx.periodics →
      ∃ entry, c'.bpf.kernel.config d = some entry ∧ entry.rxExpect.withoutFinal = packet.withoutFinal ∧
        (hasBit (pktBits packet) bitFinal = decide (c'.bsess.bstate = .awaitNonFinal) →
          entry.rxExpect = packet)) c := by
  have hi := (CoherentIn.enter (reachable_sound h.reachable) (run_coherent h) env).elsewhere hst hsup hv
  have hok := hi.sound.session d c hc
  have hbpf := (session_eq_some.mp hc).2.2
  refine wp_mono (wp_eq (packet_runs hok packet wireLen ttl)) (fun _ c' hr => ?_)
  obtain ⟨hr, hh⟩ := hr
  intro hnot
  have hname : c.dsess.localData.discr = d := hok.queue.discr.trans hok.name
  have hok' := (hi.sound.handling hc hh).session d c' (session_put_self ..)
  -- the session was in step before the packet, and the handler keeps it so
  have hcoh : Coherent c' := by
    have hu : Updatable c := ⟨hok.addressed, by rw [hbpf, hi.answers]; exact hst⟩
    exact ((handlePacket_inStep hr hok.dport).renewed hu).elim coherent_of_renewed (hi.coherent d c hc).steady
  have hb' : c'.bsess.bstate ≠ .onHold := by
    have he := taken_enabled ht
    have hm := hh.machine
    rw [show (Handler.packet packet wireLen ttl).cause c =
      some (.packet p.remote.state.state p.remote.timing.detectMult p.final)
      by simp [Handler.cause, ht]] at hm
    obtain ⟨-, fresh, -, hview⟩ := hm
    have hawake := ((hok.fit he.2.1).packet p.remote.state.state he.1 p.final fresh).awake
    exact fun hold => hawake ((congrArg Machine.bstate hview).symm.trans hold)
  have hs : Settled c' := by
    refine (hcoh hb').resolve_right (fun hl => hnot ?_)
    have := (hok'.queue.linked .periodic).mpr hl
    rw [hok'.name] at this
    exact this
  obtain ⟨hdiscr, entry, hcfg, he, hfin⟩ := handlePacket_expected hr ht hvers hlen hpoll
    (hname.trans hyour.symm) hq hs
  rw [hdiscr, hname] at hcfg
  exact ⟨entry, hcfg, he, fun hf => eq_of_withoutFinal he (hfin.trans hf.symm)⟩

def atEvent (w : World) (c : Ctx) : Ctx := { c with bpf := (w.enter .plain).bpf }

theorem accepted_expected_up : ∃ (w : World) (c c' : Ctx) (entry : SessionConfig), w.session 5 = some c ∧
    handlePacket (peerPacket .up 0) 66 255 (atEvent w c) = .ok ((), c') ∧
    c.dsess.localData.state.state = .init ∧ c'.dsess.localData.state.state = .up ∧
    c'.bpf.kernel.config 5 = some entry ∧ entry.rxExpect = peerPacket .up 0 := by
  obtain ⟨w, c, hr, hc, hinit, hq, htaken, hup⟩ := exists_plain (G := fun _ l => l.1.Stores ∧ l.1.Supplied)
    (fun _ _ => ⟨plain_stores, plain_supplied⟩)
    ([.addFive none none, .timer 0 none] ++ arrival (peerPacket .down 0) ++
      [.kernel (.pass 0 routed), .pollout 3, .kernel (.pass 0 routed)])
    (P := fun w c => c.dsess.localData.state.state = .init ∧ c.bsess.qdChange = false ∧
      (taken (atEvent w c) (peerPacket .up 0) 255).isSome = true ∧
      ∀ c' ∈ (handlePacket (peerPacket .up 0) 66 255 (atEvent w c)).toOption.map Prod.snd,
        c'.dsess.localData.state.state = .up ∧ c'.bsess.bstate = .stable ∧ ⟨5, .periodic⟩ ∉ c'.bpf.tx.periodics)
    (by decide +kernel)
  obtain ⟨p, hp⟩ := Option.isSome_iff_exists.mp htaken
  have hs : (w.enter .plain).session 5 = some (atEvent w c) := session_enter hc .plain
  have hcloses : ¬ Closes (atEvent w c) (peerPacket .up 0) := by
    rintro ⟨-, -, hqd, -⟩
    rw [show (atEvent w c).bsess.qdChange = false from hq] at hqd
    cases hqd
  obtain ⟨_, c', hrun, hexp⟩ := accepted_expected hr plain_stores plain_supplied .refl hs
    (by decide : pktVersion (peerPacket .up 0) = 1) rfl (by decide) (by decide) hp hcloses 66
  obtain ⟨hup, hb, hfree⟩ := hup c' (by rw [hrun]; rfl)
  obtain ⟨entry, hcfg, -, heq⟩ := hexp hfree
  exact ⟨w, c, c', entry, hc, hrun, hinit, hup, hcfg, heq (by rw [hb]; decide)⟩

/-- The user asks for a shutdown while the session polls. With the packet that
ends the poll sequence the shutdown starts, and the session writes off its
peer as down: the packet it expects is not the one it has just taken. -/
theorem accepted_not_expected : ∃ (w : World) (c c' : Ctx) (entry : SessionConfig), Reachable daemon w ∧
    w.session 5 = some c ∧ (taken (atEvent w c) (peerPacket .up 0) 255).isSome = true ∧
    handlePacket (peerPacket .up 0) 66 255 (atEvent w c) = .ok ((), c') ∧ ⟨5, .periodic⟩ ∉ c'.bpf.tx.periodics ∧
    c'.bpf.kernel.config 5 = some entry ∧ entry.rxExpect.withoutFinal ≠ (peerPacket .up 0).withoutFinal := by
  obtain ⟨w, c, hr, hc, htaken, hany⟩ := exists_replayed
    (inPlain (settledUp ++ [.setFive none (some 2000000), .kernel (.pass 0 routed), .pollout 3,
      .kernel (.pass 0 routed),
      .setFive (some true) none] ++ arrival (peerPacket .up bitFinal) ++
      [.kernel (.pass 0 routed), .pollout 3, .kernel (.pass 0 routed)]))
    (P := fun w c => (taken (atEvent w c) (peerPacket .up 0) 255).isSome = true ∧
      ∃ c' ∈ (handlePacket (peerPacket .up 0) 66 255 (atEvent w c)).toOption.map Prod.snd,
        ⟨5, .periodic⟩ ∉ c'.bpf.tx.periodics ∧
        ∃ entry ∈ c'.bpf.kernel.config 5, entry.rxExpect.withoutFinal ≠ (peerPacket .up 0).withoutFinal)
    (by decide +kernel)
  obtain ⟨c', hc', hfree, entry, hcfg, hne⟩ := hany
  obtain ⟨⟨_, c₁⟩, hopt, rfl⟩ := Option.map_eq_some_iff.mp hc'
  refine ⟨w, c, c₁, entry, hr, hc, htaken, ?_, hfree, hcfg, hne⟩
  cases hrun : handlePacket (peerPacket .up 0) 66 255 (atEvent w c) with
  | error k => rw [hrun] at hopt; cases hopt
  | ok r => rw [hrun] at hopt; cases hopt; rfl

end Bbdd.Daemon
