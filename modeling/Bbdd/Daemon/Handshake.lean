import Bbdd.Daemon.Replay
import Bbdd.Datapath.Tables

namespace Bbdd.Daemon

open Lib.Transition Packet Session Prog TxQueue Datapath Poll

def Screening (b : Bpf) : Prop := ∀ elem ∈ b.kernel.ring, elem.Screened

section

variable {w w' : World} {l : Label} {d : UInt32}

theorem Shared.screening {b b' : Bpf} (h : Shared b b') (hs : Screening b) : Screening b' := by
  have of_served : Served b.kernel b'.kernel → Screening b' := fun hk elem he =>
    (hk.ring elem he).elim (hs elem) id
  cases h with
  | ask => exact of_served (ask_served _)
  | kernel ev => exact of_served (Kernel.step_served ..)
  | output | count | disarm => exact of_served (.refl _)
  | pop hr => exact fun elem he => hs elem (hr ▸ List.mem_cons_of_mem _ he)

theorem screening_moves {own : Option UInt32} {c c' : Ctx} (hm : Moves own c c') (hb : c.bpf = w.bpf)
    (hs : Screening w.bpf) : Screening c'.bpf :=
  fun elem he => (hm.ring elem he).elim (fun h => hs elem (hb ▸ h)) id

theorem Step.screening (h : Step l w w') (hw : Sound w) (hs : Screening w.bpf) : Screening w'.bpf := by
  cases h with
  | shared hb => exact hb.screening hs
  | handled hc hh => exact screening_moves (hw.handled hc hh).moves (session_eq_some.mp hc).2.2 hs
  | create hn hb ht hr => exact screening_moves (hw.added hr).1 rfl hs
  | refuse hn hb hr => exact screening_moves (hw.added hr).1 rfl hs
  | remove hc hr => exact screening_moves (hw.deleted hc hr).1 (session_eq_some.mp hc).2.2 hs

theorem reachable_screening (h : Reachable daemon w) : Screening w.bpf := by
  have hboth : Sound w ∧ Screening w.bpf := by
    refine h.invariant (I := fun w => Sound w ∧ Screening w.bpf) ?_ (fun w ⟨env, e⟩ w' hi hstep => ?_)
    · rintro s ⟨rx, tx, cap, answers, -, rfl⟩
      exact ⟨start_sound rx tx cap answers, fun elem he => absurd he List.not_mem_nil⟩
    · exact ⟨step_sound hi.1 hstep, step_keeps (I := fun w => Screening w.bpf)
        (fun _ _ _ hv hs hi => hs.screening hv hi) hi.1 hstep hi.2⟩
  exact hboth.2

end

/-- A packet that may bring a session up: it is for this session, by a peer
that is coming up or up, and it passes every check. -/
structure Handshake (d : UInt32) (c : Ctx) (packet : BfdPkt) (ttl : UInt8) : Prop where
  yourDisc : ntoh32 packet.yourDisc = d
  myDisc : ntoh32 packet.myDisc ≠ 0
  peer : pktState packet = .init ∨ pktState packet = .up
  mult : packet.detectionMultiplier ≠ 0
  multi : hasBit (pktBits packet) bitMulti = false
  auth : hasBit (pktBits packet) (bitAuth ||| bitDemand) = false
  echo : ntoh32 packet.requiredEchoRx = 0
  ttl : c.dsess.ttl ≤ ttl
  loc : c.dsess.localData.state.state = .down ∨ c.dsess.localData.state.state = .init
  held : c.bsess.bstate ≠ .onHold
  shutting : c.bsess.bstate ≠ .shuttingDown

section

variable {w w' : World} {d : UInt32} {c c' : Ctx} {packet : BfdPkt} {ttl : UInt8} {p : Parsed}

theorem parsePacket_unnamed {remote : SessionData} (h : parsePacket packet remote = .ok p)
    (hy : ntoh32 packet.yourDisc = 0) :
    pktState packet = .adminDown ∨ pktState packet = .down := by
  simp only [parsePacket] at h
  split_ifs at h with h₁ h₂ h₃ h₄ h₅
  by_contra hno
  rw [not_or] at hno
  exact h₅ ⟨hy, hno⟩

theorem taken_handshake (h : taken c packet ttl = some p) (hy : ntoh32 packet.yourDisc = d)
    (hpeer : pktState packet = .init ∨ pktState packet = .up)
    (hl : c.dsess.localData.state.state = .down ∨ c.dsess.localData.state.state = .init) :
    Handshake d c packet ttl := by
  have hp := taken_parsed h
  unfold taken at h
  split_ifs at h with hb ha ht
  rw [not_or] at hb
  simp only [parsePacket] at hp
  split_ifs at hp with h₁ h₂ h₃ h₄ h₅
  rw [not_or, not_not] at h₁
  exact ⟨hy, h₄, hpeer, h₃, by simpa using h₂, by simpa using h₁.2, h₁.1, UInt8.not_lt.mp ht, hl, hb.1, hb.2⟩

theorem calls_packet {nl : Nl} {e : Event} {h : Handler} {rem : PktState} {mult : UInt8} {final : Bool}
    (hcall : Calls nl w e (.handler d h)) (hcause : h.cause c = some (.packet rem mult final)) :
    ∃ packet wireLen ttl elem rest p, e = .ringbuf ∧ w.bpf.kernel.ring = elem :: rest ∧
      ((elem = .rxUnxPkt wireLen ttl packet ∧ ntoh32 packet.yourDisc = d) ∨
        ∃ ifindex ethtype multihop saddr daddr, elem = .rxDiscr0 ifindex wireLen ethtype ttl
          multihop saddr daddr packet) ∧
      taken c packet ttl = some p ∧ rem = pktState packet := by
  cases hcall with
  | set => cases hcause
  | @timer t ht =>
    obtain ⟨id, fn, discr, owner⟩ := t
    cases fn <;> cases hcause
  | @ring elem rest _ hring hr =>
    obtain ⟨-, rfl⟩ | ⟨packet, wireLen, ttl, rfl, helem⟩ := ringCall_handler hr
    · cases hcause
    · obtain ⟨p, hp, hq⟩ := Option.map_eq_some_iff.mp hcause
      cases hq
      refine ⟨packet, wireLen, ttl, elem, rest, p, rfl, hring, helem.imp_right ?_, hp, ?_⟩
      · rintro ⟨ifindex, ethtype, multihop, saddr, daddr, -, -, rfl, -⟩
        exact ⟨ifindex, ethtype, multihop, saddr, daddr, rfl⟩
      · exact (parsePacket_ok (taken_parsed hp)).2.1

end

/-- A session that is up was so before, or it is the handling of a received
packet of the handshake that brought it up. -/
theorem up_handshake {w w' : World} {env : Env} {e : Event} (h : Reachable daemon w)
    (hs : daemon.step w (env, e) w') {d : UInt32} {c' : Ctx} (hc' : w'.session d = some c')
    (hup : c'.dsess.localData.state.state = .up) :
    (∃ c, w.session d = some c ∧ c.dsess.localData.state.state = .up) ∨
    ∃ c wireLen ttl packet rest, e = .ringbuf ∧ w.bpf.kernel.ring = .rxUnxPkt wireLen ttl packet :: rest ∧
      w.session d = some c ∧ Handshake d c packet ttl := by
  have hm' : w'.machine d = some (view c') := by rw [World.machine, hc']; rfl
  obtain he | he | ⟨-, -, hm, hb⟩ | ⟨hm, hc, hen, -, -, hm₁⟩ := step_machine (reachable_sound h) hs d
  · obtain ⟨c, hc, hv⟩ := Option.map_eq_some_iff.mp (he.symm.trans hm')
    exact .inl ⟨c, hc, (congrArg Machine.loc hv).trans hup⟩
  · rw [he] at hm'
    cases hm'
  · -- a new session is down
    rw [hm'] at hm
    cases hm
    have := hb.loc
    rw [show (view c').loc = .up from hup] at this
    cases this
  · rw [hm'] at hm₁
    obtain ⟨c, hd, hcs, hcall, hcause⟩ := hc
    have hv : view c = _ := Option.some.inj (by rw [← hm, World.machine, hcs]; rfl)
    rw [← hv] at hm₁
    obtain hl | ⟨hl, rem, mult, final, rfl, hrem⟩ :=
      stir_up ((congrArg Machine.loc (Option.some.inj hm₁)).symm.trans hup)
    · exact .inl ⟨c, hcs, hl⟩
    · obtain ⟨packet, wireLen, ttl, elem, rest, p, rfl, hring, helem, htaken, hstate⟩ :=
        calls_packet hcall hcause
      rw [hstate] at hrem
      obtain ⟨rfl, hy⟩ | ⟨ifindex, ethtype, multihop, saddr, daddr, rfl⟩ := helem
      · exact .inr ⟨c, wireLen, ttl, packet, rest, rfl, hring, hcs, taken_handshake htaken hy hrem hl⟩
      · -- without a discriminator the peer can only be down
        have hscreen := reachable_screening h _ (hring ▸ List.mem_cons_self)
        obtain hst | hst := parsePacket_unnamed (taken_parsed htaken) hscreen.2.2 <;> rw [hst]
          at hrem <;> simp at hrem

theorem up_handshake_third : ∃ (w w' : World) (c c' : Ctx) (packet : BfdPkt) (ttl : UInt8),
    daemon.step w (.plain, .ringbuf) w' ∧ w.session 5 = some c ∧ w'.session 5 = some c' ∧
    c.dsess.localData.state.state = .init ∧ c'.dsess.localData.state.state = .up ∧ Handshake 5 c packet ttl := by
  obtain ⟨w, c, hr, hc, hinit, w', hw', c', hc', hup⟩ := exists_replayed
    (inPlain ([.addFive none none, .timer 0 none] ++ arrival (peerPacket .down 0) ++
      [.kernel (.recv ⟨.ok, true, true⟩ true (peerFrame (peerPacket .up 0)))]))
    (P := fun w c => c.dsess.localData.state.state = .init ∧
      ∃ w' ∈ replay w (inPlain [.ringbuf]), ∃ c' ∈ w'.session 5, c'.dsess.localData.state.state = .up)
    (by decide +kernel)
  have hs : daemon.step w (.plain, .ringbuf) w' := replay_step hw'
  obtain ⟨c₁, hc₁, hl⟩ | ⟨c₁, wireLen, ttl, packet, rest, -, -, hc₁, hh⟩ := up_handshake hr hs hc' hup
  · obtain rfl : c = c₁ := Option.some.inj (hc.symm.trans hc₁)
    rw [hinit] at hl
    cases hl
  · obtain rfl : c = c₁ := Option.some.inj (hc.symm.trans hc₁)
    exact ⟨w, w', c, c', packet, ttl, hs, hc, hc', hinit, hup, hh⟩

end Bbdd.Daemon
