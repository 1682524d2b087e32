import Bbdd.Daemon.Fate
import Bbdd.Daemon.Admin
import Bbdd.Poll.Stages

namespace Bbdd.Poll

open Packet Session Datapath

section

variable (m : Machine) (fresh : Option Nat)

theorem settle_eff (d : Decision) : (m.settle fresh d).eff = m.eff := by
  simp only [Machine.settle, Machine.enable_eq, Machine.begin]
  split
  · rfl
  · split <;> rfl

theorem applied_eff (h : m.bstate ≠ .stable) : m.applied.eff = m.eff := by
  unfold Machine.applied Machine.setBdata
  split
  · cases hb : m.bstate <;> first | exact absurd hb h | rfl
  · rfl

theorem update_eff : (m.update fresh).eff = if m.bstate = .stable then m.applied.eff else m.eff := by
  cases hb : m.bstate with
  | onHold => rw [Machine.update_onHold hb]; rfl
  | stable => rw [Machine.update_stable hb, settle_eff]; rfl
  | awaitFinal =>
    rw [Machine.update_await (.inl hb)]
    split <;> exact applied_eff m (by simp [hb])
  | awaitNonFinal =>
    rw [Machine.update_await (.inr hb)]
    split <;> exact applied_eff m (by simp [hb])
  | shuttingDown =>
    have happ := applied_eff m (by simp [hb])
    rw [Machine.update_shuttingDown hb]
    split
    · obtain ⟨s, l, hst⟩ := m.applied.stop_shape
      rw [settle_eff, hst]
      exact happ
    · rw [settle_eff]
      exact happ

variable {m}

theorem applied_spares (hb : m.bstate = .stable) (hl : m.loc = .up) :
    m.applied.eff.timing.minTxUs ≤ m.eff.timing.minTxUs ∧
      m.eff.timing.minRxUs ≤ m.applied.eff.timing.minRxUs := by
  have hbd : m.bdata = m.eff := by simp [Machine.bdata, hb]
  unfold Machine.applied
  split
  · rename_i ha
    have hc : ¬ m.Closes := by
      intro hc
      rw [decision_closes hc] at ha
      cases ha
    unfold Machine.decision updateDecision at ha
    rw [if_neg (by simpa [Machine.Closes] using hc), hbd] at ha
    simp only [hl, true_and, Bool.not_eq_true', Bool.or_eq_false_iff, decide_eq_false_iff_not] at ha
    simp only [Machine.setBdata, hb]
    exact ⟨UInt32.not_lt.mp ha.1, UInt32.not_lt.mp ha.2⟩
  · exact ⟨UInt32.le_refl _, UInt32.le_refl _⟩

end

end Bbdd.Poll

namespace Bbdd.Daemon

open Lib.Program Lib.Directory Lib.Transition Packet Session Prog TxQueue Datapath Poll

def Awaits (c : Ctx) : Prop :=
  c.bsess.bstate = .awaitFinal ∨ c.bsess.bstate = .awaitNonFinal ∨ c.bsess.bstate = .shuttingDown

/-- The configurations of a session, and where its poll sequence stands, are
as they were. -/
structure Still (c c' : Ctx) : Prop where
  bstate : c'.bsess.bstate = c.bsess.bstate
  effData : c'.bsess.effData = c.bsess.effData
  dfrData : c'.bsess.dfrData = c.bsess.dfrData
  qdChange : c'.bsess.qdChange = c.bsess.qdChange

theorem Still.refl (c : Ctx) : Still c c := ⟨rfl, rfl, rfl, rfl⟩

/-- The call that ended a poll sequence or a shutdown wait: it was made with
the configurations the session had, and left the one now in force. -/
def Concluded (c c' : Ctx) : Prop :=
  ∃ c₁ c₂, Still c c₁ ∧ gotNonFinal c₁ = .ok ((), c₂) ∧ c'.bsess.effData = c₂.bsess.effData

section

variable {c c' : Ctx} {n : Nat} {d : UInt32}

theorem still_frame (h : Frame c c') : Still c c' := ⟨h.bstate, h.effData, h.dfrData, h.qdChange⟩

theorem still_timed (h : Timed c c') : Still c c' := by
  obtain ⟨-, ⟨s, o, hb⟩, -⟩ := h
  exact ⟨by rw [hb], by rw [hb], by rw [hb], by rw [hb]⟩

theorem set_spares (hok : SessionOk n d c) {csess : CSession} {applied : DSession} {r : Except String Unit}
    (ha : Applied c.dsess csess applied) (h : sessionUpdate { c with dsess := applied } = .ok (r, c')) :
    (c.dsess.localData.state.state = .up → c'.bsess.effData.timing.minTxUs ≤ c.bsess.effData.timing.minTxUs ∧
      c.bsess.effData.timing.minRxUs ≤ c'.bsess.effData.timing.minRxUs) ∧
    (Awaits c → c'.bsess.effData = c.bsess.effData) := by
  by_cases hb : c.bsess.bstate = .onHold
  · obtain ⟨-, rfl⟩ := wp_ok (sessionUpdate_hold (c := { c with dsess := applied }) hb) h
    exact ⟨fun _ => ⟨UInt32.le_refl _, UInt32.le_refl _⟩, fun _ => rfl⟩
  · have hv := view_applied ha
    have hfit : Fit (view { c with dsess := applied }) := by
      rw [hv]
      exact { hok.fit hb with userMult := ha.mult }
    obtain ⟨fresh, -, -, hv'⟩ := wp_ok (sessionUpdate_runs hfit) h
    have heff := congrArg Machine.eff hv'
    rw [update_eff, hv] at heff
    by_cases hst : c.bsess.bstate = .stable
    · rw [if_pos (show Machine.bstate _ = .stable from hst)] at heff
      refine ⟨fun hl => ?_, fun hw => ?_⟩
      · have hs := applied_spares (m := { view c with user := userBdata applied }) hst hl
        rw [← heff] at hs
        exact hs
      · obtain hw | hw | hw := hw <;> rw [hw] at hst <;> cases hst
    · rw [if_neg (show ¬ Machine.bstate _ = .stable from hst)] at heff
      have he : c'.bsess.effData = c.bsess.effData := heff
      exact ⟨fun _ => by rw [he]; exact ⟨UInt32.le_refl _, UInt32.le_refl _⟩, fun _ => he⟩

theorem gotFinal_eff (h : gotFinal c = .ok ((), c')) : c'.bsess.effData = c.bsess.effData := by
  obtain ⟨_, _, hu, h⟩ := bind_ok.mp h
  cases hu
  exact (within_sessionCallUpdate _ _ _ h).effData

theorem timeoutDown_eff (h : timeoutDown c = .ok ((), c')) : c'.bsess.effData = c.bsess.effData := by
  have h := timeoutDown_ok h
  split at h
  · exact (within_sessionStateChanged _ _ _ h).effData
  · rw [h]

theorem packet_concludes {packet : BfdPkt} {wireLen : UInt32} {ttl : UInt8}
    (h : handlePacket packet wireLen ttl c = .ok ((), c'))
    (hne : c'.bsess.effData ≠ c.bsess.effData) : Concluded c c' := by
  obtain ⟨-, stats, diagStats, rfl⟩ | ⟨p, -, -, h⟩ := handlePacket_ok h
  · exact absurd rfl hne
  · obtain ⟨c₁, c₂, c₃, hst⟩ := acceptPacket_ok h
    have hs := still_frame hst.frame
    have hs' : Still c c₃ := ⟨hs.bstate, hs.effData, hs.dfrData, hs.qdChange⟩
    obtain ⟨-, -, hf⟩ | ⟨-, -, hn⟩ | ⟨-, -, -, rfl⟩ := concludePacket_ok hst.concluded
    · exact absurd ((gotFinal_eff hf).trans hs'.effData) hne
    · exact ⟨c₃, c', hs', hn, rfl⟩
    · exact absurd hs'.effData hne

theorem shwait_concludes (h : shwaitTimerCb c = .ok ((), c')) : Concluded c c' := by
  obtain ⟨_, c₁, h₁, h₂⟩ := bind_ok.mp h
  exact ⟨c₁, c', still_timed (timed_shwaitStop _ _ _ h₁), h₂, rfl⟩

theorem timeout_concludes (hw : Awaits c) (h : handleTimeout c = .ok ((), c')) : Concluded c c' := by
  obtain ⟨c₁, hdown, h⟩ := handleTimeout_ok h
  have heff := timeoutDown_eff hdown
  obtain hb | hb | hb := hw <;> simp only [hb] at h
  · exact ⟨c, c₁, .refl c, h, heff⟩
  · exact ⟨c, c₁, .refl c, h, heff⟩
  · obtain ⟨c₂, c₃, hs, hn, he⟩ := shwait_concludes h
    exact ⟨c₂, c₃, hs, hn, heff.trans he⟩

theorem Handled.concludes {h : Handler} (hh : Handled h c c') (hok : SessionOk n d c)
    (ht : TimersOk c) (hw : Awaits c) (hne : c'.bsess.effData ≠ c.bsess.effData) :
    Concluded c c' := by
  have hm := (hh.handling hok ht).machine
  cases hh with
  | @set _ c₁ r applied csess ha hu hr =>
    have he : (announced r (decide (applied ≠ c.dsess)) c₁).bsess = c₁.bsess := by
      obtain he | he := announced_eq r (decide (applied ≠ c.dsess)) c₁ <;> rw [he]
    rw [he] at hne
    exact absurd ((set_spares hok ha hr).2 hw) hne
  | packet packet wireLen ttl hr => exact packet_concludes hr hne
  | timeout hr => exact timeout_concludes hw hr
  | hold id hmem hr =>
    have hon : c.bsess.hold = some id := hm.1
    have hb : (view c).bstate ≠ .onHold := by
      intro hb
      obtain hw | hw | hw := hw <;> exact absurd (hw.symm.trans hb) (by decide)
    rw [show c.bsess.hold = none from (hok.sane.fit hb).2] at hon
    cases hon
  | shwait id hmem hr =>
    obtain ⟨c₁, c₂, hs, h₂, he⟩ := shwait_concludes hr
    exact ⟨c₁, c₂, hs, h₂, he⟩
  | drain kind hl hr => exact absurd (congrArg Machine.eff hm) hne

theorem step_concludes {w w' : World} {env : Env} {e : Event} (hw : Sound w) (h : daemon.step w (env, e) w')
    (hc : w.session d = some c) (hc' : w'.session d = some c') (ha : Awaits c)
    (hne : c'.bsess.effData ≠ c.bsess.effData) : Concluded c c' := by
  cases step_stays hw h hc hc' with
  | apart _ hbs =>
    rw [hbs] at hne
    exact absurd rfl hne
  | handled _ hv _ hcv _ hh _ _ =>
    obtain ⟨c₁, c₂, hs, hg, he⟩ := hh.concludes (hv.session d _ hcv) (hv.timersOk hcv) ha hne
    exact ⟨c₁, c₂, ⟨hs.bstate, hs.effData, hs.dfrData, hs.qdChange⟩, hg, he⟩
  | drained _ hdr =>
    have hm := hdr.machine (hw.enter env) d
    rw [machine_enter, World.machine, World.machine, hc, hc'] at hm
    exact absurd (congrArg Machine.eff (Option.some.inj hm)) hne

end

/-- The rule of the RFC for a change of the timing. While a session is up, a
request neither makes it send slower nor has the peer send faster at once; in
the middle of a poll sequence or of a shutdown it changes nothing that is in
force, and nothing else does until the sequence is concluded. -/
theorem timing_rule :
    (∀ {nl : Nl} {csess : CSession} {w : World} {d : UInt32} {c c' : Ctx} {applied : DSession} {changed : Bool}
      {r : Except String Unit}, Meets w d c → sessionApplyC nl c.dsess csess = .ok (applied, changed) →
      sessionUpdate { c with dsess := applied } = .ok (r, c') →
      (c.dsess.localData.state.state = .up → c'.bsess.effData.timing.minTxUs ≤ c.bsess.effData.timing.minTxUs ∧
        c.bsess.effData.timing.minRxUs ≤ c'.bsess.effData.timing.minRxUs) ∧
      (Awaits c → c'.bsess.effData = c.bsess.effData)) ∧
    ∀ {w w' : World} {env : Env} {e : Event} {d : UInt32} {c c' : Ctx}, Reachable daemon w →
      daemon.step w (env, e) w' →
      w.session d = some c → w'.session d = some c' → Awaits c →
        c'.bsess.effData ≠ c.bsess.effData → Concluded c c' := by
  constructor
  · intro nl csess w d c c' applied changed r hc ha h
    obtain ⟨n, hok⟩ := hc.ok
    exact set_spares hok (sessionApplyC_ok ha) h
  · intro w w' env e d c c' hw h hc hc' ha hne
    exact step_concludes (reachable_sound hw) h hc hc' ha hne

theorem timing_rule_slower :
    (∃ (w : World) (c c' : Ctx) (applied : DSession), Meets w 5 c ∧ c.dsess.localData.state.state = .up ∧
      requested .plain { CSession.blank with minTxUs := some 2000000 } c = some (applied, c') ∧
      c'.bsess.effData.timing.minTxUs ≤ c.bsess.effData.timing.minTxUs) ∧
    ∃ (w w' : World) (c c' : Ctx), w.session 5 = some c ∧ w'.session 5 = some c' ∧
      daemon.step w (.plain, .ringbuf) w' ∧
      c.bsess.bstate = .awaitNonFinal ∧ Concluded c c' := by
  constructor
  · obtain ⟨w, c, hw, hc, hup, hr⟩ := exists_replayed (inPlain bringUp)
      (P := fun w c => c.dsess.localData.state.state = .up ∧
        (requested .plain { CSession.blank with minTxUs := some 2000000 }
          { c with bpf := (w.enter .plain).bpf }).isSome = true)
      (by decide +kernel)
    obtain ⟨⟨applied, c'⟩, hr⟩ := Option.isSome_iff_exists.mp hr
    have hm := Meets.of_session hw hc .plain
    obtain ⟨changed, ha, hu⟩ := requested_inv hr
    exact ⟨w, _, c', applied, hm, hup, hr, ((timing_rule.1 hm ha hu).1 hup).1⟩
  · obtain ⟨w, c, hw, hc, hb, he, hr⟩ := exists_replayed
      (inPlain (settledUp ++ [.setFive none (some 2000000), .kernel (.pass 0 routed)] ++ arrival
        (peerPacket .up bitFinal) ++
        [.kernel (.pass 0 routed), .kernel (.recv ⟨.ok, true, true⟩ true (peerFrame (peerPacket .up 0)))]))
      (P := fun w c => c.bsess.bstate = .awaitNonFinal ∧ c.bsess.effData.timing.minTxUs = 1000000 ∧
        (replay w (inPlain [.ringbuf])).any (fun w' => (w'.session 5).any fun c' =>
          c'.bsess.effData.timing.minTxUs = 2000000) = true) (by decide +kernel)
    obtain ⟨w', hs, hr⟩ := (Option.any_eq_true _ _).mp hr
    obtain ⟨c', hc', he'⟩ := (Option.any_eq_true _ _).mp hr
    have hne : c'.bsess.effData ≠ c.bsess.effData := by
      intro heq
      have : c'.bsess.effData.timing.minTxUs = 2000000 := of_decide_eq_true he'
      rw [heq, he] at this
      exact absurd this (by decide)
    have hstep := replay_step hs
    exact ⟨w, w', c, c', hc, hc', hstep, hb, timing_rule.2 hw hstep hc hc' (.inr (.inl hb)) hne⟩

end Bbdd.Daemon
