import Bbdd.Datapath.Airs
import Bbdd.Poll.Stages

namespace Bbdd.Poll

open Lib.Program Packet Prog Datapath

theorem Updating.drift {c c' : Ctx} (h : Updating c c') : Drift c c' := by
  cases h with
  | bsess => exact { Drift.refl c with }
  | ends => exact { Drift.refl c with }
  | shwaitStop h => exact (timed_shwaitStop _ _ _ h).drift
  | shwaitStart h => exact (timed_shwaitStart _ _ _ h).drift
  | output o => exact (timed_output o _ _ _ rfl).drift

theorem drift_handleSessionUpdate : Within Drift handleSessionUpdate :=
  within_of_moves (fun _ _ => Updating.drift) updates_handleSessionUpdate

theorem drift_takeQdChange : Within Drift takeQdChange := within_of_moves
    (fun _ _ => Updating.drift) updates_takeQdChange

section

variable {n : Nat} {d : UInt32} {rate : UInt32 × UInt32} {c c' : Ctx} {r : Except String Unit}

theorem gotFinal_dfrData (h : gotFinal c = .ok ((), c')) : c'.bsess.dfrData = c.bsess.dfrData := by
  obtain ⟨_, c₁, hw, h⟩ := bind_ok.mp h
  cases hw
  exact (within_sessionCallUpdate _ _ _ h).dfrData

theorem gotFinal_airs (h : gotFinal c = .ok ((), c')) (hp : BfdPort c.dsess) (ha : Aired d rate n c.bpf) :
    Aired d rate n c'.bpf := by
  obtain ⟨_, c₁, hw, h⟩ := bind_ok.mp h
  cases hw
  exact sessionCallUpdate_airs h hp (fun hb => by cases hb) ha

theorem gotNonFinal_airs (h : gotNonFinal c = .ok ((), c')) (hp : BfdPort c.dsess)
    (hr : pace c'.bsess.dfrData = rate) (ha : Aired d rate n c.bpf) :
    BfdPort c'.dsess ∧ Aired d rate n c'.bpf := by
  obtain ⟨c₁, h, h₁⟩ := gotNonFinal_ok h
  have hd : Drift (concluded c) c₁ := by
    split at h₁
    · exact drift_takeQdChange _ _ _ h₁
    · rw [h₁]
      exact .refl _
  have hf := within_sessionCallUpdate _ _ _ h
  have hp₁ : BfdPort c₁.dsess := hd.dport hp
  refine ⟨hf.dsess ▸ hp₁, sessionCallUpdate_airs h hp₁ (fun _ => by rw [← hf.dfrData, hr]) ?_⟩
  exact @Airs.drift _ n (concluded c) c₁ ha hd

theorem shwaitTimerCb_airs (h : shwaitTimerCb c = .ok ((), c')) (hp : BfdPort c.dsess)
    (hr : pace c'.bsess.dfrData = rate) (ha : Aired d rate n c.bpf) :
    BfdPort c'.dsess ∧ Aired d rate n c'.bpf := by
  obtain ⟨_, c₁, h₁, h⟩ := bind_ok.mp h
  have hd := (timed_shwaitStop _ _ _ h₁).drift
  exact gotNonFinal_airs h (hd.dport hp) hr (ha.drift hd)

theorem acceptPacket_airs {p : Parsed} (h : acceptPacket p c = .ok ((), c')) (hp : BfdPort c.dsess)
    (hr : pace c'.bsess.dfrData = rate) (ha : Aired d rate n c.bpf) : Aired d rate n c'.bpf := by
  obtain ⟨c₁, c₂, c₃, hst⟩ := acceptPacket_ok h
  have hf := hst.frame
  have hp₃ : BfdPort c₃.dsess := hf.dsess ▸ hp
  -- until the poll sequence moves on, the session polls what it did
  have upto (hq : c.bsess.bstate = .awaitFinal → pace c.bsess.dfrData = rate) : Aired d rate n c₃.bpf := by
    have ha₁ : Aired d rate n c₁.bpf :=
      reported_airs hst.rearmed (fun _ _ h₁ => sessionInjectPkt_airs h₁ hp (.inl rfl) ha)
    have hf₁ := within_reported (within_sessionInjectPkt .rx 0) _ _ _ _ hst.rearmed
    have h₂ : BfdPort c₂.dsess ∧ Aired d rate n c₂.bpf := by
      have htold := hst.told
      split at htold
      · rw [htold]
        exact ⟨hp, ha₁⟩
      · refine ⟨(within_sessionStateChanged _ _ _ htold).dsess ▸ hp, sessionStateChanged_airs htold
          hp (fun hb => ?_) ha₁⟩
        have hb : c₁.bsess.bstate = .awaitFinal := hb
        rw [hf₁.bstate] at hb
        rw [hf₁.dfrData]
        exact hq hb
    have hrep := hst.replied
    cases hpoll : p.poll <;> rw [hpoll] at hrep
    · obtain ⟨-, rfl⟩ := pure_ok.mp hrep
      exact h₂.2
    · exact respondPoll_airs hrep h₂.1 h₂.2
  obtain ⟨-, -, h₄⟩ | ⟨hb, -, h₄⟩ | ⟨-, -, -, rfl⟩ := concludePacket_ok hst.concluded
  · refine gotFinal_airs h₄ hp₃ (upto (fun _ => ?_))
    rw [← hf.dfrData, ← gotFinal_dfrData h₄, hr]
  · refine (gotNonFinal_airs h₄ hp₃ hr (upto (fun hb' => ?_))).2
    rw [hf.bstate] at hb
    exact absurd (hb'.symm.trans hb) (by simp)
  · exact upto (fun _ => by rw [← hf.dfrData, hr])

theorem handlePacket_airs {packet : BfdPkt} {wireLen : UInt32} {ttl : UInt8}
    (h : handlePacket packet wireLen ttl c = .ok ((), c')) (hp : BfdPort c.dsess)
    (hr : pace c'.bsess.dfrData = rate) (ha : Aired d rate n c.bpf) :
    Aired d rate n c'.bpf := by
  obtain ⟨-, stats, diagStats, rfl⟩ | ⟨p, -, -, h⟩ := handlePacket_ok h
  · exact ha
  · exact @acceptPacket_airs n d rate (counted c wireLen) c' p h hp hr ha

theorem timeoutDown_airs (h : timeoutDown c = .ok ((), c')) (hp : BfdPort c.dsess)
    (hr : pace c'.bsess.dfrData = rate) (ha : Aired d rate n c.bpf) : Aired d rate n c'.bpf := by
  have h := timeoutDown_ok h
  split at h
  · have hf := within_sessionStateChanged _ _ _ h
    exact sessionStateChanged_airs h hp (fun _ => by rw [← hf.dfrData, hr]) ha
  · rw [h]
    exact ha

theorem timeoutDown_dfrData (h : timeoutDown c = .ok ((), c')) : c'.bsess.dfrData = c.bsess.dfrData := by
  have h := timeoutDown_ok h
  split at h
  · exact (within_sessionStateChanged _ _ _ h).dfrData
  · rw [h]

theorem handleTimeout_airs (h : handleTimeout c = .ok ((), c')) (hp : BfdPort c.dsess)
    (hr : pace c'.bsess.dfrData = rate) (ha : Aired d rate n c.bpf) : Aired d rate n c'.bpf := by
  obtain ⟨c₁, hdown, h₁⟩ := handleTimeout_ok h
  have hr₁ : pace c₁.bsess.dfrData = rate := by rw [← timeoutDown_dfrData hdown, hr]
  have h₁ : BfdPort c₁.dsess ∧ Aired d rate n c₁.bpf := by
    cases hb : c.bsess.bstate <;> simp only [hb] at h₁
    · rw [h₁]
      exact ⟨hp, ha⟩
    · exact gotNonFinal_airs h₁ hp hr₁ ha
    · exact gotNonFinal_airs h₁ hp hr₁ ha
    · exact shwaitTimerCb_airs h₁ hp hr₁ ha
  exact timeoutDown_airs hdown h₁.1 hr h₁.2

theorem holdTimerCb_airs (h : holdTimerCb c = .ok ((), c')) (hp : BfdPort c.dsess)
    (ha : Aired d rate n c.bpf) :
    Aired d rate n c'.bpf := by
  obtain ⟨c₁, h₁, h⟩ := holdTimerCb_ok h
  have ha₁ := @sessionStateChanged_airs n (released c) c₁ d rate h₁ hp (fun hb => by cases hb) ha
  exact ha₁.drift (timed_holdStop _ _ _ h).drift

theorem sessionUpdate_airs (h : sessionUpdate c = .ok (r, c')) (hp : BfdPort c.dsess)
    (hr : pace c'.bsess.dfrData = rate) (ha : Aired d rate n c.bpf) : Aired d rate n c'.bpf := by
  obtain ⟨-, -, rfl⟩ | ⟨-, r₁, c₁, h₁, h⟩ := sessionUpdate_ok h
  · exact ha
  · have hd := drift_handleSessionUpdate _ _ _ h₁
    cases r₁ with
    | error e =>
      rw [h.2]
      exact ha.drift hd
    | ok _ =>
      have hf := within_sessionUpdateInner _ _ _ h
      exact sessionUpdateInner_airs h (hd.dport hp) (fun _ => by rw [← hf.dfrData, hr]) (ha.drift hd)

end

end Bbdd.Poll
