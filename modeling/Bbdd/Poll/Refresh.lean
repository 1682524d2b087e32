import Bbdd.Datapath.InStep
import Bbdd.Poll.Stages

namespace Bbdd.Poll

open Lib.Program Packet Session Prog Datapath

/-- All that a change of the configuration being polled can do to what others
see of a session. -/
structure Reset (c c' : Ctx) : Prop where
  dsess : SameButEnds c.dsess c'.dsess
  mute : Mute c c'

instance : Std.Refl Reset := ⟨fun _ => ⟨.refl _, rfl⟩⟩

instance : IsTrans Ctx Reset := ⟨fun _ _ _ h k => ⟨h.dsess.trans k.dsess, trans_of Mute h.mute k.mute⟩⟩

section

variable {b : Bool} {a c c' : Ctx}

theorem Updating.reset (h : Updating c c') : Reset c c' := by
  cases h with
  | bsess => exact ⟨.refl _, rfl⟩
  | ends loc rem => exact ⟨⟨loc, rem, rfl⟩, rfl⟩
  | shwaitStop h => exact ⟨.of_eq (timed_shwaitStop _ _ _ h).dsess, (timed_shwaitStop _ _ _ h).mute⟩
  | shwaitStart h => exact ⟨.of_eq (timed_shwaitStart _ _ _ h).dsess, (timed_shwaitStart _ _ _ h).mute⟩
  | output => exact ⟨.refl _, rfl⟩

theorem reset_handleSessionUpdate : Within Reset handleSessionUpdate :=
  within_of_moves (fun _ _ => Updating.reset) updates_handleSessionUpdate

theorem reset_takeQdChange : Within Reset takeQdChange := within_of_moves
    (fun _ _ => Updating.reset) updates_takeQdChange

theorem gotFinal_inStep (hs : InStep b a c) (h : gotFinal c = .ok ((), c')) : InStep true a c' := by
  obtain ⟨_, c₁, hw, h⟩ := bind_ok.mp h
  have hm : Moves none c c₁ := (chores_onBsess (fun c => { Writes.refl c with }) _ _ _ hw).moves
  exact (hs.write hm (mute_onBsess _ _ _ _ hw)).callUpdate h

theorem gotNonFinal_inStep (hs : InStep b a c) (h : gotNonFinal c = .ok ((), c')) : InStep true a c' := by
  obtain ⟨c₁, h, h₁⟩ := gotNonFinal_ok h
  have hend : InStep false a (concluded c) := hs.write (.single (.write { Writes.refl c with })) rfl
  split at h₁
  · exact (hend.write (tasks_takeQdChange _ _ _ h₁).chores.moves (reset_takeQdChange _ _ _ h₁).mute).callUpdate h
  · exact (h₁ ▸ hend).callUpdate h

theorem shwaitTimerCb_inStep (hs : InStep b a c) (h : shwaitTimerCb c = .ok ((), c')) :
    InStep true a c' := by
  obtain ⟨_, c₁, h₁, h⟩ := bind_ok.mp h
  exact gotNonFinal_inStep (hs.timed (timed_shwaitStop _ _ _ h₁)) h

theorem concludePacket_inStep {final : Bool} (hs : InStep true a c)
    (h : concludePacket final c = .ok ((), c')) :
    InStep true a c' := by
  obtain ⟨-, -, h⟩ | ⟨-, -, h⟩ | ⟨-, -, -, rfl⟩ := concludePacket_ok h
  · exact gotFinal_inStep hs h
  · exact gotNonFinal_inStep hs h
  · exact hs

theorem not_silent_of_heard {dsess : DSession} {p : Parsed} (bstate : BState)
    (hl : dsess.localData.state.state ≠ .adminDown) (hd : p.remote.discr ≠ 0) :
    ¬ Silent (heardEnds dsess p) bstate := by
  rintro (⟨ha, -⟩ | ⟨hz, -⟩)
  · exact fsmNext_adminDown _ hl ha
  · exact hd hz

theorem acceptPacket_inStep {p : Parsed} (hs : InStep true a c)
    (h : acceptPacket p c = .ok ((), c')) (hp : BfdPort c.dsess)
    (hl : c.dsess.localData.state.state ≠ .adminDown) (hd : p.remote.discr ≠ 0) :
    InStep true a c' := by
  obtain ⟨c₁, c₂, c₃, hst⟩ := acceptPacket_ok h
  have hr₁ : Rests { c with dsess := { c.dsess with remoteData := p.remote } } c₁ :=
    reported_rests hst.rearmed (fun _ _ h => sessionInjectPkt_rests h (.inl rfl) hp)
  have hm₁ := mute_reported mute_injectRearmPacket _ _ _ _ hst.rearmed
  have h₂ : InStep true a c₂ := by
    have htold := hst.told
    split at htold
    · rw [htold]
      exact hs.rest ⟨{ hr₁.steady with dsess := rfl }, hr₁.marks⟩ (talks_of_eq hm₁)
    · exact (hs.write hst.heard.moves hm₁).stateChanged htold
  have hds : c₂.dsess = heardEnds c.dsess p := by
    have htold := hst.told
    split at htold
    · rename_i hsame
      rw [htold, hsame]
    · exact (within_sessionStateChanged _ _ _ htold).dsess
  have hsaid : ¬ Silent c₂.dsess c₂.bsess.bstate := hds ▸ not_silent_of_heard _ hl hd
  have h₃ : InStep true a c₃ := by
    have hrep := hst.replied
    cases hpoll : p.poll <;> rw [hpoll] at hrep
    · obtain ⟨-, rfl⟩ := pure_ok.mp hrep
      exact h₂
    · exact h₂.rest (respondPoll_rests hrep (by rw [hds]; exact hp)) (respondPoll_talks hrep hsaid)
  exact concludePacket_inStep h₃ hst.concluded

theorem handlePacket_inStep {packet : BfdPkt} {wireLen : UInt32} {ttl : UInt8}
    (h : handlePacket packet wireLen ttl c = .ok ((), c')) (hp : BfdPort c.dsess) : InStep true c c' := by
  have count : ∀ stats diagStats, InStep true c
    { c with bsess := { c.bsess with stats := stats, diagStats := diagStats } } := by
    intro stats diagStats
    exact (InStep.refl c).rest ⟨{ Steady.refl c with }, fun _ => .refl _⟩ (talks_of_eq rfl)
  obtain ⟨-, stats, diagStats, rfl⟩ | ⟨p, ht, hparse, h⟩ := handlePacket_ok h
  · exact count stats diagStats
  · have hl : c.dsess.localData.state.state ≠ .adminDown := by
      unfold taken at ht
      split_ifs at ht with h₁ h₂ h₃
      exact h₂
    exact acceptPacket_inStep (count _ _) h hp hl (parsePacket_discr hparse).2

theorem timeoutDown_inStep (hs : InStep true a c) (h : timeoutDown c = .ok ((), c')) :
    InStep true a c' := by
  have h := timeoutDown_ok h
  have hw : Writes c { c with dsess := timeoutEnds c.dsess } := { Writes.refl c with }
  split at h
  · exact (hs.write (.single (.write hw)) rfl).stateChanged h
  · exact h ▸ hs

theorem handleTimeout_inStep (h : handleTimeout c = .ok ((), c')) : InStep true c c' := by
  obtain ⟨c₁, hdown, h₁⟩ := handleTimeout_ok h
  refine timeoutDown_inStep ?_ hdown
  cases hb : c.bsess.bstate <;> simp only [hb] at h₁
  · exact h₁ ▸ .refl c
  · exact gotNonFinal_inStep (.refl c) h₁
  · exact gotNonFinal_inStep (.refl c) h₁
  · exact shwaitTimerCb_inStep (.refl c) h₁

theorem holdTimerCb_inStep (h : holdTimerCb c = .ok ((), c')) : InStep true c c' := by
  obtain ⟨c₁, h₁, h⟩ := holdTimerCb_ok h
  have hs : InStep false c (released c) := (InStep.refl c).write (.single (.write { Writes.refl c with })) rfl
  exact (hs.stateChanged h₁).timed (timed_holdStop _ _ _ h)

theorem sessionUpdate_inStep {r : Except String Unit} (hs : InStep b a c)
    (h : sessionUpdate c = .ok (r, c')) :
    (c.bsess.bstate = .onHold ∧ c' = c) ∨ InStep true a c' ∨
      (InStep false a c' ∧ ∃ e, handleSessionUpdate c = .ok (.error e, c')) := by
  obtain ⟨hb, -, rfl⟩ | ⟨hb, r₁, c₁, h₁, h⟩ := sessionUpdate_ok h
  · exact .inl ⟨hb, rfl⟩
  · have hset := hs.write (tasks_handleSessionUpdate _ _ _ h₁).chores.moves
      (reset_handleSessionUpdate _ _ _ h₁).mute
    cases r₁ with
    | error e =>
      obtain ⟨rfl, rfl⟩ := h
      exact .inr (.inr ⟨hset, e, h₁⟩)
    | ok _ => exact .inr (.inl (hset.update h))

end

end Bbdd.Poll
