import Bbdd.Poll.Refresh

namespace Bbdd.Poll

open Lib.Program Packet Session Datapath

/-- What the user configured stays, except for a hold, which is over once. The
state of the ends and what the peer says of itself are not configured. -/
def Retains (d d' : DSession) : Prop :=
  ∃ state remote hold, d' = { d with
    localData := { d.localData with state := state }, remoteData := remote, holdTimeUs := hold }

theorem Retains.refl (d : DSession) : Retains d d := ⟨_, _, _, rfl⟩

theorem Retains.trans {d e f : DSession} (h : Retains d e) (k : Retains e f) : Retains d f := by
  obtain ⟨_, _, _, rfl⟩ := h
  obtain ⟨_, _, _, rfl⟩ := k
  exact ⟨_, _, _, rfl⟩

theorem SameButEnds.retains {d d' : DSession} (h : SameButEnds d d') : Retains d d' := by
  obtain ⟨_, _, rfl⟩ := h
  exact ⟨_, _, _, rfl⟩

section

variable {c c' : Ctx}

theorem sameButEnds_gotNonFinal (h : gotNonFinal c = .ok ((), c')) : SameButEnds c.dsess c'.dsess := by
  obtain ⟨c₁, h, h₁⟩ := gotNonFinal_ok h
  rw [(within_sessionCallUpdate _ _ _ h).dsess]
  split at h₁
  · exact (reset_takeQdChange _ _ _ h₁).dsess
  · rw [h₁]
    exact .refl _

theorem sameButEnds_shwaitTimerCb (h : shwaitTimerCb c = .ok ((), c')) : SameButEnds c.dsess c'.dsess := by
  obtain ⟨_, c₁, h₁, h⟩ := bind_ok.mp h
  rw [← (timed_shwaitStop _ _ _ h₁).dsess]
  exact sameButEnds_gotNonFinal h

theorem sameButEnds_acceptPacket {p : Parsed} (h : acceptPacket p c = .ok ((), c')) :
    SameButEnds (heardEnds c.dsess p) c'.dsess := by
  obtain ⟨c₁, c₂, c₃, hst⟩ := acceptPacket_ok h
  have hd : c₃.dsess = heardEnds c.dsess p := hst.frame.dsess
  rw [← hd]
  obtain ⟨-, -, h⟩ | ⟨-, -, h⟩ | ⟨-, -, -, rfl⟩ := concludePacket_ok hst.concluded
  · obtain ⟨_, _, hw, h⟩ := bind_ok.mp h
    cases hw
    exact .of_eq (within_sessionCallUpdate _ _ _ h).dsess
  · exact sameButEnds_gotNonFinal h
  · exact .refl _

theorem sameButEnds_sessionUpdate {r : Except String Unit} (h : sessionUpdate c = .ok (r, c')) :
    SameButEnds c.dsess c'.dsess := by
  obtain ⟨-, -, rfl⟩ | ⟨-, r₁, c₁, h₁, h⟩ := sessionUpdate_ok h
  · exact .refl _
  · have hd := (reset_handleSessionUpdate _ _ _ h₁).dsess
    cases r₁ with
    | error e => exact h.2 ▸ hd
    | ok _ => exact (within_sessionUpdateInner _ _ _ h).dsess ▸ hd

theorem retains_handlePacket {packet : BfdPkt} {wireLen : UInt32} {ttl : UInt8}
    (h : handlePacket packet wireLen ttl c = .ok ((), c')) : Retains c.dsess c'.dsess := by
  obtain ⟨-, stats, diagStats, rfl⟩ | ⟨p, -, -, h⟩ := handlePacket_ok h
  · exact .refl _
  · exact .trans ⟨_, _, _, rfl⟩ (sameButEnds_acceptPacket h).retains

theorem retains_timeoutDown (h : timeoutDown c = .ok ((), c')) : Retains c.dsess c'.dsess := by
  have h := timeoutDown_ok h
  split at h
  · rw [(within_sessionStateChanged _ _ _ h).dsess]
    exact ⟨_, _, _, rfl⟩
  · rw [h]
    exact .refl _

theorem retains_handleTimeout (h : handleTimeout c = .ok ((), c')) : Retains c.dsess c'.dsess := by
  obtain ⟨c₁, hdown, h₁⟩ := handleTimeout_ok h
  refine .trans ?_ (retains_timeoutDown hdown)
  cases hs : c.bsess.bstate <;> simp only [hs] at h₁
  · rw [h₁]
    exact .refl _
  · exact (sameButEnds_gotNonFinal h₁).retains
  · exact (sameButEnds_gotNonFinal h₁).retains
  · exact (sameButEnds_shwaitTimerCb h₁).retains

theorem retains_holdTimerCb (h : holdTimerCb c = .ok ((), c')) : Retains c.dsess c'.dsess := by
  obtain ⟨c₁, h₁, h⟩ := holdTimerCb_ok h
  rw [(timed_holdStop _ _ _ h).dsess, (within_sessionStateChanged _ _ _ h₁).dsess]
  exact ⟨_, _, _, rfl⟩

end

end Bbdd.Poll
