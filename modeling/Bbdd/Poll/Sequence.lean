import Bbdd.Datapath.Airs
import Bbdd.Poll.Machine

namespace Bbdd.Poll

open Packet Session Datapath

namespace Machine

variable {m : Machine} {fresh : Option Nat}

/-- A change by the user that takes effect on what is being polled. Of the
changes to the intervals these are the ones that do not have to wait, for the
session is not Up or neither of them gets stricter. -/
def Edits (m : Machine) : Cause → Prop
  | .configure user =>
    (m.bstate = .awaitFinal ∨ m.bstate = .awaitNonFinal) ∧ pace user ≠ pace m.dfr ∧
      ¬ (user.shutdown = true ∧ m.dfr.shutdown = false) ∧
      ¬ (m.loc = .up ∧ (user.timing.minTxUs > m.dfr.timing.minTxUs ∨ user.timing.minRxUs < m.dfr.timing.minRxUs))
  | _ => False

/-- What starts a poll sequence: a change of the intervals outside of one, the
end of one during which the intervals were changed, or the end of a shutdown. -/
def Opens (m : Machine) : Cause → Prop
  | .configure user =>
    m.bstate = .stable ∧ pace user ≠ pace m.eff ∨ m.bstate = .shuttingDown ∧
      (pace user ≠ pace m.dfr ∨ user.shutdown = false)
  | .packet _ _ final => m.bstate = .awaitNonFinal ∧ final = false ∧ m.qd = true ∧ pace m.user ≠ pace m.dfr
  | .timeout | .shwait _ => m.qd = true ∧ pace m.user ≠ pace m.dfr
  | .hold _ => False

theorem pace_ne_of_needPoll {lstate : PktState} {udata bdata : BData}
    (h : (updateDecision lstate udata bdata).needPoll = true) :
    pace udata ≠ pace bdata := by
  intro heq
  unfold updateDecision at h
  split at h
  · cases h
  · simp only [decide_eq_true_eq] at h
    exact h.elim (fun hne => hne (Prod.ext_iff.mp heq).1) (fun hne => hne (Prod.ext_iff.mp heq).2)

theorem applyImm_eq_false {lstate : PktState} {udata bdata : BData}
    (h : (udata.shutdown = true ∧ bdata.shutdown = false) ∨
      lstate = .up ∧ (udata.timing.minTxUs > bdata.timing.minTxUs ∨
        udata.timing.minRxUs < bdata.timing.minRxUs)) :
    (updateDecision lstate udata bdata).applyImm = false := by
  unfold updateDecision
  split
  · rfl
  · rename_i hs
    obtain ⟨hu, hb⟩ | ⟨hl, hlt | hlt⟩ := h
    · exact absurd (by simp [hu, hb]) hs
    · simp [hl, hlt]
    · simp [hl, hlt]

theorem begin_bstate (m : Machine) (fresh : Option Nat) (d : Decision) :
    (m.begin fresh d).bstate = m.bstate ∨ (m.begin fresh d).bstate = .shuttingDown ∨
      (m.begin fresh d).bstate = .awaitFinal ∧ d.needPoll = true := by
  unfold begin
  split
  · rename_i hp
    exact .inr (.inr ⟨rfl, hp⟩)
  · split
    · exact .inr (.inl rfl)
    · exact .inl rfl

theorem enable_bstate (m : Machine) (b : Bool) : (m.enable b).bstate = m.bstate := by
  unfold enable
  split <;> rfl

theorem settle_bstate (m : Machine) (fresh : Option Nat) (d : Decision) :
    (m.settle fresh d).bstate = m.bstate ∨ (m.settle fresh d).bstate = .shuttingDown ∨
      (m.settle fresh d).bstate = .awaitFinal ∧ d.needPoll = true := by
  rw [← enable_bstate m d.stopShwait]
  exact begin_bstate _ _ _

theorem setBdata_bstate (m : Machine) (data : BData) : (m.setBdata data).bstate = m.bstate := by
  unfold setBdata
  split <;> rfl

theorem applied_bstate (m : Machine) : m.applied.bstate = m.bstate := by
  unfold applied
  split
  · exact setBdata_bstate m m.user
  · rfl

theorem update_stable_bstate (h : m.bstate = .stable) :
    (m.update fresh).bstate = .stable ∨ (m.update fresh).bstate = .shuttingDown ∨
      (m.update fresh).bstate = .awaitFinal ∧ pace m.user ≠ pace m.eff := by
  rw [update_stable h]
  obtain hb | hb | ⟨hb, hp⟩ := settle_bstate m.applied fresh m.decision
  · exact .inl (by rw [hb, applied_bstate, h])
  · exact .inr (.inl hb)
  · refine .inr (.inr ⟨hb, ?_⟩)
    have hne := pace_ne_of_needPoll hp
    rwa [bdata, h] at hne

theorem update_await_dfr (h : m.bstate = .awaitFinal ∨ m.bstate = .awaitNonFinal) :
    (m.update fresh).bstate = m.bstate ∧
      (¬ m.Edits (.configure m.user) → pace (m.update fresh).dfr = pace m.dfr) := by
  have hup : (m.update fresh).bstate = m.applied.bstate ∧ (m.update fresh).dfr = m.applied.dfr := by
    rw [update_await h]
    split <;> exact ⟨rfl, rfl⟩
  have hbdata : m.bdata = m.dfr := by
    obtain h | h := h <;> rw [bdata, h]
  refine ⟨by rw [hup.1, applied_bstate], fun hedit => ?_⟩
  rw [hup.2, applied]
  split
  · rename_i himm
    have hset : (m.setBdata m.user).dfr = m.user := by
      obtain h | h := h <;> rw [setBdata, h]
    rw [hset]
    by_contra hne
    rw [decision, hbdata] at himm
    refine hedit ⟨h, hne, fun hs => ?_, fun hs => ?_⟩
    · rw [applyImm_eq_false (.inl hs)] at himm
      cases himm
    · rw [applyImm_eq_false (.inr hs)] at himm
      cases himm
  · rfl

theorem update_shuttingDown_bstate (h : m.bstate = .shuttingDown) :
    (m.update fresh).bstate = .shuttingDown ∨
      (m.update fresh).bstate = .awaitFinal ∧ (pace m.user ≠ pace m.dfr ∨ m.user.shutdown = false) := by
  have hbdata : m.bdata = m.dfr := by rw [bdata, h]
  have hpoll (hp : m.decision.needPoll = true) : pace m.user ≠ pace m.dfr := by
    have hne := pace_ne_of_needPoll hp
    rwa [hbdata] at hne
  rw [update_shuttingDown h]
  split
  · rename_i hstop
    have hopen : pace m.user ≠ pace m.dfr ∨ m.user.shutdown = false := by
      right
      rw [decision, updateDecision] at hstop
      split at hstop
      · cases hstop
      · simp only [Bool.and_eq_true, Bool.not_eq_true'] at hstop
        exact hstop.1
    obtain hb | hb | ⟨hb, -⟩ := settle_bstate { m.applied.stop with bstate := .awaitFinal } fresh m.decision
    · exact .inr ⟨hb, hopen⟩
    · exact .inl hb
    · exact .inr ⟨hb, hopen⟩
  · obtain hb | hb | ⟨hb, hp⟩ := settle_bstate m.applied fresh m.decision
    · exact .inl (by rw [hb, applied_bstate, h])
    · exact .inl hb
    · exact .inr ⟨hb, .inl (hpoll hp)⟩

theorem conclude_bstate (m : Machine) (fresh : Option Nat) :
    (m.conclude fresh).bstate = .stable ∨ (m.conclude fresh).bstate = .shuttingDown ∨
      (m.conclude fresh).bstate = .awaitFinal ∧ m.qd = true ∧ pace m.user ≠ pace m.dfr := by
  unfold conclude
  split
  · rename_i hq
    obtain hb | hb | ⟨hb, hne⟩ := @update_stable_bstate
      { m with eff := m.dfr, bstate := .stable, qd := false } fresh rfl
    · exact .inl hb
    · exact .inr (.inl hb)
    · exact .inr (.inr ⟨hb, hq, hne⟩)
  · exact .inl rfl

theorem silenced_bstate (m : Machine) : m.silenced.bstate = m.bstate := by
  unfold silenced
  split <;> rfl

theorem stop_eq (m : Machine) : m.stop.qd = m.qd ∧ m.stop.user = m.user ∧ m.stop.dfr = m.dfr := by
  unfold stop
  split <;> exact ⟨rfl, rfl, rfl⟩

/-- A session that polls did so before, and polls the same, or starts to now;
one that has its answer polled the same when the answer came. -/
structure Follows (m : Machine) (s : Cause) (m' : Machine) : Prop where
  polls : m'.bstate = .awaitFinal → m.bstate = .awaitFinal ∧ pace m'.dfr = pace m.dfr ∨ m.Opens s
  heard : m'.bstate = .awaitNonFinal → pace m'.dfr = pace m.dfr ∧
    (m.bstate = .awaitNonFinal ∨ m.bstate = .awaitFinal ∧ ∃ rem mult, s = .packet rem mult true)

variable {m' : Machine} {s : Cause}

theorem Follows.out
    (h : m'.bstate = .stable ∨ m'.bstate = .shuttingDown ∨ m'.bstate = .awaitFinal ∧ m.Opens s) :
    Follows m s m' := by
  obtain h | h | ⟨h, ho⟩ := h
  · exact ⟨fun hb => by simp [h] at hb, fun hb => by simp [h] at hb⟩
  · exact ⟨fun hb => by simp [h] at hb, fun hb => by simp [h] at hb⟩
  · exact ⟨fun _ => .inr ho, fun hb => by simp [h] at hb⟩

theorem Follows.still (hb : m'.bstate = m.bstate) (hd : pace m'.dfr = pace m.dfr) : Follows m s m' :=
  ⟨fun h => .inl ⟨hb ▸ h, hd⟩, fun h => ⟨hd, .inl (hb ▸ h)⟩⟩

theorem configure_follows (user : BData) (he : ¬ m.Edits (.configure user)) :
    Follows m (.configure user) (m.configure user fresh) := by
  unfold configure
  split
  · exact .still rfl rfl
  · rename_i hold
    obtain hb | hb | hb | hb : m.bstate = .stable ∨ m.bstate = .awaitFinal ∨
      m.bstate = .awaitNonFinal ∨ m.bstate = .shuttingDown := by
      revert hold
      cases m.bstate <;> simp
    · refine .out ((@update_stable_bstate { m with user := user } fresh hb).imp_right
        (fun h => h.imp_right (fun h => ⟨h.1, ?_⟩)))
      exact .inl ⟨hb, h.2⟩
    · obtain ⟨hsame, hd⟩ := @update_await_dfr { m with user := user } fresh (.inl hb)
      exact .still hsame (hd he)
    · obtain ⟨hsame, hd⟩ := @update_await_dfr { m with user := user } fresh (.inr hb)
      exact .still hsame (hd he)
    · refine .out (.inr ((@update_shuttingDown_bstate { m with user := user } fresh hb).imp_right
        (fun h => ⟨h.1, ?_⟩)))
      exact .inr ⟨hb, h.2⟩

theorem conclude_follows (hq : m'.qd = m.qd) (hu : m'.user = m.user) (hd : m'.dfr = m.dfr)
    (ho : m.qd = true ∧ pace m.user ≠ pace m.dfr → m.Opens s) : Follows m s (m'.conclude fresh) := by
  refine .out ((conclude_bstate m' fresh).imp_right (fun h => h.imp_right (fun h => ⟨h.1, ho ?_⟩)))
  rw [← hq, ← hu, ← hd]
  exact h.2

theorem packet_follows (rem : PktState) (mult : UInt8) (final : Bool) :
    Follows m (.packet rem mult final) (m.packet rem mult final fresh) := by
  unfold packet answered
  split
  · rename_i hb
    exact ⟨fun h => by simp at h, fun _ => ⟨rfl, .inr ⟨hb, rem, mult, rfl⟩⟩⟩
  · rename_i hb
    exact conclude_follows rfl rfl rfl (fun h => ⟨hb, rfl, h⟩)
  · exact .still rfl rfl

theorem Follows.silenced (h : Follows m s m') : Follows m s m'.silenced := by
  have hd : m'.silenced.dfr = m'.dfr := by
    unfold Machine.silenced
    split <;> rfl
  exact ⟨fun hb => by rw [hd]; exact h.polls (silenced_bstate m' ▸ hb), fun hb => by
    rw [hd]; exact h.heard (silenced_bstate m' ▸ hb)⟩

theorem timeout_follows : Follows m .timeout (m.timeout fresh) := by
  obtain ⟨hq, hu, hd⟩ := stop_eq m
  unfold timeout
  cases m.bstate with
  | onHold => exact .still rfl rfl
  | stable => exact Follows.silenced (.still rfl rfl)
  | awaitFinal | awaitNonFinal => exact (conclude_follows rfl rfl rfl id).silenced
  | shuttingDown => exact (conclude_follows hq hu hd id).silenced

theorem stir_follows (m : Machine) (fresh : Option Nat) (s : Cause) (he : ¬ m.Edits s) :
    Follows m s (m.stir fresh s) := by
  cases s with
  | configure user => exact configure_follows user he
  | hold _ => exact .out (.inl rfl)
  | shwait id =>
    obtain ⟨hq, hu, hd⟩ := stop_eq m
    have h : Follows m (.shwait id) (m.stop.conclude fresh) := conclude_follows hq hu hd (fun h => h)
    exact ⟨h.polls, h.heard⟩
  | packet rem mult final => exact packet_follows rem mult final
  | timeout => exact timeout_follows

end Machine

end Bbdd.Poll
