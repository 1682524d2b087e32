import Bbdd.Poll.Sane

namespace Bbdd.Poll

open Packet Session Datapath

def SameTimes (a b : BData) : Prop :=
  a.timing.minTxUs = b.timing.minTxUs ∧ a.timing.minRxUs = b.timing.minRxUs

instance (a b : BData) : Decidable (SameTimes a b) := inferInstanceAs (Decidable (_ ∧ _))

namespace Machine

variable (m : Machine)

def Closes : Prop := m.user.shutdown = true ∧ m.bdata.shutdown = false

def opened : PktState := if m.bdata.shutdown && !m.user.shutdown then .down else m.loc

end Machine

/-- Everything an update can make of a session. -/
inductive Updated (m : Machine) (fresh : Option Nat) : Machine → Prop
  | held : m.bstate = .onHold → Updated m fresh m
  | shut {id} : m.bstate = .stable → m.Closes → fresh = some id → Updated m fresh (m.shutDown id)
  | starved : m.bstate = .stable → m.Closes → fresh = none → Updated m fresh m
  | polling {eff} : m.bstate = .stable → ¬ m.Closes → ¬ SameTimes m.user m.eff →
      eff = m.user ∨ (eff = m.eff ∧ m.loc = .up) →
      Updated m fresh { m with eff := eff, loc := m.opened, dfr := m.user, bstate := .awaitFinal }
  | settled : m.bstate = .stable → ¬ m.Closes → SameTimes m.user m.eff →
      Updated m fresh { m with eff := m.user, loc := m.opened }
  | enabled : m.bstate = .shuttingDown → m.user.shutdown = false →
      Updated m fresh { m.stop with dfr := m.user, loc := .down, bstate := .awaitFinal }
  | repolled : m.bstate = .shuttingDown → m.user.shutdown = true → ¬ SameTimes m.user m.dfr →
      Updated m fresh { m with dfr := m.user, bstate := .awaitFinal }
  | waiting : m.bstate = .shuttingDown → m.user.shutdown = true → SameTimes m.user m.dfr →
      Updated m fresh { m with dfr := m.user }
  | queued {dfr} : m.bstate = .awaitFinal ∨ m.bstate = .awaitNonFinal →
      ¬ SameTimes m.user m.dfr ∨ m.user.shutdown ≠ m.dfr.shutdown →
      (dfr = m.user ∧ ¬ m.Closes) ∨ (dfr = m.dfr ∧ (m.Closes ∨ m.loc = .up)) →
      Updated m fresh { m with dfr := dfr, qd := true }
  | merged : m.bstate = .awaitFinal ∨ m.bstate = .awaitNonFinal → SameTimes m.user m.dfr →
      m.user.shutdown = m.dfr.shutdown → Updated m fresh { m with dfr := m.user }

section Decision

variable {m : Machine}

theorem closes_iff : m.Closes ↔ m.decision.needShwait = true := by
  rw [decision_needShwait, Machine.Closes]
  cases m.user.shutdown <;> cases m.bdata.shutdown <;> simp

theorem opened_eq : m.opened = if m.decision.stopShwait then .down else m.loc := by
  rw [decision_stopShwait, Machine.opened, Bool.and_comm]

theorem decision_closes (h : m.Closes) : m.decision = ⟨true, false, false, false⟩ := by
  unfold Machine.decision updateDecision
  rw [if_pos (by simp [h.1, h.2])]

theorem decision_needPoll (h : ¬ m.Closes) : m.decision.needPoll = true ↔ ¬ SameTimes m.user m.bdata := by
  unfold Machine.decision updateDecision
  rw [if_neg (by simpa [Machine.Closes] using h)]
  simp only [SameTimes, ne_eq, decide_eq_true_eq]
  tauto

theorem applyImm_of_not (h : ¬ m.Closes) (ha : m.decision.applyImm = false) :
    m.loc = .up ∧ ¬ SameTimes m.user m.bdata := by
  unfold Machine.decision updateDecision at ha
  rw [if_neg (by simpa [Machine.Closes] using h)] at ha
  simp only [Bool.not_eq_false', Bool.or_eq_true, decide_eq_true_eq] at ha
  obtain ⟨hl, hlt⟩ | ⟨hl, hlt⟩ := ha
  · exact ⟨hl, fun hs => absurd hlt (by rw [hs.1]; exact UInt32.lt_irrefl _)⟩
  · exact ⟨hl, fun hs => absurd hlt (by rw [hs.2]; exact UInt32.lt_irrefl _)⟩

theorem needShwait_of_not (h : ¬ m.Closes) : m.decision.needShwait = false :=
  Bool.eq_false_iff.mpr (fun hn => h (closes_iff.mpr hn))

theorem decision_same (h : ¬ m.Closes) (hs : SameTimes m.user m.bdata) :
    m.decision.applyImm = true ∧ m.decision.needPoll = false := by
  constructor
  · by_contra ha
    exact (applyImm_of_not h (Bool.eq_false_iff.mpr ha)).2 hs
  · exact Bool.eq_false_iff.mpr (fun hp => (decision_needPoll h).mp hp hs)

theorem applied_closes (h : m.Closes) : m.applied = m := by
  rw [Machine.applied, decision_closes h]
  rfl

end Decision

section

variable {m : Machine} {fresh : Option Nat}

theorem settle_needPoll {d : Decision} (h : d.needPoll = true) :
    m.settle fresh d =
      { m with loc := if d.stopShwait then .down else m.loc, dfr := m.user, bstate := .awaitFinal } := by
  simp only [Machine.settle, Machine.enable_eq, Machine.begin, h, if_true]

theorem settle_neither {d : Decision} (h : d.needPoll = false) (hn : d.needShwait = false) :
    m.settle fresh d = { m with loc := if d.stopShwait then .down else m.loc } := by
  simp [Machine.settle, Machine.enable_eq, Machine.begin, h, hn]

theorem updated_stable (hb : m.bstate = .stable) : Updated m fresh (m.update fresh) := by
  have hbd : m.bdata = m.eff := by simp [Machine.bdata, hb]
  rw [Machine.update_stable hb]
  by_cases hc : m.Closes
  · rw [applied_closes hc, decision_closes hc]
    cases fresh with
    | none => exact .starved hb hc rfl
    | some id => exact .shut hb hc rfl
  have hn := needShwait_of_not hc
  have hp := decision_needPoll hc
  rw [hbd] at hp
  by_cases hs : SameTimes m.user m.eff
  · obtain ⟨ha, hp'⟩ := decision_same hc (by rw [hbd]; exact hs)
    rw [settle_neither hp' hn, Machine.applied, if_pos ha]
    simp only [Machine.setBdata, hb, ← opened_eq]
    have hset : Updated m fresh { m with eff := m.user, loc := m.opened } := .settled hb hc hs
    rwa [hb] at hset
  · rw [settle_needPoll (hp.mpr hs), Machine.applied]
    split
    · simp only [Machine.setBdata, hb, ← opened_eq]
      exact .polling hb hc hs (.inl rfl)
    · rename_i ha
      rw [← opened_eq]
      exact .polling hb hc hs (.inr ⟨rfl, (applyImm_of_not hc (Bool.eq_false_iff.mpr ha)).1⟩)

theorem updated_shuttingDown (hb : m.bstate = .shuttingDown) (hl : m.loc = .adminDown)
    (hd : m.dfr.shutdown = true) :
    Updated m fresh (m.update fresh) := by
  have hbd : m.bdata = m.dfr := by simp [Machine.bdata, hb]
  have hc : ¬ m.Closes := by
    rintro ⟨-, h⟩
    rw [hbd, hd] at h
    cases h
  have hn := needShwait_of_not hc
  have ha : m.decision.applyImm = true := by
    by_contra ha
    have := (applyImm_of_not hc (Bool.eq_false_iff.mpr ha)).1
    rw [hl] at this
    cases this
  have happ : m.applied = { m with dfr := m.user } := by
    rw [Machine.applied, if_pos ha]
    simp only [Machine.setBdata, hb]
  have hstop := decision_stopShwait m
  rw [hbd, hd, Bool.and_true] at hstop
  have hp := decision_needPoll hc
  rw [hbd] at hp
  rw [Machine.update_shuttingDown hb, happ, hstop]
  cases hu : m.user.shutdown with
  | false =>
    have hs' : m.decision.stopShwait = true := by rw [hstop, hu]; rfl
    have hst : { m with dfr := m.user }.stop = { m.stop with dfr := m.user } := by
      unfold Machine.stop
      cases hs : m.shwait <;> simp [hs]
    have heq : { { m with dfr := m.user }.stop with bstate := .awaitFinal }.settle fresh m.decision =
        { m.stop with dfr := m.user, loc := .down, bstate := .awaitFinal } := by
      obtain ⟨s, l, hsh⟩ := m.stop_shape
      rw [hst, hsh]
      cases hpoll : m.decision.needPoll with
      | true => rw [settle_needPoll hpoll, hs']; rfl
      | false => rw [settle_neither hpoll hn, hs']; rfl
    simp only [Bool.not_false, if_true]
    rw [heq]
    exact .enabled hb hu
  | true =>
    have hs' : m.decision.stopShwait = false := by rw [hstop, hu]; rfl
    simp only [Bool.not_true, Bool.false_eq_true, if_false]
    by_cases hs : SameTimes m.user m.dfr
    · rw [settle_neither (decision_same hc (by rw [hbd]; exact hs)).2 hn, hs']
      exact .waiting hb hu hs
    · rw [settle_needPoll (hp.mpr hs), hs']
      exact .repolled hb hu hs

theorem updated_await (hb : m.bstate = .awaitFinal ∨ m.bstate = .awaitNonFinal) :
    Updated m fresh (m.update fresh) := by
  have hbd : m.bdata = m.dfr := by obtain hb | hb := hb <;> simp [Machine.bdata, hb]
  have hset : m.setBdata m.user = { m with dfr := m.user } := by
    obtain hb | hb := hb <;> simp [Machine.setBdata, hb]
  rw [Machine.update_await hb]
  by_cases hc : m.Closes
  · rw [applied_closes hc, decision_closes hc]
    have hdiff : m.user.shutdown ≠ m.dfr.shutdown := by
      rw [hc.1, ← hbd, hc.2]
      simp
    exact .queued hb (.inr hdiff) (.inr ⟨rfl, .inl hc⟩)
  have hn := needShwait_of_not hc
  have hp := decision_needPoll hc
  have hstop := decision_stopShwait m
  rw [hbd] at hp hstop
  have hcond : (m.decision.needPoll || m.decision.needShwait || m.decision.stopShwait) = true ↔
      ¬ SameTimes m.user m.dfr ∨ m.user.shutdown ≠ m.dfr.shutdown := by
    have hsh : m.user.shutdown = true → m.dfr.shutdown = true := by
      intro hu
      by_contra hd
      exact hc ⟨hu, by rw [hbd]; simpa using hd⟩
    rw [hn, Bool.or_false, Bool.or_eq_true, hp, hstop]
    cases hu : m.user.shutdown with
    | false => cases m.dfr.shutdown <;> simp
    | true => simp [hsh hu]
  by_cases hq : ¬ SameTimes m.user m.dfr ∨ m.user.shutdown ≠ m.dfr.shutdown
  · rw [if_pos (hcond.mpr hq), Machine.applied]
    split
    · rw [hset]
      exact .queued hb hq (.inl ⟨rfl, hc⟩)
    · rename_i ha
      exact .queued hb hq (.inr ⟨rfl, .inr (applyImm_of_not hc (Bool.eq_false_iff.mpr ha)).1⟩)
  · rw [if_neg (fun h => hq (hcond.mp h)), Machine.applied]
    have hs : SameTimes m.user m.dfr := by
      by_contra hs
      exact hq (.inl hs)
    rw [if_pos (decision_same hc (by rw [hbd]; exact hs)).1, hset]
    refine .merged hb hs ?_
    by_contra hsh
    exact hq (.inr hsh)

theorem update_spec (hs : m.bstate = .shuttingDown → m.loc = .adminDown ∧ m.dfr.shutdown = true) :
    Updated m fresh (m.update fresh) := by
  cases hb : m.bstate with
  | onHold => rw [Machine.update_onHold hb]; exact .held hb
  | stable => exact updated_stable hb
  | awaitFinal => exact updated_await (.inl hb)
  | awaitNonFinal => exact updated_await (.inr hb)
  | shuttingDown => exact updated_shuttingDown hb (hs hb).1 (hs hb).2

theorem conclude_cases (m : Machine) (fresh : Option Nat) :
    (m.qd = false ∧ m.conclude fresh = { m with eff := m.dfr, bstate := .stable }) ∨
      (m.qd = true ∧ Updated { m with eff := m.dfr, bstate := .stable, qd := false } fresh
        (m.conclude fresh)) := by
  cases hq : m.qd with
  | false => exact .inl ⟨rfl, by simp [Machine.conclude, hq]⟩
  | true =>
    refine .inr ⟨rfl, ?_⟩
    rw [Machine.conclude, if_pos hq]
    exact updated_stable rfl

end

end Bbdd.Poll
