import Bbdd.Poll.Handlers

namespace Bbdd.Poll

open Lib.Program Packet Session Datapath

section

variable {c c' : Ctx}

def heardEnds (dsess : DSession) (p : Parsed) : DSession :=
  { dsess with
    remoteData := p.remote
    localData := { dsess.localData with state := fsmNext dsess.localData.state p.remote.state.state } }

/-- The stages of taking a packet: the timer is restarted, a change is passed
on, a poll is answered, and the poll sequence moves on. -/
structure Stages (p : Parsed) (c c₁ c₂ c₃ c' : Ctx) : Prop where
  rearmed : reported injectRearmPacket "Failed to rearm timer for unexpected packet"
    { c with dsess := { c.dsess with remoteData := p.remote } } = .ok ((), c₁)
  told : if heardEnds c.dsess p = c.dsess then c₂ = { c₁ with dsess := c.dsess }
    else sessionStateChanged { c₁ with dsess := heardEnds c.dsess p } = .ok ((), c₂)
  replied : whenever p.poll respondPoll c₂ = .ok ((), c₃)
  concluded : concludePacket p.final c₃ = .ok ((), c')

theorem heardEnds_eq_self {dsess : DSession} {p : Parsed} : heardEnds dsess p = dsess ↔
    dsess.localData = (heardEnds dsess p).localData ∧ dsess.remoteData = (heardEnds dsess p).remoteData := by
  refine ⟨fun h => by rw [h]; exact ⟨rfl, rfl⟩, fun ⟨hl, hr⟩ => ?_⟩
  calc heardEnds dsess p
      = { dsess with remoteData := (heardEnds dsess p).remoteData, localData :=
        (heardEnds dsess p).localData } := rfl
    _ = dsess := by rw [← hl, ← hr]

theorem acceptPacket_ok {p : Parsed} (h : acceptPacket p c = .ok ((), c')) :
    ∃ c₁ c₂ c₃, Stages p c c₁ c₂ c₃ c' := by
  have h := read_ok.mp h
  obtain ⟨_, _, hw, h⟩ := bind_ok.mp h
  cases hw
  obtain ⟨_, c₁, h₁, h⟩ := bind_ok.mp h
  have hd : c₁.dsess = { c.dsess with remoteData := p.remote } :=
    (within_reported (within_sessionInjectPkt .rx 0) _ _ _ _ h₁).dsess
  obtain ⟨_, _, hw, h⟩ := bind_ok.mp h
  cases hw
  have h := read_ok.mp h
  obtain ⟨_, c₂, h₂, h⟩ := bind_ok.mp h
  obtain ⟨_, c₃, h₃, h₄⟩ := bind_ok.mp h
  refine ⟨c₁, c₂, c₃, h₁, ?_, h₃, h₄⟩
  have hset : setLocalState c₁.dsess (fsmNext c₁.dsess.localData.state c₁.dsess.remoteData.state.state) =
      heardEnds c.dsess p := by rw [hd]; rfl
  simp only [hset] at h₂
  split
  · rename_i hsame
    have hno : ¬ (c.dsess.localData ≠ (heardEnds c.dsess p).localData ∨ c.dsess.remoteData ≠
      (heardEnds c.dsess p).remoteData) := by
      obtain ⟨hl, hr⟩ := heardEnds_eq_self.mp hsame
      exact fun hne => hne.elim (fun h => h hl) (fun h => h hr)
    rw [decide_eq_false hno] at h₂
    obtain ⟨-, rfl⟩ := pure_ok.mp h₂
    rw [hsame]
  · rename_i hne
    have hyes : c.dsess.localData ≠ (heardEnds c.dsess p).localData ∨ c.dsess.remoteData ≠
      (heardEnds c.dsess p).remoteData := by
      by_contra hno
      rw [not_or, not_not, not_not] at hno
      exact hne (heardEnds_eq_self.mpr hno)
    rw [decide_eq_true hyes] at h₂
    exact h₂

theorem Stages.frame {p : Parsed} {c₁ c₂ c₃ : Ctx} (h : Stages p c c₁ c₂ c₃ c') :
    Frame { c with dsess := heardEnds c.dsess p } c₃ := by
  have h₁ := within_reported (within_sessionInjectPkt .rx 0) _ _ _ _ h.rearmed
  have h₃ := within_whenever within_respondPoll _ _ _ h.replied
  have hd : Frame { c with dsess := heardEnds c.dsess p }
    { c₁ with dsess := heardEnds c.dsess p } := { h₁ with dsess := rfl }
  have htold := h.told
  split at htold
  · rename_i hsame
    rw [hsame] at hd ⊢
    exact hd.trans (htold ▸ h₃)
  · exact hd.trans ((within_sessionStateChanged _ _ _ htold).trans h₃)

theorem Stages.heard {p : Parsed} {c₁ c₂ c₃ : Ctx} (h : Stages p c c₁ c₂ c₃ c') :
    Chores c { c₁ with dsess := heardEnds c.dsess p } := by
  have hd : c₁.dsess = { c.dsess with remoteData := p.remote } :=
    (within_reported (within_sessionInjectPkt .rx 0) _ _ _ _ h.rearmed).dsess
  have hw : Writes c { c with dsess := { c.dsess with remoteData := p.remote } } := { Writes.refl c with }
  have hw' : Writes c₁ { c₁ with dsess := heardEnds c.dsess p } := by
    refine { Writes.refl c₁ with discr := ?_, port := ?_, dport := ?_, addressed := ?_ } <;> rw [hd]
    · rfl
    · rfl
    · exact id
    · exact id
  exact .head (.write hw) ((chores_rearm _ _ _ _ h.rearmed).tail (.write hw'))

theorem Stages.chores {p : Parsed} {c₁ c₂ c₃ : Ctx} (h : Stages p c c₁ c₂ c₃ c') : Chores c c₂ := by
  have htold := h.told
  split at htold
  · rename_i hsame
    rw [htold, ← hsame]
    exact h.heard
  · exact h.heard.trans (tasks_sessionStateChanged _ _ _ htold).chores

def counted (c : Ctx) (wireLen : UInt32) : Ctx :=
  { c with bsess := (c.bsess.bump .rxPackets 1).bump .rxBytes wireLen.toNat }

theorem handlePacket_ok {packet : BfdPkt} {wireLen : UInt32} {ttl : UInt8}
    (h : handlePacket packet wireLen ttl c = .ok ((), c')) :
    (taken c packet ttl = none ∧ ∃ stats diagStats, c' =
      { c with bsess := { c.bsess with stats := stats, diagStats := diagStats } }) ∨
    ∃ p, taken c packet ttl = some p ∧ parsePacket packet c.dsess.remoteData = .ok p ∧
      acceptPacket p (counted c wireLen) = .ok ((), c') := by
  have h := read_ok.mp h
  unfold taken
  split at h
  · rename_i hb
    obtain ⟨-, rfl⟩ := pure_ok.mp h
    exact .inl ⟨if_pos hb, _, _, rfl⟩
  · rename_i hb
    rw [if_neg hb]
    obtain ⟨_, _, hw, h⟩ := bind_ok.mp h
    cases hw
    split at h
    · rename_i ha
      cases h
      exact .inl ⟨if_pos ha, _, _, rfl⟩
    · rename_i ha
      rw [if_neg ha]
      split at h
      · rename_i ht
        cases h
        exact .inl ⟨if_pos ht, _, _, rfl⟩
      · rename_i ht
        rw [if_neg ht]
        cases hp : parsePacket packet c.dsess.remoteData with
        | error st =>
          simp only [hp] at h
          cases h
          exact .inl ⟨rfl, _, _, rfl⟩
        | ok p =>
          simp only [hp] at h
          exact .inr ⟨p, rfl, rfl, h⟩

def concluded (c : Ctx) : Ctx :=
  { c with bsess := { c.bsess with effData := c.bsess.dfrData, bstate := .stable } }

theorem gotNonFinal_ok (h : gotNonFinal c = .ok ((), c')) : ∃ c₁, sessionCallUpdate c₁ = .ok ((), c') ∧
    if c.bsess.qdChange then takeQdChange (concluded c) = .ok ((), c₁) else c₁ = concluded c := by
  obtain ⟨_, _, hw, h⟩ := bind_ok.mp h
  cases hw
  have h := read_ok.mp h
  obtain ⟨_, c₁, h₁, h⟩ := bind_ok.mp h
  refine ⟨c₁, h, ?_⟩
  change whenever c.bsess.qdChange takeQdChange (concluded c) = .ok ((), c₁) at h₁
  cases hq : c.bsess.qdChange <;> rw [hq] at h₁
  · exact (pure_ok.mp h₁).2.symm
  · exact h₁

theorem concludePacket_ok {final : Bool} (h : concludePacket final c = .ok ((), c')) :
    (c.bsess.bstate = .awaitFinal ∧ final = true ∧ gotFinal c = .ok ((), c')) ∨
    (c.bsess.bstate = .awaitNonFinal ∧ final = false ∧ gotNonFinal c = .ok ((), c')) ∨
    (¬ (c.bsess.bstate = .awaitFinal ∧ final = true) ∧ ¬ (c.bsess.bstate = .awaitNonFinal ∧ final = false) ∧
      c.bsess.bstate ≠ .onHold ∧ c' = c) := by
  have h := read_ok.mp h
  cases hb : c.bsess.bstate <;> simp only [hb] at h
  · cases h
  · obtain ⟨-, rfl⟩ := pure_ok.mp h
    simp
  · cases final with
    | true => exact .inl ⟨rfl, rfl, h⟩
    | false =>
      obtain ⟨-, rfl⟩ := pure_ok.mp h
      simp
  · cases final with
    | true =>
      obtain ⟨-, rfl⟩ := pure_ok.mp h
      simp
    | false => exact .inr (.inl ⟨rfl, rfl, h⟩)
  · obtain ⟨-, rfl⟩ := pure_ok.mp h
    simp

theorem timeoutDown_ok (h : timeoutDown c = .ok ((), c')) :
    if c.dsess.localData.state.state = .init ∨ c.dsess.localData.state.state = .up then
      sessionStateChanged { c with dsess := timeoutEnds c.dsess } = .ok ((), c')
    else c' = c := by
  have h := read_ok.mp h
  split at h
  · rename_i hl
    rw [if_pos hl]
    obtain ⟨_, _, hw, h⟩ := bind_ok.mp h
    cases hw
    exact h
  · rename_i hl
    rw [if_neg hl]
    exact (pure_ok.mp h).2.symm

theorem handleTimeout_ok (h : handleTimeout c = .ok ((), c')) : ∃ c₁, timeoutDown c₁ = .ok ((), c') ∧
    match c.bsess.bstate with
    | .onHold => False
    | .stable => c₁ = c
    | .awaitFinal | .awaitNonFinal => gotNonFinal c = .ok ((), c₁)
    | .shuttingDown => shwaitTimerCb c = .ok ((), c₁) := by
  have h := read_ok.mp h
  cases hb : c.bsess.bstate <;> simp only [hb] at h ⊢
  · cases h
  · exact ⟨c, h, rfl⟩
  · obtain ⟨_, c₁, h₁, h⟩ := bind_ok.mp h
    exact ⟨c₁, h, h₁⟩
  · obtain ⟨_, c₁, h₁, h⟩ := bind_ok.mp h
    exact ⟨c₁, h, h₁⟩
  · obtain ⟨_, c₁, h₁, h⟩ := bind_ok.mp h
    obtain ⟨_, c₂, h₂, h⟩ := bind_ok.mp h
    exact ⟨c₂, h, bind_ok.mpr ⟨_, c₁, h₁, h₂⟩⟩

def released (c : Ctx) : Ctx :=
  { c with
    bsess := { c.bsess with effData := userBdata c.dsess, bstate := .stable }
    dsess := { c.dsess with holdTimeUs := 0 } }

theorem holdTimerCb_ok (h : holdTimerCb c = .ok ((), c')) : ∃ c₁,
    sessionStateChanged (released c) = .ok ((), c₁) ∧ holdStop c₁ = .ok ((), c') := by
  have h := read_ok.mp h
  obtain ⟨_, _, hw, h⟩ := bind_ok.mp h
  cases hw
  obtain ⟨_, _, hw, h⟩ := bind_ok.mp h
  cases hw
  obtain ⟨_, c₁, h₁, h⟩ := bind_ok.mp h
  exact ⟨c₁, h₁, h⟩

theorem sessionUpdate_ok {r : Except String Unit} (h : sessionUpdate c = .ok (r, c')) :
    (c.bsess.bstate = .onHold ∧ r = .ok () ∧ c' = c) ∨
    (c.bsess.bstate ≠ .onHold ∧ ∃ r₁ c₁, handleSessionUpdate c = .ok (r₁, c₁) ∧
      match r₁ with
      | .error e => r = .error e ∧ c' = c₁
      | .ok () => sessionUpdateInner c₁ = .ok (r, c')) := by
  have h := read_ok.mp h
  split at h
  · rename_i hb
    obtain ⟨rfl, rfl⟩ := pure_ok.mp h
    exact .inl ⟨hb, rfl, rfl⟩
  · rename_i hb
    obtain ⟨r₁, c₁, h₁, h⟩ := bind_ok.mp h
    refine .inr ⟨hb, r₁, c₁, h₁, ?_⟩
    cases r₁ with
    | error e =>
      obtain ⟨rfl, rfl⟩ := pure_ok.mp h
      exact ⟨rfl, rfl⟩
    | ok _ => exact h

end

end Bbdd.Poll
