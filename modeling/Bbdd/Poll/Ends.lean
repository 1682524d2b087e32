import Bbdd.Lib.Triple
import Bbdd.Poll.Stages

namespace Bbdd.Poll

open Lib.Program Session Datapath

def shutEnds (dsess : DSession) : DSession := remoteEnd (localEnd dsess .adminDown .adminDown) .down .down

def Polling (bsess : BSession) : Prop := bsess.bstate = .awaitFinal ∨ bsess.bstate = .awaitNonFinal

/-- Both ends of a session after a change of its shutdown flag, if they changed. -/
inductive Turned (was wants : Bool) (dsess : DSession) : DSession → Prop
  | same : Turned was wants dsess dsess
  | enabled (hw : was = true) (hn : wants = false) : Turned was wants dsess (localEnd dsess .down .down)
  | disabled (hw : was = false) (hn : wants = true) : Turned was wants dsess (shutEnds dsess)

theorem Turned.remote {was wants : Bool} {dsess dsess' : DSession} (h : Turned was wants dsess dsess')
    (hn : ¬ (was = false ∧ wants = true)) :
    dsess'.remoteData = dsess.remoteData ∧ dsess'.localData.discr = dsess.localData.discr := by
  cases h with
  | same | enabled => exact ⟨rfl, rfl⟩
  | disabled hw hn' => exact absurd ⟨hw, hn'⟩ hn

section

variable {c c' : Ctx} {s : DSession}

theorem triple_same {α : Type} {p : Act α} {R : Ctx → Ctx → Prop} (hp : Within R p)
    (hR : ∀ c c', R c c' → c'.dsess = c.dsess) : Triple (·.dsess = s) p (fun _ c => c.dsess = s) :=
  hp.triple (fun c c' h hs => (hR c c' h).trans hs)

theorem triple_onBsess {f : BSession → BSession} :
    Triple (·.dsess = s) (onBsess f) (fun _ c => c.dsess = s) :=
  triple_update (fun _ h => h)

theorem updateNext_ends (d : Decision) (udata : BData) : Triple (·.dsess = s) (updateNext d udata)
    (fun r c => (c.dsess = s ∧ (d.needShwait = false → r.isOk = true)) ∨
      (d.needShwait = true ∧ r.isOk = true ∧ c.dsess = shutEnds s)) := by
  have done : ∀ c : Ctx, c.dsess = s → c.dsess = s ∧
    (d.needShwait = false → (Except.ok () : Except String Unit).isOk = true) :=
    fun _ h => ⟨h, fun _ => rfl⟩
  refine triple_ite (fun _ => ?_)
    (fun _ => triple_ite (fun hn => ?_) (fun _ => triple_pure (fun c h => .inl (done c h))))
  · exact triple_bind triple_onBsess (fun _ => triple_ite (fun _ => triple_crash _)
      (fun _ => triple_pure (fun c h => .inl (done c h))))
  · refine triple_attempt (triple_same timed_shwaitStart (fun _ _ h => h.dsess))
      (fun _ _ h => .inl ⟨h, ?_⟩) (fun _ => ?_)
    · intro hf
      rw [hn] at hf
      cases hf
    · refine triple_bind triple_onBsess (fun _ => ?_)
      refine triple_bind (Q := fun _ c => c.dsess = shutEnds s) (triple_update ?_) (fun _ => triple_pure ?_)
      · rintro c rfl
        rfl
      · exact fun c h => .inr ⟨hn, rfl, h⟩

theorem updateSettled_ends {d : Decision} (udata : BData) (hd : (d.stopShwait && d.needShwait) = false) :
    Triple (·.dsess = s) (updateSettled d udata) (fun r c => c.dsess = s ∨
      (d.stopShwait = true ∧ r.isOk = true ∧ c.dsess = localEnd s .down .down) ∨
      (d.needShwait = true ∧ r.isOk = true ∧ c.dsess = shutEnds s)) := by
  cases hs : d.stopShwait with
  | false =>
    refine triple_bind (Q := fun _ c => c.dsess = s)
      (triple_whenever (fun h => by rw [hs] at h; cases h) (fun _ _ => id)) (fun _ => ?_)
    exact (updateNext_ends d udata).mono (fun _ => id) (fun _ _ h => h.imp And.left .inr)
  | true =>
    have hn : d.needShwait = false := by simpa [hs] using hd
    refine triple_bind (Q := fun _ c => c.dsess = localEnd s .down .down)
      (triple_whenever (fun _ => triple_update ?_) (fun h => by rw [hs] at h; cases h)) (fun _ => ?_)
    · rintro c rfl
      rfl
    · refine (updateNext_ends d udata).mono (fun _ => id) (fun _ _ h => ?_)
      obtain ⟨h, hok⟩ | ⟨h, -⟩ := h
      · exact .inr (.inl ⟨rfl, hok hn, h⟩)
      · rw [hn] at h
        cases h

theorem updateApply_ends (d : Decision) (udata : BData) : Triple (·.dsess = s) (updateApply d udata)
    (fun r c => c.dsess = s ∨
      (d.stopShwait = true ∧ r.isOk = true ∧ c.dsess = localEnd s .down .down) ∨
      (d.needShwait = true ∧ r.isOk = true ∧ c.dsess = shutEnds s)) := by
  refine triple_ite (fun _ => triple_crash _) (fun hx => triple_read (fun c hc => ?_))
  have hd : (d.stopShwait && d.needShwait) = false := by
    rw [Bool.or_eq_true, not_or, Bool.not_eq_true] at hx
    exact hx.1
  have settled := (updateSettled_ends (s := s) udata hd).mono (fun c' (h : c' = c) => h ▸ hc) (fun _ _ => id)
  cases c.bsess.bstate with
  | onHold => exact triple_crash _
  | stable => exact settled
  | awaitFinal | awaitNonFinal =>
    refine triple_ite (fun _ => triple_bind (Q := fun _ c => c.dsess = s) (triple_update ?_)
      (fun _ => ?_)) (fun _ => ?_)
    · rintro c' rfl
      exact hc
    · exact triple_pure (fun _ => .inl)
    · exact triple_pure (fun c' h => .inl (h ▸ hc))
  | shuttingDown =>
    refine triple_ite (fun _ => ?_) (fun _ => settled)
    refine triple_bind (Q := fun _ c => c.dsess = s) ?_ (fun _ => ?_)
    · exact (triple_same timed_shwaitStop (fun _ _ h => h.dsess)).mono (fun c' h => h ▸ hc) (fun _ _ => id)
    · exact triple_bind triple_onBsess (fun _ => updateSettled_ends udata hd)

theorem handleSessionUpdate_ends {r : Except String Unit} {bdata : BData}
    (h : handleSessionUpdate c = .ok (r, c')) (hb : injectBdata c.bsess = some bdata) :
    Turned bdata.shutdown c.dsess.localData.flags.shutdown c.dsess c'.dsess ∧
      (c'.dsess = c.dsess ∨ r.isOk = true) := by
  have h := read_ok.mp h
  simp only [hb] at h
  generalize hd : updateDecision c.dsess.localData.state.state (userBdata c.dsess) bdata = d at h
  obtain ⟨_, c₁, h₁, h⟩ := bind_ok.mp h
  have hs : c₁.dsess = c.dsess :=
    triple_whenever (fun _ => triple_onBsess) (fun _ _ => id) c () c₁ rfl h₁
  obtain hsame | ⟨hstop, hok, hopen⟩ | ⟨hneed, hok, hshut⟩ := updateApply_ends d _ c₁ r c' hs h
  · rw [hsame]
    exact ⟨.same, .inl rfl⟩
  · refine ⟨?_, .inr hok⟩
    rw [hopen]
    rw [← hd, updateDecision] at hstop
    split at hstop
    · cases hstop
    · simp only [userBdata, Bool.and_eq_true, Bool.not_eq_true'] at hstop
      exact .enabled hstop.2 hstop.1
  · refine ⟨?_, .inr hok⟩
    rw [hshut]
    rw [← hd, updateDecision] at hneed
    split at hneed
    · rename_i hflags
      simp only [userBdata, Bool.and_eq_true, Bool.not_eq_true'] at hflags
      exact .disabled hflags.2 hflags.1
    · cases hneed

theorem updateApply_polling (d : Decision) (udata : BData) :
    Triple (fun c => c.dsess = s ∧ Polling c.bsess) (updateApply d udata)
      (fun _ c => c.dsess = s) := by
  refine triple_ite (fun _ => triple_crash _) (fun _ => triple_read (fun c hc => ?_))
  obtain ⟨hs, hb⟩ := hc
  have queued : Triple (fun c' => c' = c)
      (if (d.needPoll || d.needShwait || d.stopShwait) = true then do
        onBsess (fun s => { s with qdChange := true })
        pure (.ok ())
      else pure (.ok ())) (fun (_ : Except String Unit) c => c.dsess = s) := by
    refine triple_ite (fun _ => triple_bind (Q := fun _ c => c.dsess = s) (triple_update ?_)
      (fun _ => ?_)) (fun _ => ?_)
    · rintro c' rfl
      exact hs
    · exact triple_pure (fun _ => id)
    · exact triple_pure (fun c' h => h ▸ hs)
  obtain hb | hb := hb
  · simp only [hb]
    exact queued
  · simp only [hb]
    exact queued

theorem handleSessionUpdate_polling {r : Except String Unit} (h : handleSessionUpdate c = .ok (r, c'))
    (hb : Polling c.bsess) : c'.dsess = c.dsess := by
  have h := read_ok.mp h
  have hdata : injectBdata c.bsess = some c.bsess.dfrData := by
    obtain hb | hb := hb <;> simp only [injectBdata, hb]
  simp only [hdata] at h
  obtain ⟨_, c₁, h₁, h⟩ := bind_ok.mp h
  have hc₁ : c₁.dsess = c.dsess ∧ Polling c₁.bsess := by
    refine triple_whenever (P := fun c₁ => c₁ = c) (Q := fun _ c₁ => c₁.dsess = c.dsess ∧
      Polling c₁.bsess) (fun _ => triple_update ?_) ?_ c () c₁ rfl h₁
    · rintro c' rfl
      refine ⟨rfl, ?_⟩
      obtain hb | hb := hb <;> simp [Polling, setBdata, hb]
    · rintro - c' rfl
      exact ⟨rfl, hb⟩
  exact updateApply_polling _ _ c₁ r c' hc₁ h

theorem takeQdChange_ends (h : takeQdChange c = .ok ((), c')) {bdata : BData}
    (hb : injectBdata c.bsess = some bdata) :
    Turned bdata.shutdown c.dsess.localData.flags.shutdown c.dsess c'.dsess := by
  have h := read_ok.mp h
  obtain ⟨_, _, hw, h⟩ := bind_ok.mp h
  cases hw
  obtain ⟨r, c₁, h₁, h⟩ := bind_ok.mp h
  have hturn := (handleSessionUpdate_ends h₁ (show injectBdata _ = some bdata from hb)).1
  cases r with
  | error e =>
    cases h
    exact hturn
  | ok _ =>
    obtain ⟨-, rfl⟩ := pure_ok.mp h
    exact hturn

theorem gotNonFinal_ends (h : gotNonFinal c = .ok ((), c')) :
    c'.dsess = c.dsess ∨ c.bsess.qdChange = true ∧
      Turned c.bsess.dfrData.shutdown c.dsess.localData.flags.shutdown c.dsess c'.dsess := by
  obtain ⟨c₁, h, h₁⟩ := gotNonFinal_ok h
  rw [(within_sessionCallUpdate _ _ _ h).dsess]
  cases hq : c.bsess.qdChange <;> simp only [hq, if_true, Bool.false_eq_true, if_false] at h₁
  · exact .inl (by rw [h₁]; rfl)
  · exact .inr ⟨rfl, takeQdChange_ends h₁ rfl⟩

end

end Bbdd.Poll
