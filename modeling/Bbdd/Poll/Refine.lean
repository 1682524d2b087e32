import Bbdd.Poll.Machine

namespace Bbdd.Poll

open Lib.Program Packet Session Datapath

/-- A session that is shutting down has a wait whose timer is pending, which
is what stopping the wait relies on. -/
def Live (m : Machine) : Prop := m.bstate = .shuttingDown → ∃ id, m.shwait = some id ∧ Pending m.mine id

def granted (next : Nat) (r : Except String Unit) : Option Nat := if r.isOk then some next else none

@[simp] theorem granted_ok (next : Nat) (u : Unit) : granted next (.ok u) = some next := rfl

@[simp] theorem granted_error (next : Nat) (e : String) : granted next (.error e) = none := rfl

theorem injectBdata_view {c : Ctx} (h : c.bsess.bstate ≠ .onHold) :
    injectBdata c.bsess = some (view c).bdata := by
  cases hb : c.bsess.bstate with
  | onHold => exact absurd hb h
  | stable | awaitFinal | awaitNonFinal | shuttingDown => simp [injectBdata, Machine.bdata, view, hb]

theorem view_setBdata (c : Ctx) (data : BData) :
    view { c with bsess := setBdata c.bsess data } = (view c).setBdata data := by
  cases hb : c.bsess.bstate <;> simp [setBdata, Machine.setBdata, view, hb]

theorem stop_eq {m : Machine} {id : Nat} (h : m.shwait = some id) :
    m.stop = { m with mine := without m.mine id, shwait := none } := by
  simp [Machine.stop, h]

theorem shwaitStop_runs {c : Ctx} {id : Nat} (hs : c.bsess.shwait = some id)
    (hp : Pending (view c).mine id) :
    wp shwaitStop (fun _ c' => c'.dsess = c.dsess ∧ SameSupply c.bpf c'.bpf ∧ view c' = (view c).stop) c := by
  simp only [shwaitStop, wp_bind, wp_read, hs]
  refine wp_mono (timerCancel_runs hp.of_mine) (fun _ c₁ h₁ =>
    (wp_update _ _ _).mpr ⟨h₁.dsess, ⟨h₁.nextTimer, h₁.answers⟩, ?_⟩)
  calc view { c₁ with bsess := { c₁.bsess with shwait := none } }
      = { view c₁ with shwait := none } := rfl
    _ = { view c with mine := timersOf (without c.bpf.timers id) c.bsess.ptr, shwait := none } := by
        rw [view_frame h₁]; rfl
    _ = (view c).stop := by rw [stop_eq (m := view c) hs, timersOf_without]; rfl

theorem shwaitStart_runs {c : Ctx} (h : c.dsess.remoteData.timing.detectMult ≠ 0) :
    wp shwaitStart (fun r c' => c'.dsess = c.dsess ∧ (Supplied c.bpf → r.isOk = true) ∧
      view c' = match r with
        | .error _ => view c
        | .ok _ => (view c).start c.bpf.nextTimer) c := by
  obtain ⟨us, hus⟩ := sessionDetectTimeUs_isSome c.bsess.effData h
  simp only [shwaitStart, wp_bind, wp_read, hus]
  refine wp_mono (ask_runs c) (fun a c₁ h₁ => ?_)
  obtain ⟨h₁, n, rfl⟩ := h₁
  rw [wp_ite]
  split
  · rename_i ha
    exact (wp_pure _ _ _).mpr ⟨h₁.dsess, fun hs => by simp [(hs n).1] at ha, view_frame h₁⟩
  · rw [wp_attempt]
    refine wp_mono (timerSet_runs c₁ .shwait) (fun r c₂ h₂ => ?_)
    cases r with
    | error e =>
      have hf := h₁.trans h₂.1
      exact ⟨hf.dsess, fun hs => absurd ((supply_frame h₁).supplied hs) h₂.2, view_frame hf⟩
    | ok id =>
      obtain ⟨rfl, hf⟩ := h₂
      simp only [onBsess, wp_bind, wp_update, wp_pure]
      refine ⟨hf.dsess.trans h₁.dsess, fun _ => rfl, ?_⟩
      calc view { c₂ with bsess := { c₂.bsess with shwait := some c₁.bpf.nextTimer } }
          = { view c₂ with shwait := some c₁.bpf.nextTimer } := rfl
        _ = { view c₁ with
              mine := timersOf (c₁.bpf.timers ++ [⟨c₁.bpf.nextTimer, .shwait, c₁.bsess.discr, c₁.bsess.ptr⟩])
                c₁.bsess.ptr
              shwait := some c₁.bpf.nextTimer } := by rw [view_frame hf]; rfl
        _ = (view c₁).start c₁.bpf.nextTimer := by rw [timersOf_append _ ⟨_, _, _, c₁.bsess.ptr⟩]; rfl
        _ = (view c).start c.bpf.nextTimer := by rw [view_frame h₁, h₁.nextTimer]

/-- The poll machinery writes nothing of the daemon's session but the state of
its two ends. -/
def SameButEnds (d d' : DSession) : Prop :=
  ∃ l r, d' = { d with
    localData := { d.localData with state := l }, remoteData := { d.remoteData with state := r } }

theorem SameButEnds.refl (d : DSession) : SameButEnds d d := ⟨d.localData.state, d.remoteData.state, rfl⟩

theorem SameButEnds.trans {d e f : DSession} (h : SameButEnds d e) (k : SameButEnds e f) :
    SameButEnds d f := by
  obtain ⟨l, r, rfl⟩ := h
  obtain ⟨l', r', rfl⟩ := k
  exact ⟨l', r', rfl⟩

theorem SameButEnds.of_eq {d d' : DSession} (h : d' = d) : SameButEnds d d' := h ▸ .refl d

theorem updateDecision_exclusive (loc : PktState) (udata bdata : BData) :
    (updateDecision loc udata bdata).needShwait = true →
      (updateDecision loc udata bdata).stopShwait = false ∧
        (updateDecision loc udata bdata).needPoll = false := by
  unfold updateDecision
  split
  · exact fun _ => ⟨rfl, rfl⟩
  · exact fun h => absurd h Bool.false_ne_true

theorem updateNext_runs {c : Ctx} (h : c.dsess.remoteData.timing.detectMult ≠ 0) {d : Decision}
    (hd : d.needShwait = true → d.needPoll = false) :
    wp (updateNext d (userBdata c.dsess)) (fun r c' =>
      SameButEnds c.dsess c'.dsess ∧ (Supplied c.bpf → r.isOk = true) ∧
        view c' = (view c).begin (granted c.bpf.nextTimer r) d) c := by
  cases hp : d.needPoll with
  | true =>
    have hn : d.needShwait = false := Bool.eq_false_iff.mpr (fun hn => absurd (hd hn) (by simp [hp]))
    simp only [updateNext, hp, hn, if_true, onBsess, wp_bind, wp_update, Bool.false_eq_true, if_false, wp_pure]
    exact ⟨.refl _, fun _ => rfl, by simp [Machine.begin, hp, view]⟩
  | false =>
    cases hn : d.needShwait with
    | false =>
      simp only [updateNext, hp, hn, Bool.false_eq_true, if_false, wp_pure]
      exact ⟨.refl _, fun _ => rfl, by simp [Machine.begin, hp, hn]⟩
    | true =>
      simp only [updateNext, hp, hn, Bool.false_eq_true, if_false, if_true, wp_attempt]
      refine wp_mono (shwaitStart_runs h) (fun r c₁ h₁ => ?_)
      obtain ⟨hds, hsup, hv⟩ := h₁
      cases r with
      | error e => exact ⟨.of_eq hds, hsup, by simpa [Machine.begin, hp, hn] using hv⟩
      | ok _ =>
        simp only [onBsess, onDsess, wp_bind, wp_update, wp_pure]
        refine ⟨(SameButEnds.of_eq hds).trans ⟨⟨.adminDown, .adminDown⟩, ⟨.down, .down⟩, rfl⟩,
          fun _ => rfl, ?_⟩
        calc view { c₁ with
              dsess := remoteEnd (localEnd c₁.dsess .adminDown .adminDown) .down .down
              bsess := { c₁.bsess with dfrData := userBdata c.dsess, bstate := .shuttingDown } }
            = { view c₁ with
                dfr := userBdata c.dsess, bstate := .shuttingDown, loc := .adminDown, rem := .down } := rfl
          _ = (view c).shutDown c.bpf.nextTimer := by rw [hv]; rfl
          _ = (view c).begin (some c.bpf.nextTimer) d := by simp [Machine.begin, hp, hn]

theorem updateSettled_runs {c : Ctx} (h : c.dsess.remoteData.timing.detectMult ≠ 0) {d : Decision}
    (hd : d.needShwait = true → d.needPoll = false) :
    wp (updateSettled d (userBdata c.dsess)) (fun r c' =>
      SameButEnds c.dsess c'.dsess ∧ (Supplied c.bpf → r.isOk = true) ∧
        view c' = (view c).settle (granted c.bpf.nextTimer r) d) c := by
  cases hb : d.stopShwait with
  | false => simpa [updateSettled, Machine.settle, Machine.enable, hb] using updateNext_runs h hd
  | true =>
    have hn := updateNext_runs (c := { c with dsess := localEnd c.dsess .down .down }) h hd
    simp only [updateSettled, hb, wp_bind, wp_whenever, if_true, onDsess, wp_update]
    refine wp_mono hn (fun r c' hc => ⟨?_, hc.2.1, ?_⟩)
    · exact SameButEnds.trans ⟨⟨.down, .down⟩, c.dsess.remoteData.state, rfl⟩ hc.1
    · rw [hc.2.2]
      simp only [Machine.settle, Machine.enable, hb, if_true]
      rfl

theorem applied_runs (c : Ctx) :
    wp (whenever (view c).decision.applyImm (onBsess (fun s => setBdata s (userBdata c.dsess))))
      (fun _ c' => c'.dsess = c.dsess ∧ c'.bpf = c.bpf ∧ view c' = (view c).applied) c := by
  cases hi : (view c).decision.applyImm with
  | false => simp [Machine.applied, hi]
  | true =>
    simp only [wp_whenever, if_true, onBsess, wp_update, Machine.applied, hi]
    exact ⟨trivial, trivial, view_setBdata c _⟩

theorem applied_bstate (m : Machine) : m.applied.bstate = m.bstate := by
  unfold Machine.applied Machine.setBdata
  cases hb : m.bstate <;> split <;> simp [hb]

theorem applied_shwait (m : Machine) : m.applied.shwait = m.shwait ∧ m.applied.mine = m.mine := by
  unfold Machine.applied Machine.setBdata
  cases hb : m.bstate <;> split <;> simp

theorem decision_exclusive (m : Machine) :
    m.decision.needShwait = true → m.decision.stopShwait = false ∧ m.decision.needPoll = false :=
  updateDecision_exclusive _ _ _

theorem updateAwait_runs {c c₁ : Ctx}
    (hb : (view c).bstate = .awaitFinal ∨ (view c).bstate = .awaitNonFinal)
    (hds : c₁.dsess = c.dsess) (hv : view c₁ = (view c).applied) :
    wp (if (view c).decision.needPoll || (view c).decision.needShwait || (view c).decision.stopShwait then do
        onBsess (fun s => { s with qdChange := true })
        pure (.ok ())
      else pure (.ok ()) : Act (Except String Unit))
      (fun r c' => SameButEnds c.dsess c'.dsess ∧ (Supplied c₁.bpf → r.isOk = true) ∧
        view c' = (view c).update (granted c₁.bpf.nextTimer r)) c₁ := by
  rw [wp_ite]
  split
  · rename_i hq
    refine (wp_bind _ _ _ _).mpr ((wp_update _ _ _).mpr ((wp_pure _ _ _).mpr ⟨.of_eq hds, fun _ => rfl, ?_⟩))
    rw [Machine.update_await hb, if_pos hq, ← hv]
    rfl
  · rename_i hq
    refine (wp_pure _ _ _).mpr ⟨.of_eq hds, fun _ => rfl, ?_⟩
    rw [Machine.update_await hb, if_neg hq, hv]

theorem handleSessionUpdate_runs {c : Ctx} (h : Ready c) (hl : Live (view c)) :
    wp handleSessionUpdate (fun r c' =>
      SameButEnds c.dsess c'.dsess ∧ (Supplied c.bpf → r.isOk = true) ∧
        view c' = (view c).update (granted c.bpf.nextTimer r)) c := by
  have hx := decision_exclusive (view c)
  have hd : (view c).decision.needShwait = true → (view c).decision.needPoll = false := fun hn => (hx hn).2
  simp only [handleSessionUpdate, wp_bind, wp_read, injectBdata_view h.awake]
  refine wp_mono (applied_runs c) (fun _ c₁ h₁ => ?_)
  obtain ⟨hds, hbpf, hv₁⟩ := h₁
  have hb₁ : c₁.bsess.bstate = c.bsess.bstate := by
    have := congrArg Machine.bstate hv₁
    rwa [applied_bstate] at this
  have hm₁ : c₁.dsess.remoteData.timing.detectMult ≠ 0 := hds ▸ h.remoteMult
  have hu₁ : userBdata c.dsess = userBdata c₁.dsess := by rw [hds]
  have hguard : ¬ (((view c).decision.stopShwait && (view c).decision.needShwait) ||
      ((view c).decision.needPoll && (view c).decision.needShwait)) = true := by
    cases hn : (view c).decision.needShwait with
    | false => simp
    | true => simp [hx hn]
  change wp (updateApply (view c).decision (userBdata c.dsess)) _ c₁
  simp only [updateApply, if_neg hguard, wp_bind, wp_read, hb₁]
  rw [← hbpf]
  cases hb : c.bsess.bstate with
  | onHold => exact absurd hb h.awake
  | stable =>
    rw [hu₁]
    refine wp_mono (updateSettled_runs hm₁ hd) (fun r c' hc => ⟨hds ▸ hc.1, hc.2.1, ?_⟩)
    rw [hc.2.2, hv₁, Machine.update_stable (m := view c) hb]
  | awaitFinal => exact updateAwait_runs (.inl hb) hds hv₁
  | awaitNonFinal => exact updateAwait_runs (.inr hb) hds hv₁
  | shuttingDown =>
    rw [wp_ite]
    split
    · rename_i hstop
      obtain ⟨id, hs, hp⟩ := hl hb
      have hs₁ : (view c₁).shwait = some id := by rw [hv₁, (applied_shwait (view c)).1, hs]
      have hp₁ : Pending (view c₁).mine id := by rwa [hv₁, (applied_shwait (view c)).2]
      refine wp_seq (shwaitStop_runs hs₁ hp₁) (fun _ c₂ h₂ => ?_)
      obtain ⟨hds₂, hsup₂, hv₂⟩ := h₂
      refine (wp_bind _ _ _ _).mpr ((wp_update _ _ _).mpr ?_)
      have hn := updateSettled_runs (c := { c₂ with bsess := { c₂.bsess with bstate := .awaitFinal } })
        (d := (view c).decision) (hds₂ ▸ hm₁) hd
      have hu₂ : userBdata c.dsess = userBdata c₂.dsess := by rw [hds₂, hds]
      rw [hu₂]
      refine wp_mono hn (fun r c' hc =>
        ⟨(SameButEnds.of_eq (hds₂.trans hds)).trans hc.1, fun hs => hc.2.1 (hsup₂.supplied hs), ?_⟩)
      rw [hc.2.2, Machine.update_shuttingDown (m := view c) hb, if_pos hstop, ← hv₁, ← hv₂, ← hsup₂.1]
      rfl
    · rename_i hstop
      rw [hu₁]
      refine wp_mono (updateSettled_runs hm₁ hd) (fun r c' hc => ⟨hds ▸ hc.1, hc.2.1, ?_⟩)
      rw [hc.2.2, hv₁, Machine.update_shuttingDown (m := view c) hb, if_neg hstop]

end Bbdd.Poll
