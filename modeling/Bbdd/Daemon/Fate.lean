import Bbdd.Daemon.Reach

namespace Bbdd.Daemon

open Lib.Program Lib.Directory Session TxQueue Datapath

/-- What an event is to one session: it is about others, the session leaves
or is not entered, it is entered, it is dealt with once, or the queue is drained. -/
inductive Fate (env : Env) (w : World) (e : Event) (d : UInt32) (w' : World) : Prop
  | apart : Elsewhere d (w.enter env) w' → Fate env w e d w'
  | gone : w'.sdir.find d = none → Fate env w e d w'
  | made {dsess v v'} : Adds w d e → Creates env.nl d dsess e → Elsewhere d (w.enter env) v →
      Step (.create d dsess) v v' → Elsewhere d v' w' → Fate env w e d w'
  | handled {v h c c'} : Elsewhere d (w.enter env) v → v.session d = some c → Calls env.nl w e (.handler d h) →
      Handled h c c' → Elsewhere d (v.put d c') w' → Fate env w e d w'
  | drained {bound} : e = .pollout bound → Drains (w.enter env) w' → Fate env w e d w'

section

variable {w w' v : World} {d : UInt32} {c c' : Ctx}

theorem Apart.before (h : Apart d w v) (hc : v.session d = some c) :
    w.session d = some { c with bpf := w.bpf } := by
  rw [h.session] at hc
  obtain ⟨c₀, hc₀, rfl⟩ := Option.map_eq_some_iff.mp hc
  rw [hc₀, ← (session_eq_some.mp hc₀).2.2]

theorem within_drainSlot (slot : TxSlot) : Within Frame (drainSlot slot) :=
  within_bind (within_reported (within_ite (within_sessionInjectPkt _ _) within_sessionUpdateInner) _)
    (fun _ => within_update (fun c => { Frame.refl c with }))

theorem drain_dsess {e : UInt32} {kind : SlotKind} (hw : Sound w)
    (h : Step (.handler e (.drain kind)) w w') :
    w'.sdir.find d = w.sdir.find d := by
  by_cases he : e = d
  · subst he
    cases h with
    | @handled _ _ _ c c' hc hh =>
      cases hh with
      | drain _ hl hr =>
        rw [World.put, Dir.find_insert_self, (session_eq_some.mp hc).1, (within_drainSlot _ _ _ _ hr).dsess]
        rfl
  · exact (h.apart hw (by simpa [Label.about] using he)).sdir

theorem Drains.dsess (h : Drains w w') (hw : Sound w) : w'.sdir.find d = w.sdir.find d := by
  have hk := keeps_of_moves (I := fun v => Sound v ∧ v.sdir.find d = w.sdir.find d)
    (fun u v hs hv => ?_) h ⟨hw, rfl⟩
  · exact hk.2
  · obtain hs | ⟨e, kind, hs⟩ := hs
    · exact ⟨hs.sound hv.1, (hs.apart hv.1 (by simp [Label.about])).sdir.trans hv.2⟩
    · exact ⟨hs.sound hv.1, (drain_dsess hv.1 hs).trans hv.2⟩

theorem step_fate {env : Env} {e : Event} (hw : Sound w) (h : daemon.step w (env, e) w')
    (d : UInt32) : Fate env w e d w' := by
  obtain ⟨-, ds, hc⟩ | ⟨⟨bound, he⟩, hd⟩ := step_done hw h
  · obtain ⟨-, he⟩ | ⟨-, l, w₁, w₂, ha, hl, h₁, hs, h₂⟩ := hc.single d
    · exact .apart he
    · have hw₁ := (h₁.apart (hw.enter env)).1
      have hsd := (h₂.apart (hs.sound hw₁)).2.sdir
      cases l with
      | shared => simp [Label.about] at ha
      | handler f h =>
        cases ha
        cases hs with
        | handled hc hh => exact .handled h₁ hc hl hh h₂
      | create f dsess =>
        cases ha
        exact .made hl.create_inv.1 hl.create_inv.2 h₁ hs h₂
      | refuse f =>
        cases ha
        cases hs with
        | refuse hn => exact .gone (hsd.trans hn)
      | remove f =>
        cases ha
        cases hs with
        | remove hc hr => exact .gone (hsd.trans (by simp [World.drop]))
  · exact .drained he hd

theorem before_enter {env : Env} (hw : Sound w) (h : Elsewhere d (w.enter env) v)
    (hc : v.session d = some c) :
    w.session d = some { c with bpf := w.bpf } := by
  obtain ⟨hsd, hbd, -⟩ := session_eq_some.mp ((h.apart (hw.enter env)).2.before hc)
  exact session_eq_some.mpr ⟨hsd, hbd, rfl⟩

theorem step_dsess {env : Env} {e : Event} (hw : Sound w) (h : daemon.step w (env, e) w') {dsess : DSession}
    (hd : w'.sdir.find d = some dsess) :
    w.sdir.find d = some dsess ∨ (Adds w d e ∧ Creates env.nl d dsess e) ∨
      ∃ h c c', w.session d = some { c with bpf := w.bpf } ∧ Calls env.nl w e (.handler d h) ∧ Handled h c c' ∧
        dsess = c'.dsess := by
  cases step_fate hw h d with
  | apart he => exact .inl ((he.apart (hw.enter env)).2.sdir.symm.trans hd)
  | gone hn =>
    rw [hn] at hd
    cases hd
  | @made dsess₁ v v' ha hcr h₁ hs h₂ =>
    have hw₁ := (h₁.apart (hw.enter env)).1
    rw [(h₂.apart (hs.sound hw₁)).2.sdir] at hd
    cases hs with
    | @create _ _ _ n c' sports hn hb ht hr =>
      have hd₁ : (v.put d c').sdir.find d = some dsess := hd
      rw [World.put, Dir.find_insert_self, (hw₁.added hr).2.1.dsess] at hd₁
      cases hd₁
      exact .inr (.inl ⟨ha, hcr⟩)
  | @handled v h c c' h₁ hc hl hh h₂ =>
    obtain ⟨hw₁, -⟩ := h₁.apart (hw.enter env)
    rw [(h₂.apart (hw₁.handling hc (hw₁.handled hc hh))).2.sdir, World.put, Dir.find_insert_self] at hd
    exact .inr (.inr ⟨h, c, c', before_enter hw h₁ hc, hl, hh, (Option.some.inj hd).symm⟩)
  | drained _ hdr => exact .inl ((hdr.dsess (hw.enter env)).symm.trans hd)

/-- What an event is to a session that is there before it and after it: nothing,
it is dealt with once, or the queue is drained. -/
inductive Stays (env : Env) (w : World) (e : Event) (d : UInt32) (c c' : Ctx) (w' : World) : Prop
  | apart : c'.dsess = c.dsess → c'.bsess = c.bsess → Stays env w e d c c' w'
  | handled {v h b} : Elsewhere d (w.enter env) v → Sound v → v.bpf.answers = env.answers →
      v.session d = some { c with bpf := v.bpf } → Calls env.nl w e (.handler d h) →
      Handled h { c with bpf := v.bpf } { c' with bpf := b } → Sound (v.put d { c' with bpf := b }) →
      Elsewhere d (v.put d { c' with bpf := b }) w' → Stays env w e d c c' w'
  | drained {bound} : e = .pollout bound → Drains (w.enter env) w' → Stays env w e d c c' w'

theorem step_stays {env : Env} {e : Event} (hw : Sound w) (h : daemon.step w (env, e) w')
    (hc : w.session d = some c) (hc' : w'.session d = some c') : Stays env w e d c c' w' := by
  have hwe := hw.enter env
  have hce := session_enter hc env
  cases step_fate hw h d with
  | apart he =>
    rw [(he.apart hwe).2.session, hce] at hc'
    cases hc'
    exact .apart rfl rfl
  | gone hn =>
    rw [session_eq_none hn] at hc'
    cases hc'
  | made _ _ h₁ hs _ =>
    cases hs with
    | create hn =>
      rw [(h₁.apart hwe).2.sdir, (session_eq_some.mp hce).1] at hn
      cases hn
  | @handled v h c₁ c₂ h₁ hc₁ hl hh h₂ =>
    obtain ⟨hw₁, ha₁⟩ := h₁.apart hwe
    have hv : v.session d = some { c with bpf := v.bpf } := by
      rw [ha₁.session, hce]
      rfl
    have hsound : Sound (v.put d c₂) := (Step.handled hc₁ hh).sound hw₁
    cases hc₁.symm.trans hv
    rw [(h₂.apart hsound).2.session, session_put_self] at hc'
    cases hc'
    exact .handled h₁ hw₁ ha₁.answers hv hl hh hsound h₂
  | drained he hd => exact .drained he hd

end

end Bbdd.Daemon
