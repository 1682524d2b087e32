import Bbdd.Daemon.Replay
import Bbdd.Poll.Admin

namespace Bbdd.Poll

open Datapath

def Machine.owed (m : Machine) : List Timer :=
  (m.hold.map fun id => ⟨id, .hold, m.discr, m.ptr⟩).toList ++
    (m.shwait.map fun id => ⟨id, .shwait, m.discr, m.ptr⟩).toList

/-- A session has a wait only while it shuts down, and no timers but those of
its objects. -/
structure Owned (m : Machine) : Prop where
  wait : m.shwait.isSome = true ↔ m.bstate = .shuttingDown
  mine : m.mine = m.owed

variable {m m' : Machine} {fresh : Option Nat}

theorem Owned.shwait_none (h : Owned m) (hb : m.bstate ≠ .shuttingDown) : m.shwait = none := by
  by_contra hs
  exact hb (h.wait.mp (Option.isSome_iff_ne_none.mpr hs))

theorem Owned.mine_nil (h : Owned m) (hh : m.hold = none) (hb : m.bstate ≠ .shuttingDown) :
    m.mine = [] := by
  rw [h.mine, Machine.owed, hh, h.shwait_none hb]
  rfl

theorem owned_of_none (hs : m.shwait = none) (hh : m.hold = none) (hm : m.mine = [])
    (hb : m.bstate ≠ .shuttingDown) :
    Owned m :=
  ⟨by simp [hs, hb], by simp [Machine.owed, hs, hh, hm]⟩

theorem Owned.stop (h : Owned m) (hh : m.hold = none) :
    m.stop.shwait = none ∧ m.stop.hold = none ∧ m.stop.mine = [] := by
  have hm := h.mine
  rw [Machine.owed, hh] at hm
  unfold Machine.stop
  cases hs : m.shwait with
  | none =>
    rw [hs] at hm
    exact ⟨hs, hh, hm⟩
  | some id =>
    rw [hs] at hm
    exact ⟨rfl, hh, by simp [hm, without]⟩

theorem Updated.owned (h : Updated m fresh m') (ho : Owned m) (hh : m.bstate ≠ .onHold → m.hold = none)
    (hg : m.bstate = .shuttingDown → m.user.shutdown = true → SameTimes m.user m.dfr) : Owned m' := by
  have idle : m.bstate ≠ .onHold → m.bstate ≠ .shuttingDown → m.shwait = none ∧ m.hold = none ∧ m.mine = [] :=
    fun h₁ h₂ => ⟨ho.shwait_none h₂, hh h₁, ho.mine_nil (hh h₁) h₂⟩
  cases h with
  | held hb => exact ho
  | shut hb hc hi =>
    obtain ⟨h₁, h₂, h₃⟩ := idle (by simp [hb]) (by simp [hb])
    exact ⟨by simp [Machine.shutDown, Machine.start], by
      simp [Machine.owed, Machine.shutDown, Machine.start, h₂, h₃]⟩
  | starved hb hc hn => exact ho
  | polling hb hc hs he =>
    obtain ⟨h₁, h₂, h₃⟩ := idle (by simp [hb]) (by simp [hb])
    exact owned_of_none h₁ h₂ h₃ (by simp)
  | settled hb hc hs =>
    obtain ⟨h₁, h₂, h₃⟩ := idle (by simp [hb]) (by simp [hb])
    exact owned_of_none h₁ h₂ h₃ (by simp [hb])
  | enabled hb hu =>
    obtain ⟨h₁, h₂, h₃⟩ := ho.stop (hh (by simp [hb]))
    exact owned_of_none h₁ h₂ h₃ (by simp)
  | repolled hb hu hs => exact absurd (hg hb hu) hs
  | waiting hb hu hs => exact ⟨ho.wait, ho.mine⟩
  | queued hb hs hd => exact ⟨ho.wait, ho.mine⟩
  | merged hb hs hd => exact ⟨ho.wait, ho.mine⟩

theorem owned_conclude (hs : m.shwait = none) (hh : m.hold = none) (hm : m.mine = []) :
    Owned (m.conclude fresh) := by
  obtain ⟨-, h⟩ | ⟨-, h⟩ := conclude_cases m fresh
  · rw [h]
    exact owned_of_none hs hh hm (by simp)
  · exact h.owned (owned_of_none hs hh hm (by simp)) (fun _ => hh) (by simp)

theorem Owned.silenced (h : Owned m) : Owned m.silenced := by
  unfold Machine.silenced
  split
  · exact ⟨h.wait, h.mine⟩
  · exact h

theorem Owned.answered (h : Owned m) (hh : m.bstate ≠ .onHold → m.hold = none) (final : Bool) :
    Owned (m.answered final fresh) := by
  unfold Machine.answered
  split
  · rename_i hb
    exact ⟨by simp [h.shwait_none (by simp [hb])], h.mine⟩
  · rename_i hb
    have hn := hh (by simp [hb])
    exact owned_conclude (h.shwait_none (by simp [hb])) hn (h.mine_nil hn (by simp [hb]))
  · exact h

/-- A session that is shutting down stays shut down with the intervals it has
announced, or is enabled. -/
def Steady (m : Machine) : Cause → Prop
  | .configure user => m.bstate = .shuttingDown → user.shutdown = true → SameTimes user m.dfr
  | .hold _ | .shwait _ | .packet .. | .timeout => True

theorem Owned.release (h : Owned m) (hs : Sane m) {id : Nat} (hh : m.hold = some id) :
    Owned (m.release id) := by
  have hb := hs.onHold hh
  have hn := (hs.held hb).2.1
  have hm := h.mine
  rw [Machine.owed, hh, hn] at hm
  exact owned_of_none hn rfl (by simp [Machine.release, hm, without]) (by simp [Machine.release])

theorem Owned.shwaitExpire (h : Owned m) (hh : m.hold = none) (hf : Fresh m fresh) {id : Nat}
    (hm : ⟨id, .shwait, m.discr, m.ptr⟩ ∈ m.mine) : Owned (m.shwaitExpire id fresh) := by
  obtain ⟨h₁, h₂, h₃⟩ := h.stop hh
  have hc : Owned (m.stop.conclude fresh) := owned_conclude h₁ h₂ h₃
  obtain ⟨hk, hs⟩ := conclude_kept m.stop fresh
  refine ⟨hc.wait, ?_⟩
  have howed : ∀ t ∈ (m.stop.conclude fresh).mine, t.id ≠ id := by
    intro t ht
    rw [hc.mine, Machine.owed, hk.hold, h₂] at ht
    obtain hs | hs := hs h₁ <;> rw [hs] at ht
    · cases ht
    · cases hfr : fresh with
      | none => rw [hfr] at ht; cases ht
      | some i =>
        rw [hfr] at ht
        rw [List.mem_singleton.mp ht]
        exact fun he => hf i hfr _ hm he.symm
  change without (m.stop.conclude fresh).mine id = (m.stop.conclude fresh).owed
  rw [← hc.mine]
  exact List.filter_eq_self.mpr (fun t ht => by simpa using howed t ht)

theorem Owned.stir (h : Owned m) (hs : Sane m) {s : Cause} (he : Enabled m s) (hf : Fresh m fresh)
    (hg : Steady m s) :
    Owned (m.stir fresh s) := by
  have hold : m.bstate ≠ .onHold → m.hold = none := fun hb => (hs.fit hb).2
  cases s with
  | configure user =>
    change Owned (m.configure user fresh)
    unfold Machine.configure
    split
    · exact ⟨h.wait, h.mine⟩
    · have hsh := fun hb => And.intro (hs.course.shutting hb).1 (hs.course.shutting hb).2.1
      exact (update_spec (m := { m with user := user }) hsh).owned ⟨h.wait, h.mine⟩ hold hg
  | hold id => exact h.release hs he
  | shwait id =>
    have hb := hs.awake he.2
    exact h.shwaitExpire (hold hb) hf he.1
  | packet rem mult final =>
    have hh : Owned (m.heard rem mult) := ⟨h.wait, h.mine⟩
    exact hh.answered hold final
  | timeout =>
    change Owned (m.timeout fresh)
    unfold Machine.timeout
    split
    · exact h
    · exact h.silenced
    · rename_i hb
      have hn := hold (by simp [hb])
      exact (owned_conclude (h.shwait_none (by simp [hb])) hn (h.mine_nil hn (by simp [hb]))).silenced
    · rename_i hb
      have hn := hold (by simp [hb])
      exact (owned_conclude (h.shwait_none (by simp [hb])) hn (h.mine_nil hn (by simp [hb]))).silenced
    · rename_i hb
      obtain ⟨h₁, h₂, h₃⟩ := h.stop (hold (by simp [hb]))
      exact (owned_conclude h₁ h₂ h₃).silenced

end Bbdd.Poll

namespace Bbdd.Daemon

open Lib.Transition Packet Session TxQueue Datapath Poll

def Attended (w : World) : Prop := ∀ t ∈ w.bpf.timers, ∃ d c, w.session d = some c ∧ c.bsess.ptr = t.owner

section

variable {w w' : World} {d : UInt32} {c c' : Ctx}

theorem Attended.setBpf {b : Bpf} (h : Attended w) (hb : b.timers = w.bpf.timers) :
    Attended (w.setBpf b) := by
  intro t ht
  change t ∈ b.timers at ht
  rw [hb] at ht
  obtain ⟨d, c, hc, ho⟩ := h t ht
  exact ⟨d, { c with bpf := b }, session_setBpf_of hc b, ho⟩

theorem Attended.put (h : Attended w) (hc : w.session d = some c) (ha : TimersApart c c') :
    Attended (w.put d c') := by
  intro t ht
  obtain ht | ⟨ho, -⟩ := ha.owned t ht
  · rw [(session_eq_some.mp hc).2.2] at ht
    obtain ⟨e, s, hs, ho⟩ := h t ht
    by_cases he : e = d
    · subst he
      rw [hc] at hs
      cases hs
      exact ⟨e, c', session_put_self .., ha.ptr.trans ho⟩
    · exact ⟨e, { s with bpf := c'.bpf }, by rw [session_put, if_neg he, hs]; rfl, ho⟩
  · exact ⟨d, c', session_put_self .., ha.ptr.trans ho.symm⟩

theorem Attended.drop (h : Attended w) (hc : w.session d = some c) (ha : TimersApart c c')
    (hm : timersOf c'.bpf.timers c.bsess.ptr = []) : Attended (w.drop d c') := by
  intro t ht
  have hne : t.owner ≠ c.bsess.ptr := by
    intro ho
    have : t ∈ timersOf c'.bpf.timers c.bsess.ptr := mem_timersOf.mpr ⟨ht, ho⟩
    rw [hm] at this
    cases this
  obtain ht | ⟨ho, -⟩ := ha.owned t ht
  · rw [(session_eq_some.mp hc).2.2] at ht
    obtain ⟨e, s, hs, ho⟩ := h t ht
    have he : e ≠ d := by
      rintro rfl
      rw [hc] at hs
      cases hs
      exact hne ho.symm
    exact ⟨e, { s with bpf := c'.bpf }, by rw [session_drop, if_neg he, hs]; rfl, ho⟩
  · exact absurd ho hne

theorem owned_deleted (hw : Sound w) (hc : w.session d = some c) (ho : Owned (view c)) {n : Nat}
    (hr : sessionDel n c = .ok ((), c')) : timersOf c'.bpf.timers c.bsess.ptr = [] := by
  obtain ⟨hm, hv, -⟩ := hw.deleted hc hr
  have hptr := (Moves.timers hm (hw.timersOk hc)).2.ptr
  have hmine : (view c').mine = [] := by
    rw [hv]
    have hok := (hw.session d c hc).sane
    by_cases hb : (view c).bstate = .onHold
    · obtain ⟨id, hid⟩ := Option.isSome_iff_exists.mp (hok.held hb).1
      have hs := (hok.held hb).2.1
      have hmine := ho.mine
      rw [Machine.owed, hid, hs] at hmine
      simp [Machine.unhold, Machine.stop, hid, hs, hmine, without]
    · have hh := (hok.fit hb).2
      have hun : (view c).unhold = view c := by simp [Machine.unhold, hh]
      rw [hun]
      exact (ho.stop hh).2.2
  rw [← hptr]
  exact hmine

theorem Step.attended {l : Label} (h : Step l w w') (hw : Sound w) (ha : Attended w)
    (ho : ∀ d m, l.about = some d → w.machine d = some m → Owned m) : Attended w' := by
  cases h with
  | shared hb => exact ha.setBpf hb.unseen.timers
  | handled hc hh => exact ha.put hc (Moves.timers (hw.handled hc hh).moves (hw.timersOk hc)).2
  | @create _ d dsess n c' sports hd hb _ hr =>
    have happ := (Moves.timers (hw.added hr).1 (hw.fresh_timers d dsess)).2
    intro t ht
    obtain ht | ⟨ho, -⟩ := happ.owned t ht
    · obtain ⟨e, s, hs, ho⟩ := ha t ht
      have he : e ≠ d := by
        rintro rfl
        rw [session_eq_none hd] at hs
        cases hs
      exact ⟨e, { s with bpf := c'.bpf }, by
        change (w.put d c').session e = _
        rw [session_put, if_neg he, hs]; rfl, ho⟩
    · refine ⟨d, c', ?_, happ.ptr.trans ho.symm⟩
      change (w.put d c').session d = _
      rw [session_put_self]
  | @refuse _ d dsess n err c' hd hb hr =>
    obtain ⟨hm, -, hv⟩ := hw.added hr
    have happ := (Moves.timers hm (hw.fresh_timers d dsess)).2
    intro t ht
    obtain ht' | ⟨ho, -⟩ := happ.owned t ht
    · obtain ⟨e, s, hs, ho⟩ := ha t ht'
      refine ⟨e, { s with bpf := c'.bpf }, ?_, ho⟩
      exact session_setBpf_of hs c'.bpf
    · -- what could not be set up has no timer left
      have hmine : (view c').mine = [] := by rw [hv]; exact hw.fresh_mine d dsess
      have : t ∈ (view c').mine := mem_timersOf.mpr ⟨ht, by rw [happ.ptr]; exact ho⟩
      rw [hmine] at this
      cases this
  | @remove _ d c n c' hc hr =>
    have hown : Owned (view c) := ho d _ rfl (by rw [World.machine, hc]; rfl)
    exact ha.drop hc (Moves.timers (hw.deleted hc hr).1 (hw.timersOk hc)).2 (owned_deleted hw hc hown hr)

theorem Chain.attended {calls : Label → Prop} {ds : List UInt32} (h : Chain calls ds w w') (hw : Sound w)
    (ha : Attended w) (ho : ∀ d m, w.machine d = some m → d ∈ ds → Owned m) : Attended w' := by
  induction h with
  | refl => exact ha
  | quiet hs _ ih =>
    refine ih (hs.sound hw) (hs.attended hw ha (fun d m hd => by cases hd)) (fun d m hm hd => ho d m ?_ hd)
    rw [← (hs.apart hw (by simp [Label.about])).machine]
    exact hm
  | @step e ds l v v₁ v' hl hab hn hs _ ih =>
    refine ih (hs.sound hw) (hs.attended hw ha (fun d m hd hm => ?_)) (fun d m hm hd => ?_)
    · rw [hab] at hd
      cases hd
      exact ho e m hm List.mem_cons_self
    · have hne : l.about ≠ some d := by
        rw [hab]
        rintro ⟨rfl⟩
        exact hn hd
      rw [(hs.apart hw hne).machine] at hm
      exact ho d m hm (List.mem_cons_of_mem _ hd)

theorem step_attended {env : Env} {e : Event} (hw : Sound w) (h : daemon.step w (env, e) w')
    (ha : Attended w) (ho : ∀ d m, w.machine d = some m → Owned m) : Attended w' := by
  have ha' : Attended (w.enter env) := ha.setBpf (enter_unseen w env).timers
  obtain ⟨-, ds, hc⟩ | ⟨-, hd⟩ := step_done hw h
  · exact hc.attended (hw.enter env) ha' (fun d m hm _ => ho d m (machine_enter w env d ▸ hm))
  · refine (Lib.Program.keeps_of_moves (I := fun v => Sound v ∧ Attended v) (fun u v hs hv => ?_) hd
      ⟨hw.enter env, ha'⟩).2
    obtain hs | ⟨e, kind, hs⟩ := hs
    · exact ⟨hs.sound hv.1, hs.attended hv.1 hv.2 (fun d m hd => by cases hd)⟩
    · refine ⟨hs.sound hv.1, ?_⟩
      cases hs with
      | handled hc hh => exact hv.2.put hc (Moves.timers (hv.1.handled hc hh).moves (hv.1.timersOk hc)).2

/-- A session has a hold exactly while it is on hold and a wait exactly while
it shuts down, and the pending timers are exactly those of these objects. -/
structure TimersOwned (w : World) : Prop where
  hold : ∀ d c, w.session d = some c → (c.bsess.hold.isSome = true ↔ c.bsess.bstate = .onHold)
  wait : ∀ d c, w.session d = some c → (c.bsess.shwait.isSome = true ↔ c.bsess.bstate = .shuttingDown)
  pending : ∀ t, t ∈ w.bpf.timers ↔ ∃ d c, w.session d = some c ∧ t ∈ (view c).owed
  once : (w.bpf.timers.map (·.id)).Nodup

theorem timersOwned_of_attended (hw : Sound w) (ha : Attended w)
    (ho : ∀ d m, w.machine d = some m → Owned m) :
    TimersOwned w := by
  have hown : ∀ {d c}, w.session d = some c → Owned (view c) := fun {d c} hc =>
    ho d _ (by rw [World.machine, hc]; rfl)
  refine ⟨fun d c hc => ?_, fun d c hc => (hown hc).wait, fun t => ⟨fun ht => ?_, ?_⟩, hw.nodup⟩
  · have hs := (hw.session d c hc).sane
    constructor
    · intro hh
      obtain ⟨id, hid⟩ := Option.isSome_iff_exists.mp hh
      exact hs.onHold hid
    · exact fun hb => (hs.held hb).1
  · obtain ⟨d, c, hc, hp⟩ := ha t ht
    refine ⟨d, c, hc, ?_⟩
    rw [← (hown hc).mine]
    exact mem_timersOf.mpr ⟨(session_eq_some.mp hc).2.2 ▸ ht, hp.symm⟩
  · rintro ⟨d, c, hc, ht⟩
    rw [← (hown hc).mine] at ht
    rw [← (session_eq_some.mp hc).2.2]
    exact (mem_timersOf.mp ht).1

theorem run_owned (h : Run daemon (Guarded fun _ => Steady) w) : ∀ d m, w.machine d = some m → Owned m := by
  refine machine_invariant (fun m hn => ?_) (fun env m s fresh hs hi he hf _ hg => hi.stir hs he hf hg) h
  obtain ⟨id, hh, hm⟩ := hn.hold
  exact ⟨by simp [hn.shwait, hn.bstate], by simp [Machine.owed, hh, hn.shwait, hm]⟩

theorem run_attended (h : Run daemon (Guarded fun _ => Steady) w) : Attended w := by
  induction h with
  | start hs =>
    obtain ⟨rx, tx, cap, answers, -, rfl⟩ := hs
    exact fun t ht => absurd ht List.not_mem_nil
  | next hr _ hs ih => exact step_attended (reachable_sound hr.reachable) hs ih (run_owned hr)

end

/-- In a run in which no session that is shutting down has its intervals
changed, timers are owned between events. Hence a wait is started only where
there is none, and a session that is deleted leaves no timer behind. -/
theorem timersOwned_of_steady {w : World} (h : Run daemon (Guarded fun _ => Steady) w) :
    TimersOwned w ∧
      (∀ d c, Meets w d c → ∀ user, ({ view c with user := user } : Machine).Closes → c.bsess.shwait = none) ∧
      ∀ d c n c', Meets w d c → sessionDel n c = .ok ((), c') → timersOf c'.bpf.timers c.bsess.ptr = [] := by
  have ho := run_owned h
  refine ⟨timersOwned_of_attended (reachable_sound h.reachable) (run_attended h) ho, ?_, ?_⟩
  · intro d c hc user hcl
    refine (ho d _ hc.machine).shwait_none (fun hb => ?_)
    obtain ⟨n, hok⟩ := hc.ok
    have hd := hcl.2
    simp only [Machine.bdata, hb, (hok.sane.course.shutting hb).2.1] at hd
    cases hd
  · intro d c n c' hc hr
    have hown := ho d _ hc.machine
    obtain ⟨hw, env, v, he, hs⟩ := hc
    exact owned_deleted (he.apart ((reachable_sound hw).enter env)).1 hs hown hr

theorem steady_of_calm (m : Machine) (s : Cause) (h : Calm m s) : Steady m s := by
  cases s with
  | configure user =>
    intro hb
    obtain h | h := h <;> rw [h] at hb <;> cases hb
  | hold | shwait | packet | timeout => trivial

theorem timersOwned_shutting : ∃ (w : World) (c : Ctx), w.session 5 = some c ∧
    c.bsess.bstate = .shuttingDown ∧ TimersOwned w := by
  obtain ⟨w, c, hw, hc, hb⟩ := exists_calm steady_of_calm
    [.addFive none none, .timer 0 none, .setFive (some true) none]
    (P := fun _ c => c.bsess.bstate = .shuttingDown) (by decide +kernel)
  exact ⟨w, c, hc, hb, (timersOwned_of_steady (hw.mono fun w l hg d m s hm hs => (hg d m s hm hs).2)).1⟩

/-- A timing change of a session that is shutting down starts a poll sequence
with the wait still there. -/
theorem not_timersOwned_polling : ∃ w, Reachable daemon w ∧ ¬ TimersOwned w := by
  obtain ⟨w, c, hw, hc, hb, hs⟩ := exists_replayed
    (inPlain (bringUp ++ [.setFive (some true) none, .setFive none (some 2000000)]))
    (P := fun _ c => c.bsess.bstate = .awaitFinal ∧ c.bsess.shwait.isSome = true) (by decide +kernel)
  refine ⟨w, hw, fun h => ?_⟩
  rw [(h.wait 5 c hc).mp hs] at hb
  cases hb

end Bbdd.Daemon
