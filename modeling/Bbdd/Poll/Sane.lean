import Bbdd.Poll.Handlers

namespace Bbdd.Poll

open Lib.Program Packet Session Datapath

namespace Machine

variable (m : Machine)

theorem applied_eq : ∃ eff dfr, m.applied = { m with eff := eff, dfr := dfr } := by
  unfold applied setBdata
  split
  · split <;> exact ⟨_, _, rfl⟩
  · exact ⟨_, _, rfl⟩

theorem stop_shape : ∃ shwait mine, m.stop = { m with shwait := shwait, mine := mine } := by
  unfold stop
  split <;> exact ⟨_, _, rfl⟩

/-- What no update touches. -/
structure Kept (m m' : Machine) : Prop where
  user : m'.user = m.user
  remMult : m'.remMult = m.remMult
  hold : m'.hold = m.hold
  discr : m'.discr = m.discr
  ptr : m'.ptr = m.ptr

theorem Kept.refl : Kept m m := ⟨rfl, rfl, rfl, rfl, rfl⟩

theorem enable_eq (b : Bool) : m.enable b = { m with loc := if b then .down else m.loc } := by
  cases b <;> rfl

theorem begin_kept (fresh : Option Nat) (d : Decision) :
    Kept m (m.begin fresh d) ∧ ((m.begin fresh d).shwait = m.shwait ∨ (m.begin fresh d).shwait = fresh) := by
  unfold begin
  split
  · exact ⟨⟨rfl, rfl, rfl, rfl, rfl⟩, .inl rfl⟩
  · split
    · exact ⟨⟨rfl, rfl, rfl, rfl, rfl⟩, .inr rfl⟩
    · exact ⟨.refl m, .inl rfl⟩

theorem settle_kept (fresh : Option Nat) (d : Decision) :
    Kept m (m.settle fresh d) ∧ ((m.settle fresh d).shwait = m.shwait ∨ (m.settle fresh d).shwait = fresh) := by
  have h := (m.enable d.stopShwait).begin_kept fresh d
  rw [enable_eq] at h
  rw [settle, enable_eq]
  exact ⟨⟨h.1.user, h.1.remMult, h.1.hold, h.1.discr, h.1.ptr⟩, h.2⟩

theorem update_kept (fresh : Option Nat) :
    Kept m (m.update fresh) ∧
      ((m.update fresh).shwait = m.shwait ∨ (m.update fresh).shwait = m.stop.shwait ∨
        (m.update fresh).shwait = fresh) := by
  obtain ⟨e, d, ha⟩ := m.applied_eq
  have settled : ∀ s l b, Kept m
    ({ m with eff := e, dfr := d, shwait := s, mine := l, bstate := b }.settle fresh m.decision) ∧
      (({ m with eff := e, dfr := d, shwait := s, mine := l, bstate := b }.settle fresh m.decision).shwait = s ∨
        ({ m with eff := e, dfr := d, shwait := s, mine := l, bstate := b }.settle fresh
          m.decision).shwait = fresh) :=
    fun s l b =>
      have h := settle_kept { m with eff := e, dfr := d, shwait := s, mine := l, bstate := b } fresh m.decision
      ⟨⟨h.1.user, h.1.remMult, h.1.hold, h.1.discr, h.1.ptr⟩, h.2⟩
  cases hb : m.bstate with
  | onHold => rw [update_onHold hb]; exact ⟨.refl m, .inl rfl⟩
  | stable =>
    rw [update_stable hb, ha]
    have h := settled m.shwait m.mine m.bstate
    exact ⟨h.1, h.2.imp_right .inr⟩
  | awaitFinal | awaitNonFinal =>
    rw [update_await (by simp [hb]), ha]
    split <;> exact ⟨⟨rfl, rfl, rfl, rfl, rfl⟩, .inl rfl⟩
  | shuttingDown =>
    rw [update_shuttingDown hb, ha]
    split
    · have hst : { m with eff := e, dfr := d }.stop =
        { m with eff := e, dfr := d, shwait := m.stop.shwait, mine := m.stop.mine } := by
        unfold stop
        cases hs : m.shwait <;> simp [hs]
      rw [hst]
      have h := settled m.stop.shwait m.stop.mine .awaitFinal
      exact ⟨h.1, .inr h.2⟩
    · have h := settled m.shwait m.mine m.bstate
      exact ⟨h.1, h.2.imp_right .inr⟩

end Machine

def ends : PktState → PktState → Bool
  | .down, _ => true
  | .adminDown, .down | .init, .down | .up, .init | .up, .up => true
  | _, _ => false

theorem ends_fsmNext {loc rem : PktState} (h : loc ≠ .adminDown) (rem' : PktState)
    (he : ends loc rem = true) :
    ends (fsmNext ⟨loc, .nothing⟩ rem').state rem' = true := by
  cases loc <;> cases rem' <;> first | rfl | exact absurd rfl h

/-- How an update moves the ends: not at all, down to be enabled again, or to
the administrative state. -/
def EndsMove (m m' : Machine) : Prop :=
  (m'.loc = m.loc ∧ m'.rem = m.rem) ∨ (m'.loc = .down ∧ m'.rem = m.rem) ∨ (m'.loc = .adminDown ∧ m'.rem = .down)

theorem EndsMove.ends {m m' : Machine} (h : EndsMove m m') (he : ends m.loc m.rem = true) :
    ends m'.loc m'.rem = true := by
  obtain ⟨h₁, h₂⟩ | ⟨h₁, h₂⟩ | ⟨h₁, h₂⟩ := h <;> rw [h₁, h₂]
  · exact he
  · rfl
  · rfl

theorem begin_ends (m : Machine) (fresh : Option Nat) (d : Decision) :
    ((m.begin fresh d).loc = m.loc ∧ (m.begin fresh d).rem = m.rem) ∨
      ((m.begin fresh d).loc = .adminDown ∧ (m.begin fresh d).rem = .down) := by
  unfold Machine.begin
  split
  · exact .inl ⟨rfl, rfl⟩
  · split
    · exact .inr ⟨rfl, rfl⟩
    · exact .inl ⟨rfl, rfl⟩

theorem settle_ends (m : Machine) (fresh : Option Nat) (d : Decision) : EndsMove m (m.settle fresh d) := by
  have h := begin_ends (m.enable d.stopShwait) fresh d
  rw [Machine.enable_eq] at h
  rw [Machine.settle, Machine.enable_eq]
  obtain ⟨h₁, h₂⟩ | h := h
  · cases hs : d.stopShwait with
    | false => rw [hs] at h₁ h₂; exact .inl ⟨h₁, h₂⟩
    | true => rw [hs] at h₁ h₂; exact .inr (.inl ⟨h₁, h₂⟩)
  · exact .inr (.inr h)

theorem update_ends (m : Machine) (fresh : Option Nat) : EndsMove m (m.update fresh) := by
  obtain ⟨e, d, ha⟩ := m.applied_eq
  obtain ⟨s, l, hs⟩ := m.applied.stop_shape
  cases hb : m.bstate with
  | onHold => rw [Machine.update_onHold hb]; exact .inl ⟨rfl, rfl⟩
  | stable =>
    rw [Machine.update_stable hb, ha]
    exact settle_ends _ _ _
  | awaitFinal | awaitNonFinal =>
    rw [Machine.update_await (by simp [hb]), ha]
    split <;> exact .inl ⟨rfl, rfl⟩
  | shuttingDown =>
    rw [Machine.update_shuttingDown hb, hs, ha]
    split <;> exact settle_ends _ _ _

theorem conclude_ends (m : Machine) (fresh : Option Nat) : EndsMove m (m.conclude fresh) := by
  unfold Machine.conclude
  split
  · exact update_ends { m with eff := m.dfr, bstate := .stable, qd := false } fresh
  · exact .inl ⟨rfl, rfl⟩

theorem silenced_ends {m : Machine} (he : ends m.loc m.rem = true) :
    ends m.silenced.loc m.silenced.rem = true := by
  unfold Machine.silenced
  split
  · rfl
  · exact he

theorem stop_ends (m : Machine) : m.stop.loc = m.loc ∧ m.stop.rem = m.rem := by
  obtain ⟨s, l, hs⟩ := m.stop_shape
  rw [hs]
  exact ⟨rfl, rfl⟩

section

variable {m m' : Machine} {fresh : Option Nat}

theorem EndsMove.up (h : EndsMove m m') (hup : m'.loc = .up) : m.loc = .up := by
  obtain ⟨hl, -⟩ | ⟨hl, -⟩ | ⟨hl, -⟩ := h
  · exact hl.symm.trans hup
  · rw [hl] at hup; cases hup
  · rw [hl] at hup; cases hup

theorem silenced_up (hup : m.silenced.loc = .up) : m.loc = .up := by
  unfold Machine.silenced at hup
  split at hup
  · cases hup
  · exact hup

theorem timeout_up (hup : (m.timeout fresh).loc = .up) : m.loc = .up := by
  unfold Machine.timeout at hup
  split at hup
  · exact hup
  · exact silenced_up hup
  · exact (conclude_ends m fresh).up (silenced_up hup)
  · exact (conclude_ends m fresh).up (silenced_up hup)
  · rw [← (stop_ends m).1]
    exact (conclude_ends m.stop fresh).up (silenced_up hup)

theorem answered_up {final : Bool} (hup : (m.answered final fresh).loc = .up) : m.loc = .up := by
  unfold Machine.answered at hup
  split at hup
  · exact hup
  · exact (conclude_ends m fresh).up hup
  · exact hup

theorem fsmNext_up {loc rem : PktState} (h : (fsmNext ⟨loc, .nothing⟩ rem).state = .up) :
    loc = .up ∨ ((loc = .down ∨ loc = .init) ∧ (rem = .init ∨ rem = .up)) := by
  cases loc <;> cases rem <;> simp_all [fsmNext]

theorem stir_up {s : Cause} (hup : (m.stir fresh s).loc = .up) : m.loc = .up ∨
    (m.loc = .down ∨ m.loc = .init) ∧ ∃ rem mult final, s = .packet rem mult final ∧
    (rem = .init ∨ rem = .up) := by
  cases s with
  | configure user =>
    simp only [Machine.stir, Machine.configure] at hup
    split at hup
    · exact .inl hup
    · exact .inl ((update_ends { m with user := user } fresh).up hup)
  | hold id => exact .inl hup
  | shwait id =>
    refine .inl ?_
    rw [← (stop_ends m).1]
    exact (conclude_ends m.stop fresh).up hup
  | timeout => exact .inl (timeout_up hup)
  | packet rem mult final =>
    refine (fsmNext_up (answered_up hup)).imp_right (fun ⟨hl, hr⟩ => ⟨hl, rem, mult, final, rfl, hr⟩)

end

/-- The timers of a session: both pointers are to timers of its own, and a hold
timer is there only while the session is held. A wait that was forgotten may
still have its timer. -/
structure Clocks (m : Machine) : Prop where
  holdMine : ∀ id, m.hold = some id → ⟨id, .hold, m.discr, m.ptr⟩ ∈ m.mine
  shwaitMine : ∀ id, m.shwait = some id → ⟨id, .shwait, m.discr, m.ptr⟩ ∈ m.mine
  owned : ∀ t ∈ m.mine, t.discr = m.discr ∧ t.owner = m.ptr
  holds : ∀ t ∈ m.mine, t.fn = .hold → m.hold = some t.id
  nodup : (m.mine.map (·.id)).Nodup

def Fresh (m : Machine) (fresh : Option Nat) : Prop := ∀ id, fresh = some id → ∀ t ∈ m.mine, t.id ≠ id

namespace Clocks

variable {m : Machine} {fresh : Option Nat}

theorem start (h : Clocks m) {id : Nat} (hf : ∀ t ∈ m.mine, t.id ≠ id) : Clocks (m.start id) where
  holdMine := fun i hi => List.mem_append_left _ (h.holdMine i hi)
  shwaitMine := by
    intro i hi
    cases hi
    simp [Machine.start]
  owned := by
    intro t ht
    obtain ht | ht := List.mem_append.mp ht
    · exact h.owned t ht
    · rw [List.mem_singleton.mp ht]; exact ⟨rfl, rfl⟩
  holds := by
    intro t ht hfn
    obtain ht | ht := List.mem_append.mp ht
    · exact h.holds t ht hfn
    · rw [List.mem_singleton.mp ht] at hfn; cases hfn
  nodup := by
    simp only [Machine.start, List.map_append, List.map_cons, List.map_nil]
    refine List.nodup_append.mpr ⟨h.nodup, List.nodup_singleton _, ?_⟩
    intro i hi j hj
    obtain ⟨t, ht, rfl⟩ := List.mem_map.mp hi
    rw [List.mem_singleton.mp hj]
    exact hf t ht

theorem drop (h : Clocks m) {id : Nat} (hh : m.hold ≠ some id) (hs : m.shwait ≠ some id) :
    Clocks { m with mine := without m.mine id } where
  holdMine := fun i hi => mem_without.mpr ⟨h.holdMine i hi, fun he => hh (by rw [hi, ← he])⟩
  shwaitMine := fun i hi => mem_without.mpr ⟨h.shwaitMine i hi, fun he => hs (by rw [hi, ← he])⟩
  owned := fun t ht => h.owned t (mem_without.mp ht).1
  holds := fun t ht => h.holds t (mem_without.mp ht).1
  nodup := h.nodup.sublist (List.filter_sublist.map _)

theorem hold_ne_shwait (h : Clocks m) {id : Nat} (hs : m.shwait = some id) : m.hold ≠ some id := by
  intro hh
  have he := List.inj_on_of_nodup_map h.nodup (h.holdMine id hh) (h.shwaitMine id hs) rfl
  exact absurd (congrArg Timer.fn he) (by simp)

theorem stop (h : Clocks m) : Clocks m.stop := by
  cases hs : m.shwait with
  | none => simpa [Machine.stop, hs] using h
  | some id =>
    have hno : Clocks { m with shwait := none } :=
      { h with shwaitMine := fun i hi => by cases hi }
    rw [stop_eq hs]
    exact hno.drop (h.hold_ne_shwait hs) (by simp)

theorem applied (h : Clocks m) : Clocks m.applied := by
  obtain ⟨e, d, ha⟩ := m.applied_eq
  rw [ha]
  exact { h with }

theorem begin (h : Clocks m) (hf : Fresh m fresh) (d : Decision) : Clocks (m.begin fresh d) := by
  unfold Machine.begin
  split
  · exact { h with }
  · split
    · rename_i id _
      have hs := h.start (hf id rfl)
      exact ⟨hs.holdMine, hs.shwaitMine, hs.owned, hs.holds, hs.nodup⟩
    · exact h

theorem settle (h : Clocks m) (hf : Fresh m fresh) (d : Decision) : Clocks (m.settle fresh d) := by
  have he : Clocks (m.enable d.stopShwait) := by
    rw [Machine.enable_eq]
    exact { h with }
  rw [Machine.settle]
  refine he.begin ?_ d
  rw [Machine.enable_eq]
  exact hf

theorem fresh_applied (hf : Fresh m fresh) : Fresh m.applied fresh := by
  obtain ⟨e, d, ha⟩ := m.applied_eq
  rw [ha]
  exact hf

theorem fresh_stop (hf : Fresh m fresh) : Fresh m.stop fresh := by
  unfold Machine.stop
  split
  · exact hf
  · exact fun id hid t ht => hf id hid t (mem_without.mp ht).1

theorem update (h : Clocks m) (hf : Fresh m fresh) : Clocks (m.update fresh) := by
  cases hb : m.bstate with
  | onHold => rw [Machine.update_onHold hb]; exact h
  | stable =>
    rw [Machine.update_stable hb]
    exact h.applied.settle (fresh_applied hf) _
  | awaitFinal | awaitNonFinal =>
    rw [Machine.update_await (by simp [hb])]
    split
    · exact { h.applied with }
    · exact h.applied
  | shuttingDown =>
    rw [Machine.update_shuttingDown hb]
    split
    · exact settle (m := { m.applied.stop with bstate := .awaitFinal }) { h.applied.stop with }
        (fresh_stop (fresh_applied hf)) _
    · exact h.applied.settle (fresh_applied hf) _

theorem conclude (h : Clocks m) (hf : Fresh m fresh) : Clocks (m.conclude fresh) := by
  unfold Machine.conclude
  split
  · exact update (m := { m with eff := m.dfr, bstate := .stable, qd := false }) { h with } hf
  · exact { h with }

theorem packet (h : Clocks m) (hf : Fresh m fresh) (rem : PktState) (mult : UInt8) (final : Bool) :
    Clocks (m.packet rem mult final fresh) := by
  have hh : Clocks (m.heard rem mult) := { h with }
  unfold Machine.packet Machine.answered
  split
  · exact { hh with }
  · exact hh.conclude hf
  · exact hh

theorem silenced (h : Clocks m) : Clocks m.silenced := by
  unfold Machine.silenced
  split
  · exact { h with }
  · exact h

theorem timeout (h : Clocks m) (hf : Fresh m fresh) : Clocks (m.timeout fresh) := by
  unfold Machine.timeout
  split
  · exact h
  · exact h.silenced
  · exact (h.conclude hf).silenced
  · exact (h.conclude hf).silenced
  · exact (h.stop.conclude (fresh_stop hf)).silenced

theorem configure (h : Clocks m) (hf : Fresh m fresh) (user : BData) : Clocks (m.configure user fresh) := by
  unfold Machine.configure
  split
  · exact { h with }
  · exact update (m := { m with user := user }) { h with } hf

theorem release (h : Clocks m) {id : Nat} (hh : m.hold = some id) : Clocks (m.release id) := by
  have hs : m.shwait ≠ some id := fun hs => h.hold_ne_shwait hs hh
  have hid : ∀ t ∈ without m.mine id, t.fn ≠ .hold := by
    intro t ht hfn
    obtain ⟨ht, hne⟩ := mem_without.mp ht
    have := h.holds t ht hfn
    rw [hh, Option.some.injEq] at this
    exact hne this.symm
  exact
    { holdMine := fun i hi => by cases hi
      shwaitMine := fun i hi => mem_without.mpr ⟨h.shwaitMine i hi, fun he => hs (he ▸ hi)⟩
      owned := fun t ht => h.owned t (mem_without.mp ht).1
      holds := fun t ht hfn => absurd hfn (hid t ht)
      nodup := h.nodup.sublist (List.filter_sublist.map _) }

end Clocks

theorem conclude_kept (m : Machine) (fresh : Option Nat) :
    Machine.Kept m (m.conclude fresh) ∧
      (m.shwait = none → (m.conclude fresh).shwait = none ∨ (m.conclude fresh).shwait = fresh) := by
  unfold Machine.conclude
  split
  · have h := Machine.update_kept { m with eff := m.dfr, bstate := .stable, qd := false } fresh
    refine ⟨⟨h.1.user, h.1.remMult, h.1.hold, h.1.discr, h.1.ptr⟩, fun hs => ?_⟩
    obtain h | h | h := h.2
    · exact .inl (h.trans hs)
    · refine .inl (h.trans ?_)
      unfold Machine.stop
      simp [hs]
    · exact .inr h
  · exact ⟨⟨rfl, rfl, rfl, rfl, rfl⟩, .inl⟩

theorem conclude_mine (m : Machine) (fresh : Option Nat) :
    m.mine ⊆ (m.conclude fresh).mine ∧ ∀ t ∈ (m.conclude fresh).mine, t ∈ m.mine ∨ fresh = some t.id := by
  have begun : ∀ (k : Machine) d, k.mine = m.mine →
      m.mine ⊆ (k.begin fresh d).mine ∧ ∀ t ∈ (k.begin fresh d).mine, t ∈ m.mine ∨ fresh = some t.id := by
    intro k d hk
    rw [← hk]
    unfold Machine.begin
    split
    · exact ⟨fun _ h => h, fun _ h => .inl h⟩
    · split
      · refine ⟨List.subset_append_left _ _, fun t ht => ?_⟩
        obtain ht | ht := List.mem_append.mp ht
        · exact .inl ht
        · exact .inr (by rw [List.mem_singleton.mp ht])
      · exact ⟨fun _ h => h, fun _ h => .inl h⟩
  unfold Machine.conclude
  split
  · rw [Machine.update_stable rfl, Machine.settle, Machine.enable_eq]
    obtain ⟨e, d, ha⟩ := Machine.applied_eq { m with eff := m.dfr, bstate := .stable, qd := false }
    rw [ha]
    exact begun _ _ rfl
  · exact ⟨fun _ h => h, fun _ h => .inl h⟩

theorem stop_shwait (m : Machine) : m.stop.shwait = none := by
  unfold Machine.stop
  cases hs : m.shwait <;> simp [hs]

theorem Clocks.shwaitExpire {m : Machine} {fresh : Option Nat} {id : Nat} (h : Clocks m)
    (hf : Fresh m fresh) (hh : m.hold = none) (hm : ⟨id, .shwait, m.discr, m.ptr⟩ ∈ m.mine) :
    Clocks (m.shwaitExpire id fresh) := by
  have hc := h.stop.conclude (Clocks.fresh_stop hf)
  obtain ⟨hk, hs⟩ := conclude_kept m.stop fresh
  obtain ⟨s, l, hst⟩ := m.stop_shape
  refine hc.drop ?_ ?_
  · rw [hk.hold, hst]
    simp [hh]
  · obtain hs | hs := hs (stop_shwait m)
    · simp [hs]
    · intro he
      rw [hs] at he
      exact hf id he _ hm rfl

section Decision

variable (m : Machine)

theorem decision_needShwait : m.decision.needShwait = (m.user.shutdown && !m.bdata.shutdown) := by
  unfold Machine.decision updateDecision
  split
  · rename_i h; exact h.symm
  · rename_i h; exact (Bool.eq_false_iff.mpr h).symm

theorem decision_stopShwait : m.decision.stopShwait = (!m.user.shutdown && m.bdata.shutdown) := by
  unfold Machine.decision updateDecision
  cases m.user.shutdown <;> cases m.bdata.shutdown <;> rfl

end Decision

/-- A change is queued only during a poll sequence, and who is shutting down
was told so and is down by decree. -/
structure Course (m : Machine) : Prop where
  qd : m.qd = true → m.bstate = .awaitFinal ∨ m.bstate = .awaitNonFinal
  shutting : m.bstate = .shuttingDown → m.loc = .adminDown ∧ m.dfr.shutdown = true ∧ m.user.shutdown = true

theorem begin_course {m : Machine} (fresh : Option Nat) {d : Decision} (hq : m.qd = false)
    (hb : m.bstate ≠ .shuttingDown) (hd : d.needShwait = true → m.user.shutdown = true) :
    Course (m.begin fresh d) := by
  unfold Machine.begin
  split
  · exact ⟨fun _ => .inl rfl, by simp⟩
  · split
    · rename_i hn
      exact ⟨fun h => absurd (h.symm.trans hq) (by simp), fun _ => ⟨rfl, hd hn, hd hn⟩⟩
    · exact ⟨fun h => absurd (h.symm.trans hq) (by simp), fun h => absurd h hb⟩

theorem settle_course {m : Machine} (fresh : Option Nat) {d : Decision} (hq : m.qd = false)
    (hb : m.bstate ≠ .shuttingDown) (hd : d.needShwait = true → m.user.shutdown = true) :
    Course (m.settle fresh d) := by
  rw [Machine.settle, Machine.enable_eq]
  exact begin_course fresh hq hb hd

theorem settle_of_quiet {m : Machine} (fresh : Option Nat) {d : Decision} (hs : d.stopShwait = false)
    (hn : d.needShwait = false) :
    m.settle fresh d = if d.needPoll then { m with dfr := m.user, bstate := .awaitFinal } else m := by
  simp [Machine.settle, Machine.enable, Machine.begin, hs, hn]

theorem applied_shutdown {m : Machine} (hb : m.bstate = .shuttingDown) :
    m.applied.dfr = m.dfr ∨ m.applied.dfr = m.user := by
  unfold Machine.applied
  split
  · simp [Machine.setBdata, hb]
  · exact .inl rfl

theorem course_update {m : Machine} (fresh : Option Nat)
    (hq : m.qd = true → m.bstate = .awaitFinal ∨ m.bstate = .awaitNonFinal)
    (hs : m.bstate = .shuttingDown → m.loc = .adminDown ∧ m.dfr.shutdown = true) :
    Course (m.update fresh) := by
  have hn : m.decision.needShwait = true → m.user.shutdown = true := by
    rw [decision_needShwait]
    exact fun h => (Bool.and_eq_true_iff.mp h).1
  obtain ⟨e, d, ha⟩ := m.applied_eq
  have hqd : m.bstate ≠ .awaitFinal → m.bstate ≠ .awaitNonFinal → m.qd = false := by
    intro h₁ h₂
    by_contra h
    obtain h | h := hq (by simpa using h)
    · exact h₁ h
    · exact h₂ h
  cases hb : m.bstate with
  | onHold =>
    rw [Machine.update_onHold hb]
    exact ⟨hq, by simp [hb]⟩
  | stable =>
    rw [Machine.update_stable hb, ha]
    exact settle_course fresh (hqd (by simp [hb]) (by simp [hb])) (by simp [hb]) hn
  | awaitFinal | awaitNonFinal =>
    rw [Machine.update_await (by simp [hb]), ha]
    split <;> exact ⟨fun _ => by simp [hb], by simp [hb]⟩
  | shuttingDown =>
    have hq' : m.qd = false := hqd (by simp [hb]) (by simp [hb])
    obtain ⟨hloc, hdfr⟩ := hs hb
    have hbd : m.bdata = m.dfr := by simp [Machine.bdata, hb]
    rw [Machine.update_shuttingDown hb]
    split
    · obtain ⟨s, l, hst⟩ := m.applied.stop_shape
      rw [hst, ha]
      exact settle_course fresh hq' (by simp) hn
    · rename_i hstop
      -- the wait goes on, so the user still wants the session down
      have huser : m.user.shutdown = true := by
        rw [decision_stopShwait, hbd, hdfr] at hstop
        simpa using hstop
      have hno : m.decision.needShwait = false := by
        rw [decision_needShwait, hbd, hdfr]
        simp
      have hstop' : m.decision.stopShwait = false := Bool.eq_false_iff.mpr hstop
      have hadfr : m.applied.dfr.shutdown = true := by
        obtain h | h := applied_shutdown hb <;> rw [h] <;> assumption
      rw [settle_of_quiet fresh hstop' hno]
      split
      · exact ⟨fun _ => .inl rfl, by simp⟩
      · refine ⟨fun h => ?_, fun _ => ⟨?_, hadfr, ?_⟩⟩
        · rw [ha] at h
          exact absurd (h.symm.trans hq') (by simp)
        · rw [ha]; exact hloc
        · rw [ha]; exact huser

theorem course_conclude (m : Machine) (fresh : Option Nat) : Course (m.conclude fresh) := by
  unfold Machine.conclude
  split
  · exact course_update fresh (by simp) (by simp)
  · rename_i hq
    exact ⟨fun h => absurd h hq, by simp⟩

theorem Course.silenced {m : Machine} (h : Course m) : Course m.silenced := by
  unfold Machine.silenced
  split
  · rename_i hl
    refine ⟨h.qd, fun hb => ?_⟩
    rw [(h.shutting hb).1] at hl
    simp at hl
  · exact h

/-- What holds of every session whatever happens to it. -/
structure Sane (m : Machine) : Prop where
  remMult : m.remMult ≠ 0
  userMult : m.user.timing.detectMult ≠ 0
  held : m.bstate = .onHold → m.hold.isSome = true ∧ m.shwait = none ∧ m.loc = .down
  fit : m.bstate ≠ .onHold → Fit m ∧ m.hold = none
  ends : ends m.loc m.rem = true
  clocks : Clocks m
  course : Course m

theorem Sane.onHold {m : Machine} (h : Sane m) {id : Nat} (hh : m.hold = some id) : m.bstate = .onHold := by
  by_contra hb
  rw [(h.fit hb).2] at hh
  cases hh

theorem Sane.awake {m : Machine} (h : Sane m) (hs : m.shwait.isSome = true) : m.bstate ≠ .onHold := by
  intro hb
  rw [(h.held hb).2.1] at hs
  cases hs

/-- What can befall a session in a state without killing the daemon. -/
def Enabled (m : Machine) : Cause → Prop
  | .configure user => user.timing.detectMult ≠ 0
  | .hold id => m.hold = some id
  | .shwait id => ⟨id, .shwait, m.discr, m.ptr⟩ ∈ m.mine ∧ m.shwait.isSome = true
  | .packet _ mult _ =>
    mult ≠ 0 ∧ m.bstate ≠ .onHold ∧ m.bstate ≠ .shuttingDown ∧ m.loc ≠ .adminDown
  | .timeout => m.bstate ≠ .onHold

theorem Sane.of_fit {m' : Machine} (hf : Fit m') (hh : m'.hold = none) (he : Poll.ends m'.loc m'.rem = true)
    (hc : Clocks m') (hr : Course m') : Sane m' where
  remMult := hf.remMult
  userMult := hf.userMult
  held := fun h => absurd h hf.awake
  fit := fun _ => ⟨hf, hh⟩
  ends := he
  clocks := hc
  course := hr

theorem Sane.configure {m : Machine} {fresh : Option Nat} (h : Sane m) (hf : Fresh m fresh) {user : BData}
    (hu : user.timing.detectMult ≠ 0) : Sane (m.configure user fresh) := by
  have hc := h.clocks.configure hf user
  by_cases hb : m.bstate = .onHold
  · rw [Machine.configure, if_pos hb] at hc ⊢
    exact
      { remMult := h.remMult
        userMult := hu
        held := h.held
        fit := fun hn => absurd hb hn
        ends := h.ends
        clocks := hc
        course := ⟨h.course.qd, fun hs => by rw [show m.bstate = .shuttingDown from hs] at hb; cases hb⟩ }
  · obtain ⟨hfit, hh⟩ := h.fit hb
    have hfit' : Fit { m with user := user } := { hfit with userMult := hu }
    rw [Machine.configure, if_neg hb] at hc ⊢
    refine .of_fit (hfit'.update fresh) ?_ ((update_ends _ fresh).ends h.ends) hc ?_
    · rw [(Machine.update_kept _ fresh).1.hold]; exact hh
    · exact course_update fresh h.course.qd (fun hs => ⟨(h.course.shutting hs).1, (h.course.shutting hs).2.1⟩)

theorem Sane.release {m : Machine} (h : Sane m) {id : Nat} (hh : m.hold = some id) :
    Sane (m.release id) := by
  have hb := h.onHold hh
  obtain ⟨-, hs, -⟩ := h.held hb
  refine .of_fit ⟨by simp [Machine.release], h.remMult, h.userMult, h.userMult, ?_, by
    simp [Live, Machine.release]⟩ rfl
    h.ends (h.clocks.release hh) ⟨fun hq => ?_, by simp [Machine.release]⟩
  · simp [Machine.release, hs]
  · have := h.course.qd hq
    simp [hb] at this

theorem Sane.packet {m : Machine} {fresh : Option Nat} (h : Sane m) (hf : Fresh m fresh)
    (rem : PktState) {mult : UInt8} (final : Bool) (hm : mult ≠ 0) (hb : m.bstate ≠ .onHold)
    (hs : m.bstate ≠ .shuttingDown) (hl : m.loc ≠ .adminDown) :
    Sane (m.packet rem mult final fresh) := by
  obtain ⟨hfit, hh⟩ := h.fit hb
  have he : Poll.ends (m.heard rem mult).loc (m.heard rem mult).rem = true := ends_fsmNext hl rem h.ends
  have hr : Course (m.heard rem mult) := ⟨h.course.qd, fun hb' => absurd hb' hs⟩
  refine .of_fit (hfit.packet rem hm final fresh) ?_ ?_ (h.clocks.packet hf rem mult final) ?_ <;>
    unfold Machine.packet Machine.answered <;> split
  · exact hh
  · rw [(conclude_kept _ fresh).1.hold]; exact hh
  · exact hh
  · exact he
  · exact (conclude_ends _ fresh).ends he
  · exact he
  · exact ⟨fun _ => .inr rfl, by simp⟩
  · exact course_conclude _ fresh
  · exact hr

theorem stop_hold {m : Machine} (h : m.hold = none) : m.stop.hold = none := by
  obtain ⟨s, l, hst⟩ := m.stop_shape
  rw [hst]
  exact h

theorem Sane.stop_ends {m : Machine} (h : Sane m) : Poll.ends m.stop.loc m.stop.rem = true := by
  rw [(Poll.stop_ends m).1, (Poll.stop_ends m).2]
  exact h.ends

theorem silenced_hold (m : Machine) : m.silenced.hold = m.hold := by
  unfold Machine.silenced
  split <;> rfl

theorem Sane.timeout {m : Machine} {fresh : Option Nat} (h : Sane m) (hf : Fresh m fresh)
    (hb : m.bstate ≠ .onHold) :
    Sane (m.timeout fresh) := by
  obtain ⟨hfit, hh⟩ := h.fit hb
  have hst := stop_hold hh
  have hse := h.stop_ends
  refine .of_fit (hfit.timeout fresh) ?_ ?_ (h.clocks.timeout hf) ?_ <;> unfold Machine.timeout <;> split
  · exact hh
  · rw [silenced_hold]; exact hh
  · rw [silenced_hold, (conclude_kept _ fresh).1.hold]; exact hh
  · rw [silenced_hold, (conclude_kept _ fresh).1.hold]; exact hh
  · rw [silenced_hold, (conclude_kept _ fresh).1.hold]; exact hst
  · exact h.ends
  · exact silenced_ends h.ends
  · exact silenced_ends ((conclude_ends _ fresh).ends h.ends)
  · exact silenced_ends ((conclude_ends _ fresh).ends h.ends)
  · exact silenced_ends ((conclude_ends _ fresh).ends hse)
  · exact h.course
  · exact h.course.silenced
  · exact (course_conclude _ fresh).silenced
  · exact (course_conclude _ fresh).silenced
  · exact (course_conclude _ fresh).silenced

theorem Sane.shwaitExpire {m : Machine} {fresh : Option Nat} (h : Sane m) (hf : Fresh m fresh) {id : Nat}
    (hm : ⟨id, .shwait, m.discr, m.ptr⟩ ∈ m.mine) (hs : m.shwait.isSome = true) :
    Sane (m.shwaitExpire id fresh) := by
  have hb : m.bstate ≠ .onHold := by
    intro hb
    rw [(h.held hb).2.1] at hs
    simp at hs
  obtain ⟨hfit, hh⟩ := h.fit hb
  have hfit' := hfit.stop_dfr (.inr hs) fresh
  have hc := h.clocks.shwaitExpire hf hh hm
  have hst := stop_hold hh
  have hse := h.stop_ends
  have hr := course_conclude m.stop fresh
  refine .of_fit { hfit' with live := fun hb' => ?_ } ?_ ((conclude_ends _ fresh).ends hse) hc { hr with }
  · -- a wait that was started again has a new timer
    obtain ⟨i, hi, -⟩ := hfit'.live hb'
    exact ⟨i, hi, _, hc.shwaitMine i hi, rfl⟩
  · exact ((conclude_kept m.stop fresh).1.hold).trans hst

theorem Sane.stir {m : Machine} {fresh : Option Nat} (h : Sane m) (hf : Fresh m fresh) {s : Cause}
    (he : Enabled m s) :
    Sane (m.stir fresh s) := by
  cases s with
  | configure user => exact h.configure hf he
  | hold id => exact h.release he
  | shwait id => exact h.shwaitExpire hf he.1 he.2
  | packet rem mult final => exact h.packet hf rem final he.1 he.2.1 he.2.2.1 he.2.2.2
  | timeout => exact h.timeout hf he

end Bbdd.Poll
