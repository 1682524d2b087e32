import Bbdd.Poll.Updates

namespace Bbdd.Poll

open Packet

def Machine.Awaits (m : Machine) : Prop := m.bstate = .awaitFinal ∨ m.bstate = .awaitNonFinal

/-- The administrative state follows the configuration in force or announced,
and that one follows the user unless a change is queued. -/
structure Heeded (m : Machine) : Prop where
  stable : m.bstate = .stable → m.eff.shutdown = m.user.shutdown ∧ (m.loc = .adminDown ↔ m.eff.shutdown = true)
  await : m.Awaits → (m.loc = .adminDown ↔ m.dfr.shutdown = true) ∧
    (m.qd = false → m.dfr.shutdown = m.user.shutdown)

/-- The part of it that says nothing about the user, who may just have changed
the configuration. -/
structure Tuned (m : Machine) : Prop where
  stable : m.bstate = .stable → (m.loc = .adminDown ↔ m.eff.shutdown = true)
  await : m.Awaits → (m.loc = .adminDown ↔ m.dfr.shutdown = true)
  shutting : m.bstate = .shuttingDown → m.loc = .adminDown ∧ m.dfr.shutdown = true

section

variable {m m' : Machine} {fresh : Option Nat}

theorem bdata_stable (hb : m.bstate = .stable) : m.bdata = m.eff := by simp [Machine.bdata, hb]

theorem bdata_awaits (hb : m.Awaits) : m.bdata = m.dfr := by
  obtain hb | hb := hb <;> simp [Machine.bdata, hb]

theorem stop_rest (m : Machine) :
    m.stop.loc = m.loc ∧ m.stop.dfr = m.dfr ∧ m.stop.qd = m.qd ∧ m.stop.user = m.user := by
  obtain ⟨s, l, hs⟩ := m.stop_shape
  rw [hs]
  exact ⟨rfl, rfl, rfl, rfl⟩

theorem bdata_of_not_closes (hc : ¬ m.Closes) (hu : m.user.shutdown = true) : m.bdata.shutdown = true := by
  by_contra hd
  exact hc ⟨hu, by simpa using hd⟩

theorem opened_adminDown (hc : ¬ m.Closes) (ht : m.loc = .adminDown ↔ m.bdata.shutdown = true) :
    m.opened = .adminDown ↔ m.user.shutdown = true := by
  rw [Machine.opened]
  cases hu : m.user.shutdown with
  | false => cases hd : m.bdata.shutdown <;> simp [ht, hd]
  | true => simp [ht, bdata_of_not_closes hc hu]

theorem Updated.heeded (h : Updated m fresh m') (ht : Tuned m) (hf : fresh.isSome = true)
    (hg : m.Awaits → m.loc = .adminDown → m.user.shutdown = true) : Heeded m' := by
  cases h with
  | held hb => exact ⟨by simp [hb], by simp [Machine.Awaits, hb]⟩
  | starved hb hc hn => rw [hn] at hf; cases hf
  | shut hb hc hi => exact ⟨by simp [Machine.shutDown], by simp [Machine.Awaits, Machine.shutDown]⟩
  | polling hb hc hs he =>
    have hl := ht.stable hb
    rw [← bdata_stable hb] at hl
    exact ⟨by simp, fun _ => ⟨opened_adminDown hc hl, fun _ => rfl⟩⟩
  | settled hb hc hs =>
    have hl := ht.stable hb
    rw [← bdata_stable hb] at hl
    exact ⟨fun _ => ⟨rfl, opened_adminDown hc hl⟩, by simp [Machine.Awaits, hb]⟩
  | enabled hb hu => exact ⟨by simp, fun _ => ⟨by simp [hu], fun _ => by rw [(stop_rest m).2.2.2]⟩⟩
  | repolled hb hu hs => exact ⟨by simp, fun _ => ⟨by simp [hu, (ht.shutting hb).1], fun _ => rfl⟩⟩
  | waiting hb hu hs => exact ⟨by simp [hb], by simp [Machine.Awaits, hb]⟩
  | queued hb hs hd =>
    have hl := ht.await hb
    refine ⟨by obtain hb | hb := hb <;> simp [hb], fun _ => ⟨?_, by simp⟩⟩
    obtain ⟨rfl, hc⟩ | ⟨rfl, -⟩ := hd
    · constructor
      · exact hg hb
      · intro hu
        have := bdata_of_not_closes hc hu
        rw [bdata_awaits hb] at this
        exact hl.mpr this
    · exact hl
  | merged hb hs hd =>
    refine ⟨by obtain hb | hb := hb <;> simp [hb], fun _ => ⟨?_, fun _ => rfl⟩⟩
    rw [hd]
    exact ht.await hb

theorem heeded_conclude (hl : m.loc = .adminDown ↔ m.dfr.shutdown = true) (hf : fresh.isSome = true)
    (hq : m.qd = false → m.dfr.shutdown = m.user.shutdown) : Heeded (m.conclude fresh) := by
  obtain ⟨hn, h⟩ | ⟨-, h⟩ := conclude_cases m fresh
  · rw [h]
    exact ⟨fun _ => ⟨hq hn, hl⟩, by simp [Machine.Awaits]⟩
  · exact h.heeded ⟨fun _ => hl, by simp [Machine.Awaits], by simp⟩ hf (by simp [Machine.Awaits])

theorem Heeded.silenced (h : Heeded m) : Heeded m.silenced := by
  unfold Machine.silenced
  split
  · rename_i hl
    have hne : m.loc ≠ .adminDown := by obtain hl | hl := hl <;> simp [hl]
    exact ⟨fun hb => ⟨(h.stable hb).1, by simp [← (h.stable hb).2, hne]⟩,
      fun hb => ⟨by simp [← (h.await hb).1, hne], (h.await hb).2⟩⟩
  · exact h

theorem Heeded.heard (h : Heeded m) (hl : m.loc ≠ .adminDown) (rem : PktState) (mult : UInt8) :
    Heeded (m.heard rem mult) := by
  have hl' : (m.heard rem mult).loc ≠ .adminDown := fsmNext_adminDown ⟨m.loc, .nothing⟩ hl
  exact ⟨fun hb => ⟨(h.stable hb).1, (iff_of_false hl' (fun he => hl ((h.stable hb).2.mpr he)))⟩,
    fun hb => ⟨(iff_of_false hl' (fun he => hl ((h.await hb).1.mpr he))), (h.await hb).2⟩⟩

theorem Heeded.answered (h : Heeded m) (final : Bool) (hf : fresh.isSome = true) :
    Heeded (m.answered final fresh) := by
  unfold Machine.answered
  split
  · rename_i hb
    exact ⟨by simp, fun _ => h.await (.inl hb)⟩
  · rename_i hb
    obtain ⟨hl, hq⟩ := h.await (.inr hb)
    exact heeded_conclude hl hf hq
  · exact h

theorem Heeded.tuned (h : Heeded m) (hr : Course m) : Tuned m :=
  ⟨fun hb => (h.stable hb).2, fun hb => (h.await hb).1, fun hb => ⟨(hr.shutting hb).1, (hr.shutting hb).2.1⟩⟩

/-- What keeps the administrative state as the user wants it: the hold does
not end with the session shut down, a session is not enabled during a poll
sequence, and no forgotten wait brings back another configuration. -/
def Heeds (m : Machine) : Cause → Prop
  | .hold _ => m.user.shutdown = false
  | .configure user => m.Awaits → m.loc = .adminDown → user.shutdown = true
  | .shwait _ => m.bstate = .stable → m.dfr.shutdown = m.user.shutdown
  | .packet .. | .timeout => True

theorem heeded_stop_conclude (hl : m.loc = .adminDown ↔ m.dfr.shutdown = true) (hf : fresh.isSome = true)
    (hq : m.qd = false → m.dfr.shutdown = m.user.shutdown) : Heeded (m.stop.conclude fresh) := by
  obtain ⟨h₁, h₂, h₃, h₄⟩ := stop_rest m
  exact heeded_conclude (by rw [h₁, h₂]; exact hl) hf (by rw [h₂, h₃, h₄]; exact hq)

theorem Heeded.stir (h : Heeded m) (hs : Sane m) {s : Cause} (he : Enabled m s) (hf : fresh.isSome = true)
    (hg : Heeds m s) : Heeded (m.stir fresh s) := by
  have hshut : m.bstate = .shuttingDown → (m.loc = .adminDown ↔ m.dfr.shutdown = true) ∧
    m.dfr.shutdown = m.user.shutdown := by
    intro hb
    obtain ⟨hl, hd, hu⟩ := hs.course.shutting hb
    exact ⟨by simp [hl, hd], by rw [hd, hu]⟩
  cases s with
  | configure user =>
    change Heeded (m.configure user fresh)
    unfold Machine.configure
    split
    · rename_i hb
      exact ⟨fun hb' => absurd (hb.symm.trans hb') (by simp), fun hb' => by simp [Machine.Awaits, hb] at hb'⟩
    · have ht := h.tuned hs.course
      exact (update_spec (m := { m with user := user }) ht.shutting).heeded
        ⟨ht.stable, ht.await, ht.shutting⟩ hf hg
  | hold id =>
    have hb := hs.onHold he
    have hu : m.user.shutdown = false := hg
    exact ⟨fun _ => ⟨rfl, by simp [Machine.release, Machine.stir, (hs.held hb).2.2, hu]⟩,
      by simp [Machine.Awaits, Machine.stir, Machine.release]⟩
  | shwait id =>
    have hc : Heeded (m.stop.conclude fresh) := by
      cases hb : m.bstate with
      | onHold => exact absurd hb (hs.awake he.2)
      | stable =>
        obtain ⟨h₁, h₂⟩ := h.stable hb
        have hd := hg hb
        exact heeded_stop_conclude (by rw [h₂, h₁, hd]) hf (fun _ => hd)
      | awaitFinal => exact heeded_stop_conclude (h.await (.inl hb)).1 hf (h.await (.inl hb)).2
      | awaitNonFinal => exact heeded_stop_conclude (h.await (.inr hb)).1 hf (h.await (.inr hb)).2
      | shuttingDown => exact heeded_stop_conclude (hshut hb).1 hf (fun _ => (hshut hb).2)
    exact ⟨hc.stable, hc.await⟩
  | packet rem mult final => exact (h.heard he.2.2.2 rem mult).answered final hf
  | timeout =>
    change Heeded (m.timeout fresh)
    unfold Machine.timeout
    split
    · exact h
    · exact h.silenced
    · rename_i hb
      exact (heeded_conclude (h.await (.inl hb)).1 hf (h.await (.inl hb)).2).silenced
    · rename_i hb
      exact (heeded_conclude (h.await (.inr hb)).1 hf (h.await (.inr hb)).2).silenced
    · rename_i hb
      exact (heeded_stop_conclude (hshut hb).1 hf (fun _ => (hshut hb).2)).silenced

theorem Updated.enables_iff (h : Updated m fresh m') (hb : m.bstate ≠ .onHold)
    (hu : m.user.shutdown = false) :
    m'.loc ≠ .adminDown ↔
      m.loc ≠ .adminDown ∨ (m.bstate = .stable ∧ m.eff.shutdown = true) ∨ m.bstate = .shuttingDown := by
  have hopen : m.bstate = .stable → (m.opened ≠ .adminDown ↔ m.loc ≠ .adminDown ∨ m.eff.shutdown = true) := by
    intro hb
    rw [Machine.opened, bdata_stable hb, hu]
    cases m.eff.shutdown <;> simp
  cases h with
  | held hb' => exact absurd hb' hb
  | shut hb hc => simp [hc.1] at hu
  | starved hb hc => simp [hc.1] at hu
  | polling hb => simpa [hb] using hopen hb
  | settled hb => simpa [hb] using hopen hb
  | enabled hb => simp [hb]
  | repolled hb hu' => simp [hu'] at hu
  | waiting hb hu' => simp [hu'] at hu
  | queued hb => obtain hb | hb := hb <;> simp [hb]
  | merged hb => obtain hb | hb := hb <;> simp [hb]

/-- The wait for a shutdown to take effect is bounded: it has, or it is
queued and the detection timer runs. -/
def ShutSoon (m : Machine) : Prop :=
  m.loc = .adminDown ∨ (m.Awaits ∧ m.qd = true ∧ (m.loc = .init ∨ m.loc = .up))

/-- The sessions an update shuts down soon. -/
def Shuttable (m : Machine) : Prop :=
  m.loc = .adminDown ∨ (m.bstate = .stable ∧ m.eff.shutdown = false) ∨
    (m.Awaits ∧ (m.loc = .init ∨ m.loc = .up) ∧
      (m.qd = true ∨ m.dfr.shutdown = false ∨ ¬ SameTimes m.user m.dfr))

theorem Updated.shutSoon_iff {id : Nat} (h : Updated m (some id) m') (hb : m.bstate ≠ .onHold)
    (hu : m.user.shutdown = true) (hr : Course m) : ShutSoon m' ↔ Shuttable m := by
  have hopen : ¬ m.Closes → m.opened = m.loc := by
    intro hc
    rw [Machine.opened, hu, Bool.not_true, Bool.and_false]
    rfl
  have hstable : m.bstate = .stable → ¬ m.Closes → (Shuttable m ↔ m.loc = .adminDown) := by
    intro hb hc
    have he := bdata_of_not_closes hc hu
    rw [bdata_stable hb] at he
    simp [Shuttable, Machine.Awaits, hb, he]
  cases h with
  | held hb' => exact absurd hb' hb
  | shut hb hc =>
    have he := hc.2
    rw [bdata_stable hb] at he
    exact iff_of_true (.inl rfl) (.inr (.inl ⟨hb, he⟩))
  | starved hb hc hn => cases hn
  | polling hb hc =>
    have hq : m.qd = false := by
      by_contra hq
      have := hr.qd (by simpa using hq)
      simp [hb] at this
    rw [hstable hb hc]
    simp [ShutSoon, hopen hc, hq]
  | settled hb hc =>
    rw [hstable hb hc]
    simp [ShutSoon, Machine.Awaits, hopen hc, hb]
  | enabled hb hu' => simp [hu] at hu'
  | repolled hb => exact iff_of_true (.inl (hr.shutting hb).1) (.inl (hr.shutting hb).1)
  | waiting hb => exact iff_of_true (.inl (hr.shutting hb).1) (.inl (hr.shutting hb).1)
  | queued hb hs =>
    have hs' : m.dfr.shutdown = false ∨ ¬ SameTimes m.user m.dfr := by
      rw [hu] at hs
      refine hs.symm.imp_left (fun h => ?_)
      simpa using h.symm
    have hst : m.bstate ≠ .stable := by obtain hb | hb := hb <;> simp [hb]
    simp only [ShutSoon, Shuttable, Machine.Awaits, hst, false_and, false_or, true_and]
    simp [hb, hs']
  | merged hb hs hd =>
    have hd' : m.dfr.shutdown = true := hd ▸ hu
    have hst : m.bstate ≠ .stable := by obtain hb | hb := hb <;> simp [hb]
    simp only [ShutSoon, Shuttable, Machine.Awaits, hst, false_and, false_or]
    simp [hb, hs, hd', and_comm]

end

end Bbdd.Poll
