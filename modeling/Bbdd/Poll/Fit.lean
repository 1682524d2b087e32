import Bbdd.Poll.Refine

namespace Bbdd.Poll

open Lib.Program Packet Session Datapath

/-- A session off hold on which no assertion of the data path can fail. The
announced configuration matters as soon as something may put it in force. -/
structure Fit (m : Machine) : Prop where
  awake : m.bstate ≠ .onHold
  remMult : m.remMult ≠ 0
  userMult : m.user.timing.detectMult ≠ 0
  effMult : m.eff.timing.detectMult ≠ 0
  dfrMult : m.bstate ≠ .stable ∨ m.shwait.isSome = true → m.dfr.timing.detectMult ≠ 0
  live : Live m

namespace Fit

variable {m : Machine}

theorem ready {c : Ctx} (h : Fit (view c)) : Ready c where
  awake := h.awake
  remoteMult := h.remMult
  bdataMult := by
    intro bdata hb
    rw [injectBdata_view h.awake, Option.some.injEq] at hb
    subst hb
    have hd := h.dfrMult
    cases hs : (view c).bstate with
    | onHold => exact absurd hs h.awake
    | stable => simpa [Machine.bdata, hs] using h.effMult
    | awaitFinal | awaitNonFinal | shuttingDown => simpa [Machine.bdata, hs] using hd

theorem setBdata (h : Fit m) {data : BData} (hd : data.timing.detectMult ≠ 0) : Fit (m.setBdata data) := by
  unfold Machine.setBdata
  split
  · exact h
  · exact { h with effMult := hd }
  · exact { h with dfrMult := fun _ => hd }
  · exact { h with dfrMult := fun _ => hd }
  · exact { h with dfrMult := fun _ => hd }

theorem applied (h : Fit m) : Fit m.applied := by
  unfold Machine.applied
  split
  · exact h.setBdata h.userMult
  · exact h

theorem enable (h : Fit m) (b : Bool) : Fit (m.enable b) := by
  unfold Machine.enable
  split
  · exact { h with }
  · exact h

theorem shutDown (h : Fit m) (id : Nat) : Fit (m.shutDown id) where
  awake := by simp [Machine.shutDown]
  remMult := h.remMult
  userMult := h.userMult
  effMult := h.effMult
  dfrMult := fun _ => h.userMult
  live := fun _ => ⟨id, rfl, ⟨id, .shwait, m.discr, m.ptr⟩, by simp [Machine.shutDown, Machine.start], rfl⟩

theorem polling (h : Fit m) : Fit { m with dfr := m.user, bstate := .awaitFinal } where
  awake := by simp
  remMult := h.remMult
  userMult := h.userMult
  effMult := h.effMult
  dfrMult := fun _ => h.userMult
  live := by simp [Live]

theorem begin (h : Fit m) (fresh : Option Nat) (d : Decision) : Fit (m.begin fresh d) := by
  unfold Machine.begin
  split
  · exact h.polling
  · split
    · exact h.shutDown _
    · exact h

theorem settle (h : Fit m) (fresh : Option Nat) (d : Decision) : Fit (m.settle fresh d) :=
  (h.enable _).begin _ _

theorem stopped (h : Fit m) (hd : m.dfr.timing.detectMult ≠ 0) :
    Fit { m.stop with bstate := .awaitFinal } := by
  obtain ⟨h₁, h₂, h₃, h₄, h₅, h₆⟩ := h
  unfold Machine.stop
  split <;> exact ⟨by simp, h₂, h₃, h₄, fun _ => hd, by simp [Live]⟩

theorem update (h : Fit m) (fresh : Option Nat) : Fit (m.update fresh) := by
  cases hb : m.bstate with
  | onHold => exact absurd hb h.awake
  | stable =>
    rw [Machine.update_stable hb]
    exact h.applied.settle _ _
  | awaitFinal | awaitNonFinal =>
    rw [Machine.update_await (by simp [hb])]
    split
    · exact { h.applied with }
    · exact h.applied
  | shuttingDown =>
    rw [Machine.update_shuttingDown hb]
    have hd : m.applied.dfr.timing.detectMult ≠ 0 := h.applied.dfrMult (.inl (by simp [applied_bstate, hb]))
    split
    · exact (h.applied.stopped hd).settle _ _
    · exact h.applied.settle _ _

end Fit

theorem fit_settled {m : Machine} (hr : m.remMult ≠ 0) (hu : m.user.timing.detectMult ≠ 0)
    (hd : m.dfr.timing.detectMult ≠ 0) (qd : Bool) :
    Fit { m with eff := m.dfr, bstate := .stable, qd := qd } where
  awake := by simp
  remMult := hr
  userMult := hu
  effMult := hd
  dfrMult := fun _ => hd
  live := by simp [Live]

theorem fit_conclude {m : Machine} (hr : m.remMult ≠ 0) (hu : m.user.timing.detectMult ≠ 0)
    (hd : m.dfr.timing.detectMult ≠ 0) (fresh : Option Nat) : Fit (m.conclude fresh) := by
  unfold Machine.conclude
  split
  · exact (fit_settled hr hu hd false).update fresh
  · exact fit_settled hr hu hd m.qd

namespace Fit

variable {m : Machine}

theorem stop_dfr (h : Fit m) (hs : m.bstate ≠ .stable ∨ m.shwait.isSome = true) (fresh : Option Nat) :
    Fit (m.stop.conclude fresh) := by
  have hd := h.dfrMult hs
  refine fit_conclude ?_ ?_ ?_ fresh <;> unfold Machine.stop <;> split
  · exact h.remMult
  · exact h.remMult
  · exact h.userMult
  · exact h.userMult
  · exact hd
  · exact hd

theorem heard (h : Fit m) (rem : PktState) {mult : UInt8} (hm : mult ≠ 0) : Fit (m.heard rem mult) :=
  { h with remMult := hm }

theorem acked (h : Fit m) (hb : m.bstate = .awaitFinal) : Fit { m with bstate := .awaitNonFinal } :=
  ⟨by simp, h.remMult, h.userMult, h.effMult, fun _ => h.dfrMult (.inl (by simp [hb])), by simp [Live]⟩

theorem answered (h : Fit m) (final : Bool) (fresh : Option Nat) : Fit (m.answered final fresh) := by
  unfold Machine.answered
  split
  · rename_i hb
    exact h.acked hb
  · rename_i hb
    exact fit_conclude h.remMult h.userMult (h.dfrMult (.inl (by simp [hb]))) fresh
  · exact h

theorem packet (h : Fit m) (rem : PktState) {mult : UInt8} (hm : mult ≠ 0) (final : Bool)
    (fresh : Option Nat) :
    Fit (m.packet rem mult final fresh) :=
  (h.heard rem hm).answered final fresh

theorem silenced (h : Fit m) : Fit m.silenced := by
  unfold Machine.silenced
  split
  · exact { h with }
  · exact h

theorem timeout (h : Fit m) (fresh : Option Nat) : Fit (m.timeout fresh) := by
  unfold Machine.timeout
  split
  · exact h
  · exact h.silenced
  · rename_i hb
    exact (fit_conclude h.remMult h.userMult (h.dfrMult (.inl (by simp [hb]))) fresh).silenced
  · rename_i hb
    exact (fit_conclude h.remMult h.userMult (h.dfrMult (.inl (by simp [hb]))) fresh).silenced
  · rename_i hb
    exact (h.stop_dfr (.inl (by simp [hb])) fresh).silenced

end Fit

end Bbdd.Poll
