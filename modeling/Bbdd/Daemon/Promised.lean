import Bbdd.Daemon.Replay
import Bbdd.Poll.Admin

namespace Bbdd.Poll

open Session Datapath

structure Promised (m : Machine) : Prop where
  stable : m.bstate = .stable → m.qd = false ∧ m.eff = m.user
  pending : m.Awaits ∨ m.bstate = .shuttingDown → m.dfr = m.user ∨ m.qd = true

variable {m m' : Machine} {fresh : Option Nat}

theorem Updated.promised (h : Updated m fresh m') (hq : m.bstate = .stable → m.qd = false)
    (hf : fresh.isSome = true) :
    Promised m' := by
  cases h with
  | held hb => exact ⟨by simp [hb], by simp [Machine.Awaits, hb]⟩
  | shut hb hc hi => exact ⟨by simp [Machine.shutDown], fun _ => .inl rfl⟩
  | starved hb hc hn => rw [hn] at hf; cases hf
  | polling hb hc hs he => exact ⟨by simp, fun _ => .inl rfl⟩
  | settled hb hc hs => exact ⟨fun _ => ⟨hq hb, rfl⟩, by simp [Machine.Awaits, hb]⟩
  | enabled hb hu => exact ⟨by simp, fun _ => .inl (stop_rest m).2.2.2.symm⟩
  | repolled hb hu hs => exact ⟨by simp, fun _ => .inl rfl⟩
  | waiting hb hu hs => exact ⟨by simp [hb], fun _ => .inl rfl⟩
  | queued hb hs hd => exact ⟨by obtain hb | hb := hb <;> simp [hb], fun _ => .inr rfl⟩
  | merged hb hs hd => exact ⟨by obtain hb | hb := hb <;> simp [hb], fun _ => .inl rfl⟩

theorem promised_conclude (hd : m.dfr = m.user ∨ m.qd = true) (hf : fresh.isSome = true) :
    Promised (m.conclude fresh) := by
  obtain ⟨hq, h⟩ | ⟨-, h⟩ := conclude_cases m fresh
  · rw [h]
    refine ⟨fun _ => ⟨hq, hd.resolve_right ?_⟩, by simp [Machine.Awaits]⟩
    simp [hq]
  · exact h.promised (fun _ => rfl) hf

theorem promised_stop_conclude (hd : m.dfr = m.user ∨ m.qd = true) (hf : fresh.isSome = true) :
    Promised (m.stop.conclude fresh) := by
  obtain ⟨-, h₂, h₃, h₄⟩ := stop_rest m
  refine promised_conclude ?_ hf
  rw [h₂, h₃, h₄]
  exact hd

theorem Promised.silenced (h : Promised m) : Promised m.silenced := by
  unfold Machine.silenced
  split
  · exact { h with }
  · exact h

theorem Promised.answered (h : Promised m) (final : Bool) (hf : fresh.isSome = true) :
    Promised (m.answered final fresh) := by
  unfold Machine.answered
  split
  · rename_i hb
    exact ⟨by simp, fun _ => h.pending (.inl (.inl hb))⟩
  · rename_i hb
    exact promised_conclude (h.pending (.inl (.inr hb))) hf
  · exact h

/-- A wait that was forgotten, when it ends, must not bring back a
configuration that the user has left behind. -/
def Recent (m : Machine) : Cause → Prop
  | .shwait _ => m.bstate = .stable → m.dfr = m.user
  | .configure _ | .hold _ | .packet .. | .timeout => True

theorem Promised.stir (h : Promised m) (hs : Sane m) {s : Cause} (he : Enabled m s)
    (hf : fresh.isSome = true) (hg : Recent m s) : Promised (m.stir fresh s) := by
  cases s with
  | configure user =>
    change Promised (m.configure user fresh)
    unfold Machine.configure
    split
    · rename_i hb
      exact ⟨fun hb' => absurd (hb.symm.trans hb') (by simp), by simp [Machine.Awaits, hb]⟩
    · have hsh := fun hb => And.intro (hs.course.shutting hb).1 (hs.course.shutting hb).2.1
      exact (update_spec (m := { m with user := user }) hsh).promised (fun hb => (h.stable hb).1) hf
  | hold id =>
    have hb := hs.onHold he
    refine ⟨fun _ => ⟨?_, rfl⟩, by simp [Machine.Awaits, Machine.stir, Machine.release]⟩
    by_contra hq
    have hq' := hs.course.qd (by simpa [Machine.stir, Machine.release] using hq)
    simp [hb] at hq'
  | shwait id =>
    have hc : Promised (m.stop.conclude fresh) := by
      refine promised_stop_conclude ?_ hf
      cases hb : m.bstate with
      | onHold => exact absurd hb (hs.awake he.2)
      | stable => exact .inl (hg hb)
      | awaitFinal => exact h.pending (.inl (.inl hb))
      | awaitNonFinal => exact h.pending (.inl (.inr hb))
      | shuttingDown => exact h.pending (.inr hb)
    exact { hc with }
  | packet rem mult final =>
    have hh : Promised (m.heard rem mult) := { h with }
    exact hh.answered final hf
  | timeout =>
    change Promised (m.timeout fresh)
    unfold Machine.timeout
    split
    · exact h
    · exact h.silenced
    · rename_i hb
      exact (promised_conclude (h.pending (.inl (.inl hb))) hf).silenced
    · rename_i hb
      exact (promised_conclude (h.pending (.inl (.inr hb))) hf).silenced
    · rename_i hb
      exact (promised_stop_conclude (h.pending (.inr hb)) hf).silenced

end Bbdd.Poll

namespace Bbdd.Daemon

open Lib.Transition Packet Session Datapath Poll

/-- No configuration of the user is lost: a settled session has it in force,
and any other has announced or queued it. -/
structure ConfigKept (c : Ctx) : Prop where
  stable : c.bsess.bstate = .stable → c.bsess.qdChange = false ∧ c.bsess.effData = userBdata c.dsess
  pending : c.bsess.bstate = .awaitFinal ∨ c.bsess.bstate = .awaitNonFinal ∨ c.bsess.bstate = .shuttingDown →
    c.bsess.dfrData = userBdata c.dsess ∨ c.bsess.qdChange = true

/-- With allocations succeeding no configuration is lost, as long as no wait
ends that its session has left behind. -/
theorem configKept_of_recent {w : World}
    (h : Run daemon (Guarded fun env m s => env.Supplied ∧ Recent m s) w) {d : UInt32} {c : Ctx}
    (hc : w.session d = some c) : ConfigKept c := by
  have hm : w.machine d = some (view c) := by rw [World.machine, hc]; rfl
  have hp : Promised (view c) := by
    refine machine_invariant (I := Promised) (fun m hn => ?_) (fun env m s fresh hs hi he _ hf hg => ?_) h d _ hm
    · exact ⟨by simp [hn.bstate], by simp [Machine.Awaits, hn.bstate]⟩
    · exact hi.stir hs he (hf hg.1) hg.2
  refine ⟨hp.stable, fun hb => hp.pending ?_⟩
  obtain hb | hb | hb := hb
  · exact .inl (.inl hb)
  · exact .inl (.inr hb)
  · exact .inr hb

theorem recent_of_calm (m : Machine) (s : Cause) (h : Calm m s) : Recent m s := by
  cases s with
  | shwait id =>
    intro hb
    rw [show m.bstate = .shuttingDown from h] at hb
    cases hb
  | configure | hold | packet | timeout => trivial

theorem configKept_shut : ∃ (w : World) (c : Ctx), w.session 5 = some c ∧ c.bsess.bstate = .stable ∧
    ConfigKept c := by
  obtain ⟨w, c, hw, hc, hb⟩ := exists_calm recent_of_calm
    [.addFive none none, .timer 0 none, .setFive (some true) none, .timer 1 none]
    (P := fun _ c => c.bsess.bstate = .stable) (by decide +kernel)
  exact ⟨w, c, hc, hb, configKept_of_recent hw hc⟩

/-- While the session shuts down its timing is changed, which starts a poll
sequence and forgets the wait. The peer falls silent, the user enables the
session, and then the wait ends: the session is back to being shut down. -/
theorem not_configKept_stale : ∃ w c, Run daemon (Guarded fun env _ _ => env.Supplied) w ∧ w.session 5 = some c ∧
    ¬ ConfigKept c := by
  obtain ⟨w, c, hw, hc, hb, he⟩ := exists_run (G := Guarded fun env _ _ => env.Supplied)
    (inPlain (bringUp ++ [.setFive (some true) none, .setFive none (some 2000000)] ++ expiry ++
      [.setFive (some false) none, .timer 1 none]))
    (fun w l hl (_ : true = true) d m s _ _ => mem_inPlain hl ▸ plain_supplied)
    (P := fun _ c => c.bsess.bstate = .stable ∧ c.bsess.effData ≠ userBdata c.dsess) (by decide +kernel)
  exact ⟨w, c, hw, hc, fun h => he (h.stable hb).2⟩

end Bbdd.Daemon
