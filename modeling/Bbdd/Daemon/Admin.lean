import Bbdd.Daemon.Replay
import Bbdd.Poll.Admin

namespace Bbdd.Daemon

open Lib.Program Lib.Transition Session Datapath Poll

/-- Outside of poll sequences a session is down by decree exactly when the
user wants it to be, and then sends nothing of its own accord. -/
structure AdminHonoured (c : Ctx) : Prop where
  state : c.bsess.bstate = .stable ∨ c.bsess.bstate = .shuttingDown →
    (c.dsess.localData.state.state = .adminDown ↔ c.dsess.localData.flags.shutdown = true)
  quiet : c.bsess.bstate = .stable → c.dsess.localData.flags.shutdown = true →
    shouldInject c.dsess c.bsess = false

theorem honoured_of_heeded {c : Ctx} (h : Heeded (view c)) (hr : Course (view c)) : AdminHonoured c := by
  have hst : c.bsess.bstate = .stable →
      (c.dsess.localData.state.state = .adminDown ↔ c.dsess.localData.flags.shutdown = true) := by
    intro hb
    obtain ⟨he, hl⟩ := h.stable hb
    rw [he] at hl
    exact hl
  refine ⟨fun hb => ?_, fun hb hs => ?_⟩
  · obtain hb | hb := hb
    · exact hst hb
    · obtain ⟨hl, -, hu⟩ := hr.shutting hb
      exact iff_of_true hl hu
  · simp [shouldInject, (hst hb).mpr hs, hb]

/-- In a run in which no allocation fails, and in which nothing happens to a
session that would make it lose track of its administrative state, that state
is honoured. -/
theorem adminHonoured_of_heeded {w : World}
    (h : Run daemon (Guarded fun env m s => env.Supplied ∧ Heeds m s) w) {d : UInt32} {c : Ctx}
    (hc : w.session d = some c) : AdminHonoured c := by
  have hm : w.machine d = some (view c) := by rw [World.machine, hc]; rfl
  refine honoured_of_heeded ?_ ((reachable_sound h.reachable).sane hm).course
  refine machine_invariant (I := Heeded) (fun m hn => ?_) (fun env m s fresh hs hi he _ hf hg => ?_) h d _ hm
  · exact ⟨by simp [hn.bstate], by simp [Machine.Awaits, hn.bstate]⟩
  · exact hi.stir hs he (hf hg.1) hg.2

theorem heeds_of_calm (m : Machine) (s : Cause) (h : Calm m s) : Heeds m s := by
  cases s with
  | configure user =>
    rintro (hb | hb) <;> obtain h | h := h <;> rw [h] at hb <;> cases hb
  | hold id => exact h
  | shwait id =>
    intro hb
    rw [show m.bstate = .shuttingDown from h] at hb
    cases hb
  | packet | timeout => trivial

theorem adminHonoured_shut : ∃ (w : World) (c : Ctx), w.session 5 = some c ∧ c.bsess.bstate = .stable ∧
    c.dsess.localData.flags.shutdown = true ∧ AdminHonoured c := by
  obtain ⟨w, c, hw, hc, hb, hs⟩ := exists_calm heeds_of_calm
    [.addFive none none, .timer 0 none, .setFive (some true) none, .timer 1 none]
    (P := fun _ c => c.bsess.bstate = .stable ∧ c.dsess.localData.flags.shutdown = true) (by decide +kernel)
  exact ⟨w, c, hc, hb, hs, adminHonoured_of_heeded hw hc⟩

theorem not_adminHonoured_released : ∃ w c, Reachable daemon w ∧ w.session 5 = some c ∧ ¬ AdminHonoured c := by
  obtain ⟨w, c, hw, hc, hb, hl, hs⟩ := exists_replayed (inPlain [.addFive none (some true), .timer 0 none])
    (P := fun _ c => c.bsess.bstate = .stable ∧ c.dsess.localData.state.state = .down ∧
      c.dsess.localData.flags.shutdown = true) (by decide +kernel)
  refine ⟨w, c, hw, hc, fun h => ?_⟩
  have := (h.state (.inl hb)).mpr hs
  rw [hl] at this
  cases this

/-- A session after a request changed it and its data path was updated, with
what the user configured by then, if both went well. -/
def requested (nl : Nl) (csess : CSession) (c : Ctx) : Option (DSession × Ctx) :=
  match sessionApplyC nl c.dsess csess with
  | .error _ => none
  | .ok (applied, _) =>
    match sessionUpdate { c with dsess := applied } with
    | .ok (.ok (), c') => some (applied, c')
    | _ => none

theorem requested_inv {nl : Nl} {csess : CSession} {c c' : Ctx} {applied : DSession}
    (h : requested nl csess c = some (applied, c')) :
    ∃ changed, sessionApplyC nl c.dsess csess = .ok (applied, changed) ∧
      sessionUpdate { c with dsess := applied } = .ok (.ok (), c') := by
  unfold requested at h
  split at h
  · cases h
  · rename_i a changed ha
    split at h
    · rename_i c₁ hu
      cases h
      exact ⟨changed, ha, hu⟩
    · cases h

theorem requested_updated {nl : Nl} {csess : CSession} {w : World} {d : UInt32} {c c' : Ctx}
    {applied : DSession} (hc : Meets w d c) (hb : c.bsess.bstate ≠ .onHold)
    (hr : requested nl csess c = some (applied, c')) :
    Course (view c) ∧ Updated { view c with user := userBdata applied } (some c.bpf.nextTimer) (view c') := by
  obtain ⟨n, hok⟩ := hc.ok
  have hfit := hok.fit hb
  have hcourse := hok.sane.course
  obtain ⟨changed, ha, hu⟩ := requested_inv hr
  have happ := sessionApplyC_ok ha
  have hv := view_applied happ
  have hfit' : Fit (view { c with dsess := applied }) := by
    rw [hv]
    exact { hfit with userMult := happ.mult }
  obtain ⟨fresh, -, hf, hv'⟩ := wp_ok (sessionUpdate_runs hfit') hu
  rw [hf rfl, hv] at hv'
  refine ⟨hcourse, hv' ▸ update_spec (fun hs => ?_)⟩
  exact ⟨(hcourse.shutting hs).1, (hcourse.shutting hs).2.1⟩

/-- A request that wants the session up takes it out of the administrative
state, except during a poll sequence and when the session is not known to have
been shut down. -/
theorem requested_enables_iff {nl : Nl} {csess : CSession} {w : World} {d : UInt32} {c c' : Ctx}
    {applied : DSession} (hc : Meets w d c) (hb : c.bsess.bstate ≠ .onHold)
    (hr : requested nl csess c = some (applied, c'))
    (hs : applied.localData.flags.shutdown = false) :
    c'.dsess.localData.state.state ≠ .adminDown ↔
      c.dsess.localData.state.state ≠ .adminDown ∨ (c.bsess.bstate = .stable ∧ c.bsess.effData.shutdown = true) ∨
        c.bsess.bstate = .shuttingDown := by
  obtain ⟨-, hu⟩ := requested_updated hc hb hr
  exact hu.enables_iff hb hs

def requestShutdown (shutdown : Bool) : CSession :=
  { CSession.blank with flags := ⟨none, none, none, some shutdown⟩ }

theorem requested_enables_shut : ∃ (w : World) (c c' : Ctx) (applied : DSession), Meets w 5 c ∧
    requested .plain (requestShutdown false) c = some (applied, c') ∧
    c.dsess.localData.state.state = .adminDown ∧ c'.dsess.localData.state.state ≠ .adminDown := by
  obtain ⟨w, c, hw, hc, hb, he, hl, hr⟩ := exists_replayed
    (inPlain [.addFive none none, .timer 0 none, .setFive (some true) none, .timer 1 none])
    (P := fun w c => c.bsess.bstate = .stable ∧ c.bsess.effData.shutdown = true ∧
      c.dsess.localData.state.state = .adminDown ∧
      (requested .plain (requestShutdown false) { c with bpf := (w.enter .plain).bpf }).any
        (fun r => !r.1.localData.flags.shutdown) = true) (by decide +kernel)
  obtain ⟨⟨applied, c'⟩, hr, hs⟩ := (Option.any_eq_true _ _).mp hr
  have hm := Meets.of_session hw hc .plain
  refine ⟨w, _, c', applied, hm, hr, hl, ?_⟩
  exact (requested_enables_iff hm (by simp [hb]) hr (by simpa using hs)).mpr (.inr (.inl ⟨hb, he⟩))

/-- A timing change starts a poll sequence of a session that is shut down, and
enabling the session is then queued for good: nothing ends the sequence. -/
theorem requested_leaves_adminDown : ∃ (w : World) (c c' : Ctx) (applied : DSession), Meets w 5 c ∧
    c.bsess.bstate ≠ .onHold ∧
    requested .plain (requestShutdown false) c = some (applied, c') ∧
    applied.localData.flags.shutdown = false ∧ c'.dsess.localData.state.state = .adminDown := by
  obtain ⟨w, c, hw, hc, hb, hr⟩ := exists_replayed
    (inPlain [.addFive none none, .timer 0 none, .setFive (some true) none, .timer 1 none,
      .setFive none (some 2000000)])
    (P := fun w c => c.bsess.bstate = .awaitFinal ∧
      (requested .plain (requestShutdown false) { c with bpf := (w.enter .plain).bpf }).any
        (fun r => !r.1.localData.flags.shutdown && decide (r.2.dsess.localData.state.state = .adminDown)) = true)
    (by decide +kernel)
  obtain ⟨⟨applied, c'⟩, hr, hs⟩ := (Option.any_eq_true _ _).mp hr
  obtain ⟨hs, hl⟩ := Bool.and_eq_true_iff.mp hs
  exact ⟨w, _, c', applied, Meets.of_session hw hc .plain, by
    simp [hb], hr, by simpa using hs, of_decide_eq_true hl⟩

/-- A shutdown has taken effect, or it is queued during a poll sequence while
the detection timer, which ends the sequence, is kept running. -/
def ShutdownBounded (c : Ctx) : Prop :=
  c.dsess.localData.state.state = .adminDown ∨
    ((c.bsess.bstate = .awaitFinal ∨ c.bsess.bstate = .awaitNonFinal) ∧ c.bsess.qdChange = true ∧
      rearmTimer c.dsess = true)

theorem rearmTimer_iff (dsess : DSession) :
    rearmTimer dsess = true ↔ dsess.localData.state.state = .init ∨ dsess.localData.state.state = .up := by
  unfold rearmTimer isDown isAdmDown
  cases dsess.localData.state.state <;> simp

theorem shutdownBounded_iff (c : Ctx) : ShutdownBounded c ↔ ShutSoon (view c) := by
  rw [ShutdownBounded, rearmTimer_iff]
  rfl

/-- A request to shut a session down takes effect within bounded time exactly
if the session is down by decree already, or settled and not known to be shut
down, or in a poll sequence that its detection timer can end and to which the
request is news. -/
theorem requested_shutdown_iff {nl : Nl} {csess : CSession} {w : World} {d : UInt32} {c c' : Ctx}
    {applied : DSession} (hc : Meets w d c) (hb : c.bsess.bstate ≠ .onHold)
    (hr : requested nl csess c = some (applied, c'))
    (hs : applied.localData.flags.shutdown = true) :
    ShutdownBounded c' ↔
      c.dsess.localData.state.state = .adminDown ∨
        (c.bsess.bstate = .stable ∧ c.bsess.effData.shutdown = false) ∨
        ((c.bsess.bstate = .awaitFinal ∨ c.bsess.bstate = .awaitNonFinal) ∧
          (c.dsess.localData.state.state = .init ∨ c.dsess.localData.state.state = .up) ∧
          (c.bsess.qdChange = true ∨ c.bsess.dfrData.shutdown = false ∨
            ¬ SameTimes (userBdata applied) c.bsess.dfrData)) := by
  obtain ⟨hcourse, hu⟩ := requested_updated hc hb hr
  rw [shutdownBounded_iff]
  exact hu.shutSoon_iff hb hs ⟨hcourse.qd, fun hb => ⟨(hcourse.shutting hb).1, (hcourse.shutting hb).2.1, hs⟩⟩

theorem requested_shutdown_up : ∃ (w : World) (c c' : Ctx) (applied : DSession), Meets w 5 c ∧
    requested .plain (requestShutdown true) c = some (applied, c') ∧ c.dsess.localData.state.state =
      .up ∧ ShutdownBounded c' := by
  obtain ⟨w, c, hw, hc, hb, he, hl, hr⟩ := exists_replayed (inPlain bringUp)
    (P := fun w c => c.bsess.bstate = .stable ∧ c.bsess.effData.shutdown = false ∧
      c.dsess.localData.state.state = .up ∧
      (requested .plain (requestShutdown true) { c with bpf := (w.enter .plain).bpf }).any
        (fun r => r.1.localData.flags.shutdown) = true) (by decide +kernel)
  obtain ⟨⟨applied, c'⟩, hr, hs⟩ := (Option.any_eq_true _ _).mp hr
  have hm := Meets.of_session hw hc .plain
  refine ⟨w, _, c', applied, hm, hr, hl, ?_⟩
  exact (requested_shutdown_iff hm (by simp [hb]) hr hs).mpr (.inr (.inl ⟨hb, he⟩))

/-- A poll sequence is started although the session is down, and nobody will
answer or time it out: the shutdown is queued behind it. -/
theorem requested_shutdown_stuck : ∃ (w : World) (c c' : Ctx) (applied : DSession), Meets w 5 c ∧
    c.bsess.bstate ≠ .onHold ∧ requested .plain (requestShutdown true) c = some (applied, c') ∧
    applied.localData.flags.shutdown = true ∧ ¬ ShutdownBounded c' := by
  obtain ⟨w, c, hw, hc, hb, hr⟩ := exists_replayed
    (inPlain [.addFive none none, .timer 0 none, .setFive none (some 2000000)])
    (P := fun w c => c.bsess.bstate = .awaitFinal ∧
      (requested .plain (requestShutdown true) { c with bpf := (w.enter .plain).bpf }).any
        (fun r => r.1.localData.flags.shutdown && decide (r.2.dsess.localData.state.state = .down)) = true)
    (by decide +kernel)
  obtain ⟨⟨applied, c'⟩, hr, hs⟩ := (Option.any_eq_true _ _).mp hr
  obtain ⟨hs, hl⟩ := Bool.and_eq_true_iff.mp hs
  refine ⟨w, _, c', applied, Meets.of_session hw hc .plain, by simp [hb], hr, hs, ?_⟩
  rw [ShutdownBounded, rearmTimer_iff]
  have hl' : c'.dsess.localData.state.state = .down := of_decide_eq_true hl
  simp [hl']

end Bbdd.Daemon
