import Bbdd.Daemon.Replay
import Bbdd.Datapath.Refresh

namespace Bbdd.Daemon

open Lib.Program Lib.Transition Session Datapath

def rearms (b : Bpf) : Nat := b.sends.countP (fun s => decide (s.veth = .rx))

section

variable {c c' : Ctx} {r : Except String Unit} {us : UInt32}

theorem sessionInjectPkt_rearms {veth : Veth} {flags : UInt8}
    (h : sessionInjectPkt veth flags c = .ok (r, c')) :
    c'.dsess = c.dsess ∧ c'.bsess = c.bsess ∧ rearms c'.bpf = rearms c.bpf + if veth = .rx then 1 else 0 := by
  obtain ⟨bdata, -, rfl, -⟩ := sessionInjectPkt_eq h
  refine ⟨rfl, rfl, ?_⟩
  simp only [rearms, send_sends, List.countP_cons]
  cases veth <;> rfl

def nextPeriod (period us : UInt32) : UInt32 := if period = us then 0 else us

/-- An update went on from one memory of the last period, and restarted the
timer if that was not the period it came to. -/
structure Rearmed (us : UInt32) (c c' : Ctx) : Prop where
  period : c'.bsess.timerPeriodUs = nextPeriod c.bsess.timerPeriodUs us
  rearms : rearms c'.bpf = rearms c.bpf + if c.bsess.timerPeriodUs = us then 0 else 1

theorem Rearmed.of_eq {c₁ : Ctx} (h : Rearmed us c₁ c')
    (hp : c₁.bsess.timerPeriodUs = c.bsess.timerPeriodUs)
    (hs : Daemon.rearms c₁.bpf = Daemon.rearms c.bpf) : Rearmed us c c' :=
  ⟨by rw [h.period, hp], by rw [h.rearms, hp, hs]⟩

theorem updateRearm_rearmed (h : updateRearm us c = .ok (.ok (), c'))
    (ht : rearmTimer c.dsess = true) : Rearmed us c c' := by
  have h := read_ok.mp h
  by_cases hp : c.bsess.timerPeriodUs = us
  · rw [if_neg (by simp [hp])] at h
    obtain ⟨_, _, hu, h⟩ := bind_ok.mp h
    cases hu
    obtain ⟨-, rfl⟩ := pure_ok.mp h
    exact ⟨by simp [nextPeriod, hp], by simp [hp]⟩
  · rw [if_pos (by simp [hp, ht])] at h
    obtain ⟨r₁, c₁, h₁, h⟩ := bind_ok.mp h
    obtain ⟨-, -, hs⟩ := sessionInjectPkt_rearms h₁
    cases r₁ with
    | error e =>
      obtain ⟨hr, -⟩ := pure_ok.mp h
      cases hr
    | ok _ =>
      obtain ⟨_, _, hu, h⟩ := bind_ok.mp h
      cases hu
      obtain ⟨-, rfl⟩ := pure_ok.mp h
      exact ⟨by simp [nextPeriod, hp], by rw [if_neg hp]; exact hs⟩

theorem updateInject_period {inject : Bool} (h : updateInject inject c = .ok (r, c')) :
    c'.dsess = c.dsess ∧ c'.bsess = c.bsess ∧ rearms c'.bpf = rearms c.bpf := by
  cases inject with
  | false =>
    obtain ⟨-, rfl⟩ := pure_ok.mp h
    exact ⟨rfl, rfl, rfl⟩
  | true =>
    have h := read_ok.mp h
    cases hf : injectBfdFlags c.dsess c.bsess with
    | none => simp only [hf] at h; cases h
    | some flags =>
      simp only [hf] at h
      exact sessionInjectPkt_rearms h

theorem updateNow_rearmed {inject : Bool} (h : updateNow inject c = .ok (.ok (), c'))
    (ht : rearmTimer c.dsess = true)
    (hus : sessionDetectTimeUs c.bsess.effData c.dsess.remoteData = some us) : Rearmed us c c' := by
  obtain ⟨us', hus', h⟩ := updateNow_marked h
  cases hus.symm.trans hus'
  obtain ⟨r₁, c₁, h₁, h⟩ := bind_ok.mp h
  have hi₁ := injected_sessionConfUpdate _ _ _ _ h₁
  have hd₁ := drift_sessionConfUpdate _ _ _ _ h₁
  have hp₁ : c₁.bsess.timerPeriodUs = c.bsess.timerPeriodUs := by
    obtain ⟨-, ⟨rfl, -⟩ | ⟨rfl, -⟩⟩ | ⟨-, addrs, -, rfl⟩ := sessionConfUpdate_eq h₁ <;> rfl
  have hs₁ : rearms c₁.bpf = rearms c.bpf := congrArg (List.countP _) hd₁.idle.sends
  cases r₁ with
  | error e =>
    obtain ⟨hr, -⟩ := pure_ok.mp h
    cases hr
  | ok _ =>
    obtain ⟨r₂, c₂, h₂, h⟩ := bind_ok.mp h
    obtain ⟨hd₂, hb₂, hs₂⟩ := updateInject_period h₂
    cases r₂ with
    | error e =>
      obtain ⟨hr, -⟩ := pure_ok.mp h
      cases hr
    | ok _ =>
      have ht₂ : rearmTimer c₂.dsess = true := by rw [hd₂, hi₁.dsess]; exact ht
      exact (updateRearm_rearmed h ht₂).of_eq (by rw [hb₂, hp₁]) (hs₂.trans hs₁)

theorem sessionUpdateInner_rearmed (h : sessionUpdateInner c = .ok (.ok (), c'))
    (hg : c.bsess.genBumps < c'.bsess.genBumps) (ht : rearmTimer c.dsess = true)
    (hus : sessionDetectTimeUs c.bsess.effData c.dsess.remoteData = some us) :
    Rearmed us c c' := by
  have h := read_ok.mp h
  split at h
  · obtain ⟨room, c₁, h₁, h⟩ := bind_ok.mp h
    obtain ⟨a, c₂, ha, h₁⟩ := bind_ok.mp h₁
    cases ha
    obtain ⟨_, _, hr, h₁⟩ := bind_ok.mp h₁
    cases hr
    obtain ⟨-, rfl⟩ := pure_ok.mp h₁
    split at h
    · exact (updateNow_rearmed h ht hus).of_eq rfl rfl
    · rw [(updateDefer_linked h).1.genBumps] at hg
      exact absurd hg (Nat.lt_irrefl _)
  · exact updateNow_rearmed h ht hus

end

/-- Updates one after the other that each ran to its end, with the timer
enabled and the same detection time all along, and for each whether it
restarted the timer. Whatever lies between two of them has left the memory of
the last period alone. -/
inductive Updates (us : UInt32) : Ctx → List Bool → Ctx → Prop
  | nil (c) : Updates us c [] c
  | call {c c₀ c₁ c' bs} : c₀.bsess.timerPeriodUs = c.bsess.timerPeriodUs → rearmTimer c₀.dsess = true →
      sessionDetectTimeUs c₀.bsess.effData c₀.dsess.remoteData = some us →
        sessionUpdateInner c₀ = .ok (.ok (), c₁) →
      c₀.bsess.genBumps < c₁.bsess.genBumps → Updates us c₁ bs c' →
      Updates us c (decide (rearms c₀.bpf < rearms c₁.bpf) :: bs) c'

section

variable {c c' : Ctx} {us : UInt32} {b : Bool} {bs : List Bool}

theorem Updates.cons_inv (h : Updates us c (b :: bs) c') : ∃ c₁, (b = true ↔ c.bsess.timerPeriodUs ≠ us) ∧
    c₁.bsess.timerPeriodUs = nextPeriod c.bsess.timerPeriodUs us ∧ Updates us c₁ bs c' := by
  cases h with
  | @call _ c₀ c₁ _ _ hp ht hus hr hg hrest =>
    have hre := sessionUpdateInner_rearmed hr hg ht hus
    refine ⟨c₁, ?_, by rw [hre.period, hp], hrest⟩
    rw [decide_eq_true_iff, hre.rearms, hp]
    split <;> simp_all

theorem Updates.zero (h : Updates 0 c bs c') (hp : c.bsess.timerPeriodUs = 0) : ∀ b ∈ bs, b = false := by
  induction bs generalizing c with
  | nil => simp
  | cons b bs ih =>
    obtain ⟨c₁, hb, hp₁, hrest⟩ := h.cons_inv
    rw [hp, nextPeriod, if_pos rfl] at hp₁
    intro x hx
    obtain rfl | hx := List.mem_cons.mp hx
    · rw [← Bool.not_eq_true, hb, hp]
      simp
    · exact ih hrest hp₁ x hx

/-- None but the first of several updates restarts the timer exactly if there
are no more than two of them, or one when the period was remembered already;
the next one forgets that the timer is running. -/
theorem rearms_once_iff (h : Updates us c bs c') :
    (∀ b ∈ bs.tail, b = false) ↔ us = 0 ∨ bs.length ≤ if c.bsess.timerPeriodUs = us then 1 else 2 := by
  cases bs with
  | nil => simp
  | cons b₁ bs =>
    obtain ⟨c₁, -, hp₁, h₁⟩ := h.cons_inv
    by_cases h0 : us = 0
    · subst h0
      have hz : c₁.bsess.timerPeriodUs = 0 := by
        rw [hp₁, nextPeriod]
        split <;> rfl
      simpa using h₁.zero hz
    rw [List.tail_cons]
    cases bs with
    | nil => split <;> simp
    | cons b₂ bs =>
      obtain ⟨c₂, hb₂, hp₂, h₂⟩ := h₁.cons_inv
      by_cases hp : c.bsess.timerPeriodUs = us
      · rw [nextPeriod, if_pos hp] at hp₁
        have : b₂ = true := hb₂.mpr (by rw [hp₁]; exact fun he => h0 he.symm)
        simp [this, hp, h0]
      · rw [nextPeriod, if_neg hp] at hp₁
        have hfirst : b₂ = false := by rw [← Bool.not_eq_true, hb₂, hp₁]; simp
        rw [hp₁, nextPeriod, if_pos rfl] at hp₂
        cases bs with
        | nil => simp [hfirst, hp]
        | cons b₃ bs =>
          obtain ⟨c₃, hb₃, -, -⟩ := h₂.cons_inv
          have : b₃ = true := hb₃.mpr (by rw [hp₂]; exact fun he => h0 he.symm)
          simp [this, hfirst, hp, h0]

def Ctx.spun (c : Ctx) : Ctx :=
  { c with bpf := { c.bpf with kernel := c.bpf.kernel.step c.bpf.vethTxIfindex (.pass 0 routed) } }

def updateThrough (us : UInt32) (c : Ctx) : Option (Bool × Ctx) :=
  match sessionUpdateInner c with
  | .ok (.ok (), c₁) =>
    if rearmTimer c.dsess = true ∧ sessionDetectTimeUs c.bsess.effData c.dsess.remoteData = some us ∧
        c.bsess.genBumps < c₁.bsess.genBumps then some (decide (rearms c.bpf < rearms c₁.bpf), c₁)
    else none
  | _ => none

def updatesThrough (us : UInt32) : Nat → Ctx → Option (List Bool × Ctx)
  | 0, c => some ([], c)
  | n + 1, c => do
    let (b, c₁) ← updateThrough us (Ctx.spun c)
    let (bs, c') ← updatesThrough us n c₁
    pure (b :: bs, c')

theorem updatesThrough_updates {n : Nat} (h : updatesThrough us n c = some (bs, c')) :
    Updates us c bs c' := by
  induction n generalizing c bs with
  | zero =>
    cases h
    exact .nil _
  | succ n ih =>
    obtain ⟨⟨b, c₁⟩, h₁, h⟩ := Option.bind_eq_some_iff.mp h
    obtain ⟨⟨bs', c₂⟩, h₂, h⟩ := Option.bind_eq_some_iff.mp h
    cases h
    unfold updateThrough at h₁
    split at h₁
    · rename_i c₃ hr
      split at h₁
      · rename_i hc
        cases h₁
        exact @Updates.call us c (Ctx.spun c) _ _ _ rfl hc.1 hc.2.1 hr hc.2.2 (ih h₂)
      · cases h₁
    · cases h₁

theorem rearms_once_twice : ∃ (w : World) (c c' : Ctx) (bs : List Bool), Meets w 5 c ∧ Updates 1000000 c bs c' ∧
    bs.length = 2 ∧ ∀ b ∈ bs.tail, b = false := by
  obtain ⟨w, c, hw, hc, hp, hu⟩ := exists_replayed (inPlain settledUp)
    (P := fun w c => c.bsess.timerPeriodUs = 0 ∧
      (updatesThrough 1000000 2 { c with bpf := (w.enter .plain).bpf }).any
        (fun r => r.1.length = 2) = true) (by decide +kernel)
  obtain ⟨⟨bs, c'⟩, hu, hl⟩ := (Option.any_eq_true _ _).mp hu
  have hups := updatesThrough_updates hu
  have hlen : bs.length = 2 := of_decide_eq_true hl
  refine ⟨w, _, c', bs, Meets.of_session hw hc .plain, hups, hlen, (rearms_once_iff hups).mpr (.inr ?_)⟩
  rw [hlen, show Ctx.bsess { c with bpf := (w.enter .plain).bpf } = c.bsess from rfl, hp]
  decide

/-- The third restarts it again. So does every other request that changes
nothing at all. -/
theorem rearms_again :
    (∃ (w : World) (c c' : Ctx), Meets w 5 c ∧ Updates 1000000 c [true, false, true] c') ∧
    ∃ (w w₁ w₂ : World) (c : Ctx), Reachable daemon w ∧ w.session 5 = some c ∧
      c.dsess.localData.state.state = .up ∧
      replay w (inPlain [.setFive none none]) = some w₁ ∧
      replay w₁ (inPlain [.kernel (.pass 0 routed), .setFive none none, .kernel (.pass 0 routed),
        .setFive none none]) = some w₂ ∧
      rearms w₁.bpf < rearms w₂.bpf := by
  constructor
  · obtain ⟨w, c, hw, hc, hu⟩ := exists_replayed (inPlain settledUp)
      (P := fun w c => (updatesThrough 1000000 3 { c with bpf := (w.enter .plain).bpf }).any
        (fun r => r.1 = [true, false, true]) = true) (by decide +kernel)
    obtain ⟨⟨bs, c'⟩, hu, hl⟩ := (Option.any_eq_true _ _).mp hu
    have hbs : bs = [true, false, true] := of_decide_eq_true hl
    exact ⟨w, _, c', Meets.of_session hw hc .plain, hbs ▸ updatesThrough_updates hu⟩
  · obtain ⟨w, c, hw, hc, hup, hr⟩ := exists_replayed (inPlain settledUp)
      (P := fun w c => c.dsess.localData.state.state = .up ∧
        (replay w (inPlain [.setFive none none])).any (fun w₁ =>
          (replay w₁ (inPlain [.kernel (.pass 0 routed), .setFive none none, .kernel
            (.pass 0 routed), .setFive none none])).any
            (fun w₂ => rearms w₁.bpf < rearms w₂.bpf)) = true) (by decide +kernel)
    obtain ⟨w₁, h₁, hr⟩ := (Option.any_eq_true _ _).mp hr
    obtain ⟨w₂, h₂, hr⟩ := (Option.any_eq_true _ _).mp hr
    exact ⟨w, w₁, w₂, c, hw, hc, hup, h₁, h₂, of_decide_eq_true hr⟩

end

end Bbdd.Daemon
