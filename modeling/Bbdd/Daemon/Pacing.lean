import Bbdd.Daemon.Replay
import Bbdd.Datapath.Refresh
import Bbdd.Prog.Pass

namespace Bbdd.Daemon

open Lib.Transition Packet Session Prog Datapath

section Words

theorem percent_iff (x p : UInt32) :
    (x * p / 100).toNat = x.toNat * p.toNat / 100 ↔ x.toNat * p.toNat < 2 ^ 32 := by
  rw [UInt32.toNat_div, UInt32.toNat_mul, show (100 : UInt32).toNat = 100 from rfl]
  constructor
  · intro h
    by_contra hge
    have hle : x.toNat * p.toNat % 2 ^ 32 ≤ x.toNat * p.toNat - 2 ^ 32 := by
      have := Nat.mod_le (x.toNat * p.toNat - 2 ^ 32) (2 ^ 32)
      rwa [← Nat.mod_eq_sub_mod (Nat.le_of_not_lt hge)] at this
    omega
  · intro h
    rw [Nat.mod_eq_of_lt h]

theorem txInterval_between {config : SessionConfig}
    (h : config.minIntervalUs.toNat ≤ config.maxIntervalUs.toNat) (prandom : UInt32) :
    config.minIntervalUs.toNat ≤ (txInterval config prandom).toNat ∧
      (txInterval config prandom).toNat ≤ config.maxIntervalUs.toNat := by
  have hspan : (config.maxIntervalUs - config.minIntervalUs).toNat =
      config.maxIntervalUs.toNat - config.minIntervalUs.toNat :=
    UInt32.toNat_sub_of_le _ _ (UInt32.le_iff_toNat_le.mpr h)
  obtain ⟨hlo, hhi⟩ := txInterval_bounds config prandom
  omega

end Words

def agreedUs (dsess : DSession) (effData : BData) : Nat :=
  max effData.timing.minTxUs.toNat dsess.remoteData.timing.minRxUs.toNat

section

variable {c c' : Ctx} {inject : Bool} {r : Except String Unit}

theorem updateNow_bounds (h : updateNow inject c = .ok (r, c')) (hu : Updatable c) :
    ∃ config, c'.bpf.kernel.config c.dsess.localData.discr = some config ∧
      config.minIntervalUs = minIntervalUs c.dsess c.bsess.effData ∧
      config.maxIntervalUs = maxIntervalUs c.dsess c.bsess.effData := by
  obtain ⟨-, ⟨config, hw, hc⟩, -⟩ := updateNow_settled h hu
  have hf : Frame c c' := within_updateNow inject _ _ _ h
  rw [hf.dsess] at hc
  refine ⟨config, hc, ?_⟩
  unfold Ctx.wanted at hw
  split at hw
  · cases hw
    rw [← hf.dsess, ← hf.effData]
    exact ⟨rfl, rfl⟩
  · cases hw

/-- The delay the program schedules lies between the bounds of the config: the
time it adds to the clock is that many microseconds, and neither sum wraps. -/
def DelaysWithin (config : SessionConfig) : Prop :=
  ∀ veth h skb skb' k k', k.config (ntoh32 skb.bfd.myDisc) = some config → xmitVethTx veth h skb k =
    (.ok, skb', k') →
    ∃ delay : Nat, (skb'.tstamp - h.ktimeNs).toNat = delay * 1000 ∧
      config.minIntervalUs.toNat ≤ delay ∧ delay ≤ config.maxIntervalUs.toNat

theorem delaysWithin {config : SessionConfig}
    (h : config.minIntervalUs.toNat ≤ config.maxIntervalUs.toNat) :
    DelaysWithin config := by
  intro veth hp skb skb' k k' hc hx
  obtain ⟨hlo, hhi⟩ := txInterval_between h hp.prandom
  exact ⟨(txInterval config hp.prandom).toNat, xmitVethTx_delay hc hx, hlo, hhi⟩

/-- The bounds of the jitter as the RFC has them, and a transmit program that
keeps to them. -/
structure JitterWindow (agreed : Nat) (mult : UInt8) (config : SessionConfig) : Prop where
  min : config.minIntervalUs.toNat = agreed * 75 / 100
  max : config.maxIntervalUs.toNat = if mult = 1 then agreed * 90 / 100 else agreed
  ordered : config.minIntervalUs.toNat ≤ config.maxIntervalUs.toNat ∧ config.maxIntervalUs.toNat ≤ agreed
  delays : DelaysWithin config

theorem txIntervalUs_agreed {dsess : DSession} (h : dsess.localData.state.state ≠ .down) (effData : BData) :
    (txIntervalUs dsess effData).toNat = agreedUs dsess effData := by
  simp only [txIntervalUs, isDown, h, decide_false, Bool.false_eq_true, if_false, maxU32_toNat, agreedUs]

theorem minIntervalUs_iff {dsess : DSession} (h : dsess.localData.state.state ≠ .down) (effData : BData) :
    (minIntervalUs dsess effData).toNat = agreedUs dsess effData * 75 / 100 ↔
      agreedUs dsess effData * 75 < 2 ^ 32 := by
  have hp := percent_iff (txIntervalUs dsess effData) 75
  rw [txIntervalUs_agreed h, show (75 : UInt32).toNat = 75 from rfl] at hp
  simpa only [minIntervalUs, isDown, h, decide_false, Bool.false_eq_true, if_false] using hp

theorem maxIntervalUs_iff {dsess : DSession} (h : dsess.localData.state.state ≠ .down) (effData : BData) :
    ((maxIntervalUs dsess effData).toNat =
      if effData.timing.detectMult = 1 then agreedUs dsess effData * 90 / 100 else agreedUs dsess effData) ↔
      (effData.timing.detectMult = 1 → agreedUs dsess effData * 90 < 2 ^ 32) := by
  have hp := percent_iff (txIntervalUs dsess effData) 90
  rw [txIntervalUs_agreed h, show (90 : UInt32).toNat = 90 from rfl] at hp
  simp only [maxIntervalUs, isDown, h, decide_false, Bool.false_eq_true, if_false]
  split
  · rename_i hm
    simpa only [hm, forall_const] using hp
  · rename_i hm
    simp only [hm, false_imp_iff, iff_true]
    exact txIntervalUs_agreed h effData

/-- An update that reaches the kernel stores the window of the interval agreed
on exactly if scaling that interval does not wrap. -/
theorem jitterWindow_iff (h : updateNow inject c = .ok (r, c')) (hu : Updatable c)
    (hs : c.dsess.localData.state.state ≠ .down) :
    ∃ config, c'.bpf.kernel.config c.dsess.localData.discr = some config ∧
      (JitterWindow (agreedUs c.dsess c.bsess.effData) c.bsess.effData.timing.detectMult config ↔
        agreedUs c.dsess c.bsess.effData * 75 < 2 ^ 32 ∧
          (c.bsess.effData.timing.detectMult = 1 → agreedUs c.dsess c.bsess.effData * 90 < 2 ^ 32)) := by
  obtain ⟨config, hc, hmin, hmax⟩ := updateNow_bounds h hu
  have imin := minIntervalUs_iff hs c.bsess.effData
  have imax := maxIntervalUs_iff hs c.bsess.effData
  rw [← hmin] at imin
  rw [← hmax] at imax
  refine ⟨config, hc, fun hj => ⟨imin.mp hj.min, imax.mp hj.max⟩, fun ⟨h75, h90⟩ => ?_⟩
  have emin := imin.mpr h75
  have emax := imax.mpr h90
  have hord : config.minIntervalUs.toNat ≤ config.maxIntervalUs.toNat ∧
      config.maxIntervalUs.toNat ≤ agreedUs c.dsess c.bsess.effData := by
    rw [emin, emax]
    split <;> omega
  exact ⟨emin, emax, hord, delaysWithin hord.1⟩

theorem Meets.updatable {w : World} {d : UInt32} (h : Meets w d c)
    (ha : c.bpf.answers = fun _ => obliging) : Updatable c := by
  obtain ⟨n, hok⟩ := h.ok
  exact ⟨hok.addressed, fun n => by rw [ha]; rfl⟩

theorem exists_ok {α : Type} {p : Act (Except String α)} {c : Ctx}
    (h : (p c).toOption.any (fun r => r.1.isOk) = true) :
    ∃ a c', p c = .ok (.ok a, c') := by
  cases hp : p c with
  | error k => rw [hp] at h; cases h
  | ok rc =>
    obtain ⟨r, c'⟩ := rc
    cases r with
    | error e => rw [hp] at h; cases h
    | ok a => exact ⟨a, c', rfl⟩

theorem jitterWindow_up : ∃ (w : World) (c c' : Ctx) (config : SessionConfig), Meets w 5 c ∧
    c.dsess.localData.state.state = .up ∧ updateNow true c = .ok (.ok (), c') ∧
    c'.bpf.kernel.config 5 = some config ∧ JitterWindow 1000000 1 config := by
  obtain ⟨w, c, hw, hc, hn, hup, ha, hm, hr⟩ := exists_replayed (inPlain bringUp)
    (P := fun w c => c.dsess.localData.discr = 5 ∧ c.dsess.localData.state.state = .up ∧
      agreedUs c.dsess c.bsess.effData = 1000000 ∧ c.bsess.effData.timing.detectMult = 1 ∧
      (updateNow true { c with bpf := (w.enter .plain).bpf }).toOption.any (fun r => r.1.isOk) =
        true) (by decide +kernel)
  obtain ⟨⟨⟩, c', hrun⟩ := exists_ok hr
  have hmeets := Meets.of_session hw hc .plain
  obtain ⟨config, hconf, hiff⟩ := jitterWindow_iff hrun (hmeets.updatable rfl) (by simp [hup])
  refine ⟨w, _, c', config, hmeets, hup, hrun, hn ▸ hconf, ?_⟩
  have hwin := hiff.mpr (by rw [show agreedUs _ _ = 1000000 from ha]; exact ⟨by decide, fun _ => by decide⟩)
  simp only [ha, hm] at hwin
  exact hwin

theorem jitterWindow_wraps : ∃ (w : World) (c : Ctx) (config : SessionConfig), Reachable daemon w ∧
    w.session 5 = some c ∧
    c.dsess.localData.state.state ≠ .down ∧ w.bpf.kernel.config 5 = some config ∧
    agreedUs c.dsess c.bsess.effData = 60000000 ∧ config.minIntervalUs = 2050327 ∧
      config.maxIntervalUs = 11050327 ∧
    ¬ JitterWindow (agreedUs c.dsess c.bsess.effData) c.bsess.effData.timing.detectMult config := by
  obtain ⟨w, c, hw, hc, hs, ha, hconf⟩ := exists_replayed
    (inPlain ([.addFive none none, .timer 0 none] ++ arrival
      (makePacket 7 ⟨3, 1000000, 60000000⟩ ⟨.down, .nothing⟩ 5 0)))
    (P := fun w c => c.dsess.localData.state.state ≠ .down ∧ agreedUs c.dsess c.bsess.effData = 60000000 ∧
      (w.bpf.kernel.config 5).any (fun config =>
        config.minIntervalUs = 2050327 ∧ config.maxIntervalUs = 11050327) = true) (by decide +kernel)
  obtain ⟨config, hconf, hv⟩ := (Option.any_eq_true _ _).mp hconf
  obtain ⟨hmin, hmax⟩ := of_decide_eq_true hv
  refine ⟨w, c, config, hw, hc, hs, hconf, ha, hmin, hmax, fun hj => ?_⟩
  have := hj.min
  rw [hmin, ha] at this
  exact absurd this (by decide)

/-- The interval before jitter is no shorter than the two ends agreed on, and
no shorter than the slow one unless the session is up. -/
structure PacingFloor (c : Ctx) : Prop where
  agreed : agreedUs c.dsess c.bsess.effData ≤ (txIntervalUs c.dsess c.bsess.effData).toNat
  slow : c.dsess.localData.state.state ≠ .up → slowIntervalUs.toNat ≤
    (txIntervalUs c.dsess c.bsess.effData).toNat

theorem slowIntervalUs_toNat : slowIntervalUs.toNat = 1000000 := by
  simp [slowIntervalUs]

theorem txIntervalUs_down {dsess : DSession} (h : dsess.localData.state.state = .down) (effData : BData) :
    txIntervalUs dsess effData = slowIntervalUs := by
  simp only [txIntervalUs, isDown, h, decide_true, if_true]

/-- The floor is kept exactly if a session that is down has a peer and a user
content with the slow rate, and one that is not up has agreed on no faster
one. The bounds that are stored are those of the interval. -/
theorem pacingFloor_iff (h : updateNow inject c = .ok (r, c')) (hu : Updatable c) :
    ∃ config, c'.bpf.kernel.config c.dsess.localData.discr = some config ∧
      config.minIntervalUs = minIntervalUs c.dsess c.bsess.effData ∧
      config.maxIntervalUs = maxIntervalUs c.dsess c.bsess.effData ∧
      (PacingFloor c ↔
        (c.dsess.localData.state.state = .down → agreedUs c.dsess c.bsess.effData ≤ slowIntervalUs.toNat) ∧
        (c.dsess.localData.state.state = .init ∨ c.dsess.localData.state.state = .adminDown →
          slowIntervalUs.toNat ≤ agreedUs c.dsess c.bsess.effData)) := by
  obtain ⟨config, hc, hmin, hmax⟩ := updateNow_bounds h hu
  refine ⟨config, hc, hmin, hmax, fun hf => ⟨fun hd => ?_, fun hs => ?_⟩, fun ⟨hdown, hslow⟩ => ?_⟩
  · have := hf.agreed
    rwa [txIntervalUs_down hd] at this
  · have hd : c.dsess.localData.state.state ≠ .down := by obtain hs | hs := hs <;> simp [hs]
    have hup : c.dsess.localData.state.state ≠ .up := by obtain hs | hs := hs <;> simp [hs]
    rw [← txIntervalUs_agreed hd]
    exact hf.slow hup
  · by_cases hd : c.dsess.localData.state.state = .down
    · exact ⟨by rw [txIntervalUs_down hd]; exact hdown hd, fun _ => by rw [txIntervalUs_down hd]⟩
    · refine ⟨(txIntervalUs_agreed hd _).ge, fun hup => ?_⟩
      rw [txIntervalUs_agreed hd]
      apply hslow
      cases hs : c.dsess.localData.state.state with
      | init => exact .inl rfl
      | adminDown => exact .inr rfl
      | down => exact absurd hs hd
      | up => exact absurd hs hup

theorem pacingFloor_init : ∃ (w : World) (c c' : Ctx) (config : SessionConfig), Meets w 5 c ∧
    c.dsess.localData.state.state = .init ∧ updateNow true c = .ok (.ok (), c') ∧
    c'.bpf.kernel.config 5 = some config ∧ PacingFloor c := by
  obtain ⟨w, c, hw, hc, hn, hi, ha, hr⟩ := exists_replayed
    (inPlain ([.addFive none none, .timer 0 none] ++ arrival (peerPacket .down 0)))
    (P := fun w c => c.dsess.localData.discr = 5 ∧ c.dsess.localData.state.state = .init ∧
      agreedUs c.dsess c.bsess.effData = 1000000 ∧
      (updateNow true { c with bpf := (w.enter .plain).bpf }).toOption.any (fun r => r.1.isOk) =
        true) (by decide +kernel)
  obtain ⟨⟨⟩, c', hrun⟩ := exists_ok hr
  have hmeets := Meets.of_session hw hc .plain
  obtain ⟨config, hconf, -, -, hiff⟩ := pacingFloor_iff hrun (hmeets.updatable rfl)
  refine ⟨w, _, c', config, hmeets, hi, hrun, hn ▸ hconf, hiff.mpr ⟨fun hd => ?_, fun _ => ?_⟩⟩
  · rw [slowIntervalUs_toNat]
    exact ha.le
  · rw [slowIntervalUs_toNat]
    exact ha.ge

/-- A session that is coming up sends twenty packets a second; one that is
down sends each second although its peer wants one every other second. -/
theorem pacingFloor_broken :
    (∃ (w : World) (c : Ctx), Reachable daemon w ∧ w.session 5 = some c ∧ c.bsess.bstate ≠ .onHold ∧
      c.dsess.localData.state.state = .init ∧
      (w.bpf.kernel.config 5).map (·.maxIntervalUs) = some (maxIntervalUs c.dsess c.bsess.effData) ∧
      (txIntervalUs c.dsess c.bsess.effData) = 50000 ∧ ¬ PacingFloor c) ∧
    ∃ (w : World) (c : Ctx), Reachable daemon w ∧ w.session 5 = some c ∧ c.bsess.bstate ≠ .onHold ∧
      c.dsess.localData.state.state = .down ∧
      (w.bpf.kernel.config 5).map (·.maxIntervalUs) = some (maxIntervalUs c.dsess c.bsess.effData) ∧
      agreedUs c.dsess c.bsess.effData = 2000000 ∧ ¬ PacingFloor c := by
  constructor
  · obtain ⟨w, c, hw, hc, hb, hs, hm, ht⟩ := exists_replayed
      (inPlain ([.addFive none none, .timer 0 none, .setFive none (some 50000), .kernel (.pass 0 routed)] ++
        arrival (makePacket 7 ⟨3, 50000, 50000⟩ ⟨.down, .nothing⟩ 5 0)))
      (P := fun w c => c.bsess.bstate ≠ .onHold ∧ c.dsess.localData.state.state = .init ∧
        (w.bpf.kernel.config 5).map (·.maxIntervalUs) = some (maxIntervalUs c.dsess c.bsess.effData) ∧
        txIntervalUs c.dsess c.bsess.effData = 50000) (by decide +kernel)
    refine ⟨w, c, hw, hc, hb, hs, hm, ht, fun hf => ?_⟩
    have := hf.slow (by simp [hs])
    rw [ht, slowIntervalUs_toNat, show (50000 : UInt32).toNat = 50000 from rfl] at this
    omega
  · obtain ⟨w, c, hw, hc, hb, hs, hm, ha⟩ := exists_replayed
      (inPlain ([.addFive none none, .timer 0 none] ++ arrival
        (makePacket 7 ⟨3, 1000000, 2000000⟩ ⟨.adminDown, .nothing⟩ 5 0)))
      (P := fun w c => c.bsess.bstate ≠ .onHold ∧ c.dsess.localData.state.state = .down ∧
        (w.bpf.kernel.config 5).map (·.maxIntervalUs) = some (maxIntervalUs c.dsess c.bsess.effData) ∧
        agreedUs c.dsess c.bsess.effData = 2000000) (by decide +kernel)
    refine ⟨w, c, hw, hc, hb, hs, hm, ha, fun hf => ?_⟩
    have := hf.agreed
    rw [ha, txIntervalUs_down hs, slowIntervalUs_toNat] at this
    omega

end

end Bbdd.Daemon
