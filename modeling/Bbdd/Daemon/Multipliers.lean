import Bbdd.Daemon.Replay

namespace Bbdd.Daemon

open Lib.Program Lib.Transition Session Datapath Poll

section

variable {w : World} {d : UInt32} {c : Ctx}

theorem sessionDetectTimeUs_eq (effData : BData) {remote : SessionData} (h : remote.timing.detectMult ≠ 0) :
    ∃ us, sessionDetectTimeUs effData remote = some us ∧ us.toNat =
      min (2 ^ 32 - 1) (remote.timing.detectMult.toNat * max effData.timing.minRxUs.toNat
        remote.timing.minTxUs.toNat) := by
  have hmult : remote.timing.detectMult.toUInt32.toNat = remote.timing.detectMult.toNat := UInt8.toNat_toUInt32 _
  have hpos : 0 < remote.timing.detectMult.toNat :=
    Nat.pos_of_ne_zero fun hz => h (UInt8.toNat_inj.mp hz)
  have hbase := maxU32_toNat effData.timing.minRxUs remote.timing.minTxUs
  simp only [sessionDetectTimeUs, if_neg h]
  generalize maxU32 effData.timing.minRxUs remote.timing.minTxUs = base at hbase ⊢
  have htest : base > uint32Max / remote.timing.detectMult.toUInt32 ↔
      2 ^ 32 - 1 < remote.timing.detectMult.toNat * base.toNat := by
    rw [gt_iff_lt, UInt32.lt_iff_toNat_lt, UInt32.toNat_div, hmult, Nat.div_lt_iff_lt_mul hpos, Nat.mul_comm]
    rfl
  split <;> rename_i hlt <;> rw [htest] at hlt
  · refine ⟨uint32Max, rfl, ?_⟩
    rw [← hbase, Nat.min_eq_left (Nat.le_of_lt hlt)]
    rfl
  · refine ⟨base * remote.timing.detectMult.toUInt32, rfl, ?_⟩
    rw [← hbase, UInt32.toNat_mul, hmult, Nat.mul_comm, Nat.mod_eq_of_lt (by omega)]
    omega

theorem ringbufEvent_fatal {nl : Nl} (hf : Fatal w .ringbuf) : ringbufEvent nl w = .error .onHold := by
  obtain ⟨discr, rest, c, hr, hc, hb⟩ := hf
  obtain ⟨hd, hbs, -⟩ := session_eq_some.mp hc
  have hto (b : Bpf) : handleTimeout ⟨b, c.dsess, c.bsess⟩ = .error .onHold := by
    simp only [handleTimeout, bind_run (read_run _), hb]
    rfl
  have hlook (b : Bpf) : lookupSession discr (w.setBpf b) = .ok ((c.dsess, c.bsess), w.setBpf b) := by
    simp only [lookupSession, bind_run (read_run _), World.setBpf, hd, hbs]
    rfl
  have hhandle (b : Bpf) : rbHandleTimeout discr (w.setBpf b) = .error .onHold := by
    have hd' : (w.setBpf b).sdir.find discr = some c.dsess := hd
    simp only [rbHandleTimeout, bind_run (read_run _), hd', bind_run (hlook b), onSession, hto]
  simp only [ringbufEvent, bind_run (read_run w), hr, rbHandle]
  exact (bind_run rfl).trans (hhandle _)

theorem run_mult (hr : Reachable daemon w) (env : Env) (e : Event) : run w env e ≠ .error .detectMult := by
  have hw := (reachable_sound hr).enter env
  intro hk
  have hk' : handle env.nl e (w.enter env) = .error .detectMult := hk
  by_cases hf : Fatal (w.enter env) e
  · cases e with
    | timer =>
      simp only [handle, map_eq_pure_bind] at hk'
      obtain ht | ht := timerEvent_fatal hw hf
      · rw [bind_error ht] at hk'
        cases hk'
      · rw [bind_error ht] at hk'
        cases hk'
    | ringbuf =>
      simp only [handle, map_eq_pure_bind, bind_error (ringbufEvent_fatal hf)] at hk'
      cases hk'
    | add | set | del | bfddAdd | bfddDel | pollout | kernel => exact hf.elim
  · have hruns : wp (handle env.nl e) (fun _ v => Done env.nl e _ v) _ := handle_runs hw hf
    obtain ⟨r, w', hok, -⟩ := hruns
    rw [hk'] at hok
    cases hok

/-- In every session of a reachable daemon the multipliers that are used are not
zero, so the detection time is defined, and is the product of the multiplier and
the longer interval unless that does not fit; and no event meets a zero. -/
theorem multipliers_nonzero (hr : Reachable daemon w) :
    (∀ d c, w.session d = some c →
      c.dsess.localData.timing.detectMult ≠ 0 ∧ c.dsess.remoteData.timing.detectMult ≠ 0 ∧
      (c.bsess.bstate ≠ .onHold → c.bsess.effData.timing.detectMult ≠ 0) ∧
      (c.bsess.bstate = .awaitFinal ∨ c.bsess.bstate = .awaitNonFinal ∨ c.bsess.bstate = .shuttingDown →
        c.bsess.dfrData.timing.detectMult ≠ 0) ∧
      ∃ us, sessionDetectTimeUs c.bsess.effData c.dsess.remoteData = some us ∧
        us.toNat = min (2 ^ 32 - 1) (c.dsess.remoteData.timing.detectMult.toNat *
          max c.bsess.effData.timing.minRxUs.toNat c.dsess.remoteData.timing.minTxUs.toNat)) ∧
    ∀ env e, run w env e ≠ .error .detectMult := by
  refine ⟨fun d c hc => ?_, run_mult hr⟩
  have hs : Sane (view c) := ((reachable_sound hr).session d c hc).sane
  refine ⟨hs.userMult, hs.remMult, fun hb => (hs.fit hb).1.effMult, fun hb =>
    ?_, sessionDetectTimeUs_eq _ hs.remMult⟩
  have hawake : c.bsess.bstate ≠ .onHold ∧ c.bsess.bstate ≠ .stable := by
    obtain hb | hb | hb := hb <;> rw [hb] <;> decide
  exact (hs.fit hawake.1).1.dfrMult (.inl hawake.2)

theorem multipliers_nonzero_up : ∃ (w : World) (c : Ctx), w.session 5 = some c ∧
    c.dsess.localData.state.state = .up ∧
    c.dsess.remoteData.timing.detectMult ≠ 0 ∧ ∀ env e, run w env e ≠ .error .detectMult := by
  obtain ⟨w, c, hw, hc, hup⟩ := exists_replayed (inPlain bringUp)
    (P := fun _ c => c.dsess.localData.state.state = .up) (by decide +kernel)
  obtain ⟨hsess, hrun⟩ := multipliers_nonzero hw
  exact ⟨w, c, hc, hup, (hsess 5 c hc).2.1, hrun⟩

end

end Bbdd.Daemon
