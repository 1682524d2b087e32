import Bbdd.Daemon.Fate
import Bbdd.Daemon.Replay
import Bbdd.Poll.Retain

namespace Bbdd.Daemon

open Lib.Program Lib.Directory Lib.Transition Session Datapath Poll

def Tabled (nl : Nl) (dsess : DSession) : Prop :=
  dsess.vrfIfindex ≠ 0 → nlGetVrfTable nl dsess.vrfIfindex = .ok dsess.vrfTable

def CVrf.IndexOnly (vrf : CVrf) : Prop :=
  vrf.netif.unset = false ∧ vrf.netif.name = none ∧ vrf.netif.ifindex.isSome = true ∧ vrf.table = none

section

variable {nl : Nl} {dsess applied : DSession} {csess cs : CSession} {changed : Bool}

theorem checked_vrf {vrf vrf' : CVrf} (h : sessionValidateVrf nl vrf = .ok vrf')
    (hi : vrf'.netif.ifindex.isSome = true) :
    vrf'.table.isSome = true := by
  obtain ⟨i, hi⟩ := Option.isSome_iff_exists.mp hi
  obtain ⟨table, -, ht, -⟩ := (sessionValidateVrf_ok h).2.2.2 i hi
  rw [ht]
  rfl

theorem validateJrpc_vrf (h : validateJrpc nl csess = .ok cs) :
    (csess.vrf.netif.name = none ∧ cs.vrf = csess.vrf) ∨
    (csess.vrf.netif.name.isSome = true ∧ sessionValidateVrf nl csess.vrf = .ok cs.vrf) := by
  obtain ⟨netif, vrf, rfl, -, ⟨hname, hv⟩ | ⟨hname, rfl⟩⟩ := validated_inv h
  · exact .inr ⟨hname, hv⟩
  · exact .inl ⟨by simpa using hname, rfl⟩

theorem validateBfdd_vrf (h : validateBfdd nl csess = .ok cs) :
    (csess.vrf.table = none ∧ csess.vrf.netif.ifindex = none ∧ csess.vrf.netif.name = none ∧
      cs.vrf = csess.vrf) ∨
    sessionValidateVrf nl csess.vrf = .ok cs.vrf := by
  obtain ⟨netif, vrf, rfl, -, ⟨-, hv⟩ | ⟨hnone, rfl⟩⟩ := validated_inv h
  · exact .inr hv
  · simp only [not_or, Bool.not_eq_true, Option.isSome_eq_false_iff, Option.isNone_iff_eq_none] at hnone
    exact .inl ⟨hnone.1, hnone.2.1, hnone.2.2, rfl⟩

theorem sessionApplyC_tabled (h : sessionApplyC nl dsess csess = .ok (applied, changed)) (hold : Tabled nl dsess)
    (hc : csess.vrf.netif.unset = false → csess.vrf.netif.ifindex.isSome = true →
      csess.vrf.table.isSome = true ∨ dsess.vrfTable ≠ 0) : Tabled nl applied := by
  obtain ⟨-, -, -, ⟨vrf, hv⟩, -, -, src, dst, -, -, rfl⟩ := sessionApplyC_inv h
  intro hne
  have hu : csess.vrf.netif.unset = false := by
    by_contra hu
    exact hne (by simp [applyFields, applyIfindex, hu])
  simp only [applyFields, applyIfindex, hu, Bool.false_eq_true, if_false] at hne ⊢
  have hi : (changedVrf nl dsess csess.vrf).netif.ifindex =
    some (csess.vrf.netif.ifindex.getD dsess.vrfIfindex) := by
    cases hci : csess.vrf.netif.ifindex with
    | some i => simp [changedVrf, hci]
    | none =>
      rw [hci, Option.getD_none] at hne
      simp [changedVrf, sessionToCVrf, hci, hu, hne]
  obtain ⟨-, hkeep, -, htable⟩ := sessionValidateVrf_ok hv
  obtain ⟨table, htab, -, hgiven⟩ := htable _ (hkeep _ hi)
  cases hct : csess.vrf.table with
  | some t =>
    rw [htab, Option.getD_some, hgiven t (by simp [changedVrf, hct])]
  | none =>
    rw [Option.getD_none]
    by_cases h0 : dsess.vrfTable = 0
    · cases hci : csess.vrf.netif.ifindex with
      | none =>
        rw [hci, Option.getD_none] at hne
        exact hold hne
      | some i =>
        obtain ht | ht := hc hu (by rw [hci]; rfl)
        · simp [hct] at ht
        · exact absurd h0 ht
    · rw [htab, hgiven dsess.vrfTable (by simp [changedVrf, sessionToCVrf, hct, h0])]

theorem retains_vrf {dsess' : DSession} (h : Retains dsess dsess') :
    dsess'.vrfIfindex = dsess.vrfIfindex ∧ dsess'.vrfTable = dsess.vrfTable := by
  obtain ⟨_, _, _, rfl⟩ := h
  exact ⟨rfl, rfl⟩

def Handler.configured (dsess : DSession) : Handler → DSession
  | .set applied => applied
  | _ => dsess

theorem Handled.retains {h : Handler} {c c' : Ctx} (hh : Handled h c c') :
    Retains (h.configured c.dsess) c'.dsess := by
  cases hh with
  | @set _ c₁ r applied csess ha hu hr =>
    have hd : Retains applied c₁.dsess := (sameButEnds_sessionUpdate hr).retains
    obtain he | he := announced_eq r (decide (applied ≠ c.dsess)) c₁ <;> rw [he] <;> exact hd
  | timeout hr => exact retains_handleTimeout hr
  | hold id hm hr => exact (retains_holdTimerCb hr :)
  | shwait id hm hr => exact ((sameButEnds_shwaitTimerCb hr).retains :)
  | drain kind hl hr =>
    rw [(within_drainSlot _ _ _ _ hr).dsess]
    exact .refl _
  | packet packet wireLen ttl hr => exact retains_handlePacket hr

end

/-- A request does not give a VRF by its index alone, or only to sessions that
have a table already. -/
def Derivable (nl : Nl) (w : World) : Event → Prop
  | .add csess _ => ¬ csess.val.vrf.IndexOnly
  | .set select change bulk => change.val.vrf.IndexOnly →
    ∀ sel discrs, validateJrpc nl select.val = .ok sel → parseSelectSessions nl w.sdir sel bulk = .ok discrs →
      ∀ d ∈ discrs, ∀ dsess, w.sdir.find d = some dsess → dsess.vrfTable ≠ 0
  | _ => True

section

variable {nl : Nl} {w : World} {e : Event} {d : UInt32} {dsess applied : DSession} {csess cs : CSession}

theorem jrpc_complete (h : validateJrpc nl csess = .ok cs) (hu : cs.vrf.netif.unset = false)
    (hi : cs.vrf.netif.ifindex.isSome = true) : cs.vrf.table.isSome = true ∨ csess.vrf.IndexOnly := by
  obtain ⟨hn, he⟩ | ⟨-, hv⟩ := validateJrpc_vrf h
  · rw [he] at hu hi ⊢
    cases ht : csess.vrf.table with
    | none => exact .inr ⟨hu, hn, hi, ht⟩
    | some t => exact .inl rfl
  · exact .inl (checked_vrf hv hi)

theorem bfdd_complete (h : validateBfdd nl csess = .ok cs) (hi : cs.vrf.netif.ifindex.isSome = true) :
    cs.vrf.table.isSome = true := by
  obtain ⟨-, hn, -, he⟩ | hv := validateBfdd_vrf h
  · rw [he, hn] at hi
    cases hi
  · exact checked_vrf hv hi

theorem creates_tabled (h : Creates nl d dsess e) (hg : Derivable nl w e) : Tabled nl dsess := by
  have fresh : ∀ sport, Tabled nl (newSession d sport) := fun sport hne => absurd rfl hne
  cases e with
  | add csess draws =>
    obtain ⟨cs, hv, sport, changed, ha⟩ := h
    exact sessionApplyC_tabled ha (fresh sport) (fun hu hi => .inl ((jrpc_complete hv hu hi).resolve_right hg))
  | bfddAdd csess =>
    obtain ⟨cs, hv, sport, changed, ha⟩ := h
    exact sessionApplyC_tabled ha (fresh sport) (fun _ hi => .inl (bfdd_complete hv hi :))
  | set | del | bfddDel | timer | pollout | ringbuf | kernel => exact h.elim

theorem sets_tabled (h : Sets nl w d applied e) (hg : Derivable nl w e)
    (hold : ∀ dsess, w.sdir.find d = some dsess → Tabled nl dsess) : Tabled nl applied := by
  cases e with
  | set select change bulk =>
    obtain ⟨sel, ch, discrs, dsess, changed, hsel, hch, hp, hd, hf, ha⟩ := h
    refine sessionApplyC_tabled ha (hold dsess hf) (fun hu hi => ?_)
    exact (jrpc_complete hch hu hi).imp_right (fun ho => hg ho sel discrs hsel hp d hd dsess hf)
  | bfddAdd csess =>
    obtain ⟨cs, dsess, changed, -, hv, hf, ha⟩ := h
    exact sessionApplyC_tabled ha (hold dsess hf) (fun _ hi => .inl (bfdd_complete hv hi))
  | add | del | bfddDel | timer | pollout | ringbuf | kernel => exact h.elim

theorem step_tabled {env : Env} {w' : World} (hw : Sound w) (h : daemon.step w (env, e) w')
    (hg : Derivable env.nl w e) (hold : ∀ dsess, w.sdir.find d = some dsess → Tabled env.nl dsess)
    (hd : w'.sdir.find d = some dsess) :
    Tabled env.nl dsess := by
  obtain hd | ⟨-, hcr⟩ | ⟨h, c, c', hc, hcall, hh, rfl⟩ := step_dsess hw h hd
  · exact hold dsess hd
  · exact creates_tabled hcr hg
  · have hconf : Tabled env.nl (h.configured c.dsess) := by
      have hkept := hold c.dsess (session_eq_some.mp hc).1
      cases hcall with
      | set hs => exact sets_tabled hs hg hold
      | timer ht => exact hkept
      | ring _ hr => obtain ⟨-, rfl⟩ | ⟨_, _, _, rfl, -⟩ := ringCall_handler hr <;> exact hkept
    obtain ⟨hi, ht⟩ := retains_vrf hh.retains
    rw [Tabled, hi, ht]
    exact hconf

end

section

variable {nl : Nl} {w w' : World} {d : UInt32} {dsess applied : DSession} {change : CSession}

theorem sessionChange_retains {changed : Bool} {r : Except String Unit}
    (h : sessionChange d applied changed w = .ok (r, w')) :
    ∃ dsess, w'.sdir.find d = some dsess ∧ Retains applied dsess := by
  have h := wp_of_ok h
  simp only [sessionChange, wp_bind, wp_update, wp_read] at h
  split at h
  · obtain ⟨-, rfl⟩ := (wp_pure _ _ _).mp h
    exact ⟨applied, Dir.find_insert_self _ _ _, .refl _⟩
  · simp only [wp_attempt, wp_onSession] at h
    obtain ⟨r', c', hr, h⟩ := h
    refine ⟨c'.dsess, ?_, (sameButEnds_sessionUpdate hr).retains⟩
    cases r' with
    | error e =>
      rw [← h.2]
      simp [World.put]
    | ok _ =>
      simp only [wp_bind, wp_read, wp_whenever, wp_pure, outputWorld, wp_update] at h
      split at h <;> rw [← h.2] <;> simp [World.put, World.setBpf]

theorem sessionSetLoop_retains (hu : change.dst.unset = false) {discrs : List UInt32}
    (hn : discrs.Nodup) {set : Bool} (hw : Sound w)
    (h : sessionSetLoop nl change set discrs w = .ok (.ok (), w')) (hd : d ∈ discrs)
    (hf : w.sdir.find d = some dsess) : ∃ applied changed dsess',
      sessionApplyC nl dsess change = .ok (applied, changed) ∧ w'.sdir.find d = some dsess' ∧
        Retains applied dsess' := by
  induction discrs generalizing w set with
  | nil => cases hd
  | cons e ds ih =>
    obtain ⟨hnot, hns⟩ := List.nodup_cons.mp hn
    have h := read_ok.mp h
    cases he : w.sdir.find e with
    | none =>
      simp only [he] at h
      obtain rfl | hd := List.mem_cons.mp hd
      · rw [he] at hf
        cases hf
      · exact ih hns hw h hd hf
    | some es =>
      simp only [he] at h
      cases ha : sessionApplyC nl es change with
      | error err =>
        simp only [ha] at h
        cases (pure_ok.mp h).1
      | ok r =>
        obtain ⟨applied, changed⟩ := r
        simp only [ha] at h
        obtain ⟨r, w₁, h₁, h₂⟩ := bind_ok.mp h
        cases r with
        | error err => cases (pure_ok.mp h₂).1
        | ok _ =>
          obtain rfl := sessionApplyC_changed ha
          have hs := wp_ok (sessionChange_runs hw he (sessionApplyC_ok ha) hu) h₁
          obtain rfl | hd := List.mem_cons.mp hd
          · cases hf.symm.trans he
            obtain ⟨dsess', hf', hret⟩ := sessionChange_retains h₁
            refine ⟨applied, _, dsess', ha, ?_, hret⟩
            rw [(wp_ok (sessionSetLoop_runs nl hu hns true hs.1) h₂).untouched hs.1 (fun l hl hab => ?_)]
            · exact hf'
            · obtain ⟨e, he, _, _, _, _, _, rfl⟩ := hl
              exact hnot (Option.some.inj hab ▸ he)
          · refine ih hns hs.1 h₂ hd ?_
            rw [hs.untouched hw (fun l hl hab => ?_)]
            · exact hf
            · subst hl
              exact hnot (Option.some.inj hab ▸ hd)

end

/-- A request that unsets the VRF and gives no table. The decoders leave no
name then, and what comes from bfdd has no index either. -/
def Unsets : Event → Prop
  | .add csess _ => csess.val.vrf.netif.unset = true ∧ csess.val.vrf.netif.name = none ∧
      csess.val.vrf.table = none
  | .set _ change _ => change.val.vrf.netif.unset = true ∧ change.val.vrf.netif.name = none ∧
      change.val.vrf.table = none
  | .bfddAdd csess => csess.val.vrf = ⟨⟨true, none, none⟩, none⟩
  | _ => False

/-- An event that says nothing of the VRF of a session there is. -/
def VrfFree : Event → Prop
  | .set _ change _ => change.val.vrf = ⟨⟨false, none, none⟩, none⟩
  | .bfddAdd csess => csess.val.vrf = ⟨⟨false, none, none⟩, none⟩
  | _ => True

/-- The sessions a request is for. -/
def Concerns (nl : Nl) (w : World) (d : UInt32) : Event → Prop
  | .add csess draws => Adds w d (.add csess draws)
  | .set select _ bulk => ∃ sel discrs,
    validateJrpc nl select.val = .ok sel ∧ parseSelectSessions nl w.sdir sel bulk = .ok discrs ∧ d ∈ discrs
  | .bfddAdd csess => csess.val.discr = some d
  | _ => False

/-- A request is answered with success. -/
def Accepted (env : Env) (w w' : World) : Event → Prop
  | .add csess draws => handleSessionAdd env.nl csess.val draws (w.enter env) = .ok (some (.ok ()), w')
  | .set select change bulk => handleSessionSet env.nl select.val change.val bulk (w.enter env) =
      .ok (.ok (), w')
  | .bfddAdd csess => bfddHandleAddSession env.nl csess.val (w.enter env) = .ok (.ok (), w')
  | _ => False

section

variable {nl : Nl} {env : Env} {w w' : World} {e : Event} {d : UInt32}
    {dsess dsess' applied : DSession} {csess cs : CSession}
  {changed : Bool}

theorem Accepted.step (h : Accepted env w w' e) : daemon.step w (env, e) w' := by
  change handle env.nl e (w.enter env) = .ok (some (), w')
  cases e with
  | add | set | bfddAdd =>
    simp only [handle, map_eq_pure_bind]
    exact bind_ok.mpr ⟨_, _, h, rfl⟩
  | del | bfddDel | timer | pollout | ringbuf | kernel => exact h.elim

theorem sessionApplyC_unset (h : sessionApplyC nl dsess csess = .ok (applied, changed))
    (hu : csess.vrf.netif.unset = true) (ht : csess.vrf.table = none) :
    applied.vrfIfindex = 0 ∧ applied.vrfTable = 0 := by
  obtain ⟨src, dst, rfl⟩ := (sessionApplyC_ok h).fields
  simp [applyFields, applyIfindex, hu, ht]

theorem sessionApplyC_vrfFree (h : sessionApplyC nl dsess csess = .ok (applied, changed))
    (hv : csess.vrf = ⟨⟨false, none, none⟩, none⟩) :
    applied.vrfIfindex = dsess.vrfIfindex ∧ applied.vrfTable = dsess.vrfTable := by
  obtain ⟨src, dst, rfl⟩ := (sessionApplyC_ok h).fields
  simp [applyFields, applyIfindex, hv]

theorem jrpc_unnamed (h : validateJrpc nl csess = .ok cs) (hn : csess.vrf.netif.name = none) :
    cs.vrf = csess.vrf := by
  obtain ⟨-, he⟩ | ⟨hs, -⟩ := validateJrpc_vrf h
  · exact he
  · simp [hn] at hs

theorem bfdd_unnamed {unset : Bool} (h : validateBfdd nl csess = .ok cs)
    (hv : csess.vrf = ⟨⟨unset, none, none⟩, none⟩) :
    cs.vrf = csess.vrf := by
  obtain ⟨-, -, -, he⟩ | hs := validateBfdd_vrf h
  · exact he
  · rw [hv] at hs ⊢
    exact (Except.ok.inj hs).symm

theorem Adds.free (h : Adds w d e) : w.sdir.find d = none := by
  cases e with
  | add => exact h.2
  | bfddAdd => exact h.2
  | set | del | bfddDel | timer | pollout | ringbuf | kernel => exact h.elim

theorem step_new (hw : Sound w) (h : daemon.step w (env, e) w') (hn : w.sdir.find d = none)
    (hd : w'.sdir.find d = some dsess) : Creates env.nl d dsess e := by
  obtain hd | ⟨-, hcr⟩ | ⟨_, c, c', hc, -⟩ := step_dsess hw h hd
  · cases hn.symm.trans hd
  · exact hcr
  · cases hn.symm.trans (session_eq_some.mp hc).1

theorem creates_unset (h : Creates nl d dsess e) (hu : Unsets e) :
    dsess.vrfIfindex = 0 ∧ dsess.vrfTable = 0 := by
  cases e with
  | add csess draws =>
    obtain ⟨cs, hv, sport, changed, ha⟩ := h
    have he := jrpc_unnamed hv hu.2.1
    exact sessionApplyC_unset ha (he ▸ hu.1 : cs.vrf.netif.unset = true) (he ▸ hu.2.2 : cs.vrf.table = none)
  | bfddAdd csess =>
    obtain ⟨cs, hv, sport, changed, ha⟩ := h
    have he : cs.vrf = ⟨⟨true, none, none⟩, none⟩ := (bfdd_unnamed hv hu).trans hu
    exact sessionApplyC_unset ha (congrArg (·.netif.unset) he) (congrArg CVrf.table he)
  | set | del | bfddDel | timer | pollout | ringbuf | kernel => exact h.elim

theorem set_accepted (hw : Sound w) {select change : Decoded} {bulk : Bool}
    (h : Accepted env w w' (.set select change bulk))
    (hc : Concerns env.nl w d (.set select change bulk)) {old : DSession}
    (hf : w.sdir.find d = some old) :
    ∃ ch applied changed dsess', validateJrpc env.nl change.val = .ok ch ∧
      sessionApplyC env.nl old ch = .ok (applied, changed) ∧ w'.sdir.find d = some dsess' ∧
        Retains applied dsess' := by
  obtain ⟨sel, discrs, hsel, hp, hmem⟩ := hc
  unfold Accepted handleSessionSet at h
  cases hch : validateJrpc env.nl change.val with
  | error err =>
    simp only [hsel, hch] at h
    cases (pure_ok.mp h).1
  | ok ch =>
    simp only [hsel, hch] at h
    have h := read_ok.mp h
    have hp' : parseSelectSessions env.nl (w.enter env).sdir sel bulk = .ok discrs := hp
    simp only [hp'] at h
    obtain ⟨applied, changed, dsess', ha, hf', hret⟩ := sessionSetLoop_retains (validateJrpc_dst hch)
      (parseSelectSessions_nodup hw hp) (hw.enter env) h hmem hf
    exact ⟨ch, applied, changed, dsess', rfl, ha, hf', hret⟩

theorem bfddAdd_accepted {csess : Decoded} (h : Accepted env w w' (.bfddAdd csess))
    (hc : csess.val.discr = some d) {old : DSession} (hf : w.sdir.find d = some old) :
    ∃ cs applied changed dsess', validateBfdd env.nl csess.val = .ok cs ∧
      sessionApplyC env.nl old cs = .ok (applied, changed) ∧ w'.sdir.find d = some dsess' ∧
        Retains applied dsess' := by
  unfold Accepted bfddHandleAddSession at h
  cases hv : validateBfdd env.nl csess.val with
  | error err =>
    simp only [hc, hv] at h
    cases (pure_ok.mp h).1
  | ok cs =>
    simp only [hc, hv] at h
    have h := read_ok.mp h
    have hf' : (w.enter env).sdir.find d = some old := hf
    cases ha : sessionApplyC env.nl old cs with
    | error err =>
      simp only [hf', ha] at h
      cases (pure_ok.mp h).1
    | ok r =>
      simp only [hf', ha] at h
      obtain ⟨dsess', hd', hret⟩ := sessionChange_retains h
      exact ⟨cs, r.1, r.2, dsess', rfl, ha, hd', hret⟩

theorem accepted_unset (hw : Sound w) (h : Accepted env w w' e) (hu : Unsets e) (hc : Concerns env.nl w d e)
    (hd : w'.sdir.find d = some dsess) : dsess.vrfIfindex = 0 ∧ dsess.vrfTable = 0 := by
  have hstep := h.step
  cases hf : w.sdir.find d with
  | none => exact creates_unset (step_new hw hstep hf hd) hu
  | some old =>
    cases e with
    | add csess draws => cases hf.symm.trans hc.2
    | set select change bulk =>
      obtain ⟨ch, applied, changed, dsess', hch, ha, hf', hret⟩ := set_accepted hw h hc hf
      cases hf'.symm.trans hd
      have he := jrpc_unnamed hch hu.2.1
      obtain ⟨hi, ht⟩ := retains_vrf hret
      rw [hi, ht]
      exact sessionApplyC_unset ha (he ▸ hu.1) (he ▸ hu.2.2)
    | bfddAdd csess =>
      obtain ⟨cs, applied, changed, dsess', hv, ha, hf', hret⟩ := bfddAdd_accepted h hc hf
      cases hf'.symm.trans hd
      have he : cs.vrf = ⟨⟨true, none, none⟩, none⟩ := (bfdd_unnamed hv hu).trans hu
      obtain ⟨hi, ht⟩ := retains_vrf hret
      rw [hi, ht]
      exact sessionApplyC_unset ha (congrArg (·.netif.unset) he) (congrArg CVrf.table he)
    | del | bfddDel | timer | pollout | ringbuf | kernel => exact h.elim

theorem sets_vrfFree (h : Sets nl w d applied e) (hv : VrfFree e) (hd : w.sdir.find d = some dsess) :
    applied.vrfIfindex = dsess.vrfIfindex ∧ applied.vrfTable = dsess.vrfTable := by
  cases e with
  | set select change bulk =>
    obtain ⟨sel, ch, discrs, old, changed, -, hch, -, -, hf, ha⟩ := h
    cases hf.symm.trans hd
    exact sessionApplyC_vrfFree ha ((jrpc_unnamed hch (by rw [show change.val.vrf = _ from hv])).trans hv)
  | bfddAdd csess =>
    obtain ⟨cs, old, changed, -, hcs, hf, ha⟩ := h
    cases hf.symm.trans hd
    exact sessionApplyC_vrfFree ha ((bfdd_unnamed hcs hv).trans hv)
  | add | del | bfddDel | timer | pollout | ringbuf | kernel => exact h.elim

theorem step_vrfFree (hw : Sound w) (h : daemon.step w (env, e) w') (hv : VrfFree e)
    (hd : w.sdir.find d = some dsess) (hd' : w'.sdir.find d = some dsess') :
    dsess'.vrfIfindex = dsess.vrfIfindex ∧ dsess'.vrfTable = dsess.vrfTable := by
  obtain hs | ⟨ha, -⟩ | ⟨h, c, c', hc, hcall, hh, rfl⟩ := step_dsess hw h hd'
  · cases hs.symm.trans hd
    exact ⟨rfl, rfl⟩
  · cases ha.free.symm.trans hd
  · have he : c.dsess = dsess := Option.some.inj ((session_eq_some.mp hc).1.symm.trans hd)
    obtain ⟨hi, ht⟩ := retains_vrf hh.retains
    rw [hi, ht]
    cases hcall with
    | set hs => exact sets_vrfFree hs hv hd
    | timer => rw [← he]; exact ⟨rfl, rfl⟩
    | ring _ hr => obtain ⟨-, rfl⟩ | ⟨_, _, _, rfl, -⟩ := ringCall_handler hr <;> rw [← he] <;> exact ⟨rfl, rfl⟩

end

/-- The interfaces of the system stay as they are, and every request allows the
table of a VRF to be derived. -/
def Derived (nl : Nl) (w : World) (l : Env × Event) : Prop := l.1.nl = nl ∧ Derivable nl w l.2

/-- A session in a VRF uses the table of that VRF, as long as no request gives
a VRF by its index alone. A session whose VRF is unset has no table, and no
other event gives it one. -/
theorem vrf_of_derived (nl : Nl) :
    (∀ w, Run daemon (Derived nl) w → ∀ d dsess, w.sdir.find d = some dsess → dsess.vrfIfindex ≠ 0 →
      nlGetVrfTable nl dsess.vrfIfindex = .ok dsess.vrfTable) ∧
    ∀ w, Reachable daemon w → ∀ env e w', env.nl = nl →
      (Accepted env w w' e → Unsets e → ∀ d dsess, Concerns nl w d e → w'.sdir.find d = some dsess →
        dsess.vrfIfindex = 0 ∧ dsess.vrfTable = 0) ∧
      (daemon.step w (env, e) w' → VrfFree e → ∀ d dsess dsess', w.sdir.find d = some dsess →
        w'.sdir.find d = some dsess' → dsess'.vrfIfindex = dsess.vrfIfindex ∧
          dsess'.vrfTable = dsess.vrfTable) := by
  refine ⟨fun w h => ?_, fun w hr env e w' hnl =>
    ⟨fun h hu d dsess hc hd => ?_, fun h hv d dsess dsess' hd hd' => ?_⟩⟩
  · refine Run.invariant (I := fun w => ∀ d dsess, w.sdir.find d = some dsess → Tabled nl dsess) ?_
      (fun w l w' hr hold hg hs d dsess hd => ?_) h
    · rintro w ⟨rx, tx, cap, answers, -, rfl⟩ d dsess hd
      cases hd
    · obtain ⟨env, e⟩ := l
      obtain ⟨rfl, hg⟩ := hg
      exact step_tabled (reachable_sound hr) hs hg (hold d) hd
  · subst hnl
    exact accepted_unset (reachable_sound hr) h hu hc hd
  · exact step_vrfFree (reachable_sound hr) h hv hd hd'

def Nl.red : Nl where
  ifIndextoname i := if i = 4 then some "red" else none
  ifNametoindex name := if name = "red" then some 4 else none
  ifinfoTable i := if i = 4 then .ok 1000 else .ok 0
  inetPton _ _ := some ⟨1, 0, 0, 0⟩

def Event.addVrf (vrf : CVrf) : Event :=
  .add ⟨{ CSession.blank with dst := ⟨false, afInet, "10.0.0.1"⟩, discr := some 5, vrf := vrf },
    ⟨rfl, rfl, rfl, rfl⟩⟩ []

def inRed (events : List Event) : List (Env × Event) := events.map (⟨.red, fun _ => obliging⟩, ·)

theorem vrf_of_derived_named : ∃ (w : World) (c : Ctx), w.session 5 = some c ∧ c.dsess.vrfIfindex = 4 ∧
    nlGetVrfTable .red 4 = .ok c.dsess.vrfTable := by
  have hg : ∀ (w : World) (l : Env × Event), l ∈ inRed [.addVrf ⟨⟨false, some "red", none⟩, none⟩] →
    true = true →
      Derived .red w l := by
    intro w l hl _
    rw [List.mem_singleton.mp hl]
    exact ⟨rfl, fun h => by cases h.2.1⟩
  obtain ⟨w, c, hr, hc, hi⟩ := exists_run _ hg (P := fun w c => c.dsess.vrfIfindex = 4) (by decide +kernel)
  have h := (vrf_of_derived .red).1 w hr 5 c.dsess (session_eq_some.mp hc).1 (by rw [hi]; decide)
  exact ⟨w, c, hc, hi, hi ▸ h⟩

theorem vrf_underived : ∃ (w : World) (c : Ctx), Run daemon (fun _ l => l.1.nl = .red) w ∧ w.session 5 = some c ∧
    c.dsess.vrfIfindex = 4 ∧ nlGetVrfTable .red 4 = .ok 1000 ∧ c.dsess.vrfTable = 0 := by
  have hg : ∀ (_ : World) (l : Env × Event), l ∈ inRed [.addVrf ⟨⟨false, none, some 4⟩, none⟩] → true = true →
      l.1.nl = .red := by
    intro _ l hl _
    rw [List.mem_singleton.mp hl]
  obtain ⟨w, c, hr, hc, hi, ht⟩ := exists_run _ hg
    (P := fun w c => c.dsess.vrfIfindex = 4 ∧ c.dsess.vrfTable = 0)
    (by decide +kernel)
  exact ⟨w, c, hr, hc, hi, rfl, ht⟩

end Bbdd.Daemon
