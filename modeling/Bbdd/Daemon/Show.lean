import Bbdd.Client.State
import Bbdd.Daemon.Vrf
import Bbdd.Poll.Ends

namespace Bbdd.Daemon

open Lib.Program Lib.Transition Lib.Json Packet Session Datapath Poll Client

def sessionToCAddr (ntop : Ntop) (addr : Sockaddr) : CAddr :=
  if addr.family ≠ 0 then ⟨false, addr.family, ntop addr.family addr.addr⟩ else ⟨true, 0, ""⟩

def sessionToC (nl : Nl) (ntop : Ntop) (dsess : DSession) : CSession where
  flags :=
    ⟨some dsess.localData.flags.multihop, some dsess.localData.flags.cpi, some dsess.localData.flags.passive,
      some dsess.localData.flags.shutdown⟩
  discr := some dsess.localData.discr
  remoteDiscr := non0 dsess.userRemoteDiscr
  minTxUs := some dsess.localData.timing.minTxUs
  minRxUs := some dsess.localData.timing.minRxUs
  holdTimeUs := non0 dsess.holdTimeUs
  ttl := some dsess.ttl
  detectMult := some dsess.localData.timing.detectMult
  src := sessionToCAddr ntop dsess.src
  dst := sessionToCAddr ntop dsess.dst
  netif :=
    if dsess.ifindex ≠ 0 then ⟨false, some ((nl.ifIndextoname dsess.ifindex).getD ""), some dsess.ifindex⟩
    else ⟨true, none, none⟩
  vrf := sessionToCVrf nl dsess
  name := if dsess.name ≠ "" then ⟨false, some dsess.name⟩ else ⟨true, none⟩

def sessionJson (nl : Nl) (ntop : Ntop) (w : World) (dsess : DSession) : Except String Value :=
  let discr := dsess.localData.discr
  match w.bsdir.find discr with
  | none => .error s!"No BPF session found for discr {discr}"
  | some bsess => .ok (sessionElem (jrpcSessionObj (sessionToC nl ntop dsess)) (jrpcSessionStateObj dsess bsess))

structure Written (nl : Nl) (ntop : Ntop) : Prop where
  name : ∀ i name, nl.ifIndextoname i = some name → name.utf8ByteSize < ifNameSize
  addr : ∀ af a, (ntop af a).utf8ByteSize < inet6AddrstrLen

def Named (dsess : DSession) : Prop := dsess.localData.state.diag.val < 9

structure Speakable (dsess : DSession) : Prop where
  name : dsess.name.utf8ByteSize < ifNameSize
  diag : Named dsess

section

variable {nl : Nl} {ntop : Ntop} {dsess : DSession}

theorem plainName_index (hw : Written nl ntop) (i : UInt32) :
    PlainName false (some ((nl.ifIndextoname i).getD "")) := by
  refine ⟨nofun, fun str h => ?_⟩
  cases h
  cases hn : nl.ifIndextoname i with
  | none => decide
  | some name => exact hw.name i name hn

theorem plainAddr_toC (hw : Written nl ntop) {addr : Sockaddr}
    (h : addr.family = 0 ∨ addr.family = afInet ∨ addr.family = afInet6) :
    PlainAddr (sessionToCAddr ntop addr) := by
  unfold sessionToCAddr
  split_ifs with h0
  · exact ⟨nofun, fun h => absurd h h0, decide_eq_true h, hw.addr _ _⟩
  · exact ⟨fun _ => rfl, fun _ => rfl, rfl, by decide⟩

theorem sessionToC_plain (hw : Written nl ntop) (hs : Speakable dsess) (hd : dsess.localData.discr ≠ 0)
    (ha : Addressed dsess) : Plain (sessionToC nl ntop dsess) := by
  have hnone : PlainName true none := ⟨fun _ => rfl, fun _ h => absurd h.symm (Option.some_ne_none _)⟩
  have hdst : dsess.dst.family ≠ 0 := by
    rcases ha.1 with h | h <;> rw [h] <;> decide
  refine ⟨fun h => hd (Option.some.inj h), ?_, ?_, ?_, ?_, ?_, plainAddr_toC hw ?_, plainAddr_toC hw
    (.inr ha.1), ?_⟩
  · simp only [sessionToC]
    split_ifs with h0
    · exact fun h => h0 (Option.some.inj h)
    · exact (Option.some_ne_none 0).symm
  · simp only [sessionToC, sessionToCVrf]
    split_ifs with h0
    · exact fun h => h0 (Option.some.inj h)
    · exact (Option.some_ne_none 0).symm
  · simp only [sessionToC]
    split_ifs with h0
    · exact ⟨fun h => absurd h Bool.false_ne_true, fun str h => Option.some.inj h ▸ hs.name⟩
    · exact hnone
  · simp only [sessionToC]
    split_ifs with h0
    · exact plainName_index hw _
    · exact hnone
  · simp only [sessionToC, sessionToCVrf]
    split_ifs with h0
    · exact plainName_index hw _
    · exact hnone
  · obtain h | h := ha.2
    · exact .inl h
    · exact .inr (h ▸ ha.1)
  · simp [sessionToC, sessionToCAddr, hdst]

end

section

variable {d : UInt32} {dsess dsess' : DSession} {c c' : Ctx}

theorem fsmNext_named {loc : StateEnd} (h : loc.diag.val < 9) (remote : PktState) :
    (fsmNext loc remote).diag.val < 9 := by
  unfold fsmNext
  split <;> first | exact h | decide

theorem turned_named {was wants : Bool} (ht : Turned was wants dsess dsess') (h : Named dsess) :
    Named dsess' := by
  cases ht with
  | same => exact h
  | enabled => exact (by decide : (3 : Nat) < 9)
  | disabled => exact (by decide : (7 : Nat) < 9)

theorem gotNonFinal_named (hr : gotNonFinal c = .ok ((), c')) (h : Named c.dsess) : Named c'.dsess := by
  obtain he | ⟨-, ht⟩ := gotNonFinal_ends hr
  · rw [he]
    exact h
  · exact turned_named ht h

theorem shwaitTimerCb_named (hr : shwaitTimerCb c = .ok ((), c')) (h : Named c.dsess) : Named c'.dsess := by
  obtain ⟨_, c₁, h₁, hr⟩ := bind_ok.mp hr
  refine gotNonFinal_named hr ?_
  rw [(timed_shwaitStop _ _ _ h₁).dsess]
  exact h

theorem acceptPacket_named {p : Parsed} (hr : acceptPacket p c = .ok ((), c')) (h : Named c.dsess) :
    Named c'.dsess := by
  obtain ⟨c₁, c₂, c₃, hst⟩ := acceptPacket_ok hr
  have h₃ : Named c₃.dsess := by
    rw [hst.frame.dsess]
    exact fsmNext_named h _
  obtain ⟨-, -, hr⟩ | ⟨-, -, hr⟩ | ⟨-, -, -, rfl⟩ := concludePacket_ok hst.concluded
  · obtain ⟨_, _, hw, hr⟩ := bind_ok.mp hr
    cases hw
    rw [(within_sessionCallUpdate _ _ _ hr).dsess]
    exact h₃
  · exact gotNonFinal_named hr h₃
  · exact h₃

theorem timeoutDown_named (hr : timeoutDown c = .ok ((), c')) (h : Named c.dsess) : Named c'.dsess := by
  have hr := timeoutDown_ok hr
  split at hr
  · rw [(within_sessionStateChanged _ _ _ hr).dsess]
    exact (by decide : (1 : Nat) < 9)
  · rw [hr]
    exact h

theorem handleTimeout_named (hr : handleTimeout c = .ok ((), c')) (h : Named c.dsess) : Named c'.dsess := by
  obtain ⟨c₁, hdown, h₁⟩ := handleTimeout_ok hr
  refine timeoutDown_named hdown ?_
  cases hs : c.bsess.bstate <;> simp only [hs] at h₁
  · rw [h₁]
    exact h
  · exact gotNonFinal_named h₁ h
  · exact gotNonFinal_named h₁ h
  · exact shwaitTimerCb_named h₁ h

theorem sessionUpdate_named {r : Except String Unit} (hr : sessionUpdate c = .ok (r, c'))
    (h : Named c.dsess) :
    Named c'.dsess := by
  obtain ⟨-, -, rfl⟩ | ⟨hb, r₁, c₁, h₁, hr⟩ := sessionUpdate_ok hr
  · exact h
  · obtain ⟨bdata, hbd⟩ : ∃ bdata, injectBdata c.bsess = some bdata := by
      unfold injectBdata
      cases hs : c.bsess.bstate <;> first | exact absurd hs hb | exact ⟨_, rfl⟩
    have hn := turned_named (handleSessionUpdate_ends h₁ hbd).1 h
    cases r₁ with
    | error e => exact hr.2 ▸ hn
    | ok _ => exact (within_sessionUpdateInner _ _ _ hr).dsess ▸ hn

theorem applied_named {csess : CSession} {applied : DSession} (ha : Applied dsess csess applied)
    (h : Named dsess) :
    Named applied := by
  rw [Named, ha.loc]
  exact h

theorem Handled.named {h : Handler} (hh : Handled h c c') (hn : Named c.dsess) : Named c'.dsess := by
  cases hh with
  | @set _ c₁ r applied csess ha hu hr =>
    have hd : Named c₁.dsess := sessionUpdate_named hr (applied_named ha hn)
    obtain he | he := announced_eq r (decide (applied ≠ c.dsess)) c₁ <;> rw [he] <;> exact hd
  | timeout hr => exact handleTimeout_named hr hn
  | @hold _ c₂ id hm hr =>
    obtain ⟨c₁, h₁, hr⟩ := holdTimerCb_ok hr
    have hd : c₂.dsess = (released c).dsess :=
      (timed_holdStop _ _ _ hr).dsess.trans (within_sessionStateChanged _ _ _ h₁).dsess
    change Named c₂.dsess
    rw [hd]
    exact hn
  | @shwait _ c₂ id hm hr => exact (shwaitTimerCb_named hr hn : Named c₂.dsess)
  | drain kind hl hr =>
    rw [(within_drainSlot _ _ _ _ hr).dsess]
    exact hn
  | packet packet wireLen ttl hr =>
    obtain ⟨-, stats, diagStats, rfl⟩ | ⟨p, -, -, hr⟩ := handlePacket_ok hr
    · exact hn
    · exact acceptPacket_named hr hn

theorem Applied.fits {csess : CSession} {applied : DSession} (ha : Applied dsess csess applied)
    (hc : csess.name.fits = true) (h : dsess.name.utf8ByteSize < ifNameSize) :
    applied.name.utf8ByteSize < ifNameSize := by
  obtain ⟨src, dst, rfl⟩ := ha.fields
  simp only [applyFields, applyName]
  split
  · decide
  · cases hv : csess.name.val with
    | none => exact h
    | some name => simpa [CStr.fits, hv] using hc

theorem validated_fits {nl : Nl} {csess : Decoded} {cs : CSession}
    (h : validateJrpc nl csess.val = .ok cs ∨ validateBfdd nl csess.val = .ok cs) :
    cs.name.fits = true := by
  obtain h | h := h
  · obtain ⟨netif, vrf, rfl⟩ := validateJrpc_eq h
    exact csess.property.2.2.2
  · obtain ⟨netif, vrf, rfl⟩ := validateBfdd_eq h
    exact csess.property.2.2.2

theorem makes_speakable {nl : Nl} {cs : CSession} (h : Makes nl cs d dsess) (hc : cs.name.fits = true) :
    Speakable dsess := by
  obtain ⟨sport, changed, h⟩ := h
  have ha := sessionApplyC_ok h
  exact ⟨ha.fits hc (by decide : "".utf8ByteSize < ifNameSize), applied_named ha (by decide : (3 : Nat) < 9)⟩

theorem creates_speakable {nl : Nl} {e : Event} (h : Creates nl d dsess e) : Speakable dsess := by
  cases e with
  | add csess draws =>
    obtain ⟨cs, hv, hm⟩ := h
    exact makes_speakable hm (validated_fits (.inl hv))
  | bfddAdd csess =>
    obtain ⟨cs, hv, hm⟩ := h
    exact makes_speakable hm (validated_fits (.inr hv))
  | set | del | bfddDel | timer | pollout | ringbuf | kernel => exact h.elim

theorem sets_fits {nl : Nl} {w : World} {e : Event} {applied : DSession}
    (h : Sets nl w d applied e) (hold : ∀ dsess, w.sdir.find d = some dsess → Speakable dsess) :
    applied.name.utf8ByteSize < ifNameSize := by
  cases e with
  | set select change bulk =>
    obtain ⟨sel, ch, discrs, dsess, changed, -, hch, -, -, hf, ha⟩ := h
    exact (sessionApplyC_ok ha).fits (validated_fits (.inl hch)) (hold dsess hf).name
  | bfddAdd csess =>
    obtain ⟨cs, dsess, changed, -, hv, hf, ha⟩ := h
    exact (sessionApplyC_ok ha).fits (validated_fits (.inr hv)) (hold dsess hf).name
  | add | del | bfddDel | timer | pollout | ringbuf | kernel => exact h.elim

theorem step_speakable {env : Env} {e : Event} {w w' : World} (hw : Sound w)
    (h : daemon.step w (env, e) w') (hold : ∀ dsess, w.sdir.find d = some dsess → Speakable dsess)
    (hd : w'.sdir.find d = some dsess) : Speakable dsess := by
  obtain hd | ⟨-, hcr⟩ | ⟨h, c, c', hc, hcall, hh, rfl⟩ := step_dsess hw h hd
  · exact hold dsess hd
  · exact creates_speakable hcr
  · have hkept := hold c.dsess (session_eq_some.mp hc).1
    have hname : (h.configured c.dsess).name.utf8ByteSize < ifNameSize := by
      cases hcall with
      | set hs => exact sets_fits hs hold
      | timer => exact hkept.name
      | ring _ hr => obtain ⟨-, rfl⟩ | ⟨_, _, _, rfl, -⟩ := ringCall_handler hr <;> exact hkept.name
    refine ⟨?_, hh.named hkept.diag⟩
    obtain ⟨_, _, _, hr⟩ := hh.retains
    rw [hr]
    exact hname

theorem reachable_speakable {w : World} (h : Reachable daemon w) (hd : w.sdir.find d = some dsess) :
    Speakable dsess := by
  have hall : ∀ d dsess, w.sdir.find d = some dsess → Speakable dsess := by
    refine Run.invariant (I := fun w => ∀ d dsess, w.sdir.find d = some dsess → Speakable dsess) ?_
      (fun w l w' hr hold _ hs d dsess hd => step_speakable (reachable_sound hr) hs (hold d) hd) h
    rintro w ⟨rx, tx, cap, answers, -, rfl⟩ d dsess hd
    cases hd
  exact hall d dsess hd

end

/-- The client decodes what the daemon says of a session exactly if the peer's
diagnostic has a name, and nothing of what the bridge says of a change. -/
theorem client_understands_iff {nl : Nl} {ntop : Ntop} (hw : Written nl ntop) :
    (∀ w, Reachable daemon w → ∀ d dsess, w.sdir.find d = some dsess →
      ∃ bsess json, w.bsdir.find d = some bsess ∧ sessionJson nl ntop w dsess = .ok json ∧
        (dissectSessionElem json = .ok (sessionToC nl ntop dsess, stateShown dsess bsess) ↔
          dsess.remoteData.state.diag.val < 9)) ∧
    ∀ sc : BfddpStateChange, sc.state < 4 →
      ∃ error, monitorHandleSessionChange (bfddFormatStateChange sc) = .ok (some (.error error)) := by
  refine ⟨fun w hr d dsess hd => ?_, fun sc _ => monitorHandleSessionChange_stateChange sc⟩
  have hsound := reachable_sound hr
  obtain ⟨bsess, hb, hs⟩ := hsound.find hd
  have hok := hsound.session d _ hs
  have hname : dsess.localData.discr = d := hsound.discr_of_find hd
  have hspeak := reachable_speakable hr hd
  have hplain := sessionToC_plain hw hspeak (hname ▸ hok.named) hok.addressed
  refine ⟨bsess, sessionElem (jrpcSessionObj (sessionToC nl ntop dsess))
    (jrpcSessionStateObj dsess bsess), hb, ?_, ?_⟩
  · simp only [sessionJson, hname, hb]
  · have he := jrpcDissectSessionOne_obj hplain
    rw [jrpcSessionObj] at he ⊢
    rw [jrpcSessionStateObj, dissectSessionElem_elem, he]
    change (dissectSessionState (jrpcSessionStateObj dsess bsess)).map _ = _ ↔ _
    rw [dissectSessionState_obj hspeak.diag]
    by_cases hdiag : dsess.remoteData.state.diag.val < 9 <;> simp [hdiag, Except.map]

def shortNtop : Ntop := fun af _ => if af = afInet then "192.0.2.1" else "2001:db8::1"

theorem plain_written : Written .plain shortNtop where
  name i name h := by cases h
  addr af a := by
    unfold shortNtop
    split <;> decide

theorem client_understands_up : ∃ (w : World) (dsess : DSession) (bsess : BSession) (json : Value),
    w.sdir.find 5 = some dsess ∧ dsess.localData.state.state = .up ∧ w.bsdir.find 5 = some bsess ∧
    sessionJson .plain shortNtop w dsess = .ok json ∧
    dissectSessionElem json = .ok (sessionToC .plain shortNtop dsess, stateShown dsess bsess) := by
  obtain ⟨w, c, hr, hc, hup, hdiag⟩ := exists_replayed (inPlain bringUp)
    (P := fun w c => c.dsess.localData.state.state = .up ∧ c.dsess.remoteData.state.diag.val < 9)
    (by decide +kernel)
  have hd := (session_eq_some.mp hc).1
  obtain ⟨bsess, json, hb, hj, hiff⟩ := (client_understands_iff plain_written).1 w hr 5 c.dsess hd
  exact ⟨w, c.dsess, bsess, json, hd, hup, hb, hj, hiff.mpr hdiag⟩

/-- A peer says diagnostic 31 and the client cannot read the session any more;
nor can it read a change that the bridge reports. -/
theorem client_confused : (∃ (w : World) (c : Ctx), Reachable daemon w ∧ w.session 5 = some c ∧
    c.dsess.remoteData.state.diag = 31 ∧
    (sessionJson .plain shortNtop w c.dsess >>= dissectSessionElem) = .error "Invalid session diag `unknown'") ∧
    monitorHandleSessionChange
      (bfddFormatStateChange ⟨hton32 5, hton32 7, hton32 1000000, hton32 1000000, 3, 0, 3⟩) =
      .ok (some (.error "Required member cpi not present")) := by
  refine ⟨exists_replayed (inPlain
    ([.addFive none none, .timer 0 none] ++ arrival (makePacket 7 defaultTiming ⟨.down, 31⟩ 5 0)))
    (P := fun w c => c.dsess.remoteData.state.diag = 31 ∧
      (sessionJson .plain shortNtop w c.dsess >>= dissectSessionElem) = .error "Invalid session diag `unknown'")
    (by decide +kernel), ?_⟩
  decide +kernel

end Bbdd.Daemon
