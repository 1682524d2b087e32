import Bbdd.Daemon.Decoders
import Bbdd.Daemon.Demux

namespace Bbdd.Daemon

open Lib.Program Lib.Json Session Prog Client Bfddp

abbrev InPlace := Prog DSession Failure

/-- `__bbdd_d_session_apply_c`: one assignment after the other. Flags come before
the ports that follow them, and the VRF is unset before the table is given. -/
def sessionAssignC (csess : CSession) (src dst : Option Sockaddr) : InPlace Unit := do
  update fun s => { s with localData := { s.localData with flags := applyFlags s.localData.flags csess.flags } }
  update fun s => { s with name := applyName s.name csess.name }
  let sport := (← read).src.port
  update fun s => { s with src := src.getD s.src }
  update fun s => { s with dst := dst.getD s.dst }
  update fun s => { s with src := { s.src with port := sport } }
  update fun s =>
    { s with dst := { s.dst with port := if s.localData.flags.multihop then bfdMultiHopPort
      else bfdSingleHopPort } }
  update fun s => { s with ifindex := applyIfindex s.ifindex csess.netif }
  update fun s =>
    { s with
      vrfIfindex := applyIfindex s.vrfIfindex csess.vrf.netif
      vrfTable := if csess.vrf.netif.unset then 0 else s.vrfTable }
  update fun s => { s with localData := { s.localData with discr := csess.discr.getD s.localData.discr } }
  update fun s => { s with localData := { s.localData with timing := applyTiming s.localData.timing csess } }
  update fun s => { s with holdTimeUs := csess.holdTimeUs.getD s.holdTimeUs }
  update fun s => { s with ttl := csess.ttl.getD s.ttl }
  update fun s => { s with vrfTable := csess.vrf.table.getD s.vrfTable }
  update fun s =>
    { s with
      remoteData := { s.remoteData with discr := csess.remoteDiscr.getD s.remoteData.discr }
      userRemoteDiscr := csess.remoteDiscr.getD s.userRemoteDiscr }

/-- `bbdd_d_session_apply_c`: check the session as it would be, then assign. It
gives whether anything changed. -/
def sessionApplyInPlace (nl : Nl) (csess : CSession) : InPlace (Except String Bool) := do
  let orig ← read
  let dstAf := newDstAf orig csess
  let srcAf := newSrcAf orig csess
  if csess.discr.isSome ∧ orig.localData.discr ≠ 0 ∧ csess.discr ≠ some orig.localData.discr then
    pure (.error "Session discriminator change is not allowed")
  else if csess.dst.unset then crash .assert
  else if dstAf = 0 then pure (.error "No destination address")
  else if srcAf ≠ 0 ∧ srcAf ≠ dstAf then
    pure (.error s!"{afToStr dstAf} destination but {afToStr srcAf} source address")
  else
    attempt (pure (applyAddr nl csess.src)) fun src =>
    attempt (pure (applyAddr nl csess.dst)) fun dst =>
    attempt (pure (sessionValidateVrf nl (changedVrf nl orig csess.vrf))) fun _ =>
      match mandatoryZero orig csess with
      | some field => pure (.error s!"{field} needs to be non-0")
      | none => do
        sessionAssignC csess src dst
        let s ← read
        pure (.ok (decide (s ≠ orig)))

/-- A change that one of the decoders made. -/
inductive FromDecoder (csess : CSession) : Prop
  | jrpc (obj : Value) (h : jrpcDissectSessionOne obj = .ok csess)
  | jrpcValidated (nl : Nl) (obj : Value) (decoded : CSession) (h : jrpcDissectSessionOne obj = .ok decoded)
      (hv : validateJrpc nl decoded = .ok csess)
  | bfddp (ntop : Ntop) (msg : Lib.Wire.Bytes) (h : bfddSessionMsgToC ntop msg = .ok csess)
  | bfddpValidated (nl : Nl) (ntop : Ntop) (msg : Lib.Wire.Bytes) (decoded : CSession)
      (h : bfddSessionMsgToC ntop msg = .ok decoded) (hv : validateBfdd nl decoded = .ok csess)

def Sendable (s : DSession) : Prop := s.dst.family = 0 ∨ IpFamily s.dst.family

/-- What every session that was changed satisfies. -/
structure Configured (s : DSession) : Prop where
  discr : s.localData.discr ≠ 0
  minTx : s.localData.timing.minTxUs ≠ 0
  minRx : s.localData.timing.minRxUs ≠ 0
  detectMult : s.localData.timing.detectMult ≠ 0
  src : s.src.family = 0 ∨ s.src.family = s.dst.family
  dport : s.dst.port = if s.localData.flags.multihop then bfdMultiHopPort else bfdSingleHopPort

/-- What a change does not mention is as before. -/
structure Unmentioned (csess : CSession) (s s' : DSession) : Prop where
  multihop : csess.flags.multihop = none → s'.localData.flags.multihop = s.localData.flags.multihop
  cpi : csess.flags.cpi = none → s'.localData.flags.cpi = s.localData.flags.cpi
  passive : csess.flags.passive = none → s'.localData.flags.passive = s.localData.flags.passive
  shutdown : csess.flags.shutdown = none → s'.localData.flags.shutdown = s.localData.flags.shutdown
  name : csess.name.unset = false → csess.name.val = none → s'.name = s.name
  src : csess.src.unset = false → csess.src.af = 0 → s'.src = s.src
  dst : csess.dst.af = 0 → s'.dst.family = s.dst.family ∧ s'.dst.addr = s.dst.addr
  ifindex : csess.netif.unset = false → csess.netif.ifindex = none → s'.ifindex = s.ifindex
  vrfIfindex : csess.vrf.netif.unset = false → csess.vrf.netif.ifindex = none → s'.vrfIfindex = s.vrfIfindex
  vrfTable : csess.vrf.netif.unset = false → csess.vrf.table = none → s'.vrfTable = s.vrfTable
  discr : csess.discr = none → s'.localData.discr = s.localData.discr
  detectMult : csess.detectMult = none → s'.localData.timing.detectMult = s.localData.timing.detectMult
  minTx : csess.minTxUs = none → s'.localData.timing.minTxUs = s.localData.timing.minTxUs
  minRx : csess.minRxUs = none → s'.localData.timing.minRxUs = s.localData.timing.minRxUs
  holdTime : csess.holdTimeUs = none → s'.holdTimeUs = s.holdTimeUs
  ttl : csess.ttl = none → s'.ttl = s.ttl
  remoteDiscr : csess.remoteDiscr = none →
    s'.userRemoteDiscr = s.userRemoteDiscr ∧ s'.remoteData.discr = s.remoteData.discr
  state : s'.localData.state = s.localData.state
  remote : ∃ discr, s'.remoteData = { s.remoteData with discr := discr }

section

variable {nl : Nl} {csess : CSession} {s s' : DSession} {changed : Bool}

theorem sessionAssignC_eq (src dst : Option Sockaddr) (s : DSession) :
    sessionAssignC csess src dst s = .ok ((), applyFields s csess src dst) := rfl

theorem attempt_pure_ok {α β : Type} (a : α) (f : α → InPlace (Except String β)) :
    attempt (pure (.ok a : Except String α)) f = f a := rfl

theorem sessionApplyInPlace_eq (hu : csess.dst.unset = false) (s : DSession) :
    sessionApplyInPlace nl csess s =
    match sessionApplyC nl s csess with
    | .error e => .ok (.error e, s)
    | .ok (s', changed) => .ok (.ok changed, s') := by
  change (if _ then _ else _ : InPlace (Except String Bool)) s = _
  simp only [sessionApplyC, hu, Bool.false_eq_true, if_false]
  by_cases h₁ : csess.discr.isSome ∧ s.localData.discr ≠ 0 ∧ csess.discr ≠ some s.localData.discr
  · rw [if_pos h₁, if_pos h₁]
    rfl
  by_cases h₂ : newDstAf s csess = 0
  · rw [if_neg h₁, if_neg h₁, if_pos h₂, if_pos h₂]
    rfl
  by_cases h₃ : newSrcAf s csess ≠ 0 ∧ newSrcAf s csess ≠ newDstAf s csess
  · rw [if_neg h₁, if_neg h₁, if_neg h₂, if_neg h₂, if_pos h₃, if_pos h₃]
    rfl
  rw [if_neg h₁, if_neg h₁, if_neg h₂, if_neg h₂, if_neg h₃, if_neg h₃]
  cases applyAddr nl csess.src with
  | error e => rfl
  | ok src =>
    cases applyAddr nl csess.dst with
    | error e => rfl
    | ok dst =>
      simp only [attempt_pure_ok]
      cases sessionValidateVrf nl (changedVrf nl s csess.vrf) with
      | error e => rfl
      | ok vrf =>
        simp only [attempt_pure_ok]
        cases mandatoryZero s csess with
        | some field => rfl
        | none =>
          apply bind_ok.mpr
          exact ⟨(), _, sessionAssignC_eq src dst s, rfl⟩

theorem FromDecoder.dst (h : FromDecoder csess) : csess.dst.unset = false := by
  cases h with
  | jrpc obj h => exact (jrpcDissectSessionOne_decoded h).1
  | jrpcValidated nl obj decoded h hv =>
    obtain ⟨netif, vrf, rfl⟩ := validateJrpc_eq hv
    exact (jrpcDissectSessionOne_decoded h).1
  | bfddp ntop msg h => exact (bfddSessionMsgToC_documented h).dst
  | bfddpValidated nl ntop msg decoded h hv =>
    obtain ⟨netif, vrf, rfl⟩ := validateBfdd_eq hv
    exact (bfddSessionMsgToC_documented h).dst

theorem applyAddr_none {change : CAddr} (hu : change.unset = false) (haf : change.af = 0) :
    applyAddr nl change = .ok none := by
  simp [applyAddr, hu, haf]

theorem applied_settled (hu : csess.dst.unset = false)
    (h : sessionApplyC nl s csess = .ok (s', changed)) : Configured s' := by
  obtain ⟨-, -, h₃, -, hz, -, src, dst, hs, hd, rfl⟩ := sessionApplyC_inv h
  obtain ⟨hdiscr, hrx, htx, hmult⟩ := mandatoryZero_none hz
  obtain ⟨hsrc, hdst⟩ := @applyFields_families nl s csess src dst hu hs hd
  refine ⟨hdiscr, htx, hrx, hmult, ?_, rfl⟩
  rw [hsrc, hdst]
  by_contra hno
  exact h₃ ⟨fun h0 => hno (.inl h0), fun he => hno (.inr he)⟩

theorem applied_family (hu : csess.dst.unset = false) (hs : Sendable s)
    (h : sessionApplyC nl s csess = .ok (s', changed)) :
    IpFamily s'.dst.family := by
  obtain ⟨-, h₂, h₃, -, -, -, src, dst, hsrc, hdst, rfl⟩ := sessionApplyC_inv h
  exact (applyFields_addressed hu hsrc hdst h₂ h₃ hs).1

theorem applied_unmentioned (hu : csess.dst.unset = false)
    (h : sessionApplyC nl s csess = .ok (s', changed)) :
    Unmentioned csess s s' := by
  obtain ⟨-, -, -, -, -, -, src, dst, hs, hd, rfl⟩ := sessionApplyC_inv h
  have hget : ∀ {α : Type} {field : Option α} {old : α}, field = none → field.getD old = old := by
    rintro α field old rfl
    rfl
  exact
    { multihop := hget
      cpi := hget
      passive := hget
      shutdown := hget
      name := fun hn hv => by simp [applyFields, applyName, hn, hv]
      src := fun hsu haf => by
        rw [applyAddr_none hsu haf] at hs
        cases hs
        rfl
      dst := fun haf => by
        rw [applyAddr_none hu haf] at hd
        cases hd
        exact ⟨rfl, rfl⟩
      ifindex := fun hn hi => by simp [applyFields, applyIfindex, hn, hi]
      vrfIfindex := fun hn hi => by simp [applyFields, applyIfindex, hn, hi]
      vrfTable := fun hn ht => by simp [applyFields, hn, ht]
      discr := hget
      detectMult := hget
      minTx := hget
      minRx := hget
      holdTime := hget
      ttl := hget
      remoteDiscr := fun hr => ⟨hget hr, hget hr⟩
      state := rfl
      remote := ⟨_, rfl⟩ }

theorem sessionApplyInPlace_ok (hu : csess.dst.unset = false) :
    sessionApplyInPlace nl csess s = .ok (.ok changed, s') ↔ sessionApplyC nl s csess = .ok (s', changed) := by
  rw [sessionApplyInPlace_eq hu]
  cases sessionApplyC nl s csess with
  | error e => simp
  | ok r =>
    obtain ⟨t, b⟩ := r
    simp [and_comm]

theorem newSession_sendable (discr : UInt32) (sport : UInt16) : Sendable (newSession discr sport) :=
  .inl rfl

end

/-- A change is made as a whole or not at all, and leaves a session that packets
can be made from. -/
theorem apply_all_or_nothing {nl : Nl} {csess : CSession} {s : DSession} (hc : FromDecoder csess)
    (hs : Sendable s) :
    (∃ r s', sessionApplyInPlace nl csess s = .ok (r, s')) ∧
    (∀ e s', sessionApplyInPlace nl csess s = .ok (.error e, s') → s' = s) ∧
    ∀ changed s', sessionApplyInPlace nl csess s = .ok (.ok changed, s') →
      Configured s' ∧ IpFamily s'.dst.family ∧ (s.localData.discr ≠ 0 → s'.localData.discr = s.localData.discr) ∧
      s'.src.port = s.src.port ∧ Unmentioned csess s s' := by
  have hu := hc.dst
  refine ⟨?_, fun e s' h => ?_, fun changed s' h => ?_⟩
  · rw [sessionApplyInPlace_eq hu]
    cases sessionApplyC nl s csess with
    | error e => exact ⟨_, _, rfl⟩
    | ok r => exact ⟨_, _, rfl⟩
  · rw [sessionApplyInPlace_eq hu] at h
    cases ha : sessionApplyC nl s csess with
    | error e =>
      simp only [ha] at h
      cases h
      rfl
    | ok r =>
      simp only [ha] at h
      cases h
  · have ha := (sessionApplyInPlace_ok hu).mp h
    have hok := sessionApplyC_ok ha
    exact ⟨applied_settled hu ha, applied_family hu hs ha, hok.kept, hok.port, applied_unmentioned hu ha⟩

def toFirst : Value := .obj [("dst", .obj [("addr", .str "10.0.0.1"), ("family", .str "ipv4")])]

theorem exists_applied {nl : Nl} {csess : CSession} {s : DSession}
    (h : (match sessionApplyInPlace nl csess s with | .ok (.ok changed, _) => changed | _ => false) = true) :
    ∃ s', sessionApplyInPlace nl csess s = .ok (.ok true, s') := by
  split at h
  · rename_i changed s' hr
    rw [h] at hr
    exact ⟨s', hr⟩
  · cases h

theorem apply_all_or_nothing_first : ∃ csess s', FromDecoder csess ∧
    sessionApplyInPlace .plain csess (newSession 5 50000) = .ok (.ok true, s') ∧ Configured s' ∧
      s'.src.port = 50000 := by
  obtain ⟨csess, hd, hrun⟩ := @exists_decoded _ toFirst
    (fun csess => match sessionApplyInPlace .plain csess (newSession 5 50000)
      with | .ok (.ok changed, _) => changed | _ => false)
    true (by decide +kernel)
  obtain ⟨s', hs'⟩ := exists_applied hrun
  obtain ⟨-, -, hok⟩ := @apply_all_or_nothing .plain csess (newSession 5 50000) (.jrpc toFirst hd)
    (newSession_sendable 5 50000)
  obtain ⟨hset, -, -, hport, -⟩ := hok true s' hs'
  exact ⟨csess, s', .jrpc toFirst hd, hs', hset, hport⟩

/-- The kernel has one table of interfaces: an index that has a name is found
under it, and no name is empty. -/
def Nl.Coherent (nl : Nl) : Prop :=
  ∀ i name, nl.ifIndextoname i = some name → name ≠ "" ∧ nl.ifNametoindex name = some i

section

variable {nl : Nl} {csess : CSession} {s s' : DSession} {changed : Bool}

theorem getD_twice {α : Type} (field : Option α) (old : α) :
    field.getD (field.getD old) = field.getD old := by
  cases field <;> rfl

theorem applyIfindex_twice (old : UInt32) (change : CNetif) :
    applyIfindex (applyIfindex old change) change = applyIfindex old change := by
  unfold applyIfindex
  split
  · rfl
  · exact getD_twice _ _

theorem applyName_twice (old : String) (change : CStr) :
    applyName (applyName old change) change = applyName old change := by
  unfold applyName
  split
  · rfl
  · exact getD_twice _ _

theorem applyFields_twice (csess : CSession) (s : DSession) (src dst : Option Sockaddr) :
    applyFields (applyFields s csess src dst) csess src dst = applyFields s csess src dst := by
  have htable : csess.vrf.table.getD (if csess.vrf.netif.unset then 0
      else csess.vrf.table.getD (if csess.vrf.netif.unset then 0 else s.vrfTable)) =
      csess.vrf.table.getD (if csess.vrf.netif.unset then 0 else s.vrfTable) := by
    split
    · rfl
    · exact getD_twice _ _
  cases src <;> cases dst <;>
    simp only [applyFields, applyFlags, applyTiming, getD_twice, applyIfindex_twice, applyName_twice, htable,
      Option.getD_none, Option.getD_some] <;>
    rfl

theorem newDstAf_applied (h : s'.dst.family = newDstAf s csess) : newDstAf s' csess = newDstAf s csess := by
  by_cases haf : csess.dst.af = 0
  · rw [newDstAf, if_neg (not_not.mpr haf), h]
  · rw [newDstAf, newDstAf, if_pos haf, if_pos haf]

theorem newSrcAf_applied (h : s'.src.family = newSrcAf s csess) : newSrcAf s' csess = newSrcAf s csess := by
  by_cases hu : csess.src.unset = true
  · simp [newSrcAf, hu]
  · by_cases haf : csess.src.af = 0
    · rw [newSrcAf, if_neg hu, if_neg (not_not.mpr haf), h]
    · simp [newSrcAf, hu, haf]

theorem sessionValidateVrf_isOk {vrf : CVrf} : (∃ v, sessionValidateVrf nl vrf = .ok v) ↔
    ∃ netif, sessionValidateNetif nl vrf.netif = .ok netif ∧ ∀ i, netif.ifindex = some i →
      ∃ table, nlGetVrfTable nl i = .ok table ∧ ∀ given, vrf.table = some given → given = table := by
  constructor
  · rintro ⟨v, h⟩
    cases hn : sessionValidateNetif nl vrf.netif with
    | error e => simp [sessionValidateVrf, hn] at h
    | ok netif =>
      refine ⟨netif, rfl, fun i hi => ?_⟩
      simp only [sessionValidateVrf, hn, hi] at h
      cases ht : nlGetVrfTable nl i with
      | error e => simp [ht] at h
      | ok table =>
        refine ⟨table, rfl, fun given hg => ?_⟩
        by_contra hne
        simp [ht, hg, hne] at h
  · rintro ⟨netif, hn, ht⟩
    simp only [sessionValidateVrf, hn]
    cases hi : netif.ifindex with
    | none => exact ⟨_, rfl⟩
    | some i =>
      obtain ⟨table, htab, hgiven⟩ := ht i hi
      simp only [htab]
      cases hg : vrf.table with
      | none => exact ⟨_, rfl⟩
      | some given => simp [hgiven given hg]

theorem sessionValidateNetif_unset (netif : CNetif) (u : Bool) :
    sessionValidateNetif nl { netif with unset := u } =
      (sessionValidateNetif nl netif).map fun netif => { netif with unset := u } := by
  obtain ⟨unset, name, ifindex⟩ := netif
  cases ifindex with
  | none =>
    cases name with
    | none => rfl
    | some name =>
      dsimp only [sessionValidateNetif]
      split_ifs
      · rfl
      · cases nl.ifNametoindex name <;> rfl
  | some i =>
    cases name with
    | none =>
      dsimp only [sessionValidateNetif]
      cases nl.ifIndextoname i <;> rfl
    | some name =>
      dsimp only [sessionValidateNetif]
      cases nl.ifIndextoname i with
      | none => rfl
      | some ifname =>
        cases nl.ifNametoindex name with
        | none => split_ifs <;> rfl
        | some j =>
          dsimp only
          split_ifs <;> rfl

theorem sessionValidateNetif_congr {netif netif' checked : CNetif} (hn : netif'.name = netif.name)
    (hi : netif'.ifindex = netif.ifindex) (h : sessionValidateNetif nl netif = .ok checked) :
    ∃ checked', sessionValidateNetif nl netif' = .ok checked' ∧ checked'.ifindex = checked.ifindex := by
  have he : netif' = { netif with unset := netif'.unset } := by
    cases netif
    cases netif'
    cases hn
    cases hi
    rfl
  rw [he, sessionValidateNetif_unset, h]
  exact ⟨_, rfl, rfl⟩

theorem sessionValidateNetif_named (hnl : nl.Coherent) {netif checked : CNetif} {i : UInt32}
    (hi : netif.ifindex = some i) (h : sessionValidateNetif nl netif = .ok checked) (unset : Bool) :
    ∃ checked', sessionValidateNetif nl ⟨unset, some ((nl.ifIndextoname i).getD ""), some i⟩ = .ok checked' ∧
      checked'.ifindex = some i := by
  cases hname : nl.ifIndextoname i with
  | none =>
    obtain ⟨u, name, ifindex⟩ := netif
    cases (hi : ifindex = some i)
    cases name <;> simp [sessionValidateNetif, hname] at h
  | some ifname =>
    obtain ⟨hne, hindex⟩ := hnl i ifname hname
    refine ⟨⟨unset, some ifname, some i⟩, ?_, rfl⟩
    simp [sessionValidateNetif, hname, hne, hindex]

theorem sessionValidateNetif_indexed {netif checked : CNetif} {i : UInt32} (hi : netif.ifindex = some i)
    (h : sessionValidateNetif nl netif = .ok checked) (unset : Bool) :
    ∃ checked', sessionValidateNetif nl ⟨unset, none, some i⟩ = .ok checked' ∧ checked'.ifindex = some i := by
  obtain ⟨u, name, ifindex⟩ := netif
  cases (hi : ifindex = some i)
  cases hname : nl.ifIndextoname i with
  | none => cases name <;> simp [sessionValidateNetif, hname] at h
  | some ifname => simp [sessionValidateNetif, hname]

theorem changedNetif_again (hnl : nl.Coherent) {change : CVrf} {netif : CNetif}
    (hs : s'.vrfIfindex = applyIfindex s.vrfIfindex change.netif)
    (h : sessionValidateNetif nl (changedVrf nl s change).netif = .ok netif) :
    ∃ netif', sessionValidateNetif nl (changedVrf nl s' change).netif = .ok netif' ∧
      netif'.ifindex = netif.ifindex := by
  cases hu : change.netif.unset with
  | true => apply sessionValidateNetif_congr _ _ h <;> simp [changedVrf, hu]
  | false =>
    cases hc : change.netif.ifindex with
    | none =>
      have hsame : s'.vrfIfindex = s.vrfIfindex := by simp [hs, applyIfindex, hu, hc]
      apply sessionValidateNetif_congr _ _ h <;> simp [changedVrf, hu, sessionToCVrf, hsame]
    | some i =>
      have hnew : s'.vrfIfindex = i := by simp [hs, applyIfindex, hu, hc]
      have hindex : (changedVrf nl s change).netif.ifindex = some i := by simp [changedVrf, hc]
      cases hn : change.netif.name with
      | some name => apply sessionValidateNetif_congr _ _ h <;> simp [changedVrf, hn, hc]
      | none =>
        -- only the index was given, and the name is now the session's
        by_cases h0 : i = 0
        · have hview : (changedVrf nl s' change).netif = ⟨true, none, some i⟩ := by
            simp [changedVrf, hu, hc, hn, sessionToCVrf, hnew, h0]
          rw [hview, (sessionValidateNetif_ok h).2.1 i hindex]
          exact sessionValidateNetif_indexed hindex h true
        · have hview : (changedVrf nl s' change).netif =
            ⟨false, some ((nl.ifIndextoname i).getD ""), some i⟩ := by
            simp [changedVrf, hu, hc, hn, sessionToCVrf, hnew, h0]
          rw [hview, (sessionValidateNetif_ok h).2.1 i hindex]
          exact sessionValidateNetif_named hnl hindex h false

theorem changedVrf_again (hnl : nl.Coherent) {change : CVrf}
    (hi : s'.vrfIfindex = applyIfindex s.vrfIfindex change.netif)
    (ht : s'.vrfTable = change.table.getD (if change.netif.unset then 0 else s.vrfTable))
    (h : ∃ v, sessionValidateVrf nl (changedVrf nl s change) = .ok v) :
    ∃ v, sessionValidateVrf nl (changedVrf nl s' change) = .ok v := by
  obtain ⟨netif, hn, htable⟩ := sessionValidateVrf_isOk.mp h
  -- the table is the one that was checked, or is not there any more
  have hgiven : ∀ given, (changedVrf nl s' change).table = some given →
    (changedVrf nl s change).table = some given := by
    intro given hg
    cases hc : change.table with
    | some t => simpa [changedVrf, hc] using hg
    | none =>
      cases hu : change.netif.unset with
      | true => simp [changedVrf, hc, ht, hu, sessionToCVrf] at hg
      | false => simpa [changedVrf, hc, ht, hu, sessionToCVrf] using hg
  have hnetif : ∃ netif', sessionValidateNetif nl (changedVrf nl s' change).netif = .ok netif' ∧
    netif'.ifindex = netif.ifindex :=
    changedNetif_again hnl hi hn
  obtain ⟨netif', hn', hsame⟩ := hnetif
  refine sessionValidateVrf_isOk.mpr ⟨netif', hn', fun i hi => ?_⟩
  obtain ⟨table, htab, hg⟩ := htable i (hsame ▸ hi)
  exact ⟨table, htab, fun given h => hg given (hgiven given h)⟩

theorem mandatoryZero_applied (src dst : Option Sockaddr) :
    mandatoryZero (applyFields s csess src dst) csess = mandatoryZero s csess := by
  simp only [mandatoryZero, applyFields, applyTiming, getD_twice]
  rfl

theorem sessionApplyC_again (hnl : nl.Coherent) (hu : csess.dst.unset = false)
    (h : sessionApplyC nl s csess = .ok (s', changed)) : sessionApplyC nl s' csess = .ok (s', false) := by
  obtain ⟨h₁, h₂, h₃, hvrf, hz, -, src, dst, hs, hd, rfl⟩ := sessionApplyC_inv h
  obtain ⟨hsrc, hdst⟩ := @applyFields_families nl s csess src dst hu hs hd
  obtain ⟨vrf, hvrf⟩ : ∃ v, sessionValidateVrf nl
    (changedVrf nl (applyFields s csess src dst) csess.vrf) = .ok v :=
    changedVrf_again hnl rfl rfl hvrf
  have hdiscr : ¬ (csess.discr.isSome ∧ (applyFields s csess src dst).localData.discr ≠ 0 ∧
      csess.discr ≠ some (applyFields s csess src dst).localData.discr) := by
    rintro ⟨hsome, -, hne⟩
    obtain ⟨d, hd⟩ := Option.isSome_iff_exists.mp hsome
    exact hne (by simp [applyFields, hd])
  simp only [sessionApplyC, newDstAf_applied hdst, newSrcAf_applied hsrc, if_neg hdiscr, if_neg h₂,
    if_neg h₃, hs, hd, hvrf,
    mandatoryZero_applied, hz, applyFields_twice, ne_eq, not_true_eq_false, decide_false]

theorem dst_of_applied (h : sessionApplyInPlace nl csess s = .ok (.ok changed, s')) :
    csess.dst.unset = false := by
  by_contra hu
  change (if _ then _ else _ : InPlace (Except String Bool)) s = _ at h
  rw [Bool.not_eq_false] at hu
  split at h
  · cases h
  · cases h

end

/-- A change that was made can be made again, and changes nothing then. -/
theorem apply_again {nl : Nl} {csess : CSession} {s s' : DSession} {changed : Bool} (hnl : nl.Coherent)
    (h : sessionApplyInPlace nl csess s = .ok (.ok changed, s')) :
    sessionApplyInPlace nl csess s' = .ok (.ok false, s') := by
  have hu := dst_of_applied h
  apply (sessionApplyInPlace_ok hu).mpr
  exact sessionApplyC_again hnl hu ((sessionApplyInPlace_ok hu).mp h)

def Nl.oneVrf : Nl :=
  ⟨fun i => if i = 3 then some "red" else none, fun name => if name = "red" then some 3 else none,
    fun i => .ok (if i = 3 then 10 else 0), fun _ _ => some ⟨1, 0, 0, 0⟩⟩

theorem Nl.oneVrf_coherent : Nl.oneVrf.Coherent := by
  intro i name h
  simp only [Nl.oneVrf] at h ⊢
  split_ifs at h with hi
  cases h
  exact ⟨by decide, by simp [hi]⟩

def intoVrf : CSession := { CSession.blank with vrf := ⟨⟨false, none, some 3⟩, none⟩, dst :=
    ⟨false, afInet, "10.0.0.1"⟩ }

theorem apply_again_vrf : ∃ s', sessionApplyInPlace .oneVrf intoVrf (newSession 5 50000) = .ok (.ok true, s') ∧
    sessionApplyInPlace .oneVrf intoVrf s' = .ok (.ok false, s') := by
  obtain ⟨s', hs'⟩ := @exists_applied .oneVrf intoVrf (newSession 5 50000) (by decide +kernel)
  exact ⟨s', hs', apply_again Nl.oneVrf_coherent hs'⟩

end Bbdd.Daemon
