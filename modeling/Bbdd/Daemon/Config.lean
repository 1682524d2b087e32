import Bbdd.Datapath.Receive

namespace Bbdd.Daemon

open Packet Session Prog Datapath

def IpFamily (af : UInt16) : Prop := af = afInet ∨ af = afInet6

theorem IpFamily.ne_zero {af : UInt16} (h : IpFamily af) : af ≠ 0 := by
  rcases h with rfl | rfl <;> decide

structure CStr where
  unset : Bool
  val : Option String
  deriving DecidableEq, Repr

structure CNetif where
  unset : Bool
  name : Option String
  ifindex : Option UInt32
  deriving DecidableEq, Repr

structure CVrf where
  netif : CNetif
  table : Option UInt32
  deriving DecidableEq, Repr

structure CAddr where
  unset : Bool
  af : UInt16
  str : String
  deriving DecidableEq, Repr

structure CFlags where
  multihop : Option Bool
  cpi : Option Bool
  passive : Option Bool
  shutdown : Option Bool
  deriving DecidableEq, Repr

/-- A session as a client describes it: each field only if it was given. -/
structure CSession where
  flags : CFlags
  discr : Option UInt32
  remoteDiscr : Option UInt32
  minTxUs : Option UInt32
  minRxUs : Option UInt32
  holdTimeUs : Option UInt32
  ttl : Option UInt8
  detectMult : Option UInt8
  src : CAddr
  dst : CAddr
  netif : CNetif
  vrf : CVrf
  name : CStr
  deriving DecidableEq, Repr

def ifNameSize : Nat := 16

def CAddr.decoded (addr : CAddr) : Bool := addr.af = 0 ∨ addr.af = afInet ∨ addr.af = afInet6

def CStr.fits (str : CStr) : Bool := str.val.all (fun val => val.utf8ByteSize < ifNameSize)

abbrev Decoded :=
  { csess : CSession // csess.dst.unset = false ∧ csess.src.decoded = true ∧ csess.dst.decoded = true ∧
    csess.name.fits = true }

structure Nl where
  ifIndextoname : UInt32 → Option String
  ifNametoindex : String → Option UInt32
  ifinfoTable : UInt32 → Except String UInt32
  inetPton : UInt16 → String → Option Addr

abbrev Ntop := UInt16 → Addr → String

def sessionValidateNetif (nl : Nl) (netif : CNetif) : Except String CNetif :=
  match netif.ifindex, netif.name with
  | none, none => .ok netif
  | some i, none =>
    match nl.ifIndextoname i with
    | none => .error s!"No interface with ifindex {i} found"
    | some ifname => .ok { netif with name := some ifname }
  | none, some name =>
    if name = "" then .ok { netif with ifindex := some 0 }
    else
      match nl.ifNametoindex name with
      | none => .error s!"No interface named `{name}' found"
      | some i => .ok { netif with ifindex := some i }
  | some i, some name =>
    match nl.ifIndextoname i with
    | none => .error s!"No interface with ifindex {i} found"
    | some ifname =>
      if name = "" then .error s!"Interface ifindex `{i}' given together with request to unset interface"
      else
        match nl.ifNametoindex name with
        | none => .error s!"No interface named `{name}' found"
        | some j =>
          if i ≠ j ∨ ifname ≠ name then .error s!"No interface with ifindex `{i}' and name `{name}' found"
          else .ok netif

def nlGetVrfTable (nl : Nl) (ifindex : UInt32) : Except String UInt32 :=
  match nl.ifinfoTable ifindex with
  | .error e => .error e
  | .ok table => if table = 0 then .error s!"Interface {ifindex} is not a VRF device" else .ok table

theorem nlGetVrfTable_ne {nl : Nl} {ifindex table : UInt32}
    (h : nlGetVrfTable nl ifindex = .ok table) : table ≠ 0 := by
  unfold nlGetVrfTable at h
  split at h
  · cases h
  · split_ifs at h with h0
    exact Except.ok.inj h ▸ h0

def sessionValidateVrf (nl : Nl) (vrf : CVrf) : Except String CVrf :=
  match sessionValidateNetif nl vrf.netif with
  | .error e => .error e
  | .ok netif =>
    match netif.ifindex with
    | none => .ok { vrf with netif := netif }
    | some i =>
      match nlGetVrfTable nl i with
      | .error e => .error e
      | .ok table =>
        match vrf.table with
        | none => .ok ⟨netif, some table⟩
        | some given =>
          let name := netif.name.getD ""
          if given ≠ table then
            .error s!"VRF x table mismatch: VRF `{name}' has table {table.toInt32}, but {given.toInt32} given"
          else .ok { vrf with netif := netif }

theorem sessionValidateNetif_ok {nl : Nl} {netif netif' : CNetif}
    (h : sessionValidateNetif nl netif = .ok netif') :
    netif'.unset = netif.unset ∧ (∀ i, netif.ifindex = some i → netif'.ifindex = some i) ∧
      (netif.name.isSome = true → netif'.ifindex.isSome = true) := by
  obtain ⟨unset, name, ifindex⟩ := netif
  unfold sessionValidateNetif at h
  cases ifindex with
  | none =>
    cases name with
    | none => cases h; simp
    | some name => grind
  | some i =>
    cases name with
    | none => grind
    | some name => grind

theorem sessionValidateVrf_ok {nl : Nl} {vrf vrf' : CVrf} (h : sessionValidateVrf nl vrf = .ok vrf') :
    vrf'.netif.unset = vrf.netif.unset ∧ (∀ i, vrf.netif.ifindex = some i → vrf'.netif.ifindex = some i) ∧
    (vrf.netif.name.isSome = true → vrf'.netif.ifindex.isSome = true) ∧
    ∀ i, vrf'.netif.ifindex = some i → ∃ table, nlGetVrfTable nl i = .ok table ∧ vrf'.table = some table ∧
      ∀ given, vrf.table = some given → given = table := by
  unfold sessionValidateVrf at h
  cases hn : sessionValidateNetif nl vrf.netif with
  | error e => simp [hn] at h
  | ok netif =>
    obtain ⟨hu, hi, hname⟩ := sessionValidateNetif_ok hn
    simp only [hn] at h
    cases hif : netif.ifindex with
    | none =>
      simp only [hif] at h
      cases h
      exact ⟨hu, hi, hname, fun i h => by simp [hif] at h⟩
    | some i =>
      simp only [hif] at h
      cases ht : nlGetVrfTable nl i with
      | error e => simp [ht] at h
      | ok table =>
        simp only [ht] at h
        cases hg : vrf.table with
        | none =>
          simp only [hg] at h
          cases h
          refine ⟨hu, hi, hname, fun j hj => ⟨table, ?_, rfl, fun _ h => by cases h⟩⟩
          rw [← ht, Option.some.inj (hif.symm.trans hj)]
        | some given =>
          simp only [hg, ne_eq, ite_not] at h
          split at h
          · rename_i hgt
            cases h
            refine ⟨hu, hi, hname, fun j hj => ⟨table, ?_, congrArg some hgt, fun g h => ?_⟩⟩
            · rw [← ht, Option.some.inj (hif.symm.trans hj)]
            · rw [← hgt, Option.some.inj h]
          · cases h

def addrstrMax : Nat := 46 + 16 + 5

def sockParseAddrstr (nl : Nl) (af : UInt16) (str : String) : Except String Sockaddr :=
  if af = afInet ∧ str.utf8ByteSize > addrstrMax then .error "IPv address too long"
  else if af = afInet ∨ af = afInet6 then
    match nl.inetPton af str with
    | none => .error s!"Invalid address: `{str}'"
    | some addr => .ok ⟨af, 0, addr⟩
  else .error s!"Unsupported address family {af}"

def applyAddr (nl : Nl) (from_ : CAddr) : Except String (Option Sockaddr) :=
  if from_.unset then .ok (some .zero)
  else if from_.af ≠ 0 then (sockParseAddrstr nl from_.af from_.str).map some
  else .ok none

def afToStr (af : UInt16) : String :=
  if af = 1 then "unix" else if af = afInet then "ipv4" else if af = afInet6 then "ipv6" else "(null)"

def non0 (x : UInt32) : Option UInt32 := if x ≠ 0 then some x else none

def sessionToCVrf (nl : Nl) (dsess : DSession) : CVrf where
  netif :=
    if dsess.vrfIfindex ≠ 0 then
      ⟨false, some ((nl.ifIndextoname dsess.vrfIfindex).getD ""), some dsess.vrfIfindex⟩
    else ⟨true, none, none⟩
  table := if dsess.vrfTable ≠ 0 then some dsess.vrfTable else none

def changedVrf (nl : Nl) (dsess : DSession) (change : CVrf) : CVrf :=
  let cur := sessionToCVrf nl dsess
  let kept : CNetif := if change.netif.unset then { cur.netif with name := none, ifindex := none } else cur.netif
  { netif := { kept with
      name := change.netif.name.or kept.name, ifindex := change.netif.ifindex.or kept.ifindex }
    table := change.table.or cur.table }

def applyFlags (flags : Flags) (change : CFlags) : Flags where
  multihop := change.multihop.getD flags.multihop
  cpi := change.cpi.getD flags.cpi
  passive := change.passive.getD flags.passive
  shutdown := change.shutdown.getD flags.shutdown

def applyName (name : String) (change : CStr) : String :=
  if change.unset then "" else change.val.getD name

def applyTiming (timing : Timing) (csess : CSession) : Timing where
  detectMult := csess.detectMult.getD timing.detectMult
  minTxUs := csess.minTxUs.getD timing.minTxUs
  minRxUs := csess.minRxUs.getD timing.minRxUs

def applyIfindex (ifindex : UInt32) (change : CNetif) : UInt32 :=
  if change.unset then 0 else change.ifindex.getD ifindex

/-- The infallible part of a change. The source port stays, and the
destination port follows the hop mode. -/
def applyFields (dsess : DSession) (csess : CSession) (src dst : Option Sockaddr) : DSession :=
  let flags := applyFlags dsess.localData.flags csess.flags
  { src := { (src.getD dsess.src) with port := dsess.src.port }
    dst := { (dst.getD dsess.dst) with port := if flags.multihop then bfdMultiHopPort else bfdSingleHopPort }
    name := applyName dsess.name csess.name
    holdTimeUs := csess.holdTimeUs.getD dsess.holdTimeUs
    ttl := csess.ttl.getD dsess.ttl
    ifindex := applyIfindex dsess.ifindex csess.netif
    vrfIfindex := applyIfindex dsess.vrfIfindex csess.vrf.netif
    userRemoteDiscr := csess.remoteDiscr.getD dsess.userRemoteDiscr
    vrfTable := csess.vrf.table.getD (if csess.vrf.netif.unset then 0 else dsess.vrfTable)
    localData := { dsess.localData with
      flags := flags
      discr := csess.discr.getD dsess.localData.discr
      timing := applyTiming dsess.localData.timing csess }
    remoteData := { dsess.remoteData with discr := csess.remoteDiscr.getD dsess.remoteData.discr } }

def newDstAf (dsess : DSession) (csess : CSession) : UInt16 :=
  if csess.dst.af ≠ 0 then csess.dst.af else dsess.dst.family

def newSrcAf (dsess : DSession) (csess : CSession) : UInt16 :=
  if csess.src.unset then 0 else if csess.src.af ≠ 0 then csess.src.af else dsess.src.family

def mandatoryZero (dsess : DSession) (csess : CSession) : Option String :=
  let timing := applyTiming dsess.localData.timing csess
  if csess.discr.getD dsess.localData.discr = 0 then some "discr"
  else if timing.minRxUs = 0 then some "min_rx_us"
  else if timing.minTxUs = 0 then some "min_tx_us"
  else if timing.detectMult = 0 then some "detect_mult"
  else none

/-- Apply a change to a session: the changed session and whether it differs,
or why nothing was changed. -/
def sessionApplyC (nl : Nl) (dsess : DSession) (csess : CSession) : Except String (DSession × Bool) :=
  let dstAf := newDstAf dsess csess
  let srcAf := newSrcAf dsess csess
  let dstName := afToStr dstAf
  let srcName := afToStr srcAf
  if csess.discr.isSome ∧ dsess.localData.discr ≠ 0 ∧ csess.discr ≠ some dsess.localData.discr then
    .error "Session discriminator change is not allowed"
  else if dstAf = 0 then .error "No destination address"
  else if srcAf ≠ 0 ∧ srcAf ≠ dstAf then .error s!"{dstName} destination but {srcName} source address"
  else
    match applyAddr nl csess.src with
    | .error e => .error e
    | .ok src =>
      match applyAddr nl csess.dst with
      | .error e => .error e
      | .ok dst =>
        match sessionValidateVrf nl (changedVrf nl dsess csess.vrf) with
        | .error e => .error e
        | .ok _ =>
          match mandatoryZero dsess csess with
          | some field => .error s!"{field} needs to be non-0"
          | none =>
            let applied := applyFields dsess csess src dst
            .ok (applied, decide (applied ≠ dsess))

/-- What a change never touches, and what it makes sure of. -/
structure Applied (dsess : DSession) (csess : CSession) (applied : DSession) : Prop where
  port : applied.src.port = dsess.src.port
  dport : BfdPort applied
  discr : applied.localData.discr = csess.discr.getD dsess.localData.discr
  kept : dsess.localData.discr ≠ 0 → applied.localData.discr = dsess.localData.discr
  named : applied.localData.discr ≠ 0
  mult : applied.localData.timing.detectMult ≠ 0
  loc : applied.localData.state = dsess.localData.state
  rem : ∃ discr, applied.remoteData = { dsess.remoteData with discr := discr }
  addressed : csess.dst.unset = false → dsess.dst.family = 0 ∨ Addressed dsess → Addressed applied
  fields : ∃ src dst, applied = applyFields dsess csess src dst

theorem sockParseAddrstr_ok {nl : Nl} {af : UInt16} {str : String} {addr : Sockaddr}
    (h : sockParseAddrstr nl af str = .ok addr) : addr.family = af ∧ (af = afInet ∨ af = afInet6) := by
  unfold sockParseAddrstr at h
  split_ifs at h with h₁ h₂
  split at h
  · cases h
  · cases h
    exact ⟨rfl, h₂⟩

theorem applyAddr_family {nl : Nl} {change : CAddr} {addr : Option Sockaddr}
    (h : applyAddr nl change = .ok addr) (old : Sockaddr) :
    (addr.getD old).family = (if change.unset then 0 else if change.af ≠ 0 then change.af else old.family) ∧
      (change.unset = false → change.af ≠ 0 → change.af = afInet ∨ change.af = afInet6) := by
  unfold applyAddr at h
  split_ifs at h with hu haf
  · cases h
    exact ⟨by simp [hu, Sockaddr.zero, afUnspec], fun hf => by simp [hf] at hu⟩
  · cases hp : sockParseAddrstr nl change.af change.str with
    | error e => simp [hp, Except.map] at h
    | ok a =>
      simp only [hp, Except.map, Except.ok.injEq] at h
      subst h
      obtain ⟨hfam, hin⟩ := sockParseAddrstr_ok hp
      exact ⟨by simp [hu, haf, hfam], fun _ _ => hin⟩
  · cases h
    exact ⟨by simp [hu, haf], fun _ hne => absurd hne haf⟩

theorem applyFields_families {nl : Nl} {dsess : DSession} {csess : CSession}
    {src dst : Option Sockaddr} (hu : csess.dst.unset = false)
    (hs : applyAddr nl csess.src = .ok src) (hd : applyAddr nl csess.dst = .ok dst) :
    (applyFields dsess csess src dst).src.family = newSrcAf dsess csess ∧
      (applyFields dsess csess src dst).dst.family = newDstAf dsess csess := by
  refine ⟨(applyAddr_family hs dsess.src).1, ?_⟩
  rw [newDstAf]
  exact (applyAddr_family hd dsess.dst).1.trans (by simp [hu])

theorem applyFields_addressed {nl : Nl} {dsess : DSession} {csess : CSession}
    {src dst : Option Sockaddr} (hu : csess.dst.unset = false)
    (hs : applyAddr nl csess.src = .ok src) (hd : applyAddr nl csess.dst = .ok dst)
    (hne : newDstAf dsess csess ≠ 0)
    (hsame : ¬ (newSrcAf dsess csess ≠ 0 ∧ newSrcAf dsess csess ≠ newDstAf dsess csess))
    (h : dsess.dst.family = 0 ∨ IpFamily dsess.dst.family) :
    Addressed (applyFields dsess csess src dst) := by
  obtain ⟨hsrc, hdst⟩ := @applyFields_families nl dsess csess src dst hu hs hd
  refine ⟨?_, ?_⟩
  · rw [hdst]
    by_cases haf : csess.dst.af = 0
    · have he : newDstAf dsess csess = dsess.dst.family := by simp [newDstAf, haf]
      rw [he] at hne ⊢
      exact h.resolve_left hne
    · rw [newDstAf, if_pos haf]
      exact (applyAddr_family hd dsess.dst).2 hu haf
  · rw [hsrc, hdst]
    by_contra hno
    exact hsame ⟨fun h0 => hno (.inl h0), fun he => hno (.inr he)⟩

theorem mandatoryZero_none {dsess : DSession} {csess : CSession} (h : mandatoryZero dsess csess = none) :
    csess.discr.getD dsess.localData.discr ≠ 0 ∧ (applyTiming dsess.localData.timing csess).minRxUs ≠ 0 ∧
      (applyTiming dsess.localData.timing csess).minTxUs ≠ 0 ∧
        (applyTiming dsess.localData.timing csess).detectMult ≠ 0 := by
  simp only [mandatoryZero] at h
  split_ifs at h with h₁ h₂ h₃ h₄
  exact ⟨h₁, h₂, h₃, h₄⟩

theorem sessionApplyC_inv {nl : Nl} {dsess applied : DSession} {csess : CSession} {changed : Bool}
    (h : sessionApplyC nl dsess csess = .ok (applied, changed)) :
    ¬ (csess.discr.isSome ∧ dsess.localData.discr ≠ 0 ∧ csess.discr ≠ some dsess.localData.discr) ∧
    newDstAf dsess csess ≠ 0 ∧
    ¬ (newSrcAf dsess csess ≠ 0 ∧ newSrcAf dsess csess ≠ newDstAf dsess csess) ∧
    (∃ vrf, sessionValidateVrf nl (changedVrf nl dsess csess.vrf) = .ok vrf) ∧
    mandatoryZero dsess csess = none ∧
    changed = decide (applied ≠ dsess) ∧
    ∃ src dst, applyAddr nl csess.src = .ok src ∧ applyAddr nl csess.dst = .ok dst ∧
      applied = applyFields dsess csess src dst := by
  simp only [sessionApplyC] at h
  split_ifs at h with h₁ h₂ h₃
  split at h
  · cases h
  split at h
  · cases h
  split at h
  · cases h
  split at h
  · cases h
  · cases h
    exact ⟨h₁, h₂, h₃, ⟨_, ‹_›⟩, ‹_›, rfl, _, _, ‹_›, ‹_›, rfl⟩

theorem sessionApplyC_ok {nl : Nl} {dsess applied : DSession} {csess : CSession} {changed : Bool}
    (h : sessionApplyC nl dsess csess = .ok (applied, changed)) : Applied dsess csess applied := by
  obtain ⟨h₁, h₂, h₃, -, hz, -, src, dst, hs, hd, rfl⟩ := sessionApplyC_inv h
  obtain ⟨hdiscr, -, -, hmult⟩ := mandatoryZero_none hz
  refine ⟨rfl, ?_, rfl, fun hne => ?_, hdiscr, hmult, rfl, ⟨_, rfl⟩, fun hu ha => ?_,
    ⟨_, _, rfl⟩⟩
  · simp only [BfdPort, applyFields]
    split
    · exact .inr rfl
    · exact .inl rfl
  rotate_left
  · exact applyFields_addressed hu hs hd h₂ h₃ (ha.imp id And.left)
  change csess.discr.getD dsess.localData.discr = dsess.localData.discr
  cases hc : csess.discr with
  | none => rfl
  | some d =>
    by_contra hcon
    exact h₁ ⟨by simp [hc], hne, by rw [hc]; exact fun he => hcon (Option.some.inj he)⟩

theorem sessionApplyC_changed {nl : Nl} {dsess applied : DSession} {csess : CSession} {changed : Bool}
    (h : sessionApplyC nl dsess csess = .ok (applied, changed)) : changed = decide (applied ≠ dsess) := by
  obtain ⟨-, -, -, -, -, hc, -⟩ := sessionApplyC_inv h
  exact hc

/-- Whether a query for an address selects a session with this one. The port
of a session is not part of a query. -/
def sessionAddrMatches (nl : Nl) (query : CAddr) (addr : Sockaddr) : Except String Bool :=
  if query.af = 0 then .ok true
  else
    match nl.inetPton query.af query.str with
    | none => .error s!"Invalid address: `{query.str}'"
    | some a =>
      if query.af ≠ addr.family then .ok false
      else if query.af = afInet then .ok (a.w0 = addr.addr.w0)
      else .ok (a = addr.addr)

def fieldMatches {α : Type} [DecidableEq α] (query : Option α) (value : α) : Bool :=
  query = none ∨ query = some value

def flagsMatch (query : CFlags) (flags : Flags) : Bool :=
  fieldMatches query.multihop flags.multihop && fieldMatches query.cpi flags.cpi &&
    fieldMatches query.passive flags.passive && fieldMatches query.shutdown flags.shutdown

def fieldsMatch (query : CSession) (dsess : DSession) : Bool :=
  !(query.netif.unset && dsess.ifindex ≠ 0) && !(query.vrf.netif.unset && dsess.vrfIfindex ≠ 0) &&
    fieldMatches query.discr dsess.localData.discr &&
    fieldMatches query.detectMult dsess.localData.timing.detectMult &&
    fieldMatches query.minTxUs dsess.localData.timing.minTxUs &&
    fieldMatches query.minRxUs dsess.localData.timing.minRxUs &&
    fieldMatches query.holdTimeUs dsess.holdTimeUs && fieldMatches query.ttl dsess.ttl &&
    fieldMatches query.netif.ifindex dsess.ifindex && fieldMatches query.vrf.netif.ifindex dsess.vrfIfindex &&
    fieldMatches query.vrf.table dsess.vrfTable && fieldMatches query.remoteDiscr dsess.remoteData.discr &&
    !(query.name.unset && dsess.name ≠ "") && fieldMatches query.name.val dsess.name

def sessionMatches (nl : Nl) (query : CSession) (dsess : DSession) : Except String Bool :=
  if !flagsMatch query.flags dsess.localData.flags then .ok false
  else
    match sessionAddrMatches nl query.src dsess.src with
    | .error e => .error e
    | .ok false => .ok false
    | .ok true =>
      match sessionAddrMatches nl query.dst dsess.dst with
      | .error e => .error e
      | .ok false => .ok false
      | .ok true => .ok (fieldsMatch query dsess)

def selectSessions (nl : Nl) (query : CSession) : List DSession → Except String (List UInt32)
  | [] => .ok []
  | dsess :: rest =>
    match sessionMatches nl query dsess with
    | .error e => .error e
    | .ok false => selectSessions nl query rest
    | .ok true => (selectSessions nl query rest).map (dsess.localData.discr :: ·)

theorem selectSessions_sublist {nl : Nl} {query : CSession} {sessions : List DSession}
    {discrs : List UInt32} (h : selectSessions nl query sessions = .ok discrs) :
    discrs.Sublist (sessions.map (·.localData.discr)) := by
  induction sessions generalizing discrs with
  | nil => cases h; exact List.Sublist.slnil
  | cons dsess rest ih =>
    simp only [selectSessions] at h
    split at h
    · cases h
    · exact (ih h).cons _
    · cases hr : selectSessions nl query rest with
      | error e => simp [hr, Except.map] at h
      | ok ds =>
        simp only [hr, Except.map, Except.ok.injEq] at h
        exact h ▸ (ih hr).cons_cons _

end Bbdd.Daemon
