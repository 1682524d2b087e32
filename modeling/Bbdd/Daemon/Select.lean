import Bbdd.Daemon.Apply
import Bbdd.Daemon.Show
import Bbdd.Bfddp.RoundTrip

namespace Bbdd.Daemon

open Lib.Transition Lib.Json Session Datapath Client Bfddp

def Nl.Found (nl : Nl) : Prop :=
  ∀ name i, nl.ifNametoindex name = some i → i ≠ 0 ∧ nl.ifIndextoname i = some name

/-- A value that is asked for is the one reported, where what is not reported
counts as a given value. -/
def Fits {α : Type} (asked reported : Option α) (unreported : α) : Prop :=
  ∀ v, asked = some v → reported.getD unreported = v

/-- Two texts for one address. -/
def SameText (nl : Nl) (asked reported : CAddr) : Prop :=
  asked.af = reported.af ∧ ∃ a b, nl.inetPton asked.af asked.str = some a ∧
    nl.inetPton reported.af reported.str = some b ∧
    if asked.af = afInet then a.w0 = b.w0 else a = b

/-- A query and the report on a session agree, the discriminator of the peer and
a source that is asked not to be there left aside. -/
structure AgreesElsewhere (nl : Nl) (q r : CSession) : Prop where
  multihop : Fits q.flags.multihop r.flags.multihop false
  cpi : Fits q.flags.cpi r.flags.cpi false
  passive : Fits q.flags.passive r.flags.passive false
  shutdown : Fits q.flags.shutdown r.flags.shutdown false
  discr : Fits q.discr r.discr 0
  minTxUs : Fits q.minTxUs r.minTxUs 0
  minRxUs : Fits q.minRxUs r.minRxUs 0
  holdTimeUs : Fits q.holdTimeUs r.holdTimeUs 0
  ttl : Fits q.ttl r.ttl 0
  detectMult : Fits q.detectMult r.detectMult 0
  netifIndex : Fits q.netif.ifindex r.netif.ifindex 0
  netifName : Fits q.netif.name r.netif.name ""
  vrfIndex : Fits q.vrf.netif.ifindex r.vrf.netif.ifindex 0
  vrfName : Fits q.vrf.netif.name r.vrf.netif.name ""
  vrfTable : Fits q.vrf.table r.vrf.table 0
  name : Fits q.name.val r.name.val ""
  src : q.src.af ≠ 0 → SameText nl q.src r.src
  dst : q.dst.af ≠ 0 → SameText nl q.dst r.dst
  nameUnset : q.name.unset = true → r.name.unset = true
  netifUnset : q.netif.unset = true → r.netif.unset = true
  vrfUnset : q.vrf.netif.unset = true → r.vrf.netif.unset = true

structure Agrees (nl : Nl) (q r : CSession) : Prop extends AgreesElsewhere nl q r where
  remoteDiscr : Fits q.remoteDiscr r.remoteDiscr 0
  srcUnset : q.src.unset = true → r.src.unset = true

/-- The addresses of a query can be read. -/
def Readable (nl : Nl) (q : CSession) : Prop :=
  (q.src.af ≠ 0 → (nl.inetPton q.src.af q.src.str).isSome = true) ∧
    (q.dst.af ≠ 0 → (nl.inetPton q.dst.af q.dst.str).isSome = true)

/-- Unless something else keeps a session from being selected, the peer's
discriminator the daemon knows and the one the user gave fit a query alike, and
a session with a source is not asked to have none. -/
def Aligned (nl : Nl) (ntop : Ntop) (q : CSession) (s : DSession) : Prop :=
  AgreesElsewhere nl q (sessionToC nl ntop s) →
    (Fits q.remoteDiscr (some s.remoteData.discr) 0 ↔
      Fits q.remoteDiscr (some s.userRemoteDiscr) 0 ∧ (q.src.unset = true → s.src.family = 0))

section

variable {nl : Nl} {ntop : Ntop} {q : CSession} {s : DSession}

theorem fieldMatches_iff {α : Type} [DecidableEq α] {asked reported : Option α}
    {value unreported : α} (h : reported.getD unreported = value) :
    fieldMatches asked value = true ↔ Fits asked reported unreported := by
  simp only [fieldMatches, decide_eq_true_eq, Fits, h]
  cases asked with
  | none => simp
  | some v => simp [eq_comm]

theorem getD_non0 (x : UInt32) : (non0 x).getD 0 = x := by
  unfold non0
  split_ifs with h
  · rfl
  · exact (not_not.mp h).symm

def sameBytes (af : UInt16) (a b : Addr) : Bool := if af = afInet then a.w0 = b.w0 else a = b

theorem sameBytes_iff {af : UInt16} {a b : Addr} :
    sameBytes af a b = true ↔ if af = afInet then a.w0 = b.w0 else a = b := by
  unfold sameBytes
  split <;> exact decide_eq_true_iff

theorem exists_read (hm : Faithful nl ntop) {af : UInt16} (h : IpFamily af) (addr : Addr) :
    ∃ b, nl.inetPton af (ntop af addr) = some b ∧ ∀ a, sameBytes af a b = sameBytes af a addr := by
  rcases h with rfl | rfl
  · exact ⟨_, hm.inet addr, fun a => rfl⟩
  · exact ⟨_, hm.inet6 addr, fun a => rfl⟩

theorem sessionAddrMatches_iff (hm : Faithful nl ntop) {asked : CAddr} {addr : Sockaddr}
    (hdec : asked.decoded = true)
    (hread : asked.af ≠ 0 → (nl.inetPton asked.af asked.str).isSome = true) :
    ∃ b, sessionAddrMatches nl asked addr = .ok b ∧
      (b = true ↔ (asked.af ≠ 0 → SameText nl asked (sessionToCAddr ntop addr))) := by
  by_cases h0 : asked.af = 0
  · exact ⟨true, by simp [sessionAddrMatches, h0], by simp [h0]⟩
  obtain ⟨a, ha⟩ := Option.isSome_iff_exists.mp (hread h0)
  by_cases hf : asked.af = addr.family
  swap
  · refine ⟨false, by simp [sessionAddrMatches, h0, ha, hf], nofun, fun h => ?_⟩
    obtain ⟨haf, -⟩ := h h0
    unfold sessionToCAddr at haf
    split_ifs at haf
    · exact absurd haf hf
    · exact absurd haf h0
  have hip : IpFamily asked.af := by
    simp only [CAddr.decoded, decide_eq_true_eq] at hdec
    exact hdec.resolve_left h0
  have hrep : sessionToCAddr ntop addr = ⟨false, asked.af, ntop asked.af addr.addr⟩ := by
    rw [sessionToCAddr, if_pos (hf ▸ h0), hf]
  obtain ⟨b, hb, hsame⟩ := exists_read hm hip addr.addr
  refine ⟨sameBytes asked.af a addr.addr, ?_, ?_⟩
  · rw [sessionAddrMatches, if_neg h0, ha]
    dsimp only
    rw [if_neg (not_not.mpr hf), sameBytes]
    split <;> rfl
  · rw [← hsame a, hrep]
    constructor
    · exact fun h _ => ⟨rfl, a, b, ha, hb, sameBytes_iff.mp h⟩
    · intro h
      obtain ⟨-, a', b', ha', hb', hab⟩ := h h0
      cases ha.symm.trans ha'
      cases hb.symm.trans hb'
      exact sameBytes_iff.mpr hab

theorem checked_name (hnl : nl.Coherent) (hfound : nl.Found) {netif checked : CNetif}
    (h : sessionValidateNetif nl netif = .ok checked) {name : String} (hn : checked.name = some name) :
    ∃ i, checked.ifindex = some i ∧ ((name = "" ∧ i = 0) ∨ (i ≠ 0 ∧ nl.ifIndextoname i = some name)) := by
  have hindex : ∀ {i}, nl.ifIndextoname i = some name → i ≠ 0 ∧ nl.ifIndextoname i = some name :=
    fun hi => hfound name _ (hnl _ name hi).2
  obtain ⟨unset, asked, ifindex⟩ := netif
  cases ifindex with
  | none =>
    cases asked with
    | none =>
      cases h
      cases hn
    | some given =>
      simp only [sessionValidateNetif] at h
      split_ifs at h with hempty
      · cases h
        cases hn
        exact ⟨0, rfl, .inl ⟨hempty, rfl⟩⟩
      · split at h
        · cases h
        · rename_i i hi
          cases h
          cases hn
          exact ⟨i, rfl, .inr (hfound name i hi)⟩
  | some i =>
    cases hname : nl.ifIndextoname i with
    | none => cases asked <;> simp [sessionValidateNetif, hname] at h
    | some ifname =>
      cases asked with
      | none =>
        simp only [sessionValidateNetif, hname, Except.ok.injEq] at h
        subst h
        cases hn
        exact ⟨i, rfl, .inr (hindex hname)⟩
      | some given =>
        simp only [sessionValidateNetif, hname] at h
        split_ifs at h
        split at h
        · cases h
        · split_ifs at h with hne
          cases h
          cases hn
          push Not at hne
          exact ⟨i, rfl, .inr (hindex (hne.2 ▸ hname))⟩

theorem fits_name {checked : CNetif} {ifindex : UInt32}
    (hc : ∀ name, checked.name = some name → ∃ i, checked.ifindex = some i ∧
      ((name = "" ∧ i = 0) ∨ (i ≠ 0 ∧ nl.ifIndextoname i = some name)))
    (h : Fits checked.ifindex (non0 ifindex) 0) :
    Fits checked.name (if ifindex ≠ 0 then some ((nl.ifIndextoname ifindex).getD "") else none) "" := by
  intro name hn
  obtain ⟨i, hi, hcase⟩ := hc name hn
  have he : ifindex = i := (getD_non0 ifindex).symm.trans (h i hi)
  subst he
  rcases hcase with ⟨rfl, rfl⟩ | ⟨hne, hname⟩
  · rfl
  · simp [hne, hname]

/-- What is known of a query that was decoded and checked. -/
structure Checked (nl : Nl) (q : CSession) : Prop where
  src : q.src.decoded = true
  dst : q.dst.decoded = true
  netif : ∀ name, q.netif.name = some name → ∃ i, q.netif.ifindex = some i ∧
    ((name = "" ∧ i = 0) ∨ (i ≠ 0 ∧ nl.ifIndextoname i = some name))
  vrf : ∀ name, q.vrf.netif.name = some name → ∃ i, q.vrf.netif.ifindex = some i ∧
    ((name = "" ∧ i = 0) ∨ (i ≠ 0 ∧ nl.ifIndextoname i = some name))

theorem sessionValidateVrf_netif {vrf vrf' : CVrf} (h : sessionValidateVrf nl vrf = .ok vrf') :
    sessionValidateNetif nl vrf.netif = .ok vrf'.netif := by
  unfold sessionValidateVrf at h
  cases hn : sessionValidateNetif nl vrf.netif with
  | error e => simp [hn] at h
  | ok netif =>
    simp only [hn] at h
    split at h
    · cases h
      rfl
    · split at h
      · cases h
      · split at h
        · cases h
          rfl
        · split_ifs at h
          cases h
          rfl

theorem checked_of_validated (hnl : nl.Coherent) (hfound : nl.Found) {obj : Value}
    {decoded : CSession} (hd : jrpcDissectSessionOne obj = .ok decoded)
    (hv : validateJrpc nl decoded = .ok q) : Checked nl q := by
  obtain ⟨-, hsrc, hdst, -⟩ := jrpcDissectSessionOne_decoded hd
  obtain ⟨netif, vrf, rfl, hnetif, hvrf⟩ := validated_inv hv
  refine ⟨hsrc, hdst, fun name => checked_name hnl hfound hnetif, fun name hn => ?_⟩
  rcases hvrf with ⟨-, hok⟩ | ⟨hnone, rfl⟩
  · exact checked_name hnl hfound (sessionValidateVrf_netif hok) hn
  · rw [show decoded.vrf.netif.name = some name from hn] at hnone
    exact absurd rfl hnone

theorem netif_reported (s : DSession) : (sessionToC nl ntop s).netif.ifindex = non0 s.ifindex ∧
    (sessionToC nl ntop s).netif.name =
    (if s.ifindex ≠ 0 then some ((nl.ifIndextoname s.ifindex).getD "") else none) ∧
    ((sessionToC nl ntop s).netif.unset = true ↔ s.ifindex = 0) := by
  simp only [sessionToC, non0]
  split_ifs with h
  · exact ⟨rfl, rfl, iff_of_false not_false h⟩
  · exact ⟨rfl, rfl, iff_of_true rfl (not_not.mp h)⟩

theorem vrf_reported (s : DSession) : (sessionToC nl ntop s).vrf.netif.ifindex = non0 s.vrfIfindex ∧
    (sessionToC nl ntop s).vrf.netif.name =
      (if s.vrfIfindex ≠ 0 then some ((nl.ifIndextoname s.vrfIfindex).getD "") else none) ∧
    ((sessionToC nl ntop s).vrf.netif.unset = true ↔ s.vrfIfindex = 0) ∧
    (sessionToC nl ntop s).vrf.table = non0 s.vrfTable := by
  by_cases h : s.vrfIfindex = 0 <;> simp [sessionToC, sessionToCVrf, non0, h]

theorem name_reported (s : DSession) : (sessionToC nl ntop s).name.val.getD "" = s.name ∧
    ((sessionToC nl ntop s).name.unset = true ↔ s.name = "") := by
  simp only [sessionToC]
  split_ifs with h
  · exact ⟨rfl, iff_of_false not_false h⟩
  · exact ⟨(not_not.mp h).symm, iff_of_true rfl (not_not.mp h)⟩

theorem src_reported (s : DSession) : (sessionToC nl ntop s).src.unset = true ↔ s.src.family = 0 := by
  simp only [sessionToC, sessionToCAddr]
  split_ifs with h
  · exact iff_of_false not_false h
  · exact iff_of_true rfl (not_not.mp h)

theorem not_and_iff {a : Bool} {p : Prop} [Decidable p] :
    (!(a && decide (¬ p))) = true ↔ (a = true → p) := by
  cases a <;> simp

theorem flagsMatch_reported (s : DSession) : flagsMatch q.flags s.localData.flags = true ↔
    Fits q.flags.multihop (sessionToC nl ntop s).flags.multihop false ∧
    Fits q.flags.cpi (sessionToC nl ntop s).flags.cpi false ∧
    Fits q.flags.passive (sessionToC nl ntop s).flags.passive false ∧
    Fits q.flags.shutdown (sessionToC nl ntop s).flags.shutdown false := by
  simp only [flagsMatch, Bool.and_eq_true, and_assoc]
  exact and_congr (fieldMatches_iff rfl) (and_congr (fieldMatches_iff rfl)
    (and_congr (fieldMatches_iff rfl) (fieldMatches_iff rfl)))

theorem fieldsMatch_reported (s : DSession) : fieldsMatch q s = true ↔
    (q.netif.unset = true → (sessionToC nl ntop s).netif.unset = true) ∧
    (q.vrf.netif.unset = true → (sessionToC nl ntop s).vrf.netif.unset = true) ∧
    Fits q.discr (sessionToC nl ntop s).discr 0 ∧ Fits q.detectMult (sessionToC nl ntop s).detectMult 0 ∧
    Fits q.minTxUs (sessionToC nl ntop s).minTxUs 0 ∧ Fits q.minRxUs (sessionToC nl ntop s).minRxUs 0 ∧
    Fits q.holdTimeUs (sessionToC nl ntop s).holdTimeUs 0 ∧ Fits q.ttl (sessionToC nl ntop s).ttl 0 ∧
    Fits q.netif.ifindex (sessionToC nl ntop s).netif.ifindex 0 ∧
    Fits q.vrf.netif.ifindex (sessionToC nl ntop s).vrf.netif.ifindex 0 ∧
    Fits q.vrf.table (sessionToC nl ntop s).vrf.table 0 ∧ Fits q.remoteDiscr (some s.remoteData.discr) 0 ∧
    (q.name.unset = true → (sessionToC nl ntop s).name.unset = true) ∧
    Fits q.name.val (sessionToC nl ntop s).name.val "" := by
  obtain ⟨hni, -, hnu⟩ := @netif_reported nl ntop s
  obtain ⟨hvi, -, hvu, hvt⟩ := @vrf_reported nl ntop s
  obtain ⟨hname, hnameu⟩ := @name_reported nl ntop s
  have hifindex : (sessionToC nl ntop s).netif.ifindex.getD 0 = s.ifindex := by rw [hni, getD_non0]
  have hvifindex : (sessionToC nl ntop s).vrf.netif.ifindex.getD 0 = s.vrfIfindex := by rw [hvi, getD_non0]
  have htable : (sessionToC nl ntop s).vrf.table.getD 0 = s.vrfTable := by rw [hvt, getD_non0]
  simp only [fieldsMatch, Bool.and_eq_true, and_assoc]
  refine and_congr ?_ (and_congr ?_ (and_congr (fieldMatches_iff rfl) (and_congr (fieldMatches_iff rfl)
    (and_congr (fieldMatches_iff rfl)
      (and_congr (fieldMatches_iff rfl) (and_congr (fieldMatches_iff (getD_non0 _))
    (and_congr (fieldMatches_iff rfl)
      (and_congr (fieldMatches_iff hifindex) (and_congr (fieldMatches_iff hvifindex)
    (and_congr (fieldMatches_iff htable) (and_congr (fieldMatches_iff rfl)
    (and_congr ?_ (fieldMatches_iff hname)))))))))))))
  · rw [hnu]
    exact not_and_iff
  · rw [hvu]
    exact not_and_iff
  · rw [hnameu]
    exact not_and_iff

theorem agreesElsewhere_iff (hq : Checked nl q) (s : DSession) :
    (flagsMatch q.flags s.localData.flags = true ∧ fieldsMatch q s = true ∧
      (q.src.af ≠ 0 → SameText nl q.src (sessionToC nl ntop s).src) ∧
      (q.dst.af ≠ 0 → SameText nl q.dst (sessionToC nl ntop s).dst)) ↔
    AgreesElsewhere nl q (sessionToC nl ntop s) ∧ Fits q.remoteDiscr (some s.remoteData.discr) 0 := by
  obtain ⟨hni, hnn, -⟩ := @netif_reported nl ntop s
  obtain ⟨hvi, hvn, -⟩ := @vrf_reported nl ntop s
  rw [@flagsMatch_reported nl ntop q s, @fieldsMatch_reported nl ntop q s]
  constructor
  · rintro ⟨⟨h₁, h₂, h₃, h₄⟩, ⟨hn, hv, hd, hdm, htx, hrx, hht, httl, hi, hvi', ht, hr, hu, hnm⟩, hs, hdst⟩
    refine ⟨⟨h₁, h₂, h₃, h₄, hd, htx, hrx, hht, httl, hdm, hi, ?_, hvi', ?_, ht, hnm, hs, hdst, hu, hn, hv⟩, hr⟩
    · rw [hnn]
      exact fits_name hq.netif (hni ▸ hi)
    · rw [hvn]
      exact fits_name hq.vrf (hvi ▸ hvi')
  · rintro ⟨ha, hr⟩
    exact ⟨⟨ha.multihop, ha.cpi, ha.passive, ha.shutdown⟩,
      ⟨ha.netifUnset, ha.vrfUnset, ha.discr, ha.detectMult, ha.minTxUs, ha.minRxUs, ha.holdTimeUs,
        ha.ttl, ha.netifIndex,
        ha.vrfIndex, ha.vrfTable, hr, ha.nameUnset, ha.name⟩, ha.src, ha.dst⟩

theorem sessionMatches_iff (hm : Faithful nl ntop) (hq : Checked nl q) (hr : Readable nl q) (s : DSession) :
    ∃ b, sessionMatches nl q s = .ok b ∧ (b = true ↔
      AgreesElsewhere nl q (sessionToC nl ntop s) ∧ Fits q.remoteDiscr (some s.remoteData.discr) 0) := by
  obtain ⟨bs, hs, hsiff⟩ := @sessionAddrMatches_iff nl ntop hm q.src s.src hq.src hr.1
  obtain ⟨bd, hd, hdiff⟩ := @sessionAddrMatches_iff nl ntop hm q.dst s.dst hq.dst hr.2
  refine ⟨flagsMatch q.flags s.localData.flags && bs && bd && fieldsMatch q s, ?_, ?_⟩
  · rw [sessionMatches, hs, hd]
    cases flagsMatch q.flags s.localData.flags <;> cases bs <;> cases bd <;> rfl
  · rw [← @agreesElsewhere_iff nl ntop q hq s]
    simp only [Bool.and_eq_true, hsiff, hdiff]
    tauto

theorem selectSessions_matches {sessions : List DSession}
    (h : ∀ s ∈ sessions, ∃ b, sessionMatches nl q s = .ok b) :
    ∃ discrs, selectSessions nl q sessions = .ok discrs ∧
      ∀ d, d ∈ discrs ↔ ∃ s ∈ sessions, s.localData.discr = d ∧ sessionMatches nl q s = .ok true := by
  induction sessions with
  | nil => exact ⟨[], rfl, fun d => by simp⟩
  | cons s rest ih =>
    obtain ⟨discrs, hsel, hmem⟩ := ih (fun s hs => h s (List.mem_cons_of_mem _ hs))
    obtain ⟨b, hb⟩ := h s List.mem_cons_self
    cases b with
    | false =>
      refine ⟨discrs, by simp [selectSessions, hb, hsel], fun d => ?_⟩
      rw [hmem]
      simp [hb]
    | true =>
      refine ⟨s.localData.discr :: discrs, by simp [selectSessions, hb, hsel, Except.map], fun d => ?_⟩
      rw [List.mem_cons, hmem]
      simp [hb, eq_comm]

theorem matches_agrees_iff (hm : Faithful nl ntop) (hq : Checked nl q) (hr : Readable nl q) (s : DSession) :
    (sessionMatches nl q s = .ok true ↔ Agrees nl q (sessionToC nl ntop s)) ↔ Aligned nl ntop q s := by
  obtain ⟨b, hb, hiff⟩ := sessionMatches_iff hm hq hr s
  have hagrees : Agrees nl q (sessionToC nl ntop s) ↔ AgreesElsewhere nl q (sessionToC nl ntop s) ∧
      Fits q.remoteDiscr (some s.userRemoteDiscr) 0 ∧ (q.src.unset = true → s.src.family = 0) := by
    have hremote : Fits q.remoteDiscr (sessionToC nl ntop s).remoteDiscr 0 ↔ Fits q.remoteDiscr
      (some s.userRemoteDiscr) 0 := by
      simp only [Fits, show (sessionToC nl ntop s).remoteDiscr.getD 0 = s.userRemoteDiscr
        from getD_non0 _, Option.getD_some]
    constructor
    · exact fun ha => ⟨ha.toAgreesElsewhere, hremote.mp ha.remoteDiscr, fun hu =>
        src_reported s |>.mp (ha.srcUnset hu)⟩
    · rintro ⟨ha, hrd, hu⟩
      exact ⟨ha, hremote.mpr hrd, fun h => (src_reported s).mpr (hu h)⟩
  rw [hb, Except.ok.injEq, hiff, hagrees, Aligned]
  exact and_congr_right_iff

end

/-- A query selects just the sessions that are shown as it asks, each once, if
the two ways a match may differ from what is shown make no difference. -/
theorem select_shown {nl : Nl} {ntop : Ntop} {obj : Value} {decoded q : CSession}
    (hm : Faithful nl ntop) (hnl : nl.Coherent) (hfound : nl.Found)
    (hd : jrpcDissectSessionOne obj = .ok decoded) (hv : validateJrpc nl decoded = .ok q)
    (hr : Readable nl q) :
    (∀ s, (sessionMatches nl q s = .ok true ↔ Agrees nl q (sessionToC nl ntop s)) ↔ Aligned nl ntop q s) ∧
    ∀ sessions : List DSession, (sessions.map (·.localData.discr)).Nodup →
      ∃ discrs, selectSessions nl q sessions = .ok discrs ∧ discrs.Nodup ∧
        ((∀ d, d ∈ discrs ↔ ∃ s ∈ sessions, s.localData.discr = d ∧ Agrees nl q (sessionToC nl ntop s)) ↔
          ∀ s ∈ sessions, Aligned nl ntop q s) := by
  have hq := checked_of_validated hnl hfound hd hv
  refine ⟨matches_agrees_iff hm hq hr, fun sessions hn => ?_⟩
  obtain ⟨discrs, hsel, hmem⟩ := @selectSessions_matches nl q sessions (fun s _ => by
    obtain ⟨b, hb, -⟩ := sessionMatches_iff hm hq hr s
    exact ⟨b, hb⟩)
  refine ⟨discrs, hsel, (selectSessions_sublist hsel).nodup hn, ?_⟩
  -- a discriminator stands for one session, so that what holds of it holds of the session
  have hone : ∀ {P : DSession → Prop} {s}, s ∈ sessions →
    ((∃ s' ∈ sessions, s'.localData.discr = s.localData.discr ∧ P s') ↔ P s) := by
    intro P s hs
    constructor
    · rintro ⟨s', hs', he, hp⟩
      exact List.inj_on_of_nodup_map hn hs' hs he ▸ hp
    · exact fun hp => ⟨s, hs, rfl, hp⟩
  constructor
  · intro h s hs
    apply (matches_agrees_iff hm hq hr s).mp
    have hd := h s.localData.discr
    rwa [hmem, hone hs, hone hs] at hd
  · intro h d
    rw [hmem]
    constructor
    · rintro ⟨s, hs, rfl, hp⟩
      exact ⟨s, hs, rfl, ((matches_agrees_iff hm hq hr s).mpr (h s hs)).mp hp⟩
    · rintro ⟨s, hs, rfl, hp⟩
      exact ⟨s, hs, rfl, ((matches_agrees_iff hm hq hr s).mpr (h s hs)).mpr hp⟩

theorem tally_coherent : tallyNl.Coherent := by
  intro i name h
  simp only [tallyNl] at h ⊢
  split_ifs at h with h₁ h₂ <;> cases h
  · simp [h₁]
  · simp [h₂]

theorem tally_found : tallyNl.Found := by
  intro name i h
  simp only [tallyNl] at h ⊢
  split_ifs at h with h₁ h₂ <;> cases h
  · simp [h₁]
  · simp [h₂]

def overEth0 : Value := .obj [("netif_index", .int 2), ("name", .null)]

def twoSessions : List DSession := [{ newSession 5 50000 with ifindex := 2 }, newSession 6 50001]

theorem select_shown_eth0 : ∃ q, selectSessions tallyNl q twoSessions = .ok [5] ∧
    ∀ d, d ∈ [5] ↔ ∃ s ∈ twoSessions, s.localData.discr = d ∧ Agrees tallyNl q
      (sessionToC tallyNl tallyNtop s) := by
  obtain ⟨decoded, hd, hdec⟩ := @exists_decoded _ overEth0 id
    { CSession.blank with netif := ⟨false, none, some 2⟩, name := ⟨true, none⟩ } (by decide +kernel)
  have hv : validateJrpc tallyNl decoded = .ok { decoded with netif := ⟨false, some "eth0", some 2⟩ } := by
    subst hdec
    rfl
  have hr : Readable tallyNl { decoded with netif := ⟨false, some "eth0", some 2⟩ } :=
    ⟨fun _ => rfl, fun _ => rfl⟩
  have hfive : selectSessions tallyNl { decoded with netif := ⟨false, some "eth0", some 2⟩ }
    twoSessions = .ok [5] := by
    subst hdec
    rfl
  obtain ⟨-, hsel⟩ := select_shown tally_faithful tally_coherent tally_found hd hv hr
  obtain ⟨discrs, hok, -, hiff⟩ := hsel twoSessions (by decide)
  cases hfive.symm.trans hok
  refine ⟨_, hfive, hiff.mpr (fun s _ _ => ?_)⟩
  subst hdec
  simp [Fits, CSession.blank]

def noSource : CSession := { CSession.blank with src := ⟨true, 0, ""⟩ }

def peerSeven : CSession := { CSession.blank with remoteDiscr := some 7 }

def Event.addFrom : Event :=
  .add ⟨{ CSession.blank with
    src := ⟨false, afInet, "10.0.0.2"⟩, dst := ⟨false, afInet, "10.0.0.1"⟩, discr := some 5 },
      ⟨rfl, rfl, rfl, rfl⟩⟩ []

/-- A session with a source matches a query for none, and one of which only the
daemon knows the peer matches a query for the peer the user gave. -/
theorem select_unshown :
    (jrpcDissectSessionOne (.obj [("src", .null)]) = .ok noSource ∧ validateJrpc .plain noSource = .ok noSource ∧
      ∃ w c, Reachable daemon w ∧ w.session 5 = some c ∧ sessionMatches .plain noSource c.dsess = .ok true ∧
        (sessionToC .plain tallyNtop c.dsess).src.unset = false) ∧
    (jrpcDissectSessionOne (.obj [("remote_discr", .int 7)]) = .ok peerSeven ∧
      validateJrpc .plain peerSeven = .ok peerSeven ∧
      ∃ w c, Reachable daemon w ∧ w.session 5 = some c ∧ sessionMatches .plain peerSeven c.dsess = .ok true ∧
        (sessionToC .plain tallyNtop c.dsess).remoteDiscr = none) := by
  refine ⟨⟨by decide +kernel, rfl, ?_⟩, by decide +kernel, rfl, ?_⟩
  · exact exists_replayed (inPlain [.addFrom]) (by decide +kernel)
  · exact exists_replayed (inPlain bringUp) (by decide +kernel)

end Bbdd.Daemon
