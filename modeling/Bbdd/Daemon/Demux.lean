import Bbdd.Daemon.Replay

namespace Bbdd.Daemon

open Lib.Program Lib.Transition Lib.Directory Packet Session Prog Datapath

def sockaddrEq (sa sb : Sockaddr) : Except String Bool :=
  if sa.family ≠ sb.family then .ok false
  else if sa.family = afInet then .ok (sa.addr.w0 = sb.addr.w0)
  else if sa.family = afInet6 then .ok (sa.addr = sb.addr)
  else .error s!"Unsupported address family {sa.family}"

/-- An end of a session against an end of a packet. An address that is not set
does not keep any packet out. -/
def endMatches (ss pk : Sockaddr) : Except String Bool :=
  if ss.family = 0 then .ok true
  else if ss.family ≠ pk.family then .ok false
  else sockaddrEq ss pk

/-- One turn of the loop over the sessions: `nmatch` and `*ret_dsess` stay, or
the session is one more match and the last one. -/
def matchTurn (digest : MatchDigest) (found : Nat × Option DSession) (dsess : DSession) :
    Except String (Nat × Option DSession) :=
  if digest.multihop ≠ dsess.localData.flags.multihop then .ok found
  else if dsess.ifindex ≠ 0 ∧ digest.ifindex ≠ 0 ∧ dsess.ifindex ≠ digest.ifindex then .ok found
  else if dsess.vrfTable ≠ digest.table then .ok found
  else if digest.ttl < dsess.ttl then .ok found
  else if dsess.userRemoteDiscr ≠ 0 ∧ digest.myDisc ≠ dsess.userRemoteDiscr then .ok found
  else
    match endMatches dsess.src digest.dst with
    | .error e => .error e
    | .ok false => .ok found
    | .ok true =>
      match endMatches dsess.dst digest.src with
      | .error e => .error e
      | .ok false => .ok found
      | .ok true => .ok (found.1 + 1, some dsess)

/-- `bbdd_d_match_session` over the sessions in the order of the directory. -/
def dMatchSession (sessions : List DSession) (digest : MatchDigest) :
    Except String (Nat × Option DSession) :=
  sessions.foldlM (matchTurn digest) (0, none)

/-- A packet without a discriminator, as the program hands it on. -/
structure Discr0 where
  ifindex : UInt32
  wireLen : UInt32
  ethtype : UInt16
  ttl : UInt8
  multihop : Bool
  saddr : Addr
  daddr : Addr
  packet : BfdPkt

def Discr0.elem (p : Discr0) : RbElem :=
  .rxDiscr0 p.ifindex p.wireLen p.ethtype p.ttl p.multihop p.saddr p.daddr p.packet

def Discr0.digest (nl : Nl) (p : Discr0) : Except String MatchDigest :=
  discr0Digest nl p.ifindex p.ethtype p.ttl p.multihop p.saddr p.daddr p.packet

/-- What becomes of such a packet. -/
inductive Verdict
  | failed (error : String)
  | noUnique
  | handed (dsess : DSession)
  | asserted

/-- `bbdd_bpf_rb_handle_discr_0`, up to the call of `bbdd_bpf_handle_packet`. -/
def discr0Verdict (nl : Nl) (sessions : List DSession) (p : Discr0) : Verdict :=
  match p.digest nl with
  | .error e => .failed e
  | .ok digest =>
    match dMatchSession sessions digest with
    | .error e => .failed e
    | .ok (nmatch, dsess) =>
      if nmatch ≠ 1 then .noUnique
      else
        match dsess with
        | none => .asserted
        | some dsess => .handed dsess

def Verdict.act (p : Discr0) : Verdict → Cmd Unit
  | .failed e => outputWorld (.senderr "`your_discr' of 0" e)
  | .noUnique => update (fun w => w.setBpf (w.bpf.bump .rxNoUniqueSession))
  | .handed dsess => packetFor (some dsess) p.packet p.wireLen p.ttl
  | .asserted => crash .noSession

def SameEnd (ss pk : Sockaddr) : Prop :=
  ss.family = pk.family ∧ (ss.family = afInet → ss.addr.w0 = pk.addr.w0) ∧
    (ss.family = afInet6 → ss.addr = pk.addr)

/-- A session that a packet can be for. -/
structure Compatible (digest : MatchDigest) (dsess : DSession) : Prop where
  hops : dsess.localData.flags.multihop = digest.multihop
  netif : dsess.ifindex = 0 ∨ digest.ifindex = 0 ∨ dsess.ifindex = digest.ifindex
  table : dsess.vrfTable = digest.table
  ttl : dsess.ttl ≤ digest.ttl
  peer : dsess.userRemoteDiscr = 0 ∨ digest.myDisc = dsess.userRemoteDiscr
  src : dsess.src.family = 0 ∨ SameEnd dsess.src digest.dst
  dst : SameEnd dsess.dst digest.src

section

variable {digest : MatchDigest} {dsess : DSession} {ss pk : Sockaddr}

theorem sameAddr_iff (h : IpFamily ss.family) : sameAddr ss pk = true ↔ SameEnd ss pk := by
  have hne : afInet6 ≠ afInet := by decide
  rcases h with h | h
  · simp [sameAddr, SameEnd, h, hne.symm]
  · simp [sameAddr, SameEnd, h, hne]

theorem endMatches_eq (h : ss.family = 0 ∨ IpFamily ss.family) :
    endMatches ss pk = .ok (decide (ss.family = 0) || sameAddr ss pk) := by
  by_cases h0 : ss.family = 0
  · simp [endMatches, h0]
  · by_cases hf : ss.family = pk.family
    · have hne : afInet6 ≠ afInet := by decide
      rw [endMatches, if_neg h0, if_neg (not_not.mpr hf), sockaddrEq, if_neg (not_not.mpr hf),
        decide_eq_false h0]
      rcases h.resolve_left h0 with h | h
      · simp [sameAddr, hf, hf.symm.trans h]
      · simp [sameAddr, hf, hf.symm.trans h, hne]
    · simp [endMatches, sameAddr, h0, hf]

theorem matchTurn_eq (h : Addressed dsess) (found : Nat × Option DSession) :
    matchTurn digest found dsess = .ok
      (if sessionCompatible digest dsess then (found.1 + 1, some dsess) else found) := by
  have hsrc : dsess.src.family = 0 ∨ IpFamily dsess.src.family := by
    rcases h.2 with h0 | he
    · exact .inl h0
    · rw [he]
      exact .inr h.1
  rw [matchTurn, endMatches_eq hsrc, endMatches_eq (.inr h.1)]
  unfold sessionCompatible
  by_cases h₁ : digest.multihop = dsess.localData.flags.multihop
  swap
  · simp [h₁]
  by_cases h₂ : dsess.ifindex ≠ 0 ∧ digest.ifindex ≠ 0 ∧ dsess.ifindex ≠ digest.ifindex
  · simp [h₁, h₂]
  by_cases h₃ : dsess.vrfTable = digest.table
  swap
  · simp [h₁, h₂, h₃]
  by_cases h₄ : digest.ttl < dsess.ttl
  · simp [h₁, h₂, h₃, h₄]
  by_cases h₅ : dsess.userRemoteDiscr ≠ 0 ∧ digest.myDisc ≠ dsess.userRemoteDiscr
  · simp [h₁, h₂, h₃, h₄, h₅]
  simp only [h₁, h₂, h₃, h₄, h₅, ne_eq, not_true_eq_false, if_false, decide_true, decide_false,
    Bool.not_false, Bool.true_and]
  cases (decide (dsess.src.family = 0) || sameAddr dsess.src digest.dst) with
  | false => rfl
  | true => cases (decide (dsess.dst.family = 0) || sameAddr dsess.dst digest.src) <;> rfl

theorem matchTurns_eq {sessions : List DSession} (h : ∀ s ∈ sessions, Addressed s) (n : Nat)
    (last : Option DSession) :
    sessions.foldlM (matchTurn digest) (n, last) =
      .ok (n + (sessions.filter (sessionCompatible digest)).length,
        (sessions.filter (sessionCompatible digest)).getLast?.or last) := by
  induction sessions generalizing n last with
  | nil => rfl
  | cons s rest ih =>
    have hrest : ∀ s ∈ rest, Addressed s := fun s hs => h s (List.mem_cons_of_mem _ hs)
    rw [List.foldlM_cons, matchTurn_eq (h s List.mem_cons_self)]
    change List.foldlM _ _ rest = _
    by_cases hs : sessionCompatible digest s = true
    · rw [if_pos hs, ih hrest, List.filter_cons_of_pos hs, List.length_cons, List.getLast?_cons]
      congr 2
      · omega
      · cases (rest.filter (sessionCompatible digest)).getLast? <;> rfl
    · rw [if_neg hs, ih hrest, List.filter_cons_of_neg hs]

theorem sessionCompatible_iff (h : Addressed dsess) :
    sessionCompatible digest dsess = true ↔ Compatible digest dsess := by
  have hsrc : dsess.src.family ≠ 0 → (sameAddr dsess.src digest.dst = true ↔ SameEnd dsess.src digest.dst) :=
    fun h0 => sameAddr_iff (h.2.resolve_left h0 ▸ h.1)
  have hdst : sameAddr dsess.dst digest.src = true ↔ SameEnd dsess.dst digest.src := sameAddr_iff h.1
  have hdst0 : dsess.dst.family ≠ 0 := IpFamily.ne_zero h.1
  unfold sessionCompatible
  simp only [Bool.and_eq_true, Bool.or_eq_true, Bool.not_eq_true', decide_eq_true_eq,
    decide_eq_false_iff_not, hdst, hdst0,
    false_or]
  constructor
  · rintro ⟨⟨⟨⟨⟨⟨h₁, h₂⟩, h₃⟩, h₄⟩, h₅⟩, h₆⟩, h₇⟩
    refine ⟨h₁.symm, ?_, h₃, UInt8.not_lt.mp h₄, ?_, ?_, h₇⟩
    · by_contra hno
      push Not at hno
      exact h₂ hno
    · by_contra hno
      push Not at hno
      exact h₅ hno
    · by_cases h0 : dsess.src.family = 0
      · exact .inl h0
      · exact .inr ((hsrc h0).mp (h₆.resolve_left h0))
  · intro hc
    refine ⟨⟨⟨⟨⟨⟨hc.hops.symm, ?_⟩, hc.table⟩, UInt8.not_lt.mpr hc.ttl⟩, ?_⟩, ?_⟩, hc.dst⟩
    · rintro ⟨h₁, h₂, h₃⟩
      exact h₃ ((hc.netif.resolve_left h₁).resolve_left h₂)
    · rintro ⟨h₁, h₂⟩
      exact h₂ (hc.peer.resolve_left h₁)
    · by_cases h0 : dsess.src.family = 0
      · exact .inl h0
      · exact .inr ((hsrc h0).mpr (hc.src.resolve_left h0))

def Discr0.Ip (p : Discr0) : Prop := p.ethtype = ethPIp ∨ p.ethtype = ethPIpv6

def Discr0.endOf (p : Discr0) (addr : Addr) : Sockaddr :=
  if p.ethtype = ethPIp then ⟨afInet, 0, ⟨addr.w0, 0, 0, 0⟩⟩ else ⟨afInet6, 0, addr⟩

def Discr0.facts (p : Discr0) (table : UInt32) : MatchDigest :=
  ⟨if table ≠ 0 then 0 else p.ifindex, p.ttl, p.multihop, table, ntoh32 p.packet.myDisc,
    p.endOf p.saddr, p.endOf p.daddr⟩

theorem Discr0.digest_eq {nl : Nl} {p : Discr0} {table : UInt32} (hp : p.Ip)
    (ht : nl.ifinfoTable p.ifindex = .ok table) :
    p.digest nl = .ok (p.facts table) := by
  have hne : ethPIpv6 ≠ ethPIp := by decide
  rcases hp with h | h <;> simp [Discr0.digest, discr0Digest, ht, addrToSockaddr, h, hne,
    Discr0.facts, Discr0.endOf]

theorem discr0Verdict_eq {nl : Nl} {p : Discr0} {sessions : List DSession} (hd : p.digest nl = .ok digest)
    (h : ∀ s ∈ sessions, Addressed s) : discr0Verdict nl sessions p =
      match sessions.filter (sessionCompatible digest) with
      | [s] => .handed s
      | _ => .noUnique := by
  simp only [discr0Verdict, hd, dMatchSession, matchTurns_eq h, Nat.zero_add, Option.or_none]
  match sessions.filter (sessionCompatible digest) with
  | [] => rfl
  | [s] => rfl
  | s :: s' :: rest => simp

theorem discr0Verdict_handed {nl : Nl} {p : Discr0} {sessions : List DSession}
    (hd : p.digest nl = .ok digest) (h : ∀ s ∈ sessions, Addressed s) :
    discr0Verdict nl sessions p = .handed dsess ↔ sessions.filter (sessionCompatible digest) = [dsess] := by
  rw [discr0Verdict_eq hd h]
  constructor
  · intro hv
    split at hv
    · rename_i s hs
      cases hv
      exact hs
    · cases hv
  · intro hs
    rw [hs]

theorem filter_eq_singleton {α : Type} {xs : List α} {p : α → Bool} {a : α} (hn : xs.Nodup) :
    xs.filter p = [a] ↔ a ∈ xs ∧ p a = true ∧ ∀ b ∈ xs, p b = true → b = a := by
  constructor
  · intro h
    have hmem : ∀ b, b ∈ xs ∧ p b = true ↔ b = a := by
      intro b
      rw [← List.mem_filter, h, List.mem_singleton]
    obtain ⟨ha, hp⟩ := (hmem a).mpr rfl
    exact ⟨ha, hp, fun b hb hpb => (hmem b).mp ⟨hb, hpb⟩⟩
  · rintro ⟨ha, hp, hall⟩
    apply List.perm_singleton.mp
    apply (List.perm_ext_iff_of_nodup (hn.filter p) (List.nodup_singleton a)).mpr
    intro b
    rw [List.mem_filter, List.mem_singleton]
    constructor
    · exact fun hb => hall b hb.1 hb.2
    · rintro rfl
      exact ⟨ha, hp⟩

theorem discr0Verdict_perm {nl : Nl} {p : Discr0} {sessions sessions' : List DSession}
    (hd : p.digest nl = .ok digest) (h : ∀ s ∈ sessions, Addressed s)
    (hperm : sessions'.Perm sessions) :
    discr0Verdict nl sessions' p = discr0Verdict nl sessions p := by
  have h' : ∀ s ∈ sessions', Addressed s := fun s hs => h s (hperm.mem_iff.mp hs)
  have hf : (sessions'.filter (sessionCompatible digest)).Perm (sessions.filter (sessionCompatible digest)) :=
    hperm.filter _
  rw [discr0Verdict_eq hd h, discr0Verdict_eq hd h']
  match hs : sessions.filter (sessionCompatible digest) with
  | [] =>
    rw [hs] at hf
    rw [hf.eq_nil]
  | [s] =>
    rw [hs] at hf
    rw [List.perm_singleton.mp hf]
  | s :: s' :: rest =>
    have hlen := hf.length_eq
    rw [hs, List.length_cons, List.length_cons] at hlen
    match hs' : sessions'.filter (sessionCompatible digest) with
    | [] => simp [hs'] at hlen
    | [t] => simp [hs'] at hlen
    | t :: t' :: rest' => rfl

theorem rbHandle_discr0 (nl : Nl) (p : Discr0) {w : World} (h : ∀ s ∈ w.sdir.values, Addressed s) :
    rbHandle nl p.elem w = (discr0Verdict nl w.sdir.values p).act p w := by
  change (match p.digest nl with
    | .error e => outputWorld (.senderr "`your_discr' of 0" e)
    | .ok digest => do
      let w ← read
      match matchSession w digest with
      | [dsess] => packetFor (some dsess) p.packet p.wireLen p.ttl
      | _ => update (fun w => w.setBpf (w.bpf.bump .rxNoUniqueSession)) : Cmd Unit) w = _
  cases hd : p.digest nl with
  | error e => simp only [discr0Verdict, hd, Verdict.act]
  | ok digest =>
    rw [discr0Verdict_eq hd h]
    change (match matchSession w digest with
      | [dsess] => packetFor (some dsess) p.packet p.wireLen p.ttl
      | _ => update (fun w => w.setBpf (w.bpf.bump .rxNoUniqueSession)) : Cmd Unit) w = _
    unfold matchSession
    match w.sdir.values.filter (sessionCompatible digest) with
    | [] => rfl
    | [s] => rfl
    | s :: s' :: rest => rfl

theorem Sound.all_addressed {w : World} (hw : Sound w) : ∀ s ∈ w.sdir.values, Addressed s := by
  intro s hs
  obtain ⟨k, hk⟩ := Dir.mem_values.mp hs
  obtain ⟨b, -, hc⟩ := hw.find hk
  exact (hw.session k _ hc).addressed

end

/-- A packet with no discriminator goes to the one session it can be for. If
there is none, or more than one, it goes to no session, and the order of the
sessions does not matter. -/
theorem discr0_unique {nl : Nl} {p : Discr0} {w : World} {table : UInt32} (hp : p.Ip)
    (ht : nl.ifinfoTable p.ifindex = .ok table)
    (hkey : ∀ k s, w.sdir.find k = some s → s.localData.discr = k)
    (hs : ∀ s ∈ w.sdir.values, Addressed s) :
    rbHandle nl p.elem w = (discr0Verdict nl w.sdir.values p).act p w ∧
    (∀ s, discr0Verdict nl w.sdir.values p = .handed s ↔
      s ∈ w.sdir.values ∧ Compatible (p.facts table) s ∧ ∀ s' ∈ w.sdir.values, Compatible
        (p.facts table) s' → s' = s) ∧
    (∀ sessions, sessions.Perm w.sdir.values → discr0Verdict nl sessions p = discr0Verdict nl w.sdir.values p) ∧
    ((¬ ∃ s, discr0Verdict nl w.sdir.values p = .handed s) → ∃ w', rbHandle nl p.elem w = .ok ((), w') ∧
      w'.sdir = w.sdir ∧ w'.bsdir = w.bsdir) := by
  have hd := Discr0.digest_eq hp ht
  have hnodup : w.sdir.values.Nodup := by
    apply List.Nodup.of_map (fun s => s.localData.discr)
    rw [Dir.map_values hkey]
    exact w.sdir.nodup
  refine ⟨rbHandle_discr0 nl p hs, fun s => ?_, fun sessions hperm =>
    discr0Verdict_perm hd hs hperm, fun hno => ?_⟩
  · rw [discr0Verdict_handed hd hs, filter_eq_singleton hnodup]
    constructor
    · rintro ⟨hm, hc, hall⟩
      exact ⟨hm, (sessionCompatible_iff (hs s hm)).mp hc, fun s' hs' hc' =>
        hall s' hs' ((sessionCompatible_iff (hs s' hs')).mpr hc')⟩
    · rintro ⟨hm, hc, hall⟩
      exact ⟨hm, (sessionCompatible_iff (hs s hm)).mpr hc, fun s' hs' hc' =>
        hall s' hs' ((sessionCompatible_iff (hs s' hs')).mp hc')⟩
  · have hnone : discr0Verdict nl w.sdir.values p = .noUnique := by
      rw [discr0Verdict_eq hd hs] at hno ⊢
      split
      · rename_i s hf
        exact absurd ⟨s, by rw [hf]⟩ hno
      · rfl
    rw [rbHandle_discr0 nl p hs, hnone]
    exact ⟨_, rfl, rfl, rfl⟩

def firstPacket : Discr0 := ⟨4, 66, ethPIp, 255, false, ⟨1, 0, 0, 0⟩, ⟨2, 0, 0, 0⟩, makePacket 7
    defaultTiming ⟨.down, .nothing⟩ 0 0⟩

theorem discr0_unique_five : ∃ w s, Reachable daemon w ∧ s.localData.discr = 5 ∧
    discr0Verdict .plain w.sdir.values firstPacket = .handed s := by
  obtain ⟨w, c, hr, hc, hkeys, hcomp⟩ := exists_replayed (inPlain [.addFive none none])
    (P := fun w c => w.sdir.keys = [5] ∧ sessionCompatible (firstPacket.facts 0) c.dsess = true)
    (by decide +kernel)
  have hw := reachable_sound hr
  have hfind := (session_eq_some.mp hc).1
  have hmem : c.dsess ∈ w.sdir.values := Dir.mem_values.mpr ⟨5, hfind⟩
  refine ⟨w, c.dsess, hr, hw.discr_of_find hfind, ?_⟩
  apply ((@discr0_unique .plain firstPacket w 0 (.inl rfl) rfl (fun _ _ => hw.discr_of_find)
    hw.all_addressed).2.1 c.dsess).mpr
  refine ⟨hmem, (sessionCompatible_iff (hw.all_addressed _ hmem)).mp hcomp, fun s hs _ => ?_⟩
  obtain ⟨k, hk⟩ := Dir.mem_values.mp hs
  have hk5 : k ∈ w.sdir.keys := (w.sdir.sound k).mpr (by simp [hk])
  rw [hkeys, List.mem_singleton] at hk5
  rw [hk5, hfind] at hk
  exact (Option.some.inj hk).symm

end Bbdd.Daemon
