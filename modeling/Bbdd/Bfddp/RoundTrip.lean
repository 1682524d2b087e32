import Bbdd.Bfddp.Message

namespace Bbdd.Bfddp

open Lib.Program Lib.Wire Packet Session Daemon

/-- What the system is relied on for: names of interfaces are strings that fit
their buffers, and an address that was written can be read. -/
structure Faithful (nl : Nl) (ntop : Ntop) : Prop where
  name : ∀ i name, nl.ifIndextoname i = some name → name ≠ "" ∧ name.utf8ByteSize < ifNameSize ∧ 0 ∉ bytesOf name
  inet : ∀ a, nl.inetPton afInet (ntop afInet a) = some ⟨a.w0, 0, 0, 0⟩
  inet6 : ∀ a, nl.inetPton afInet6 (ntop afInet6 a) = some a
  short : ∀ str a, nl.inetPton afInet str = some a → a = ⟨a.w0, 0, 0, 0⟩

def nameOf (nl : Nl) (ifindex : UInt32) : Option String :=
  if ifindex = 0 then none else nl.ifIndextoname ifindex

structure Denotes (nl : Nl) (addr : CAddr) (sa : Sockaddr) : Prop where
  set : addr.unset = false
  af : addr.af = sa.family
  str : nl.inetPton addr.af addr.str = some sa.addr

/-- What was read is what the session has, its VRF aside. -/
structure Conveyed (nl : Nl) (dsess : DSession) (read : CSession) : Prop where
  discr : read.discr = some dsess.localData.discr
  dst : Denotes nl read.dst dsess.dst
  src : if dsess.src.family = 0 ∨ dsess.src.addr = .zero then read.src.unset = true ∧ read.src.af = 0
    else Denotes nl read.src dsess.src
  flags : read.flags = ⟨some dsess.localData.flags.multihop, some dsess.localData.flags.cpi,
    some dsess.localData.flags.passive, some dsess.localData.flags.shutdown⟩
  minTxUs : read.minTxUs = some dsess.localData.timing.minTxUs
  minRxUs : read.minRxUs = some dsess.localData.timing.minRxUs
  detectMult : read.detectMult = some dsess.localData.timing.detectMult
  ttl : read.ttl = some dsess.ttl
  netif : read.netif = if dsess.ifindex = 0 then ⟨true, none, none⟩
    else ⟨false, nl.ifIndextoname dsess.ifindex, some dsess.ifindex⟩
  holdTimeUs : read.holdTimeUs = some (dsess.holdTimeUs / 1000 * 1000)

structure RoundTrip (nl : Nl) (dsess : DSession) (msg : Bytes) (read : CSession) :
    Prop extends Conveyed nl dsess read where
  vrfName : read.vrf.netif.name = nameOf nl dsess.vrfIfindex
  vrfTable : read.vrf.table = non0 dsess.vrfTable
  carried : dsess.vrfIfindex ≠ 0 ∨ dsess.vrfTable ≠ 0 → (ntoh16 (header.get msg).length).toNat = cmlLen

def TableGiven (vrf : CVrf) : Prop :=
  vrf.netif.unset = false → vrf.netif.ifindex.getD 0 ≠ 0 → vrf.table.isSome = true

section

variable {nl : Nl} {ntop : Ntop} {strerror : String} {stack : Addr} {csess : CSession}
    {msgId : UInt16} {msg : Bytes}
  {dsess : DSession}

theorem addHeader_length : (ntoh16 (addHeader dsess msgId).length).toNat = if dsess.vrfTable ≠ 0
    then cmlLen else stdLen := by
  simp only [addHeader, ntoh16_hton16]
  split <;> decide

theorem writeEnqueue_eq (data : BfddpSessionCumulus) : writeEnqueue (addHeader dsess msgId) data =
    header.put (addHeader dsess msgId) ++ if dsess.vrfTable ≠ 0 then sessionCumulus.put data
      else session.put data.session := by
  rw [writeEnqueue, addHeader_length]
  split
  · exact List.take_of_length_le (by simp [cmlLen])
  · have hput : sessionCumulus.put data = session.put data.session ++
      (word.put data.vrfId ++ (chars 36).put data.vrfname) := rfl
    rw [hput, ← List.append_assoc, List.take_left' (by simp [stdLen])]

theorem header_writeEnqueue (data : BfddpSessionCumulus) :
    header.get (writeEnqueue (addHeader dsess msgId) data) = addHeader dsess msgId := by
  rw [writeEnqueue_eq, header.get_put_append]

theorem bfddSessionToC_congr {a b : BfddpSessionCumulus} (hs : a.session = b.session)
    (hv : readVrf a = readVrf b) :
    bfddSessionToC ntop a = bfddSessionToC ntop b := by
  simp only [bfddSessionToC, hs, hv]

theorem msgToC_writeEnqueue (src dst : Addr) (ifname : Chars 64) (vrfname : Chars 36) :
    bfddSessionMsgToC ntop (writeEnqueue (addHeader dsess msgId) (addData dsess src dst ifname vrfname)) =
      bfddSessionToC ntop (addData dsess src dst ifname vrfname) := by
  have hdrop (rest : Bytes) : (header.put (addHeader dsess msgId) ++ rest).drop header.size = rest :=
    List.drop_left' (header.length_put _)
  have htype : ntoh16 (addHeader dsess msgId).type = dpAddSession := ntoh16_hton16 _
  have hlen : (ntoh16 (addHeader dsess msgId).length).toNat = if dsess.vrfTable ≠ 0 then cmlLen
    else stdLen := addHeader_length
  rw [bfddSessionMsgToC, header_writeEnqueue, htype, hlen, writeEnqueue_eq, hdrop]
  by_cases ht : dsess.vrfTable = 0
  · rw [if_neg (by simp), if_neg (not_not.mpr ht), if_neg (not_not.mpr ht), if_pos rfl, session.get_put]
    exact bfddSessionToC_congr rfl (by simp [readVrf, addData, ht])
  · rw [if_neg (by simp), if_pos ht, if_pos ht, if_neg (by decide), if_pos rfl, sessionCumulus.get_put]

theorem hasFlag_sessionFlags (ipv6 multihop cpi passive shutdown : Bool) :
    let flags := sessionFlags ipv6 multihop cpi passive shutdown
    hasFlag flags sessionIpv6 = ipv6 ∧ hasFlag flags sessionMultihop = multihop ∧
      hasFlag flags sessionCbit = cpi ∧
      hasFlag flags sessionPassive = passive ∧ hasFlag flags sessionShutdown = shutdown ∧
      hasFlag flags sessionEcho = false ∧ hasFlag flags sessionDemand = false := by
  revert ipv6 multihop cpi passive shutdown
  decide

theorem copyName_pad (hm : Faithful nl ntop) {i : UInt32} {name : String}
    (h : nl.ifIndextoname i = some name) {n : Nat} (hn : ifNameSize ≤ n) :
    copyName (Chars.pad n (bytesOf name)) = some name := by
  obtain ⟨hne, hlen, h0⟩ := hm.name i name h
  have hupto : (Chars.pad n (bytesOf name)).upto (ifNameSize - 1) = bytesOf name :=
    Chars.pad_upto h0 (by rw [length_bytesOf]; omega) (by omega)
  have hhead : (Chars.pad n (bytesOf name)).val.headD 0 ≠ 0 := by
    cases hb : bytesOf name with
    | nil => exact absurd (bytesOf_eq_nil.mp hb) hne
    | cons b rest =>
      have hpos : n ≠ 0 := by
        rintro rfl
        exact absurd hn (by decide)
      obtain ⟨k, rfl⟩ := Nat.exists_eq_succ_of_ne_zero hpos
      rw [hb] at h0
      simpa [Chars.pad] using fun h => h0 (by simp [h])
  rw [copyName, if_neg hhead, hupto, textOf_bytesOf]

theorem msgFillNetif_ok (hm : Faithful nl ntop) {i : UInt32} {n : Nat} {name : Chars n}
    (h : msgFillNetif nl strerror i n = .ok name) (hn : ifNameSize ≤ n) (hi : i ≠ 0) :
    copyName name = nl.ifIndextoname i ∧ (nl.ifIndextoname i).isSome = true := by
  rw [msgFillNetif, if_neg hi] at h
  cases hname : nl.ifIndextoname i with
  | none => simp [hname] at h
  | some str =>
    simp only [hname, Except.ok.injEq] at h
    exact ⟨h ▸ copyName_pad hm hname hn, rfl⟩

theorem holdTime_fits (us : UInt32) : ¬ us / 1000 > uint32Max / 1000 := by
  have hus := us.toNat_lt
  have hk : (1000 : UInt32).toNat = 1000 := rfl
  have hmax : uint32Max.toNat = 4294967295 := rfl
  rw [gt_iff_lt, UInt32.lt_iff_toNat_lt, UInt32.toNat_div, UInt32.toNat_div, hk, hmax]
  omega

def Whole (sa : Sockaddr) : Prop := sa.family = afInet → sa.addr = ⟨sa.addr.w0, 0, 0, 0⟩

theorem applyAddr_whole (hm : Faithful nl ntop) {from_ : CAddr} {sa : Option Sockaddr}
    (h : applyAddr nl from_ = .ok sa) :
    Whole (sa.getD .zero) := by
  intro hf
  unfold applyAddr at h
  split_ifs at h with hu haf
  · cases h
    rfl
  · cases hp : sockParseAddrstr nl from_.af from_.str with
    | error e => simp [hp, Except.map] at h
    | ok a =>
      simp only [hp, Except.map, Except.ok.injEq] at h
      subst h
      unfold sockParseAddrstr at hp
      split_ifs at hp
      cases hin : nl.inetPton from_.af from_.str with
      | none => simp [hin] at hp
      | some addr =>
        simp only [hin, Except.ok.injEq] at hp
        subst hp
        exact hm.short from_.str addr ((show from_.af = afInet from hf) ▸ hin)
  · cases h
    rfl

/-- What is known of a session made from a request. -/
structure Made (nl : Nl) (csess : CSession) (dsess : DSession) : Prop where
  named : dsess.localData.discr ≠ 0
  whole : Whole dsess.src ∧ Whole dsess.dst
  family : dsess.dst.family ≠ 0 → dsess.src.family = 0 ∨ dsess.src.family = dsess.dst.family
  vrf : dsess.vrfIfindex = if csess.vrf.netif.unset then 0 else csess.vrf.netif.ifindex.getD 0
  table : dsess.vrfTable = csess.vrf.table.getD 0
  tabled : ∀ given, csess.vrf.table = some given → dsess.vrfIfindex ≠ 0 → given ≠ 0

theorem sessionDFromC_ok (hm : Faithful nl ntop) (h : sessionDFromC nl csess = .ok dsess) :
    Made nl csess dsess := by
  unfold sessionDFromC at h
  cases ha : sessionApplyC nl zeroSession csess with
  | error e => simp [ha] at h
  | ok r =>
    obtain ⟨applied, changed⟩ := r
    simp only [ha, Except.ok.injEq] at h
    subst h
    obtain ⟨-, -, hfam, ⟨vrf, hv⟩, hz, -, src, dst, hs, hd, rfl⟩ := sessionApplyC_inv ha
    refine ⟨(mandatoryZero_none hz).1, ⟨applyAddr_whole hm hs, applyAddr_whole hm hd⟩, ?_, rfl, ?_, ?_⟩
    · intro hne
      obtain ⟨hsf, -⟩ := applyAddr_family hs zeroSession.src
      obtain ⟨hdf, -⟩ := applyAddr_family hd zeroSession.dst
      have hsrc : (applyFields zeroSession csess src dst).src.family = newSrcAf zeroSession csess := hsf
      have hdst : (applyFields zeroSession csess src dst).dst.family = newDstAf zeroSession csess := by
        cases hu : csess.dst.unset with
        | true => exact absurd (hdf.trans (by simp [hu])) hne
        | false => exact hdf.trans (by simp [hu, newDstAf])
      rw [hsrc, hdst]
      by_contra hno
      exact hfam ⟨fun h => hno (.inl h), fun h => hno (.inr h)⟩
    · simp [applyFields, zeroSession]
    · intro given hg hi
      have hunset : csess.vrf.netif.unset = false := by
        by_contra hu
        exact hi (by simp [applyFields, applyIfindex, hu])
      obtain ⟨i, hidx⟩ : ∃ i, csess.vrf.netif.ifindex = some i := by
        cases hidx : csess.vrf.netif.ifindex with
        | none => exact absurd (by simp [applyFields, applyIfindex, hunset, hidx, zeroSession]) hi
        | some i => exact ⟨i, rfl⟩
      obtain ⟨-, hkept, -, htab⟩ := sessionValidateVrf_ok hv
      obtain ⟨table, hok, -, heq⟩ := htab i (hkept i (by simp [changedVrf, hidx]))
      rw [heq given (by simp [changedVrf, hg])]
      exact nlGetVrfTable_ne hok

theorem bfddDAddSession_ok (h : bfddDAddSession nl strerror stack csess msgId = .ok msg) :
    ∃ dsess src dst vrfname ifname, sessionDFromC nl csess = .ok dsess ∧ srcBuffer dsess = .ok src ∧
      dstBuffer dsess stack = .ok dst ∧ msgFillNetif nl strerror dsess.vrfIfindex 36 = .ok vrfname ∧
      msgFillNetif nl strerror dsess.ifindex 64 = .ok ifname ∧
      msg = writeEnqueue (addHeader dsess msgId) (addData dsess src dst ifname vrfname) := by
  obtain ⟨dsess, hd, h⟩ := bind_eq_ok.mp h
  obtain ⟨src, hs, h⟩ := bind_eq_ok.mp h
  obtain ⟨dst, hcopy, h⟩ := bind_eq_ok.mp h
  obtain ⟨vrfname, hv, h⟩ := bind_eq_ok.mp h
  obtain ⟨ifname, hi, h⟩ := bind_eq_ok.mp h
  exact ⟨dsess, src, dst, vrfname, ifname, hd, hs, hcopy, hv, hi, (Except.ok.inj h).symm⟩

theorem copyAddr_ok {sa : Sockaddr} {onto addr : Addr} (h : copyAddr sa onto = .ok addr) :
    (sa.family = afInet ∧ addr = { onto with w0 := sa.addr.w0 }) ∨ (sa.family = afInet6 ∧ addr = sa.addr) := by
  simp only [copyAddr] at h
  split_ifs at h with h4 h6
  · exact .inl ⟨h4, (Except.ok.inj h).symm⟩
  · exact .inr ⟨h6, (Except.ok.inj h).symm⟩

theorem denotes_copied (hm : Faithful nl ntop) {sa : Sockaddr} {onto addr : Addr} (hw : Whole sa)
    (h : copyAddr sa onto = .ok addr) : Denotes nl (sessionToCAddrBfddp ntop sa.family addr) sa := by
  refine ⟨rfl, rfl, ?_⟩
  obtain ⟨hf, rfl⟩ | ⟨hf, rfl⟩ := copyAddr_ok h
  · rw [sessionToCAddrBfddp, hf, hm.inet, ← hw hf]
  · rw [sessionToCAddrBfddp, hf, hm.inet6]

theorem familyOf_dst {sa : Sockaddr} (h : sa.family = afInet ∨ sa.family = afInet6) :
    familyOf (decide (sa.family = afInet6)) = sa.family := by
  obtain h | h := h <;> rw [h] <;> rfl

theorem dstBuffer_ok {dst : Addr} (h : dstBuffer dsess stack = .ok dst) :
    (dsess.dst.family = afInet ∨ dsess.dst.family = afInet6) ∧ dsess.dst.family ≠ 0 ∧
      copyAddr dsess.dst stack = .ok dst := by
  unfold dstBuffer at h
  split_ifs at h with h0
  exact ⟨(copyAddr_ok h).imp And.left And.left, h0, h⟩

theorem readSrc_srcBuffer (hm : Faithful nl ntop) (hw : Whole dsess.src)
    (hd : dsess.dst.family = afInet ∨ dsess.dst.family = afInet6)
    (hfam : dsess.src.family = 0 ∨ dsess.src.family = dsess.dst.family) {src : Addr}
    (h : srcBuffer dsess = .ok src) :
    let read := readSrc ntop (decide (dsess.dst.family = afInet6)) src
    if dsess.src.family = 0 ∨ dsess.src.addr = .zero then read.unset = true ∧
      read.af = 0 else Denotes nl read dsess.src := by
  have hnone : ∀ ipv6, readSrc ntop ipv6 .zero = ⟨true, 0, ""⟩ := fun ipv6 => by cases ipv6 <;> rfl
  unfold srcBuffer at h
  split_ifs at h with h0
  · have hsame := hfam.resolve_left h0
    have hden := denotes_copied hm hw h
    -- over the bytes of its family, the copy is zero exactly if the address is
    have hzero : (if decide (dsess.dst.family = afInet6) = true then src = .zero else src.w0 = 0) ↔
      dsess.src.addr = .zero := by
      obtain ⟨hf, rfl⟩ | ⟨hf, rfl⟩ := copyAddr_ok h
      · rw [if_neg (by rw [← hsame, hf]; decide), hw hf]
        simp [Addr.zero]
      · rw [if_pos (by rw [← hsame, hf]; decide)]
    by_cases hz : dsess.src.addr = .zero
    · simp only [readSrc, if_pos (hzero.mpr hz), hz, or_true, if_true, and_self]
    · simp only [readSrc, if_neg (mt hzero.mp hz), h0, hz, or_self, if_false]
      rw [familyOf_dst hd, ← hsame]
      exact hden
  · cases h
    rw [hnone, if_pos (.inl (not_not.mp h0))]
    exact ⟨rfl, rfl⟩

theorem conveyed (hm : Faithful nl ntop) (hmade : Made nl csess dsess) {src dst : Addr} {ifname : Chars 64}
    (hs : srcBuffer dsess = .ok src) (hd : dstBuffer dsess stack = .ok dst)
    (hi : msgFillNetif nl strerror dsess.ifindex 64 = .ok ifname) (vrfname : Chars 36) :
    ∃ read, bfddSessionToC ntop (addData dsess src dst ifname vrfname) = .ok read ∧ Conveyed nl dsess read ∧
      read.vrf = readVrf (addData dsess src dst ifname vrfname) := by
  obtain ⟨hfam, hne, hcopy⟩ := dstBuffer_ok hd
  obtain ⟨h6, hmh, hcpi, hpas, hshut, hecho, hdem⟩ := hasFlag_sessionFlags (decide (dsess.dst.family = afInet6))
    dsess.localData.flags.multihop dsess.localData.flags.cpi dsess.localData.flags.passive
      dsess.localData.flags.shutdown
  simp only [bfddSessionToC, addData, ntoh32_hton32, h6, hmh, hcpi, hpas, hshut, hecho, hdem,
    holdTime_fits, if_false,
    if_neg hmade.named, Bool.false_eq_true]
  refine ⟨_, rfl, ⟨rfl, ?_, ?_, rfl, rfl, rfl, rfl, rfl, ?_, rfl⟩, rfl⟩
  · rw [familyOf_dst hfam]
    exact denotes_copied hm hmade.whole.2 hcopy
  · exact readSrc_srcBuffer hm hmade.whole.1 hfam (hmade.family hne) hs
  · simp only [readNetif, ntoh32_hton32]
    split
    · rfl
    · rw [(msgFillNetif_ok hm hi (by decide) ‹_›).1]

theorem Made.tableGiven (h : Made nl csess dsess) :
    (dsess.vrfIfindex ≠ 0 → dsess.vrfTable ≠ 0) ↔ TableGiven csess.vrf := by
  have hvrf : dsess.vrfIfindex ≠ 0 ↔ csess.vrf.netif.unset = false ∧ csess.vrf.netif.ifindex.getD 0 ≠ 0 := by
    rw [h.vrf]
    cases csess.vrf.netif.unset <;> simp
  unfold TableGiven
  constructor
  · intro ht hu hi
    have hne := ht (hvrf.mpr ⟨hu, hi⟩)
    rw [h.table] at hne
    cases hg : csess.vrf.table with
    | none => simp [hg] at hne
    | some given => rfl
  · intro hgiven hi
    obtain ⟨given, hg⟩ := Option.isSome_iff_exists.mp (hgiven (hvrf.mp hi).1 (hvrf.mp hi).2)
    rw [h.table, hg]
    exact h.tabled given hg hi

theorem vrf_conveyed_iff (hm : Faithful nl ntop) {src dst : Addr} {ifname : Chars 64} {vrfname : Chars 36}
    (hv : msgFillNetif nl strerror dsess.vrfIfindex 36 = .ok vrfname) :
    (readVrf (addData dsess src dst ifname vrfname)).netif.name = nameOf nl dsess.vrfIfindex ↔
      (dsess.vrfIfindex ≠ 0 → dsess.vrfTable ≠ 0) := by
  by_cases hi : dsess.vrfIfindex = 0
  · have hpad : vrfname = .pad 36 [] := by
      rw [msgFillNetif, if_pos hi] at hv
      exact (Except.ok.inj hv).symm
    have hnone : copyName (Chars.pad 36 []) = none := rfl
    simp only [readVrf, addData, ntoh32_hton32, nameOf, hi, hpad, hnone, ne_eq, not_true, if_true,
      false_imp_iff, iff_true]
    split <;> rfl
  · obtain ⟨hname, hsome⟩ := msgFillNetif_ok hm hv (by decide) hi
    by_cases ht : dsess.vrfTable = 0
    · have hne : none ≠ nl.ifIndextoname dsess.vrfIfindex := fun h => by simp [← h] at hsome
      simpa [readVrf, addData, nameOf, hi, ht] using hne
    · simpa [readVrf, addData, nameOf, hi, ht] using hname

theorem sent_read (hm : Faithful nl ntop) (h : bfddDAddSession nl strerror stack csess msgId = .ok msg) :
    ∃ dsess read, sessionDFromC nl csess = .ok dsess ∧ bfddSessionMsgToC ntop msg = .ok read ∧
      Made nl csess dsess ∧
      Conveyed nl dsess read ∧ (RoundTrip nl dsess msg read ↔ (dsess.vrfIfindex ≠ 0 → dsess.vrfTable ≠ 0)) := by
  obtain ⟨dsess, src, dst, vrfname, ifname, hd, hs, hdst, hv, hi, rfl⟩ := bfddDAddSession_ok h
  have hmade := sessionDFromC_ok hm hd
  obtain ⟨read, hread, hconv, hvrf⟩ := conveyed hm hmade hs hdst hi vrfname
  refine ⟨dsess, read, hd, (msgToC_writeEnqueue ..).trans hread, hmade, hconv, ?_⟩
  constructor
  · intro hround
    exact (vrf_conveyed_iff hm hv).mp (hvrf ▸ hround.vrfName)
  · intro ht
    refine { hconv with vrfName :=
      hvrf ▸ (vrf_conveyed_iff hm hv).mpr ht, vrfTable := ?_, carried := fun hor => ?_ }
    · rw [hvrf, readVrf, non0]
      simp only [addData, ntoh32_hton32, ne_eq, ite_not]
      split <;> rfl
    · rw [header_writeEnqueue, addHeader_length, if_pos (hor.elim ht id)]

end

/-- The message for a session is read back as the session it was made from
exactly if the request gave the table of the VRF along with its index. Without
it everything else is still read back. -/
theorem roundTrip_iff {nl : Nl} {ntop : Ntop} (hm : Faithful nl ntop) {strerror : String}
    {stack : Addr} {csess : CSession} {msgId : UInt16} {msg : Bytes}
    (h : bfddDAddSession nl strerror stack csess msgId = .ok msg) :
    ∃ dsess read, sessionDFromC nl csess = .ok dsess ∧ bfddSessionMsgToC ntop msg = .ok read ∧
      Conveyed nl dsess read ∧
      (RoundTrip nl dsess msg read ↔ TableGiven csess.vrf) := by
  obtain ⟨dsess, read, hd, hread, hmade, hconv, hiff⟩ := sent_read hm h
  exact ⟨dsess, read, hd, hread, hconv, hiff.trans hmade.tableGiven⟩

def addrToNat (a : Addr) : Nat :=
  ((a.w0.toNat * 2 ^ 32 + a.w1.toNat) * 2 ^ 32 + a.w2.toNat) * 2 ^ 32 + a.w3.toNat

def tallyNtop : Ntop := fun af a =>
    .ofList (List.replicate (if af = afInet then a.w0.toNat else addrToNat a) '|')

def tallyNl : Nl where
  ifIndextoname i := if i = 4 then some "red" else if i = 2 then some "eth0" else none
  ifNametoindex name := if name = "red" then some 4 else if name = "eth0" then some 2 else none
  ifinfoTable i := .ok (if i = 4 then 1000 else 0)
  inetPton af str :=
    let n := str.length
    some (if af = afInet then ⟨.ofNat n, 0, 0, 0⟩
      else ⟨.ofNat (n / 2 ^ 96), .ofNat (n / 2 ^ 64), .ofNat (n / 2 ^ 32), .ofNat n⟩)

theorem tally_faithful : Faithful tallyNl tallyNtop where
  name i name h := by
    simp only [tallyNl] at h
    split_ifs at h <;> cases h <;> decide
  inet a := by simp [tallyNl, tallyNtop]
  inet6 a := by
    have hne : afInet6 ≠ afInet := by decide
    obtain ⟨w0, w1, w2, w3⟩ := a
    have h0 := w0.toNat_lt
    have h1 := w1.toNat_lt
    have h2 := w2.toNat_lt
    have h3 := w3.toNat_lt
    simp only [tallyNl, tallyNtop, String.length_ofList, List.length_replicate, if_neg hne,
      addrToNat, Option.some.injEq,
      Addr.mk.injEq]
    refine ⟨?_, ?_, ?_, ?_⟩ <;> (apply UInt32.toNat_inj.mp; rw [UInt32.toNat_ofNat']; omega)
  short str a h := by
    simp only [tallyNl, if_true, Option.some.injEq] at h
    subst h
    rfl

def overRed (vrf : CVrf) : CSession where
  flags := ⟨some true, none, none, none⟩
  discr := some 5
  remoteDiscr := none
  minTxUs := some 300000
  minRxUs := some 300000
  holdTimeUs := some 1999
  ttl := some 250
  detectMult := some 3
  src := ⟨false, afInet, "|||"⟩
  dst := ⟨false, afInet, "||"⟩
  netif := ⟨false, none, some 2⟩
  vrf := vrf
  name := ⟨false, none⟩

theorem roundTrip_red : ∃ dsess msg read, sessionDFromC tallyNl
    (overRed ⟨⟨false, none, some 4⟩, some 1000⟩) = .ok dsess ∧
    bfddDAddSession tallyNl "" ⟨7, 7, 7, 7⟩ (overRed ⟨⟨false, none, some 4⟩, some 1000⟩) 1 = .ok msg ∧
    bfddSessionMsgToC tallyNtop msg = .ok read ∧ RoundTrip tallyNl dsess msg read := by
  have hok : (bfddDAddSession tallyNl "" ⟨7, 7, 7, 7⟩ (overRed ⟨⟨false, none, some 4⟩, some 1000⟩)
    1).isOk = true := by
    decide +kernel
  cases hmsg : bfddDAddSession tallyNl "" ⟨7, 7, 7, 7⟩ (overRed ⟨⟨false, none, some 4⟩, some 1000⟩) 1 with
  | error e => simp [hmsg, Except.isOk, Except.toBool] at hok
  | ok msg =>
    obtain ⟨dsess, read, hd, hread, -, hiff⟩ := roundTrip_iff tally_faithful hmsg
    exact ⟨dsess, msg, read, hd, rfl, hread, hiff.mpr (fun _ _ => rfl)⟩

theorem roundTrip_lost : (sessionDFromC tallyNl (overRed ⟨⟨false, none, some 4⟩, none⟩)).map
    (nameOf tallyNl ·.vrfIfindex) = .ok (some "red") ∧
    (bfddDAddSession tallyNl "" .zero (overRed ⟨⟨false, none, some 4⟩, none⟩) 1).map List.length = .ok stdLen ∧
    (bfddDAddSession tallyNl "" .zero (overRed ⟨⟨false, none, some 4⟩, none⟩) 1 >>=
      bfddSessionMsgToC tallyNtop).map (·.vrf) =
      .ok ⟨⟨true, none, none⟩, none⟩ := by
  decide +kernel

end Bbdd.Bfddp
