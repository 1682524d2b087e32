import Bbdd.Datapath.Inject
import Bbdd.Lib.Checksum

namespace Bbdd.Datapath

open Lib.Wire Lib.Checksum Packet Session Prog

def cksumAcc (sum : UInt32) : Bytes → UInt32
  | [] => sum
  | [b] => sum + b.toUInt32
  | lo :: hi :: rest => cksumAcc (sum + (lo.toUInt32 + 256 * hi.toUInt32)) rest

def foldStep (sum : UInt32) : UInt32 := (sum &&& (0xffff : UInt32)) + (sum >>> (16 : UInt32))

theorem shift_toNat (sum : UInt32) : (sum >>> (16 : UInt32)).toNat = sum.toNat / 65536 := by
  rw [UInt32.toNat_shiftRight, Nat.shiftRight_eq_div_pow]
  rfl

theorem foldStep_toNat (sum : UInt32) : (foldStep sum).toNat = sum.toNat % 65536 + sum.toNat / 65536 := by
  have hlow : (sum &&& (0xffff : UInt32)).toNat = sum.toNat % 65536 := by
    rw [UInt32.toNat_and]
    exact Nat.and_two_pow_sub_one_eq_mod sum.toNat 16
  have hlt := sum.toNat_lt
  rw [foldStep, UInt32.toNat_add, hlow, shift_toNat]
  omega

def cksumFold (sum : UInt32) : UInt16 :=
  if sum >>> (16 : UInt32) ≠ 0 then cksumFold (foldStep sum) else ~~~ sum.toUInt16
termination_by sum.toNat
decreasing_by
  rename_i h
  have hpos : sum.toNat / 65536 ≠ 0 := fun hz => h (UInt32.toNat_inj.mp ((shift_toNat sum).trans hz))
  rw [foldStep_toNat]
  omega

def inetCksum (buf : Bytes) : UInt16 := cksumFold (cksumAcc 0 buf)

def mem16 (x : UInt16) : Bytes := [x.toUInt8, (x >>> (8 : UInt16)).toUInt8]

def mem32 (x : UInt32) : Bytes :=
  [x.toUInt8, (x >>> (8 : UInt32)).toUInt8, (x >>> (16 : UInt32)).toUInt8, (x >>> (24 : UInt32)).toUInt8]

def htons (x : UInt16) : Bytes := [(x >>> (8 : UInt16)).toUInt8, x.toUInt8]

def memAddr (addr : Addr) : Bytes := mem32 addr.w0 ++ mem32 addr.w1 ++ mem32 addr.w2 ++ mem32 addr.w3

def memPkt (p : BfdPkt) : Bytes :=
  [p.versionDiag, p.stateBits, p.detectionMultiplier, p.length] ++ mem32 p.myDisc.value ++ mem32
    p.yourDisc.value ++
    mem32 p.desiredTx.value ++ mem32 p.requiredRx.value ++ mem32 p.requiredEchoRx.value

def udpLen : UInt16 := 8 + 24

def udphdr (dsess : DSession) (check : UInt16) : Bytes :=
  htons dsess.src.port ++ htons dsess.dst.port ++ htons udpLen ++ mem16 check

def iphdr (dsess : DSession) (check : UInt16) : Bytes :=
  [0x45, 0] ++ htons (20 + udpLen) ++ [0, 0, 0, 0, 255, ipprotoUdp] ++ mem16 check ++ mem32 dsess.src.addr.w0 ++
    mem32 dsess.dst.addr.w0

def ip6Hdr (dsess : DSession) : Bytes :=
  [0x60, 0, 0, 0] ++ htons udpLen ++ [ipprotoUdp, 255] ++ memAddr dsess.src.addr ++ memAddr dsess.dst.addr

def pseudo (dsess : DSession) : Bytes :=
  memAddr dsess.src.addr ++ memAddr dsess.dst.addr ++ ([0, 0] ++ htons udpLen) ++ [0, 0, 0, ipprotoUdp]

def udp6Cksum (dsess : DSession) (udp : Bytes) : UInt16 :=
  cksumFold (cksumAcc (cksumAcc 0 (pseudo dsess)) udp)

def injectIpv4 (dsess : DSession) (bfd : BfdPkt) : Bytes :=
  iphdr dsess (inetCksum (iphdr dsess 0)) ++ udphdr dsess 0 ++ memPkt bfd

def injectIpv6 (dsess : DSession) (bfd : BfdPkt) : Bytes :=
  ip6Hdr dsess ++ udphdr dsess (udp6Cksum dsess (udphdr dsess 0 ++ memPkt bfd)) ++ memPkt bfd

def injectBytes (dsess : DSession) (bfd : BfdPkt) : Bytes :=
  if dsess.dst.family = afInet then injectIpv4 dsess bfd else injectIpv6 dsess bfd

@[simp] theorem length_memAddr (addr : Addr) : (memAddr addr).length = 16 := rfl

@[simp] theorem length_memPkt (p : BfdPkt) : (memPkt p).length = 24 := rfl

@[simp] theorem length_iphdr (dsess : DSession) (check : UInt16) : (iphdr dsess check).length = 20 := rfl

@[simp] theorem length_udphdr (dsess : DSession) (check : UInt16) : (udphdr dsess check).length = 8 := rfl

@[simp] theorem length_pseudo (dsess : DSession) : (pseudo dsess).length = 40 := rfl

def pseudoOf (packet : Bytes) : Bytes :=
  (packet.drop 8).take 32 ++ [0, 0] ++ (packet.drop 4).take 2 ++ [0, 0, 0] ++ (packet.drop 6).take 1

def udpOf (packet : Bytes) : Bytes := packet.drop 40

def udpCheckOf (packet : Bytes) : Bytes := ((udpOf packet).drop 6).take 2

section

variable {sum : UInt32} {bytes pre post : Bytes} {x : UInt16}

theorem cksumAcc_toNat (h : sum.toNat + (words bytes).sum < 2 ^ 32) :
    (cksumAcc sum bytes).toNat = sum.toNat + (words bytes).sum := by
  fun_induction cksumAcc sum bytes with
  | case1 sum => simp [words]
  | case2 sum b =>
    simp only [words, List.sum_singleton] at h ⊢
    rw [UInt32.toNat_add, UInt8.toNat_toUInt32]
    exact Nat.mod_eq_of_lt h
  | case3 sum lo hi rest ih =>
    have hlo := lo.toNat_lt
    have hhi := hi.toNat_lt
    have hword : (sum + (lo.toUInt32 + 256 * hi.toUInt32)).toNat = sum.toNat + (lo.toNat + 256 * hi.toNat) := by
      simp only [words, List.sum_cons] at h
      simp only [UInt32.toNat_add, UInt32.toNat_mul, UInt8.toNat_toUInt32, UInt32.reduceToNat]
      omega
    simp only [words, List.sum_cons] at h ⊢
    rw [ih (by rw [hword]; omega), hword]
    omega

theorem cksumFold_toNat (sum : UInt32) : (cksumFold sum).toNat = full - residue sum.toNat := by
  fun_induction cksumFold sum with
  | case1 sum h ih =>
    rw [ih, foldStep_toNat]
    congr 1
    simp only [residue, full]
    split_ifs <;> omega
  | case2 sum h =>
    have hsmall : sum.toNat < 65536 := by
      have hz := congrArg UInt32.toNat (not_not.mp h)
      rw [shift_toNat] at hz
      simp only [UInt32.reduceToNat] at hz
      omega
    have hnot : (~~~ sum.toUInt16).toNat = 65535 - sum.toNat := by
      rw [UInt16.toNat_not, UInt32.toNat_toUInt16, Nat.mod_eq_of_lt hsmall]
      rfl
    rw [hnot]
    simp only [residue, full]
    split_ifs <;> omega

theorem shift_eq_zero : sum >>> (16 : UInt32) = 0 ↔ sum.toNat < 65536 := by
  rw [← UInt32.toNat_inj, shift_toNat]
  simp only [UInt32.reduceToNat]
  omega

theorem cksumFold_turns (sum : UInt32) : ∃ n ≤ 2, foldStep^[n] sum >>> (16 : UInt32) = 0 ∧
    cksumFold sum = ~~~ (foldStep^[n] sum).toUInt16 := by
  have hlast {s : UInt32} (hs : s >>> (16 : UInt32) = 0) : cksumFold s = ~~~ s.toUInt16 := by
    rw [cksumFold, if_neg (not_not.mpr hs)]
  have hturn {s : UInt32} (hs : s >>> (16 : UInt32) ≠ 0) : cksumFold s = cksumFold (foldStep s) := by
    rw [cksumFold, if_pos hs]
  have hlt := sum.toNat_lt
  by_cases h₀ : sum >>> (16 : UInt32) = 0
  · exact ⟨0, by decide, h₀, hlast h₀⟩
  · by_cases h₁ : foldStep sum >>> (16 : UInt32) = 0
    · exact ⟨1, by decide, h₁, (hturn h₀).trans (hlast h₁)⟩
    · have h₂ : foldStep (foldStep sum) >>> (16 : UInt32) = 0 := by
        rw [shift_eq_zero] at h₁ ⊢
        rw [foldStep_toNat] at h₁ ⊢
        rw [foldStep_toNat]
        omega
      exact ⟨2, by decide, h₂, (hturn h₀).trans ((hturn h₁).trans (hlast h₂))⟩

theorem words_mem16 (x : UInt16) : words (mem16 x) = [x.toNat] := by
  have hlt := x.toNat_lt
  have hlow : x.toUInt8.toNat = x.toNat % 256 := UInt16.toNat_toUInt8 x
  have hhigh : (x >>> (8 : UInt16)).toUInt8.toNat = x.toNat / 256 % 256 := by
    rw [UInt16.toNat_toUInt8, UInt16.toNat_shiftRight, Nat.shiftRight_eq_div_pow]
    rfl
  simp only [mem16, words, hlow, hhigh]
  congr 1
  omega

theorem words_checked (h : pre.length % 2 = 0) (x : UInt16) :
    (words (pre ++ mem16 x ++ post)).sum = (words pre).sum + (words post).sum + x.toNat := by
  have hmem : (pre ++ mem16 x).length % 2 = 0 := by
    rw [List.length_append, show (mem16 x).length = 2 from rfl]
    omega
  rw [words_append hmem, words_append h, words_mem16, List.sum_append, List.sum_append, List.sum_singleton]
  omega

theorem checked_full (h : pre.length % 2 = 0) (hpos : (words pre).sum ≠ 0)
    (hx : x = cksumFold sum) (hsum : sum.toNat = (words (pre ++ mem16 0 ++ post)).sum) :
    onesSum (netWords (pre ++ mem16 x ++ post)) = full ∧
      (x = 0 ↔ onesSum (netWords (pre ++ mem16 0 ++ post)) = full) := by
  have hzero : sum.toNat = (words pre).sum + (words post).sum := by
    rw [hsum, words_checked h]
    rfl
  have hval : x.toNat = full - residue sum.toNat := by rw [hx, cksumFold_toNat]
  have hne : sum.toNat ≠ 0 := by omega
  have hle := residue_le sum.toNat
  constructor
  · rw [onesSum_netWords, onesSum_eq (words_le _), words_checked h, ← hzero, hval]
    exact residue_complement hne
  · rw [onesSum_netWords, onesSum_eq (words_le _), ← hsum, ← UInt16.toNat_inj, hval]
    simp only [full] at hle ⊢
    simp only [UInt16.reduceToNat]
    omega

theorem cksumAcc_append (h : pre.length % 2 = 0) (sum : UInt32) :
    cksumAcc (cksumAcc sum pre) post = cksumAcc sum (pre ++ post) := by
  fun_induction cksumAcc sum pre with
  | case1 => rfl
  | case2 => simp at h
  | case3 sum lo hi rest ih =>
    simp only [List.length_cons] at h
    rw [ih (by omega)]
    rfl

theorem cksumAcc_fits (h : bytes.length < 65536) :
    (words bytes).sum < 2 ^ 32 ∧ (cksumAcc 0 bytes).toNat = (words bytes).sum := by
  have hle := words_sum_le bytes
  have hlt : (words bytes).sum < 2 ^ 32 := by
    simp only [full] at hle
    omega
  refine ⟨hlt, ?_⟩
  rw [cksumAcc_toNat (by rw [UInt32.toNat_zero, Nat.zero_add]; exact hlt), UInt32.toNat_zero, Nat.zero_add]

theorem iphdr_full (dsess : DSession) :
    onesSum (netWords (iphdr dsess (inetCksum (iphdr dsess 0)))) = full := by
  have hsplit (x : UInt16) : iphdr dsess x =
    ([0x45, 0] ++ htons (20 + udpLen) ++ [0, 0, 0, 0, 255, ipprotoUdp]) ++ mem16 x ++
      (mem32 dsess.src.addr.w0 ++ mem32 dsess.dst.addr.w0) := by
    simp only [iphdr, List.append_assoc]
  rw [hsplit (inetCksum _)]
  refine (checked_full rfl (by decide) rfl ?_).1
  rw [(cksumAcc_fits (by simp : (iphdr dsess 0).length < 65536)).2, hsplit 0]

def udpFront (dsess : DSession) : Bytes :=
  pseudo dsess ++ (htons dsess.src.port ++ htons dsess.dst.port ++ htons udpLen)

theorem length_udpFront (dsess : DSession) : (udpFront dsess).length = 46 := rfl

theorem udpFront_pos (dsess : DSession) : (words (udpFront dsess)).sum ≠ 0 := by
  have hsplit : udpFront dsess = (memAddr dsess.src.addr ++ memAddr dsess.dst.addr) ++
    ([0, 0, 0, 32] ++ ([0, 0, 0, ipprotoUdp] ++
      (htons dsess.src.port ++ htons dsess.dst.port ++ htons udpLen))) := by
    simp only [udpFront, pseudo, List.append_assoc]
    rfl
  have heven : [(0 : UInt8), 0, 0, 32].length % 2 = 0 := rfl
  have hlen : (words [0, 0, 0, 32]).sum = 8192 := by decide
  rw [hsplit, words_append (by simp), words_append heven, List.sum_append, List.sum_append, hlen]
  omega

theorem udp_full (dsess : DSession) (bfd : BfdPkt) :
    onesSum (netWords (pseudo dsess ++
      (udphdr dsess (udp6Cksum dsess (udphdr dsess 0 ++ memPkt bfd)) ++ memPkt bfd))) = full ∧
      (udp6Cksum dsess (udphdr dsess 0 ++ memPkt bfd) = 0 ↔
        onesSum (netWords (pseudo dsess ++ (udphdr dsess 0 ++ memPkt bfd))) = full) := by
  have hsplit (x : UInt16) : pseudo dsess ++ (udphdr dsess x ++ memPkt bfd) = udpFront dsess ++
    mem16 x ++ memPkt bfd := by
    simp only [udpFront, udphdr, List.append_assoc]
  rw [hsplit, hsplit]
  refine checked_full (by rw [length_udpFront]) (udpFront_pos dsess) rfl ?_
  rw [cksumAcc_append (by simp), (cksumAcc_fits
    (by simp : (pseudo dsess ++ (udphdr dsess 0 ++ memPkt bfd)).length < 65536)).2, hsplit]

theorem pseudoOf_injectIpv6 (dsess : DSession) (bfd : BfdPkt) :
    pseudoOf (injectIpv6 dsess bfd) = pseudo dsess := rfl

theorem udpOf_injectIpv6 (dsess : DSession) (bfd : BfdPkt) :
    udpOf (injectIpv6 dsess bfd) = udphdr dsess (udp6Cksum dsess (udphdr dsess 0 ++ memPkt bfd)) ++
      memPkt bfd := rfl

theorem udpCheckOf_injectIpv6 (dsess : DSession) (bfd : BfdPkt) :
    udpCheckOf (injectIpv6 dsess bfd) = mem16 (udp6Cksum dsess (udphdr dsess 0 ++ memPkt bfd)) := rfl

theorem mem16_eq_zero : mem16 x = [0, 0] ↔ x = 0 := by
  constructor
  · intro h
    have hw := words_mem16 x
    rw [h] at hw
    exact UInt16.toNat_inj.mp (List.cons.inj hw).1.symm
  · rintro rfl
    rfl

end

/-- The header of every IPv4 packet adds up, and the pseudo-header and datagram of
every IPv6 packet. The checksum of the latter is zero exactly if they add up
without it. No sum overflows, and the carries are brought around in two turns. -/
theorem checksums_verify (dsess : DSession) (bfd : BfdPkt) :
    onesSum (netWords ((injectIpv4 dsess bfd).take 20)) = 0xffff ∧
    onesSum (netWords (pseudoOf (injectIpv6 dsess bfd) ++ udpOf (injectIpv6 dsess bfd))) = 0xffff ∧
    (udpCheckOf (injectIpv6 dsess bfd) ≠ [0, 0] ↔
      onesSum (netWords (pseudo dsess ++ (udphdr dsess 0 ++ memPkt bfd))) ≠ 0xffff) ∧
    (words (iphdr dsess 0)).sum < 2 ^ 32 ∧
    (words (pseudo dsess ++ (udphdr dsess 0 ++ memPkt bfd))).sum < 2 ^ 32 ∧
    ∀ sum, ∃ n ≤ 2, foldStep^[n] sum >>> (16 : UInt32) = 0 ∧ cksumFold sum = ~~~
      (foldStep^[n] sum).toUInt16 := by
  obtain ⟨hfull, hzero⟩ := udp_full dsess bfd
  refine ⟨iphdr_full dsess, ?_, ?_, (cksumAcc_fits (by simp)).1, (cksumAcc_fits (by simp)).1, cksumFold_turns⟩
  · rw [pseudoOf_injectIpv6, udpOf_injectIpv6]
    exact hfull
  · rw [udpCheckOf_injectIpv6, Ne, mem16_eq_zero, hzero]
    rfl

def dbSession : DSession where
  src := ⟨afInet6, 49152, ⟨0xb80d0120, 0, 0, 0x772f0000⟩⟩
  dst := ⟨afInet6, bfdSingleHopPort, ⟨0xb80d0120, 0, 0, 0x1000000⟩⟩
  name := ""
  holdTimeUs := 0
  ttl := 255
  ifindex := 0
  vrfIfindex := 0
  userRemoteDiscr := 0
  vrfTable := 0
  localData := ⟨.none, 5, ⟨1, slowIntervalUs, slowIntervalUs⟩, ⟨.down, .nothing⟩⟩
  remoteData := ⟨.none, 0, ⟨1, slowIntervalUs, slowIntervalUs⟩, ⟨.down, .nothing⟩⟩

def dbPacket : BfdPkt := makePacket 5 dbSession.localData.timing dbSession.localData.state 0 0

theorem checksums_verify_next : udpCheckOf
    (injectIpv6 { dbSession with src := { dbSession.src with port := 49153 } } dbPacket) ≠ [0, 0] :=
  (checksums_verify { dbSession with src := { dbSession.src with port := 49153 } }
    dbPacket).2.2.1.mpr (by decide +kernel)

theorem checksums_zero : udpCheckOf (injectIpv6 dbSession dbPacket) = [0, 0] := by decide +kernel

end Bbdd.Datapath
