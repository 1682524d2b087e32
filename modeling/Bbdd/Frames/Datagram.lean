import Bbdd.Frames.Program

namespace Bbdd.Frames

open Lib.Wire Lib.Splice Lib.Checksum Packet Session Prog Datapath

theorem load16_mem16 (x : UInt16) (rest : Bytes) : load16 (mem16 x ++ rest) = x := by
  have hx := x.toNat_lt
  have hlow : x.toUInt8.toNat = x.toNat % 256 := UInt16.toNat_toUInt8 x
  have hhigh : (x >>> (8 : UInt16)).toUInt8.toNat = x.toNat / 256 % 256 := by
    rw [UInt16.toNat_toUInt8, UInt16.toNat_shiftRight, Nat.shiftRight_eq_div_pow]
    rfl
  apply UInt16.toNat_inj.mp
  simp only [mem16, List.cons_append, load16, UInt16.toNat_ofNat', hlow, hhigh]
  omega

theorem byte_toNat (x : UInt32) (n : UInt32) (hn : n.toNat < 32) :
    (x >>> n).toUInt8.toNat = x.toNat / 2 ^ n.toNat % 256 := by
  rw [UInt32.toNat_toUInt8, UInt32.toNat_shiftRight, Nat.shiftRight_eq_div_pow, Nat.mod_eq_of_lt hn]

theorem load32_mem32 (x : UInt32) (rest : Bytes) : load32 (mem32 x ++ rest) = x := by
  have hx := x.toNat_lt
  have h0 : x.toUInt8.toNat = x.toNat % 256 := UInt32.toNat_toUInt8 x
  have h1 := byte_toNat x 8 (by decide)
  have h2 := byte_toNat x 16 (by decide)
  have h3 := byte_toNat x 24 (by decide)
  simp only [UInt32.reduceToNat] at h1 h2 h3
  apply UInt32.toNat_inj.mp
  simp only [mem32, List.cons_append, load32, UInt32.toNat_ofNat', h0, h1, h2, h3]
  omega

theorem loadAddr_memAddr (addr : Addr) (rest : Bytes) : loadAddr (memAddr addr ++ rest) = addr := by
  have hload : loadAddr (memAddr addr ++ rest) =
      ⟨load32 (mem32 addr.w0 ++ (mem32 addr.w1 ++ mem32 addr.w2 ++ mem32 addr.w3 ++ rest)),
        load32 (mem32 addr.w1 ++ (mem32 addr.w2 ++ mem32 addr.w3 ++ rest)),
        load32 (mem32 addr.w2 ++ (mem32 addr.w3 ++ rest)), load32 (mem32 addr.w3 ++ rest)⟩ := rfl
  rw [hload, load32_mem32, load32_mem32, load32_mem32, load32_mem32]

theorem loadPkt_memPkt (bfd : BfdPkt) : loadPkt (memPkt bfd) = bfd := by
  have hload : loadPkt (memPkt bfd) = ⟨bfd.versionDiag, bfd.stateBits, bfd.detectionMultiplier, bfd.length,
      ⟨load32 (mem32 bfd.myDisc.value ++
        (mem32 bfd.yourDisc.value ++ mem32 bfd.desiredTx.value ++ mem32 bfd.requiredRx.value ++
        mem32 bfd.requiredEchoRx.value))⟩,
      ⟨load32 (mem32 bfd.yourDisc.value ++ (mem32 bfd.desiredTx.value ++ mem32 bfd.requiredRx.value ++
        mem32 bfd.requiredEchoRx.value))⟩,
      ⟨load32 (mem32 bfd.desiredTx.value ++ (mem32 bfd.requiredRx.value ++ mem32 bfd.requiredEchoRx.value))⟩,
      ⟨load32 (mem32 bfd.requiredRx.value ++ mem32 bfd.requiredEchoRx.value)⟩,
      ⟨load32 (mem32 bfd.requiredEchoRx.value ++ [])⟩⟩ := rfl
  rw [hload, load32_mem32, load32_mem32, load32_mem32, load32_mem32, load32_mem32]

theorem ntohs_htons (x : UInt16) (rest : Bytes) : ntohs (htons x ++ rest) = x := by
  have hput : htons x = be16.put x := by
    have hhigh : (x >>> (8 : UInt16)).toUInt8 = .ofNat (x.toNat / 2 ^ 8) := by
      apply UInt8.toNat_inj.mp
      rw [UInt16.toNat_toUInt8, UInt16.toNat_shiftRight, Nat.shiftRight_eq_div_pow, UInt8.toNat_ofNat']
      rfl
    have hlow : x.toUInt8 = .ofNat x.toNat := by
      apply UInt8.toNat_inj.mp
      rw [UInt16.toNat_toUInt8, UInt8.toNat_ofNat']
    rw [htons, hhigh, hlow]
    rfl
  rw [hput, ntohs, Layout.get_put_append]

theorem words_mem32 (x : UInt32) : (words (mem32 x)).sum ≡ x.toNat [MOD full] := by
  have hx := x.toNat_lt
  have h0 : x.toUInt8.toNat = x.toNat % 256 := UInt32.toNat_toUInt8 x
  have h1 := byte_toNat x 8 (by decide)
  have h2 := byte_toNat x 16 (by decide)
  have h3 := byte_toNat x 24 (by decide)
  simp only [UInt32.reduceToNat] at h1 h2 h3
  have hsum : (words (mem32 x)).sum = x.toNat % 65536 + x.toNat / 65536 := by
    simp only [mem32, words, List.sum_cons, List.sum_nil, h0, h1, h2, h3]
    omega
  rw [hsum, Nat.ModEq, full]
  omega

/-- The network header of a frame, less what is the same in all of them. -/
inductive Net
  | v4 (check : UInt16) (saddr daddr : UInt32)
  | v6 (saddr daddr : Addr)
  deriving DecidableEq, Repr

def Net.protocol : Net → UInt16
  | .v4 .. => ethPIp
  | .v6 .. => ethPIpv6

theorem ethPIpv6_ne : ethPIpv6 ≠ ethPIp := by decide

def Net.saddr : Net → Addr
  | .v4 _ saddr _ => ⟨saddr, 0, 0, 0⟩
  | .v6 saddr _ => saddr

def Net.daddr : Net → Addr
  | .v4 _ _ daddr => ⟨daddr, 0, 0, 0⟩
  | .v6 _ daddr => daddr

def Net.bytes : Net → Bytes
  | .v4 check saddr daddr =>
    [0x45, 0] ++ htons (20 + udpLen) ++ [0, 0, 0, 0, 255, ipprotoUdp] ++ mem16 check ++ mem32
      saddr ++ mem32 daddr
  | .v6 saddr daddr => [0x60, 0, 0, 0] ++ htons udpLen ++ [ipprotoUdp, 255] ++ memAddr saddr ++ memAddr daddr

structure Datagram where
  dmac : Mac
  smac : Mac
  net : Net
  sport : UInt16
  dport : UInt16
  udpCheck : UInt16
  bfd : BfdPkt
  deriving DecidableEq, Repr

def Datagram.udp (dg : Datagram) : Bytes :=
  htons dg.sport ++ htons dg.dport ++ htons udpLen ++ mem16 dg.udpCheck ++ memPkt dg.bfd

def Datagram.bytes (dg : Datagram) : Bytes :=
  dg.dmac.bytes ++ dg.smac.bytes ++ htons dg.net.protocol ++ dg.net.bytes ++ dg.udp

def Net.totLen : Net → UInt16
  | .v4 .. => 20 + udpLen
  | .v6 .. => udpLen + 40

def Net.len (net : Net) : UInt32 := 14 + net.totLen.toUInt32

section

variable (dg : Datagram)

theorem length_bytes : dg.bytes.length = dg.net.len.toNat := by
  rcases dg with ⟨_, _, _ | _, _, _, _, _⟩ <;> rfl

theorem txGetBfd_eq {frame : Frame} {off : Nat} {totLen : UInt16} {udph bfd : Bytes}
    (hp : frame.protocol = ethPIp ∨ frame.protocol = ethPIpv6)
    (hnet : txIsBfd frame.protocol frame.data ethSize = some (off, totLen))
    (hudp : slice frame.data off udpSize = some udph)
    (hbfd : slice frame.data (off + udpSize) 24 = some bfd) :
    txGetBfd frame = if ntohs (udph.drop 2) ≠ bfdSingleHopPort ∧ ntohs (udph.drop 2) ≠ bfdMultiHopPort then none
      else some (loadPkt bfd, totLen) := by
  rw [txGetBfd, if_neg (fun hn => hp.elim hn.1 hn.2), hnet]
  simp only [Option.bind_eq_bind, Option.bind_some, hudp, hbfd]

theorem slice_net : slice dg.bytes ethSize dg.net.bytes.length = some dg.net.bytes := by
  rcases dg with ⟨_, _, _ | _, _, _, _, _⟩ <;> rfl

theorem txIsBfd_bytes : txIsBfd dg.net.protocol dg.bytes ethSize =
    some (ethSize + dg.net.bytes.length, dg.net.totLen) := by
  have hslice := slice_net dg
  cases h : dg.net with
  | v4 check saddr daddr =>
    rw [h] at hslice
    have hiph : slice dg.bytes ethSize ipSize = some (Net.v4 check saddr daddr).bytes := hslice
    have hlen := ntohs_htons (20 + udpLen)
      ([0, 0, 0, 0, 255, ipprotoUdp] ++ mem16 check ++ mem32 saddr ++ mem32 daddr)
    rw [Net.protocol, txIsBfd, if_pos rfl, txIsBfdIpv4, hiph]
    exact congrArg (fun len => some (34, len)) hlen
  | v6 saddr daddr =>
    rw [h] at hslice
    have hip6h : slice dg.bytes ethSize ip6Size = some (Net.v6 saddr daddr).bytes := hslice
    have hlen := ntohs_htons udpLen ([ipprotoUdp, 255] ++ memAddr saddr ++ memAddr daddr)
    rw [Net.protocol, txIsBfd, if_neg ethPIpv6_ne, txIsBfdIpv6, hip6h]
    exact congrArg (fun len => some (54, len)) (congrArg (· + 40) hlen)

theorem slice_udp : slice dg.bytes (ethSize + dg.net.bytes.length) udpSize =
    some (htons dg.sport ++ (htons dg.dport ++ (htons udpLen ++ mem16 dg.udpCheck))) := by
  rcases dg with ⟨_, _, _ | _, _, _, _, _⟩ <;> rfl

theorem slice_bfd : slice dg.bytes (ethSize + dg.net.bytes.length + udpSize) 24 = some (memPkt dg.bfd) := by
  rcases dg with ⟨_, _, _ | _, _, _, _, _⟩ <;> rfl

theorem txGetBfd_bytes {frame : Frame} (hp : frame.protocol = dg.net.protocol)
    (hd : frame.data = dg.bytes) :
    txGetBfd frame = if dg.dport ≠ bfdSingleHopPort ∧ dg.dport ≠ bfdMultiHopPort then none
      else some (dg.bfd, dg.net.totLen) := by
  have hip : frame.protocol = ethPIp ∨ frame.protocol = ethPIpv6 := by
    rw [hp]
    cases dg.net with
    | v4 => exact .inl rfl
    | v6 => exact .inr rfl
  have hdrop : (htons dg.sport ++ (htons dg.dport ++ (htons udpLen ++ mem16 dg.udpCheck))).drop 2 =
      htons dg.dport ++ (htons udpLen ++ mem16 dg.udpCheck) := rfl
  rw [txGetBfd_eq hip (by rw [hp, hd]; exact txIsBfd_bytes dg)
    (by rw [hd]; exact slice_udp dg) (by rw [hd]; exact slice_bfd dg),
    hdrop, ntohs_htons, loadPkt_memPkt]

end

def checks : List (Bool × (UInt16 → UInt16)) → UInt16 → Bool × UInt16
  | [], check => (true, check)
  | (ok, replace) :: rest, check => if ok then checks rest (replace check) else (false, check)

def srcPairs (old new : Addr) : List (UInt32 × UInt32) :=
  [(old.w0, new.w0), (old.w1, new.w1), (old.w2, new.w2), (old.w3, new.w3)]

def Datagram.update (R : Replacement) (w : Writes) (params : FibParams) (dg : Datagram) : Bool × Datagram :=
  if !w.dynptr || !w.eth then (false, dg)
  else
    let dg := { dg with smac := params.smac, dmac := params.dmac }
    if !w.ip then (false, dg)
    else
      match dg.net with
      | .v4 check saddr daddr =>
        if !w.l3 then (false, { dg with net := .v4 check params.src.w0 daddr })
        else
          let r := checks [(w.l4 0, fun check => R.mangled check saddr params.src.w0)] dg.udpCheck
          (r.1, { dg with net := .v4 (R.replace check saddr
            params.src.w0) params.src.w0 daddr, udpCheck := r.2 })
      | .v6 saddr daddr =>
        let r := checks
          [(w.l4 0, fun check => R.replace check saddr.w0 params.src.w0),
            (w.l4 1, fun check => R.replace check saddr.w1 params.src.w1),
            (w.l4 2, fun check => R.replace check saddr.w2 params.src.w2),
              (w.l4 3, fun check => R.replace check saddr.w3 params.src.w3)]
          dg.udpCheck
        (r.1, { dg with net := .v6 params.src daddr, udpCheck := r.2 })

section

variable {R : Replacement} {w : Writes} {params : FibParams} (dg : Datagram)

theorem csumReplace_udp (ok : Bool) (replace : UInt16 → UInt16) :
    csumReplace ok replace (ethSize + dg.net.bytes.length + 6) dg.bytes =
      if ok then some ({ dg with udpCheck := replace dg.udpCheck }).bytes else none := by
  have hslice : slice dg.bytes (ethSize + dg.net.bytes.length + 6) 2 = some (mem16 dg.udpCheck ++ []) := by
    rcases dg with ⟨_, _, _ | _, _, _, _, _⟩ <;> rfl
  have hsplice (check : UInt16) :
      splice dg.bytes (ethSize + dg.net.bytes.length + 6) (mem16 check) =
        ({ dg with udpCheck := check }).bytes := by
    rcases dg with ⟨_, _, _ | _, _, _, _, _⟩ <;> rfl
  rw [csumReplace, hslice]
  simp only [load16_mem16, hsplice]

theorem csumReplaces_udp (list : List (Bool × (UInt16 → UInt16))) :
    csumReplaces (ethSize + dg.net.bytes.length + 6) list dg.bytes =
      ((checks list dg.udpCheck).1, ({ dg with udpCheck := (checks list dg.udpCheck).2 }).bytes) := by
  induction list generalizing dg with
  | nil => rfl
  | cons entry rest ih =>
    obtain ⟨ok, replace⟩ := entry
    rw [csumReplaces, csumReplace_udp, checks]
    cases ok with
    | false => rfl
    | true => exact ih { dg with udpCheck := replace dg.udpCheck }

theorem splice_eth (smac dmac : Mac) :
    splice (splice dg.bytes 6 smac.bytes) 0 dmac.bytes = ({ dg with smac := smac, dmac := dmac }).bytes := by
  obtain ⟨_, _, net, sport, dport, udpCheck, bfd⟩ := dg
  cases net with
  | v4 check saddr daddr => rfl
  | v6 saddr daddr => rfl

theorem txUpdateIpv4_bytes {check : UInt16} {saddr daddr : UInt32} (hn : dg.net = .v4 check saddr daddr) :
    txUpdateIpv4 R w params dg.bytes =
      if !w.ip then (false, dg.bytes)
      else if !w.l3 then (false, ({ dg with net := .v4 check params.src.w0 daddr }).bytes)
      else
        let r := checks [(w.l4 0, fun check => R.mangled check saddr params.src.w0)] dg.udpCheck
        (r.1, ({ dg with net := .v4 (R.replace check
          saddr params.src.w0) params.src.w0 daddr, udpCheck := r.2 }).bytes) := by
  obtain ⟨dmac, smac, net, sport, dport, udpCheck, bfd⟩ := dg
  subst hn
  have hiph : slice (Datagram.bytes
    ⟨dmac, smac, .v4 check saddr daddr, sport, dport, udpCheck, bfd⟩) ethSize ipSize =
      some (Net.v4 check saddr daddr).bytes := rfl
  have hold : load32 ((Net.v4 check saddr daddr).bytes.drop 12) = saddr := load32_mem32 saddr (mem32 daddr)
  have hsaddr : splice (Datagram.bytes
    ⟨dmac, smac, .v4 check saddr daddr, sport, dport, udpCheck, bfd⟩) (ethSize + 12)
      (mem32 params.src.w0) = Datagram.bytes
        ⟨dmac, smac, .v4 check params.src.w0 daddr, sport, dport, udpCheck, bfd⟩ := rfl
  have hcheck : slice (Datagram.bytes
    ⟨dmac, smac, .v4 check params.src.w0 daddr, sport, dport, udpCheck, bfd⟩) (ethSize + 10) 2 =
      some (mem16 check ++ []) := rfl
  have hreplace (new : UInt16) :
    splice (Datagram.bytes ⟨dmac, smac, .v4 check params.src.w0 daddr, sport, dport, udpCheck, bfd⟩)
      (ethSize + 10) (mem16 new) = Datagram.bytes
        ⟨dmac, smac, .v4 new params.src.w0 daddr, sport, dport, udpCheck, bfd⟩ := rfl
  rw [txUpdateIpv4, hiph]
  simp only [hold, hsaddr, csumReplace, hcheck, load16_mem16, hreplace]
  cases w.ip with
  | false => rfl
  | true =>
    cases w.l3 with
    | false => rfl
    | true => exact csumReplaces_udp ⟨dmac, smac, .v4 (R.replace check saddr params.src.w0)
        params.src.w0 daddr, sport, dport, udpCheck, bfd⟩ _

theorem txUpdateIpv6_bytes {saddr daddr : Addr} (hn : dg.net = .v6 saddr daddr) :
    txUpdateIpv6 R w params dg.bytes =
      if !w.ip then (false, dg.bytes)
      else
        let r := checks
          [(w.l4 0, fun check => R.replace check saddr.w0 params.src.w0),
            (w.l4 1, fun check => R.replace check saddr.w1 params.src.w1),
            (w.l4 2, fun check => R.replace check saddr.w2 params.src.w2),
              (w.l4 3, fun check => R.replace check saddr.w3 params.src.w3)]
          dg.udpCheck
        (r.1, ({ dg with net := .v6 params.src daddr, udpCheck := r.2 }).bytes) := by
  obtain ⟨dmac, smac, net, sport, dport, udpCheck, bfd⟩ := dg
  subst hn
  have hip6h : slice (Datagram.bytes ⟨dmac, smac, .v6 saddr daddr, sport, dport, udpCheck, bfd⟩)
    ethSize ip6Size =
      some (Net.v6 saddr daddr).bytes := rfl
  have hold : loadAddr ((Net.v6 saddr daddr).bytes.drop 8) = saddr := loadAddr_memAddr saddr (memAddr daddr)
  have hsaddr : splice (Datagram.bytes ⟨dmac, smac, .v6 saddr daddr, sport, dport, udpCheck, bfd⟩) (ethSize + 8)
      (memAddr params.src) = Datagram.bytes
        ⟨dmac, smac, .v6 params.src daddr, sport, dport, udpCheck, bfd⟩ := rfl
  rw [txUpdateIpv6, hip6h]
  simp only [hold, hsaddr]
  cases w.ip with
  | false => rfl
  | true => exact csumReplaces_udp ⟨dmac, smac, .v6 params.src daddr, sport, dport, udpCheck, bfd⟩ _

theorem txUpdate_bytes : txUpdate R w params dg.net.protocol dg.bytes =
    ((dg.update R w params).1, (dg.update R w params).2.bytes) := by
  obtain ⟨dmac, smac, net, sport, dport, udpCheck, bfd⟩ := dg
  have heth : slice (Datagram.bytes ⟨dmac, smac, net, sport, dport, udpCheck, bfd⟩) 0 ethSize =
      some (dmac.bytes ++ smac.bytes ++ htons net.protocol) := by
    cases net with
    | v4 check saddr daddr => rfl
    | v6 saddr daddr => rfl
  rw [txUpdate, heth, Datagram.update]
  simp only [splice_eth]
  cases w.dynptr with
  | false => rfl
  | true =>
    cases w.eth with
    | false => rfl
    | true =>
      cases net with
      | v4 check saddr daddr =>
        simp only [Net.protocol, if_pos,
          txUpdateIpv4_bytes ⟨params.dmac, params.smac, .v4 check saddr daddr, sport, dport, udpCheck, bfd⟩ rfl]
        cases w.ip with
        | false => rfl
        | true => cases w.l3 <;> rfl
      | v6 saddr daddr =>
        simp only [Net.protocol, if_neg ethPIpv6_ne,
          txUpdateIpv6_bytes ⟨params.dmac, params.smac, .v6 saddr daddr, sport, dport, udpCheck, bfd⟩ rfl]
        cases w.ip <;> rfl

end

def summed (protocol : UInt16) (data : Bytes) : Bytes :=
  if protocol = ethPIp then (data.drop 14).take 20 else pseudoOf (data.drop 14) ++ udpOf (data.drop 14)

def AddsUp (protocol : UInt16) (data : Bytes) : Prop :=
  onesSum (netWords (summed protocol data)) = full ∧ (protocol = ethPIp → (data.drop 40).take 2 = [0, 0])

instance (protocol : UInt16) (data : Bytes) : Decidable (AddsUp protocol data) :=
  inferInstanceAs (Decidable (_ ∧ _))

/-- A receiver takes the frame for intact. Over IPv6 it does not take a datagram
without a checksum. -/
def Verifies (protocol : UInt16) (data : Bytes) : Prop :=
  AddsUp protocol data ∧ (protocol ≠ ethPIp → (data.drop 60).take 2 ≠ [0, 0])

instance (protocol : UInt16) (data : Bytes) : Decidable (Verifies protocol data) :=
  inferInstanceAs (Decidable (_ ∧ _))

def ipFront : Bytes := [0x45, 0] ++ htons (20 + udpLen) ++ [0, 0, 0, 0, 255, ipprotoUdp]

def udpRest (daddr : Addr) (sport dport : UInt16) : Bytes :=
  memAddr daddr ++ [0, 0] ++ htons udpLen ++ [0, 0, 0, ipprotoUdp] ++
    (htons sport ++ htons dport ++ htons udpLen)

@[simp] theorem length_udpRest (daddr : Addr) (sport dport : UInt16) :
    (udpRest daddr sport dport).length = 30 := rfl

section

variable {R : Replacement} {w : Writes} {params : FibParams} {dg : Datagram}

theorem words_memAddr (addr : Addr) :
    (words (memAddr addr)).sum ≡ addr.w0.toNat + addr.w1.toNat + addr.w2.toNat + addr.w3.toNat [MOD full] := by
  have hsum : (words (memAddr addr)).sum =
      (words (mem32 addr.w0)).sum + (words (mem32 addr.w1)).sum + (words (mem32 addr.w2)).sum +
        (words (mem32 addr.w3)).sum := by
    simp [memAddr, mem32, words]
    omega
  rw [hsum]
  exact (((words_mem32 _).add (words_mem32 _)).add (words_mem32 _)).add (words_mem32 _)

theorem sum_v4 {check : UInt16} {saddr daddr : UInt32} (hn : dg.net = .v4 check saddr daddr) :
    (words (summed dg.net.protocol dg.bytes)).sum =
      (words ipFront).sum + ((words (mem32 saddr)).sum + (words (mem32 daddr)).sum) + check.toNat := by
  obtain ⟨dmac, smac, net, sport, dport, udpCheck, bfd⟩ := dg
  subst hn
  have hsummed : summed ethPIp
    (Datagram.bytes ⟨dmac, smac, .v4 check saddr daddr, sport, dport, udpCheck, bfd⟩) =
      ipFront ++ mem16 check ++ (mem32 saddr ++ mem32 daddr) := rfl
  have hwords : words (mem32 saddr ++ mem32 daddr) = words (mem32 saddr) ++ words (mem32 daddr) :=
    words_append (by simp [mem32])
  rw [Net.protocol, hsummed, words_checked rfl, hwords, List.sum_append]

theorem sum_v6 {saddr daddr : Addr} (hn : dg.net = .v6 saddr daddr) :
    (words (summed dg.net.protocol dg.bytes)).sum =
      (words (memAddr saddr)).sum + (words (udpRest daddr dg.sport dg.dport)).sum +
        (words (memPkt dg.bfd)).sum + dg.udpCheck.toNat := by
  obtain ⟨dmac, smac, net, sport, dport, udpCheck, bfd⟩ := dg
  subst hn
  have hsummed : summed ethPIpv6 (Datagram.bytes ⟨dmac, smac, .v6 saddr daddr, sport, dport, udpCheck, bfd⟩) =
      memAddr saddr ++ udpRest daddr sport dport ++ mem16 udpCheck ++ memPkt bfd := rfl
  have hwords : words (memAddr saddr ++ udpRest daddr sport dport) = words (memAddr saddr) ++ words
    (udpRest daddr sport dport) :=
    words_append (by simp)
  rw [Net.protocol, hsummed, words_checked (by simp), hwords, List.sum_append]

theorem ipFront_pos : (words ipFront).sum ≠ 0 := by decide

theorem udpRest_pos (daddr : Addr) (sport dport : UInt16) :
    (words (udpRest daddr sport dport)).sum ≠ 0 := by
  have hsplit : udpRest daddr sport dport = memAddr daddr ++ ([0, 0, 0, 32] ++ ([0, 0, 0, ipprotoUdp] ++
      (htons sport ++ htons dport ++ htons udpLen))) := rfl
  have heven : [(0 : UInt8), 0, 0, 32].length % 2 = 0 := rfl
  have hlen : (words [0, 0, 0, 32]).sum = 8192 := by decide
  rw [hsplit, words_append (by simp), words_append heven, List.sum_append, List.sum_append, hlen]
  omega

theorem sum_pos : (words (summed dg.net.protocol dg.bytes)).sum ≠ 0 := by
  cases hn : dg.net with
  | v4 check saddr daddr =>
    have hpos := ipFront_pos
    rw [← hn, sum_v4 hn]
    omega
  | v6 saddr daddr =>
    have hpos := udpRest_pos daddr dg.sport dg.dport
    rw [← hn, sum_v6 hn]
    omega

/-- What a whole update writes, when it writes more than the link header. -/
inductive Replaced (R : Replacement) (src : Addr) (dg dg' : Datagram) : Prop
  | v4 (check : UInt16) (saddr daddr : UInt32) : dg.net = .v4 check saddr daddr →
      dg'.net = .v4 (R.replace check saddr src.w0) src.w0 daddr →
        dg'.udpCheck = R.mangled dg.udpCheck saddr src.w0 →
      Replaced R src dg dg'
  | v6 (saddr daddr : Addr) : dg.net = .v6 saddr daddr → dg'.net = .v6 src daddr →
      dg'.udpCheck = R.replaceAll dg.udpCheck (srcPairs saddr src) → Replaced R src dg dg'

/-- The same frame but for who sends it and the checksums. -/
structure Alike (dg dg' : Datagram) : Prop where
  protocol : dg'.net.protocol = dg.net.protocol
  daddr : dg'.net.daddr = dg.net.daddr
  sport : dg'.sport = dg.sport
  dport : dg'.dport = dg.dport
  bfd : dg'.bfd = dg.bfd

theorem Alike.refl (dg : Datagram) : Alike dg dg := ⟨rfl, rfl, rfl, rfl, rfl⟩

theorem Alike.trans {dg dg' dg'' : Datagram} (h : Alike dg dg') (h' : Alike dg' dg'') : Alike dg dg'' :=
  ⟨h'.protocol.trans h.protocol, h'.daddr.trans h.daddr, h'.sport.trans h.sport, h'.dport.trans
    h.dport, h'.bfd.trans h.bfd⟩

theorem update_alike : Alike dg (dg.update R w params).2 := by
  obtain ⟨dmac, smac, net, sport, dport, udpCheck, bfd⟩ := dg
  cases net with
  | v4 check saddr daddr =>
    simp only [Datagram.update]
    split_ifs <;> exact ⟨rfl, rfl, rfl, rfl, rfl⟩
  | v6 saddr daddr =>
    simp only [Datagram.update]
    split_ifs <;> exact ⟨rfl, rfl, rfl, rfl, rfl⟩

theorem update_steady (hs : w.Steady) :
    ((dg.update R w params).2.net = dg.net ∧ (dg.update R w params).2.udpCheck = dg.udpCheck ∧
      (dg.update R w params).1 = false) ∨
      (Replaced R params.src dg (dg.update R w params).2 ∧ (dg.update R w params).1 = true) := by
  obtain ⟨hl3, hl4⟩ := hs
  obtain ⟨dmac, smac, net, sport, dport, udpCheck, bfd⟩ := dg
  cases net with
  | v4 check saddr daddr =>
    simp only [Datagram.update, hl3, checks, hl4, if_true]
    split_ifs
    · exact .inl ⟨rfl, rfl, rfl⟩
    · exact .inl ⟨rfl, rfl, rfl⟩
    · contradiction
    · exact .inr ⟨.v4 check saddr daddr rfl rfl rfl, rfl⟩
  | v6 saddr daddr =>
    simp only [Datagram.update, checks, hl4, if_true]
    split_ifs
    · exact .inl ⟨rfl, rfl, rfl⟩
    · exact .inl ⟨rfl, rfl, rfl⟩
    · exact .inr ⟨.v6 saddr daddr rfl rfl rfl, rfl⟩

theorem update_sum (hs : w.Steady) :
    (words (summed (dg.update R w params).2.net.protocol (dg.update R w params).2.bytes)).sum ≡
      (words (summed dg.net.protocol dg.bytes)).sum [MOD full] := by
  obtain ⟨-, -, hsport, hdport, hbfd⟩ := @update_alike R w params dg
  obtain ⟨hnet, hcheck, -⟩ | ⟨hrep, -⟩ := @update_steady R w params dg hs
  · cases hn : dg.net with
    | v4 check saddr daddr => rw [← hn, sum_v4 hn, sum_v4 (hnet.trans hn)]
    | v6 saddr daddr => rw [← hn, sum_v6 hn, sum_v6 (hnet.trans hn), hsport, hdport, hbfd, hcheck]
  · cases hrep with
    | v4 check saddr daddr hn hn' hcheck =>
      have hkeeps := R.keeps check saddr params.src.w0
      have hold := words_mem32 saddr
      have hnew := words_mem32 params.src.w0
      rw [sum_v4 hn, sum_v4 hn']
      simp only [Nat.ModEq, full] at hkeeps hold hnew ⊢
      omega
    | v6 saddr daddr hn hn' hcheck =>
      have hkeeps := R.replaceAll_keeps dg.udpCheck (srcPairs saddr params.src)
      have hold := words_memAddr saddr
      have hnew := words_memAddr params.src
      rw [sum_v6 hn, sum_v6 hn', hsport, hdport, hbfd, hcheck]
      simp only [srcPairs, List.map_cons, List.map_nil, List.sum_cons, List.sum_nil, Nat.ModEq,
        full] at hkeeps hold hnew ⊢
      omega

theorem udpCheck_zero {check : UInt16} {saddr daddr : UInt32} (hn : dg.net = .v4 check saddr daddr) :
    (dg.bytes.drop 40).take 2 = [0, 0] ↔ dg.udpCheck = 0 := by
  obtain ⟨dmac, smac, net, sport, dport, udpCheck, bfd⟩ := dg
  subst hn
  exact mem16_eq_zero

theorem update_udpCheck (hs : w.Steady) (hp : dg.net.protocol = ethPIp) :
    ((dg.update R w params).2.bytes.drop 40).take 2 = [0, 0] ↔ (dg.bytes.drop 40).take 2 = [0, 0] := by
  cases hn : dg.net with
  | v6 saddr daddr =>
    rw [hn] at hp
    exact absurd hp ethPIpv6_ne
  | v4 check saddr daddr =>
    obtain ⟨hnet, hcheck, -⟩ | ⟨hrep, -⟩ := @update_steady R w params dg hs
    · rw [udpCheck_zero hn, udpCheck_zero (hnet.trans hn), hcheck]
    · cases hrep with
      | v4 check' saddr' daddr' hn' hnet hcheck =>
        rw [udpCheck_zero hn, udpCheck_zero hnet, hcheck, R.mangled_eq_zero]
      | v6 saddr' daddr' hn' => rw [hn] at hn'; cases hn'

theorem update_addsUp (hs : w.Steady) :
    AddsUp (dg.update R w params).2.net.protocol (dg.update R w params).2.bytes ↔
      AddsUp dg.net.protocol dg.bytes := by
  have hsum := residue_full_congr (@update_sum R w params dg hs) sum_pos sum_pos
  rw [AddsUp, AddsUp, onesSum_netWords, onesSum_netWords, onesSum_eq (words_le _), onesSum_eq (words_le _), hsum,
    update_alike.protocol]
  exact and_congr_right fun _ => forall_congr' (update_udpCheck hs)

end

end Bbdd.Frames
