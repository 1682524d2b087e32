import Bbdd.Frames.Loop
import Bbdd.Prog.Pass

namespace Bbdd.Frames

open Lib.Wire Lib.Splice Lib.Checksum Lib.Transition Packet Session Prog Datapath

section

variable {smac : Mac} {dsess : DSession} {bfd : BfdPkt}

theorem injectDatagram_addsUp : AddsUp (injectDatagram smac dsess bfd).net.protocol
    (injectDatagram smac dsess bfd).bytes := by
  by_cases hf : dsess.dst.family = afInet
  · have hnet : (injectDatagram smac dsess bfd).net = .v4 (inetCksum (iphdr dsess 0))
      dsess.src.addr.w0 dsess.dst.addr.w0 :=
      if_pos hf
    have hcheck : (injectDatagram smac dsess bfd).udpCheck = 0 := if_pos hf
    refine ⟨?_, fun _ => (udpCheck_zero hnet).mpr hcheck⟩
    have hsummed : summed (injectDatagram smac dsess bfd).net.protocol (injectDatagram smac dsess bfd).bytes =
        iphdr dsess (inetCksum (iphdr dsess 0)) := by
      simp only [injectDatagram, if_pos hf]
      rfl
    rw [hsummed]
    exact iphdr_full dsess
  · have hsummed : summed (injectDatagram smac dsess bfd).net.protocol (injectDatagram smac dsess bfd).bytes =
        pseudo dsess ++ (udphdr dsess (udp6Cksum dsess (udphdr dsess 0 ++ memPkt bfd)) ++ memPkt bfd) := by
      simp only [injectDatagram, if_neg hf]
      rfl
    have hnet : (injectDatagram smac dsess bfd).net.protocol = ethPIpv6 := by
      simp only [injectDatagram, if_neg hf]
      rfl
    refine ⟨?_, fun hp => absurd (hnet.symm.trans hp) ethPIpv6_ne⟩
    rw [hsummed]
    exact (udp_full dsess bfd).1

end

def ihl (first : UInt8) : Nat := 4 * (first &&& 0xf).toNat

def arrive (ifindex : UInt32) (data : Bytes) : SockSkb :=
  let protocol := ntohs (data.drop 12)
  let net := data.drop 14
  ⟨ifindex, protocol, net, net.drop (if protocol = ethPIp then ihl (net.getD 0 0) else 40)⟩

theorem arrive_bytes (dg : Datagram) (ifindex : UInt32) :
    arrive ifindex dg.bytes = ⟨ifindex, dg.net.protocol, dg.net.bytes ++ dg.udp, dg.udp⟩ := by
  obtain ⟨dmac, smac, net, sport, dport, udpCheck, bfd⟩ := dg
  have hprotocol := ntohs_htons net.protocol
    (net.bytes ++ Datagram.udp ⟨dmac, smac, net, sport, dport, udpCheck, bfd⟩)
  have hdrop : (Datagram.bytes ⟨dmac, smac, net, sport, dport, udpCheck, bfd⟩).drop 12 =
      htons net.protocol ++ (net.bytes ++ Datagram.udp ⟨dmac, smac, net, sport, dport, udpCheck, bfd⟩) := rfl
  have hnet : (Datagram.bytes ⟨dmac, smac, net, sport, dport, udpCheck, bfd⟩).drop 14 =
      net.bytes ++ Datagram.udp ⟨dmac, smac, net, sport, dport, udpCheck, bfd⟩ := rfl
  rw [arrive, hdrop, hprotocol, hnet]
  cases net with
  | v4 check saddr daddr =>
    have hihl : ihl 0x45 = 20 := by decide
    exact congrArg (fun n => SockSkb.mk ifindex ethPIp _ (List.drop n _)) hihl
  | v6 saddr daddr => rfl

theorem slice_front (front rest : Bytes) : slice (front ++ rest) 0 front.length = some front := by
  rw [slice, if_pos (by simp), List.drop_zero, List.take_left]

theorem recvParse_v4 (check : UInt16) (saddr daddr : UInt32) (udp : Bytes) :
    recvParseIpv4 ((Net.v4 check saddr daddr).bytes ++ udp) =
      some ⟨255, (Net.v4 check saddr daddr).len, ⟨saddr, 0, 0, 0⟩, ⟨daddr, 0, 0, 0⟩⟩ := by
  have hiph : slice ((Net.v4 check saddr daddr).bytes ++ udp) 0 ipSize =
    some (Net.v4 check saddr daddr).bytes := slice_front _ udp
  have hlen : (Net.v4 check saddr daddr).bytes.drop 2 =
      htons (20 + udpLen) ++ ([0, 0, 0, 0, 255, ipprotoUdp] ++ mem16 check ++ mem32 saddr ++ mem32 daddr) := rfl
  have hsaddr : (Net.v4 check saddr daddr).bytes.drop 12 = mem32 saddr ++ mem32 daddr := rfl
  have hdaddr : (Net.v4 check saddr daddr).bytes.drop 16 = mem32 daddr ++ [] := rfl
  simp only [recvParseIpv4, hiph, Option.bind_eq_bind, Option.bind_some, hlen, hsaddr, hdaddr,
    ntohs_htons, load32_mem32]
  rfl

theorem recvParse_v6 (saddr daddr : Addr) (udp : Bytes) :
    recvParseIpv6 ((Net.v6 saddr daddr).bytes ++ udp) = some ⟨255, (Net.v6 saddr daddr).len, saddr, daddr⟩ := by
  have hip6h : slice ((Net.v6 saddr daddr).bytes ++ udp) 0 ip6Size =
    some (Net.v6 saddr daddr).bytes := slice_front _ udp
  have hlen : (Net.v6 saddr daddr).bytes.drop 4 = htons udpLen ++
    ([ipprotoUdp, 255] ++ memAddr saddr ++ memAddr daddr) := rfl
  have hsaddr : (Net.v6 saddr daddr).bytes.drop 8 = memAddr saddr ++ memAddr daddr := rfl
  have hdaddr : (Net.v6 saddr daddr).bytes.drop 24 = memAddr daddr ++ [] := rfl
  simp only [recvParseIpv6, hip6h, Option.bind_eq_bind, Option.bind_some, hlen, hsaddr, hdaddr,
    ntohs_htons, loadAddr_memAddr]
  rfl

theorem recvGetBfd_arrive (dg : Datagram) (ifindex : UInt32) :
    recvGetBfd (arrive ifindex dg.bytes) =
      ⟨ifindex, dg.net.protocol, dg.net.saddr, dg.net.daddr, 255, dg.dport, dg.net.len, some dg.bfd⟩ := by
  have hparse : (if dg.net.protocol = ethPIp then recvParseIpv4 (dg.net.bytes ++ dg.udp)
    else recvParseIpv6 (dg.net.bytes ++ dg.udp)) =
      some ⟨255, dg.net.len, dg.net.saddr, dg.net.daddr⟩ := by
    cases dg.net with
    | v4 check saddr daddr => exact recvParse_v4 check saddr daddr dg.udp
    | v6 saddr daddr => exact recvParse_v6 saddr daddr dg.udp
  have hudph : slice dg.udp 0 udpSize =
    some (htons dg.sport ++ (htons dg.dport ++ (htons udpLen ++ mem16 dg.udpCheck))) := rfl
  have hbfd : slice dg.udp udpSize 24 = some (memPkt dg.bfd) := rfl
  have hdport : (htons dg.sport ++ (htons dg.dport ++ (htons udpLen ++ mem16 dg.udpCheck))).drop 2 =
      htons dg.dport ++ (htons udpLen ++ mem16 dg.udpCheck) := rfl
  rw [arrive_bytes]
  simp only [recvGetBfd, hparse, hudph, hbfd, hdport, ntohs_htons, Option.map_some, loadPkt_memPkt]

def peerAddr (dsess : DSession) : Addr :=
  if dsess.dst.family = afInet then ⟨dsess.dst.addr.w0, 0, 0, 0⟩ else dsess.dst.addr

theorem inject_net (smac : Mac) (dsess : DSession) (genId : UInt32) (bfd : BfdPkt) :
    (injectDatagram smac dsess bfd).net.daddr = peerAddr dsess ∧
      (injectDatagram smac dsess bfd).net.protocol = (injectSkb dsess genId bfd).protocol ∧
      (injectDatagram smac dsess bfd).net.len = (injectSkb dsess genId bfd).len := by
  by_cases hf : dsess.dst.family = afInet
  · simp only [injectDatagram, injectSkb, peerAddr, if_pos hf]
    exact ⟨rfl, rfl, rfl⟩
  · simp only [injectDatagram, injectSkb, peerAddr, if_neg hf]
    exact ⟨rfl, rfl, rfl⟩

def Intact (Q : DSession → BfdPkt → Prop) (dg : Datagram) : Prop :=
  AddsUp dg.net.protocol dg.bytes ∧ ∃ smac dsess bfd, Q dsess bfd ∧ Alike (injectDatagram smac dsess bfd) dg

theorem run_intact {veth : UInt32} {R : Replacement} {Q : DSession → BfdPkt → Prop} {line : Line}
    (hr : Run (bytesSystem veth R) (fun _ ev => ev.Allowed Writes.Steady Q) line) :
    ∃ k, Shows (Intact Q) line k := by
  refine run_shows ?_ ?_ hr
  · intro smac dsess bfd hQ
    exact ⟨injectDatagram_addsUp, smac, dsess, bfd, hQ, .refl _⟩
  · rintro dg w params hw ⟨hv, smac, dsess, bfd, hQ, ha⟩
    exact ⟨(update_addsUp hw).mpr hv, smac, dsess, bfd, hQ, ha.trans update_alike⟩

theorem exists_of_forall₂ {α β : Type} {r : α → β → Prop} {l : List α} {m : List β}
    (h : List.Forall₂ r l m) {a : α} (ha : a ∈ l) :
    ∃ b, r a b := by
  induction h with
  | nil => cases ha
  | cons hh _ ih =>
    cases ha with
    | head => exact ⟨_, hh⟩
    | tail _ ha => exact ih ha

/-- All of the datagram but its checksum adds up already, so that the checksum is
nothing in one's complement. -/
def Balanced (saddr : Addr) (dsess : DSession) (bfd : BfdPkt) : Prop :=
  (words (memAddr saddr)).sum + (words (udpRest dsess.dst.addr dsess.src.port dsess.dst.port)).sum +
    (words (memPkt bfd)).sum ≡ 0 [MOD full]

theorem bare_v6 {dg : Datagram} {saddr daddr : Addr} (hn : dg.net = .v6 saddr daddr) :
    (dg.bytes.drop 60).take 2 = [0, 0] ↔ dg.udpCheck = 0 := by
  obtain ⟨dmac, smac, net, sport, dport, udpCheck, bfd⟩ := dg
  subst hn
  exact mem16_eq_zero

theorem balanced_of_bare {smac : Mac} {dsess : DSession} {bfd : BfdPkt} {dg : Datagram}
    (ha : Alike (injectDatagram smac dsess bfd) dg) (hf : dsess.dst.family ≠ afInet)
    (hv : AddsUp dg.net.protocol dg.bytes) (hz : (dg.bytes.drop 60).take 2 = [0, 0]) :
    Balanced dg.net.saddr dsess bfd := by
  have hnet : (injectDatagram smac dsess bfd).net = .v6 dsess.src.addr dsess.dst.addr := if_neg hf
  have hp := ha.protocol
  have hdaddr := ha.daddr
  rw [hnet] at hp hdaddr
  cases hn : dg.net with
  | v4 check saddr daddr =>
    rw [hn] at hp
    exact absurd hp.symm ethPIpv6_ne
  | v6 saddr daddr =>
    obtain rfl : daddr = dsess.dst.addr := by rw [hn] at hdaddr; exact hdaddr
    have hcheck := (bare_v6 hn).mp hz
    have hsport : dg.sport = dsess.src.port := ha.sport
    have hdport : dg.dport = dsess.dst.port := ha.dport
    have hbfd : dg.bfd = bfd := ha.bfd
    have hsum := hv.1
    rw [onesSum_netWords, onesSum_eq (words_le _), residue_eq_full, sum_v6 hn, hcheck, hsport,
      hdport, hbfd, UInt16.toNat_zero,
      Nat.add_zero] at hsum
    exact Nat.modEq_zero_iff_dvd.mpr hsum.2

theorem injectSkb_protocol_ne {dsess : DSession} {genId : UInt32} {bfd : BfdPkt} :
    (injectSkb dsess genId bfd).protocol ≠ ethPIp ↔ dsess.dst.family ≠ afInet := by
  simp only [injectSkb]
  split_ifs with hf
  · exact iff_of_false (fun h => h rfl) fun h => h hf
  · exact iff_of_true ethPIpv6_ne hf

/-- However often a packet was rewritten on its way around the loop, each time it
is handed to a device its checksums add up, and a peer that takes it reads from
it the very packet the daemon sent, to the session's address and port and with
all its hops. A peer does not take it if it goes over IPv6 and has no checksum,
which is so only where it needs none. -/
theorem wire_intact {veth : UInt32} {R : Replacement} {Q : DSession → BfdPkt → Prop} {line : Line}
    (hr : Run (bytesSystem veth R) (fun _ ev => ev.Allowed Writes.Steady Q) line)
    {out : UInt32 × Bytes} (hout : out ∈ line.wire) :
    ∃ dsess bfd saddr, Q dsess bfd ∧ AddsUp (injectSkb dsess 0 bfd).protocol out.2 ∧
      (Verifies (injectSkb dsess 0 bfd).protocol out.2 ↔
        ¬ (dsess.dst.family ≠ afInet ∧ (out.2.drop 60).take 2 = [0, 0])) ∧
      (dsess.dst.family ≠ afInet → (out.2.drop 60).take 2 = [0, 0] → Balanced saddr dsess bfd) ∧
      ∀ ifindex, recvGetBfd (arrive ifindex out.2) =
        ⟨ifindex, (injectSkb dsess 0 bfd).protocol, saddr, peerAddr dsess, 255, dsess.dst.port,
          (injectSkb dsess 0 bfd).len, some bfd⟩ := by
  obtain ⟨k, hs⟩ := run_intact hr
  obtain ⟨packet, dg, ⟨hv, smac, dsess, bfd, hQ, ha⟩, rfl, -⟩ := exists_of_forall₂ hs.wire hout
  obtain ⟨hdaddr, hprotocol, hlen⟩ := inject_net smac dsess 0 bfd
  have hadds : AddsUp (injectSkb dsess 0 bfd).protocol dg.bytes := by
    rw [← hprotocol, ← ha.protocol]
    exact hv
  refine ⟨dsess, bfd, dg.net.saddr, hQ, hadds, ?_, fun hf => balanced_of_bare ha hf hv, fun ifindex => ?_⟩
  · rw [Verifies, and_iff_right hadds, injectSkb_protocol_ne, not_and]
  · have hlen' : dg.net.len = (injectDatagram smac dsess bfd).net.len :=
      (congrArg Skb.len (skb_of_alike ha ⟨0, [], 0, 0, 0⟩ [])).symm
    rw [recvGetBfd_arrive, ha.protocol, hprotocol, ha.daddr, hdaddr, ha.dport, hlen', hlen, ha.bfd]
    rfl

def Circles (veth : UInt32) (R : Replacement) (frame frame' : Frame) : Prop :=
  ∃ h line line', h.writes.Steady ∧ xmitVethTx veth R h frame line = (.ok, frame', line')

def Torn (frame : Frame) : Prop :=
  ∃ dg : Datagram, frame.protocol = ethPIp ∧ dg.net.protocol = ethPIp ∧ frame.data = dg.bytes ∧
    ¬ AddsUp ethPIp dg.bytes

section

variable {veth : UInt32} {R : Replacement} {h : TxAnswers} {config : SessionConfig} {discr : UInt32}
    {final : Bool} {finalRc : TcAct}
  {w : Writes} {params : FibParams} {dg : Datagram} {frame frame' : Frame} {line : Line}

structure Leaves (R : Replacement) (h : TxAnswers) (frame : Frame) (line : Line)
    (r : TcAct × Frame × Line) : Prop where
  protocol : r.2.1.protocol = frame.protocol
  data : r.2.1.data = frame.data ∨ r.2.1.data = (txUpdate R h.writes h.params frame.protocol frame.data).2
  wire : ∀ out ∈ r.2.2.wire, out ∈ line.wire ∨ out.2 = r.2.1.data

theorem txOut_leaves (frame' : Frame) (hp : frame'.protocol = frame.protocol)
    (hd : frame'.data = frame.data ∨
      frame'.data = (txUpdate R h.writes h.params frame.protocol frame.data).2) {line' : Line}
    (hw : ∀ out ∈ line'.wire, out ∈ line.wire ∨ out.2 = frame'.data) : Leaves R h frame line
    (txOut h config final finalRc frame' line') := by
  unfold txOut
  split_ifs
  · exact ⟨hp, hd, hw⟩
  · exact ⟨hp, hd, hw⟩

theorem txForward_leaves : Leaves R h frame line (txForward veth R h config discr final frame line) := by
  have hsame : ∀ out ∈ line.wire, out ∈ line.wire ∨
    out.2 = (txUpdate R h.writes h.params frame.protocol frame.data).2 := fun _ h => .inl h
  have hupdated : ∀ {line' : Line} {finalRc : TcAct},
      (∀ out ∈ line'.wire, out ∈ line.wire ∨
        out.2 = (txUpdate R h.writes h.params frame.protocol frame.data).2) →
      Leaves R h frame line (txOut h config final finalRc
        { frame with data := (txUpdate R h.writes h.params frame.protocol frame.data).2 } line') := by
    intro line' finalRc hw
    refine txOut_leaves _ ?_ (.inr ?_) hw
    · rfl
    · rfl
  unfold txForward
  dsimp only
  split_ifs
  · exact txOut_leaves frame rfl (.inl rfl) fun _ h => .inl h
  · exact hupdated hsame
  · exact ⟨rfl, .inr rfl, hsame⟩
  · exact hupdated hsame
  · refine hupdated fun out hout => ?_
    obtain rfl | hout := List.mem_cons.mp hout
    · exact .inr rfl
    · exact .inl hout

theorem Leaves.hashed (hash : UInt32) {r : TcAct × Frame × Line}
    (hl : Leaves R h (if frame.hash = 0 then { frame with hash } else frame) line r) :
    Leaves R h frame line r := by
  split_ifs at hl
  · exact ⟨hl.protocol, hl.data, hl.wire⟩
  · exact hl

theorem xmitVethTx_leaves : Leaves R h frame line (xmitVethTx veth R h frame line) := by
  have hsame : ∀ out ∈ line.wire, out ∈ line.wire ∨ out.2 = frame.data := fun _ h => .inl h
  unfold xmitVethTx
  cases txGetBfd frame with
  | none => exact ⟨rfl, .inl rfl, hsame⟩
  | some found =>
    obtain ⟨bfd, totLen⟩ := found
    dsimp only
    cases line.kernel.config (ntoh32 bfd.myDisc) with
    | none => exact ⟨rfl, .inl rfl, hsame⟩
    | some config =>
      cases line.kernel.data (ntoh32 bfd.myDisc) with
      | none => exact ⟨rfl, .inl rfl, hsame⟩
      | some entry =>
        dsimp only
        split
        · exact ⟨rfl, .inl rfl, hsame⟩
        · refine Leaves.hashed (ntoh32 bfd.myDisc ^^^ config.genId * 2654435761) ?_
          generalize (if frame.hash = 0 then { frame with hash := ntoh32 bfd.myDisc ^^^
            config.genId * 2654435761 } else frame) = frame'
          have hout : ∀ f : Kernel → Kernel, Leaves R h frame' line
              (txOut h config (hasBit (pktBits bfd) bitFinal) .shot frame' (line.on f)) :=
            fun f => txOut_leaves frame' rfl (.inl rfl) fun _ h => .inl h
          cases fibFailure h.fib with
          | none => exact txForward_leaves
          | some st =>
            cases st with
            | txNoNeigh =>
              dsimp only
              split_ifs
              · exact ⟨rfl, .inl rfl, fun _ h => .inl h⟩
              · exact txOut_leaves frame' rfl (.inl rfl) fun _ h => .inl h
            | _ => exact hout _

theorem Torn.leaves (ht : Torn frame) (hs : h.writes.Steady) {r : TcAct × Frame × Line}
    (hl : Leaves R h frame line r) :
    Torn r.2.1 ∧ ∀ out ∈ r.2.2.wire, out ∈ line.wire ∨ ¬ AddsUp ethPIp out.2 := by
  obtain ⟨dg, hp, hnet, hd, hv⟩ := ht
  have htorn : Torn r.2.1 := by
    obtain hdata | hdata := hl.data
    · exact ⟨dg, hl.protocol.trans hp, hnet, hdata.trans hd, hv⟩
    · have hnet' : (dg.update R h.writes h.params).2.net.protocol = ethPIp := update_alike.protocol.trans hnet
      refine ⟨(dg.update R h.writes h.params).2, hl.protocol.trans hp, hnet', ?_, ?_⟩
      · rw [hdata, hp, hd, ← hnet, txUpdate_bytes]
      · have hiff := @update_addsUp R h.writes h.params dg hs
        rw [hnet', hnet] at hiff
        exact fun h => hv (hiff.mp h)
  refine ⟨htorn, fun out hout => (hl.wire out hout).imp_right fun heq => ?_⟩
  obtain ⟨dg', -, -, hd', hv'⟩ := htorn
  rw [heq, hd']
  exact hv'

theorem Torn.circles (ht : Torn frame) (hc : Relation.ReflTransGen (Circles veth R) frame frame') :
    Torn frame' := by
  induction hc with
  | refl => exact ht
  | tail _ hstep ih =>
    obtain ⟨h, line, line', hs, hrun⟩ := hstep
    have hleaves := (ih.leaves hs (@xmitVethTx_leaves veth R h _ line)).1
    rwa [hrun] at hleaves

theorem update_torn {check : UInt16} {saddr daddr : UInt32} (hn : dg.net = .v4 check saddr daddr)
    (hw : w.dynptr = true ∧ w.eth = true ∧ w.ip = true ∧ w.l3 = false) :
    (dg.update R w params).1 = false ∧ (dg.update R w params).2.net = .v4 check params.src.w0 daddr := by
  obtain ⟨hdynptr, heth, hip, hl3⟩ := hw
  simp only [Datagram.update, hdynptr, heth, hip, hl3, hn]
  exact ⟨rfl, rfl⟩

theorem not_addsUp_of_torn {dg' : Datagram} {check : UInt16} {saddr saddr' daddr : UInt32}
    (hn : dg.net = .v4 check saddr daddr) (hn' : dg'.net = .v4 check saddr' daddr)
    (hv : AddsUp ethPIp dg.bytes) (hne : ¬ saddr.toNat ≡ saddr'.toNat [MOD full]) :
    ¬ AddsUp ethPIp dg'.bytes := by
  have hp : dg.net.protocol = ethPIp := by rw [hn]; rfl
  have hp' : dg'.net.protocol = ethPIp := by rw [hn']; rfl
  intro hv'
  -- both sums are full, so the addresses agree but for carries
  have hsum := hv.1
  have hsum' := hv'.1
  rw [← hp, onesSum_netWords, onesSum_eq (words_le _), residue_eq_full, sum_v4 hn] at hsum
  rw [← hp', onesSum_netWords, onesSum_eq (words_le _), residue_eq_full, sum_v4 hn'] at hsum'
  have hold := words_mem32 saddr
  have hnew := words_mem32 saddr'
  apply hne
  simp only [Nat.ModEq, full] at hold hnew hsum hsum' ⊢
  omega

theorem Torn.not_addsUp (h : Torn frame) : ¬ AddsUp ethPIp frame.data := by
  obtain ⟨dg', -, -, hd, hv⟩ := h
  rw [hd]
  exact hv

theorem xmitVethTx_failed {totLen : UInt16} {entry : SessionEntry}
    (hget : txGetBfd frame = some (bfd, totLen)) (hfinal : hasBit (pktBits bfd) bitFinal = false)
    (hconfig : line.kernel.config (ntoh32 bfd.myDisc) = some config)
    (hentry : line.kernel.data (ntoh32 bfd.myDisc) = some entry)
    (hmark : frame.mark = config.genId) (hfib : fibFailure h.fib = none)
    (hveth : h.params.ifindex ≠ veth)
    (hfails : (txUpdate R h.writes h.params frame.protocol frame.data).1 = false) :
    ∃ frame' line', xmitVethTx veth R h frame line = (.ok, frame', line') ∧ frame'.protocol = frame.protocol ∧
      frame'.data = (txUpdate R h.writes h.params frame.protocol frame.data).2 ∧ line'.circ = line.circ := by
  have hsame : ∀ hash : UInt32, (if frame.hash = 0 then { frame with hash } else frame).protocol =
    frame.protocol ∧
      (if frame.hash = 0 then { frame with hash } else frame).data = frame.data := by
    intro hash
    split_ifs <;> exact ⟨rfl, rfl⟩
  simp only [xmitVethTx, hget, hconfig, hentry, hfib, hfinal, if_neg (not_not.mpr hmark)]
  obtain ⟨hp, hd⟩ := hsame (ntoh32 bfd.myDisc ^^^ config.genId * 2654435761)
  generalize (if frame.hash = 0 then { frame with hash := ntoh32 bfd.myDisc ^^^ config.genId *
    2654435761 } else frame) = frame'
    at hp hd ⊢
  simp only [txForward, if_neg hveth, hp, hd, hfails, Bool.not_false, if_true, txOut,
    Bool.false_eq_true, if_false]
  exact ⟨_, _, rfl, rfl, rfl, rfl⟩

/-- When the update of the IPv4 header of a packet in the loop that is no Final
fails after the source address was written and before the checksum was, the
packet stays in the loop with a wrong checksum: each later turn accounts for its
own change alone, no number of them puts the checksum right, and all they send
is wrong. -/
theorem torn_stays {i : Nat} {check : UInt16} {saddr daddr : UInt32} {entry : SessionEntry}
    (hi : line.circ[i]? = some frame) (hp : frame.protocol = ethPIp) (hd : frame.data = dg.bytes)
    (hn : dg.net = .v4 check saddr daddr)
    (hport : dg.dport = bfdSingleHopPort ∨ dg.dport = bfdMultiHopPort)
    (hfinal : hasBit (pktBits dg.bfd) bitFinal = false)
    (hconfig : line.kernel.config (ntoh32 dg.bfd.myDisc) = some config)
    (hentry : line.kernel.data (ntoh32 dg.bfd.myDisc) = some entry)
    (hmark : frame.mark = config.genId) (hfib : fibFailure h.fib = none)
    (hveth : h.params.ifindex ≠ veth)
    (hw : h.writes.dynptr = true ∧ h.writes.eth = true ∧ h.writes.ip = true ∧ h.writes.l3 = false)
    (hv : AddsUp ethPIp dg.bytes) (hne : ¬ saddr.toNat ≡ h.params.src.w0.toNat [MOD full]) :
    ∃ torn, (pass veth R h i line).circ[i]? = some torn ∧ ∀ later, Relation.ReflTransGen
      (Circles veth R) torn later →
      ¬ AddsUp ethPIp later.data ∧ ∀ h' line', h'.writes.Steady →
        ∀ out ∈ (xmitVethTx veth R h' later line').2.2.wire, out ∈ line'.wire ∨ ¬ AddsUp ethPIp out.2 := by
  have hnet : dg.net.protocol = ethPIp := by rw [hn]; rfl
  obtain ⟨hupdate, hnet'⟩ := @update_torn R h.writes h.params dg _ _ _ hn hw
  have htx : txUpdate R h.writes h.params ethPIp dg.bytes =
    (false, (dg.update R h.writes h.params).2.bytes) := by
    rw [← hnet, txUpdate_bytes, hupdate]
  have hget : txGetBfd frame = some (dg.bfd, dg.net.totLen) := by
    rw [txGetBfd_bytes dg (hp.trans hnet.symm) hd, if_neg (not_and_or.mpr (hport.imp not_not.mpr not_not.mpr))]
  obtain ⟨torn, line', hrun, hpt, hdt, hcirc⟩ := xmitVethTx_failed (R := R) hget hfinal hconfig
    hentry hmark hfib hveth
    (by rw [hp, hd, htx])
  rw [hp, hd, htx] at hdt
  have htorn : Torn torn :=
    ⟨(dg.update R h.writes h.params).2, hpt.trans hp, update_alike.protocol.trans hnet, hdt,
      not_addsUp_of_torn hn hnet' hv hne⟩
  refine ⟨torn, ?_, fun later hlater => ?_⟩
  · obtain ⟨hlt, -⟩ := List.getElem?_eq_some_iff.mp hi
    simp only [pass, hi, hrun, hcirc]
    exact List.getElem?_set_self hlt
  · have ht := htorn.circles hlater
    exact ⟨ht.not_addsUp, fun h' line' hs => (ht.leaves hs xmitVethTx_leaves).2⟩

end

def csumAdd (a b : UInt32) : UInt32 := if a + b < b then a + b + 1 else a + b

theorem csumAdd_toNat (a b : UInt32) : (csumAdd a b).toNat ≡ a.toNat + b.toNat [MOD full] := by
  have ha := a.toNat_lt
  have hb := b.toNat_lt
  simp only [csumAdd, UInt32.lt_iff_toNat_lt]
  split_ifs with h
  · rw [UInt32.toNat_add] at h
    rw [UInt32.toNat_add, UInt32.toNat_add, Nat.ModEq, full]
    simp only [UInt32.reduceToNat]
    omega
  · rw [UInt32.toNat_add] at h ⊢
    rw [Nat.ModEq, full]
    omega

def replace4 (check : UInt16) (old new : UInt32) : UInt16 :=
  cksumFold (csumAdd (csumAdd (~~~ check.toUInt32) (~~~ old)) new)

theorem replace4_keeps (check : UInt16) (old new : UInt32) :
    (replace4 check old new).toNat + new.toNat ≡ check.toNat + old.toNat [MOD full] := by
  have hc := check.toNat_lt
  have ho := old.toNat_lt
  have h₁ := csumAdd_toNat (~~~ check.toUInt32) (~~~ old)
  have h₂ := csumAdd_toNat (csumAdd (~~~ check.toUInt32) (~~~ old)) new
  have hcheck : (~~~ check.toUInt32).toNat = 4294967295 - check.toNat := by
    rw [UInt32.toNat_not, UInt16.toNat_toUInt32]
    rfl
  have hold : (~~~ old).toNat = 4294967295 - old.toNat := by
    rw [UInt32.toNat_not]
    rfl
  rw [replace4, cksumFold_toNat]
  rw [hcheck, hold] at h₁
  simp only [Nat.ModEq, full, residue] at h₁ h₂ ⊢
  split_ifs <;> omega

def csumReplace4 : Replacement := ⟨replace4, replace4_keeps⟩

def fineAnswers : TxAnswers :=
  ⟨.success, ⟨2, ⟨0xb80d0120, 0, 0, 0x100⟩, .zero, ⟨2, 0, 0, 0, 0, 1⟩, ⟨2, 0, 0, 0, 0, 2⟩⟩,
    ⟨true, true, true, true, fun _ => true⟩, true,
    true, 0, 1000⟩

def fineEvents : List Event :=
  [.edit (fun k => { k with config := Kernel.ofFive.config, data := Kernel.ofFive.data })
    ⟨fun _ => rfl, fun _ => rfl, fun _ => rfl⟩,
    .send fineAnswers ⟨2, 0, 0, 0, 0, 3⟩ dbSession 7 dbPacket, .pass fineAnswers 0]

def fineLine : Line := fineEvents.foldl (fun line ev => line.step 1 csumReplace4 ev) .empty

theorem fineLine_run : Run (bytesSystem 1 csumReplace4)
    (fun _ ev => ev.Allowed Writes.Steady (fun dsess bfd => dsess = dbSession ∧ bfd = dbPacket)) fineLine := by
  have hsteady : fineAnswers.writes.Steady := ⟨rfl, fun _ => rfl⟩
  refine Run.foldl (.start rfl) ?_
  simp only [fineEvents, List.forall_mem_cons, List.not_mem_nil]
  exact ⟨fun _ => trivial, fun _ => ⟨hsteady, rfl, rfl⟩, fun _ => hsteady, fun _ h => h.elim⟩

theorem fineLine_wire : fineLine.wire.length = 2 := by decide +kernel

theorem wire_intact_fine : fineLine.wire.length = 2 ∧ ∀ out ∈ fineLine.wire, Verifies ethPIpv6 out.2 := by
  refine ⟨fineLine_wire, fun out hout => ?_⟩
  obtain ⟨dsess, bfd, -, ⟨rfl, rfl⟩, -, hiff, -⟩ := wire_intact fineLine_run hout
  have hcheck : ∀ out ∈ fineLine.wire, (out.2.drop 60).take 2 ≠ [0, 0] := by decide +kernel
  exact hiff.mpr fun h => hcheck out hout h.2

def plainDatagram : Datagram :=
  ⟨.broadcast, ⟨2, 0, 0, 0, 0, 3⟩, .v4 0xb537 0x010200c0 0x020200c0, 49152, bfdSingleHopPort, 0, dbPacket⟩

def plainFrame : Frame := ⟨ethPIp, plainDatagram.bytes, 7, 0, 0⟩

def tornAnswers : TxAnswers :=
  { fineAnswers with params := ⟨2, ⟨0x030200c0, 0, 0, 0⟩, .zero, .broadcast, .broadcast⟩, writes :=
    ⟨true, true, true, false, fun _ => true⟩ }

def plainLine : Line := ⟨Kernel.ofFive, [plainFrame], []⟩

theorem torn_stays_once : ∃ torn, (pass 1 csumReplace4 tornAnswers 0 plainLine).circ[0]? =
    some torn ∧ ¬ AddsUp ethPIp torn.data := by
  have hv : AddsUp ethPIp plainDatagram.bytes := by decide +kernel
  obtain ⟨torn, hi, hstays⟩ := @torn_stays 1 csumReplace4 tornAnswers _ plainDatagram plainFrame
    plainLine 0 _ _ _ _
    rfl rfl rfl rfl (.inl rfl)
      (by decide +kernel) rfl rfl rfl rfl (by decide) ⟨rfl, rfl, rfl, rfl⟩ hv (by decide)
  exact ⟨torn, hi, (hstays torn .refl).1⟩

end Bbdd.Frames
