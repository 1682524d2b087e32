import Bbdd.Frames.Datagram
import Bbdd.Lib.Transition
import Mathlib.Data.List.Forall2

namespace Bbdd.Frames

open Lib.Wire Lib.Splice Lib.Transition Packet Session Prog Datapath

def Datagram.skb (dg : Datagram) (frame : Frame) : Skb where
  protocol := dg.net.protocol
  ipProtocol := ipprotoUdp
  udpDest := dg.dport
  bfd := dg.bfd
  mark := frame.mark
  hash := frame.hash
  len := dg.net.len
  tstamp := frame.tstamp

def Depicts (P : Datagram → Prop) (frame : Frame) (skb : Skb) : Prop :=
  ∃ dg, P dg ∧ frame.protocol = dg.net.protocol ∧ frame.data = dg.bytes ∧ skb = dg.skb frame

def Sent (P : Datagram → Prop) (out : UInt32 × Bytes) (packet : UInt32 × BfdPkt) : Prop :=
  ∃ dg, P dg ∧ out = (packet.1, dg.bytes) ∧ packet.2 = dg.bfd

def bare (k : Kernel) : Kernel := { k with circ := [], wire := [] }

structure Shows (P : Datagram → Prop) (line : Line) (k : Kernel) : Prop where
  kernel : line.kernel = bare k
  circ : List.Forall₂ (Depicts P) line.circ k.circ
  wire : List.Forall₂ (Sent P) line.wire k.wire

structure Apart (f : Kernel → Kernel) : Prop where
  bare : ∀ k, bare (f k) = f (bare k)
  circ : ∀ k, (f k).circ = k.circ
  wire : ∀ k, (f k).wire = k.wire

theorem apart_bump (st : GlobalDiagStat) : Apart (·.bump st) := ⟨fun _ => rfl, fun _ => rfl, fun _ => rfl⟩

theorem apart_mapData (discr : UInt32) (f : SessionEntry → SessionEntry) : Apart (·.mapData discr f) :=
  ⟨fun _ => rfl, fun _ => rfl, fun _ => rfl⟩

theorem apart_bumpDiag (discr : UInt32) (st : SessionDiagStat) : Apart (·.bumpDiag discr st) :=
  apart_mapData discr _

theorem apart_notify (reserve : Bool) (elem : RbElem) : Apart (·.notify reserve elem) := by
  cases reserve with
  | false => exact ⟨fun _ => rfl, fun _ => rfl, fun _ => rfl⟩
  | true => exact ⟨fun _ => rfl, fun _ => rfl, fun _ => rfl⟩

theorem Apart.comp {f g : Kernel → Kernel} (hg : Apart g) (hf : Apart f) : Apart (fun k => g (f k)) :=
  ⟨fun k => (hg.bare _).trans (congrArg g (hf.bare k)), fun k =>
    (hg.circ _).trans (hf.circ k), fun k => (hg.wire _).trans (hf.wire k)⟩

section

variable {P : Datagram → Prop} {line : Line} {k : Kernel} {f : Kernel → Kernel}

theorem Shows.on (hs : Shows P line k) (hf : Apart f) : Shows P (line.on f) (f k) where
  kernel := by
    rw [hf.bare, ← hs.kernel]
    rfl
  circ := by
    rw [hf.circ]
    exact hs.circ
  wire := by
    rw [hf.wire]
    exact hs.wire

def TxAnswers.view (R : Replacement) (h : TxAnswers) (frame : Frame) : TxHelpers :=
  ⟨h.fib, h.params.ifindex, h.params.dst,
    (txUpdate R h.writes h.params frame.protocol frame.data).1, h.redirect, h.reserve,
    h.prandom, h.ktimeNs⟩

structure Refines (P : Datagram → Prop) (r : TcAct × Frame × Line) (q : TcAct × Skb × Kernel) : Prop where
  act : r.1 = q.1
  packet : Depicts P r.2.1 q.2.1
  state : Shows P r.2.2 q.2.2

variable {veth discr : UInt32} {R : Replacement} {h : TxAnswers} {config : SessionConfig}
    {final : Bool} {rc : TcAct}
  {frame : Frame} {skb : Skb} {dg : Datagram} {b : TxHelpers}

theorem txOut_refines (hd : Depicts P frame skb) (hs : Shows P line k)
    (hb : b.prandom = h.prandom ∧ b.ktimeNs = h.ktimeNs) :
    Refines P (txOut h config final rc frame line) (Prog.txOut b config final rc skb k) := by
  unfold txOut Prog.txOut
  cases final with
  | true => exact ⟨rfl, hd, hs.on (apart_bump _)⟩
  | false =>
    obtain ⟨dg, hP, hp, hdata, rfl⟩ := hd
    refine ⟨rfl, ⟨dg, hP, hp, hdata, ?_⟩, hs⟩
    rw [hb.1, hb.2]
    rfl

theorem skb_of_alike {dg dg' : Datagram} (ha : Alike dg dg') (frame : Frame) (data : Bytes) :
    dg.skb frame = dg'.skb { frame with data } := by
  have hlen : dg'.net.len = dg.net.len := by
    have hp := ha.protocol
    unfold Net.len
    cases hn : dg.net with
    | v4 => cases hn' : dg'.net with
      | v4 => rfl
      | v6 => rw [hn, hn'] at hp; exact absurd hp ethPIpv6_ne
    | v6 => cases hn' : dg'.net with
      | v4 => rw [hn, hn'] at hp; exact absurd hp.symm ethPIpv6_ne
      | v6 => rfl
  simp only [Datagram.skb, ha.protocol, ha.dport, ha.bfd, hlen]

theorem Depicts.updated (hd : Depicts P frame skb) (hP : ∀ dg, P dg → P (dg.update R h.writes h.params).2) :
    ∃ dg', P dg' ∧ txUpdate R h.writes h.params frame.protocol frame.data =
        ((txUpdate R h.writes h.params frame.protocol frame.data).1, dg'.bytes) ∧
      dg'.bfd = skb.bfd ∧ dg'.net.len = skb.len ∧ Depicts P { frame with data := dg'.bytes } skb := by
  obtain ⟨dg, hdg, hp, hdata, rfl⟩ := hd
  have ha : Alike dg (dg.update R h.writes h.params).2 := update_alike
  have hskb := skb_of_alike ha frame (dg.update R h.writes h.params).2.bytes
  refine ⟨(dg.update R h.writes h.params).2, hP dg hdg, ?_, ha.bfd, congrArg Skb.len hskb.symm, _,
    hP dg hdg, ?_, rfl, hskb⟩
  · rw [hp, hdata, txUpdate_bytes]
  · exact hp.trans ha.protocol.symm

theorem txForward_refines (hd : Depicts P frame skb) (hs : Shows P line k)
    (hP : ∀ dg, P dg → P (dg.update R h.writes h.params).2) :
    Refines P (txForward veth R h config discr final frame line)
      (Prog.txForward veth (h.view R frame) config discr final skb k) := by
  obtain ⟨dg', hdg', hupdate, hbfd, hlen, hd'⟩ := hd.updated hP
  have hout : (h.view R frame).prandom = h.prandom ∧ (h.view R frame).ktimeNs = h.ktimeNs := ⟨rfl, rfl⟩
  have hupd : (h.view R frame).update = (txUpdate R h.writes h.params frame.protocol frame.data).1 := rfl
  have hidx : (h.view R frame).ifindex = h.params.ifindex := rfl
  have hredir : (h.view R frame).redirect = h.redirect := rfl
  unfold txForward Prog.txForward
  rw [hupd, hupdate, hidx, hredir]
  generalize (txUpdate R h.writes h.params frame.protocol frame.data).1 = updated
  dsimp only
  by_cases hv : h.params.ifindex = veth
  · rw [if_pos hv, if_pos hv]
    exact txOut_refines hd (hs.on (apart_bumpDiag _ _)) hout
  rw [if_neg hv, if_neg hv]
  cases updated with
  | false => exact txOut_refines hd' (hs.on (apart_bumpDiag _ _)) hout
  | true =>
    cases h.redirect with
    | false =>
      simp only [Bool.not_true, Bool.not_false, Bool.and_true, Bool.false_eq_true, if_true, if_false]
      cases final with
      | true => exact ⟨rfl, hd', hs.on ((apart_bump _).comp (apart_bumpDiag _ _))⟩
      | false => exact txOut_refines hd' (hs.on (apart_bumpDiag _ _)) hout
    | true =>
      simp only [Bool.not_true, Bool.and_false, Bool.false_eq_true, if_false]
      have hsent : Shows P { line with wire := (h.params.ifindex, dg'.bytes) :: line.wire }
          { k with wire := (h.params.ifindex, skb.bfd) :: k.wire } :=
        ⟨hs.kernel, hs.circ, .cons ⟨dg', hdg', rfl, hbfd.symm⟩ hs.wire⟩
      have hcount : dg'.bytes.length = skb.len.toNat := by rw [length_bytes, hlen]
      rw [hcount]
      exact txOut_refines hd' (hsent.on (apart_mapData discr _)) hout

theorem txGetBfd_refines (hd : Depicts P frame skb) :
    (txGetBfd frame).map Prod.fst = Prog.txGetBfd skb := by
  obtain ⟨dg, hdg, hp, hdata, rfl⟩ := hd
  rw [txGetBfd_bytes dg hp hdata]
  have hip : ¬ ((dg.skb frame).protocol ≠ ethPIp ∧ (dg.skb frame).protocol ≠ ethPIpv6) := by
    rw [show (dg.skb frame).protocol = dg.net.protocol from rfl]
    cases dg.net with
    | v4 => exact fun hn => hn.1 rfl
    | v6 => exact fun hn => hn.2 rfl
  rw [Prog.txGetBfd, if_neg hip, if_neg (show ¬ (dg.skb frame).ipProtocol ≠ ipprotoUdp from not_not.mpr rfl)]
  by_cases hport : dg.dport ≠ bfdSingleHopPort ∧ dg.dport ≠ bfdMultiHopPort
  · rw [if_pos hport, if_pos (show (dg.skb frame).udpDest ≠ bfdSingleHopPort ∧
      (dg.skb frame).udpDest ≠ bfdMultiHopPort from hport)]
    rfl
  · rw [if_neg hport, if_neg (show ¬ ((dg.skb frame).udpDest ≠ bfdSingleHopPort ∧
      (dg.skb frame).udpDest ≠ bfdMultiHopPort) from hport)]
    rfl

theorem Depicts.hashed (hd : Depicts P frame skb) (hash : UInt32) :
    Depicts P (if frame.hash = 0 then { frame with hash } else frame)
      (if skb.hash = 0 then { skb with hash } else skb) := by
  obtain ⟨dg, hdg, hp, hdata, rfl⟩ := hd
  rw [show (dg.skb frame).hash = frame.hash from rfl]
  split_ifs
  · exact ⟨dg, hdg, hp, hdata, rfl⟩
  · exact ⟨dg, hdg, hp, hdata, rfl⟩

theorem view_hashed (hash : UInt32) :
    h.view R (if frame.hash = 0 then { frame with hash } else frame) = h.view R frame := by
  split_ifs <;> rfl

theorem txRoute_refines (hd : Depicts P frame skb) (hs : Shows P line k)
    (hP : ∀ dg, P dg → P (dg.update R h.writes h.params).2) :
    Refines P
      (match fibFailure h.fib with
        | none => txForward veth R h config discr final frame line
        | some .txNoNeigh =>
          if final then
            (.stolen, frame, (line.on (·.notify h.reserve (txNotifyNoNeigh h frame.protocol))).on
              (fun k => (k.bumpDiag discr .txNoNeighFinal).bump .skReleasedCount))
          else txOut h config final .shot frame
            ((line.on (·.notify h.reserve (txNotifyNoNeigh h frame.protocol))).on (·.bumpDiag discr .txNoNeigh))
        | some st => txOut h config final .shot frame (line.on (·.bumpDiag discr st)))
      (match fibFailure (h.view R frame).fib with
        | none => Prog.txForward veth (h.view R frame) config discr final skb k
        | some .txNoNeigh =>
          if final then
            (.stolen, skb, ((k.notify (h.view R frame).reserve
              (Prog.txNotifyNoNeigh (h.view R frame) skb.protocol)).bumpDiag discr
                .txNoNeighFinal).bump .skReleasedCount)
          else Prog.txOut (h.view R frame) config final .shot skb
            ((k.notify (h.view R frame).reserve
              (Prog.txNotifyNoNeigh (h.view R frame) skb.protocol)).bumpDiag discr .txNoNeigh)
        | some st => Prog.txOut (h.view R frame) config final .shot skb (k.bumpDiag discr st)) := by
  have hout : (h.view R frame).prandom = h.prandom ∧ (h.view R frame).ktimeNs = h.ktimeNs := ⟨rfl, rfl⟩
  have hfib : (h.view R frame).fib = h.fib := rfl
  have helem : Prog.txNotifyNoNeigh (h.view R frame) skb.protocol = txNotifyNoNeigh h frame.protocol := by
    obtain ⟨dg, -, hp, -, rfl⟩ := hd
    rw [hp]
    rfl
  have hreserve : (h.view R frame).reserve = h.reserve := rfl
  have hnote := hs.on (apart_notify h.reserve (txNotifyNoNeigh h frame.protocol))
  rw [hfib, helem, hreserve]
  split
  · exact txForward_refines hd hs hP
  · cases final with
    | true => exact ⟨rfl, hd, hnote.on ((apart_bump _).comp (apart_bumpDiag _ _))⟩
    | false =>
      rw [if_neg Bool.false_ne_true, if_neg Bool.false_ne_true]
      exact txOut_refines hd (hnote.on (apart_bumpDiag _ _)) hout
  · exact txOut_refines hd (hs.on (apart_bumpDiag _ _)) hout

theorem xmitVethTx_refines (hd : Depicts P frame skb) (hs : Shows P line k)
    (hP : ∀ dg, P dg → P (dg.update R h.writes h.params).2) :
    Refines P (xmitVethTx veth R h frame line) (Prog.xmitVethTx veth (h.view R frame) skb k) := by
  have hget := txGetBfd_refines hd
  have hmark : skb.mark = frame.mark := by
    obtain ⟨dg, -, -, -, rfl⟩ := hd
    rfl
  have hconfig (d : UInt32) : line.kernel.config d = k.config d := by rw [hs.kernel]; rfl
  have hdata (d : UInt32) : line.kernel.data d = k.data d := by rw [hs.kernel]; rfl
  unfold xmitVethTx Prog.xmitVethTx
  rw [← hget]
  cases txGetBfd frame with
  | none => exact ⟨rfl, hd, hs.on (apart_bump _)⟩
  | some found =>
    obtain ⟨bfd, totLen⟩ := found
    simp only [Option.map_some, hconfig, hdata]
    cases k.config (ntoh32 bfd.myDisc) with
    | none => exact ⟨rfl, hd, hs.on ((apart_bump _).comp (apart_bump _))⟩
    | some config =>
      cases k.data (ntoh32 bfd.myDisc) with
      | none => exact ⟨rfl, hd, hs.on ((apart_bump _).comp (apart_bump _))⟩
      | some entry =>
        by_cases hgen : frame.mark ≠ config.genId
        · simp only [if_pos hgen, if_pos (show skb.mark ≠ config.genId from hmark ▸ hgen)]
          exact ⟨rfl, hd, hs.on ((apart_bump _).comp (apart_bumpDiag _ _))⟩
        · simp only [if_neg hgen, if_neg (show ¬ skb.mark ≠ config.genId from hmark ▸ hgen)]
          have hd' := hd.hashed (ntoh32 bfd.myDisc ^^^ config.genId * 2654435761)
          rw [← view_hashed (ntoh32 bfd.myDisc ^^^ config.genId * 2654435761)]
          generalize (if frame.hash = 0 then { frame with hash := ntoh32 bfd.myDisc ^^^
            config.genId * 2654435761 } else frame) = frame' at hd' ⊢
          generalize (if skb.hash = 0 then { skb with hash := ntoh32 bfd.myDisc ^^^ config.genId *
            2654435761 } else skb) = skb' at hd' ⊢
          exact txRoute_refines hd' hs hP

end

/-- What happens on a line. The daemon sends packets, edits the maps and takes
from the ring buffer; the rest is the kernel's own. -/
inductive Event
  | send (h : TxAnswers) (smac : Mac) (dsess : DSession) (genId : UInt32) (bfd : BfdPkt)
  | edit (f : Kernel → Kernel) (apart : Apart f)
  | pass (h : TxAnswers) (i : Nat)
  | recv (h : TimerHelpers) (reserve : Bool) (skb : SockSkb)
  | expired (reserve : Bool) (discr : UInt32)

def Line.step (veth : UInt32) (R : Replacement) (line : Line) : Event → Line
  | .send h smac dsess genId bfd => Frames.send veth R h (injectFrame smac dsess genId bfd) line
  | .edit f _ => line.on f
  | .pass h i => Frames.pass veth R h i line
  | .recv h reserve skb => line.on (Prog.recv h reserve (recvGetBfd skb))
  | .expired reserve discr => line.on (sessionExpired reserve discr)

def inject (veth : UInt32) (h : TxHelpers) (skb : Skb) (k : Kernel) : Kernel :=
  match Prog.xmitVethTx veth h skb k with
  | (.ok, skb', k') => { k' with circ := k'.circ ++ [skb'] }
  | (_, _, k') => k'

/-- What happens to a kernel with packets in place of bytes. -/
inductive PacketEvent
  | inject (h : TxHelpers) (skb : Skb)
  | edit (f : Kernel → Kernel) (apart : Apart f)
  | own (ev : KernelEvent)

def packetStep (veth : UInt32) (k : Kernel) : PacketEvent → Kernel
  | .inject h skb => inject veth h skb k
  | .edit f _ => f k
  | .own ev => k.step veth ev

def bytesSystem (veth : UInt32) (R : Replacement) : System Line Event :=
  .ofStep .empty (fun line ev => some (line.step veth R ev))

def Event.seen (R : Replacement) (line : Line) : Event → PacketEvent
  | .send h smac dsess genId bfd => .inject (h.view R (injectFrame smac dsess genId bfd))
      (injectSkb dsess genId bfd)
  | .edit f apart => .edit f apart
  | .pass h i => .own (.pass i (h.view R ((line.circ[i]?).getD ⟨0, [], 0, 0, 0⟩)))
  | .recv h reserve skb => .own (.recv h reserve (recvGetBfd skb))
  | .expired reserve discr => .own (.expired reserve discr)

def lockstep (veth : UInt32) (R : Replacement) (s : Line × Kernel) (ev : Event) : Line × Kernel :=
  (s.1.step veth R ev, packetStep veth s.2 (ev.seen R s.1))

def injectDatagram (smac : Mac) (dsess : DSession) (bfd : BfdPkt) : Datagram where
  dmac := .broadcast
  smac := smac
  net := if dsess.dst.family = afInet then .v4 (inetCksum (iphdr dsess 0)) dsess.src.addr.w0 dsess.dst.addr.w0
    else .v6 dsess.src.addr dsess.dst.addr
  sport := dsess.src.port
  dport := dsess.dst.port
  udpCheck := if dsess.dst.family = afInet then 0 else udp6Cksum dsess (udphdr dsess 0 ++ memPkt bfd)
  bfd := bfd

/-- What a run allows: packets with one property to be sent, and answers with another. -/
def Event.Allowed (A : Writes → Prop) (Q : DSession → BfdPkt → Prop) : Event → Prop
  | .send h _ dsess _ bfd => A h.writes ∧ Q dsess bfd
  | .pass h _ => A h.writes
  | .edit .. | .recv .. | .expired .. => True

section

variable {P : Datagram → Prop} {A : Writes → Prop} {Q : DSession → BfdPkt → Prop} {line : Line}
    {k : Kernel} {veth : UInt32}
  {R : Replacement} {h : TxAnswers} {frame : Frame} {skb : Skb}

theorem inject_depicts (smac : Mac) (dsess : DSession) (genId : UInt32) (bfd : BfdPkt)
    (hP : P (injectDatagram smac dsess bfd)) :
    Depicts P (injectFrame smac dsess genId bfd) (injectSkb dsess genId bfd) := by
  refine ⟨injectDatagram smac dsess bfd, hP, ?_⟩
  by_cases hf : dsess.dst.family = afInet
  · simp only [injectFrame, injectDatagram, injectSkb, injectBytes, if_pos hf]
    exact ⟨rfl, rfl, rfl⟩
  · simp only [injectFrame, injectDatagram, injectSkb, injectBytes, if_neg hf]
    exact ⟨rfl, rfl, rfl⟩

theorem send_shows (hd : Depicts P frame skb) (hs : Shows P line k)
    (hP : ∀ dg, P dg → P (dg.update R h.writes h.params).2) :
    Shows P (send veth R h frame line) (inject veth (h.view R frame) skb k) := by
  have hr : Refines P (xmitVethTx veth R h frame line)
    (Prog.xmitVethTx veth (h.view R frame) skb k) := xmitVethTx_refines hd hs hP
  unfold send inject
  generalize xmitVethTx veth R h frame line = r at hr ⊢
  generalize Prog.xmitVethTx veth (h.view R frame) skb k = q at hr ⊢
  obtain ⟨act, frame', line'⟩ := r
  obtain ⟨_, skb', k'⟩ := q
  obtain ⟨rfl, hd', hs'⟩ := hr
  cases act with
  | ok => exact ⟨hs'.kernel, List.rel_append hs'.circ (.cons hd' .nil), hs'.wire⟩
  | shot => exact hs'
  | stolen => exact hs'
  | redirect => exact hs'

theorem forall₂_eraseIdx {α β : Type} {r : α → β → Prop} {l : List α} {m : List β}
    (h : List.Forall₂ r l m) (i : Nat) :
    List.Forall₂ r (l.eraseIdx i) (m.eraseIdx i) := by
  rw [List.eraseIdx_eq_take_drop_succ, List.eraseIdx_eq_take_drop_succ]
  exact List.rel_append (List.forall₂_take i h) (List.forall₂_drop (i + 1) h)

theorem forall₂_set {α β : Type} {r : α → β → Prop} {l : List α} {m : List β}
    (h : List.Forall₂ r l m) (i : Nat) {a : α} {b : β} (hab : r a b) :
    List.Forall₂ r (l.set i a) (m.set i b) := by
  induction h generalizing i with
  | nil => exact .nil
  | cons hh ht ih =>
    cases i with
    | zero => exact .cons hab ht
    | succ i => exact .cons hh (ih i)

theorem forall₂_getElem? {α β : Type} {r : α → β → Prop} {l : List α} {m : List β}
    (h : List.Forall₂ r l m) (i : Nat) {a : α} (ha : l[i]? = some a) :
    ∃ b, m[i]? = some b ∧ r a b := by
  induction h generalizing i with
  | nil => simp at ha
  | cons hh ht ih =>
    cases i with
    | zero =>
      cases ha
      exact ⟨_, rfl, hh⟩
    | succ i => exact ih i ha

theorem pass_shows {i : Nat} (hi : line.circ[i]? = some frame) (hs : Shows P line k)
    (hP : ∀ dg, P dg → P (dg.update R h.writes h.params).2) :
    Shows P (pass veth R h i line) (Prog.pass veth i (h.view R frame) k) := by
  obtain ⟨skb, hk, hd⟩ := forall₂_getElem? hs.circ i hi
  have hr : Refines P (xmitVethTx veth R h frame line)
    (Prog.xmitVethTx veth (h.view R frame) skb k) := xmitVethTx_refines hd hs hP
  unfold pass Prog.pass
  rw [hi, hk]
  dsimp only
  generalize xmitVethTx veth R h frame line = r at hr ⊢
  generalize Prog.xmitVethTx veth (h.view R frame) skb k = q at hr ⊢
  obtain ⟨act, frame', line'⟩ := r
  obtain ⟨_, skb', k'⟩ := q
  obtain ⟨rfl, hd', hs'⟩ := hr
  cases act with
  | ok => exact ⟨hs'.kernel, forall₂_set hs'.circ i hd', hs'.wire⟩
  | shot => exact ⟨hs'.kernel, forall₂_eraseIdx hs'.circ i, hs'.wire⟩
  | stolen => exact ⟨hs'.kernel, forall₂_eraseIdx hs'.circ i, hs'.wire⟩
  | redirect => exact ⟨hs'.kernel, forall₂_eraseIdx hs'.circ i, hs'.wire⟩

theorem apart_of {g : Kernel → Kernel}
    (hg : ∀ k, ∃ f, Apart f ∧ g k = f k ∧ g (bare k) = f (bare k)) : Apart g where
  bare k := by
    obtain ⟨f, hf, hk, hb⟩ := hg k
    rw [hk, hb, hf.bare]
  circ k := by
    obtain ⟨f, hf, hk, -⟩ := hg k
    rw [hk, hf.circ]
  wire k := by
    obtain ⟨f, hf, hk, -⟩ := hg k
    rw [hk, hf.wire]

theorem apart_id : Apart id := ⟨fun _ => rfl, fun _ => rfl, fun _ => rfl⟩

theorem apart_recv (h : TimerHelpers) (reserve : Bool) (rx : RxFrame) : Apart (Prog.recv h reserve rx) := by
  refine apart_of fun k => ?_
  have hv : recvVerdict (bare k) rx = recvVerdict k rx := rfl
  unfold Prog.recv
  rw [hv]
  cases recvVerdict k rx with
  | notBfd => exact ⟨_, apart_bump _, rfl, rfl⟩
  | wrongVersion => exact ⟨_, apart_bump _, rfl, rfl⟩
  | invalidLength => exact ⟨_, apart_bump _, rfl, rfl⟩
  | discr0 bfd => exact ⟨_, (apart_notify _ _).comp (apart_bump _), rfl, rfl⟩
  | noSession => exact ⟨_, apart_bump _, rfl, rfl⟩
  | adminDown discr => exact ⟨_, apart_bumpDiag _ _, rfl, rfl⟩
  | ttlLow discr => exact ⟨_, apart_bumpDiag _ _, rfl, rfl⟩
  | unexpected bfd => exact ⟨_, apart_notify _ _, rfl, rfl⟩
  | expected discr config => exact ⟨_, apart_mapData _ _, rfl, rfl⟩

theorem apart_expired (reserve : Bool) (discr : UInt32) : Apart (sessionExpired reserve discr) := by
  refine apart_of fun k => ?_
  have hdata : (bare k).data discr = k.data discr := rfl
  unfold sessionExpired
  rw [hdata]
  cases k.data discr with
  | none => exact ⟨_, apart_id, rfl, rfl⟩
  | some e =>
    dsimp only
    split_ifs
    · exact ⟨_, apart_id, rfl, rfl⟩
    · exact ⟨_, (apart_notify _ _).comp (apart_mapData _ _), rfl, rfl⟩

theorem step_shows {ev : Event} (hs : Shows P line k) (hev : ev.Allowed A Q)
    (hinject : ∀ smac dsess bfd, Q dsess bfd → P (injectDatagram smac dsess bfd))
    (hP : ∀ dg w params, A w → P dg → P (dg.update R w params).2) :
    Shows P (line.step veth R ev) (packetStep veth k (ev.seen R line)) := by
  cases ev with
  | send h smac dsess genId bfd =>
    have hd := inject_depicts smac dsess genId bfd (hinject smac dsess bfd hev.2)
    exact send_shows hd hs fun dg => hP dg h.writes h.params hev.1
  | edit f apart => exact hs.on apart
  | pass h i =>
    cases hi : line.circ[i]? with
    | none =>
      have hk : k.circ[i]? = none := by
        rw [List.getElem?_eq_none_iff, ← hs.circ.length_eq]
        exact List.getElem?_eq_none_iff.mp hi
      simp only [Line.step, pass, hi, Event.seen, packetStep, Kernel.step, Prog.pass, hk]
      exact hs
    | some frame =>
      simp only [Event.seen, hi, Option.getD_some]
      exact pass_shows hi hs fun dg => hP dg h.writes h.params hev
  | recv h reserve skb => exact hs.on (apart_recv _ _ _)
  | expired reserve discr => exact hs.on (apart_expired _ _)

theorem empty_shows : Shows P .empty .empty := ⟨rfl, .nil, .nil⟩

theorem run_shows (hinject : ∀ smac dsess bfd, Q dsess bfd → P (injectDatagram smac dsess bfd))
    (hP : ∀ dg w params, A w → P dg → P (dg.update R w params).2)
    (hr : Run (bytesSystem veth R) (fun _ ev => ev.Allowed A Q) line) : ∃ k, Shows P line k := by
  refine Run.invariant (I := fun line => ∃ k, Shows P line k) ?_ ?_ hr
  · rintro _ rfl
    exact ⟨.empty, empty_shows⟩
  · rintro line ev line' - ⟨k, hs⟩ hev hstep
    cases hstep
    exact ⟨_, step_shows hs hev hinject hP⟩

end

/-- Whatever happens, the kernel that makes of the daemon's packets what it makes
of them byte by byte goes in step with the kernel that knows of a packet only
what the programs read: with the same maps, counters and notifications, the same
packets in the loop and the same packets out. -/
theorem bytes_refine (veth : UInt32) (R : Replacement) (evs : List Event) :
    Shows (fun _ => True) (evs.foldl (lockstep veth R) (.empty, .empty)).1
      (evs.foldl (lockstep veth R) (.empty, .empty)).2 := by
  refine List.foldlRecOn evs _ (motive := fun s : Line × Kernel => Shows (fun _ => True) s.1 s.2)
    empty_shows fun s hs ev _ => ?_
  have hev : ev.Allowed (fun _ => True) (fun _ _ => True) := by cases ev <;> trivial
  exact step_shows hs hev (fun _ _ _ _ => trivial) (fun _ _ _ _ _ => trivial)

end Bbdd.Frames
