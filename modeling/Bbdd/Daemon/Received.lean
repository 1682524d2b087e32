import Bbdd.Daemon.Discards
import Bbdd.Daemon.News
import Mathlib.Algebra.Group.Prod

namespace Bbdd.Daemon

open Lib.Program Lib.Directory Lib.Transition Packet Session Prog Datapath Poll

/-- The counters of a session as the daemon tells them: those of its entry in
the kernel and its own together. -/
def sessionStatsFill (w : World) (discr : UInt32) : Option (SessionStat → Nat) :=
  match w.bsdir.find discr, w.bpf.kernel.data discr with
  | some bsess, some data => some fun st => data.stats st + bsess.stats st
  | _, _ => none

def received (stats : SessionStat → Nat) : Nat × Nat := (stats .rxPackets, stats .rxBytes)

def World.rx (w : World) (discr : UInt32) : Option (Nat × Nat) := (sessionStatsFill w discr).map received

def heard (k : Kernel) (frame : RxFrame) (d : UInt32) : Nat × Nat :=
  match recvVerdict k frame with
  | .expected e _ => if e = d then (1, frame.wireLen.toNat) else 0
  | _ => 0

/-- The kernel goes on and counts so much for a session, packet by packet. -/
inductive Hears (d : UInt32) : Nat × Nat → Kernel → Kernel → Prop
  | refl (k) : Hears d 0 k k
  | deaf {n k k' k''} : Hears d n k k' →
      (k''.data d).map (received ·.stats) = (k'.data d).map (received ·.stats) → Hears d n k k''
  | recv {n k k'} (h reserve frame) : Hears d n k k' → Hears d (n + heard k' frame d) k (recv h reserve frame k')

def weight : RbElem → UInt32
  | .rxDiscr0 _ wireLen _ _ _ _ _ _ | .rxUnxPkt wireLen _ _ => wireLen
  | .txNoNeigh _ _ _ | .rxTimeout _ => 0

/-- The event brings a session a packet: the receive program gets it, with room
in the ring buffer, or the daemon takes it from there. -/
inductive Brings (nl : Nl) (w : World) (d : UInt32) : Event → BfdPkt → UInt8 → UInt32 → Prop
  | arrival {h frame packet} : frame.bfd = some packet → recipient nl w (handedOn frame packet) = some d →
      Brings nl w d (.kernel (.recv h true frame)) packet frame.ttl frame.wireLen
  | ring {elem rest packet ttl} : w.bpf.kernel.ring = elem :: rest → carried elem = some (packet, ttl) →
      recipient nl w elem = some d → Brings nl w d .ringbuf packet ttl (weight elem)

/-- What the kernel counted for other packets while the event was handled. -/
def Besides (d : UInt32) (w w' : World) : Event → Nat × Nat → Prop
  | .kernel _, n => n = 0
  | _, n => Hears d n w.bpf.kernel w'.bpf.kernel

/-- What becomes of a packet in the counters of its session: it waits in the
ring buffer and does not count yet, or it counts once, unless the rules
discard it. -/
inductive Reckoned (nl : Nl) (w w' : World) (d : UInt32) (e : Event) (packet : BfdPkt)
    (ttl : UInt8) (wireLen : UInt32) (rx : Nat × Nat) : Prop
  | postponed {elem} : e ≠ .ringbuf → w'.bpf.kernel.ring = w.bpf.kernel.ring ++ [elem] →
      carried elem = some (packet, ttl) → weight elem = wireLen → recipient nl w' elem = some d →
        w'.rx d = some rx →
      Reckoned nl w w' d e packet ttl wireLen rx
  | discarded {n} : Besides d w w' e n → Rejected w (some d) packet ttl → w'.rx d = some (rx + n) →
      Reckoned nl w w' d e packet ttl wireLen rx
  | counted {n} : Besides d w w' e n → ¬ Rejected w (some d) packet ttl →
      w'.rx d = some (rx + (1, wireLen.toNat) + n) → Reckoned nl w w' d e packet ttl wireLen rx

/-- The kernel has the entry of the session as it is; the session is off hold
and knows its peer. -/
def Mirrored (w : World) (d : UInt32) : Prop :=
  ∃ c args addrs, w.session d = some c ∧ c.bsess.bstate ≠ .onHold ∧ c.dsess.remoteData.discr ≠ 0 ∧
    w.bpf.kernel.config d = some (confEntry c.dsess c.bsess args addrs)

/-- Where the receive program does not hand a packet on, it is to know the
session as it is. The daemon is not to be given a packet that it drops after it
counted it. -/
def Fair (w : World) (d : UInt32) (packet : BfdPkt) (ttl : UInt8) : Event → Prop
  | .kernel (.recv _ _ frame) => ntoh32 packet.yourDisc ≠ 0 → recvVerdict w.bpf.kernel frame ≠
      .unexpected packet → Mirrored w d
  | .kernel _ => True
  | _ => ∀ c, w.session d = some c → c.bsess.bstate = .onHold ∨ c.bsess.bstate = .shuttingDown ∨
      (taken c packet ttl).isSome = true

section

variable {w w' : World} {c c' : Ctx} {k k' k'' : Kernel} {d : UInt32} {frame : RxFrame} {m n : Nat × Nat}

theorem Hears.trans (h : Hears d m k k') (h' : Hears d n k' k'') : Hears d (m + n) k k'' := by
  induction h' with
  | refl => exact h
  | deaf _ hd ih => exact .deaf (ih h) hd
  | recv th reserve frame _ ih => exact add_assoc m _ _ ▸ .recv th reserve frame (ih h)

theorem map_mapData {α : Type} {f : SessionEntry → SessionEntry} (g : SessionEntry → α) (e : UInt32) :
    ((k.mapData e f).data d).map g = (k.data d).map (fun entry => if d = e then g (f entry) else g entry) := by
  simp only [Kernel.mapData, Function.update_apply]
  split
  · rename_i he
    subst he
    rw [Option.map_map]
    rfl
  · rfl

theorem deaf_mapData {f : SessionEntry → SessionEntry}
    (hf : ∀ e, received (f e).stats = received e.stats) (k : Kernel) (e : UInt32) :
    ((k.mapData e f).data d).map (received ·.stats) = (k.data d).map (received ·.stats) := by
  rw [map_mapData]
  simp only [hf, ite_self]

theorem received_recvRearmTimer (h : TimerHelpers) (config : SessionConfig) (e : SessionEntry) :
    (recvRearmTimer h config e).stats = e.stats := by
  unfold recvRearmTimer
  split_ifs <;> rfl

theorem recv_heard (h : TimerHelpers) (reserve : Bool) (frame : RxFrame) (k : Kernel) (d : UInt32) :
    ((recv h reserve frame k).data d).map (received ·.stats) = (k.data d).map
    (fun e => received e.stats + heard k frame d) := by
  unfold recv heard
  cases hv : recvVerdict k frame with
  | notBfd | wrongVersion | invalidLength | noSession => simp [Kernel.bump]
  | discr0 bfd => simp [notify_data, Kernel.bump]
  | unexpected bfd => simp [notify_data]
  | adminDown e | ttlLow e =>
    simp only [add_zero]
    exact deaf_mapData (f := fun entry => entry.bumpDiag _) (fun _ => rfl) k e
  | expected e config =>
    simp only [map_mapData]
    congr 1
    funext entry
    by_cases hd : d = e
    · simp [hd, received, SessionEntry.bump, received_recvRearmTimer]
    · simp [hd, Ne.symm hd]

theorem Hears.rx (h : Hears d n k k') :
    (k'.data d).map (received ·.stats) = (k.data d).map (fun e => received e.stats + n) := by
  induction h with
  | refl => simp
  | deaf _ hd ih => exact hd.trans ih
  | @recv n k k' th reserve frame _ ih =>
    have hm := congrArg (Option.map (· + heard k' frame d)) ih
    rw [Option.map_map, Option.map_map] at hm
    refine (recv_heard th reserve frame k' d).trans (hm.trans ?_)
    simp only [Function.comp_def, add_assoc]

instance : Std.Refl (fun k k' => ∃ n, Hears d n k k') := ⟨fun k => ⟨0, .refl k⟩⟩

instance : IsTrans Kernel (fun k k' => ∃ n, Hears d n k k') := ⟨fun _ _ _ ⟨m, h⟩ ⟨n, h'⟩ => ⟨m + n, h.trans h'⟩⟩

theorem allows_hears (d : UInt32) : AllowsDaemon (fun k k' => ∃ n, Hears d n k k') := by
  have deaf : ∀ {k k' : Kernel}, (k'.data d).map (received ·.stats) = (k.data d).map
    (received ·.stats) → ∃ n, Hears d n k k' :=
    fun hd => ⟨0, .deaf (.refl _) hd⟩
  exact
    { bump := fun _ _ => deaf rfl
      bumpDiag := fun _ _ st => deaf (deaf_mapData (f := fun entry => entry.bumpDiag st) (fun _ => rfl) _ _)
      notify := fun _ _ _ _ => deaf (by rw [notify_data])
      circ := fun _ _ => deaf rfl
      wire := fun _ _ => deaf rfl
      sent := fun _ _ _ => deaf (deaf_mapData (fun _ => by simp [received, SessionEntry.bump]) _ _)
      rearm := fun _ _ h config => deaf (deaf_mapData (fun e => by rw [received_recvRearmTimer h config e]) _ _)
      expire := fun k e => deaf (deaf_mapData (by exact fun _ => rfl) k e)
      recv := fun h reserve frame k => ⟨_, .recv h reserve frame (.refl k)⟩
      setConfig := fun _ _ _ => deaf rfl }

theorem uncounted_respondPoll : Within Uncounted respondPoll := by
  refine within_bind (txHaveCapacity_within uncounted_ask) (fun _ => within_ite ?_ (uncounted_txEnqueue _ _ _))
  refine reported_within (fun _ => uncounted_onBpf _) ?_ _
  exact (injected_sessionInjectPkt _ _).mono (fun _ _ => Injected.uncounted)

theorem uncounted_acceptPacket (p : Parsed) : Within Uncounted (acceptPacket p) := by
  refine within_acceptPacket (fun c c' h => ?_) uncounted_respondPoll p
  exact keeps_of_moves (I := Uncounted c) (fun _ _ ht hu => trans_of Uncounted hu ht.uncounted) h
    (refl_of Uncounted c)

variable {packet : BfdPkt} {ttl : UInt8} {wireLen : UInt32} {rx : Nat × Nat} {nl : Nl} {elem : RbElem}

theorem handlePacket_received (h : handlePacket packet wireLen ttl c = .ok ((), c')) :
    (c.bsess.bstate = .onHold ∨ c.bsess.bstate = .shuttingDown → received c'.bsess.stats = received
      c.bsess.stats) ∧
    ((taken c packet ttl).isSome = true → received c'.bsess.stats = received c.bsess.stats +
      (1, wireLen.toNat)) := by
  constructor
  · intro hb
    have hs : wp (handlePacket packet wireLen ttl) (fun _ c' => c' = c) c := by simp [handlePacket, hb]
    rw [wp_ok hs h]
  · intro ht
    obtain ⟨hn, -⟩ | ⟨p, -, -, ha⟩ := handlePacket_ok h
    · rw [hn] at ht
      cases ht
    · have hstats : c'.bsess.stats = (counted c wireLen).bsess.stats := uncounted_acceptPacket p _ _ _ ha
      rw [hstats]
      simp [received, counted, BSession.bump]

theorem rx_eq_some : w.rx d = some rx ↔ ∃ s e, w.bsdir.find d = some s ∧ w.bpf.kernel.data d = some e ∧
    rx = received e.stats + received s.stats := by
  simp only [World.rx, sessionStatsFill]
  cases w.bsdir.find d with
  | none => simp
  | some s =>
    cases w.bpf.kernel.data d with
    | none => simp
    | some e =>
      simp only [Option.map_some, Option.some.injEq, exists_eq_left', exists_and_left]
      exact eq_comm

theorem rx_add {s s' : BSession} (h : w.rx d = some rx) (hs : w.bsdir.find d = some s)
    (hs' : w'.bsdir.find d = some s') (hn : received s'.stats = received s.stats + n)
    (hk : Hears d m w.bpf.kernel w'.bpf.kernel) :
    w'.rx d = some (rx + n + m) := by
  obtain ⟨t, e, ht, he, rfl⟩ := rx_eq_some.mp h
  rw [hs] at ht
  cases ht
  have hdata := hk.rx
  rw [he, Option.map_some] at hdata
  obtain ⟨e', he', hr⟩ := Option.map_eq_some_iff.mp hdata
  refine rx_eq_some.mpr ⟨s', e', hs', he', ?_⟩
  rw [hr, hn, add_add_add_comm, add_comm m n, ← add_assoc]

theorem rbHandle_recipient (hw : Sound w) (hc : carried elem = some (packet, ttl))
    (hd : recipient nl w elem = some d) :
    ∃ dsess, w.sdir.find d = some dsess ∧ dsess.localData.discr = d ∧
      ∀ Q, wp (packetFor (some dsess) packet (weight elem) ttl) Q w → wp (rbHandle nl elem) Q w := by
  cases elem with
  | txNoNeigh | rxTimeout => cases hc
  | rxUnxPkt wireLen ttl packet =>
    cases hc
    obtain ⟨dsess, hs, hname⟩ := Option.map_eq_some_iff.mp hd
    have hdisc := hw.discr_of_find hs
    refine ⟨dsess, by rw [← hname, hdisc]; exact hs, hname, fun Q hQ => ?_⟩
    exact (wp_bind _ _ _ _).mpr ((wp_read _ _).mpr (by rw [hs]; exact hQ))
  | rxDiscr0 ifindex wireLen ethtype ttl multihop saddr daddr packet =>
    cases hc
    simp only [recipient] at hd
    simp only [rbHandle]
    cases hdig : discr0Digest nl ifindex ethtype ttl multihop saddr daddr packet with
    | error e => simp [hdig] at hd
    | ok digest =>
      simp only [hdig] at hd ⊢
      split at hd
      · rename_i s hm
        cases hd
        refine ⟨s, hw.matched hm, rfl, fun Q hQ => ?_⟩
        simp only [wp_bind, wp_read, hm]
        exact hQ
      · cases hd

theorem not_rejected_of_taken (hd : w.sdir.find d = some c.dsess) (hb : w.bsdir.find d = some c.bsess)
    (hv : pktVersion packet = 1) (hl : packet.length = pktSize) (ht : (taken c packet ttl).isSome = true) :
    ¬ Rejected w (some d) packet ttl := by
  intro hr
  rw [hr.untaken hv hl hd hb] at ht
  cases ht

theorem rx_isSome (hr : Reachable daemon w) (hc : w.session d = some c) : ∃ rx, w.rx d = some rx := by
  obtain ⟨hsd, hbd, -⟩ := session_eq_some.mp hc
  obtain ⟨e, he⟩ := Option.isSome_iff_exists.mp (reachable_stocked hr d (by rw [hsd]; rfl))
  exact ⟨_, rx_eq_some.mpr ⟨_, e, hbd, he, rfl⟩⟩

theorem packetFor_reckoned (hw : Sound w) {dsess : DSession} (hd : w.sdir.find d = some dsess)
    (hname : dsess.localData.discr = d) (hv : pktVersion packet = 1) (hl : packet.length = pktSize)
    (hf : Fair w d packet ttl .ringbuf) (hrx : w.rx d = some rx) :
    wp (packetFor (some dsess) packet wireLen ttl) (fun _ w' => ∃ m, Hears d m w.bpf.kernel w'.bpf.kernel ∧
      (Rejected w (some d) packet ttl ∧ w'.rx d = some (rx + m) ∨
        ¬ Rejected w (some d) packet ttl ∧ w'.rx d = some (rx + (1, wireLen.toNat) + m))) w := by
  obtain ⟨b, hb, hs⟩ := hw.find hd
  subst hname
  simp only [packetFor, lookupSession, wp_bind, wp_read, hd, hb, wp_pure, wp_onSession]
  refine wp_mono (wp_eq (packet_runs (hw.session _ _ hs) packet wireLen ttl)) (fun _ c' h => ?_)
  obtain ⟨hrun, hh⟩ := h
  obtain ⟨hheld, htook⟩ := handlePacket_received hrun
  obtain ⟨m, hm⟩ := Moves.allowed (allows_hears dsess.localData.discr) hh.moves
  refine ⟨m, hm, ?_⟩
  have hput : ∀ n, received c'.bsess.stats = received b.stats + n →
      (w.put dsess.localData.discr c').rx dsess.localData.discr = some (rx + n + m) :=
    fun n hn => rx_add hrx hb (Dir.find_insert_self _ _ _) hn hm
  obtain hon | hshut | ht := hf _ hs
  · exact .inl ⟨.held rfl hb (.inl hon), by simpa using hput 0 (by rw [add_zero]; exact hheld (.inl hon))⟩
  · exact .inl ⟨.held rfl hb (.inr hshut), by simpa using hput 0 (by rw [add_zero]; exact hheld (.inr hshut))⟩
  · exact .inr ⟨not_rejected_of_taken (c := ⟨w.bpf, dsess, b⟩) hd hb hv hl ht, hput _ (htook ht)⟩

theorem recvVerdict_unnamed (hp : frame.bfd = some packet) (h0 : ntoh32 packet.yourDisc = 0) :
    recvVerdict k frame = .wrongVersion ∧ pktVersion packet ≠ 1 ∨
    recvVerdict k frame = .invalidLength ∧ packet.length ≠ pktSize ∨ recvVerdict k frame = .discr0 packet := by
  simp only [recvVerdict, hp]
  split_ifs with h₁ h₂
  · exact .inl ⟨rfl, h₁⟩
  · exact .inr (.inl ⟨rfl, h₂⟩)
  · exact .inr (.inr rfl)

theorem recvVerdict_named (hp : frame.bfd = some packet) (hd : ntoh32 packet.yourDisc = d) (h0 : d ≠ 0)
    {config : SessionConfig} (hcfg : k.config d = some config) (hdata : (k.data d).isSome = true) :
    recvVerdict k frame = .wrongVersion ∧ pktVersion packet ≠ 1 ∨
    recvVerdict k frame = .invalidLength ∧ packet.length ≠ pktSize ∨
    recvVerdict k frame = .adminDown d ∧ config.adminDown = true ∨
    recvVerdict k frame = .ttlLow d ∧ config.ttl > frame.ttl ∨
    recvVerdict k frame = .unexpected packet ∨ recvVerdict k frame = .expected d config := by
  obtain ⟨e, he⟩ := Option.isSome_iff_exists.mp hdata
  simp only [recvVerdict, hp, hd, hcfg, he]
  split_ifs with h₁ h₂ h₃ h₄ h₅
  · exact .inl ⟨rfl, h₁⟩
  · exact .inr (.inl ⟨rfl, h₂⟩)
  · exact .inr (.inr (.inl ⟨rfl, h₃⟩))
  · exact .inr (.inr (.inr (.inl ⟨rfl, h₄⟩)))
  · exact .inr (.inr (.inr (.inr (.inl rfl))))
  · exact .inr (.inr (.inr (.inr (.inr rfl))))

structure Sees (h : TimerHelpers) (frame : RxFrame) (w w' : World) : Prop where
  kernel : w'.bpf.kernel = recv h true frame w.bpf.kernel
  sdir : w'.sdir = w.sdir
  bsdir : w'.bsdir = w.bsdir

theorem Sees.counters {h : TimerHelpers} (hw : Sees h frame w w') (hrx : w.rx d = some rx) :
    w'.rx d = some (rx + heard w.bpf.kernel frame d) := by
  obtain ⟨s, e, hs, -, -⟩ := rx_eq_some.mp hrx
  have hk : Hears d (0 + heard w.bpf.kernel frame d) w.bpf.kernel w'.bpf.kernel :=
    hw.kernel ▸ .recv h true frame (.refl _)
  have hsum := rx_add (n := 0) hrx hs (by rw [hw.bsdir]; exact hs) (add_zero _).symm hk
  rwa [add_zero, zero_add] at hsum

theorem Sees.recipient {h : TimerHelpers} (hw : Sees h frame w w') (nl : Nl) (elem : RbElem) :
    recipient nl w' elem = recipient nl w elem := by
  cases elem with
  | txNoNeigh | rxTimeout => rfl
  | rxUnxPkt | rxDiscr0 => simp only [Daemon.recipient, matchSession, hw.sdir]

theorem Mirrored.not_rejected (hr : Reachable daemon w) (hm : Mirrored w d) {config : SessionConfig}
    (hv : recvVerdict w.bpf.kernel frame = .expected d config) (hb : frame.bfd = some packet) :
    ¬ Rejected w (some d) packet frame.ttl := by
  obtain ⟨c, args, addrs, hc, hon, hpeer, hcfg⟩ := hm
  obtain ⟨⟨hver, hlen⟩, -, h0, hconf, hadm, hlow, hexp⟩ := recvVerdict_expected hv hb
  obtain ⟨hsd, hbd, -⟩ := session_eq_some.mp hc
  have hok := (reachable_sound hr).session d c hc
  rw [hcfg] at hconf
  cases hconf
  refine not_rejected_of_taken hsd hbd hver hlen ?_
  rw [show packet = expectedPacket c.dsess c.bsess from hexp]
  exact taken_expected hok.sane (by rw [hok.queue.discr, hok.name]; exact h0) hpeer hon
    (by simpa [confEntry] using hadm) hlow

theorem carried_handedOn (frame : RxFrame) (packet : BfdPkt) :
    carried (handedOn frame packet) = some (packet, frame.ttl) ∧ weight (handedOn frame packet) =
      frame.wireLen := by
  unfold handedOn
  split <;> exact ⟨rfl, rfl⟩

theorem arrival_reckoned (hr : Reachable daemon w) {h : TimerHelpers} (hw : Sees h frame w w')
    (hb : frame.bfd = some packet) (hd : recipient nl w (handedOn frame packet) = some d)
    (hf : Fair w d packet frame.ttl (.kernel (.recv h true frame))) (hrx : w.rx d = some rx) :
    Reckoned nl w w' d (.kernel (.recv h true frame)) packet frame.ttl frame.wireLen rx := by
  have hsum := hw.counters hrx
  have dropped : heard w.bpf.kernel frame d = 0 → Rejected w (some d) packet frame.ttl →
      Reckoned nl w w' d (.kernel (.recv h true frame)) packet frame.ttl frame.wireLen rx := by
    intro hz hrej
    rw [hz] at hsum
    exact .discarded (n := 0) rfl hrej hsum
  have queued : heard w.bpf.kernel frame d = 0 →
      (recv h true frame w.bpf.kernel).ring = w.bpf.kernel.ring ++ [handedOn frame packet] →
      Reckoned nl w w' d (.kernel (.recv h true frame)) packet frame.ttl frame.wireLen rx := by
    intro hz hring
    obtain ⟨hcar, hlen⟩ := carried_handedOn frame packet
    rw [hz, add_zero] at hsum
    exact .postponed (by simp) (by rw [hw.kernel, hring]) hcar hlen (by rw [hw.recipient, hd]) hsum
  by_cases h0 : ntoh32 packet.yourDisc = 0
  · obtain ⟨hv, hne⟩ | ⟨hv, hne⟩ | hv := recvVerdict_unnamed (k := w.bpf.kernel) hb h0
    · exact dropped (by simp [heard, hv]) (.version hne)
    · exact dropped (by simp [heard, hv]) (.length hne)
    · exact queued (by simp [heard, hv]) (by simp [recv, hv, Kernel.notify, Kernel.bump, handedOn, h0])
  by_cases hun : recvVerdict w.bpf.kernel frame = .unexpected packet
  · exact queued (by simp [heard, hun]) (by simp [recv, hun, Kernel.notify, handedOn, h0])
  · obtain ⟨c, args, addrs, hc, hon, hpeer, hcfg⟩ := hf h0 hun
    obtain ⟨hsd, -, -⟩ := session_eq_some.mp hc
    have hname : ntoh32 packet.yourDisc = d := by
      rw [handedOn, if_neg h0, recipient] at hd
      obtain ⟨dsess, hs, hdisc⟩ := Option.map_eq_some_iff.mp hd
      rw [← hdisc, (reachable_sound hr).discr_of_find hs]
    have hdata := reachable_stocked hr d (by rw [hsd]; rfl)
    obtain ⟨hv, hne⟩ | ⟨hv, hne⟩ | ⟨hv, ha⟩ | ⟨hv, hlow⟩ | hv | hv := recvVerdict_named hb hname
      (hname ▸ h0) hcfg hdata
    · exact dropped (by simp [heard, hv]) (.version hne)
    · exact dropped (by simp [heard, hv]) (.length hne)
    · exact dropped (by simp [heard, hv]) (.adminDown rfl hsd (by simpa [confEntry] using ha))
    · exact dropped (by simp [heard, hv]) (.lowTtl rfl hsd hlow)
    · exact queued (by simp [heard, hv]) (by simp [recv, hv, Kernel.notify, handedOn, h0])
    · have hh : heard w.bpf.kernel frame d = (1, frame.wireLen.toNat) := by simp [heard, hv]
      rw [hh] at hsum
      exact .counted (n := 0) rfl ((hf h0 hun).not_rejected hr hv hb) hsum

theorem ring_reckoned (hr : Reachable daemon w) {env : Env} {rest : List RbElem}
    (hring : w.bpf.kernel.ring = elem :: rest) (hcar : carried elem = some (packet, ttl))
    (hd : recipient env.nl w elem = some d) (hf : Fair w d packet ttl .ringbuf)
    (hrx : w.rx d = some rx) (hs : daemon.step w (env, .ringbuf) w') :
    Reckoned env.nl w w' d .ringbuf packet ttl (weight elem) rx := by
  let v : World := (w.enter env).setBpf { (w.enter env).bpf with kernel := { w.bpf.kernel with ring := rest } }
  have hv : Sound v := ((reachable_sound hr).enter env).setBpf (Shared.pop (w.enter env).bpf hring).unseen
  have hscr := reachable_screening hr elem (by rw [hring]; exact List.mem_cons_self)
  have hver : pktVersion packet = 1 ∧ packet.length = pktSize := by
    cases elem with
    | txNoNeigh | rxTimeout => cases hcar
    | rxUnxPkt | rxDiscr0 =>
      cases hcar
      exact ⟨hscr.1, hscr.2.1⟩
  have hdv : recipient env.nl v elem = some d := by
    rw [← hd]
    cases elem <;> rfl
  have hfv : Fair v d packet ttl .ringbuf := by
    intro c hc
    obtain ⟨hsd, hbd, -⟩ := session_eq_some.mp hc
    exact hf ⟨w.bpf, c.dsess, c.bsess⟩ (session_eq_some.mpr ⟨hsd, hbd, rfl⟩)
  obtain ⟨dsess, hsd, hname, hrb⟩ := rbHandle_recipient hv hcar hdv
  have hrun := hrb _ (packetFor_reckoned hv hsd hname hver.1 hver.2 hfv (show v.rx d = some rx from hrx))
  have hall : wp (handle env.nl .ringbuf) (fun _ w' => ∃ m, Hears d m v.bpf.kernel w'.bpf.kernel ∧
      (Rejected v (some d) packet ttl ∧ w'.rx d = some (rx + m) ∨
        ¬ Rejected v (some d) packet ttl ∧ w'.rx d = some (rx + (1, (weight elem).toNat) + m)))
          (w.enter env) := by
    have hring' : (w.enter env).bpf.kernel.ring = elem :: rest := hring
    simp only [handle, ringbufEvent, wp_map, wp_bind, wp_read, hring', wp_update]
    exact hrun
  have hpop : Hears d 0 w.bpf.kernel v.bpf.kernel := .deaf (.refl _) rfl
  obtain ⟨m, hm, ⟨hrej, hsum⟩ | ⟨hno, hsum⟩⟩ := wp_ok hall hs
  · exact .discarded (n := m) (zero_add m ▸ hpop.trans hm) (hrej.setBpf w.bpf) hsum
  · exact .counted (n := m) (zero_add m ▸ hpop.trans hm) (fun hrej => hno (hrej.setBpf v.bpf)) hsum

/-- However a packet reaches its session, it counts once there if the rules do
not discard it, and otherwise not at all. -/
theorem received_once {env : Env} {e : Event} (hr : Reachable daemon w)
    (hb : Brings env.nl w d e packet ttl wireLen) (hf : Fair w d packet ttl e)
    (hs : daemon.step w (env, e) w') :
    ∃ rx, w.rx d = some rx ∧ Reckoned env.nl w w' d e packet ttl wireLen rx := by
  have found : ∀ {elem packet ttl}, carried elem = some (packet, ttl) → recipient env.nl w elem = some d →
      ∃ rx, w.rx d = some rx := by
    intro elem packet ttl hcar hd
    obtain ⟨dsess, hsd, -⟩ := rbHandle_recipient (reachable_sound hr) hcar hd
    obtain ⟨b, hb, hs⟩ := (reachable_sound hr).find hsd
    exact rx_isSome hr hs
  cases hb with
  | @arrival h frame packet hbfd hd =>
    obtain ⟨rx, hrx⟩ := found (carried_handedOn frame packet).1 hd
    have hw' : Sees h frame w w' := by
      cases hs
      exact ⟨rfl, rfl, rfl⟩
    exact ⟨rx, hrx, arrival_reckoned hr hw' hbfd hd hf hrx⟩
  | @ring elem rest packet ttl hring hcar hd =>
    obtain ⟨rx, hrx⟩ := found hcar hd
    exact ⟨rx, hrx, ring_reckoned hr hring hcar hd hf hrx hs⟩

theorem mirrored_of_coherent (h : Run daemon (fun _ l => l.1.Stores ∧ l.1.Supplied) w)
    (hc : w.session d = some c) (hb : c.bsess.bstate ≠ .onHold)
    (hp : c.dsess.remoteData.discr ≠ 0) (hq : ⟨d, .periodic⟩ ∉ w.bpf.tx.periodics) :
    Mirrored w d := by
  obtain ⟨entry, hwant, -, hentry⟩ := (configCoherent h hc hb).resolve_right hq
  obtain ⟨args, addrs, rfl⟩ := wanted_eq hwant
  exact ⟨c, args, addrs, hc, hb, hp, hentry⟩

end

/-- Session 5 counts the packet of 66 bytes that the event brings it. -/
def CountsFive (w : World) (e : Event) (packet : BfdPkt) (ttl : UInt8) : Prop :=
  ∃ w' rx, Brings Env.plain.nl w 5 e packet ttl 66 ∧ daemon.step w (.plain, e) w' ∧ w.rx 5 = some rx ∧
    w'.rx 5 = some (rx + (1, 66))

def countsHead (w : World) (packet : BfdPkt) (ttl : UInt8) : Bool :=
  w.bpf.kernel.ring.head?.any fun elem =>
    carried elem = some (packet, ttl) && recipient Env.plain.nl w elem = some 5 && weight elem = 66 &&
      (replay w [(.plain, .ringbuf)]).any fun w' => (w.rx 5).any fun rx => w'.rx 5 = some (rx + (1, 66))

theorem counts_of_head {w : World} {packet : BfdPkt} {ttl : UInt8} (h : countsHead w packet ttl = true) :
    CountsFive w .ringbuf packet ttl := by
  obtain ⟨elem, he, h⟩ := (Option.any_eq_true _ _).mp h
  simp only [Bool.and_eq_true, decide_eq_true_eq] at h
  obtain ⟨⟨⟨hcar, hd⟩, hlen⟩, h⟩ := h
  obtain ⟨w', hw', h⟩ := (Option.any_eq_true _ _).mp h
  obtain ⟨rx, hrx, h⟩ := (Option.any_eq_true _ _).mp h
  exact ⟨w', rx, hlen ▸ .ring (List.eq_cons_of_mem_head? he) hcar hd, replay_step hw', hrx, of_decide_eq_true h⟩

theorem received_once_up :
    (∃ w w' e rx, Reckoned Env.plain.nl w w' 5 e (peerPacket .up 0) 255 66 rx ∧ daemon.step w (.plain, e) w' ∧
      w'.bpf.kernel.ring = [] ∧ w'.rx 5 = some (rx + (1, 66))) ∧
    ∃ w w' rx, Reckoned Env.plain.nl w w' 5 .ringbuf (peerPacket .up bitPoll) 255 66 rx ∧
      daemon.step w (.plain, .ringbuf) w' ∧ w'.rx 5 = some (rx + (1, 66)) := by
  have plain : ∀ (w : World) (e : Event), Env.plain.Stores ∧ Env.plain.Supplied := fun _ _ =>
    ⟨plain_stores, plain_supplied⟩
  constructor
  · obtain ⟨w, c, hw, hc, hb, hp, hq, hd, w', hw', hring, rx, hrx, hsum⟩ := exists_plain
      (G := fun _ l => l.1.Stores ∧ l.1.Supplied) plain settledUp
      (P := fun w c => c.bsess.bstate ≠ .onHold ∧ c.dsess.remoteData.discr ≠ 0 ∧
        ⟨5, .periodic⟩ ∉ w.bpf.tx.periodics ∧
        recipient Env.plain.nl w (handedOn (peerFrame (peerPacket .up 0)) (peerPacket .up 0)) = some 5 ∧
        ∃ w' ∈ replay w [(.plain, .kernel (.recv ⟨.ok, true, true⟩ true (peerFrame (peerPacket .up 0))))],
          w'.bpf.kernel.ring.isEmpty = true ∧ ∃ rx ∈ w.rx 5, w'.rx 5 = some (rx + (1, 66))) (by decide +kernel)
    have hbrings : Brings Env.plain.nl w 5
      (.kernel (.recv ⟨.ok, true, true⟩ true (peerFrame (peerPacket .up 0))))
        (peerPacket .up 0) 255 66 := .arrival rfl hd
    obtain ⟨rx', hrx', hreck⟩ := received_once hw.reachable hbrings
      (fun _ _ => mirrored_of_coherent hw hc hb hp hq) (replay_step hw')
    rw [hrx] at hrx'
    cases hrx'
    exact ⟨w, w', _, rx, hreck, replay_step hw', List.isEmpty_iff.mp hring, hsum⟩
  · obtain ⟨w, c, hw, hc, ht, hcounts⟩ := exists_replayed
      (inPlain (settledUp ++ [.kernel (.recv ⟨.ok, true, true⟩ true (peerFrame (peerPacket .up bitPoll)))]))
      (P := fun w c => (taken c (peerPacket .up bitPoll) 255).isSome = true ∧
        countsHead w (peerPacket .up bitPoll) 255 = true)
      (by decide +kernel)
    obtain ⟨w', rx, hb, hs, hrx, hsum⟩ := counts_of_head hcounts
    obtain ⟨rx', hrx', hreck⟩ := received_once hw hb (fun c' hc' => by
      rw [hc] at hc'
      cases hc'
      exact .inr (.inr ht)) hs
    rw [hrx] at hrx'
    cases hrx'
    exact ⟨w, w', rx, hreck, hs, hsum⟩

def Event.acceptTtl (ttl : UInt8) : Event :=
  .set selectFive ⟨{ CSession.blank with ttl := some ttl }, ⟨rfl, rfl, rfl, rfl⟩⟩ false

def unnamedFrame : RxFrame :=
  { peerFrame (makePacket 7 defaultTiming ⟨.down, .nothing⟩ 0 0) with saddr := ⟨1, 0, 0, 0⟩ }

/-- Packets that are discarded and count all the same: one with a multiplier of
zero, one whose TTL is too low for what the user asked for since it arrived,
one for a session that is down for good, and, in the kernel, the packet that a
session on hold expects. -/
theorem rejected_counted :
    (∃ w packet, Reachable daemon w ∧ packet.detectionMultiplier = 0 ∧ Rejected w (some 5) packet 255 ∧
      CountsFive w .ringbuf packet 255) ∧
    (∃ w c packet ttl, Reachable daemon w ∧ w.session 5 = some c ∧ c.dsess.ttl > ttl ∧
      Rejected w (some 5) packet ttl ∧
      CountsFive w .ringbuf packet ttl) ∧
    (∃ w c packet, Reachable daemon w ∧ w.session 5 = some c ∧ c.dsess.localData.state.state = .adminDown ∧
      Rejected w (some 5) packet 255 ∧ CountsFive w .ringbuf packet 255) ∧
    ∃ w c h frame packet, Reachable daemon w ∧ w.session 5 = some c ∧ c.bsess.bstate = .onHold ∧
      Rejected w (some 5) packet 255 ∧ CountsFive w (.kernel (.recv h true frame)) packet 255 := by
  refine ⟨?_, ?_, ?_, ?_⟩
  · obtain ⟨w, c, hw, hc, hcounts⟩ := exists_replayed
      (inPlain (settledUp ++
        [.kernel (.recv ⟨.ok, true, true⟩ true (peerFrame { peerPacket .up 0 with detectionMultiplier := 0 }))]))
      (P := fun w _ => countsHead w { peerPacket .up 0 with detectionMultiplier := 0 } 255 = true)
        (by decide +kernel)
    exact ⟨w, _, hw, rfl, .mult rfl, counts_of_head hcounts⟩
  · obtain ⟨w, c, hw, hc, hlow, hcounts⟩ := exists_replayed
      (inPlain (settledUp ++ [.acceptTtl 100,
        .kernel (.recv ⟨.ok, true, true⟩ true { peerFrame (peerPacket .up bitPoll) with ttl :=
          200 }), .acceptTtl 255]))
      (P := fun w c => c.dsess.ttl > 200 ∧ countsHead w (peerPacket .up bitPoll) 200 = true) (by decide +kernel)
    exact ⟨w, c, _, 200, hw, hc, hlow, .lowTtl rfl (session_eq_some.mp hc).1 hlow, counts_of_head hcounts⟩
  · obtain ⟨w, c, hw, hc, ha, hcounts⟩ := exists_replayed
      (inPlain (settledUp ++ [.setFive (some true) none, .timer 1 none, .kernel
        (.recv ⟨.ok, true, true⟩ true unnamedFrame)]))
      (P := fun w c => c.dsess.localData.state.state = .adminDown ∧
        countsHead w (makePacket 7 defaultTiming ⟨.down, .nothing⟩ 0 0) 255 = true) (by decide +kernel)
    exact ⟨w, c, _, hw, hc, ha, .adminDown rfl (session_eq_some.mp hc).1 ha, counts_of_head hcounts⟩
  · obtain ⟨w, c, hw, hc, hb, hd, w', hw', rx, hrx, hsum⟩ := exists_replayed (inPlain [.addFive (some 7) none])
      (P := fun w c => c.bsess.bstate = .onHold ∧
        recipient Env.plain.nl w (handedOn (peerFrame (peerPacket .down 0)) (peerPacket .down 0)) = some 5 ∧
        ∃ w' ∈ replay w [(.plain, .kernel (.recv ⟨.ok, true, true⟩ true (peerFrame (peerPacket .down 0))))],
          ∃ rx ∈ w.rx 5, w'.rx 5 = some (rx + (1, 66))) (by decide +kernel)
    exact ⟨w, c, _, peerFrame (peerPacket .down 0), _, hw, hc, hb, .held rfl
      (session_eq_some.mp hc).2.1 (.inl hb), w', rx,
      .arrival rfl hd, replay_step hw', hrx, hsum⟩

end Bbdd.Daemon
