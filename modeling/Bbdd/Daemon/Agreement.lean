import Bbdd.Daemon.Discards
import Bbdd.Daemon.PollFinal
import Bbdd.Daemon.Quiet
import Bbdd.Datapath.Avowed
import Bbdd.Lib.Network
import Bbdd.Poll.Airs

namespace Bbdd.Daemon

open Lib.Program Lib.Directory Lib.Transition Lib.Network Packet Session Prog TxQueue Datapath Poll

/-- The packet is by the peer that the session has, unless that is the one its
user gave. -/
def ByWordOf (dsess : DSession) (packet : BfdPkt) : Prop :=
  dsess.remoteData.discr = ntoh32 packet.myDisc ∨ dsess.remoteData.discr = dsess.userRemoteDiscr

/-- A session that is coming up was sent a packet by a peer that was down, and
one that is up was sent one, with its own discriminator, by a peer that was
coming up or up. -/
structure Grounded (H : Set BfdPkt) (dsess : DSession) : Prop where
  dport : BfdPort dsess
  init : dsess.localData.state.state = .init → ∃ p ∈ H, pktState p = .down ∧
    (ntoh32 p.yourDisc = 0 ∨ ntoh32 p.yourDisc = dsess.localData.discr) ∧ ByWordOf dsess p
  up : dsess.localData.state.state = .up → ∃ p ∈ H, (pktState p = .init ∨ pktState p = .up) ∧
    ntoh32 p.yourDisc = dsess.localData.discr ∧ ByWordOf dsess p

section

variable {H H' : Set BfdPkt} {dsess dsess' : DSession} {packet : BfdPkt}

theorem Grounded.mono (h : Grounded H dsess) (hH : H ⊆ H') : Grounded H' dsess := by
  refine ⟨h.dport, fun hs => ?_, fun hs => ?_⟩
  · obtain ⟨p, hp, hrest⟩ := h.init hs
    exact ⟨p, hH hp, hrest⟩
  · obtain ⟨p, hp, hrest⟩ := h.up hs
    exact ⟨p, hH hp, hrest⟩

theorem grounded_of_down (hp : BfdPort dsess) (hi : dsess.localData.state.state ≠ .init)
    (hu : dsess.localData.state.state ≠ .up) :
    Grounded H dsess :=
  ⟨hp, fun hs => absurd hs hi, fun hs => absurd hs hu⟩

theorem Grounded.keep (h : Grounded H dsess) (hp : BfdPort dsess')
    (hl : dsess'.localData.state = dsess.localData.state)
    (hd : dsess'.localData.discr = dsess.localData.discr)
    (hr : ∀ p, ByWordOf dsess p → ByWordOf dsess' p) : Grounded H dsess' := by
  refine ⟨hp, fun hs => ?_, fun hs => ?_⟩
  · obtain ⟨p, hp, hst, hy, hw⟩ := h.init (hl ▸ hs)
    exact ⟨p, hp, hst, hd ▸ hy, hr p hw⟩
  · obtain ⟨p, hp, hst, hy, hw⟩ := h.up (hl ▸ hs)
    exact ⟨p, hp, hst, hd ▸ hy, hr p hw⟩

theorem fsmNext_init {loc : StateEnd} {rem : PktState} (h : (fsmNext loc rem).state = .init) :
    rem = .down := by
  obtain ⟨st, diag⟩ := loc
  cases rem <;> cases st <;> first | rfl | cases h

theorem fsmNext_up {loc : StateEnd} {rem : PktState} (h : (fsmNext loc rem).state = .up) :
    rem = .init ∨ rem = .up := by
  obtain ⟨st, diag⟩ := loc
  cases rem <;> cases st <;> first | exact .inl rfl | exact .inr rfl | cases h

theorem grounded_heardEnds {p : Parsed} (hp : parsePacket packet dsess.remoteData = .ok p)
    (hport : BfdPort dsess) (hm : packet ∈ H)
    (hy : ntoh32 packet.yourDisc = 0 ∨ ntoh32 packet.yourDisc = dsess.localData.discr) :
    Grounded H (heardEnds dsess p) := by
  have hst := (parsePacket_ok hp).2.1
  have hby : ByWordOf (heardEnds dsess p) packet := .inl (parsePacket_discr hp).1
  refine ⟨hport, fun hs => ⟨packet, hm, hst ▸ fsmNext_init hs, hy, hby⟩, fun hs => ?_⟩
  have hpeer := hst ▸ fsmNext_up hs
  refine ⟨packet, hm, hpeer, hy.resolve_left (fun h0 => ?_), hby⟩
  -- a packet without a discriminator is by a peer that is down
  obtain hd | hd := parsePacket_unnamed hp h0 <;> rw [hd] at hpeer <;> simp at hpeer

end

/-- The session, and each session that has handed a packet over, has a reason
to be what it says it is. -/
structure Candid (H : Set BfdPkt) (wire : List (UInt32 × BfdPkt)) (c : Ctx) : Prop where
  dsess : Grounded H c.dsess
  handoffs : ∀ h ∈ c.bpf.handoffs, Grounded H h.dsess
  avowed : Avowed c.bpf
  wire : wire <:+ c.bpf.kernel.wire

def Keeps (H : Set BfdPkt) (wire : List (UInt32 × BfdPkt)) (c c' : Ctx) : Prop :=
  Candid H wire c → Candid H wire c'

instance (H : Set BfdPkt) (wire : List (UInt32 × BfdPkt)) : Std.Refl (Keeps H wire) := ⟨fun _ => id⟩

instance (H : Set BfdPkt) (wire : List (UInt32 × BfdPkt)) : IsTrans Ctx (Keeps H wire) :=
  ⟨fun _ _ _ h k => k ∘ h⟩

section

variable {H : Set BfdPkt} {wire : List (UInt32 × BfdPkt)} {c c' : Ctx}

theorem keeps_of_recounts (h : Recounts c c') : Keeps H wire c c' := by
  intro hc
  obtain ⟨new, hn, hs⟩ := h.handoffs
  refine ⟨h.dsess ▸ hc.dsess, fun x hx => ?_, h.avowed hc.dsess.dport hc.avowed, hc.wire.trans
    (h.wire hc.dsess.dport)⟩
  rw [hn] at hx
  obtain hx | hx := List.mem_append.mp hx
  · exact hs x hx ▸ hc.dsess
  · exact hc.handoffs x hx

theorem keeps_recounts {α : Type} {p : Act α} (h : Within Recounts p) : Within (Keeps H wire) p :=
  h.mono (fun _ _ => keeps_of_recounts)

theorem keeps_timed {α : Type} {p : Act α} (h : Within Timed p) : Within (Keeps H wire) p :=
  h.mono (fun _ _ ht => keeps_of_recounts ht.recounts)

theorem keeps_onBsess (f : BSession → BSession) : Within (Keeps H wire) (onBsess f) :=
  keeps_recounts (recounts_onBsess f)

theorem keeps_onDsess {f : DSession → DSession} (h : ∀ s, Grounded H s → Grounded H (f s)) :
    Within (Keeps H wire) (onDsess f) :=
  within_update (fun _ hc => { hc with dsess := h _ hc.dsess })

theorem Updating.keeps (h : Updating c c') : Keeps H wire c c' := by
  cases h with
  | bsess => exact fun hc => { hc with }
  | ends loc rem hi hu => exact fun hc => { hc with dsess := grounded_of_down hc.dsess.dport hi hu }
  | shwaitStop h => exact keeps_timed timed_shwaitStop _ _ _ h
  | shwaitStart h => exact keeps_timed timed_shwaitStart _ _ _ h
  | output o => exact keeps_timed (timed_output o) _ _ _ rfl

theorem keeps_handleSessionUpdate : Within (Keeps H wire) handleSessionUpdate :=
  within_of_moves (fun _ _ => Updating.keeps) updates_handleSessionUpdate

theorem keeps_gotNonFinal : Within (Keeps H wire) gotNonFinal := by
  have htake : Within (Keeps H wire) takeQdChange := within_of_moves (fun _ _ => Updating.keeps)
    updates_takeQdChange
  exact within_bind (keeps_onBsess _) (fun _ => within_bind within_read (fun _ =>
    within_bind (within_whenever htake) (fun _ => keeps_recounts recounts_sessionCallUpdate)))

theorem keeps_shwaitTimerCb : Within (Keeps H wire) shwaitTimerCb :=
  within_bind (keeps_timed timed_shwaitStop) (fun _ => keeps_gotNonFinal)

theorem keeps_holdTimerCb : Within (Keeps H wire) holdTimerCb := by
  refine within_bind within_read (fun _ => within_bind (keeps_onBsess _) (fun _ => ?_))
  refine within_bind (keeps_onDsess (fun s hs => ?_)) (fun _ => ?_)
  · exact hs.keep hs.dport rfl rfl (fun _ => id)
  · exact within_bind (keeps_recounts recounts_sessionStateChanged) (fun _ => keeps_timed timed_holdStop)

theorem keeps_sessionUpdate : Within (Keeps H wire) sessionUpdate :=
  within_bind within_read (fun _ => within_ite (within_pure _)
    (within_attempt keeps_handleSessionUpdate (fun _ => keeps_recounts recounts_sessionUpdateInner)))

theorem keeps_handleTimeout : Within (Keeps H wire) handleTimeout := by
  have hdown : Within (Keeps H wire) timeoutDown := by
    refine within_bind within_read (fun _ => within_ite ?_ (within_pure _))
    refine within_bind (keeps_onDsess (fun s hs => ?_)) (fun _ => keeps_recounts recounts_sessionStateChanged)
    exact grounded_of_down hs.dport nofun nofun
  refine within_bind within_read (fun c => ?_)
  cases c.bsess.bstate with
  | onHold => exact within_crash _
  | stable => exact hdown
  | awaitFinal | awaitNonFinal => exact within_bind keeps_gotNonFinal (fun _ => hdown)
  | shuttingDown =>
    exact within_bind (keeps_timed timed_shwaitStop) (fun _ => within_bind keeps_gotNonFinal (fun _ => hdown))

theorem keeps_concludePacket (final : Bool) : Within (Keeps H wire) (concludePacket final) := by
  refine within_bind within_read (fun c => ?_)
  cases c.bsess.bstate with
  | onHold => exact within_crash _
  | stable | shuttingDown => exact within_pure _
  | awaitFinal =>
    exact within_ite (within_bind (keeps_onBsess _)
      (fun _ => keeps_recounts recounts_sessionCallUpdate)) (within_pure _)
  | awaitNonFinal => exact within_ite (within_pure _) keeps_gotNonFinal

theorem keeps_acceptPacket {p : Parsed} (hg : Grounded H (heardEnds c.dsess p))
    (h : acceptPacket p c = .ok ((), c')) :
    Keeps H wire c c' := by
  intro hc
  obtain ⟨c₁, c₂, c₃, hst⟩ := acceptPacket_ok h
  have hrearm := recounts_reported recounts_injectRearmPacket _ _ _ _ hst.rearmed
  have hmute := mute_reported mute_injectRearmPacket _ _ _ _ hst.rearmed
  have hport : BfdPort { c.dsess with remoteData := p.remote } := hc.dsess.dport
  have hav : Avowed c₁.bpf := hrearm.avowed hport hc.avowed
  have hwire : wire <:+ c₁.bpf.kernel.wire := hc.wire.trans (hrearm.wire hport)
  have hsaid : ∀ x ∈ c₁.bpf.handoffs, Grounded H x.dsess := by
    rw [show c₁.bpf.handoffs = c.bpf.handoffs from hmute]
    exact hc.handoffs
  have hc₁ {s : DSession} (hs : Grounded H s) : Candid H wire { c₁ with dsess := s } := ⟨hs, hsaid, hav, hwire⟩
  have hc₂ : Candid H wire c₂ := by
    have htold := hst.told
    split at htold
    · rw [htold]
      exact hc₁ hc.dsess
    · exact keeps_recounts recounts_sessionStateChanged _ _ _ htold (hc₁ hg)
  have hc₃ := keeps_recounts (within_whenever recounts_respondPoll) _ _ _ hst.replied hc₂
  exact keeps_concludePacket _ _ _ _ hst.concluded hc₃

theorem keeps_handlePacket {packet : BfdPkt} {wireLen : UInt32} {ttl : UInt8} (hm : packet ∈ H)
    (hy : ntoh32 packet.yourDisc = 0 ∨ ntoh32 packet.yourDisc = c.dsess.localData.discr)
    (h : handlePacket packet wireLen ttl c = .ok ((), c')) : Keeps H wire c c' := by
  intro hc
  obtain ⟨-, stats, diagStats, rfl⟩ | ⟨p, -, hp, h⟩ := handlePacket_ok h
  · exact { hc with }
  · have hc₁ : Candid H wire (counted c wireLen) := { hc with }
    exact @keeps_acceptPacket H wire (counted c wireLen) c' p (grounded_heardEnds hp hc.dsess.dport hm hy) h hc₁

theorem byWordOf_applyFields {dsess : DSession} {csess : CSession} {src dst : Option Sockaddr}
    {p : BfdPkt} (h : ByWordOf dsess p) :
    ByWordOf (applyFields dsess csess src dst) p := by
  unfold ByWordOf applyFields at *
  cases csess.remoteDiscr with
  | none => exact h
  | some r => exact .inr rfl

theorem grounded_applied {dsess applied : DSession} {csess : CSession} (ha : Applied dsess csess applied)
    (hn : dsess.localData.discr ≠ 0) (h : Grounded H dsess) : Grounded H applied := by
  refine h.keep ha.dport ha.loc (ha.kept hn) (fun p hp => ?_)
  obtain ⟨src, dst, rfl⟩ := ha.fields
  exact byWordOf_applyFields hp

theorem keeps_drainSlot {kind : SlotKind} (hq : QueueOk c) (hs : Straight c)
    (hl : (slotOf c.bsess kind).linked = true) :
    Within (Keeps H wire) (drainSlot (slotOf c.bsess kind)) := by
  have hcount : Within Recounts (onBpf (·.bump .skDeqCount)) := recounts_onBpf (fun _ => ⟨rfl, .refl _⟩)
  refine keeps_recounts (within_bind ?_ (fun _ => hcount))
  rw [(hq.slots kind hl).isFinal]
  cases kind with
  | final =>
    have hflags : (slotOf c.bsess .final).bfdFlags = bitFinal := hs.slot hl
    rw [hflags]
    exact recounts_reported (recounts_sessionInjectPkt (by decide)) _
  | periodic => exact recounts_reported recounts_sessionUpdateInner _

theorem Handled.keeps {h : Handler} {n : Nat} {d : UInt32} (hh : Handled h c c')
    (hok : SessionOk n d c) (hs : Straight c)
    (hp : ∀ packet wireLen ttl, h = .packet packet wireLen ttl → packet ∈ H ∧
      (ntoh32 packet.yourDisc = 0 ∨ ntoh32 packet.yourDisc = d)) : Keeps H wire c c' := by
  have hd : c.dsess.localData.discr = d := hok.queue.discr.trans hok.name
  intro hc
  cases hh with
  | @set _ c₁ r applied csess ha hu hr =>
    have hc₁ : Candid H wire { c with dsess := applied } :=
      { hc with dsess := grounded_applied ha (hd ▸ hok.named) hc.dsess }
    have hc₂ := keeps_sessionUpdate _ _ _ hr hc₁
    obtain he | he := announced_eq r (decide (applied ≠ c.dsess)) c₁ <;> rw [he]
    · exact hc₂
    · exact keeps_recounts (recounts_output _) c₁ () _ rfl hc₂
  | packet packet wireLen ttl hr =>
    obtain ⟨hm, hy⟩ := hp packet wireLen ttl rfl
    exact keeps_handlePacket hm (hd ▸ hy) hr hc
  | timeout hr => exact keeps_handleTimeout _ _ _ hr hc
  | hold id hm hr => exact { keeps_holdTimerCb _ _ _ hr hc with }
  | shwait id hm hr => exact { keeps_shwaitTimerCb _ _ _ hr hc with }
  | drain kind hl hr =>
    have hun : Candid H wire (c.unlinked kind) := by cases kind <;> exact { hc with }
    exact keeps_drainSlot hok.queue hs hl _ _ _ hr hun

end

/-- The same of all sessions of the daemon. -/
structure Credible (H : Set BfdPkt) (wire : List (UInt32 × BfdPkt)) (w : World) : Prop where
  sessions : ∀ d dsess, w.sdir.find d = some dsess → Grounded H dsess
  handoffs : ∀ h ∈ w.bpf.handoffs, Grounded H h.dsess
  avowed : Avowed w.bpf
  wire : wire <:+ w.bpf.kernel.wire

def Attends (H : Set BfdPkt) (b : Bpf) : Prop :=
  ∀ elem ∈ b.kernel.ring, ∀ packet ttl, carried elem = some (packet, ttl) → packet ∈ H

section

variable {H H' : Set BfdPkt} {wire : List (UInt32 × BfdPkt)} {w w' : World} {l : Label} {d : UInt32} {c c' : Ctx}

theorem Credible.mono (h : Credible H wire w) (hH : H ⊆ H') : Credible H' wire w :=
  ⟨fun d s hs => (h.sessions d s hs).mono hH, fun x hx => (h.handoffs x hx).mono hH, h.avowed, h.wire⟩

theorem Credible.candid (h : Credible H wire w) (hc : w.session d = some c) : Candid H wire c := by
  obtain ⟨hd, -, hb⟩ := session_eq_some.mp hc
  exact ⟨h.sessions d _ hd, hb ▸ h.handoffs, hb ▸ h.avowed, hb ▸ h.wire⟩

theorem Credible.put (h : Credible H wire w) (hc : Candid H wire c) (d : UInt32) :
    Credible H wire (w.put d c) := by
  refine ⟨fun e s hs => ?_, hc.handoffs, hc.avowed, hc.wire⟩
  by_cases he : e = d
  · subst he
    rw [World.put, Dir.find_insert_self] at hs
    exact Option.some.inj hs ▸ hc.dsess
  · rw [World.put, Dir.find_insert_of_ne _ he] at hs
    exact h.sessions e s hs

theorem Credible.setBpf (h : Credible H wire w) {b : Bpf} (hh : b.handoffs = w.bpf.handoffs)
    (hf : Flows w.bpf.kernel b.kernel) :
    Credible H wire (w.setBpf b) := by
  obtain ⟨out, hw, -⟩ := hf.wire
  refine ⟨h.sessions, fun x hx => h.handoffs x (hh ▸ hx), h.avowed.flows hh hf, h.wire.trans ⟨out, hw.symm⟩⟩

theorem Credible.fresh (h : Credible H wire w) {dsess : DSession} (hb : Born d dsess) :
    Candid H wire (w.fresh d dsess) := by
  have hst : dsess.localData.state.state = .down := hb.loc
  have hg : Grounded H dsess := grounded_of_down hb.dport (by rw [hst]; nofun) (by rw [hst]; nofun)
  exact ⟨hg, h.handoffs, h.avowed, h.wire⟩

theorem Step.credible (h : Step l w w') (hw : Sound w) (hu : Upright w)
    (hl : ∀ d packet wireLen ttl, l = .handler d (.packet packet wireLen ttl) → packet ∈ H ∧
      (ntoh32 packet.yourDisc = 0 ∨ ntoh32 packet.yourDisc = d)) (hc : Credible H wire w) :
        Credible H wire w' := by
  cases h with
  | shared hb => exact hc.setBpf hb.handoffs hb.idle.flow
  | @handled _ d h c c' hs hh =>
    have hk : Keeps H wire c c' := hh.keeps (hw.session _ _ hs) (hu.straight hs)
      (fun p n t he => hl d p n t (by rw [he]))
    exact hc.put (hk (hc.candid hs)) d
  | @create _ d dsess n c' sports hn hb ht hr =>
    exact { hc.put (keeps_recounts (recounts_sessionAdd n) _ _ _ hr (hc.fresh hb)) d with }
  | @refuse _ d dsess n e c' hn hb hr =>
    have hc' := keeps_recounts (recounts_sessionAdd n) _ _ _ hr (hc.fresh hb)
    exact ⟨hc.sessions, hc'.handoffs, hc'.avowed, hc'.wire⟩
  | @remove _ d c n c' hs hr =>
    have hc' := keeps_recounts (recounts_sessionDel n) _ _ _ hr (hc.candid hs)
    refine ⟨fun e s he => ?_, hc'.handoffs, hc'.avowed, hc'.wire⟩
    by_cases hed : e = d
    · subst hed
      simp [World.drop] at he
    · exact (hc.put hc' d).sessions e s (by simpa [World.drop, Dir.find_erase_of_ne _ hed] using he)

theorem calls_attended {nl : Nl} {e : Event} {packet : BfdPkt} {wireLen : UInt32} {ttl : UInt8}
    (hr : Attends H w.bpf) (hs : Screening w.bpf)
    (h : Calls nl w e (.handler d (.packet packet wireLen ttl))) :
    packet ∈ H ∧ (ntoh32 packet.yourDisc = 0 ∨ ntoh32 packet.yourDisc = d) := by
  cases h with
  | @ring elem rest _ hring hcall =>
    have hmem : elem ∈ w.bpf.kernel.ring := hring ▸ List.mem_cons_self
    obtain ⟨-, hf⟩ | ⟨_, _, _, he, ⟨rfl, hy⟩ | ⟨ifindex, ethtype, multihop, saddr, daddr, digest, s, rfl, -⟩⟩ :=
      ringCall_handler hcall
    · cases hf
    · cases he
      exact ⟨hr _ hmem packet ttl rfl, .inr hy⟩
    · cases he
      exact ⟨hr _ hmem packet ttl rfl, .inl (hs _ hmem).2.2⟩

theorem step_credible {env : Env} {e : Event} (hr : Reachable daemon w) (ha : Attends H w.bpf)
    (hc : Credible H wire w) (h : daemon.step w (env, e) w') : Credible H wire w' := by
  have hw := reachable_sound hr
  have hwe := hw.enter env
  have hue : Upright (w.enter env) := { reachable_upright hr with }
  have hce : Credible H wire (w.enter env) := { hc with }
  obtain ⟨-, ds, hchain⟩ | ⟨-, hd⟩ := step_done hw h
  · refine (hchain.keeps (I := fun v => Upright v ∧ Credible H wire v)
      (fun l v v' hl hv hs hi => ?_) hwe ⟨hue, hce⟩).2
    refine ⟨hs.upright hv hi.1, hs.credible hv hi.1 (fun d packet wireLen ttl he => ?_) hi.2⟩
    subst he
    exact calls_attended ha (reachable_screening hr) (hl.resolve_left nofun)
  · refine (keeps_of_moves (I := fun v => Sound v ∧ Upright v ∧ Credible H wire v)
      (fun u v hs hi => ?_) hd ⟨hwe, hue, hce⟩).2.2
    obtain hs | ⟨e, kind, hs⟩ := hs <;>
      exact ⟨hs.sound hi.1, hs.upright hi.1 hi.2.1, hs.credible hi.1 hi.2.1 nofun hi.2.2⟩

end

def party : Party World (Env × Event) BfdPkt where
  sys := daemon
  sent w := {p | ∃ ifindex, (ifindex, p) ∈ w.bpf.kernel.wire}
  heard w _ w' := {p | ∃ elem ∈ w'.bpf.kernel.ring, elem ∉ w.bpf.kernel.ring ∧
    ∃ ttl, carried elem = some (p, ttl)}

structure Warranted (H : Set BfdPkt) (w : World) : Prop where
  credible : Credible H [] w
  attends : Attends H w.bpf

theorem party_relies : party.Relies Warranted where
  mono hH h := ⟨h.credible.mono hH, fun elem he p ttl hc => hH (h.attends elem he p ttl hc)⟩
  init := by
    rintro H s ⟨rx, tx, cap, answers, -, rfl⟩
    refine ⟨⟨fun d s hs => ?_, fun x hx => ?_, ⟨Nat.zero_le _, fun x hx => ?_, fun p hp => ?_⟩,
      List.nil_suffix⟩, fun x hx => ?_⟩
    · cases hs
    all_goals cases ‹_ ∈ _›
  step := by
    rintro H w ⟨env, e⟩ w' hr hi hh hs
    refine ⟨step_credible hr hi.attends hi.credible hs, fun elem he p ttl hc => ?_⟩
    by_cases hold : elem ∈ w.bpf.kernel.ring
    · exact hi.attends elem hold p ttl hc
    · exact hh ⟨elem, he, hold, ttl, hc⟩

theorem party_grows : party.Grows := by
  rintro w ⟨env, e⟩ w' hr hs p ⟨ifindex, hp⟩
  have hall : Warranted Set.univ w := by
    refine Run.invariant (I := Warranted Set.univ) (fun s h => party_relies.init h)
      (fun s l t hr hi _ hs => party_relies.step hr hi (Set.subset_univ _) hs) hr
  have hc : Credible Set.univ w.bpf.kernel.wire w := { hall.credible with wire := List.suffix_refl _ }
  exact ⟨ifindex, (step_credible hr hall.attends hc hs).wire.subset hp⟩

theorem Warranted.avows {H : Set BfdPkt} {w : World} {p : BfdPkt} (h : Warranted H w)
    (hp : p ∈ party.sent w) :
    ∃ x ∈ w.bpf.handoffs, Avows x.dsess p := by
  obtain ⟨ifindex, hp⟩ := hp
  exact h.credible.avowed.wire (ifindex, p) (by simpa using hp)

/-- A session that is up was told so by a packet that the other daemon sent for a
session of its own, one that was itself coming up or up and named this session.
That one in turn had been sent a packet of this session, unless it holds the
discriminator its user gave it. -/
theorem up_agreed {a b : World} (h : Reachable (pair party party) (a, b)) {d : UInt32} {c : Ctx}
    (hc : a.session d = some c) (hup : c.dsess.localData.state.state = .up) :
    ∃ y ∈ b.bpf.handoffs, (∃ p ∈ party.sent b, Avows y.dsess p) ∧
      (y.dsess.localData.state.state = .init ∨ y.dsess.localData.state.state = .up) ∧
      y.dsess.remoteData.discr = d ∧
      (c.dsess.remoteData.discr = y.dsess.localData.discr ∨ c.dsess.remoteData.discr = c.dsess.userRemoteDiscr) ∧
      ((∃ x ∈ a.bpf.handoffs, (∃ q ∈ party.sent a, Avows x.dsess q) ∧ x.dsess.localData.discr = d ∧
          x.dsess.localData.state.state ≠ .adminDown) ∨
        d = y.dsess.userRemoteDiscr) := by
  obtain ⟨ha, hb⟩ := pair_relies party_grows party_grows party_relies party_relies h
  have hd : c.dsess.localData.discr = d := (reachable_sound (pair_reachable h).1).discr_of_find
    (session_eq_some.mp hc).1
  obtain ⟨p, hp, hst, hy, hw⟩ := (ha.credible.candid hc).dsess.up hup
  obtain ⟨y, hym, hav⟩ := hb.avows hp
  rw [hav.state] at hst
  have hyd : y.dsess.remoteData.discr = d := by rw [← hav.your, hy, hd]
  refine ⟨y, hym, ⟨p, hp, hav⟩, hst, hyd, by rw [← hav.my]; exact hw, ?_⟩
  -- the reason that the other session had in its turn
  have hword : ∃ q ∈ party.sent a, pktState q ≠ .adminDown ∧ ByWordOf y.dsess q := by
    obtain hi | hu := hst
    · obtain ⟨q, hq, hs, -, hw⟩ := (hb.credible.handoffs y hym).init hi
      exact ⟨q, hq, by rw [hs]; nofun, hw⟩
    · obtain ⟨q, hq, hs, -, hw⟩ := (hb.credible.handoffs y hym).up hu
      exact ⟨q, hq, by obtain hs | hs := hs <;> rw [hs] <;> nofun, hw⟩
  obtain ⟨q, hq, hs, hw | hw⟩ := hword
  · obtain ⟨x, hx, hax⟩ := ha.avows hq
    exact .inl ⟨x, hx, ⟨q, hq, hax⟩, by rw [← hax.my, ← hw, hyd], hax.state ▸ hs⟩
  · exact .inr (hyd ▸ hw)

def overheard (w w' other : World) : Bool :=
  w'.bpf.kernel.ring.all fun elem => elem ∈ w.bpf.kernel.ring ||
    (carried elem).all fun (p, _) => other.bpf.kernel.wire.any (·.2 = p)

theorem heard_of_overheard {w w' other : World} {l : Env × Event} (h : overheard w w' other = true) :
    party.heard w l w' ⊆ party.sent other := by
  rintro p ⟨elem, he, hnew, ttl, hc⟩
  have hall := List.all_eq_true.mp h elem he
  simp only [hnew, decide_false, Bool.false_or, hc, Option.all_some, List.any_eq_true, decide_eq_true_eq] at hall
  obtain ⟨⟨ifindex, q⟩, hq, rfl⟩ := hall
  exact ⟨ifindex, hq⟩

def attend (w other : World) (e : Event) : Option World :=
  (replay w (inPlain [e])).bind fun w' => if overheard w w' other then some w' else none

theorem attend_step {w w' other : World} {e : Event} (h : attend w other e = some w') :
    daemon.step w (.plain, e) w' ∧ party.heard w (.plain, e) w' ⊆ party.sent other := by
  obtain ⟨v, hv, h⟩ := Option.bind_eq_some_iff.mp h
  obtain ⟨ho, he⟩ := Option.ite_none_right_eq_some.mp h
  cases he
  exact ⟨replay_step hv, heard_of_overheard ho⟩

def hearing (other : World) : Event :=
  .kernel (.recv ⟨.ok, true, true⟩ true
    { peerFrame ((other.bpf.kernel.wire.head?.map (·.2)).getD (peerPacket .down 0)) with
    saddr := ⟨1, 0, 0, 0⟩ })

def converse : World × World → List (Bool × Option Event) → Option (World × World)
  | x, [] => some x
  | (a, b), (true, e) :: rest => (attend a b (e.getD (hearing b))).bind fun a' => converse (a', b) rest
  | (a, b), (false, e) :: rest => (attend b a (e.getD (hearing a))).bind fun b' => converse (a, b') rest

theorem converse_reachable {x y : World × World} {turns : List (Bool × Option Event)}
    (hx : Reachable (pair party party) x) (h : converse x turns = some y) :
    Reachable (pair party party) y := by
  induction turns generalizing x with
  | nil =>
    cases h
    exact hx
  | cons turn rest ih =>
    obtain ⟨first, e⟩ := turn
    obtain ⟨a, b⟩ := x
    cases first with
    | true =>
      obtain ⟨a', ha, h⟩ := Option.bind_eq_some_iff.mp h
      obtain ⟨hs, hh⟩ := attend_step ha
      have hstep : (pair party party).step (a, b) (.inl (.plain, e.getD (hearing b))) (a', b) := ⟨hs, hh, rfl⟩
      exact ih (hx.next hstep) h
    | false =>
      obtain ⟨b', hb, h⟩ := Option.bind_eq_some_iff.mp h
      obtain ⟨hs, hh⟩ := attend_step hb
      have hstep : (pair party party).step (a, b) (.inr (.plain, e.getD (hearing a))) (a, b') := ⟨hs, hh, rfl⟩
      exact ih (hx.next hstep) h

def handshake : List (Bool × Option Event) :=
  [(true, some (.addFive none none)), (true, some (.timer 0 none)),
    (false, some (.addFive none none)), (false, some (.timer 0 none)),
    (true, none), (true, some .ringbuf), (false, none), (false, some .ringbuf), (true, none),
    (true, some .ringbuf)]

theorem up_agreed_handshake : ∃ (a b : World) (c : Ctx), Reachable (pair party party) (a, b) ∧
    a.session 5 = some c ∧
    c.dsess.localData.state.state = .up ∧
    ∃ y ∈ b.bpf.handoffs, (∃ p ∈ party.sent b, Avows y.dsess p) ∧ y.dsess.remoteData.discr = 5 := by
  have hrun : (converse (.plain, .plain) handshake).any (fun x => (x.1.session 5).any fun c =>
      decide (c.dsess.localData.state.state = .up)) = true := by decide +kernel
  obtain ⟨⟨a, b⟩, hx, h⟩ := (Option.any_eq_true _ _).mp hrun
  obtain ⟨c, hc, hup⟩ := (Option.any_eq_true _ _).mp h
  have hr : Reachable (pair party party) (a, b) := by
    refine converse_reachable (.start ⟨?_, ?_⟩) hx <;> exact ⟨2, 3, 0, _, by decide, rfl⟩
  obtain ⟨y, hy, hsent, -, hd, -⟩ := up_agreed hr hc (of_decide_eq_true hup)
  exact ⟨a, b, c, hr, hc, of_decide_eq_true hup, y, hy, hsent, hd⟩

end Bbdd.Daemon
