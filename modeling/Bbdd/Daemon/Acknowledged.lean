import Mathlib.Data.List.Infix
import Bbdd.Daemon.Accounting
import Bbdd.Daemon.PollFinal
import Bbdd.Poll.Airs
import Bbdd.Poll.Sequence

namespace Bbdd.Daemon

open Lib.Program Lib.Transition Packet Session Prog TxQueue Datapath Poll

/-- The daemon with the peer of one of its sessions. The peer has dealt with the
first few packets on the wire, and remembers the ones of the session that it
received. What it sent is on its way back, each packet with how many the peer
had received by then; the way ends where a packet is handed to the session, so
what the receive program takes in on its own counts as lost. The last number
belongs to the Final that the session took as an answer last. -/
structure Net where
  world : World
  received : Nat
  heard : List BfdPkt
  back : List (BfdPkt × Nat)
  consumed : Nat

/-- What can happen: an event of the daemon, or of the network and the peer. A
peer that receives a Poll replies at once. -/
inductive Happening
  | event (env : Env) (e : Event)
  | lose
  | hear (reply : BfdPkt)
  | speak (packet : BfdPkt)
  | drop (i : Nat)

def isFinal (packet : BfdPkt) : Bool := hasBit (pktBits packet) bitFinal

def delivered (nl : Nl) (w : World) (d : UInt32) : Event → Option (BfdPkt × UInt8)
  | .ringbuf =>
    match w.bpf.kernel.ring with
    | .rxUnxPkt _ ttl packet :: _ => if ntoh32 packet.yourDisc = d then some (packet, ttl) else none
    | .rxDiscr0 ifindex _ ethtype ttl multihop saddr daddr packet :: _ =>
      match discr0Digest nl ifindex ethtype ttl multihop saddr daddr packet with
      | .error _ => none
      | .ok digest =>
        match matchSession w digest with
        | [dsess] => if dsess.localData.discr = d then some (packet, ttl) else none
        | _ => none
    | _ => none
  | _ => none

def takesFinal (w : World) (d : UInt32) (packet : BfdPkt) (ttl : UInt8) : Bool :=
  (w.session d).any fun c => c.bsess.bstate = .awaitFinal && (taken c packet ttl).any (·.final)

namespace Net

def event (d : UInt32) (s : Net) (env : Env) (e : Event) : Option Net :=
  match run s.world env e with
  | .ok (some (), w) =>
    match delivered env.nl s.world d e, s.back with
    | none, _ => some { s with world := w }
    | some (packet, ttl), (p, n) :: back =>
      if p = packet then
        some { s with world := w, back := back, consumed := if takesFinal s.world d packet ttl
          then n else s.consumed }
      else none
    | some _, [] => none
  | _ => none

def hear (d : UInt32) (s : Net) (packet reply : BfdPkt) : Option Net :=
  if ntoh32 packet.myDisc = d then
    let heard := s.heard ++ [packet]
    if hasBit (pktBits packet) bitPoll then
      if isFinal reply then some { s with received := s.received + 1, heard := heard, back :=
        s.back ++ [(reply, heard.length)] }
      else none
    else some { s with received := s.received + 1, heard := heard }
  else some { s with received := s.received + 1 }

def act (d : UInt32) (s : Net) : Happening → Option Net
  | .event env e => s.event d env e
  | .lose => s.world.bpf.kernel.wire.reverse[s.received]?.map fun _ => { s with received := s.received + 1 }
  | .hear reply => s.world.bpf.kernel.wire.reverse[s.received]?.bind fun p => s.hear d p.2 reply
  | .speak packet => if isFinal packet then none
      else some { s with back := s.back ++ [(packet, s.heard.length)] }
  | .drop i => some { s with back := s.back.eraseIdx i }

end Net

def net (d : UInt32) : System Net Happening where
  init s := daemon.init s.world ∧ s = ⟨s.world, 0, [], [], 0⟩
  step s l s' := s.act d l = some s'

section

variable {w w' : World} {d : UInt32} {rate : UInt32 × UInt32} {n : Nat} {c c' : Ctx} {l : Label}

theorem drainSlot_airs {kind : SlotKind} (hq : QueueOk c) (hs : Straight c) (hp : BfdPort c.dsess)
    (hl : (slotOf c.bsess kind).linked = true)
    (h : drainSlot (slotOf c.bsess kind) (c.unlinked kind) = .ok ((), c'))
    (hr : pace c.bsess.dfrData = rate) (ha : Aired d rate n c.bpf) : Aired d rate n c'.bpf := by
  obtain ⟨_, c₁, h₁, h⟩ := bind_ok.mp h
  have hfin := (hq.slots kind hl).isFinal
  have ha₁ : Aired d rate n c₁.bpf := by
    refine reported_airs h₁ (fun r c₂ h₂ => ?_)
    cases kind with
    | final =>
      rw [if_pos (by rw [hfin]; decide)] at h₂
      exact sessionInjectPkt_airs h₂ hp (.inr (hs.slot hl)) ha
    | periodic =>
      rw [if_neg (by rw [hfin]; decide)] at h₂
      exact sessionUpdateInner_airs h₂ hp (fun _ => hr) ha
  cases h
  exact ha₁

theorem Handled.airs {h : Handler} {k : Nat} {e : UInt32} (hh : Handled h c c')
    (hok : SessionOk k e c) (hs : Straight c) (hr : pace c'.bsess.dfrData = rate)
    (ha : Aired d rate n c.bpf) : Aired d rate n c'.bpf := by
  have hp := hok.dport
  cases hh with
  | @set _ c₁ r applied csess hap hu hrun =>
    have hset (hr : pace c₁.bsess.dfrData = rate) : Aired d rate n c₁.bpf :=
      sessionUpdate_airs hrun hap.dport hr ha
    obtain he | he := announced_eq _ _ _ <;> rw [he] at hr ⊢ <;> exact hset hr
  | packet packet wireLen ttl hrun => exact handlePacket_airs hrun hp hr ha
  | timeout hrun => exact handleTimeout_airs hrun hp hr ha
  | hold id hm hrun =>
    have ha₁ := holdTimerCb_airs hrun hp ha
    exact ha₁
  | shwait id hm hrun =>
    have ha₁ := (shwaitTimerCb_airs hrun hp hr ha).2
    exact ha₁
  | drain kind hl hrun =>
    have hf : c'.bsess.dfrData = c.bsess.dfrData :=
      (within_drainSlot _ _ _ _ hrun).dfrData.trans (by cases kind <;> rfl)
    exact drainSlot_airs hok.queue hs hp hl hrun (hf ▸ hr) ha

theorem Step.airs_other (h : Step l w w') (hw : Sound w) (hl : l.about ≠ some d)
    (ha : Aired d rate n w.bpf) :
    Aired d rate n w'.bpf := by
  have other {e : UInt32} {c : Ctx} (he : (some e : Option UInt32) ≠ some d) (hn : c.dsess.localData.discr = e) :
      c.dsess.localData.discr ≠ d := fun hd => he (congrArg some (hn.symm.trans hd))
  have named {e : UInt32} {c : Ctx} (hc : w.session e = some c) : c.dsess.localData.discr = e :=
    (hw.session e c hc).queue.discr.trans (hw.session e c hc).name
  cases h with
  | shared hb => exact ha.flows hb.idle.flow
  | handled hc hh =>
    exact Moves.airs_other (hw.handled hc hh).moves (hw.session _ _ hc).dport (other hl (named hc))
      ((session_eq_some.mp hc).2.2 ▸ ha)
  | create _ hb _ hr => exact Moves.airs_other (hw.added hr).1 hb.dport (other hl hb.name) ha
  | refuse _ hb hr => exact Moves.airs_other (hw.added hr).1 hb.dport (other hl hb.name) ha
  | remove hc hr =>
    exact Moves.airs_other (hw.deleted hc hr).1 (hw.session _ _ hc).dport (other hl (named hc))
      ((session_eq_some.mp hc).2.2 ▸ ha)

theorem Elsewhere.airs (h : Elsewhere d w w') (hw : Sound w) (ha : Aired d rate n w.bpf) :
    Aired d rate n w'.bpf :=
  (keeps_of_moves (I := fun v => Sound v ∧ Aired d rate n v.bpf)
    (fun _ _ ⟨_, hl, hs⟩ hv => ⟨hs.sound hv.1, hs.airs_other hv.1 hl hv.2⟩) h ⟨hw, ha⟩).2

theorem Drains.airs {m : Machine} (h : Drains w w') (hw : Sound w) (hu : Upright w)
    (hm : w.machine d = some m) (hr : pace m.dfr = rate) (ha : Aired d rate n w.bpf) :
    Aired d rate n w'.bpf := by
  refine (keeps_of_moves (I := fun v => (Sound v ∧ Upright v) ∧ v.machine d = some m ∧ Aired d rate n v.bpf)
    (fun u v hs hv => ?_) h ⟨⟨hw, hu⟩, hm, ha⟩).2.2
  obtain ⟨⟨hw, hu⟩, hm, ha⟩ := hv
  obtain hs | ⟨e, kind, hs⟩ := hs
  · have hl : Label.shared.about ≠ some d := by simp [Label.about]
    exact ⟨⟨hs.sound hw, hs.upright hw hu⟩, (hs.apart hw hl).machine.trans hm, hs.airs_other hw hl ha⟩
  · refine ⟨⟨hs.sound hw, hs.upright hw hu⟩, (drain_machine hw hs).trans hm, ?_⟩
    by_cases he : e = d
    · subst he
      have hm' := (drain_machine hw hs).trans hm
      cases hs with
      | handled hc hh =>
        rw [machine_put] at hm'
        cases hm'
        exact hh.airs (hw.session _ _ hc) (hu.straight hc) hr ((session_eq_some.mp hc).2.2 ▸ ha)
    · exact hs.airs_other hw (by simpa [Label.about] using he) ha

theorem step_airs {env : Env} {e : Event} {m : Machine} (hw : Sound w) (hu : Upright w)
    (h : daemon.step w (env, e) w') (hm : w'.machine d = some m) (hb : m.bstate ≠ .onHold)
    (hr : pace m.dfr = rate) (ha : Aired d rate n w.bpf) : Aired d rate n w'.bpf := by
  have hwe := hw.enter env
  have hue : Upright (w.enter env) := { hu with }
  have hae : Airs (Offers d rate) n (w.enter env).bpf.kernel := ha
  cases step_fate hw h d with
  | apart he => exact he.airs hwe hae
  | gone hn =>
    rw [World.machine, session_eq_none hn] at hm
    cases hm
  | made _ _ h₁ hs h₂ =>
    -- a session just made is on hold
    have hw₁ := (h₁.apart hwe).1
    rw [(h₂.apart (hs.sound hw₁)).2.machine] at hm
    cases hs with
    | @create _ _ _ k c' sports hn hbn ht hrun =>
      have hnew : m = view c' := Option.some.inj (hm.symm.trans (machine_put _ d c'))
      rw [hnew, (hw₁.added hrun).2.2] at hb
      exact absurd rfl hb
  | @handled v h c c' h₁ hc _ hh h₂ =>
    obtain ⟨⟨hw₁, hu₁⟩, -⟩ := h₁.replies hwe hue
    have hw₂ := hw₁.handling hc (hw₁.handled hc hh)
    rw [(h₂.apart hw₂).2.machine, machine_put] at hm
    cases hm
    have ha₁ := (session_eq_some.mp hc).2.2 ▸ h₁.airs hwe hae
    exact h₂.airs hw₂ (hh.airs (hw₁.session _ _ hc) (hu₁.straight hc) hr ha₁)
  | drained _ hdr => exact hdr.airs hwe hue ((hdr.machine hwe d).symm.trans hm) hr hae

end

/-- One of the first so many packets that the peer received announced these
intervals. -/
def Net.Told (s : Net) (rate : UInt32 × UInt32) (n : Nat) : Prop := ∃ p ∈ s.heard.take n, pktPace p = rate

instance (s : Net) (rate : UInt32 × UInt32) (n : Nat) : Decidable (s.Told rate n) := List.decidableBEx _ _

structure Clear (d : UInt32) (s : Net) : Prop where
  polls : Airs (fun p => ¬ IsPoll d p) s.received s.world.bpf.kernel
  finals : ∀ f ∈ s.back, isFinal f.1 = false

instance (d : UInt32) (s : Net) : Decidable (Clear d s) :=
  decidable_of_iff (Airs (fun p => ¬ IsPoll d p) s.received s.world.bpf.kernel ∧
    ∀ f ∈ s.back, isFinal f.1 = false)
    ⟨fun h => ⟨h.1, h.2⟩, fun h => ⟨h.polls, h.finals⟩⟩

/-- What happens leaves alone what is being polled, and starts a poll sequence
only if nothing of an earlier one is under way. -/
def InTurn (d : UInt32) (s : Net) : Happening → Prop
  | .event env e => ∀ m cause, s.world.machine d = some m → Causes env.nl s.world e d cause →
    ¬ m.Edits cause ∧ (m.Opens cause → Clear d s)
  | _ => True

/-- While a session polls, its Polls that are under way announce what it polls,
and so did one that the peer received before it sent a Final that is under way.
Once it has its answer, this is so of the Final that it took. -/
structure Ordered (d : UInt32) (s : Net) : Prop where
  polling : ∀ m, s.world.machine d = some m → m.bstate = .awaitFinal →
    Airs (Offers d (pace m.dfr)) s.received s.world.bpf.kernel ∧ ∀ f ∈ s.back, isFinal f.1 = true →
      s.Told (pace m.dfr) f.2
  answered : ∀ m, s.world.machine d = some m → m.bstate = .awaitNonFinal → s.Told (pace m.dfr) s.consumed

section

variable {d : UInt32} {s s' : Net} {env : Env} {e : Event} {n : Nat} {rate : UInt32 × UInt32}

theorem Net.Told.grow (h : s.Told rate n) (hp : s.heard <+: s'.heard) : s'.Told rate n := by
  obtain ⟨p, hm, hr⟩ := h
  exact ⟨p, (List.IsPrefix.take hp n).subset hm, hr⟩

theorem Net.event_ok (h : s.event d env e = some s') : ∃ w, daemon.step s.world (env, e) w ∧
    ((delivered env.nl s.world d e = none ∧ s' = { s with world := w }) ∨
      ∃ packet ttl n back, delivered env.nl s.world d e = some (packet, ttl) ∧ s.back = (packet, n) :: back ∧
        s' = { s with world := w, back := back, consumed := if takesFinal s.world d packet ttl
          then n else s.consumed }) := by
  unfold Net.event at h
  split at h
  · rename_i w hr
    refine ⟨w, hr, ?_⟩
    split at h
    · rename_i hd
      cases h
      exact .inl ⟨hd, rfl⟩
    · rename_i packet ttl p n back hd hb
      split at h
      · rename_i he
        cases h
        exact .inr ⟨packet, ttl, n, back, hd, by rw [hb, he], rfl⟩
      · cases h
    · cases h
  · cases h

theorem delivered_of_calls {w : World} {nl : Nl} {packet : BfdPkt} {wireLen : UInt32}
    {ttl : UInt8} (h : Calls nl w e (.handler d (.packet packet wireLen ttl))) :
    delivered nl w d e = some (packet, ttl) := by
  cases h with
  | ring hr hc =>
    obtain ⟨-, hh⟩ | ⟨_, _, _, hh, hc⟩ := ringCall_handler hc
    · cases hh
    · cases hh
      obtain ⟨rfl, hd⟩ | ⟨_, _, _, _, _, digest, dsess, rfl, hdig, hm, hd⟩ := hc
      · simp only [delivered, hr, if_pos hd]
      · simp only [delivered, hr, hdig, hm, if_pos hd]

theorem delivered_final {w : World} {nl : Nl} {m : Machine} {rem : PktState} {mult : UInt8}
    (hm : w.machine d = some m) (hb : m.bstate = .awaitFinal)
    (h : Causes nl w e d (.packet rem mult true)) :
    ∃ packet ttl, delivered nl w d e = some (packet, ttl) ∧ isFinal packet = true ∧
      takesFinal w d packet ttl = true := by
  obtain ⟨c, handler, hc, hcall, hcause⟩ := h
  cases handler with
  | packet packet wireLen ttl =>
    obtain ⟨p, ht, hp⟩ := Option.map_eq_some_iff.mp hcause
    obtain ⟨-, -, hfin⟩ := Cause.packet.inj hp
    have hbs : c.bsess.bstate = .awaitFinal := by
      rw [World.machine, hc] at hm
      cases hm
      exact hb
    refine ⟨packet, ttl, delivered_of_calls hcall, ?_, ?_⟩
    · rw [isFinal, ← (parsePacket_ok (taken_parsed ht)).2.2.2, hfin]
    · simp [takesFinal, hc, hbs, ht, hfin]
  | set applied => cases hcause
  | timeout => cases hcause
  | timer t =>
    obtain ⟨id, fn, discr, owner⟩ := t
    cases fn <;> cases hcause
  | drain kind => cases hcause

theorem Clear.polls_any (h : Clear d s) : Airs (Offers d rate) s.received s.world.bpf.kernel :=
  h.polls.mono (fun _ hno hp => absurd hp hno)

theorem Ordered.before (h : Ordered d s) (hw : Sound s.world) {w : World} {m : Machine}
    (hs : daemon.step s.world (env, e) w) (hg : InTurn d s (.event env e))
    (hm : w.machine d = some m) (hb : m.bstate = .awaitFinal) :
    Airs (Offers d (pace m.dfr)) s.received s.world.bpf.kernel ∧
      ∀ f ∈ s.back, isFinal f.1 = true → s.Told (pace m.dfr) f.2 := by
  obtain hsame | hnone | ⟨-, -, hm', hnew⟩ | @⟨m₀, cause, fresh, hm₀, hc, -, -, -, hm'⟩ := step_machine hw hs d
  · exact h.polling m (hsame.symm.trans hm) hb
  · rw [hnone] at hm
    cases hm
  · cases hm'.symm.trans hm
    rw [hnew.bstate] at hb
    cases hb
  · cases hm'.symm.trans hm
    obtain ⟨hedit, hopen⟩ := hg m₀ cause hm₀ hc
    obtain ⟨hb₀, hd⟩ | ho := (Machine.stir_follows m₀ fresh cause hedit).polls hb
    · rw [hd]
      exact h.polling m₀ hm₀ hb₀
    · refine ⟨(hopen ho).polls_any, fun f hf hfin => ?_⟩
      rw [(hopen ho).finals f hf] at hfin
      cases hfin

theorem takesFinal_bstate {w : World} {m : Machine} {packet : BfdPkt} {ttl : UInt8}
    (hm : w.machine d = some m) (h : takesFinal w d packet ttl = true) :
    m.bstate = .awaitFinal := by
  obtain ⟨c, hc, rfl⟩ := Option.map_eq_some_iff.mp hm
  rw [takesFinal, hc] at h
  simp only [Option.any_some, Bool.and_eq_true, decide_eq_true_eq] at h
  exact h.1

theorem Ordered.event (h : Ordered d s) (hw : Sound s.world) (hu : Upright s.world)
    (hg : InTurn d s (.event env e)) (hs : s.event d env e = some s') : Ordered d s' := by
  obtain ⟨w, hstep, hres⟩ := Net.event_ok hs
  have hframe : s'.world = w ∧ s'.received = s.received ∧ s'.heard = s.heard ∧ ∀ f ∈ s'.back, f ∈ s.back := by
    obtain ⟨-, rfl⟩ | ⟨packet, ttl, n, back, -, hback, rfl⟩ := hres
    · exact ⟨rfl, rfl, rfl, fun _ => id⟩
    · exact ⟨rfl, rfl, rfl, fun f hf => by rw [hback]; exact List.mem_cons_of_mem _ hf⟩
  obtain ⟨hworld, hrecv, hheard, hsub⟩ := hframe
  have keep {rate : UInt32 × UInt32} {n : Nat} (ht : s.Told rate n) : s'.Told rate n := ht.grow (by rw [hheard])
  -- the number of the answer changes only with the answer itself
  have hsame {m : Machine} (hm : s.world.machine d = some m) (hb : m.bstate = .awaitNonFinal) :
    s'.consumed = s.consumed := by
    obtain ⟨-, rfl⟩ | ⟨packet, ttl, n, back, -, -, rfl⟩ := hres
    · rfl
    · refine if_neg (fun ht => ?_)
      rw [takesFinal_bstate hm ht] at hb
      cases hb
  refine ⟨fun m hm hb => ?_, fun m hm hb => ?_⟩
  · rw [hworld] at hm ⊢
    rw [hrecv]
    obtain ⟨ha, hf⟩ := h.before hw hstep hg hm hb
    exact ⟨step_airs hw hu hstep hm (by rw [hb]; simp) rfl ha, fun f hm hfin => keep (hf f (hsub f hm) hfin)⟩
  · rw [hworld] at hm
    obtain hstay | hnone | ⟨-, -, hm', hnew⟩ | @⟨m₀, cause, fresh, hm₀, hc, -, -, -, hm'⟩ :=
      step_machine hw hstep d
    · rw [hsame (hstay.symm.trans hm) hb]
      exact keep (h.answered m (hstay.symm.trans hm) hb)
    · rw [hnone] at hm
      cases hm
    · cases hm'.symm.trans hm
      rw [hnew.bstate] at hb
      cases hb
    · cases hm'.symm.trans hm
      obtain ⟨hd, hb₀ | ⟨hb₀, rem, mult, rfl⟩⟩ :=
        (Machine.stir_follows m₀ fresh cause (hg m₀ cause hm₀ hc).1).heard hb
      · rw [hsame hm₀ hb₀, hd]
        exact keep (h.answered m₀ hm₀ hb₀)
      · obtain ⟨packet, ttl, hdel, hfin, htakes⟩ := delivered_final hm₀ hb₀ hc
        obtain ⟨hnone, -⟩ | ⟨packet', ttl', n, back, hdel', hback, rfl⟩ := hres
        · rw [hnone] at hdel
          cases hdel
        · cases hdel'.symm.trans hdel
          rw [hd, if_pos htakes]
          exact keep ((h.polling m₀ hm₀ hb₀).2 (packet, n) (by rw [hback]; exact List.mem_cons_self) hfin)

/-- All that the network and the peer do: they leave the daemon alone, and a
Final is the answer to a Poll that was the next packet on the wire. -/
structure Remote (d : UInt32) (s s' : Net) : Prop where
  world : s'.world = s.world
  ahead : s.received ≤ s'.received
  passed : s.received ≤ s.world.bpf.kernel.wire.length → s'.received ≤ s.world.bpf.kernel.wire.length
  heard : s.heard <+: s'.heard
  consumed : s'.consumed = s.consumed
  finals : ∀ f ∈ s'.back, isFinal f.1 = true → f ∈ s.back ∨
    ∃ p ∈ s.world.bpf.kernel.wire.reverse.drop s.received, IsPoll d p.2 ∧ p.2 ∈ s'.heard.take f.2

theorem Net.hear_remote {p : UInt32 × BfdPkt} {reply : BfdPkt}
    (hp : s.world.bpf.kernel.wire.reverse[s.received]? = some p)
    (h : s.hear d p.2 reply = some s') : Remote d s s' := by
  obtain ⟨hlt, hget⟩ := List.getElem?_eq_some_iff.mp hp
  have hlen : s.received + 1 ≤ s.world.bpf.kernel.wire.length := by rwa [List.length_reverse] at hlt
  have hnext : p ∈ s.world.bpf.kernel.wire.reverse.drop s.received := by
    rw [List.drop_eq_getElem_cons hlt, hget]
    exact List.mem_cons_self
  unfold Net.hear at h
  split at h
  · rename_i hd
    dsimp only at h
    split at h
    · rename_i hpoll
      split at h
      · cases h
        refine ⟨rfl, Nat.le_succ _, fun _ => hlen, List.prefix_append _ _, rfl, fun f hf hfin => ?_⟩
        obtain hf | hf := List.mem_append.mp hf
        · exact .inl hf
        · rw [List.mem_singleton.mp hf, List.take_length]
          exact .inr ⟨p, hnext, ⟨hd, hpoll⟩, List.mem_append_right _ List.mem_cons_self⟩
      · cases h
    · cases h
      exact ⟨rfl, Nat.le_succ _, fun _ => hlen, List.prefix_append _ _, rfl, fun f hf _ => .inl hf⟩
  · cases h
    exact ⟨rfl, Nat.le_succ _, fun _ => hlen, List.prefix_refl _, rfl, fun f hf _ => .inl hf⟩

theorem Net.act_remote {l : Happening} (h : s.act d l = some s') :
    Remote d s s' ∨ ∃ env e, l = .event env e := by
  cases l with
  | event env e => exact .inr ⟨env, e, rfl⟩
  | lose =>
    obtain ⟨p, hp, rfl⟩ := Option.map_eq_some_iff.mp h
    obtain ⟨hlt, -⟩ := List.getElem?_eq_some_iff.mp hp
    rw [List.length_reverse] at hlt
    exact .inl ⟨rfl, Nat.le_succ _, fun _ => hlt, List.prefix_refl _, rfl, fun f hf _ => .inl hf⟩
  | hear reply =>
    obtain ⟨p, hp, h⟩ := Option.bind_eq_some_iff.mp h
    exact .inl (Net.hear_remote hp h)
  | speak packet =>
    simp only [Net.act] at h
    split at h
    · cases h
    · rename_i hno
      cases h
      refine .inl ⟨rfl, Nat.le_refl _, id, List.prefix_refl _, rfl, fun f hf hfin => ?_⟩
      obtain hf | hf := List.mem_append.mp hf
      · exact .inl hf
      · rw [List.mem_singleton.mp hf] at hfin
        exact absurd hfin hno
  | drop i =>
    cases h
    exact .inl ⟨rfl, Nat.le_refl _, id, List.prefix_refl _, rfl, fun f hf _ =>
      .inl ((List.eraseIdx_sublist _ _).subset hf)⟩

theorem Ordered.remote (h : Ordered d s) (hr : Remote d s s') : Ordered d s' := by
  refine ⟨fun m hm hb => ?_, fun m hm hb => ?_⟩
  · rw [hr.world] at hm ⊢
    obtain ⟨ha, hf⟩ := h.polling m hm hb
    refine ⟨ha.later hr.ahead (hr.passed ha.passed), fun f hmem hfin => ?_⟩
    obtain hmem | ⟨p, hp, hpoll, hheard⟩ := hr.finals f hmem hfin
    · exact (hf f hmem hfin).grow hr.heard
    · exact ⟨p.2, hheard, ha.wire p hp hpoll⟩
  · rw [hr.world] at hm
    rw [hr.consumed]
    exact (h.answered m hm hb).grow hr.heard

theorem reachable_world (h : Reachable (net d) s) : Reachable daemon s.world := by
  refine Reachable.invariant (M := net d) (I := fun s => Reachable daemon s.world)
    (fun s hs => .start hs.1) (fun s l s' hs hstep => ?_) h
  obtain hr | ⟨env, e, rfl⟩ := Net.act_remote hstep
  · exact hr.world ▸ hs
  · obtain ⟨w, hw, ⟨-, rfl⟩ | ⟨_, _, _, _, -, -, rfl⟩⟩ := Net.event_ok hstep <;> exact hs.next hw

theorem run_ordered (h : Run (net d) (InTurn d) s) : Ordered d s := by
  refine Run.invariant (I := Ordered d) ?_ (fun s l s' hr ho hg hs => ?_) h
  · rintro s ⟨⟨rx, tx, cap, answers, -, hw⟩, -⟩
    have hnone : s.world.machine d = none := by rw [hw]; rfl
    constructor <;> intro m hm <;> rw [hnone] at hm <;> cases hm
  · obtain hrem | ⟨env, e, rfl⟩ := Net.act_remote hs
    · exact ho.remote hrem
    · have hw := reachable_world hr
      exact ho.event (reachable_sound hw) (reachable_upright hw) hg hs

/-- A packet without the Final bit is about to end a poll sequence of a session
that is up. -/
def Concludes (nl : Nl) (d : UInt32) (s : Net) (e : Event) (c : Ctx) : Prop :=
  c.bsess.bstate = .awaitNonFinal ∧ c.dsess.localData.state.state = .up ∧
    (delivered nl s.world d e).any (fun q => (taken c q.1 q.2).any fun p => !p.final) = true

instance (nl : Nl) (d : UInt32) (s : Net) (e : Event) (c : Ctx) : Decidable (Concludes nl d s e c) :=
  inferInstanceAs (Decidable (_ ∧ _ ∧ _))

end

def Net.replayIf (ok : Net → Happening → Bool) (d : UInt32) (s : Net) : List Happening → Option Net
  | [] => some s
  | l :: ls => if ok s l then (s.act d l).bind fun s' => s'.replayIf ok d ls else none

def Net.plain : Net := ⟨.plain, 0, [], [], 0⟩

theorem Net.replayIf_run {ok : Net → Happening → Bool} {G : Net → Happening → Prop}
    (hok : ∀ s l, ok s l = true → G s l) {d : UInt32} {s s' : Net} {ls : List Happening}
    (hs : Run (net d) G s) (h : s.replayIf ok d ls = some s') :
    Run (net d) G s' := by
  induction ls generalizing s with
  | nil =>
    cases h
    exact hs
  | cons l ls ih =>
    simp only [Net.replayIf] at h
    split at h
    · rename_i hl
      obtain ⟨s₁, hact, h⟩ := Option.bind_eq_some_iff.mp h
      exact ih (hs.next (hok s l hl) hact) h
    · cases h

theorem exists_net {ok : Net → Happening → Bool} {G : Net → Happening → Prop}
    (hok : ∀ s l, ok s l = true → G s l)
    (ls : List Happening) {P : Net → Ctx → Prop} [∀ s c, Decidable (P s c)]
    (h : (Net.plain.replayIf ok 5 ls).any (fun s => (s.world.session 5).any fun c => decide (P s c)) = true) :
    ∃ s c, Net.plain.replayIf ok 5 ls = some s ∧ Run (net 5) G s ∧ s.world.session 5 = some c ∧ P s c := by
  obtain ⟨s, hs, h⟩ := (Option.any_eq_true _ _).mp h
  obtain ⟨c, hc, h⟩ := (Option.any_eq_true _ _).mp h
  have hinit : (net 5).init .plain := ⟨⟨2, 3, 0, _, by decide, rfl⟩, rfl⟩
  exact ⟨s, c, hs, Net.replayIf_run hok (.start hinit) hs, hc, of_decide_eq_true h⟩

def nonFinal : BfdPkt := peerPacket .up 0

def final : BfdPkt := peerPacket .up bitFinal

def handling (events : List Event) : List Happening := events.map (.event .plain)

def flush : List Event := [.kernel (.pass 0 routed), .pollout 3]

def changing (us : UInt32) : List Happening := handling (.setFive none (some us) :: flush)

def handing (packet : BfdPkt) : List Happening := handling (arrival packet ++ flush)

def pending (packet : BfdPkt) : List Happening := handling ((arrival packet).take 1)

def meeting : List Happening :=
  handling [.addFive none none, .timer 0 none] ++ [.hear final, .speak (peerPacket .down 0)] ++
    handing (peerPacket .down 0) ++
    [.hear final, .speak nonFinal] ++ handing nonFinal

def polling : List Happening := meeting ++ changing 2000000 ++ [.lose, .hear final] ++ handing final

def edited : List Happening := polling ++ changing 1500000 ++ [.speak nonFinal] ++ pending nonFinal

def stale : List Happening :=
  meeting ++ changing 2000000 ++ handling [.kernel (.pass 0 routed)] ++
    [.lose, .hear final, .speak nonFinal, .hear final, .speak nonFinal] ++ handing final ++ handing nonFinal ++
    changing 3000000 ++ handing final ++ pending nonFinal

def twice : List Happening :=
  polling ++ [.speak nonFinal] ++ handing nonFinal ++ changing 3000000 ++
    [.hear final, .hear final, .hear final, .speak nonFinal] ++ handing final ++ pending nonFinal

def tidy (d : UInt32) (s : Net) : Happening → Bool
  | .event _ (.set ..) | .event _ (.bfddAdd ..) =>
    decide (Clear d s) && (s.world.machine d).all (fun m => m.bstate ≠ .awaitFinal ∧ m.bstate ≠ .awaitNonFinal)
  | .event _ _ => (s.world.machine d).all (fun m => !m.qd)
  | _ => true

theorem tidy_changes {d : UInt32} {s : Net} {env : Env} {e : Event} {m : Machine} {user : BData}
    (h : tidy d s (.event env e) = true) (hm : s.world.machine d = some m)
    (hc : Causes env.nl s.world e d (.configure user)) :
    Clear d s ∧ m.bstate ≠ .awaitFinal ∧ m.bstate ≠ .awaitNonFinal := by
  obtain ⟨c, handler, -, hcall, hcause⟩ := hc
  have htest : (decide (Clear d s) && (s.world.machine d).all
      (fun m => m.bstate ≠ .awaitFinal ∧ m.bstate ≠ .awaitNonFinal)) = true := by
    cases hcall with
    | set hs => cases e <;> first | exact h | exact hs.elim
    | @timer t _ =>
      obtain ⟨id, fn, discr, owner⟩ := t
      cases fn <;> cases hcause
    | ring _ hr =>
      obtain ⟨-, rfl⟩ | ⟨_, _, _, rfl, -⟩ := ringCall_handler hr
      · cases hcause
      · obtain ⟨p, -, hp⟩ := Option.map_eq_some_iff.mp hcause
        cases hp
  rw [hm] at htest
  simpa using htest

theorem tidy_waits {d : UInt32} {s : Net} {env : Env} {e : Event} {m : Machine}
    (h : tidy d s (.event env e) = true) (hm : s.world.machine d = some m) :
    Clear d s ∨ m.qd = false := by
  cases e with
  | set | bfddAdd =>
    simp only [tidy, Bool.and_eq_true, decide_eq_true_eq] at h
    exact .inl h.1
  | add | del | bfddDel | timer | pollout | ringbuf | kernel =>
    simp only [tidy, hm, Option.all_some, Bool.not_eq_true'] at h
    exact .inr h

theorem inTurn_of_tidy (d : UInt32) (s : Net) (l : Happening) (h : tidy d s l = true) : InTurn d s l := by
  cases l with
  | event env e =>
    intro m cause hm hc
    have hqd (ho : m.qd = true ∧ pace m.user ≠ pace m.dfr) : Clear d s :=
      (tidy_waits h hm).resolve_right (fun hq => by rw [hq] at ho; cases ho.1)
    cases cause with
    | configure user =>
      obtain ⟨hclear, hb, hb'⟩ := tidy_changes h hm hc
      exact ⟨fun he => he.1.elim hb hb', fun _ => hclear⟩
    | hold id => exact ⟨fun he => he, False.elim⟩
    | shwait id => exact ⟨fun he => he, hqd⟩
    | packet rem mult final => exact ⟨fun he => he, fun ho => hqd ho.2.2⟩
    | timeout => exact ⟨fun he => he, hqd⟩
  | lose | hear | speak | drop => trivial

/-- If all goes in turn, the peer of a session that ends a poll sequence has
received what takes effect then, and sent the Final that was taken later. -/
theorem sequence_acknowledged (d : UInt32) (s : Net) (h : Run (net d) (InTurn d) s) (c : Ctx)
    (hc : s.world.session d = some c) (nl : Nl) (e : Event) (hend : Concludes nl d s e c) :
    s.Told (pace (concluded c).bsess.effData) s.consumed := by
  have hm : s.world.machine d = some (view c) := by
    rw [World.machine, hc]
    rfl
  exact (run_ordered h).answered (view c) hm hend.1

theorem sequence_acknowledged_twice : ∃ s c, Run (net 5) (InTurn 5) s ∧ s.world.session 5 = some c ∧
    Concludes .plain 5 s .ringbuf c ∧ s.Told (pace (concluded c).bsess.effData) s.consumed := by
  obtain ⟨s, c, -, hr, hc, hend⟩ := exists_net (inTurn_of_tidy 5) twice
    (P := fun s c => Concludes .plain 5 s .ringbuf c)
    (by decide +kernel)
  exact ⟨s, c, hr, hc, hend, sequence_acknowledged 5 s hr c hc .plain .ringbuf hend⟩

/-- After these events a sequence ends, and the peer has heard of nothing that takes effect then. -/
def EndsUnheard (ls : List Happening) : Prop :=
  ∃ s c, Net.plain.replayIf (fun _ _ => true) 5 ls = some s ∧ Reachable (net 5) s ∧ s.world.session 5 = some c ∧
    Concludes .plain 5 s .ringbuf c ∧ ∀ p ∈ s.heard, pktPace p ≠ pace (concluded c).bsess.effData

theorem sequence_unheard : EndsUnheard edited ∧ EndsUnheard stale := by
  constructor
  · exact exists_net (fun _ _ _ => trivial) edited (by decide +kernel)
  · exact exists_net (fun _ _ _ => trivial) stale (by decide +kernel)

end Bbdd.Daemon
