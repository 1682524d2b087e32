import Bbdd.Daemon.PollFinal
import Bbdd.Daemon.Quiet
import Mathlib.Data.List.Forall2

namespace Bbdd.Daemon

open Lib.Program Lib.Transition Packet Session Prog TxQueue Datapath Poll

def onAir (b : Bpf) : List Skb := (b.sends.filter (·.veth = .tx)).map (·.skb)

/-- A packet tells what the session was when it was injected. A Final never
has the C bit. -/
structure Bears (skb : Skb) (h : Handoff) : Prop where
  discr : skb.discr = h.dsess.localData.discr
  cpi : skb.cpi = (h.dsess.localData.flags.cpi && !skb.final)

def Utters (b b' : Bpf) : Prop :=
  ∃ skbs hs, onAir b' = skbs ++ onAir b ∧ b'.handoffs = hs ++ b.handoffs ∧ List.Forall₂ Bears skbs hs

theorem Utters.trans {a b c : Bpf} (h : Utters a b) (k : Utters b c) : Utters a c := by
  obtain ⟨skbs, hs, ha, hh, hf⟩ := h
  obtain ⟨skbs', hs', ha', hh', hf'⟩ := k
  exact ⟨skbs' ++ skbs, hs' ++ hs, by rw [ha', ha, List.append_assoc], by rw [hh', hh, List.append_assoc],
    List.rel_append hf' hf⟩

theorem utters_of_eq {b b' : Bpf} (hs : b'.sends = b.sends) (hh : b'.handoffs = b.handoffs) : Utters b b' :=
  ⟨[], [], by rw [onAir, hs]; rfl, hh, .nil⟩

def Voices (c c' : Ctx) : Prop := Utters c.bpf c'.bpf

instance : Std.Refl Voices := ⟨fun _ => utters_of_eq rfl rfl⟩

instance : IsTrans Ctx Voices := ⟨fun _ _ _ => Utters.trans⟩

section

variable {c c' : Ctx} {w w' : World} {d : UInt32} {l : Label} {r : Except String Unit} {flags : UInt8}

theorem voices_of_timed (h : Timed c c') : Voices c c' := by
  obtain ⟨-, -, ⟨evs, t, n, tk, out, ar, hp⟩⟩ := h
  exact utters_of_eq (by rw [hp]) (by rw [hp])

theorem voices_of_provided (h : Provided c c') : Voices c c' := by
  obtain ⟨kernel, tick, outputs, cap, rfl⟩ := h
  exact utters_of_eq rfl rfl

theorem voices_update {f : Ctx → Ctx} (hs : ∀ c, (f c).bpf.sends = c.bpf.sends)
    (hh : ∀ c, (f c).bpf.handoffs = c.bpf.handoffs) :
    Within Voices (update f : Act Unit) :=
  within_update (fun c => utters_of_eq (hs c) (hh c))

def Flagged (flags : UInt8) (dsess : DSession) : Prop :=
  hasBit flags bitCpi = (dsess.localData.flags.cpi && !hasBit flags bitFinal)

theorem flagged_final (dsess : DSession) : Flagged bitFinal dsess := by
  have hc : hasBit bitFinal bitCpi = false := by decide
  have hf : hasBit bitFinal bitFinal = true := by decide
  rw [Flagged, hc, hf, Bool.not_true, Bool.and_false]

theorem flagged_inject {dsess : DSession} {bsess : BSession} (h : injectBfdFlags dsess bsess = some flags) :
    Flagged flags dsess := by
  unfold injectBfdFlags at h
  unfold Flagged
  cases hb : bsess.bstate <;> cases hc : dsess.localData.flags.cpi <;>
    simp only [hb, hc, bfdSessionFlags, injectBfdFlagsBstate, Option.map_none, Option.map_some, reduceCtorEq,
      Option.some.injEq, if_true, Bool.false_eq_true, if_false] at h <;> subst h <;> decide

theorem sessionInjectPkt_voices {veth : Veth} (hlt : flags < 64) (hf : veth = .tx → Flagged flags c.dsess)
    (h : sessionInjectPkt veth flags c = .ok (r, c')) : Voices c c' := by
  obtain ⟨s, hs, hveth, hdiscr, hbits⟩ := (sessionInjectPkt_passed hlt h).sends
  have hh := (sessionInjectPkt_handoffs h).2
  cases veth with
  | rx => exact ⟨[], [], by simp [onAir, hs, hveth], hh, .nil⟩
  | tx =>
    have hb : Bears s.skb ⟨c.dsess, c.bsess.bstate⟩ := by
      refine ⟨hdiscr, ?_⟩
      simp only [Skb.cpi, Skb.final, hbits]
      exact hf rfl
    exact ⟨[s.skb], [⟨c.dsess, c.bsess.bstate⟩], by simp [onAir, hs, hveth], hh, .cons hb .nil⟩

theorem voices_injectRearmPacket : Within Voices injectRearmPacket := by
  intro c r c' h
  have h : sessionInjectPkt .rx 0 c = .ok (r, c') := h
  exact sessionInjectPkt_voices (by decide) (fun hv => by cases hv) h

theorem voices_sessionConfUpdate (args : ConfArgs) : Within Voices (sessionConfUpdate args) :=
  (provided_sessionConfUpdate args).mono (fun _ _ => voices_of_provided)

theorem voices_updateNow (inject : Bool) : Within Voices (updateNow inject) := by
  have hset : ∀ f, Within Voices (onBsess f) := fun f => voices_update (fun _ => rfl) (fun _ => rfl)
  refine updateNow_within (hset _) voices_sessionConfUpdate
    (updateInject_within (fun c r c' flags hf h => ?_) inject)
    (updateRearm_within voices_injectRearmPacket (fun _ => hset _))
  exact sessionInjectPkt_voices (injectBfdFlags_bits hf).1 (fun _ => flagged_inject hf) h

theorem voices_txEnqueue {kind : SlotKind}
    (h : txEnqueue kind (decide (kind = .final)) flags c = .ok ((), c')) : Voices c c' := by
  obtain ⟨diagStats, -, ht⟩ := txEnqueue_ok h
  exact trans_of Voices (utters_of_eq rfl rfl) (voices_of_timed ht)

theorem voices_of_chore (h : Chore c c') : Voices c c' := by
  cases h with
  | ask h => exact voices_of_timed (timed_ask _ _ _ h)
  | output o => exact utters_of_eq rfl rfl
  | defer flags hf h =>
    rw [hf] at h
    exact @voices_txEnqueue _ _ _ .periodic h
  | rearm h => exact voices_injectRearmPacket _ _ _ h
  | update inject _ h => exact voices_updateNow inject _ _ _ h
  | shwaitStop h => exact voices_of_timed (timed_shwaitStop _ _ _ h)
  | shwaitStart h => exact voices_of_timed (timed_shwaitStart _ _ _ h)
  | holdStop h => exact voices_of_timed (timed_holdStop _ _ _ h)
  | write h => exact utters_of_eq (by rw [h.bpf]) (by rw [h.bpf])

theorem voices_of_chores (h : Chores c c') : Voices c c' :=
  keeps_of_moves (I := Voices c) (fun _ _ hc hv => trans_of Voices hv (voices_of_chore hc)) h (refl_of Voices c)

theorem voices_chores {α : Type} {p : Act α} (hp : Within Chores p) : Within Voices p :=
  hp.mono (fun _ _ => voices_of_chores)

theorem voices_final (veth : Veth) : Within Voices (sessionInjectPkt veth bitFinal) := by
  intro c r c' h
  exact sessionInjectPkt_voices (by decide) (fun _ => flagged_final _) h

theorem voices_reported {p : Act (Except String Unit)} (hp : Within Voices p) (context : String) :
    Within Voices (reported p context) :=
  reported_within (fun _ => voices_update (fun _ => rfl) (fun _ => rfl)) hp context

theorem voices_respondPoll : Within Voices respondPoll := by
  refine within_bind (voices_chores chores_txHaveCapacity) (fun _ => within_ite ?_ ?_)
  · exact voices_reported (voices_final _) _
  · exact fun c _ c' h => @voices_txEnqueue c c' _ .final h

theorem voices_drainSlot {kind : SlotKind} (hq : QueueOk c) (hc : Straight c)
    (hl : (slotOf c.bsess kind).linked = true) :
    Within Voices (drainSlot (slotOf c.bsess kind)) := by
  refine within_bind ?_ (fun _ => voices_update (fun _ => rfl) (fun _ => rfl))
  rw [(hq.slots kind hl).isFinal]
  cases kind with
  | final =>
    have hflags : (slotOf c.bsess .final).bfdFlags = bitFinal := hc.slot hl
    rw [hflags]
    exact voices_reported (voices_final _) _
  | periodic => exact voices_chores (chores_reported chores_sessionUpdateInner _)

theorem Handled.voices {h : Handler} {k : Nat} (hok : SessionOk k d c) (hc : Straight c)
    (hh : Handled h c c') : Voices c c' := by
  cases hh with
  | @set _ c₁ _ applied csess ha hu hr =>
    refine trans_of Voices (b := { c with dsess := applied }) (utters_of_eq rfl rfl) ?_
    refine trans_of Voices (voices_chores chores_sessionUpdate _ _ _ hr) ?_
    obtain he | he := announced_eq _ _ _ <;> rw [he]
    · exact refl_of Voices _
    · exact utters_of_eq rfl rfl
  | packet packet wireLen ttl hr =>
    exact within_handlePacket (fun _ _ => voices_of_chores) voices_respondPoll packet wireLen ttl _ _ _ hr
  | timeout hr => exact voices_chores chores_handleTimeout _ _ _ hr
  | hold id hm hr => exact trans_of Voices (voices_chores chores_holdTimerCb _ _ _ hr) (utters_of_eq rfl rfl)
  | shwait id hm hr => exact trans_of Voices (voices_chores chores_shwaitTimerCb _ _ _ hr) (utters_of_eq rfl rfl)
  | drain kind hl hr =>
    have hun : Voices c (c.unlinked kind) := by cases kind <;> exact utters_of_eq rfl rfl
    exact trans_of Voices hun (voices_drainSlot hok.queue hc hl _ _ _ hr)

theorem voices_txUnlink (kind : SlotKind) : Within Voices (txUnlink kind) :=
  within_bind within_read (fun _ => within_bind (voices_update (fun _ => rfl) (fun _ => rfl))
    (fun _ => voices_update (fun _ => rfl) (fun _ => rfl)))

theorem Shared.utters {b b' : Bpf} (h : Shared b b') : Utters b b' := by
  cases h <;> exact utters_of_eq rfl rfl

theorem Step.utters (h : Step l w w') (hw : Sound w) (hu : Upright w) : Utters w.bpf w'.bpf := by
  cases h with
  | shared hb => exact hb.utters
  | handled hc hh =>
    have hv := hh.voices (hw.session _ _ hc) (hu.straight hc)
    rwa [Voices, (session_eq_some.mp hc).2.2] at hv
  | create _ _ _ hr => exact sessionAdd_within (fun _ _ =>
      voices_of_provided) (fun _ _ => voices_of_timed) _ _ _ _ hr
  | refuse _ _ hr => exact sessionAdd_within (fun _ _ => voices_of_provided) (fun _ _ =>
      voices_of_timed) _ _ _ _ hr
  | remove hc hr =>
    have hv := sessionDel_within (fun _ _ => voices_of_provided) (fun _ _ => voices_of_timed)
      voices_txUnlink _ _ _ _ hr
    rwa [Voices, (session_eq_some.mp hc).2.2] at hv

theorem reachable_bears (h : Reachable daemon w) : List.Forall₂ Bears (onAir w.bpf) w.bpf.handoffs := by
  refine Run.invariant (I := fun w => List.Forall₂ Bears (onAir w.bpf) w.bpf.handoffs) ?_
    (fun w l w' hr hb _ hs => ?_) h
  · rintro s ⟨rx, tx, cap, answers, -, rfl⟩
    exact .nil
  · have hu : Upright w' ∧ Utters (w.enter l.1).bpf w'.bpf := by
      refine step_keeps (I := fun v => Upright v ∧ Utters (w.enter l.1).bpf v.bpf) (fun l v v' hv hs hi => ?_)
        (reachable_sound hr) hs ⟨{ reachable_upright hr with }, utters_of_eq rfl rfl⟩
      exact ⟨hs.upright hv hi.1, hi.2.trans (hs.utters hv hi.1)⟩
    obtain ⟨skbs, hs, ha, hh, hf⟩ := hu.2
    rw [ha, hh]
    exact List.rel_append hf hb

/-- Every packet injected so far has the C bit exactly if its session had the
flag then, except for a Final of a session with the flag, which does not. -/
theorem cpi_of_injected (h : Reachable daemon w) :
    List.Forall₂ (fun skb h => skb.discr = h.dsess.localData.discr ∧
      (skb.cpi = h.dsess.localData.flags.cpi ↔ ¬ (skb.final = true ∧ h.dsess.localData.flags.cpi = true)))
      (onAir w.bpf) w.bpf.handoffs := by
  refine (reachable_bears h).imp (fun skb h hb => ⟨hb.discr, ?_⟩)
  rw [hb.cpi]
  cases skb.final <;> cases h.dsess.localData.flags.cpi <;> decide

end

def Event.independent : Event :=
  .set selectFive ⟨{ CSession.blank with flags := ⟨none, some true, none, none⟩ }, ⟨rfl, rfl, rfl, rfl⟩⟩ false

theorem cpi_of_injected_set : ∃ w, Reachable daemon w ∧
    ∃ skb h, (skb, h) ∈ (onAir w.bpf).zip w.bpf.handoffs ∧ h.dsess.localData.flags.cpi = true ∧
      skb.cpi = true := by
  obtain ⟨w, c, hr, -, ⟨skb, h⟩, hm, hf, hc⟩ := exists_replayed (inPlain (settledUp ++ [.independent]))
    (P := fun w c => ∃ p ∈ (onAir w.bpf).zip w.bpf.handoffs, p.1.final = false ∧
      p.2.dsess.localData.flags.cpi = true)
    (by decide +kernel)
  have hall := (List.forall₂_iff_zip.mp (cpi_of_injected hr)).2 hm
  refine ⟨w, hr, skb, h, hm, hc, ?_⟩
  rw [hall.2.mpr (fun hb => by rw [hf] at hb; cases hb.1)]
  exact hc

/-- Its peer polls twice. The first Final is sent at once, the second waits in
the queue for a while; neither has the bit. -/
theorem not_cpi_of_final : ∃ w, Reachable daemon w ∧ ∃ p q, [p, q] <+: (onAir w.bpf).zip w.bpf.handoffs ∧
    ∀ x ∈ [p, q], x.1.final = true ∧ x.2.dsess.localData.flags.cpi = true ∧ x.1.cpi = false := by
  obtain ⟨w, c, hr, -, hlen, hall⟩ := exists_replayed
    (inPlain (settledUp ++ [.independent, .kernel (.pass 0 routed), .pollout 3] ++ arrival
      (peerPacket .up bitPoll) ++
      arrival (peerPacket .up bitPoll) ++ [.kernel (.pass 0 routed), .pollout 3]))
    (P := fun w c => (((onAir w.bpf).zip w.bpf.handoffs).take 2).length = 2 ∧
      ∀ x ∈ ((onAir w.bpf).zip w.bpf.handoffs).take 2,
        x.1.final = true ∧ x.2.dsess.localData.flags.cpi = true ∧ x.1.cpi = false)
    (by decide +kernel)
  obtain ⟨p, q, hpq⟩ := List.length_eq_two.mp hlen
  rw [hpq] at hall
  exact ⟨w, hr, p, q, hpq ▸ List.take_prefix _ _, hall⟩

end Bbdd.Daemon
