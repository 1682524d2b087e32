import Bbdd.Datapath.Lifecycle

namespace Bbdd.Datapath

open Lib.Program Session Prog TxQueue

section

variable {R : Ctx → Ctx → Prop} [Std.Refl R]

theorem updateInject_within (hi : ∀ c r c' flags, injectBfdFlags c.dsess c.bsess = some flags →
    sessionInjectPkt .tx flags c = .ok (r, c') → R c c') (inject : Bool) : Within R (updateInject inject) := by
  refine within_ite (within_read_bind (fun c r c' h => ?_)) (within_pure _)
  cases hf : injectBfdFlags c.dsess c.bsess with
  | none => simp only [hf] at h; cases h
  | some flags =>
    simp only [hf] at h
    exact hi c r c' flags hf h

variable [IsTrans Ctx R]

theorem reported_within {p : Act (Except String Unit)} (ho : ∀ o, Within R (onBpf (·.output o)))
    (hp : Within R p) (context : String) : Within R (reported p context) := by
  refine within_bind hp (fun r => ?_)
  cases r with
  | error e => exact ho _
  | ok _ => exact within_pure _

theorem txHaveCapacity_within (ha : Within R ask) : Within R txHaveCapacity :=
  within_bind ha (fun _ => within_bind within_read (fun _ => within_pure _))

theorem updateRearm_within (hr : Within R injectRearmPacket)
    (hb : ∀ us, Within R (onBsess (fun s => { s with timerPeriodUs := us }))) (us : UInt32) :
    Within R (updateRearm us) := by
  refine within_bind within_read (fun c => within_ite ?_ ?_)
  · exact within_attempt hr (fun _ => within_bind (hb us) (fun _ => within_pure _))
  · exact within_bind (hb 0) (fun _ => within_pure _)

theorem updateNow_within
    (hm : Within R (onBsess (fun s => { s with genId := s.genId + 1, genBumps := s.genBumps + 1 })))
    (hc : ∀ args, Within R (sessionConfUpdate args)) {inject : Bool} (hi : Within R (updateInject inject))
    (hr : ∀ us, Within R (updateRearm us)) : Within R (updateNow inject) := by
  refine within_bind hm (fun _ => within_bind within_read (fun c => ?_))
  split
  · exact within_crash _
  · exact within_attempt (hc _) (fun _ => within_attempt hi (fun _ => hr _))

end

/-- All that sending packets and writing config entries changes: the kernel's
side, the counters, the log of sends, and the marks of the session. -/
structure Injected (c c' : Ctx) : Prop where
  dsess : c'.dsess = c.dsess
  bsess : ∃ genId genBumps us,
    c'.bsess = { c.bsess with genId := genId, genBumps := genBumps, timerPeriodUs := us }
  bpf : ∃ kernel diagStats sends handoffs tick, c'.bpf = { c.bpf with
    kernel := kernel, diagStats := diagStats, sends := sends, handoffs := handoffs, tick := tick }

theorem Injected.refl (c : Ctx) : Injected c c := ⟨rfl, ⟨_, _, _, rfl⟩, ⟨_, _, _, _, _, rfl⟩⟩

theorem Injected.trans {a b c : Ctx} (h : Injected a b) (k : Injected b c) : Injected a c := by
  obtain ⟨hd, ⟨g, n, us, hb⟩, ⟨kn, ds, ss, hs, tk, hp⟩⟩ := h
  obtain ⟨kd, ⟨g', n', us', kb⟩, ⟨kn', ds', ss', hs', tk', kp⟩⟩ := k
  exact ⟨kd.trans hd, ⟨g', n', us', by rw [kb, hb]⟩, ⟨kn', ds', ss', hs', tk', by rw [kp, hp]⟩⟩

instance : Std.Refl Injected := ⟨Injected.refl⟩

instance : IsTrans Ctx Injected := ⟨fun _ _ _ => Injected.trans⟩

theorem injected_ask : Within Injected ask := by
  intro c a c' h
  cases h
  exact ⟨rfl, ⟨_, _, _, rfl⟩, ⟨_, _, _, _, _, rfl⟩⟩

theorem send_eq (b : Bpf) (a : Answer) (veth : Veth) (skb : Skb) : ∃ kernel diagStats sends,
    (b.send a veth skb).2 = { b with kernel := kernel, diagStats := diagStats, sends := sends } := by
  unfold Bpf.send
  split <;> exact ⟨_, _, _, rfl⟩

theorem injected_sessionSend (veth : Veth) (skb : Skb) : Within Injected (sessionSend veth skb) := by
  refine within_bind injected_ask (fun a => within_read_bind ?_)
  intro c r c' h
  obtain ⟨kernel, diagStats, sends, hs⟩ := send_eq c.bpf a veth skb
  obtain ⟨_, d, hd, hr⟩ := bind_ok.mp h
  cases hd
  have hsent : Injected c { c with bpf := (c.bpf.send a veth skb).2 } :=
    ⟨rfl, ⟨_, _, _, rfl⟩, ⟨kernel, diagStats, sends, _, _, hs⟩⟩
  exact hsent.trans (within_ite (within_pure _) (within_pure _) _ _ _ hr)

theorem injected_handoff (veth : Veth) (dsess : DSession) (bstate : BState) :
    Within Injected (onBpf (·.handoff veth dsess bstate)) := by
  refine within_update (fun c => ⟨rfl, ⟨_, _, _, rfl⟩, ?_⟩)
  cases veth <;> exact ⟨_, _, _, _, _, rfl⟩

theorem injected_sessionInjectPkt (veth : Veth) (flags : UInt8) :
    Within Injected (sessionInjectPkt veth flags) := by
  refine within_bind within_read (fun c => ?_)
  split
  · exact within_crash _
  · exact within_ite (within_crash _) (within_bind (injected_handoff _ _ _) (fun _ => injected_sessionSend _ _))

theorem injected_sessionConfUpdate (args : ConfArgs) : Within Injected (sessionConfUpdate args) := by
  refine within_bind within_read (fun c => ?_)
  split
  · exact within_pure _
  · refine within_bind injected_ask (fun a => within_ite (within_pure _) ?_)
    exact within_bind (within_update (fun _ => ⟨rfl, ⟨_, _, _, rfl⟩, ⟨_, _, _, _, _, rfl⟩⟩))
      (fun _ => within_pure _)

theorem injected_updateRearm (us : UInt32) : Within Injected (updateRearm us) :=
  updateRearm_within (injected_sessionInjectPkt _ _)
    (fun _ => within_update (fun _ => ⟨rfl, ⟨_, _, _, rfl⟩, ⟨_, _, _, _, _, rfl⟩⟩)) us

theorem injected_updateNow (inject : Bool) : Within Injected (updateNow inject) :=
  updateNow_within (within_update (fun _ => ⟨rfl, ⟨_, _, _, rfl⟩, ⟨_, _, _, _, _, rfl⟩⟩))
    injected_sessionConfUpdate
    (updateInject_within (fun _ _ _ _ _ => injected_sessionInjectPkt _ _ _ _ _) inject) injected_updateRearm

/-- What not even a queued injection touches: the daemon's session, the poll
machinery of the data path's session and the timers. -/
structure Frame (c c' : Ctx) : Prop where
  dsess : c'.dsess = c.dsess
  discr : c'.bsess.discr = c.bsess.discr
  bstate : c'.bsess.bstate = c.bsess.bstate
  effData : c'.bsess.effData = c.bsess.effData
  dfrData : c'.bsess.dfrData = c.bsess.dfrData
  qdChange : c'.bsess.qdChange = c.bsess.qdChange
  shwait : c'.bsess.shwait = c.bsess.shwait
  hold : c'.bsess.hold = c.bsess.hold
  ptr : c'.bsess.ptr = c.bsess.ptr
  timers : c'.bpf.timers = c.bpf.timers
  nextTimer : c'.bpf.nextTimer = c.bpf.nextTimer
  answers : c'.bpf.answers = c.bpf.answers

theorem Frame.refl (c : Ctx) : Frame c c := ⟨rfl, rfl, rfl, rfl, rfl, rfl, rfl, rfl, rfl, rfl, rfl, rfl⟩

theorem Frame.trans {a b c : Ctx} (h : Frame a b) (k : Frame b c) : Frame a c where
  dsess := k.dsess.trans h.dsess
  discr := k.discr.trans h.discr
  bstate := k.bstate.trans h.bstate
  effData := k.effData.trans h.effData
  dfrData := k.dfrData.trans h.dfrData
  qdChange := k.qdChange.trans h.qdChange
  shwait := k.shwait.trans h.shwait
  hold := k.hold.trans h.hold
  ptr := k.ptr.trans h.ptr
  timers := k.timers.trans h.timers
  nextTimer := k.nextTimer.trans h.nextTimer
  answers := k.answers.trans h.answers

instance : Std.Refl Frame := ⟨Frame.refl⟩

instance : IsTrans Ctx Frame := ⟨fun _ _ _ => Frame.trans⟩

theorem Injected.frame {c c' : Ctx} (h : Injected c c') : Frame c c' := by
  obtain ⟨hd, ⟨g, n, us, hb⟩, ⟨kn, ds, ss, hs, tk, hp⟩⟩ := h
  constructor <;> first | exact hd | rw [hb] | rw [hp]

theorem within_onBpf {f : Bpf → Bpf} (ht : ∀ b, (f b).timers = b.timers)
    (hn : ∀ b, (f b).nextTimer = b.nextTimer) (ha : ∀ b, (f b).answers = b.answers) :
    Within Frame (onBpf f) :=
  within_update (fun c => { Frame.refl c with timers := ht c.bpf, nextTimer := hn c.bpf, answers := ha c.bpf })

theorem within_ask : Within Frame ask := injected_ask.mono (fun _ _ => Injected.frame)

theorem within_sessionInjectPkt (veth : Veth) (flags : UInt8) :
    Within Frame (sessionInjectPkt veth flags) :=
  (injected_sessionInjectPkt veth flags).mono (fun _ _ => Injected.frame)

theorem within_updateNow (inject : Bool) : Within Frame (updateNow inject) :=
  (injected_updateNow inject).mono (fun _ _ => Injected.frame)

theorem within_monSenderr (error context : String) : Within Frame (monSenderr error context) :=
  within_onBpf (fun _ => rfl) (fun _ => rfl) (fun _ => rfl)

theorem within_reported {p : Act (Except String Unit)} (hp : Within Frame p) (context : String) :
    Within Frame (reported p context) :=
  reported_within (fun _ => within_onBpf (fun _ => rfl) (fun _ => rfl) (fun _ => rfl)) hp context

theorem within_txHaveCapacity : Within Frame txHaveCapacity := txHaveCapacity_within within_ask

theorem within_txPolloutArm : Within Frame txPolloutArm := by
  refine within_bind within_read (fun c => within_ite (within_pure _) ?_)
  exact within_bind within_ask (fun a =>
    within_ite (within_onBpf (fun _ => rfl) (fun _ => rfl) (fun _ => rfl)) (within_monSenderr _ _))

theorem within_setSlot (slot : TxSlot) (kind : SlotKind) :
    Within Frame (onBsess (fun s => setSlot s slot kind)) :=
  within_update (fun c => by cases kind <;> exact { Frame.refl c with })

theorem within_txEnqueue (kind : SlotKind) (isFinal : Bool) (flags : UInt8) :
    Within Frame (txEnqueue kind isFinal flags) := by
  refine within_bind within_read (fun c => ?_)
  split
  refine within_bind (within_onBpf (fun _ => rfl) (fun _ => rfl) (fun _ => rfl)) (fun _ => ?_)
  refine within_bind (within_setSlot _ _) (fun _ => ?_)
  refine within_bind (within_whenever (within_onBpf (fun _ => rfl) (fun _ => rfl) (fun _ => rfl))) (fun _ => ?_)
  exact within_txPolloutArm

theorem within_updateDefer : Within Frame updateDefer := by
  refine within_bind within_read (fun c => ?_)
  split
  · exact within_crash _
  · exact within_bind (within_txEnqueue _ _ _) (fun _ => within_pure _)

theorem within_sessionUpdateInner : Within Frame sessionUpdateInner := by
  refine within_bind within_read (fun c => within_ite ?_ (within_updateNow _))
  exact within_bind within_txHaveCapacity (fun _ => within_ite (within_updateNow _) within_updateDefer)

theorem within_sessionCallUpdate : Within Frame sessionCallUpdate :=
  within_bind within_read (fun _ => within_reported within_sessionUpdateInner _)

theorem within_sessionStateChanged : Within Frame sessionStateChanged :=
  within_bind within_sessionCallUpdate (fun _ =>
    within_bind within_read (fun _ => within_onBpf (fun _ => rfl) (fun _ => rfl) (fun _ => rfl)))

theorem within_respondPoll : Within Frame respondPoll := by
  refine within_bind within_txHaveCapacity (fun _ => within_ite ?_ (within_txEnqueue _ _ _))
  exact within_reported (within_sessionInjectPkt _ _) _

end Bbdd.Datapath
