import Bbdd.Datapath.Frame

namespace Bbdd.Datapath

open Lib.Program Packet Session Prog TxQueue

theorem total_ask : Total ask := fun _ => ⟨_, _, rfl, trivial⟩

theorem total_onBpf (f : Bpf → Bpf) : Total (onBpf f) := total_update _

theorem total_monSenderr (error context : String) : Total (monSenderr error context) := total_onBpf _

theorem total_txHaveCapacity : Total txHaveCapacity :=
  total_bind total_ask (fun _ => total_bind total_read (fun _ => total_pure _))

theorem total_txPolloutArm : Total txPolloutArm := by
  refine total_bind total_read (fun c => total_ite (total_pure _) ?_)
  exact total_bind total_ask (fun _ => total_ite (total_onBpf _) (total_monSenderr _ _))

theorem total_txEnqueue (kind : SlotKind) (isFinal : Bool) (flags : UInt8) :
    Total (txEnqueue kind isFinal flags) := by
  refine total_bind total_read (fun c => ?_)
  split
  refine total_bind (total_onBpf _) (fun _ => total_bind (total_update _) (fun _ => ?_))
  exact total_bind (total_whenever (total_onBpf _)) (fun _ => total_txPolloutArm)

theorem total_sessionSend (veth : Veth) (skb : Skb) : Total (sessionSend veth skb) := by
  refine total_bind total_ask (fun a => total_bind total_read (fun c => ?_))
  exact total_bind (total_onBpf _) (fun _ => total_ite (total_pure _) (total_pure _))

theorem total_sessionConfUpdate (args : ConfArgs) : Total (sessionConfUpdate args) := by
  refine total_bind total_read (fun c => ?_)
  split
  · exact total_pure _
  · exact total_bind total_ask (fun _ =>
      total_ite (total_pure _) (total_bind (total_onBpf _) (fun _ => total_pure _)))

/-- A session off hold none of whose multipliers in use is zero: what the
assertions on the way to an injection ask for. -/
structure Ready (c : Ctx) : Prop where
  awake : c.bsess.bstate ≠ .onHold
  remoteMult : c.dsess.remoteData.timing.detectMult ≠ 0
  bdataMult : ∀ bdata, injectBdata c.bsess = some bdata → bdata.timing.detectMult ≠ 0

theorem injectBdata_frame {c c' : Ctx} (h : Frame c c') : injectBdata c'.bsess = injectBdata c.bsess := by
  simp only [injectBdata, h.bstate, h.effData, h.dfrData]

theorem Ready.frame {c c' : Ctx} (h : Ready c) (hf : Frame c c') : Ready c' where
  awake := by rw [hf.bstate]; exact h.awake
  remoteMult := by rw [hf.dsess]; exact h.remoteMult
  bdataMult := by rw [injectBdata_frame hf]; exact h.bdataMult

theorem injectBdata_isSome {bsess : BSession} (h : bsess.bstate ≠ .onHold) :
    ∃ bdata, injectBdata bsess = some bdata := by
  cases hb : bsess.bstate with
  | onHold => exact absurd hb h
  | stable | awaitFinal | awaitNonFinal | shuttingDown => simp [injectBdata, hb]

theorem injectBfdFlags_isSome (dsess : DSession) {bsess : BSession} (h : bsess.bstate ≠ .onHold) :
    ∃ flags, injectBfdFlags dsess bsess = some flags := by
  cases hb : bsess.bstate with
  | onHold => exact absurd hb h
  | stable | awaitFinal | awaitNonFinal | shuttingDown => simp [injectBfdFlags, injectBfdFlagsBstate, hb]

theorem sessionInjectPkt_runs {c : Ctx} (h : Ready c) (veth : Veth) (flags : UInt8) :
    wp (sessionInjectPkt veth flags) (fun _ c' => Frame c c') c := by
  obtain ⟨bdata, hb⟩ := injectBdata_isSome h.awake
  have hm := h.bdataMult bdata hb
  simp only [sessionInjectPkt, wp_bind, wp_read, hb, if_neg hm]
  refine wp_mono ((total_onBpf _).wp (injected_handoff veth c.dsess c.bsess.bstate) c) (fun _ c₁ h₁ => ?_)
  exact wp_mono ((total_sessionSend _ _).wp (injected_sessionSend _ _) c₁) (fun _ _ h₂ => (h₁.trans h₂).frame)

theorem updateInject_runs {c : Ctx} (h : Ready c) (inject : Bool) :
    wp (updateInject inject) (fun _ c' => Frame c c') c := by
  cases inject with
  | false => simpa [updateInject] using Frame.refl c
  | true =>
    obtain ⟨flags, hf⟩ := injectBfdFlags_isSome c.dsess h.awake
    simpa only [updateInject, if_true, wp_bind, wp_read, hf] using sessionInjectPkt_runs h .tx flags

theorem updateRearm_runs {c : Ctx} (h : Ready c) (us : UInt32) :
    wp (updateRearm us) (fun _ c' => Frame c c') c := by
  refine wp_mono (((injected_updateRearm us).mono (fun _ _ => Injected.frame)).wp
    (Q := fun _ _ => True) ?_) (fun _ _ hc => hc.2)
  simp only [updateRearm, wp_bind, wp_read, wp_ite, wp_attempt]
  split
  · refine wp_mono (sessionInjectPkt_runs h .rx 0) (fun r c' _ => ?_)
    cases r with
    | error e => trivial
    | ok _ => simp [onBsess]
  · simp [onBsess]

theorem updateDefer_runs {c : Ctx} (h : Ready c) : wp updateDefer (fun _ c' => Frame c c') c := by
  obtain ⟨flags, hf⟩ := injectBfdFlags_isSome c.dsess h.awake
  simp only [updateDefer, wp_bind, wp_read, hf]
  refine wp_mono ((total_txEnqueue _ _ _).wp (within_txEnqueue _ _ _) c) (fun _ c' hc => ?_)
  exact (wp_pure _ _ c').mpr hc

theorem sessionDetectTimeUs_isSome (effData : BData) {remote : SessionData}
    (h : remote.timing.detectMult ≠ 0) :
    ∃ us, sessionDetectTimeUs effData remote = some us := by
  simp only [sessionDetectTimeUs, if_neg h]
  split <;> exact ⟨_, rfl⟩

theorem updateNow_runs {c : Ctx} (h : Ready c) (inject : Bool) :
    wp (updateNow inject) (fun _ c' => Frame c c') c := by
  refine wp_mono ((within_updateNow inject).wp (Q := fun _ _ => True) ?_) (fun _ _ hc => hc.2)
  have hbump : Frame c { c with bsess := { c.bsess with
      genId := c.bsess.genId + 1, genBumps := c.bsess.genBumps + 1 } } := { Frame.refl c with }
  obtain ⟨us, hus⟩ := sessionDetectTimeUs_isSome c.bsess.effData h.remoteMult
  simp only [updateNow, onBsess, wp_bind, wp_update, wp_read, hus, wp_attempt]
  -- each part starts from a state the frame relates to the first one, so it is ready again
  refine wp_mono ((total_sessionConfUpdate _).wp
    ((injected_sessionConfUpdate _).mono (fun _ _ => Injected.frame)) _) (fun r c₁ h₁ => ?_)
  cases r with
  | error e => trivial
  | ok _ =>
    have hr := h.frame (hbump.trans h₁)
    refine wp_mono (updateInject_runs hr inject) (fun r c₂ h₂ => ?_)
    cases r with
    | error e => trivial
    | ok _ => exact wp_mono (updateRearm_runs (hr.frame h₂) us) (fun _ _ _ => trivial)

theorem sessionUpdateInner_runs {c : Ctx} (h : Ready c) :
    wp sessionUpdateInner (fun _ c' => Frame c c') c := by
  simp only [sessionUpdateInner, wp_bind, wp_read, wp_ite]
  split
  · refine wp_mono (total_txHaveCapacity.wp within_txHaveCapacity c) (fun room c₁ h₁ => ?_)
    have hr := h.frame h₁
    cases room with
    | true => exact wp_mono (updateNow_runs hr true) (fun _ _ h₂ => h₁.trans h₂)
    | false => exact wp_mono (updateDefer_runs hr) (fun _ _ h₂ => h₁.trans h₂)
  · exact updateNow_runs h false

theorem reported_runs {p : Act (Except String Unit)} {c : Ctx} (hp : wp p (fun _ c' => Frame c c') c)
    (context : String) : wp (reported p context) (fun _ c' => Frame c c') c := by
  refine wp_seq hp (fun r c₁ h₁ => ?_)
  cases r with
  | error e =>
    exact wp_mono ((total_monSenderr e context).wp (within_monSenderr e context) c₁) (fun _ _ h₂ => h₁.trans h₂)
  | ok _ => exact (wp_pure _ _ _).mpr h₁

theorem sessionCallUpdate_runs {c : Ctx} (h : Ready c) :
    wp sessionCallUpdate (fun _ c' => Frame c c') c := by
  simp only [sessionCallUpdate, wp_bind, wp_read]
  exact reported_runs (sessionUpdateInner_runs h) _

theorem sessionStateChanged_runs {c : Ctx} (h : Ready c) :
    wp sessionStateChanged (fun _ c' => Frame c c') c := by
  refine wp_mono (within_sessionStateChanged.wp (Q := fun _ _ => True) ?_) (fun _ _ hc => hc.2)
  refine wp_seq (sessionCallUpdate_runs h) (fun _ c₁ _ => ?_)
  simp [onBpf]

theorem respondPoll_runs {c : Ctx} (h : Ready c) : wp respondPoll (fun _ c' => Frame c c') c := by
  refine wp_seq (total_txHaveCapacity.wp within_txHaveCapacity c) (fun room c₁ h₁ => ?_)
  cases room with
  | true =>
    exact wp_mono (reported_runs (sessionInjectPkt_runs (h.frame h₁) .tx bitFinal) _) (fun _ _ h₂ => h₁.trans h₂)
  | false => exact wp_mono ((total_txEnqueue _ _ _).wp (within_txEnqueue _ _ _) c₁) (fun _ _ h₂ => h₁.trans h₂)

end Bbdd.Datapath
