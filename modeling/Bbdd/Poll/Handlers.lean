import Bbdd.Poll.Fit

namespace Bbdd.Poll

open Lib.Program Packet Session Datapath

/-- What became of the one timer an event may ask for: it has the next
identity, or something could not be allocated. -/
def Granted (b : Bpf) (fresh : Option Nat) : Prop :=
  fresh = some b.nextTimer ∨ (fresh = none ∧ ¬ Supplied b)

theorem granted_outcome {b : Bpf} {r : Except String Unit} (h : Supplied b → r.isOk = true) :
    Granted b (granted b.nextTimer r) := by
  cases r with
  | error e => exact .inr ⟨rfl, fun hs => absurd (h hs) Bool.false_ne_true⟩
  | ok _ => exact .inl rfl

theorem granted_supply {b b' : Bpf} (h : SameSupply b b') {fresh : Option Nat} (hg : Granted b' fresh) :
    Granted b fresh := by
  obtain rfl | ⟨rfl, hs⟩ := hg
  · exact .inl (by rw [h.1])
  · exact .inr ⟨rfl, fun hb => hs (h.supplied hb)⟩

/-- The session moves by one operation of its machine, given the outcome of
the allocation the operation may need. -/
def Becomes (c : Ctx) (op : Option Nat → Machine) (c' : Ctx) : Prop :=
  ∃ fresh, Granted c.bpf fresh ∧ view c' = op fresh

theorem Becomes.frame {c c' c'' : Ctx} {op : Option Nat → Machine} (h : Becomes c op c')
    (hf : Frame c' c'') :
    Becomes c op c'' := by
  obtain ⟨fresh, hg, hv⟩ := h
  exact ⟨fresh, hg, (view_frame hf).trans hv⟩

theorem Becomes.supply {c₀ c c' : Ctx} {op : Option Nat → Machine} (h : Becomes c op c')
    (hs : SameSupply c₀.bpf c.bpf) : Becomes c₀ op c' := by
  obtain ⟨fresh, hg, hv⟩ := h
  exact ⟨fresh, granted_supply hs hg, hv⟩

theorem gotFinal_runs {c : Ctx} (h : Fit { view c with bstate := .awaitNonFinal }) :
    wp gotFinal (fun _ c' => view c' = { view c with bstate := .awaitNonFinal }) c := by
  refine (wp_bind _ _ _ _).mpr ((wp_update _ _ _).mpr ?_)
  refine wp_mono (sessionCallUpdate_runs (Fit.ready ?_)) (fun _ c' hf => view_frame hf)
  exact h

theorem takeQdChange_runs {c : Ctx} (h : Fit { view c with qd := false }) :
    wp takeQdChange (fun _ c' => Becomes c { view c with qd := false }.update c') c := by
  refine (wp_bind _ _ _ _).mpr ((wp_read _ _).mpr ((wp_bind _ _ _ _).mpr ((wp_update _ _ _).mpr ?_)))
  have hu := handleSessionUpdate_runs (c := { c with bsess := { c.bsess with qdChange := false } })
    (Fit.ready h) (Fit.live h)
  refine wp_seq hu (fun r c₁ h₁ => ?_)
  obtain ⟨-, hs, hv⟩ := h₁
  have hb : Becomes c { view c with qd := false }.update c₁ := ⟨_, granted_outcome hs, hv⟩
  cases r with
  | error e => exact wp_mono ((total_monSenderr _ _).wp (within_monSenderr _ _) c₁) (fun _ _ hf => hb.frame hf)
  | ok _ => exact (wp_pure _ _ _).mpr hb

theorem gotNonFinal_runs {c : Ctx} (hr : (view c).remMult ≠ 0) (hu : (view c).user.timing.detectMult ≠ 0)
    (hd : (view c).dfr.timing.detectMult ≠ 0) :
    wp gotNonFinal (fun _ c' => Becomes c (view c).conclude c') c := by
  refine (wp_bind _ _ _ _).mpr ((wp_update _ _ _).mpr ((wp_bind _ _ _ _).mpr ((wp_read _ _).mpr ?_)))
  cases hq : c.bsess.qdChange with
  | false =>
    have hfit := fit_settled hr hu hd false
    simp only [whenever, Bool.false_eq_true, if_false, wp_bind, wp_pure]
    refine wp_mono (sessionCallUpdate_runs (Fit.ready ?_)) (fun _ c' hf => ?_)
    · rw [← hq] at hfit; exact hfit
    · refine ⟨some c.bpf.nextTimer, .inl rfl, (view_frame hf).trans ?_⟩
      rw [Machine.conclude, if_neg (by simp [view, hq])]
      rfl
  | true =>
    have hfit := fit_settled hr hu hd false
    simp only [whenever, if_true, wp_bind]
    refine wp_mono (takeQdChange_runs ?_) (fun _ c₁ h₁ => ?_)
    · exact hfit
    · obtain ⟨fresh, hg, hv⟩ := h₁
      have hb : Becomes c (view c).conclude c₁ := by
        refine ⟨fresh, hg, hv.trans ?_⟩
        rw [Machine.conclude, if_pos (by simp [view, hq])]
        rfl
      have hready : Ready c₁ := Fit.ready (hv ▸ Fit.update hfit fresh)
      exact wp_mono (sessionCallUpdate_runs hready) (fun _ c' hf => hb.frame hf)

theorem shwaitTimerCb_runs {c : Ctx} {id : Nat} (h : Fit (view c)) (hs : (view c).shwait = some id)
    (hp : Pending (view c).mine id) :
    wp shwaitTimerCb (fun _ c' => Becomes c (view c).stop.conclude c') c := by
  refine wp_seq (shwaitStop_runs hs hp) (fun _ c₁ h₁ => ?_)
  obtain ⟨-, hsup, hv⟩ := h₁
  have hst := stop_eq hs
  rw [← hv] at hst ⊢
  have hd := h.dfrMult (.inr (by simp [hs]))
  refine wp_mono (gotNonFinal_runs ?_ ?_ ?_) (fun _ c' h₂ => h₂.supply hsup)
  · rw [hst]; exact h.remMult
  · rw [hst]; exact h.userMult
  · rw [hst]; exact hd

theorem holdStop_runs {c : Ctx} {id : Nat} (hs : c.bsess.hold = some id) (hp : Pending (view c).mine id) :
    wp holdStop (fun _ c' => view c' = { view c with hold := none, mine := without (view c).mine id }) c := by
  simp only [holdStop, wp_bind, wp_read, hs]
  refine wp_mono (timerCancel_runs hp.of_mine) (fun _ c₁ h₁ => (wp_update _ _ _).mpr ?_)
  calc view { c₁ with bsess := { c₁.bsess with hold := none } }
      = { view c₁ with hold := none } := rfl
    _ = { view c with hold := none, mine := timersOf (without c.bpf.timers id) c.bsess.ptr } := by
        rw [view_frame h₁]; rfl
    _ = { view c with hold := none, mine := without (view c).mine id } := by rw [timersOf_without]; rfl

theorem holdTimerCb_runs {c : Ctx} {id : Nat} (hs : (view c).hold = some id) (hp : Pending (view c).mine id)
    (hn : (view c).shwait = none) (hr : (view c).remMult ≠ 0) (hu : (view c).user.timing.detectMult ≠ 0) :
    wp holdTimerCb (fun _ c' => view c' = (view c).release id) c := by
  simp only [holdTimerCb, onBsess, onDsess, wp_bind, wp_read, wp_update]
  have hready : Ready { c with
      bsess := { c.bsess with effData := userBdata c.dsess, bstate := .stable }
      dsess := { c.dsess with holdTimeUs := 0 } } := by
    refine Fit.ready ⟨by simp [view], hr, hu, hu, ?_, by simp [Live, view]⟩
    have : c.bsess.shwait = none := hn
    simp [view, this]
  refine wp_mono (sessionStateChanged_runs hready) (fun _ c₁ h₁ => ?_)
  have hs₁ : c₁.bsess.hold = some id := h₁.hold.trans hs
  have hp₁ : Pending (view c₁).mine id := by rw [view_frame h₁]; exact hp
  refine wp_mono (holdStop_runs hs₁ hp₁) (fun _ c' h₂ => ?_)
  rw [h₂, view_frame h₁]
  rfl

theorem sessionUpdate_hold {c : Ctx} (h : c.bsess.bstate = .onHold) :
    wp sessionUpdate (fun r c' => r = .ok () ∧ c' = c) c := by
  simp [sessionUpdate, h]

theorem sessionUpdate_runs {c : Ctx} (h : Fit (view c)) :
    wp sessionUpdate (fun r c' => ∃ fresh, Granted c.bpf fresh ∧ (r.isOk = true → fresh = some c.bpf.nextTimer) ∧
      view c' = (view c).update fresh) c := by
  have hb : ¬ c.bsess.bstate = .onHold := h.awake
  simp only [sessionUpdate, wp_bind, wp_read, if_neg hb, wp_attempt]
  refine wp_mono (handleSessionUpdate_runs h.ready h.live) (fun r c₁ h₁ => ?_)
  obtain ⟨-, hs, hv⟩ := h₁
  cases r with
  | error e => exact ⟨_, granted_outcome hs, fun hr => absurd hr Bool.false_ne_true, hv⟩
  | ok u =>
    have hready : Ready c₁ := Fit.ready (hv ▸ h.update _)
    exact wp_mono (sessionUpdateInner_runs hready) (fun _ c' hf =>
      ⟨_, granted_outcome hs, fun _ => rfl, (view_frame hf).trans hv⟩)

theorem concludePacket_runs {c : Ctx} (h : Fit (view c)) (final : Bool) :
    wp (concludePacket final) (fun _ c' => Becomes c ((view c).answered final) c') c := by
  simp only [concludePacket, wp_bind, wp_read]
  have hsame : ∀ hb : ((view c).bstate, final) ≠ (.awaitFinal, true) ∧
    ((view c).bstate, final) ≠ (.awaitNonFinal, false),
      Becomes c ((view c).answered final) c := by
    rintro ⟨h₁, h₂⟩
    refine ⟨some c.bpf.nextTimer, .inl rfl, ?_⟩
    unfold Machine.answered
    split
    · rename_i hb
      exact absurd (by rw [hb]) h₁
    · rename_i hb
      exact absurd (by rw [hb]) h₂
    · rfl
  cases hb : c.bsess.bstate with
  | onHold => exact absurd hb h.awake
  | stable | shuttingDown => exact (wp_pure _ _ _).mpr (hsame (by simp [view, hb]))
  | awaitFinal =>
    cases final with
    | false => exact (wp_pure _ _ _).mpr (hsame (by simp [view, hb]))
    | true =>
      refine wp_mono (gotFinal_runs (h.acked hb)) (fun _ c' hv => ⟨some c.bpf.nextTimer, .inl rfl, ?_⟩)
      rw [hv, Machine.answered]
      simp [view, hb]
  | awaitNonFinal =>
    cases final with
    | true => exact (wp_pure _ _ _).mpr (hsame (by simp [view, hb]))
    | false =>
      have hd := h.dfrMult (.inl (by simp [view, hb]))
      refine wp_mono (gotNonFinal_runs h.remMult h.userMult hd) (fun _ c' hc => ?_)
      obtain ⟨fresh, hg, hv⟩ := hc
      refine ⟨fresh, hg, ?_⟩
      rw [hv, Machine.answered]
      simp [view, hb]

theorem fsmNext_state (loc : StateEnd) (remote : PktState) :
    (fsmNext loc remote).state = (fsmNext ⟨loc.state, .nothing⟩ remote).state := by
  obtain ⟨st, diag⟩ := loc
  cases st <;> cases remote <;> rfl

theorem fsmNext_adminDown (loc : StateEnd) {rem : PktState} (h : loc.state ≠ .adminDown) :
    (fsmNext loc rem).state ≠ .adminDown := by
  obtain ⟨st, diag⟩ := loc
  cases st <;> cases rem <;> first | exact absurd rfl h | simp [fsmNext]

theorem whenever_runs {p : Act Unit} {c : Ctx} (hp : wp p (fun _ c' => Frame c c') c) (b : Bool) :
    wp (whenever b p) (fun _ c' => Frame c c') c := by
  cases b with
  | false => exact (wp_whenever _ _ _ _).mpr (Frame.refl c)
  | true => exact (wp_whenever _ _ _ _).mpr hp

theorem packetRest_runs {c : Ctx} (h : Fit (view c)) (changed poll final : Bool) :
    wp (whenever changed sessionStateChanged >>= fun _ => whenever poll respondPoll >>= fun _ =>
      concludePacket final) (fun _ c' => Becomes c ((view c).answered final) c') c := by
  refine wp_seq (whenever_runs (sessionStateChanged_runs h.ready) changed) (fun _ c₁ f₁ => ?_)
  have h₁ : Fit (view c₁) := by rw [view_frame f₁]; exact h
  refine wp_seq (whenever_runs (respondPoll_runs h₁.ready) poll) (fun _ c₂ f₂ => ?_)
  have hv : view c₂ = view c := view_frame (f₁.trans f₂)
  have h₂ : Fit (view c₂) := by rw [hv]; exact h
  refine wp_mono (concludePacket_runs h₂ final) (fun _ c' hc => ?_)
  rw [hv] at hc
  exact hc.supply (supply_frame (f₁.trans f₂))

theorem acceptPacket_runs {c : Ctx} (h : Fit (view c)) {p : Parsed} (hp : p.remote.timing.detectMult ≠ 0) :
    wp (acceptPacket p) (fun _ c' =>
      Becomes c ((view c).packet p.remote.state.state p.remote.timing.detectMult p.final) c') c := by
  refine (wp_bind _ _ _ _).mpr ((wp_read _ _).mpr ((wp_bind _ _ _ _).mpr ((wp_update _ _ _).mpr ?_)))
  have h₀ : Fit (view { c with dsess := { c.dsess with remoteData := p.remote } }) := { h with remMult := hp }
  refine wp_seq (reported_runs (sessionInjectPkt_runs h₀.ready .rx 0) _) (fun _ c₁ f₁ => ?_)
  refine (wp_bind _ _ _ _).mpr ((wp_update _ _ _).mpr ((wp_bind _ _ _ _).mpr ((wp_read _ _).mpr ?_)))
  -- once both ends are written the machine has heard the packet, and what follows leaves it alone
  have hv : view { c₁ with
        dsess := setLocalState c₁.dsess (fsmNext c₁.dsess.localData.state c₁.dsess.remoteData.state.state) } =
      (view c).heard p.remote.state.state p.remote.timing.detectMult := by
    calc _ = { view c₁ with loc :=
      (fsmNext c₁.dsess.localData.state c₁.dsess.remoteData.state.state).state } := rfl
      _ = { view { c with dsess := { c.dsess with remoteData := p.remote } } with
            loc := (fsmNext c.dsess.localData.state p.remote.state.state).state } := by
          rw [view_frame f₁, f₁.dsess]
      _ = (view c).heard p.remote.state.state p.remote.timing.detectMult := by rw [fsmNext_state]; rfl
  have hfit := h.heard p.remote.state.state hp
  rw [← hv] at hfit
  have hsup : SameSupply c.bpf c₁.bpf := ⟨f₁.nextTimer, f₁.answers⟩
  refine wp_mono (packetRest_runs hfit _ _ _) (fun _ c' hc => ?_)
  rw [hv] at hc
  exact hc.supply hsup

def taken (c : Ctx) (packet : BfdPkt) (ttl : UInt8) : Option Parsed :=
  if c.bsess.bstate = .onHold ∨ c.bsess.bstate = .shuttingDown then none
  else if c.dsess.localData.state.state = .adminDown then none
  else if c.dsess.ttl > ttl then none
  else (parsePacket packet c.dsess.remoteData).toOption

theorem parsePacket_ok {packet : BfdPkt} {remote : SessionData} {p : Parsed}
    (h : parsePacket packet remote = .ok p) :
    packet.detectionMultiplier ≠ 0 ∧ p.remote.state.state = pktState packet ∧
      p.remote.timing.detectMult = packet.detectionMultiplier ∧ p.final = hasBit (pktBits packet) bitFinal := by
  simp only [parsePacket] at h
  split_ifs at h with h₁ h₂ h₃ h₄ h₅
  cases h
  exact ⟨h₃, rfl, rfl, rfl⟩

theorem parsePacket_discr {packet : BfdPkt} {remote : SessionData} {p : Parsed}
    (h : parsePacket packet remote = .ok p) :
    p.remote.discr = ntoh32 packet.myDisc ∧ p.remote.discr ≠ 0 := by
  simp only [parsePacket] at h
  split_ifs at h with h₁ h₂ h₃ h₄ h₅
  cases h
  exact ⟨rfl, h₄⟩

theorem taken_parsed {c : Ctx} {packet : BfdPkt} {ttl : UInt8} {p : Parsed}
    (h : taken c packet ttl = some p) :
    parsePacket packet c.dsess.remoteData = .ok p := by
  unfold taken at h
  split_ifs at h
  cases hp : parsePacket packet c.dsess.remoteData with
  | error st => simp [hp, Except.toOption] at h
  | ok q =>
    simp only [hp, Except.toOption, Option.some.injEq] at h
    rw [h]

theorem view_bump (c : Ctx) (bsess : BSession) (st : SessionStat) (n : Nat) :
    view { c with bsess := bsess.bump st n } = view { c with bsess := bsess } := rfl

theorem view_bumpDiag (c : Ctx) (bsess : BSession) (st : SessionDiagStat) :
    view { c with bsess := bsess.bumpDiag st } = view { c with bsess := bsess } := rfl

theorem handlePacket_runs {c : Ctx} (h : c.bsess.bstate = .onHold ∨ Fit (view c))
    (packet : BfdPkt) (wireLen : UInt32) (ttl : UInt8) :
    wp (handlePacket packet wireLen ttl) (fun _ c' => match taken c packet ttl with
      | none => view c' = view c
      | some p => Becomes c ((view c).packet p.remote.state.state p.remote.timing.detectMult p.final) c') c := by
  have hbump : ∀ st, view { c with bsess :=
    ((c.bsess.bump .rxPackets 1).bump .rxBytes wireLen.toNat).bumpDiag st } = view c := by
    intro st
    rw [view_bumpDiag c _ st, view_bump c _ .rxBytes, view_bump c _ .rxPackets]
  simp only [handlePacket, taken, wp_bind, wp_read, wp_ite, onBsess, wp_update]
  by_cases hb : c.bsess.bstate = .onHold ∨ c.bsess.bstate = .shuttingDown
  · simp [hb]
  have hfit : Fit (view c) := h.resolve_left (fun ho => hb (.inl ho))
  simp only [if_neg hb]
  by_cases ha : c.dsess.localData.state.state = .adminDown
  · simp only [if_pos ha]
    exact hbump .rxAdminDown
  simp only [if_neg ha]
  by_cases ht : c.dsess.ttl > ttl
  · simp only [if_pos ht]
    exact hbump .rxTtlLow
  simp only [if_neg ht]
  cases hp : parsePacket packet c.dsess.remoteData with
  | error st => exact (wp_update _ _ _).mpr (hbump st)
  | ok p =>
    obtain ⟨hm, -, hm', -⟩ := parsePacket_ok hp
    exact acceptPacket_runs (c := { c with
      bsess := (c.bsess.bump .rxPackets 1).bump .rxBytes wireLen.toNat }) hfit (hm' ▸ hm)

theorem timeoutDown_runs {c : Ctx} (h : Fit (view c)) :
    wp timeoutDown (fun _ c' => view c' = (view c).silenced) c := by
  simp only [timeoutDown, onDsess, wp_bind, wp_read, wp_ite, wp_update, wp_pure]
  split
  · rename_i hl
    have hl' : (view c).loc = .init ∨ (view c).loc = .up := hl
    have hv : view { c with dsess := timeoutEnds c.dsess } = (view c).silenced := by
      rw [Machine.silenced, if_pos hl']
      rfl
    have hfit := h.silenced
    rw [← hv] at hfit
    exact wp_mono (sessionStateChanged_runs hfit.ready) (fun _ c' hf => (view_frame hf).trans hv)
  · rename_i hl
    have hl' : ¬ ((view c).loc = .init ∨ (view c).loc = .up) := hl
    rw [Machine.silenced, if_neg hl']

theorem gotNonFinal_timeout {c : Ctx} (hr : (view c).remMult ≠ 0) (hu : (view c).user.timing.detectMult ≠ 0)
    (hd : (view c).dfr.timing.detectMult ≠ 0) :
    wp (gotNonFinal >>= fun _ => timeoutDown) (fun _ c' =>
      Becomes c (fun fresh => ((view c).conclude fresh).silenced) c') c := by
  refine wp_seq (gotNonFinal_runs hr hu hd) (fun _ c₁ h₁ => ?_)
  obtain ⟨fresh, hg, hv⟩ := h₁
  have hfit := fit_conclude hr hu hd fresh
  rw [← hv] at hfit
  exact wp_mono (timeoutDown_runs hfit) (fun _ c' hc => ⟨fresh, hg, by rw [hc, hv]⟩)

theorem handleTimeout_runs {c : Ctx} (h : Fit (view c)) :
    wp handleTimeout (fun _ c' => Becomes c (view c).timeout c') c := by
  unfold handleTimeout
  refine (wp_bind _ _ _ _).mpr ((wp_read _ _).mpr ?_)
  have hd := h.dfrMult
  cases hb : c.bsess.bstate with
  | onHold => exact absurd hb h.awake
  | stable =>
    refine wp_mono (timeoutDown_runs h) (fun _ c' hc => ⟨some c.bpf.nextTimer, .inl rfl, ?_⟩)
    rw [hc]
    simp [Machine.timeout, view, hb]
  | awaitFinal | awaitNonFinal =>
    refine wp_mono (gotNonFinal_timeout h.remMult h.userMult (hd (.inl (by simp [view, hb]))))
      (fun _ c' hc => ?_)
    obtain ⟨fresh, hg, hv⟩ := hc
    refine ⟨fresh, hg, ?_⟩
    rw [hv]
    simp [Machine.timeout, view, hb]
  | shuttingDown =>
    obtain ⟨id, hs, hp⟩ := h.live hb
    refine wp_seq (shwaitStop_runs hs hp) (fun _ c₁ h₁ => ?_)
    obtain ⟨-, hsup, hv₁⟩ := h₁
    have hst := stop_eq hs
    rw [← hv₁] at hst
    have hd' := hd (.inl (by simp [view, hb]))
    refine wp_mono (gotNonFinal_timeout ?_ ?_ ?_) (fun _ c' hc => ?_)
    · rw [hst]; exact h.remMult
    · rw [hst]; exact h.userMult
    · rw [hst]; exact hd'
    · obtain ⟨fresh, hg, hv⟩ := hc
      refine ⟨fresh, granted_supply hsup hg, ?_⟩
      rw [hv, hv₁]
      simp [Machine.timeout, view, hb]

end Bbdd.Poll
