import Bbdd.Daemon.Coherence
import Bbdd.Daemon.Fate
import Bbdd.Daemon.Tables
import Bbdd.Datapath.News
import Bbdd.Poll.Ends

namespace Bbdd.Daemon

open Lib.Program Lib.Directory Lib.Transition Packet Session TxQueue Datapath Poll

def endsOf (dsess : DSession) : StateEnd × StateEnd := (dsess.localData.state, dsess.remoteData.state)

/-- A change of the shutdown flag was put off until the poll sequence or the
wait is over. -/
def PutOff (c : Ctx) : Prop :=
  c.bsess.qdChange = true ∧ c.dsess.localData.flags.shutdown ≠ c.bsess.dfrData.shutdown

/-- Nothing that was put off comes due with the handler, and a request that
turns the session on or off while it does not poll is one that changes it and
whose map updates succeed. -/
def Heralds (env : Env) (c : Ctx) : Handler → Prop
  | .set applied => ∀ bdata, injectBdata c.bsess = some bdata → applied.localData.flags.shutdown ≠
      bdata.shutdown →
    ¬ Polling c.bsess → env.Stores ∧ applied ≠ c.dsess
  | .packet packet _ ttl =>
    (c.bsess.bstate = .awaitNonFinal ∧ ∃ p, taken c packet ttl = some p ∧ p.final = false) → ¬ PutOff c
  | .timeout => c.bsess.bstate ≠ .stable → ¬ PutOff c
  | .timer t => t.fn = .shwait → ¬ PutOff c
  | .drain _ => True

def Told (c c' : Ctx) : Prop := endsOf c'.dsess = endsOf c.dsess ∨ Announces c.bpf c'.bpf c'.dsess

section

variable {n : Nat} {d : UInt32} {c c' : Ctx}

theorem gotNonFinal_same (h : gotNonFinal c = .ok ((), c')) (hp : ¬ PutOff c) : c'.dsess = c.dsess := by
  obtain hs | ⟨hq, ht⟩ := gotNonFinal_ends h
  · exact hs
  · generalize hd : c'.dsess = s at ht
    cases ht with
    | same => rfl
    | enabled hw hn => exact absurd ⟨hq, by rw [hw, hn]; decide⟩ hp
    | disabled hw hn => exact absurd ⟨hq, by rw [hw, hn]; decide⟩ hp

theorem shwaitTimerCb_same (h : shwaitTimerCb c = .ok ((), c')) (hp : ¬ PutOff c) : c'.dsess = c.dsess := by
  obtain ⟨_, c₁, h₁, h⟩ := bind_ok.mp h
  have ht := timed_shwaitStop _ _ _ h₁
  obtain ⟨s, o, hb⟩ := ht.bsess
  rw [gotNonFinal_same h (by rw [PutOff, ht.dsess, hb]; exact hp), ht.dsess]

theorem concludePacket_same {final : Bool} (h : concludePacket final c = .ok ((), c'))
    (hp : c.bsess.bstate = .awaitNonFinal → final = false → ¬ PutOff c) : c'.dsess = c.dsess := by
  obtain ⟨-, -, h⟩ | ⟨hb, hf, h⟩ | ⟨-, -, -, rfl⟩ := concludePacket_ok h
  · obtain ⟨_, _, hw, h⟩ := bind_ok.mp h
    cases hw
    exact (within_sessionCallUpdate _ _ _ h).dsess
  · exact gotNonFinal_same h (hp hb hf)
  · rfl

theorem handlePacket_told {packet : BfdPkt} {wireLen : UInt32} {ttl : UInt8} {env : Env}
    (h : handlePacket packet wireLen ttl c = .ok ((), c'))
    (hg : Heralds env c (.packet packet wireLen ttl)) : Told c c' := by
  obtain ⟨-, stats, diagStats, rfl⟩ | ⟨p, ht, -, h⟩ := handlePacket_ok h
  · exact .inl rfl
  · obtain ⟨c₁, c₂, c₃, hst⟩ := acceptPacket_ok h
    have hf := hst.frame
    have hlast : c'.dsess = heardEnds c.dsess p := by
      refine (concludePacket_same hst.concluded (fun hb hfin => ?_)).trans hf.dsess
      have hput := hg ⟨hf.bstate.symm.trans hb, p, ht, hfin⟩
      rw [PutOff, hf.dsess, hf.qdChange, hf.dfrData]
      exact hput
    have htold := hst.told
    split at htold
    · rename_i hsame
      exact .inl (by rw [hlast]; exact congrArg endsOf hsame)
    · have h₁ : Moves none _ c₁ := (chores_rearm _ _ _ _ hst.rearmed).moves
      have h₃ : Moves none c₂ c₃ := within_whenever moves_respondPoll _ _ _ hst.replied
      have h₄ : Moves none c₃ c' := (tasks_concludePacket _ _ _ _ hst.concluded).chores.moves
      have hpre := Moves.outputs h₁
      have hann : Announces c.bpf c₂.bpf (heardEnds c.dsess p) :=
        (sessionStateChanged_announces htold).before hpre
      rw [Told, hlast]
      exact .inr ((hann.after h₃.outputs).after h₄.outputs)

theorem timeoutDown_told (h : timeoutDown c = .ok ((), c')) :
    c'.dsess = c.dsess ∨ Announces c.bpf c'.bpf c'.dsess := by
  have h := timeoutDown_ok h
  split at h
  · have hann := sessionStateChanged_announces h
    rw [(within_sessionStateChanged _ _ _ h).dsess]
    exact .inr hann
  · exact .inl (by rw [h])

theorem handleTimeout_told {env : Env} (h : handleTimeout c = .ok ((), c'))
    (hg : Heralds env c .timeout) : Told c c' := by
  obtain ⟨c₁, hdown, h₁⟩ := handleTimeout_ok h
  have hfirst : c₁.dsess = c.dsess ∧ Moves none c c₁ := by
    cases hb : c.bsess.bstate <;> simp only [hb] at h₁
    · rw [h₁]
      exact ⟨rfl, .refl⟩
    · exact ⟨gotNonFinal_same h₁ (hg (by simp [hb])), (tasks_gotNonFinal _ _ _ h₁).chores.moves⟩
    · exact ⟨gotNonFinal_same h₁ (hg (by simp [hb])), (tasks_gotNonFinal _ _ _ h₁).chores.moves⟩
    · exact ⟨shwaitTimerCb_same h₁ (hg (by simp [hb])), (chores_shwaitTimerCb _ _ _ h₁).moves⟩
  obtain hs | ha := timeoutDown_told hdown
  · exact .inl (by rw [hs, hfirst.1])
  · exact .inr (ha.before hfirst.2.outputs)

theorem endsOf_applied {csess : CSession} {applied : DSession} (ha : Applied c.dsess csess applied) :
    endsOf applied = endsOf c.dsess := by
  obtain ⟨discr, hr⟩ := ha.rem
  rw [endsOf, ha.loc, hr]
  rfl

theorem set_told {env : Env} {csess : CSession} {applied : DSession} {r : Except String Unit}
    (hok : SessionOk n d c) (hans : c.bpf.answers = env.answers)
    (hdata : (c.bpf.kernel.data d).isSome = true) (ha : Applied c.dsess csess applied)
    (hu : csess.dst.unset = false) (h : sessionUpdate { c with dsess := applied } = .ok (r, c'))
    (hheld : c'.bsess.bstate = .onHold → c.bsess.bstate = .onHold)
    (hg : Heralds env c (.set applied)) : Told c (announced r (decide (applied ≠ c.dsess)) c') := by
  have hds : (announced r (decide (applied ≠ c.dsess)) c').dsess = c'.dsess := by
    obtain he | he := announced_eq r (decide (applied ≠ c.dsess)) c' <;> rw [he]
  obtain ⟨hb, -, rfl⟩ | ⟨hb, r₁, c₁, h₁, h⟩ := sessionUpdate_ok h
  · exact .inl (by rw [hds]; exact endsOf_applied ha)
  · obtain ⟨bdata, hbd⟩ := injectBdata_isSome hb
    obtain ⟨hturn, hsame⟩ := handleSessionUpdate_ends h₁ hbd
    have hm₁ : Moves none c c₁ :=
      .head (.write (writes_applied hok ha hu)) (tasks_handleSessionUpdate _ _ _ h₁).chores.moves
    cases r₁ with
    | error e =>
      obtain ⟨rfl, rfl⟩ := h
      obtain hsame | hf := hsame
      · exact .inl (by rw [hds, hsame]; exact endsOf_applied ha)
      · cases hf
    | ok _ =>
      have hlast := (within_sessionUpdateInner _ _ _ h).dsess
      by_cases hflag : applied.localData.flags.shutdown = bdata.shutdown
      · refine .inl ?_
        have hno : c₁.dsess = applied := by
          generalize hd : c₁.dsess = s at hturn
          cases hturn with
          | same => rfl
          | enabled hw hn => rw [hflag, hw] at hn; cases hn
          | disabled hw hn => rw [hflag, hw] at hn; cases hn
        rw [hds, hlast, hno]
        exact endsOf_applied ha
      · by_cases hpoll : Polling c.bsess
        · refine .inl ?_
          rw [hds, hlast, handleSessionUpdate_polling h₁ hpoll]
          exact endsOf_applied ha
        obtain ⟨hst, hne⟩ := hg bdata hbd hflag hpoll
        have hup : Updatable c := ⟨hok.addressed, fun n => by rw [hans]; exact hst n⟩
        have hkeys : (c₁.bpf.kernel.data c₁.dsess.localData.discr).isSome = true := by
          rw [(Moves.ages hm₁ (by simp)).discr, (Moves.tended hm₁).keys, hok.queue.discr, hok.name, hdata]
        have hr := sessionUpdateInner_delivered h (hm₁.updatable hup) (hm₁.dport hok.dport) hkeys
        have hm : Moves none c c' := hm₁.trans (chores_sessionUpdateInner _ _ _ h).moves
        refine .inr ?_
        rw [hds, announced, if_pos ⟨hr, by simpa using hne, fun hold => hb (hheld hold)⟩]
        exact announces_output hm.outputs

theorem Handled.told {env : Env} {h : Handler} (hh : Handled h c c') (hok : SessionOk n d c)
    (ht : TimersOk c) (hans : c.bpf.answers = env.answers)
    (hdata : (c.bpf.kernel.data d).isSome = true) (hg : Heralds env c h) : Told c c' := by
  have hheld := (hh.handling hok ht).held
  cases hh with
  | @set _ c₂ r applied csess ha hu hr =>
    refine set_told hok hans hdata ha hu hr (fun hold => ?_) hg
    have hbs : (announced r (decide (applied ≠ c.dsess)) c₂).bsess = c₂.bsess := by
      obtain he | he := announced_eq r (decide (applied ≠ c.dsess)) c₂ <;> rw [he]
    rw [hbs] at hheld
    rw [← hheld hold, hold]
  | packet packet wireLen ttl hr => exact handlePacket_told hr hg
  | timeout hr => exact handleTimeout_told hr hg
  | hold id hm hr =>
    obtain ⟨c₁, h₁, h⟩ := holdTimerCb_ok hr
    refine .inl ?_
    rw [(timed_holdStop _ _ _ h).dsess, (within_sessionStateChanged _ _ _ h₁).dsess]
    rfl
  | shwait id hm hr =>
    have hsame := shwaitTimerCb_same hr (hg rfl)
    exact .inl (congrArg endsOf hsame)
  | drain kind hl hr => exact .inl (congrArg endsOf (within_drainSlot _ _ _ _ hr).dsess)

end

section

variable {w w' v : World} {l : Label} {d : UInt32} {c c' : Ctx}

theorem Step.outputs (h : Step l w w') (hw : Sound w) : w.bpf.outputs <+: w'.bpf.outputs := by
  cases h with
  | shared hb =>
    cases hb with
    | output => exact List.prefix_append _ _
    | _ => exact List.prefix_refl _
  | handled hc hh =>
    rw [← (session_eq_some.mp hc).2.2]
    exact (hw.handled hc hh).moves.outputs
  | create hn hb _ hr | refuse hn hb hr => exact (hw.added hr).1.outputs
  | remove hc hr =>
    rw [← (session_eq_some.mp hc).2.2]
    exact (hw.deleted hc hr).1.outputs

theorem Elsewhere.outputs (h : Elsewhere d w w') (hw : Sound w) : w.bpf.outputs <+: w'.bpf.outputs :=
  (keeps_of_moves (I := fun v => Sound v ∧ w.bpf.outputs <+: v.bpf.outputs)
    (fun _ _ ⟨_, _, hs⟩ hv => ⟨hs.sound hv.1, hv.2.trans (hs.outputs hv.1)⟩) h ⟨hw, List.prefix_refl _⟩).2

def Stocked (w : World) : Prop := ∀ d, (w.sdir.find d).isSome = true → (w.bpf.kernel.data d).isSome = true

theorem Step.stocked (h : Step l w w') (hw : Sound w) (hk : Stocked w) : Stocked w' := by
  intro d hd
  by_cases hl : l.about = some d
  · cases h with
    | shared => simp [Label.about] at hl
    | @handled _ _ _ c c' hc hh =>
      cases hl
      have hkeys := (Moves.tended (hw.handled hc hh).moves).keys d
      rw [(session_eq_some.mp hc).2.2] at hkeys
      exact hkeys.trans (hk d (by rw [(session_eq_some.mp hc).1]; rfl))
    | @create _ _ dsess n c' sports hn hb _ hr =>
      cases hl
      rw [← hb.name]
      exact sessionAdd_data hr
    | refuse hn =>
      cases hl
      rw [show w.sdir.find d = none from hn] at hd
      cases hd
    | remove hc hr =>
      cases hl
      simp [World.drop] at hd
  · rw [(h.apart hw hl).sdir] at hd
    refine Eq.trans ?_ (hk d hd)
    cases h with
    | shared hb => exact (Shared.tables hb).data d
    | @handled _ e _ c c' hc hh =>
      rw [← (session_eq_some.mp hc).2.2]
      exact (Moves.tended (hw.handled hc hh).moves).keys d
    | @create _ e dsess n c' sports hn hb _ hr =>
      exact Moves.keys (hw.added hr).1 (by rw [hb.name]; exact hl)
    | @refuse _ e dsess n err c' hn hb hr => exact Moves.keys (hw.added hr).1 (by rw [hb.name]; exact hl)
    | @remove _ e c n c' hc hr =>
      rw [← (session_eq_some.mp hc).2.2]
      exact Moves.keys (hw.deleted hc hr).1 (by rw [(hw.session e c hc).name]; exact hl)

theorem reachable_stocked (h : Reachable daemon w) : Stocked w := by
  refine Run.invariant (I := Stocked) ?_ (fun w l w' hr hk _ hs => ?_) h
  · rintro s ⟨rx, tx, cap, answers, -, rfl⟩ d hd
    cases hd
  · exact step_keeps (fun l v v' hv hs hk => hs.stocked hv hk) (reachable_sound hr) hs hk

end

def Heralded (w : World) (l : Env × Event) : Prop :=
  ∀ d c h, w.session d = some c → Calls l.1.nl w l.2 (.handler d h) → Heralds l.1 c h

theorem stocked_elsewhere {w v : World} {env : Env} {d : UInt32} {c : Ctx}
    (hr : Reachable daemon w) (h : Elsewhere d (w.enter env) v) (hc : v.session d = some c) :
    (v.bpf.kernel.data d).isSome = true := by
  have hentered : Stocked (w.enter env) := by
    have hk := reachable_stocked hr
    exact hk
  have hstock : Stocked v := (keeps_of_moves (I := fun v => Sound v ∧ Stocked v)
    (fun _ _ hs hv => by
      obtain ⟨_, _, hs⟩ := hs
      exact ⟨hs.sound hv.1, hs.stocked hv.1 hv.2⟩) h ⟨(reachable_sound hr).enter env, hentered⟩).2
  exact hstock d (by rw [(session_eq_some.mp hc).1]; rfl)

/-- If an event changes the state of either end of a session, others are told
of the session as it is from then on. -/
theorem told_of_heralded {w w' : World} {env : Env} {e : Event} (hr : Reachable daemon w)
    (hg : Heralded w (env, e)) (hs : daemon.step w (env, e) w') {d : UInt32} {c c' : Ctx}
    (hc : w.session d = some c) (hc' : w'.session d = some c')
    (hne : endsOf c'.dsess ≠ endsOf c.dsess) : Announces w.bpf w'.bpf c'.dsess := by
  have hw := reachable_sound hr
  have hwe := hw.enter env
  cases step_stays hw hs hc hc' with
  | apart hds _ =>
    rw [hds] at hne
    exact absurd rfl hne
  | @handled v h b h₁ hv hans hcv hl hh hsound h₂ =>
    have hdata := stocked_elsewhere hr h₁ hcv
    have hher : Heralds env { c with bpf := v.bpf } h := by
      have hcalled := hg d _ h (before_enter hw h₁ hcv) hl
      cases h <;> exact hcalled
    obtain hsame | hann := hh.told (hv.session d _ hcv) (hv.timersOk hcv) hans hdata hher
    · exact absurd hsame hne
    · exact (hann.before (h₁.outputs hwe)).after (h₂.outputs hsound)
  | drained _ hd =>
    have hds : w'.sdir.find d = w.sdir.find d := hd.dsess hwe
    rw [(session_eq_some.mp hc').1, (session_eq_some.mp hc).1] at hds
    rw [Option.some.inj hds] at hne
    exact absurd rfl hne

theorem heralded_ringbuf {w : World} {env : Env} (h : ∀ s ∈ w.bsdir.values, s.qdChange = false) :
    Heralded w (env, .ringbuf) := by
  intro d c h' hc hcall
  have hq := h c.bsess (Dir.mem_values.mpr ⟨d, (session_eq_some.mp hc).2.1⟩)
  have hput : ¬ PutOff c := fun hp => by rw [hp.1] at hq; cases hq
  cases hcall with
  | set hs => exact hs.elim
  | ring _ hr =>
    obtain ⟨-, rfl⟩ | ⟨_, _, _, rfl, -⟩ := ringCall_handler hr
    · exact fun _ => hput
    · exact fun _ => hput

theorem told_of_heralded_up : ∃ (w w' : World) (c' : Ctx), daemon.step w (.plain, .ringbuf) w' ∧
    w'.session 5 = some c' ∧
    c'.dsess.localData.state.state = .up ∧ Announces w.bpf w'.bpf c'.dsess := by
  obtain ⟨w, c, hr, hc, hq, w', hw', c', hc', hup, hne⟩ := exists_replayed
    (inPlain ([.addFive none none, .timer 0 none] ++ arrival (peerPacket .down 0) ++
      [.kernel (.recv ⟨.ok, true, true⟩ true (peerFrame (peerPacket .up 0)))]))
    (P := fun w c => (∀ s ∈ w.bsdir.values, s.qdChange = false) ∧ ∃ w' ∈ replay w [(.plain, .ringbuf)],
      ∃ c' ∈ w'.session 5, c'.dsess.localData.state.state = .up ∧ endsOf c'.dsess ≠ endsOf c.dsess)
        (by decide +kernel)
  have hstep := replay_step hw'
  exact ⟨w, w', c', hstep, hc', hup, told_of_heralded hr (heralded_ringbuf hq) hstep hc hc' hne⟩

/-- The user asks for a shutdown while the session polls. The packet that ends
the poll sequence takes the session down, and nobody is told. -/
theorem untold_shutdown : ∃ (w w' : World) (c c' : Ctx), Reachable daemon w ∧
    daemon.step w (.plain, .ringbuf) w' ∧
    w.session 5 = some c ∧ w'.session 5 = some c' ∧ c.dsess.localData.state.state = .up ∧
    c'.dsess.localData.state.state = .adminDown ∧ ∀ s, ¬ Announces w.bpf w'.bpf s := by
  obtain ⟨w, c, hr, hc, hup, w', hw', c', hc', hdown, hout⟩ := exists_replayed
    (inPlain (settledUp ++ [.setFive none (some 2000000), .kernel (.pass 0 routed), .pollout 3,
      .kernel (.pass 0 routed),
      .setFive (some true) none] ++ arrival (peerPacket .up bitFinal) ++
      [.kernel (.pass 0 routed), .pollout 3, .kernel (.pass 0 routed),
        .kernel (.recv ⟨.ok, true, true⟩ true (peerFrame (peerPacket .up 0)))]))
    (P := fun w c => c.dsess.localData.state.state = .up ∧ ∃ w' ∈ replay w [(.plain, .ringbuf)],
      ∃ c' ∈ w'.session 5, c'.dsess.localData.state.state = .adminDown ∧ w'.bpf.outputs = w.bpf.outputs)
    (by decide +kernel)
  refine ⟨w, w', c, c', hr, replay_step hw', hc, hc', hup, hdown, fun s ⟨told, hb, ht⟩ => ?_⟩
  have h₁ := hb.length_le
  have h₂ := ht.length_le
  rw [hout, List.length_append] at h₂
  simp only [List.length_cons, List.length_nil] at h₂
  omega

end Bbdd.Daemon
