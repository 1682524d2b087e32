import Bbdd.Daemon.Spinner
import Bbdd.Poll.Refresh

namespace Bbdd.Daemon

open Lib.Program Lib.Transition Session TxQueue Datapath Poll

section

variable {n : Nat} {w w' : World} {l : Label} {d : UInt32} {c c' : Ctx}

theorem view_applied_fit (hok : SessionOk n d c) {csess : CSession} {applied : DSession}
    (ha : Applied c.dsess csess applied) (hb : c.bsess.bstate ≠ .onHold) :
    Fit (view { c with dsess := applied }) := by
  rw [view_applied ha]
  exact { hok.fit hb with userMult := ha.mult }

theorem drainSlot_ok {slot : TxSlot} (h : drainSlot slot c = .ok ((), c')) : ∃ r c₁,
    (if slot.isFinal then sessionInjectPkt slot.txIfindex slot.bfdFlags else sessionUpdateInner)
      c = .ok (r, c₁) ∧
      c'.bsess = c₁.bsess ∧ Rests c₁ c' ∧ Mute c₁ c' := by
  obtain ⟨_, c₂, h₂, h⟩ := bind_ok.mp h
  obtain ⟨r, c₁, h₁, h₂⟩ := bind_ok.mp h₂
  cases h
  refine ⟨r, c₁, h₁, ?_⟩
  cases r with
  | error e =>
    cases h₂
    exact ⟨rfl, ⟨{ Steady.refl c₁ with }, fun _ => .refl _⟩, rfl⟩
  | ok _ =>
    obtain ⟨-, rfl⟩ := pure_ok.mp h₂
    exact ⟨rfl, ⟨{ Steady.refl c₁ with }, fun _ => .refl _⟩, rfl⟩

theorem inStep_announced {b : Bool} (h : InStep b c c') (r : Except String Unit) (changed : Bool) :
    InStep b c (announced r changed c') := by
  obtain he | he := announced_eq r changed c' <;> rw [he]
  · exact h
  · exact h.output _

/-- How a handler leaves its session: as it was for as long as it is on hold,
updated, without the update for want of a timer, or with a Final less to send. -/
inductive Outcome (c c' : Ctx) : Handler → Prop
  | held {h} : c.bsess.bstate = .onHold → c'.bsess = c.bsess → c'.bpf = c.bpf → Outcome c c' h
  | inStep {h} : InStep true c c' → Outcome c c' h
  | starved {h} : ¬ Supplied c.bpf → InStep false c c' → Outcome c c' h
  | replied : c.bsess.finalSlot.linked = true → Rests c c' →
      (¬ Silent c.dsess c.bsess.bstate → Talks c.bpf c'.bpf) →
      Outcome c c' (.drain .final)

theorem Handled.outcome {h : Handler} (hh : Handled h c c') (hok : SessionOk n d c) : Outcome c c' h := by
  cases hh with
  | set applied csess ha hset hr =>
    have hw : InStep false c { c with dsess := applied } :=
      (InStep.refl c).write (.single (.write (writes_applied hok ha hset))) rfl
    obtain ⟨hb, rfl⟩ | hs | ⟨hs, e, he⟩ := sessionUpdate_inStep hw hr
    · rw [announced, if_neg (fun h => h.2.2 hb)]
      exact .held hb rfl rfl
    · exact .inStep (inStep_announced hs _ _)
    · refine .starved (fun hsup => ?_) (inStep_announced hs _ _)
      have hb : c.bsess.bstate ≠ .onHold := by
        intro hb
        have hrun := wp_of_ok he
        simp [handleSessionUpdate, injectBdata, hb] at hrun
      have hfit := view_applied_fit hok ha hb
      cases (wp_ok (handleSessionUpdate_runs hfit.ready hfit.live) he).2.1 hsup
  | packet packet wireLen ttl hr => exact .inStep (handlePacket_inStep hr hok.dport)
  | timeout hr => exact .inStep (handleTimeout_inStep hr)
  | hold id hm hr =>
    exact .inStep ((holdTimerCb_inStep hr).rest ⟨{ Steady.refl _ with }, fun _ => .refl _⟩ (talks_of_eq rfl))
  | shwait id hm hr =>
    exact .inStep ((shwaitTimerCb_inStep (.refl c) hr).rest
      ⟨{ Steady.refl _ with }, fun _ => .refl _⟩ (talks_of_eq rfl))
  | drain kind hl hr =>
    obtain ⟨r, c₁, h₁, -, hs, hmute⟩ := drainSlot_ok hr
    have hslot := hok.queue.slots kind hl
    rw [hslot.isFinal] at h₁
    cases kind with
    | final =>
      have hun : Rests c (c.unlinked .final) := ⟨{ Steady.refl c with }, fun _ => .refl _⟩
      have hr₁ := sessionInjectPkt_rests h₁ (.inr (by rw [hslot.flags, hslot.isFinal]; rfl)) hok.dport
      refine .replied hl ((hun.trans hr₁).trans hs) (fun hsil => ?_)
      have ht := sessionInjectPkt_talks h₁ hsil
      exact (ht.trans (talks_of_eq hmute) :)
    | periodic =>
      have hun : InStep false c (c.unlinked .periodic) :=
        (InStep.refl c).write (.single (.unlink .periodic rfl)) rfl
      exact .inStep ((hun.update h₁).rest hs (talks_of_eq hmute))

theorem Outcome.renewed {h : Handler} (ho : Outcome c c' h) (hu : Updatable c) (hsup : Supplied c.bpf) :
    (c.bsess.bstate = .onHold ∧ c'.bsess = c.bsess ∧ c'.bpf = c.bpf) ∨ Renewed c.bsess.genBumps c' ∨
      Steady c c' := by
  cases ho with
  | held hb hs hp => exact .inl ⟨hb, hs, hp⟩
  | inStep hs => exact .inr (hs.renewed hu)
  | starved hno => exact absurd hsup hno
  | replied _ hr => exact .inr (.inr hr.steady)

/-- A session off hold has the config entry that goes with it, or an update
of it is queued. -/
def Coherent (c : Ctx) : Prop := c.bsess.bstate ≠ .onHold → Settled c ∨ c.bsess.periodicSlot.linked = true

theorem Coherent.steady (hc : Coherent c) (h : Steady c c') : Coherent c' := by
  intro hb
  rw [h.bstate] at hb
  exact (hc hb).imp h.settled h.linked

theorem coherent_of_renewed {m : Nat} (h : Renewed m c) : Coherent c :=
  fun _ => h.refreshed.imp And.left And.left

theorem settled_setBpf (hs : Settled c) {b : Bpf} (hv : b.vethTxIfindex = c.bpf.vethTxIfindex)
    (hcfg : b.kernel.config c.dsess.localData.discr = c.bpf.kernel.config c.dsess.localData.discr) :
    Settled { c with bpf := b } := by
  obtain ⟨entry, hw, he⟩ := hs
  refine ⟨entry, ?_, hcfg.trans he⟩
  rw [← hw]
  simp only [Ctx.wanted, updateArgs, hv]

theorem Coherent.setBpf (hc : Coherent c) {b : Bpf} (hv : b.vethTxIfindex = c.bpf.vethTxIfindex)
    (hcfg : b.kernel.config c.dsess.localData.discr = c.bpf.kernel.config c.dsess.localData.discr) :
    Coherent { c with bpf := b } :=
  fun hb => (hc hb).imp_left (fun hs => settled_setBpf hs hv hcfg)

theorem Step.veth (h : Step l w w') (hw : Sound w) : w'.bpf.vethTxIfindex = w.bpf.vethTxIfindex := by
  cases h with
  | shared hb => exact hb.idle.veth
  | handled hc hh => exact (Moves.veth (hw.handled hc hh).moves).trans (by rw [(session_eq_some.mp hc).2.2])
  | create hn hb _ hr | refuse hn hb hr => exact Moves.veth (hw.added hr).1
  | remove hc hr => exact (Moves.veth (hw.deleted hc hr).1).trans (by rw [(session_eq_some.mp hc).2.2])

theorem Step.coherent (h : Step l w w') (hw : Sound w) (hst : ∀ n, (w.bpf.answers n).mapUpdate = true)
    (hsup : Supplied w.bpf) (hcoh : ∀ d c, w.session d = some c → Coherent c) :
    ∀ d c, w'.session d = some c → Coherent c := by
  intro d c' hc'
  by_cases hl : l.about = some d
  · cases h with
    | shared => simp [Label.about] at hl
    | @handled _ _ _ c c₁ hc hh =>
      cases hl
      rw [session_put_self] at hc'
      cases hc'
      have hbpf := (session_eq_some.mp hc).2.2
      have hok := hw.session d c hc
      obtain ⟨hb, hsame, -⟩ | hr | hs := (hh.outcome hok).renewed ⟨hok.addressed, hbpf ▸ hst⟩ (hbpf ▸ hsup)
      · exact fun hne => absurd (hsame ▸ hb) hne
      · exact coherent_of_renewed hr
      · exact (hcoh d c hc).steady hs
    | @create _ _ dsess m c₁ sports hn hb _ hr =>
      cases hl
      have hc₁ : (w.put d c₁).session d = some c' := hc'
      rw [session_put_self] at hc₁
      cases hc₁
      have hv := (hw.added hr).2.2
      exact fun hne => absurd (congrArg Machine.bstate hv) hne
    | refuse hn hb hr =>
      cases hl
      have : w.sdir.find d = some c'.dsess := (session_eq_some.mp hc').1
      rw [hn] at this
      cases this
    | @remove _ _ c m c₁ hc hr =>
      cases hl
      have hc₁ : (w.drop d c₁).session d = some c' := hc'
      rw [session_drop, if_pos rfl] at hc₁
      cases hc₁
  · rw [(h.apart hw hl).session] at hc'
    obtain ⟨c, hc, rfl⟩ := Option.map_eq_some_iff.mp hc'
    have hbpf := (session_eq_some.mp hc).2.2
    refine (hcoh d c hc).setBpf ?_ ?_
    · rw [hbpf, h.veth hw]
    · rw [hw.mine hc, hbpf, (h.thins hw hl).2]

end

def Env.Stores (env : Env) : Prop := ∀ n, (env.answers n).mapUpdate = true

structure CoherentIn (env : Env) (v : World) : Prop where
  sound : Sound v
  answers : v.bpf.answers = env.answers
  coherent : ∀ d c, v.session d = some c → Coherent c

theorem CoherentIn.enter {w : World} (hw : Sound w)
    (hcoh : ∀ d c, w.session d = some c → Coherent c) (env : Env) :
    CoherentIn env (w.enter env) := by
  refine ⟨hw.enter env, rfl, fun d c hc => ?_⟩
  obtain ⟨c₀, hc₀, rfl⟩ := session_enter_some hc
  have hbpf := (session_eq_some.mp hc₀).2.2
  refine (hcoh d c₀ hc₀).setBpf ?_ ?_
  · rw [hbpf]
    rfl
  · rw [hbpf]
    rfl

theorem CoherentIn.step {env : Env} {v v' : World} {l : Label} (hi : CoherentIn env v) (hst : env.Stores)
    (hsup : env.Supplied) (hs : Step l v v') : CoherentIn env v' := by
  refine ⟨hs.sound hi.sound, (hs.answers hi.sound).trans hi.answers, hs.coherent hi.sound ?_ ?_ hi.coherent⟩
  · rw [hi.answers]; exact hst
  · rw [Supplied, hi.answers]; exact hsup

theorem CoherentIn.elsewhere {env : Env} {v v' : World} {d : UInt32} (hi : CoherentIn env v)
    (hst : env.Stores) (hsup : env.Supplied) (h : Elsewhere d v v') : CoherentIn env v' :=
  keeps_of_moves (fun _ _ ⟨_, _, hs⟩ hv => hv.step hst hsup hs) h hi

theorem run_coherent {w : World} (h : Run daemon (fun _ l => l.1.Stores ∧ l.1.Supplied) w) :
    ∀ d c, w.session d = some c → Coherent c := by
  refine Run.invariant (I := fun w => ∀ d c, w.session d = some c → Coherent c) ?_
    (fun w l w' hr hcoh hg hs => ?_) h
  · rintro s ⟨rx, tx, cap, answers, -, rfl⟩ d c hc
    simp [World.session, World.start] at hc
  · obtain ⟨env, e⟩ := l
    have hw := reachable_sound hr
    exact (step_keeps (I := CoherentIn env) (fun l v v' _ hs hi => hi.step hg.1 hg.2 hs) hw hs
      (.enter hw hcoh env)).coherent

/-- Between events, the kernel has for each session off hold the entry that
an update would store for it, or such an update waits in the queue. -/
theorem configCoherent {w : World} (h : Run daemon (fun _ l => l.1.Stores ∧ l.1.Supplied) w)
    {d : UInt32} {c : Ctx} (hc : w.session d = some c) (hb : c.bsess.bstate ≠ .onHold) :
    (∃ entry, c.wanted = some entry ∧ entry.genId = c.bsess.genId ∧ w.bpf.kernel.config d = some entry) ∨
      ⟨d, .periodic⟩ ∈ w.bpf.tx.periodics := by
  have hw := reachable_sound h.reachable
  have hok := hw.session d c hc
  have hbpf := (session_eq_some.mp hc).2.2
  refine (run_coherent h d c hc hb).imp ?_ (fun hl => ?_)
  · rintro ⟨entry, hwant, hcfg⟩
    obtain ⟨args, addrs, rfl⟩ := wanted_eq hwant
    exact ⟨_, hwant, rfl, by rw [← hbpf, ← hw.mine hc, hcfg]⟩
  · have := (hok.queue.linked .periodic).mpr hl
    rw [hok.name, hbpf] at this
    exact this

theorem plain_stores : Env.plain.Stores := fun _ => rfl

theorem configCoherent_up : ∃ (w : World) (c : Ctx), w.session 5 = some c ∧ c.dsess.localData.state.state = .up ∧
    ∃ entry, c.wanted = some entry ∧ entry.genId = c.bsess.genId ∧ w.bpf.kernel.config 5 = some entry := by
  obtain ⟨w, c, hr, hc, hup, hb, hq⟩ := exists_plain (G := fun _ l => l.1.Stores ∧ l.1.Supplied)
    (fun _ _ => ⟨plain_stores, plain_supplied⟩) settledUp
    (P := fun w c => c.dsess.localData.state.state = .up ∧ c.bsess.bstate ≠ .onHold ∧
      ⟨5, .periodic⟩ ∉ w.bpf.tx.periodics) (by decide +kernel)
  exact ⟨w, c, hc, hup, (configCoherent hr hc hb).resolve_right hq⟩

end Bbdd.Daemon
