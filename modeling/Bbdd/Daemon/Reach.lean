import Bbdd.Daemon.Arrivals

namespace Bbdd.Daemon

open Lib.Program Lib.Transition Session TxQueue Datapath Poll

/-- The steps an event calls for, as the world stands when it comes. -/
inductive Calls (nl : Nl) (w : World) : Event → Label → Prop
  | create {d dsess e} : Adds w d e → Creates nl d dsess e → Calls nl w e (.create d dsess)
  | refuse {d e} : Adds w d e → Calls nl w e (.refuse d)
  | set {d applied e} : Sets nl w d applied e → Calls nl w e (.handler d (.set applied))
  | remove {d e} : Removes nl w d e → Calls nl w e (.remove d)
  | timer {t next} : t ∈ w.bpf.timers → Calls nl w (.timer t.id next) (.handler t.discr (.timer t))
  | ring {elem rest l} : w.bpf.kernel.ring = elem :: rest → RingCall nl w elem l → Calls nl w .ringbuf l

section

variable {nl : Nl} {w : World} {e : Event} {d : UInt32} {dsess : DSession}

theorem Calls.create_inv (h : Calls nl w e (.create d dsess)) : Adds w d e ∧ Creates nl d dsess e := by
  cases h with
  | create h hcr => exact ⟨h, hcr⟩
  | @ring elem _ _ _ h => cases elem <;> simp [RingCall] at h

theorem Calls.refuse_inv (h : Calls nl w e (.refuse d)) : Adds w d e := by
  cases h with
  | refuse h => exact h
  | @ring elem _ _ _ h => cases elem <;> simp [RingCall] at h

end

/-- The events that kill the daemon: a timeout for a session on hold, and the
timer of a shutdown wait that its session does not know of any more, if the
session is gone, has no wait, or has one whose timer is the next in the walk. -/
def Fatal (w : World) : Event → Prop
  | .timer id next => ∃ t ∈ w.bpf.timers, t.id = id ∧ t.fn = .shwait ∧
    ∀ c, w.session t.discr = some c → c.bsess.ptr = t.owner →
      c.bsess.shwait = none ∨ (c.bsess.shwait = next ∧ next ≠ some id)
  | .ringbuf => ∃ discr rest c, w.bpf.kernel.ring = .rxTimeout discr :: rest ∧
    w.session discr = some c ∧ c.bsess.bstate = .onHold
  | _ => False

section

variable {w w' : World} {nl : Nl}

theorem timerEvent_steps (hw : Sound w) {id : Nat} {next : Option Nat} (hf : ¬ Fatal w (.timer id next)) :
    wp (timerEvent id next) (fun _ w' => ¬ Pending w.bpf.timers id ∧ w' = w ∨
      ∃ t ∈ w.bpf.timers, t.id = id ∧ Step (.handler t.discr (.timer t)) w w') w := by
  simp only [timerEvent, wp_bind, wp_read]
  cases ht : w.bpf.timers.find? (·.id = id) with
  | none =>
    refine (wp_pure _ _ _).mpr (.inl ⟨?_, rfl⟩)
    rintro ⟨t, hm, hid⟩
    simpa [hid] using List.find?_eq_none.mp ht t hm
  | some t =>
    have hm := List.mem_of_find?_eq_some ht
    have hid : t.id = id := by simpa using List.find?_some ht
    subst hid
    have hlive : ∃ c, w.session t.discr = some c ∧ c.bsess.ptr = t.owner ∧
        (t.fn = .shwait → c.bsess.shwait.isSome = true ∧ (c.bsess.shwait = next → next = some t.id)) := by
      cases hfn : t.fn with
      | hold =>
        obtain ⟨c, hc, ho⟩ := hw.holds t hm hfn
        exact ⟨c, hc, ho, by simp⟩
      | shwait =>
        by_contra hno
        refine hf ⟨t, hm, rfl, hfn, fun c hc ho => ?_⟩
        by_contra hs
        obtain ⟨hs, hn⟩ := not_or.mp hs
        exact hno ⟨c, hc, ho, fun _ =>
          ⟨Option.isSome_iff_ne_none.mpr hs, fun he => by_contra fun hne => hn ⟨he, hne⟩⟩⟩
    obtain ⟨c, hc, ho, hs⟩ := hlive
    rw [wp_bind]
    refine wp_mono (timerFire_runs hw hm hc ho fun hfn => (hs hfn).1) (fun _ w' h => ?_)
    have hkept : ¬ Freed w.bpf.timers w'.bpf.timers t.id next := by
      rintro ⟨n, rfl, hne, hp, hgone⟩
      obtain ⟨hfn, hsw⟩ := (h.turn hw hc hne hp).mp hgone
      exact hne (Option.some.inj ((hs hfn).2 hsw))
    rw [wp_bind, wp_read, if_neg hkept]
    exact (wp_pure _ _ _).mpr (.inr ⟨t, hm, rfl, h⟩)

theorem timerEvent_runs (hw : Sound w) {id : Nat} {next : Option Nat} (hf : ¬ Fatal w (.timer id next)) :
    wp (timerEvent id next) (fun _ w' => Shape (Calls nl w (.timer id next)) w w') w := by
  refine wp_mono (timerEvent_steps hw hf) (fun _ w' h => ?_)
  obtain ⟨-, rfl⟩ | ⟨t, hm, rfl, h⟩ := h
  · exact .of_quiet hw .refl
  · exact .of_step hw (.timer hm) rfl h

theorem ringbufEvent_runs (hw : Sound w) (hf : ¬ Fatal w .ringbuf) :
    wp (ringbufEvent nl) (fun _ w' => Shape (Calls nl w .ringbuf) w w') w := by
  simp only [ringbufEvent, wp_bind, wp_read]
  cases hr : w.bpf.kernel.ring with
  | nil => exact (wp_pure _ _ _).mpr (.of_quiet hw .refl)
  | cons elem rest =>
    have hpop : Step .shared w (w.setBpf { w.bpf with kernel := { w.bpf.kernel with ring := rest } }) :=
      .shared (.pop _ hr)
    simp only [wp_bind, wp_update]
    refine wp_mono (rbHandle_runs nl (hpop.sound hw) elem ?_)
      (fun _ w' hs => .before hw (.single hpop) (hs.mono ?_))
    · rintro discr c rfl hc hb
      obtain ⟨s, hs, rfl⟩ := session_setBpf_some hc
      exact hf ⟨discr, rest, s, hr, hs, hb⟩
    · intro l hl
      refine .ring hr ?_
      cases elem <;> exact hl

/-- The shape of what an event does: its steps are called for, or they drain
the queue. -/
def Done (nl : Nl) (e : Event) (w w' : World) : Prop :=
  Shape (Calls nl w e) w w' ∨ (∃ bound, e = .pollout bound) ∧ Drains w w'

theorem handle_runs (hw : Sound w) {e : Event} (hf : ¬ Fatal w e) :
    wp (handle nl e) (fun _ w' => Done nl e w w') w := by
  cases e with
  | add csess draws =>
    refine (wp_map _ _ _ _).mpr
      (wp_mono (handleSessionAdd_runs nl csess draws hw) (fun _ w' hs => .inl (hs.mono ?_)))
    rintro l ⟨d, ha, ⟨dsess, hcr, rfl, -⟩ | rfl⟩
    · exact .create ha hcr
    · exact .refuse ha
  | set select change bulk =>
    refine (wp_map _ _ _ _).mpr
      (wp_mono (handleSessionSet_runs nl select change bulk hw) (fun _ w' hs => .inl (hs.mono ?_)))
    rintro l ⟨d, applied, hs, rfl⟩
    exact .set hs
  | del select bulk =>
    refine (wp_map _ _ _ _).mpr
      (wp_mono (handleSessionDel_runs nl select bulk hw) (fun _ w' hs => .inl (hs.mono ?_)))
    rintro l ⟨d, hr, rfl⟩
    exact .remove hr
  | bfddAdd csess =>
    refine (wp_map _ _ _ _).mpr
      (wp_mono (bfddHandleAddSession_runs nl csess hw) (fun _ w' hs => .inl (hs.mono ?_)))
    rintro l (⟨d, ha, ⟨dsess, hcr, rfl, -⟩ | rfl⟩ | ⟨d, applied, hs, rfl⟩)
    · exact .create ha hcr
    · exact .refuse ha
    · exact .set hs
  | bfddDel discr =>
    refine (wp_map _ _ _ _).mpr (wp_mono (handleSessionDelOne_runs discr hw) (fun _ w' hs => .inl (hs.mono ?_)))
    rintro l rfl
    exact .remove rfl
  | timer => exact (wp_map _ _ _ _).mpr (wp_mono (timerEvent_runs hw hf) (fun _ _ hs => .inl hs))
  | pollout bound => exact wp_mono (txDrain_runs bound hw) (fun _ _ hd => .inr ⟨⟨bound, rfl⟩, hd⟩)
  | ringbuf => exact (wp_map _ _ _ _).mpr (wp_mono (ringbufEvent_runs hw hf) (fun _ _ hs => .inl hs))
  | kernel ev =>
    refine (wp_map _ _ _ _).mpr ((wp_update _ _ _).mpr (.inl (.of_quiet hw (.single ?_))))
    exact .shared (.kernel _ ev)

theorem Sound.find_timer (hw : Sound w) {t : Timer} {id : Nat} (hm : t ∈ w.bpf.timers) (hid : t.id = id) :
    w.bpf.timers.find? (·.id = id) = some t := by
  cases h : w.bpf.timers.find? (·.id = id) with
  | none => exact absurd hid (by simpa using List.find?_eq_none.mp h t hm)
  | some u =>
    have hu : u.id = id := by simpa using List.find?_some h
    rw [List.inj_on_of_nodup_map hw.nodup (List.mem_of_find?_eq_some h) hm (hu.trans hid.symm)]

theorem timerFire_null {t : Timer} {c : Ctx} (hc : w.session t.discr = some c) (ho : c.bsess.ptr = t.owner)
    (hfn : t.fn = .shwait) (hs : c.bsess.shwait = none) : timerFire t w = .error .nullPointer := by
  obtain ⟨hd, hb, -⟩ := session_eq_some.mp hc
  have hstop : shwaitStop ⟨w.bpf, c.dsess, c.bsess⟩ = .error .nullPointer := by
    simp only [shwaitStop, bind_run (read_run _), hs]
    rfl
  have hcb : onSession t.discr c.dsess c.bsess shwaitTimerCb w = .error .nullPointer := by
    rw [onSession, shwaitTimerCb, bind_error hstop]
  simp only [timerFire, bind_run (read_run w), hd, hb, ho, ne_eq, not_true_eq_false, if_false,
    hfn, bind_error hcb]

theorem timerFire_gone {t : Timer} (hno : ∀ c, w.session t.discr = some c → c.bsess.ptr ≠ t.owner) :
    timerFire t w = .error .dangling := by
  simp only [timerFire, bind_run (read_run w)]
  cases hd : w.sdir.find t.discr with
  | none => rfl
  | some dsess =>
    cases hb : w.bsdir.find t.discr with
    | none => rfl
    | some bsess =>
      have hp : bsess.ptr ≠ t.owner := hno ⟨w.bpf, dsess, bsess⟩ (session_eq_some.mpr ⟨hd, hb, rfl⟩)
      simp only [if_pos hp]
      rfl

theorem timerEvent_fatal (hw : Sound w) {id : Nat} {next : Option Nat} (hf : Fatal w (.timer id next)) :
    timerEvent id next w = .error .dangling ∨ timerEvent id next w = .error .nullPointer := by
  obtain ⟨t, hm, rfl, hfn, hno⟩ := hf
  simp only [timerEvent, bind_run (read_run w), hw.find_timer hm rfl]
  by_cases hlive : ∃ c, w.session t.discr = some c ∧ c.bsess.ptr = t.owner
  · obtain ⟨c, hc, ho⟩ := hlive
    by_cases hs : c.bsess.shwait = none
    · exact .inr (by rw [bind_error (timerFire_null hc ho hfn hs)])
    · left
      obtain ⟨hnext, hne⟩ := (hno c hc ho).resolve_left hs
      obtain ⟨n, hn⟩ := Option.ne_none_iff_exists'.mp hs
      obtain rfl : next = some n := hnext.symm.trans hn
      obtain ⟨_, w', hfire, hstep⟩ := timerFire_runs hw hm hc ho fun _ => by rw [hn]; rfl
      have hp : Pending w.bpf.timers n := ⟨_, (session_eq_some.mp hc).2.2 ▸ (hw.timersOk hc).shwait n hn, rfl⟩
      have hne' : n ≠ t.id := fun he => hne (congrArg some he)
      have hfreed : Freed w.bpf.timers w'.bpf.timers t.id (some n) :=
        ⟨n, rfl, hne', hp, (hstep.turn hw hc hne' hp).mpr ⟨hfn, hn⟩⟩
      rw [bind_run hfire, bind_run (read_run w'), if_pos hfreed]
      rfl
  · exact .inl (by rw [bind_error (timerFire_gone fun c hc ho => hlive ⟨c, hc, ho⟩)])

theorem timerEvent_crashes (hw : Sound w) {id : Nat} {next : Option Nat} (hf : Fatal w (.timer id next))
    (Q : Unit → World → Prop) : ¬ wp (timerEvent id next) Q w := by
  rintro ⟨r, w', hr, -⟩
  obtain h | h := timerEvent_fatal hw hf <;> rw [h] at hr <;> cases hr

theorem ringbufEvent_crashes (hf : Fatal w .ringbuf) (Q : Unit → World → Prop) :
    ¬ wp (ringbufEvent nl) Q w := by
  obtain ⟨discr, rest, c, hr, hc, hb⟩ := hf
  obtain ⟨hd, hbs, -⟩ := session_eq_some.mp hc
  simp [ringbufEvent, hr, rbHandle, rbHandleTimeout, lookupSession, World.setBpf, hd, hbs,
    wp_onSession, handleTimeout, hb]

theorem handle_crashes (hw : Sound w) {e : Event} (hf : Fatal w e) (Q : Option Unit → World → Prop) :
    ¬ wp (handle nl e) Q w := by
  cases e with
  | timer => exact fun h => timerEvent_crashes hw hf _ ((wp_map _ _ _ _).mp h)
  | ringbuf => exact fun h => ringbufEvent_crashes hf _ ((wp_map _ _ _ _).mp h)
  | add | set | del | bfddAdd | bfddDel | pollout | kernel => exact hf.elim

theorem enter_unseen (w : World) (env : Env) : Unseen w.bpf (w.enter env).bpf := ⟨rfl, rfl, rfl⟩

theorem Sound.enter (hw : Sound w) (env : Env) : Sound (w.enter env) := hw.setBpf (enter_unseen w env)

theorem machine_setBpf {b : Bpf} (h : b.timers = w.bpf.timers) (d : UInt32) :
    (w.setBpf b).machine d = w.machine d := by
  unfold World.machine
  rw [session_setBpf]
  cases hc : w.session d with
  | none => rfl
  | some c =>
    have hv : view { c with bpf := b } = view c := view_of_timers (by rw [h, (session_eq_some.mp hc).2.2])
    exact congrArg some hv

theorem machine_enter (w : World) (env : Env) (d : UInt32) : (w.enter env).machine d = w.machine d :=
  machine_setBpf (w := w) (b := (w.enter env).bpf) rfl d

theorem fatal_enter (env : Env) (e : Event) : Fatal (w.enter env) e ↔ Fatal w e := by
  have hto : ∀ {d c}, w.session d = some c →
    (w.enter env).session d = some { c with bpf := (w.enter env).bpf } :=
    fun hc => session_enter hc env
  have hof : ∀ {d c}, (w.enter env).session d = some c → w.session d = some { c with bpf := w.bpf } := by
    intro d c hc
    obtain ⟨h₁, h₂, -⟩ := session_eq_some.mp hc
    exact session_eq_some.mpr ⟨h₁, h₂, rfl⟩
  cases e with
  | timer =>
    constructor
    · rintro ⟨t, hm, hid, hfn, hno⟩
      exact ⟨t, hm, hid, hfn, fun c hc ho => (hno _ (hto hc) ho :)⟩
    · rintro ⟨t, hm, hid, hfn, hno⟩
      exact ⟨t, hm, hid, hfn, fun c hc ho => (hno _ (hof hc) ho :)⟩
  | ringbuf =>
    constructor
    · rintro ⟨d, rest, c, hr, hc, hb⟩
      exact ⟨d, rest, _, hr, hof hc, hb⟩
    · rintro ⟨d, rest, c, hr, hc, hb⟩
      exact ⟨d, rest, _, hr, hto hc, hb⟩
  | add | set | del | bfddAdd | bfddDel | pollout | kernel => exact Iff.rfl

theorem run_dies_iff (hw : Sound w) (env : Env) (e : Event) :
    (∃ k, run w env e = .error k) ↔ Fatal w e := by
  have hw := hw.enter env
  rw [← fatal_enter env e]
  constructor
  · rintro ⟨k, hk⟩
    by_contra hf
    have hrun : wp (handle env.nl e) (fun _ w' => Done env.nl e (w.enter env) w') (w.enter env) :=
      handle_runs hw hf
    obtain ⟨r, w', hr, -⟩ := hrun
    cases hr.symm.trans hk
  · intro hf
    cases hr : run w env e with
    | error k => exact ⟨k, rfl⟩
    | ok r => exact absurd ⟨r.1, r.2, hr, trivial⟩ (handle_crashes hw hf (fun _ _ => True))

theorem calls_enter {env : Env} {e : Event} {l : Label} (h : Calls nl (w.enter env) e l) :
    Calls nl w e l := by
  cases h with
  | create h hcr => exact .create (by cases e <;> exact h) hcr
  | refuse h => exact .refuse (by cases e <;> exact h)
  | set h => exact .set (by cases e <;> exact h)
  | remove h => exact .remove (by cases e <;> exact h)
  | timer h => exact .timer h
  | @ring elem rest l hr h => exact .ring hr (by cases elem <;> exact h)

theorem step_done {env : Env} {e : Event} (hw : Sound w) (h : daemon.step w (env, e) w') :
    Shape (Calls env.nl w e) (w.enter env) w' ∨ (∃ bound, e = .pollout bound) ∧ Drains (w.enter env) w' := by
  have hrun : handle env.nl e (w.enter env) = .ok (some (), w') := h
  have hf : ¬ Fatal (w.enter env) e := fun hf => handle_crashes (hw.enter env) hf (fun _ _ => True)
    ⟨_, _, hrun, trivial⟩
  have hd := wp_ok (handle_runs (hw.enter env) hf) hrun
  exact hd.imp_left (fun hs => hs.mono (fun _ => calls_enter))

theorem step_keeps {I : World → Prop} (hI : ∀ l w w', Sound w → Step l w w' → I w → I w')
    {env : Env} {e : Event} (hw : Sound w) (h : daemon.step w (env, e) w') (hi : I (w.enter env)) :
    I w' := by
  obtain ⟨-, ds, hc⟩ | ⟨-, hd⟩ := step_done hw h
  · exact hc.keeps (fun l w w' _ => hI l w w') (hw.enter env) hi
  · refine (keeps_of_moves (I := fun v => Sound v ∧ I v) (fun u v hs hv => ?_) hd ⟨hw.enter env, hi⟩).2
    obtain hs | ⟨e, kind, hs⟩ := hs <;> exact ⟨hs.sound hv.1, hI _ _ _ hv.1 hs hv.2⟩

theorem step_sound {env : Env} {e : Event} (hw : Sound w) (h : daemon.step w (env, e) w') : Sound w' := by
  obtain hs | ⟨-, hd⟩ := step_done hw h
  · exact hs.1
  · exact hd.sound (hw.enter env)

theorem start_sound (rx tx cap : UInt32) (answers : Nat → Answer) :
    Sound (World.start rx tx cap answers) where
  sync := fun _ => rfl
  session := fun d c hc => by simp [World.session, World.start] at hc
  ids := fun t ht => absurd ht List.not_mem_nil
  nodup := List.nodup_nil
  owners := fun t ht => absurd ht List.not_mem_nil
  holds := fun t ht => absurd ht List.not_mem_nil
  distinct := fun d c e c' hc => by simp [World.session, World.start] at hc
  queued := fun kind ref hr => by cases kind <;> simp [World.start, TxQueue.create, listOf] at hr

theorem reachable_sound (h : Reachable daemon w) : Sound w := by
  refine h.invariant (I := Sound) ?_ (fun _ ⟨_, _⟩ _ hs hstep => step_sound hs hstep)
  rintro s ⟨rx, tx, cap, answers, -, rfl⟩
  exact start_sound rx tx cap answers

def Causes (nl : Nl) (w : World) (e : Event) (d : UInt32) (s : Cause) : Prop :=
  ∃ c h, w.session d = some c ∧ Calls nl w e (.handler d h) ∧ h.cause c = some s

def Env.Supplied (env : Env) : Prop := ∀ n, (env.answers n).malloc = true ∧ (env.answers n).timerfd = true

/-- The machine of a session just created: on hold, with the hold's timer. -/
structure Newborn (m : Machine) : Prop where
  bstate : m.bstate = .onHold
  loc : m.loc = .down
  shwait : m.shwait = none
  qd : m.qd = false
  hold : ∃ id, m.hold = some id ∧ m.mine = [⟨id, .hold, m.discr, m.ptr⟩]

theorem cause_bpf (c : Ctx) (b : Bpf) (h : Handler) : h.cause { c with bpf := b } = h.cause c := by
  cases h with
  | timer t => obtain ⟨id, fn, discr, owner⟩ := t; cases fn <;> rfl
  | set | packet | timeout | drain => rfl

theorem machine_put (w : World) (d : UInt32) (c : Ctx) : (w.put d c).machine d = some (view c) := by
  simp [World.machine, session_put]

theorem drain_machine {e d : UInt32} {kind : SlotKind} (hw : Sound w)
    (h : Step (.handler e (.drain kind)) w w') :
    w'.machine d = w.machine d := by
  by_cases he : e = d
  · subst he
    cases h with
    | handled hc hh =>
      rw [machine_put, World.machine, hc]
      exact congrArg some (hw.handled hc hh).machine
  · exact (h.apart hw (by simpa [Label.about] using he)).machine

theorem Drains.machine (h : Drains w w') (hw : Sound w) (d : UInt32) : w'.machine d = w.machine d := by
  have hk := keeps_of_moves (I := fun v => Sound v ∧ v.machine d = w.machine d)
    (fun u v hs hv => ?_) h ⟨hw, rfl⟩
  · exact hk.2
  · obtain hs | ⟨e, kind, hs⟩ := hs
    · exact ⟨hs.sound hv.1, ((hs.apart hv.1 (by simp [Label.about])).machine).trans hv.2⟩
    · exact ⟨hs.sound hv.1, (drain_machine hv.1 hs).trans hv.2⟩

/-- What an event makes of each session's machine. -/
inductive Evolves (env : Env) (w : World) (e : Event) (d : UInt32) (w' : World) : Prop
  | same : w'.machine d = w.machine d → Evolves env w e d w'
  | gone : w'.machine d = none → Evolves env w e d w'
  | born {m} : w.machine d = none → Adds w d e → w'.machine d = some m → Newborn m → Evolves env w e d w'
  | stirred {m s fresh} : w.machine d = some m → Causes env.nl w e d s → Enabled m s → Fresh m fresh →
      (env.Supplied → fresh.isSome = true) → w'.machine d = some (m.stir fresh s) → Evolves env w e d w'

theorem Newborn.awaken {d : UInt32} {dsess : DSession} (hw : Sound w)
    (hl : dsess.localData.state.state = .down) (id : Nat) :
    Newborn ((view (w.fresh d dsess)).awaken id) where
  bstate := rfl
  loc := hl
  shwait := rfl
  qd := rfl
  hold := ⟨id, rfl, by simp only [Machine.awaken, hw.fresh_mine, List.nil_append]⟩

theorem stirred_machine {d : UInt32} {h : Handler} {w₁ w₂ : World} {env : Env} {e : Event}
    (hw : Sound w₁) (ha : Apart d (w.enter env) w₁) (hl : Calls env.nl w e (.handler d h))
    (hs : Step (.handler d h) w₁ w₂) :
    Evolves env w e d w₂ := by
  cases hs with
  | @handled _ _ _ c c' hc hh =>
    have hh := hw.handled hc hh
    have hm : w.machine d = some (view c) := by
      rw [← machine_enter w env, ← ha.machine, World.machine, hc]
      rfl
    have hm' := machine_put w₁ d c'
    have hst := hh.machine
    cases hcause : h.cause c with
    | none =>
      rw [hcause] at hst
      exact .same (by rw [hm', hm, hst])
    | some s =>
      rw [hcause] at hst
      obtain ⟨hen, fresh, hg, hv⟩ := hst
      refine .stirred hm ?_ hen (fresh_of_granted (hw.timersOk hc) hg) ?_ (by rw [hm', hv])
      · obtain ⟨h₁, h₂, h₃⟩ := session_eq_some.mp hc
        refine ⟨{ c with bpf := w.bpf }, h, session_eq_some.mpr ⟨?_, ?_, rfl⟩, hl, ?_⟩
        · exact ha.sdir.symm.trans h₁
        · exact ha.bsdir.symm.trans h₂
        · rw [cause_bpf]; exact hcause
      · intro hsup
        obtain rfl | ⟨rfl, hn⟩ := hg
        · rfl
        · refine absurd ?_ hn
          have hans : c.bpf.answers = env.answers := by rw [(session_eq_some.mp hc).2.2, ha.answers]; rfl
          intro n
          rw [hans]
          exact hsup n

theorem step_machine {env : Env} {e : Event} (hw : Sound w) (h : daemon.step w (env, e) w') (d : UInt32) :
    Evolves env w e d w' := by
  have hent := machine_enter w env d
  obtain ⟨-, ds, hc⟩ | ⟨-, hd⟩ := step_done hw h
  · obtain ⟨-, he⟩ | ⟨-, l, w₁, w₂, ha, hl, h₁, hs, h₂⟩ := hc.single d
    · exact .same ((he.apart (hw.enter env)).2.machine.trans hent)
    · obtain ⟨hw₁, ha₁⟩ := h₁.apart (hw.enter env)
      obtain ⟨hw₂, ha₂⟩ := h₂.apart (hs.sound hw₁)
      have hm₂ := ha₂.machine
      have carry : Evolves env w e d w₂ → Evolves env w e d w' := by
        rintro (h | h | ⟨h₁, h₂, h₃, h₄⟩ | ⟨h₁, h₂, h₃, h₄, h₅, h₆⟩)
        · exact .same (hm₂.trans h)
        · exact .gone (hm₂.trans h)
        · exact .born h₁ h₂ (hm₂.trans h₃) h₄
        · exact .stirred h₁ h₂ h₃ h₄ h₅ (hm₂.trans h₆)
      refine carry ?_
      cases l with
      | shared => simp [Label.about] at ha
      | handler e h =>
        cases ha
        exact stirred_machine hw₁ ha₁ hl hs
      | create e dsess =>
        cases ha
        cases hs with
        | @create _ _ _ n c' sports hn hb _ hr =>
          obtain ⟨-, -, hv⟩ := hw₁.added hr
          have hm : w.machine d = none := by
            rw [← hent, ← ha₁.machine, World.machine, session_eq_none hn]
            rfl
          refine .born hm hl.create_inv.1 ((machine_put w₁ d c').trans (congrArg some hv)) ?_
          exact .awaken hw₁ hb.loc _
      | refuse e =>
        cases ha
        cases hs with
        | refuse hn hb hr =>
          refine .gone ?_
          rw [World.machine, session_eq_none (by exact hn)]
          rfl
      | remove e =>
        cases ha
        cases hs with
        | @remove _ _ c n c' hc hr =>
          refine .gone ?_
          change (w₁.drop d c').machine d = none
          rw [World.machine, session_drop, if_pos rfl]
          rfl
  · exact .same ((hd.machine (hw.enter env) d).trans hent)

def Guarded (allowed : Env → Machine → Cause → Prop) (w : World) (l : Env × Event) : Prop :=
  ∀ d m s, w.machine d = some m → Causes l.1.nl w l.2 d s → allowed l.1 m s

theorem Sound.sane {d : UInt32} {m : Machine} (hw : Sound w) (hm : w.machine d = some m) : Sane m := by
  obtain ⟨c, hc, rfl⟩ := Option.map_eq_some_iff.mp hm
  exact (hw.session d c hc).sane

theorem machine_invariant {allowed : Env → Machine → Cause → Prop} {I : Machine → Prop}
    (hnew : ∀ m, Newborn m → I m)
    (hstir : ∀ env m s fresh, Sane m → I m → Enabled m s → Fresh m fresh → (env.Supplied → fresh.isSome = true) →
      allowed env m s → I (m.stir fresh s))
    (h : Run daemon (Guarded allowed) w) : ∀ d m, w.machine d = some m → I m := by
  refine Run.invariant (I := fun w => ∀ d m, w.machine d = some m → I m) ?_
    (fun w l w' hr hI hg hs d m' hm' => ?_) h
  · rintro s ⟨rx, tx, cap, answers, -, rfl⟩ d m hm
    simp [World.machine, World.session, World.start] at hm
  · have hw := reachable_sound hr
    obtain he | he | ⟨-, -, hm, hb⟩ | ⟨hm, hc, hen, hf, hsup, hm₁⟩ := step_machine hw hs d
    · exact hI d m' (he.symm.trans hm')
    · rw [he] at hm'
      cases hm'
    · rw [hm] at hm'
      cases hm'
      exact hnew _ hb
    · rw [hm₁] at hm'
      cases hm'
      exact hstir _ _ _ _ (hw.sane hm) (hI d _ hm) hen hf hsup (hg d _ _ hm hc)

/-- A session as an event of a reachable daemon comes to it, when the event may
have dealt with other sessions already. -/
def Meets (w : World) (d : UInt32) (c : Ctx) : Prop :=
  Reachable daemon w ∧ ∃ env v, Elsewhere d (w.enter env) v ∧ v.session d = some c

theorem Meets.ok {d : UInt32} {c : Ctx} (h : Meets w d c) : ∃ n, SessionOk n d c := by
  obtain ⟨hw, env, v, he, hc⟩ := h
  exact ⟨_, (he.apart ((reachable_sound hw).enter env)).1.session d c hc⟩

theorem Meets.of_session {d : UInt32} {c : Ctx} (hw : Reachable daemon w)
    (hc : w.session d = some c) (env : Env) :
    Meets w d { c with bpf := (w.enter env).bpf } := by
  exact ⟨hw, env, w.enter env, .refl, session_enter hc env⟩

theorem Meets.machine {d : UInt32} {c : Ctx} (h : Meets w d c) : w.machine d = some (view c) := by
  obtain ⟨hw, env, v, he, hc⟩ := h
  rw [← machine_enter w env, ← (he.apart ((reachable_sound hw).enter env)).2.machine, World.machine, hc]
  rfl

end

end Bbdd.Daemon
