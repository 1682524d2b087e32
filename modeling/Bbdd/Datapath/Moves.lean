import Bbdd.Datapath.Runs

namespace Bbdd.Datapath

open Lib.Program Packet Session Prog TxQueue

/-- A write to a session that neither its packets, nor its place in the queue,
nor its timers depend on. -/
structure Writes (c c' : Ctx) : Prop where
  bpf : c'.bpf = c.bpf
  discr : c'.dsess.localData.discr = c.dsess.localData.discr
  port : c'.dsess.src.port = c.dsess.src.port
  dport : BfdPort c.dsess → BfdPort c'.dsess
  addressed : Addressed c.dsess → Addressed c'.dsess
  bdiscr : c'.bsess.discr = c.bsess.discr
  ptr : c'.bsess.ptr = c.bsess.ptr
  genId : c'.bsess.genId = c.bsess.genId
  genBumps : c'.bsess.genBumps = c.bsess.genBumps
  shwait : c'.bsess.shwait = c.bsess.shwait
  hold : c'.bsess.hold = c.bsess.hold
  finalSlot : c'.bsess.finalSlot = c.bsess.finalSlot
  periodicSlot : c'.bsess.periodicSlot = c.bsess.periodicSlot

theorem Writes.refl (c : Ctx) : Writes c c :=
  ⟨rfl, rfl, rfl, id, id, rfl, rfl, rfl, rfl, rfl, rfl, rfl, rfl⟩

/-- Everything a handler does to the state it shares with others is one of
these: every packet is sent, every timer set and every slot queued here. Map
entries come and go only for a session that is being added or deleted, given
by its discriminator, and one is written only while that session is new. -/
inductive Move (own : Option UInt32) : Ctx → Ctx → Prop
  | ask {c c' a} : Datapath.ask c = .ok (a, c') → Move own c c'
  | output (c o) : Move own c { c with bpf := c.bpf.output o }
  | enqueue {c c'} (kind flags) : hasBit flags bitFinal = decide (kind = .final) →
      txEnqueue kind (hasBit flags bitFinal) flags c = .ok ((), c') → Move own c c'
  | inject {c c' r} (veth flags) : veth = .rx ∨ hasBit flags bitFinal = true →
      sessionInjectPkt veth flags c = .ok (r, c') → Move own c c'
  | update {c c' r} (inject) : (inject = true → c.bpf.txPinned < c.bpf.txCapacity) →
      updateNow inject c = .ok (r, c') → Move own c c'
  | dequeued (c) : Move own c { c with bpf := c.bpf.bump .skDeqCount }
  | shwaitStop {c c'} : Datapath.shwaitStop c = .ok ((), c') → Move own c c'
  | shwaitStart {c c' r} : Datapath.shwaitStart c = .ok (r, c') → Move own c c'
  | holdStop {c c'} : Datapath.holdStop c = .ok ((), c') → Move own c c'
  | holdStart {c c' r} : Datapath.holdStart c = .ok (r, c') → Move own c c'
  | fired (c) (id : Nat) : (∀ t ∈ c.bpf.timers, t.id = id → t.owner = c.bsess.ptr) → c.bsess.shwait ≠ some id →
      c.bsess.hold ≠ some id → Move own c { c with bpf := c.bpf.timerDrop id }
  | capacity (c) (cap : UInt32) : cap.toNat * txSkbTrueSize ≤ int32Max / 2 →
      Move own c { c with bpf := { c.bpf with txCapacity := cap } }
  | maps (c config data) {d} : own = some d →
      (∀ e, e ≠ d → config e = c.bpf.kernel.config e ∧ data e = c.bpf.kernel.data e) →
      config d = none ∨ config d = c.bpf.kernel.config d ∨ c.bsess.genBumps = 0 →
      Move own c { c with bpf := { c.bpf with kernel := { c.bpf.kernel with config := config, data := data } } }
  | unlink {c c'} (kind) : txUnlink kind c = .ok ((), c') → Move own c c'
  | write {c c'} : Writes c c' → Move own c c'

abbrev Moves (own : Option UInt32) : Ctx → Ctx → Prop := Relation.ReflTransGen (Move own)

/-- What handlers do as a matter of course: everything but answering a Poll. -/
inductive Chore : Ctx → Ctx → Prop
  | ask {c c' a} : Datapath.ask c = .ok (a, c') → Chore c c'
  | output (c o) : Chore c { c with bpf := c.bpf.output o }
  | defer {c c'} (flags) : hasBit flags bitFinal = false →
      txEnqueue .periodic (hasBit flags bitFinal) flags c = .ok ((), c') → Chore c c'
  | rearm {c c' r} : injectRearmPacket c = .ok (r, c') → Chore c c'
  | update {c c' r} (inject) : (inject = true → c.bpf.txPinned < c.bpf.txCapacity) →
      updateNow inject c = .ok (r, c') → Chore c c'
  | shwaitStop {c c'} : Datapath.shwaitStop c = .ok ((), c') → Chore c c'
  | shwaitStart {c c' r} : Datapath.shwaitStart c = .ok (r, c') → Chore c c'
  | holdStop {c c'} : Datapath.holdStop c = .ok ((), c') → Chore c c'
  | write {c c'} : Writes c c' → Chore c c'

abbrev Chores : Ctx → Ctx → Prop := Relation.ReflTransGen Chore

def Uncounted (c c' : Ctx) : Prop := c'.bsess.stats = c.bsess.stats

instance : Std.Refl Uncounted := ⟨fun _ => rfl⟩

instance : IsTrans Ctx Uncounted := ⟨fun _ _ _ h k => k.trans h⟩

structure Task (c c' : Ctx) : Prop where
  chore : Chore c c'
  uncounted : Uncounted c c'

abbrev Tasks : Ctx → Ctx → Prop := Relation.ReflTransGen Task

variable {own : Option UInt32}

theorem Chore.move {c c' : Ctx} (h : Chore c c') : Move own c c' := by
  cases h with
  | ask h => exact .ask h
  | output o => exact .output _ o
  | defer flags hf h => exact .enqueue .periodic flags (by rw [hf]; rfl) h
  | rearm h => exact .inject .rx 0 (.inl rfl) h
  | update inject hc h => exact .update inject hc h
  | shwaitStop h => exact .shwaitStop h
  | shwaitStart h => exact .shwaitStart h
  | holdStop h => exact .holdStop h
  | write h => exact .write h

theorem Chores.moves {c c' : Ctx} (h : Chores c c') : Moves own c c' :=
  Relation.ReflTransGen.mono (fun _ _ => Chore.move) c c' h

theorem moves_of_chores {α : Type} {p : Act α} (h : Within Chores p) : Within (Moves own) p :=
  h.mono (fun _ _ => Chores.moves)

theorem Move.within {α : Type} {p : Act α} (h : ∀ c a c', p c = .ok (a, c') → Move own c c') :
    Within (Moves own) p :=
  fun c a c' hp => .single (h c a c' hp)

theorem Task.within {α : Type} {p : Act α} (h : ∀ c a c', p c = .ok (a, c') → Chore c c')
    (hp : Within Uncounted p) :
    Within Tasks p :=
  fun c a c' hr => .single ⟨h c a c' hr, hp c a c' hr⟩

theorem Tasks.chores {c c' : Ctx} (h : Tasks c c') : Chores c c' :=
  Relation.ReflTransGen.mono (fun _ _ ht => ht.chore) c c' h

theorem chores_of_tasks {α : Type} {p : Act α} (h : Within Tasks p) : Within Chores p :=
  h.mono (fun _ _ => Tasks.chores)

theorem Injected.uncounted {c c' : Ctx} (h : Injected c c') : Uncounted c c' := by
  obtain ⟨g, n, us, hb⟩ := h.bsess
  rw [Uncounted, hb]

theorem uncounted_ask : Within Uncounted ask := injected_ask.mono (fun _ _ => Injected.uncounted)

theorem uncounted_onBpf (f : Bpf → Bpf) : Within Uncounted (onBpf f) := within_update (fun _ => rfl)

theorem uncounted_onBsess {f : BSession → BSession} (h : ∀ s, (f s).stats = s.stats) :
    Within Uncounted (onBsess f) :=
  within_update (fun c => h c.bsess)

theorem uncounted_txEnqueue (kind : SlotKind) (isFinal : Bool) (flags : UInt8) :
    Within Uncounted (txEnqueue kind isFinal flags) := by
  refine within_bind within_read (fun c => within_bind (uncounted_onBpf _) (fun _ => ?_))
  refine within_bind (uncounted_onBsess (fun s => by cases kind <;> rfl)) (fun _ => ?_)
  refine within_bind (within_whenever (uncounted_onBpf _)) (fun _ => ?_)
  refine within_bind within_read (fun _ => within_ite (within_pure _) (within_bind uncounted_ask (fun _ => ?_)))
  exact within_ite (uncounted_onBpf _) (uncounted_onBpf _)

theorem uncounted_timerCancel (id : Nat) : Within Uncounted (timerCancel id) := by
  refine within_bind within_read (fun _ => within_ite ?_ (within_crash _))
  refine within_bind (uncounted_onBpf _) (fun _ => within_bind uncounted_ask (fun _ => ?_))
  exact within_ite (within_pure _) (uncounted_onBpf _)

theorem uncounted_shwaitStop : Within Uncounted shwaitStop := by
  refine within_bind within_read (fun _ => ?_)
  split
  · exact within_crash _
  · exact within_bind (uncounted_timerCancel _) (fun _ => uncounted_onBsess (fun _ => rfl))

theorem uncounted_holdStop : Within Uncounted holdStop := by
  refine within_bind within_read (fun _ => ?_)
  split
  · exact within_crash _
  · exact within_bind (uncounted_timerCancel _) (fun _ => uncounted_onBsess (fun _ => rfl))

theorem uncounted_shwaitStart : Within Uncounted shwaitStart := by
  have hset : Within Uncounted (timerSet .shwait) := by
    refine within_bind uncounted_ask
      (fun _ => within_ite (within_pure _) (within_bind uncounted_ask (fun _ => ?_)))
    refine within_ite (within_pure _) (within_bind within_read (fun _ => ?_))
    exact within_bind (uncounted_onBpf _) (fun _ => within_pure _)
  refine within_bind within_read (fun _ => ?_)
  split
  · exact within_crash _
  · refine within_bind uncounted_ask (fun _ => within_ite (within_pure _) (within_attempt hset (fun _ => ?_)))
    exact within_bind (uncounted_onBsess (fun _ => rfl)) (fun _ => within_pure _)

theorem tasks_output (o : Output) : Within Tasks (onBpf (·.output o)) :=
  within_update (fun c => .single ⟨.output c o, rfl⟩)

theorem tasks_reported {p : Act (Except String Unit)} (hp : Within Tasks p) (context : String) :
    Within Tasks (reported p context) :=
  reported_within tasks_output hp context

theorem moves_reported {p : Act (Except String Unit)} (hp : Within (Moves own) p) (context : String) :
    Within (Moves own) (reported p context) :=
  reported_within (fun o => within_update (fun c => .single (.output c o))) hp context

theorem tasks_rearm (context : String) : Within Tasks (reported injectRearmPacket context) :=
  tasks_reported (Task.within (fun _ _ _ h => .rearm h)
    ((injected_sessionInjectPkt _ _).mono (fun _ _ => Injected.uncounted))) context

theorem moves_final {flags : UInt8} (h : hasBit flags bitFinal = true) (veth : Veth) :
    Within (Moves own) (sessionInjectPkt veth flags) :=
  Move.within (fun _ _ _ hp => .inject veth flags (.inr h) hp)

theorem injectBfdFlags_bits {dsess : DSession} {bsess : BSession} {flags : UInt8}
    (h : injectBfdFlags dsess bsess = some flags) :
    flags < 64 ∧ hasBit flags bitFinal = false ∧ (hasBit flags bitPoll = true → bsess.bstate = .awaitFinal) := by
  have hcpi : bfdSessionFlags dsess.localData = 0 ∨ bfdSessionFlags dsess.localData = bitCpi := by
    unfold bfdSessionFlags
    split
    · exact .inr rfl
    · exact .inl rfl
  unfold injectBfdFlags at h
  cases hb : bsess.bstate <;> simp only [hb, injectBfdFlagsBstate, Option.map_none,
    Option.map_some, reduceCtorEq,
    Option.some.injEq] at h ⊢ <;> subst h <;> obtain hc | hc := hcpi <;> rw [hc] <;> decide

theorem updateDefer_ok {c c' : Ctx} {r : Except String Unit} (h : updateDefer c = .ok (r, c')) :
    ∃ flags, hasBit flags bitFinal = false ∧ txEnqueue .periodic false flags c = .ok ((), c') := by
  have h := read_ok.mp h
  cases hf : injectBfdFlags c.dsess c.bsess with
  | none =>
    simp only [hf] at h
    cases h
  | some flags =>
    have hfin := (injectBfdFlags_bits hf).2.1
    simp only [hf, hfin] at h
    obtain ⟨_, c₁, he, h⟩ := bind_ok.mp h
    obtain ⟨-, rfl⟩ := pure_ok.mp h
    exact ⟨flags, hfin, he⟩

theorem tasks_updateDefer : Within Tasks updateDefer := by
  intro c r c' h
  obtain ⟨flags, hfin, he⟩ := updateDefer_ok h
  exact .single ⟨.defer flags hfin (by rw [hfin]; exact he), uncounted_txEnqueue _ _ _ _ _ _ he⟩

theorem txHaveCapacity_ok {c c' : Ctx} {b : Bool} (h : txHaveCapacity c = .ok (b, c')) :
    Chore c c' ∧ b = decide (c'.bpf.txPinned < c'.bpf.txCapacity) := by
  obtain ⟨a, c₁, ha, h⟩ := bind_ok.mp h
  obtain ⟨c₂, _, hr, h⟩ := bind_ok.mp h
  cases hr
  obtain ⟨rfl, rfl⟩ := pure_ok.mp h
  exact ⟨.ask ha, rfl⟩

theorem tasks_txHaveCapacity : Within Tasks txHaveCapacity :=
  Task.within (fun _ _ _ h => (txHaveCapacity_ok h).1) (txHaveCapacity_within uncounted_ask)

theorem tasks_sessionUpdateInner : Within Tasks sessionUpdateInner := by
  refine within_bind within_read (fun c => within_ite ?_ ?_)
  · intro c r c' h
    obtain ⟨b, c₁, hb, h⟩ := bind_ok.mp h
    have ht := tasks_txHaveCapacity _ _ _ hb
    obtain ⟨-, rfl⟩ := txHaveCapacity_ok hb
    by_cases hc : c₁.bpf.txPinned < c₁.bpf.txCapacity
    · simp only [hc, decide_true, if_true] at h
      exact .tail ht ⟨.update true (fun _ => hc) h, (injected_updateNow _ _ _ _ h).uncounted⟩
    · simp only [hc, decide_false, Bool.false_eq_true, if_false] at h
      exact .trans ht (tasks_updateDefer _ _ _ h)
  · exact Task.within (fun _ _ _ hp => .update false (fun hf => absurd hf Bool.false_ne_true) hp)
      ((injected_updateNow _).mono (fun _ _ => Injected.uncounted))

theorem tasks_sessionCallUpdate : Within Tasks sessionCallUpdate :=
  within_bind within_read (fun _ => tasks_reported tasks_sessionUpdateInner _)

theorem tasks_sessionStateChanged : Within Tasks sessionStateChanged :=
  within_bind tasks_sessionCallUpdate (fun _ => within_bind within_read (fun _ => tasks_output _))

theorem tasks_shwaitStop : Within Tasks shwaitStop := Task.within (fun _ _ _ h => .shwaitStop h)
    uncounted_shwaitStop

theorem tasks_shwaitStart : Within Tasks shwaitStart := Task.within (fun _ _ _ h => .shwaitStart h)
    uncounted_shwaitStart

theorem tasks_holdStop : Within Tasks holdStop := Task.within (fun _ _ _ h => .holdStop h) uncounted_holdStop

theorem tasks_onBsess {f : BSession → BSession} (h : ∀ c : Ctx, Writes c { c with bsess := f c.bsess })
    (hs : ∀ s, (f s).stats = s.stats) : Within Tasks (onBsess f) :=
  within_update (fun c => .single ⟨.write (h c), hs c.bsess⟩)

theorem tasks_onDsess {f : DSession → DSession} (h : ∀ c : Ctx, Writes c { c with dsess := f c.dsess }) :
    Within Tasks (onDsess f) :=
  within_update (fun c => .single ⟨.write (h c), rfl⟩)

/-- What an update of the poll machinery consists of: it writes its own fields,
takes the ends of the session down, and starts or stops the shutdown wait. -/
inductive Updating : Ctx → Ctx → Prop
  | bsess (c eff dfr bstate qd) :
      Updating c { c with bsess :=
        { c.bsess with effData := eff, dfrData := dfr, bstate := bstate, qdChange := qd } }
  | ends (c) (loc rem : StateEnd) : loc.state ≠ .init → loc.state ≠ .up →
      Updating c { c with dsess := { c.dsess with
        localData := { c.dsess.localData with state := loc }, remoteData :=
          { c.dsess.remoteData with state := rem } } }
  | shwaitStop {c c'} : Datapath.shwaitStop c = .ok ((), c') → Updating c c'
  | shwaitStart {c c' r} : Datapath.shwaitStart c = .ok (r, c') → Updating c c'
  | output (c o) : Updating c { c with bpf := c.bpf.output o }

abbrev Updates : Ctx → Ctx → Prop := Relation.ReflTransGen Updating

theorem updates_onBsess {f : BSession → BSession}
    (h : ∀ s, ∃ eff dfr bstate qd, f s =
      { s with effData := eff, dfrData := dfr, bstate := bstate, qdChange := qd }) :
    Within Updates (onBsess f) :=
  within_update (fun c => by
    obtain ⟨eff, dfr, bstate, qd, hf⟩ := h c.bsess
    rw [hf]
    exact .single (.bsess c eff dfr bstate qd))

theorem updates_updateNext (d : Decision) (udata : BData) : Within Updates (updateNext d udata) := by
  refine within_ite ?_ (within_ite ?_ (within_pure _))
  · exact within_bind (updates_onBsess (fun _ => ⟨_, _, _, _, rfl⟩))
      (fun _ => within_ite (within_crash _) (within_pure _))
  · refine within_attempt (fun _ _ _ h => .single (.shwaitStart h)) (fun _ => ?_)
    refine within_bind (updates_onBsess (fun _ => ⟨_, _, _, _, rfl⟩)) (fun _ => ?_)
    exact within_bind (within_update (fun c => .single (.ends c _ _ nofun nofun))) (fun _ => within_pure _)

theorem updates_updateSettled (d : Decision) (udata : BData) : Within Updates (updateSettled d udata) :=
  within_bind (within_whenever
    (within_update (fun c => .single (.ends c _ c.dsess.remoteData.state nofun nofun))))
    (fun _ => updates_updateNext _ _)

theorem updates_updateApply (d : Decision) (udata : BData) : Within Updates (updateApply d udata) := by
  refine within_ite (within_crash _) (within_bind within_read (fun c => ?_))
  cases c.bsess.bstate with
  | onHold => exact within_crash _
  | stable => exact updates_updateSettled _ _
  | awaitFinal | awaitNonFinal =>
    exact within_ite (within_bind (updates_onBsess (fun _ => ⟨_, _, _, _, rfl⟩))
      (fun _ => within_pure _)) (within_pure _)
  | shuttingDown =>
    refine within_ite (within_bind (fun _ _ _ h => .single (.shwaitStop h)) (fun _ => ?_))
      (updates_updateSettled _ _)
    exact within_bind (updates_onBsess (fun _ => ⟨_, _, _, _, rfl⟩)) (fun _ => updates_updateSettled _ _)

theorem updates_handleSessionUpdate : Within Updates handleSessionUpdate := by
  refine within_bind within_read (fun c => ?_)
  split
  · exact within_crash _
  · refine within_bind (within_whenever (updates_onBsess (fun s => ?_))) (fun _ => updates_updateApply _ _)
    unfold setBdata
    split <;> exact ⟨_, _, s.bstate, _, rfl⟩

theorem updates_takeQdChange : Within Updates takeQdChange :=
  within_bind within_read (fun _ => within_bind (updates_onBsess (fun _ => ⟨_, _, _, _, rfl⟩)) (fun _ =>
    reported_within (fun o => within_update (fun c => .single (.output c o))) updates_handleSessionUpdate _))

theorem Updating.tasks {c c' : Ctx} (h : Updating c c') : Tasks c c' := by
  cases h with
  | bsess => exact .single ⟨.write { Writes.refl c with }, rfl⟩
  | ends => exact .single ⟨.write { Writes.refl c with }, rfl⟩
  | shwaitStop h => exact tasks_shwaitStop _ _ _ h
  | shwaitStart h => exact tasks_shwaitStart _ _ _ h
  | output o => exact tasks_output o _ _ _ rfl

theorem tasks_handleSessionUpdate : Within Tasks handleSessionUpdate :=
  within_of_moves (fun _ _ => Updating.tasks) updates_handleSessionUpdate

theorem tasks_gotFinal : Within Tasks gotFinal :=
  within_bind (tasks_onBsess (fun c => { Writes.refl c with }) (fun _ => rfl)) (fun _ => tasks_sessionCallUpdate)

theorem tasks_takeQdChange : Within Tasks takeQdChange := within_of_moves
    (fun _ _ => Updating.tasks) updates_takeQdChange

theorem tasks_gotNonFinal : Within Tasks gotNonFinal :=
  within_bind (tasks_onBsess (fun c => { Writes.refl c with }) (fun _ => rfl)) (fun _ =>
    within_bind within_read (fun _ =>
      within_bind (within_whenever tasks_takeQdChange) (fun _ => tasks_sessionCallUpdate)))

theorem tasks_shwaitTimerCb : Within Tasks shwaitTimerCb :=
  within_bind tasks_shwaitStop (fun _ => tasks_gotNonFinal)

theorem tasks_holdTimerCb : Within Tasks holdTimerCb :=
  within_bind within_read (fun _ =>
    within_bind (tasks_onBsess (fun c => { Writes.refl c with }) (fun _ => rfl)) (fun _ =>
    within_bind (tasks_onDsess (fun c => { Writes.refl c with })) (fun _ =>
      within_bind tasks_sessionStateChanged (fun _ => tasks_holdStop))))

theorem tasks_sessionUpdate : Within Tasks sessionUpdate :=
  within_bind within_read (fun _ => within_ite (within_pure _)
    (within_attempt tasks_handleSessionUpdate (fun _ => tasks_sessionUpdateInner)))

theorem tasks_concludePacket (final : Bool) : Within Tasks (concludePacket final) := by
  refine within_bind within_read (fun c => ?_)
  cases c.bsess.bstate with
  | onHold => exact within_crash _
  | stable | shuttingDown => exact within_pure _
  | awaitFinal => exact within_ite tasks_gotFinal (within_pure _)
  | awaitNonFinal => exact within_ite (within_pure _) tasks_gotNonFinal

theorem tasks_timeoutDown : Within Tasks timeoutDown :=
  within_bind within_read (fun _ => within_ite
    (within_bind (tasks_onDsess (fun c => { Writes.refl c with })) (fun _ => tasks_sessionStateChanged))
    (within_pure _))

theorem tasks_handleTimeout : Within Tasks handleTimeout := by
  refine within_bind within_read (fun c => ?_)
  have hend : Within Tasks (gotNonFinal >>= fun _ => timeoutDown) :=
    within_bind tasks_gotNonFinal (fun _ => tasks_timeoutDown)
  cases c.bsess.bstate with
  | onHold => exact within_crash _
  | stable => exact tasks_timeoutDown
  | awaitFinal | awaitNonFinal => exact hend
  | shuttingDown => exact within_bind tasks_shwaitStop (fun _ => hend)

theorem chores_output (o : Output) : Within Chores (onBpf (·.output o)) := chores_of_tasks (tasks_output o)

theorem chores_reported {p : Act (Except String Unit)} (hp : Within Chores p) (context : String) :
    Within Chores (reported p context) :=
  reported_within chores_output hp context

theorem chores_rearm (context : String) : Within Chores (reported injectRearmPacket context) :=
  chores_of_tasks (tasks_rearm context)

theorem chores_txHaveCapacity : Within Chores txHaveCapacity := chores_of_tasks tasks_txHaveCapacity

theorem chores_sessionUpdateInner : Within Chores sessionUpdateInner := chores_of_tasks tasks_sessionUpdateInner

theorem chores_shwaitTimerCb : Within Chores shwaitTimerCb := chores_of_tasks tasks_shwaitTimerCb

theorem chores_holdTimerCb : Within Chores holdTimerCb := chores_of_tasks tasks_holdTimerCb

theorem chores_sessionUpdate : Within Chores sessionUpdate := chores_of_tasks tasks_sessionUpdate

theorem chores_handleTimeout : Within Chores handleTimeout := chores_of_tasks tasks_handleTimeout

theorem chores_onBsess {f : BSession → BSession} (h : ∀ c : Ctx, Writes c { c with bsess := f c.bsess }) :
    Within Chores (onBsess f) :=
  within_update (fun c => .single (.write (h c)))

theorem chores_bump {f : BSession → BSession}
    (h : ∀ b, ∃ st dg, f b = { b with stats := st, diagStats := dg }) :
    Within Chores (onBsess f) := by
  refine chores_onBsess (fun c => ?_)
  obtain ⟨st, dg, hf⟩ := h c.bsess
  rw [hf]
  exact { Writes.refl c with }

theorem moves_respondPoll : Within (Moves own) respondPoll := by
  refine within_bind (moves_of_chores chores_txHaveCapacity) (fun _ => within_ite ?_ ?_)
  · exact moves_reported (moves_final (by decide) .tx) _
  · exact Move.within (fun _ _ _ h => .enqueue .final bitFinal (by decide) h)

theorem within_acceptPacket {R : Ctx → Ctx → Prop} [Std.Refl R] [IsTrans Ctx R]
    (hc : ∀ c c', Tasks c c' → R c c') (hr : Within R respondPoll) (p : Parsed) :
    Within R (acceptPacket p) := by
  refine within_bind within_read (fun _ => ?_)
  refine within_bind ((tasks_onDsess (fun c => { Writes.refl c with })).mono hc) (fun _ => ?_)
  refine within_bind ((tasks_rearm _).mono hc) (fun _ => ?_)
  refine within_bind ((tasks_onDsess (fun c => { Writes.refl c with })).mono hc) (fun _ => ?_)
  refine within_bind within_read (fun _ => ?_)
  refine within_bind (within_whenever (tasks_sessionStateChanged.mono hc)) (fun _ => ?_)
  exact within_bind (within_whenever hr) (fun _ => (tasks_concludePacket _).mono hc)

theorem within_handlePacket {R : Ctx → Ctx → Prop} [Std.Refl R] [IsTrans Ctx R]
    (hc : ∀ c c', Chores c c' → R c c') (hr : Within R respondPoll) (packet : BfdPkt)
    (wireLen : UInt32) (ttl : UInt8) :
    Within R (handlePacket packet wireLen ttl) := by
  have bump : ∀ {f : BSession → BSession}, (∀ b, ∃ st dg, f b = { b with stats := st, diagStats := dg }) →
      Within R (onBsess f) := fun h => (chores_bump h).mono hc
  refine within_bind within_read (fun c => within_ite (within_pure _) ?_)
  refine within_bind (bump (fun b => ⟨_, _, rfl⟩)) (fun _ => ?_)
  refine within_ite (bump (fun b => ⟨_, _, rfl⟩)) (within_ite (bump (fun b => ⟨_, _, rfl⟩)) ?_)
  split
  · exact bump (fun b => ⟨_, _, rfl⟩)
  · exact within_acceptPacket (fun c c' h => hc c c' h.chores) hr _

theorem moves_handlePacket (packet : BfdPkt) (wireLen : UInt32) (ttl : UInt8) :
    Within (Moves own) (handlePacket packet wireLen ttl) :=
  within_handlePacket (fun _ _ => Chores.moves) moves_respondPoll packet wireLen ttl

theorem moves_drainSlot {slot : TxSlot}
    (h : slot.isFinal = true → hasBit slot.bfdFlags bitFinal = true) (context : String) :
    Within (Moves own) (do
      reported (if slot.isFinal then sessionInjectPkt slot.txIfindex slot.bfdFlags
        else sessionUpdateInner) context
      onBpf (·.bump .skDeqCount)) := by
  refine within_bind (moves_reported ?_ _) (fun _ => within_update (fun c => .single (.dequeued c)))
  split
  · rename_i hf
    exact moves_final (h hf) _
  · exact moves_of_chores chores_sessionUpdateInner

theorem moves_ask : Within (Moves own) ask := Move.within (fun _ _ _ h => .ask h)

theorem move_setConfig (c : Ctx) (discr : UInt32) (entry : Option SessionConfig)
    (h : entry = none ∨ c.bsess.genBumps = 0) :
    Move (some discr) c { c with bpf := { c.bpf with kernel := c.bpf.kernel.setConfig discr entry } } := by
  refine .maps c _ _ rfl (fun _ he => ⟨Function.update_of_ne he _ _, rfl⟩) ?_
  obtain rfl | hg := h
  · exact .inl (Function.update_self _ _ _)
  · exact .inr (.inr hg)

theorem moves_unsetConfig (discr : UInt32) :
    Within (Moves (some discr)) (onBpf (fun b => { b with kernel := b.kernel.setConfig discr none })) :=
  within_update (fun c => .single (move_setConfig c discr none (.inl rfl)))

theorem moves_setData (discr : UInt32) (entry : Option SessionEntry) :
    Within (Moves (some discr)) (onBpf (fun b => { b with kernel := b.kernel.setData discr entry })) :=
  within_update (fun c => .single (.maps c _ _ rfl (fun _ he => ⟨rfl, Function.update_of_ne he _ _⟩)
    (.inr (.inl rfl))))

theorem moves_sessionConfDelete (discr : UInt32) : Within (Moves (some discr)) (sessionConfDelete discr) :=
  within_bind moves_ask (fun _ => within_bind (within_whenever (moves_unsetConfig _)) (fun _ =>
    within_bind moves_ask (fun _ => within_whenever (moves_setData _ _))))

theorem moves_txApplyCapacity (cap : UInt32) : Within (Moves own) (txApplyCapacity cap) := by
  unfold txApplyCapacity
  split
  · exact within_pure _
  · rename_i hc
    refine within_bind moves_ask (fun _ => within_ite (within_pure _) ?_)
    exact within_bind (within_update (fun c => .single (.capacity c cap (Nat.le_of_not_lt hc))))
      (fun _ => within_pure _)

theorem moves_txResize (sessions : Nat) (add : Bool) : Within (Moves own) (txResize sessions add) :=
  within_bind within_read (fun _ => within_ite (within_pure _) (moves_txApplyCapacity _))

theorem moves_sessionDel {c c' : Ctx} {sessions : Nat} (h : sessionDel sessions c = .ok ((), c')) :
    Moves (some c.bsess.discr) c c' := by
  have h := read_ok.mp h
  have hw : Within (Moves (some c.bsess.discr)) (do
      whenever c.bsess.hold.isSome holdStop
      whenever c.bsess.shwait.isSome shwaitStop
      txUnlink .final
      txUnlink .periodic
      sessionConfDelete c.bsess.discr
      reported (txResize sessions false) "session del tx resize") := by
    refine within_bind (within_whenever (moves_of_chores (chores_of_tasks tasks_holdStop))) (fun _ => ?_)
    refine within_bind (within_whenever (moves_of_chores (chores_of_tasks tasks_shwaitStop))) (fun _ => ?_)
    refine within_bind (Move.within (fun _ _ _ h => .unlink .final h)) (fun _ => ?_)
    refine within_bind (Move.within (fun _ _ _ h => .unlink .periodic h)) (fun _ => ?_)
    exact within_bind (moves_sessionConfDelete _) (fun _ => moves_reported (moves_txResize _ _) _)
  exact hw _ _ _ h

end Bbdd.Datapath
