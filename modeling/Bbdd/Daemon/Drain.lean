import Bbdd.Daemon.Accounting
import Bbdd.Datapath.Lists

namespace Bbdd.Daemon

open Lib.Program Lib.Transition Session TxQueue Datapath Poll

section

variable {w w' v : World} {c c' : Ctx} {l : Label} {b : Bpf} {ref : SlotRef} {kind : SlotKind}

theorem Shared.files {b b' : Bpf} (h : Shared b b') : Files b b' := by
  cases h with
  | ask | output | count | kernel | pop => exact { Files.refl b with }
  | disarm hp => exact { Files.refl b
      with watched := fun _ _ hpend => absurd (hp.symm.trans hpend) Bool.false_ne_true }

theorem shrinks_sessionDel (sessions : Nat) : Within Shrinks (sessionDel sessions) :=
  sessionDel_within (fun _ _ h => shrinks_of_tx h.aside.tx)
    (fun _ _ h => shrinks_of_tx h.sameQueue.tx) shrinks_txUnlink sessions

theorem Step.files (h : Step l w w') (hw : Sound w) : Files w.bpf w'.bpf := by
  cases h with
  | shared hs => exact hs.files
  | handled hc hh =>
    rw [← (session_eq_some.mp hc).2.2]
    exact (hw.handled hc hh).moves.files (hw.session _ _ hc).queue
  | create hn hb _ hr => exact (hw.added hr).1.files (hw.fresh_queue hn hb.name)
  | refuse hn hb hr => exact (hw.added hr).1.files (hw.fresh_queue hn hb.name)
  | remove hc hr =>
    rw [← (session_eq_some.mp hc).2.2]
    exact (hw.deleted hc hr).1.files (hw.session _ _ hc).queue

theorem step_files {env : Env} {e : Event} (hw : Sound w) (h : daemon.step w (env, e) w') :
    Files (w.enter env).bpf w'.bpf :=
  step_keeps (I := fun v => Files (w.enter env).bpf v.bpf)
    (fun _ _ _ hv hs hf => hf.trans (hs.files hv)) hw h (.refl _)

theorem reachable_tallied (h : Reachable daemon w) : Tallied w.bpf.tx := by
  apply @Run.invariant _ _ _ _ (fun w => Tallied w.bpf.tx) _ _ _ h
  · rintro s ⟨rx, tx, cap, answers, -, rfl⟩
    exact ⟨rfl, rfl⟩
  · intro w l w' hr ht _ hs
    exact (step_files (reachable_sound hr) hs).tallied ht

def Grants (_ : World) (l : Env × Event) : Prop := ∀ n, (l.1.answers n).pollSet = true

theorem run_watched (h : Run daemon Grants w) : Watched w.bpf := by
  apply @Run.invariant _ _ _ _ (fun w => Watched w.bpf) _ _ _ h
  · rintro s ⟨rx, tx, cap, answers, -, rfl⟩ hpend
    cases hpend
  · intro w l w' hr hwatch hg hs
    exact (step_files (reachable_sound hr) hs).watched hg hwatch

def Label.spares : Label → SlotRef → Bool
  | .remove d, ref => decide (ref.owner ≠ d)
  | .shared, _ | .handler _ _, _ | .create _ _, _ | .refuse _, _ => true

theorem Handled.grows {h : Handler} (hh : Handled h c c') (hd : ∀ kind, h ≠ .drain kind) : Grows c c' := by
  cases hh with
  | @set _ c₁ r applied csess ha hu hr =>
    have hg : Grows { c with dsess := applied } c₁ := (chores_sessionUpdate _ _ _ hr).grows
    obtain he | he := announced_eq r (decide (applied ≠ c.dsess)) c₁ <;> rw [he] <;> exact hg
  | packet packet wireLen ttl hr => exact grows_handlePacket _ _ _ _ _ _ hr
  | timeout hr => exact (chores_handleTimeout _ _ _ hr).grows
  | hold id hm hr => exact (chores_holdTimerCb _ _ _ hr).grows
  | shwait id hm hr => exact (chores_shwaitTimerCb _ _ _ hr).grows
  | drain kind => exact absurd rfl (hd kind)

theorem Step.removed {d : UInt32} (h : Step (.remove d) w w') : w'.session d = none := by
  cases h with
  | @remove _ _ c n c' hc hr =>
    have hgone : (w.drop d c').session d = none := by rw [session_drop, if_pos rfl]
    exact hgone

theorem Step.follows (h : Step l w w') (hw : Sound w)
    (hd : ∀ d kind, l ≠ .handler d (.drain kind)) (kind : SlotKind) :
    Follows l.spares (listOf w.bpf.tx kind) (listOf w'.bpf.tx kind) := by
  have hw' := h.sound hw
  have hgrow : listOf w.bpf.tx kind <+: listOf w'.bpf.tx kind → (∀ ref, l.spares ref = true) →
      Follows l.spares (listOf w.bpf.tx kind) (listOf w'.bpf.tx kind) :=
    fun hp hs => .of_grown hp (hw'.tx_kinds.2 kind) (fun ref _ => hs ref)
  cases h with
  | shared hs => exact hgrow (hs.unseen.tx.symm ▸ List.prefix_refl _) (fun _ => rfl)
  | handled hc hh =>
    have hg := hh.grows (fun k he => hd _ k (congrArg _ he)) kind
    rw [(session_eq_some.mp hc).2.2] at hg
    exact hgrow hg (fun _ => rfl)
  | create hn hb _ hr => exact hgrow (grows_of_tx (hw.added hr).2.1.tx kind) (fun _ => rfl)
  | refuse hn hb hr => exact hgrow (grows_of_tx (hw.added hr).2.1.tx kind) (fun _ => rfl)
  | @remove _ d c n c' hc hr =>
    have hbpf := (session_eq_some.mp hc).2.2
    have hsub : (listOf c'.bpf.tx kind).Sublist (listOf w.bpf.tx kind) :=
      hbpf ▸ shrinks_sessionDel n _ _ _ hr kind
    have hok := hw.session _ _ hc
    refine .of_sublist hsub (hw.tx_kinds.2 kind) (fun ref => ?_)
    constructor
    · intro hm
      refine ⟨hsub.subset hm, decide_eq_true ?_⟩
      rintro rfl
      have hq := hw'.queued kind ref hm
      rw [(Step.remove hc hr).removed] at hq
      cases hq
    · rintro ⟨hm, hs⟩
      have hothers := ((hw.deleted hc hr).1.queue hok.queue).2.others kind ref
      rw [hok.name, hbpf] at hothers
      exact (hothers (of_decide_eq_true hs)).mpr hm

theorem Chain.follows {calls : Label → Prop} {ds : List UInt32} (h : Chain calls ds w w')
    (hc : ∀ l, calls l → ∀ d kind, l ≠ .handler d (.drain kind)) (hw : Sound w) (kind : SlotKind) :
    Follows (fun ref => (w'.session ref.owner).isSome) (listOf w.bpf.tx kind) (listOf w'.bpf.tx kind) := by
  induction h with
  | refl w => exact .of_grown (List.prefix_refl _) (hw.tx_kinds.2 kind) (hw.queued kind)
  | quiet hs hch ih =>
    have hw₁ := hs.sound hw
    exact (hs.follows hw nofun kind).trans (ih hw₁) (fun _ _ _ => rfl) ((hch.sound hw₁).queued kind)
  | @step d ds l v v₁ v' hl ha hd hs hch ih =>
    have hw₁ := hs.sound hw
    refine (hs.follows hw (hc l hl) kind).trans (ih hw₁) (fun ref _ halive => ?_) ((hch.sound hw₁).queued kind)
    cases l with
    | remove e =>
      -- a session that was removed is not the subject of another step
      cases ha
      refine decide_eq_true ?_
      rintro rfl
      obtain ⟨-, he⟩ | ⟨hmem, -⟩ := hch.single ref.owner
      · rw [(he.apart hw₁).2.session, hs.removed] at halive
        cases halive
      · exact hd hmem
    | shared | handler | create | refuse => rfl

theorem Calls.not_drain {nl : Nl} {e : Event} (h : Calls nl w e l) (d : UInt32) (kind : SlotKind) :
    l ≠ .handler d (.drain kind) := by
  rintro rfl
  cases h with
  | ring hr h => obtain ⟨-, hh⟩ | ⟨_, _, _, hh, -⟩ := ringCall_handler h <;> cases hh

theorem step_follows {env : Env} {e : Event} (hw : Sound w) (h : daemon.step w (env, e) w')
    (he : ∀ bound, e ≠ .pollout bound) (kind : SlotKind) :
    Follows (fun ref => (w'.session ref.owner).isSome) (listOf w.bpf.tx kind) (listOf w'.bpf.tx kind) := by
  obtain ⟨-, ds, hc⟩ | ⟨⟨bound, rfl⟩, -⟩ := step_done hw h
  · exact hc.follows (fun l hl => hl.not_drain) (hw.enter env) kind
  · exact absurd rfl (he bound)

theorem released_ask (b : Bpf) (hb : Books b) : b.released ≤ b.ask.2.released := by
  have hflow := (idle_ask b).flow
  have hrel : b.ask.2.released + charged b.ask.2 = b.released + charged b := hflow.released hb.bfd
  have hle := charged_le_of_flows hflow
  omega

theorem hasRoom_ask (hb : Books b) (h : HasRoom b) (ha : b.ask.2.released ≤ b.ask.2.sent) :
    HasRoom b.ask.2 := by
  have hle := released_ask b hb
  have hsent : b.ask.2.sent = b.sent := (idle_ask b).sent
  have hcap : b.ask.2.txCapacity = b.txCapacity := (idle_ask b).cap
  have hlt := UInt32.lt_iff_toNat_lt.mp h
  rw [hb.flight (by omega)] at hlt
  apply UInt32.lt_iff_toNat_lt.mpr
  rw [(hb.idle (idle_ask b)).flight ha, hcap]
  omega

theorem sessionUpdateInner_room {r : Except String Unit} (h : sessionUpdateInner c = .ok (r, c'))
    (hr : HasRoom c.bpf.ask.2) :
    Injected c c' := by
  rw [sessionUpdateInner, bind_run rfl] at h
  split at h
  · have hcap : txHaveCapacity c = .ok (decide (HasRoom c.bpf.ask.2), { c with bpf := c.bpf.ask.2 }) := rfl
    rw [bind_run hcap, decide_eq_true hr, if_pos rfl] at h
    exact (injected_ask c _ _ rfl).trans (injected_updateNow _ _ _ _ h)
  · exact injected_updateNow _ _ _ _ h

theorem drainSlot_keeps {slot : TxSlot} (h : drainSlot slot c = .ok ((), c')) (hr : HasRoom c.bpf.ask.2) :
    c'.bpf.tx = c.bpf.tx ∧ c'.bpf.txPolloutRegistered = c.bpf.txPolloutRegistered := by
  obtain ⟨_, c₂, h₂, h⟩ := bind_ok.mp h
  obtain ⟨r, c₁, h₁, h₂⟩ := bind_ok.mp h₂
  cases h
  have hinj : Injected c c₁ := by
    split at h₁
    · exact injected_sessionInjectPkt _ _ _ _ _ h₁
    · exact sessionUpdateInner_room h₁ hr
  have hboth : c₁.bpf.tx = c.bpf.tx ∧ c₁.bpf.txPolloutRegistered = c.bpf.txPolloutRegistered :=
    ⟨hinj.sameQueue.tx, hinj.registered⟩
  cases r with
  | error e =>
    cases h₂
    exact hboth
  | ok _ =>
    obtain ⟨-, rfl⟩ := pure_ok.mp h₂
    exact hboth

theorem queue_unlink {tx : Tx} {slot : TxSlot} (hk : ∀ kind, ∀ ref ∈ listOf tx kind, ref.kind = kind)
    (hp : peek tx = some ref) (hl : slot.linked = true) (hf : slot.isFinal = decide (ref.kind = .final)) :
    queue tx = ref :: queue (unlink tx ref slot).1 := by
  obtain ⟨finals, periodics, nf, np⟩ := tx
  cases finals with
  | cons r rs =>
    cases hp
    have hkind : ref.kind = .final := hk .final ref List.mem_cons_self
    simp [queue, unlink, hl, hf, hkind]
  | nil =>
    obtain ⟨rs, rfl⟩ := List.head?_eq_some_iff.mp hp
    have hkind : ref.kind = .periodic := hk .periodic ref List.mem_cons_self
    simp [queue, unlink, hl, hf, hkind]

/-- The sent counter is not behind the released one when a slot is taken, up to
the check its session makes for itself. -/
def Ahead (w : World) : Prop :=
  (peek w.bpf.tx).isSome = true → HasRoom w.asked.bpf → w.asked.asked.bpf.released ≤ w.asked.asked.bpf.sent

def DrainTurn (w : World) (ref : SlotRef) (v : World) : Prop :=
  peek w.bpf.tx = some ref ∧ HasRoom w.asked.bpf ∧ takeSlot ref w.asked = .ok ((), v)

structure Drainable (w : World) : Prop where
  sound : Sound w
  books : Books w.bpf

theorem turn_runs (hw : Drainable w) (ha : Ahead w) (hp : peek w.bpf.tx = some ref)
    (hr : HasRoom w.asked.bpf) :
    ∃ v, DrainTurn w ref v ∧ Drainable v ∧ queue w.bpf.tx = ref :: queue v.bpf.tx ∧
      v.bpf.txPolloutRegistered = w.bpf.txPolloutRegistered := by
  have hask : Step .shared w w.asked := .shared (.ask _)
  have hw₁ := hask.sound hw.sound
  have hb₁ := hask.books hw.sound hw.books
  obtain ⟨c, c', hc, hl, hrun, ht⟩ := takeSlot_runs hw₁ hp
  have hstep := Step.handled hc (.drain ref.kind hl hrun)
  have hok := hw₁.session _ c hc
  have hbpf := (session_eq_some.mp hc).2.2
  have hroom : HasRoom c.bpf.ask.2 := by
    rw [hbpf]
    exact hasRoom_ask hb₁ hr (ha (by rw [hp]; rfl) hr)
  obtain ⟨htx, hreg⟩ := drainSlot_keeps hrun hroom
  refine ⟨_, ⟨hp, hr, ht⟩, ⟨hstep.sound hw₁, hstep.books hw₁ hb₁⟩, ?_, ?_⟩
  · have hname : c.bsess.discr = ref.owner := hok.name
    have hunlink : c'.bpf.tx = (unlink w.bpf.tx ref (slotOf c.bsess ref.kind)).1 := by
      rw [htx, Ctx.unlinked, hname, hbpf]
      rfl
    rw [World.put, hunlink]
    exact queue_unlink hw.sound.tx_kinds.1 hp hl (hok.queue.slots _ hl).isFinal
  · rw [World.put, hreg, Ctx.unlinked, Ctx.withSlot, hbpf]
    rfl

/-- A run of the loop, with the slots it took in their order. It ends when
there is none left, and then the socket is no longer watched, or when a check
finds no room. -/
inductive DrainRun : World → List SlotRef → World → Prop
  | empty {w : World} : peek w.bpf.tx = none → DrainRun w [] (w.setBpf (txPolloutDisarm w.bpf))
  | full {w : World} {ref : SlotRef} : peek w.bpf.tx = some ref → ¬ HasRoom w.asked.bpf → DrainRun w [] w.asked
  | turn {w v w' : World} {ref : SlotRef} {served : List SlotRef} : DrainTurn w ref v →
      DrainRun v served w' → DrainRun w (ref :: served) w'

theorem DrainRun.run {served : List SlotRef} (h : DrainRun w served w') {bound : Nat}
    (hb : served.length < bound) :
    txDrain bound w = .ok (some (), w') := by
  induction h generalizing bound with
  | empty hp =>
    cases bound with
    | zero => cases hb
    | succ n => exact txDrain_empty n hp
  | full hp hr =>
    cases bound with
    | zero => cases hb
    | succ n => exact txDrain_full n hp hr
  | turn ht _ ih =>
    cases bound with
    | zero => cases hb
    | succ n =>
      rw [txDrain_turn n ht.1 ht.2.1 ht.2.2]
      exact ih (Nat.lt_of_succ_lt_succ hb)

theorem DrainRun.short {served : List SlotRef} (h : DrainRun w served w') {bound : Nat}
    (hb : bound ≤ served.length) :
    ∃ v, txDrain bound w = .ok (none, v) := by
  induction h generalizing bound with
  | empty _ | full _ _ =>
    cases Nat.le_zero.mp hb
    exact ⟨_, rfl⟩
  | turn ht _ ih =>
    cases bound with
    | zero => exact ⟨_, rfl⟩
    | succ n =>
      rw [txDrain_turn n ht.1 ht.2.1 ht.2.2]
      exact ih (Nat.le_of_succ_le_succ hb)

/-- How a drain ends: with nothing queued and the socket no longer watched, or
with the socket watched and no room at the last check. -/
def Ended (b : Bpf) : Prop :=
  pending b.tx = false ∧ b.txPolloutRegistered = false ∨
    pending b.tx = true ∧ b.txPolloutRegistered = true ∧ ¬ HasRoom b

def Heads : World → World → Prop := Relation.ReflTransGen (fun u v => ∃ ref, DrainTurn u ref v)

theorem drainRun_exists (hw : Drainable w) (hreg : w.bpf.txPolloutRegistered = true)
    (ha : ∀ v, Heads w v → Ahead v) :
    ∃ served w', DrainRun w served w' ∧ queue w.bpf.tx = served ++ queue w'.bpf.tx ∧ Ended w'.bpf := by
  induction hq : queue w.bpf.tx generalizing w with
  | nil =>
    have hp : peek w.bpf.tx = none := by rw [peek_eq_head?, hq]; rfl
    refine ⟨[], _, .empty hp, hq.symm, .inl ⟨?_, rfl⟩⟩
    change pending w.bpf.tx = false
    rw [pending_eq_peek, hp]
    rfl
  | cons ref rest ih =>
    have hp : peek w.bpf.tx = some ref := by rw [peek_eq_head?, hq]; rfl
    by_cases hr : HasRoom w.asked.bpf
    · obtain ⟨v, ht, hv, hqv, hrv⟩ := turn_runs hw (ha w .refl) hp hr
      have hrest : queue v.bpf.tx = rest := by
        rw [hq] at hqv
        exact (List.cons.inj hqv).2.symm
      obtain ⟨served, w', hd, hs, he⟩ := ih hv (hrv.trans hreg) (fun u hu => ha u (.head ⟨ref, ht⟩ hu)) hrest
      exact ⟨ref :: served, w', .turn ht hd, by rw [hs, List.cons_append], he⟩
    · refine ⟨[], _, .full hp hr, hq.symm, .inr ⟨?_, hreg, hr⟩⟩
      change pending w.bpf.tx = true
      rw [pending_eq_peek, hp]
      rfl

theorem ahead_of_single (hw : Drainable w) (ha : Ahead w) (hq : queue w.bpf.tx = [ref]) :
    ∀ v, Heads w v → Ahead v := by
  intro v hv
  obtain rfl | ⟨u, ⟨r, ht⟩, hu⟩ := hv.cases_head
  · exact ha
  · obtain ⟨u', ht', -, hqu, -⟩ := turn_runs hw ha ht.1 ht.2.1
    cases Except.ok.inj (ht.2.2.symm.trans ht'.2.2)
    have hp : peek u.bpf.tx = none := by
      rw [hq] at hqu
      rw [peek_eq_head?, ← (List.cons.inj hqu).2]
      rfl
    obtain rfl | ⟨x, ⟨r', hx⟩, -⟩ := hu.cases_head
    · intro hs
      rw [hp] at hs
      cases hs
    · cases hp.symm.trans hx.1

end

theorem Sound.queue_nodup {w : World} (hw : Sound w) : (queue w.bpf.tx).Nodup := by
  refine List.nodup_append.mpr ⟨hw.tx_kinds.2 .final, hw.tx_kinds.2 .periodic, ?_⟩
  rintro a ha b hb rfl
  exact absurd ((hw.tx_kinds.1 .final a ha).symm.trans (hw.tx_kinds.1 .periodic a hb)) (by decide)

theorem drainable_of_reachable {w : World} (hw : Reachable daemon w) (env : Env) :
    Drainable (w.enter env) :=
  ⟨(reachable_sound hw).enter env, (reachable_books hw).idle { Idle.refl w.bpf with }⟩

def DrainsAhead (w : World) (l : Env × Event) : Prop :=
  ∀ bound, l.2 = .pollout bound → w.bpf.txPolloutRegistered = true ∧ ∀ v, Heads (w.enter l.1) v → Ahead v

theorem ahead_follows {w w' : World} {l : Env × Event} (hw : Reachable daemon w) (ho : DrainsAhead w l)
    (h : daemon.step w l w') (kind : SlotKind) :
    ∃ stays, Follows stays (listOf w.bpf.tx kind) (listOf w'.bpf.tx kind) := by
  have hs := reachable_sound hw
  obtain ⟨env, e⟩ := l
  by_cases he : ∃ bound, e = .pollout bound
  · obtain ⟨bound, rfl⟩ := he
    obtain ⟨hreg, ha⟩ := ho bound rfl
    obtain ⟨served, v, hd, hq, -⟩ := drainRun_exists (drainable_of_reachable hw env) hreg ha
    have hrun : txDrain bound (w.enter env) = .ok (some (), w') := h
    have hv : v = w' := by
      obtain hb | hb := Nat.lt_or_ge served.length bound
      · cases (hd.run hb).symm.trans hrun
        rfl
      · obtain ⟨u, hu⟩ := hd.short hb
        cases hu.symm.trans hrun
    subst hv
    exact ⟨_, .of_served hq hs.queue_nodup hs.tx_kinds.1 (step_sound hs h).tx_kinds.1 kind⟩
  · exact ⟨_, step_follows hs h (fun bound hb => he ⟨bound, hb⟩) kind⟩

/-- A run during which a slot is queued all the time. -/
inductive Waiting (ref : SlotRef) (w : World) : World → Prop
  | refl : ref ∈ listOf w.bpf.tx ref.kind → Waiting ref w w
  | step {v w' : World} {l : Env × Event} : Waiting ref w v → DrainsAhead v l → daemon.step v l w' →
      ref ∈ listOf w'.bpf.tx ref.kind → Waiting ref w w'

theorem Waiting.leads {w w' : World} {a b : SlotRef} (h : Waiting a w w') (hw : Reachable daemon w)
    (hb : b ∉ listOf w.bpf.tx a.kind) : Reachable daemon w' ∧ Leads a b (listOf w'.bpf.tx a.kind) := by
  induction h with
  | refl hm => exact ⟨hw, hm, fun hb' => absurd hb' hb⟩
  | step _ ho hs hm ih =>
    obtain ⟨hv, hl⟩ := ih
    obtain ⟨stays, hf⟩ := ahead_follows hv ho hs a.kind
    exact ⟨hv.next hs, hf.leads hl hm⟩

/-- The queue as it is kept between events: a slot is in the list of its kind
once while it is linked, and nowhere else; the counters are the lengths; and
what is listed belongs to a session. -/
structure Filed (w : World) : Prop where
  linked : ∀ d c, w.session d = some c → ∀ kind k,
    (listOf w.bpf.tx k).count ⟨d, kind⟩ = if k = kind ∧ (slotOf c.bsess kind).linked = true then 1 else 0
  kinds : ∀ kind, ∀ ref ∈ listOf w.bpf.tx kind, ref.kind = kind
  nfinals : w.bpf.tx.nfinals = w.bpf.tx.finals.length
  nperiodics : w.bpf.tx.nperiodics = w.bpf.tx.periodics.length
  owned : ∀ kind, ∀ ref ∈ listOf w.bpf.tx kind, (w.session ref.owner).isSome = true

theorem Sound.filed {w : World} (hw : Sound w) (ht : Tallied w.bpf.tx) : Filed w where
  linked := by
    intro d c hc kind k
    have hok := hw.session d c hc
    have hbpf := (session_eq_some.mp hc).2.2
    have hmem : ⟨d, kind⟩ ∈ listOf w.bpf.tx k ↔ k = kind ∧ (slotOf c.bsess kind).linked = true := by
      constructor
      · intro hm
        cases (hw.tx_kinds.1 k _ hm : kind = k)
        rw [← hok.queue.linked kind, hok.name, hbpf]
        exact ⟨rfl, hm⟩
      · rintro ⟨rfl, hl⟩
        rw [← hbpf, ← hok.name]
        exact (hok.queue.linked k).mpr hl
    by_cases hin : ⟨d, kind⟩ ∈ listOf w.bpf.tx k
    · rw [if_pos (hmem.mp hin)]
      exact List.count_eq_one_of_mem (hw.tx_kinds.2 k) hin
    · rw [if_neg (fun h => hin (hmem.mpr h))]
      exact List.count_eq_zero_of_not_mem hin
  kinds := hw.tx_kinds.1
  nfinals := ht.finals
  nperiodics := ht.periodics
  owned := hw.queued

/-- The deferred packets. In every state between events the queue is in order,
and while the system grants every request to watch the socket, it is watched
as long as something is queued. Outside of a drain a slot leaves its list only
with its session, and what is queued while it waits stays behind it. A drain
of a watched socket ends, whatever is sent or released meanwhile; it takes the
slots from the front, the Finals first and each of them once. -/
theorem queue_contract {w : World} (hw : Reachable daemon w) :
    Filed w ∧
    (Run daemon Grants w → pending w.bpf.tx = true → w.bpf.txPolloutRegistered = true) ∧
    (∀ env e w', daemon.step w (env, e) w' → (∀ bound, e ≠ .pollout bound) → ∀ kind,
      Follows (fun ref => (w'.session ref.owner).isSome) (listOf w.bpf.tx kind) (listOf w'.bpf.tx kind)) ∧
    (∀ a b w', Waiting a w w' → b ∉ listOf w.bpf.tx a.kind → b ∈ listOf w'.bpf.tx a.kind →
      [a, b].Sublist (listOf w'.bpf.tx a.kind)) ∧
    ∀ env, w.bpf.txPolloutRegistered = true → (∀ v, Heads (w.enter env) v → Ahead v) →
      ∃ served w', DrainRun (w.enter env) served w' ∧
        (∀ bound, served.length < bound → run w env (.pollout bound) = .ok (some (), w')) ∧
        w.bpf.tx.finals ++ w.bpf.tx.periodics = served ++ (w'.bpf.tx.finals ++ w'.bpf.tx.periodics) ∧
        served.Nodup ∧ Ended w'.bpf := by
  have hs := reachable_sound hw
  refine ⟨hs.filed (reachable_tallied hw), run_watched, ?_, ?_, ?_⟩
  · intro env e w' hstep he
    exact step_follows hs hstep he
  · intro a b w' hwait hb
    exact (hwait.leads hw hb).2.2
  · intro env hreg ha
    obtain ⟨served, w', hd, hq, he⟩ := drainRun_exists (drainable_of_reachable hw env) hreg ha
    have hnodup : (queue w.bpf.tx).Nodup := hs.queue_nodup
    exact ⟨served, w', hd, fun bound hb => hd.run hb, hq, (List.nodup_append.mp (hq ▸ hnodup)).1, he⟩

theorem queue_contract_up : ∃ w, w.bpf.tx.finals ++ w.bpf.tx.periodics = [⟨5, .periodic⟩] ∧ Filed w ∧
    ∃ served w', (∀ bound, served.length < bound → run w .plain (.pollout bound) = .ok (some (), w')) ∧
      [⟨5, .periodic⟩] = served ++ (w'.bpf.tx.finals ++ w'.bpf.tx.periodics) ∧ Ended w'.bpf := by
  obtain ⟨w, -, hw, -, hq, hreg, hrel⟩ := exists_replayed (inPlain (bringUp ++ [.kernel (.pass 0 routed)]))
    (P := fun w _ => queue w.bpf.tx = [⟨5, .periodic⟩] ∧ w.bpf.txPolloutRegistered = true ∧
      (w.enter .plain).asked.asked.bpf.released ≤ (w.enter .plain).asked.asked.bpf.sent) (by decide +kernel)
  obtain ⟨hfiled, -, -, -, hdrain⟩ := queue_contract hw
  have hahead := ahead_of_single (drainable_of_reachable hw .plain) (fun _ _ => hrel) hq
  obtain ⟨served, w', -, hrun, hserved, -, he⟩ := hdrain .plain hreg hahead
  exact ⟨w, hq, hfiled, served, w', hrun, hq ▸ hserved, he⟩

end Bbdd.Daemon
