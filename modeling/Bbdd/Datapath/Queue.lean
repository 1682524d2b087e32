import Bbdd.Datapath.Timers

namespace Bbdd.Datapath

open Lib.Program Packet Session Prog TxQueue

/-- A queued slot names its owner and its kind. -/
structure SlotOk (discr : UInt32) (kind : SlotKind) (slot : TxSlot) : Prop where
  discr : slot.discr = discr
  veth : slot.txIfindex = .tx
  isFinal : slot.isFinal = decide (kind = .final)
  flags : hasBit slot.bfdFlags bitFinal = slot.isFinal

/-- The transmit queue, as far as one session relies on it: its slots are
listed exactly while they are linked. -/
structure QueueOk (c : Ctx) : Prop where
  discr : c.dsess.localData.discr = c.bsess.discr
  kinds : ∀ kind, ∀ ref ∈ listOf c.bpf.tx kind, ref.kind = kind
  nodup : ∀ kind, (listOf c.bpf.tx kind).Nodup
  linked : ∀ kind, ⟨c.bsess.discr, kind⟩ ∈ listOf c.bpf.tx kind ↔ (slotOf c.bsess kind).linked = true
  slots : ∀ kind, (slotOf c.bsess kind).linked = true → SlotOk c.bsess.discr kind (slotOf c.bsess kind)

/-- What a handler of one session leaves to the others, and keeps of its own. -/
structure QueueApart (c c' : Ctx) : Prop where
  discr : c'.bsess.discr = c.bsess.discr
  ldiscr : c'.dsess.localData.discr = c.dsess.localData.discr
  port : c'.dsess.src.port = c.dsess.src.port
  dport : BfdPort c.dsess → BfdPort c'.dsess
  addressed : Addressed c.dsess → Addressed c'.dsess
  others : ∀ kind ref, ref.owner ≠ c.bsess.discr → (ref ∈ listOf c'.bpf.tx kind ↔ ref ∈ listOf c.bpf.tx kind)

theorem QueueApart.refl (c : Ctx) : QueueApart c c := ⟨rfl, rfl, rfl, id, id, fun _ _ _ => Iff.rfl⟩

theorem QueueApart.trans {a b c : Ctx} (h : QueueApart a b) (k : QueueApart b c) : QueueApart a c where
  discr := k.discr.trans h.discr
  ldiscr := k.ldiscr.trans h.ldiscr
  port := k.port.trans h.port
  dport := k.dport ∘ h.dport
  addressed := k.addressed ∘ h.addressed
  others := fun kind ref hr => (k.others kind ref (by rwa [h.discr])).trans (h.others kind ref hr)

section

variable {c c' : Ctx}

/-- A step that leaves the queue, the slots and the names alone. -/
structure SameQueue (c c' : Ctx) : Prop where
  discr : c'.bsess.discr = c.bsess.discr
  ldiscr : c'.dsess.localData.discr = c.dsess.localData.discr
  port : c'.dsess.src.port = c.dsess.src.port
  dport : BfdPort c.dsess → BfdPort c'.dsess
  addressed : Addressed c.dsess → Addressed c'.dsess
  tx : c'.bpf.tx = c.bpf.tx
  slots : ∀ kind, slotOf c'.bsess kind = slotOf c.bsess kind

theorem SameQueue.queue (h : SameQueue c c') (hc : QueueOk c) : QueueOk c' ∧ QueueApart c c' := by
  obtain ⟨h₁, h₂, h₃, h₄, h₅⟩ := hc
  refine ⟨⟨?_, ?_, ?_, ?_, ?_⟩, ⟨h.discr, h.ldiscr, h.port, h.dport, h.addressed, fun _ _ _ => by rw [h.tx]⟩⟩
  · rw [h.ldiscr, h.discr]; exact h₁
  · rw [h.tx]; exact h₂
  · rw [h.tx]; exact h₃
  · intro kind; rw [h.tx, h.slots, h.discr]; exact h₄ kind
  · intro kind; rw [h.slots, h.discr]; exact h₅ kind

theorem Injected.sameQueue (h : Injected c c') : SameQueue c c' := by
  obtain ⟨hd, ⟨g, n, us, hb⟩, ⟨kn, ds, ss, hs, tk, hp⟩⟩ := h
  exact ⟨by rw [hb], by rw [hd], by rw [hd], by
    rw [hd]; exact id, by rw [hd]; exact id, by rw [hp], fun kind => by rw [hb]; cases kind <;> rfl⟩

theorem Timed.sameQueue (h : Timed c c') : SameQueue c c' := by
  obtain ⟨hd, ⟨s, o, hb⟩, ⟨evs, t, n, tk, out, ar, hp⟩⟩ := h
  exact ⟨by rw [hb], by rw [hd], by rw [hd], by
    rw [hd]; exact id, by rw [hd]; exact id, by rw [hp], fun kind => by rw [hb]; cases kind <;> rfl⟩

theorem Writes.sameQueue (h : Writes c c') : SameQueue c c' :=
  ⟨h.bdiscr, h.discr, h.port, h.dport, h.addressed, by rw [h.bpf],
    fun kind => by cases kind <;> [exact h.finalSlot; exact h.periodicSlot]⟩

def Ctx.withSlot (c : Ctx) (tx : Tx) (slot : TxSlot) (kind : SlotKind) : Ctx :=
  { c with bpf := { c.bpf with tx := tx }, bsess := setSlot c.bsess slot kind }

theorem Ctx.withSlot_self (c : Ctx) (kind : SlotKind) :
    c.withSlot c.bpf.tx (slotOf c.bsess kind) kind = c := by
  cases kind <;> rfl

theorem QueueOk.withSlot (h : QueueOk c) {tx : Tx} {slot : TxSlot} {kind : SlotKind}
    (hrest : ∀ k, k ≠ kind → listOf tx k = listOf c.bpf.tx k) (hkinds : ∀ ref ∈ listOf tx kind, ref.kind = kind)
    (hnodup : (listOf tx kind).Nodup) (hlinked : ⟨c.bsess.discr, kind⟩ ∈ listOf tx kind ↔ slot.linked = true)
    (hslot : slot.linked = true → SlotOk c.bsess.discr kind slot)
    (hothers : ∀ ref, ref.owner ≠ c.bsess.discr → (ref ∈ listOf tx kind ↔ ref ∈ listOf c.bpf.tx kind)) :
    QueueOk (c.withSlot tx slot kind) ∧ QueueApart c (c.withSlot tx slot kind) := by
  simp only [Ctx.withSlot]
  refine ⟨⟨by simpa using h.discr, fun k => ?_, fun k => ?_, fun k => ?_, fun k => ?_⟩,
    ⟨by simp, rfl, rfl, id, id, fun k => ?_⟩⟩
  · by_cases hk : k = kind
    · exact hk ▸ hkinds
    · rw [hrest k hk]
      exact h.kinds k
  · by_cases hk : k = kind
    · exact hk ▸ hnodup
    · rw [hrest k hk]
      exact h.nodup k
  · rw [slotOf_setSlot, setSlot_discr]
    split
    · rename_i hk
      exact hk ▸ hlinked
    · rename_i hk
      rw [hrest k hk]
      exact h.linked k
  · rw [slotOf_setSlot, setSlot_discr]
    split
    · rename_i hk
      exact hk ▸ hslot
    · exact h.slots k
  · by_cases hk : k = kind
    · exact hk ▸ hothers
    · rw [hrest k hk]
      exact fun _ _ => Iff.rfl

def Ctx.enqueued (c : Ctx) (kind : SlotKind) (flags : UInt8) : Bool × Tx × TxSlot :=
  enqueue c.bpf.tx ⟨c.bsess.discr, kind⟩ (slotOf c.bsess kind) (decide (kind = .final))
    c.dsess.localData.discr .tx flags

theorem QueueOk.enqueued (h : QueueOk c) (kind : SlotKind) {flags : UInt8}
    (hf : hasBit flags bitFinal = decide (kind = .final)) :
    QueueOk (c.withSlot (c.enqueued kind flags).2.1 (c.enqueued kind flags).2.2 kind) ∧
      QueueApart c (c.withSlot (c.enqueued kind flags).2.1 (c.enqueued kind flags).2.2 kind) := by
  cases hl : (slotOf c.bsess kind).linked with
  | true =>
    rw [Ctx.enqueued, enqueue_linked _ _ _ _ _ hl, c.withSlot_self]
    exact ⟨h, .refl c⟩
  | false =>
    have hlist : ∀ k, listOf (c.enqueued kind flags).2.1 k =
        if k = kind then listOf c.bpf.tx k ++ [⟨c.bsess.discr, kind⟩] else listOf c.bpf.tx k :=
      fun k => listOf_enqueue _ _ _ _ _ _ hl _ k
    have hslot : (c.enqueued kind flags).2.2 =
      ⟨c.dsess.localData.discr, .tx, flags, true, decide (kind = .final)⟩ :=
      enqueue_slot _ _ _ _ _ hl _ _
    have hnew : (⟨c.bsess.discr, kind⟩ : SlotRef) ∉ listOf c.bpf.tx kind := by
      rw [h.linked kind, hl]
      exact Bool.false_ne_true
    have hmine := hlist kind
    rw [if_pos rfl] at hmine
    refine h.withSlot (fun k hk => by rw [hlist, if_neg hk]) ?_ ?_ ?_ (fun _ => ?_) ?_
    · intro ref hr
      rw [hmine, List.mem_append, List.mem_singleton] at hr
      obtain hr | rfl := hr
      · exact h.kinds kind ref hr
      · rfl
    · rw [hmine]
      exact List.nodup_append.mpr ⟨h.nodup kind, List.nodup_singleton _, fun a ha b hb he =>
        hnew (List.mem_singleton.mp hb ▸ he ▸ ha)⟩
    · simp [hmine, hslot]
    · rw [hslot]
      exact ⟨h.discr, rfl, rfl, hf⟩
    · intro ref hr
      rw [hmine, List.mem_append, List.mem_singleton]
      exact ⟨fun hm => hm.resolve_right (fun he => hr (by rw [he])), .inl⟩

def Ctx.unlinked (c : Ctx) (kind : SlotKind) : Ctx :=
  c.withSlot (unlink c.bpf.tx ⟨c.bsess.discr, kind⟩ (slotOf c.bsess kind)).1
    (unlink c.bpf.tx ⟨c.bsess.discr, kind⟩ (slotOf c.bsess kind)).2 kind

theorem QueueOk.unlinked (h : QueueOk c) (kind : SlotKind) :
    QueueOk (c.unlinked kind) ∧ QueueApart c (c.unlinked kind) := by
  cases hl : (slotOf c.bsess kind).linked with
  | false =>
    rw [Ctx.unlinked, unlink_unlinked _ _ hl, c.withSlot_self]
    exact ⟨h, .refl c⟩
  | true =>
    have hlist : ∀ k, listOf (unlink c.bpf.tx ⟨c.bsess.discr, kind⟩ (slotOf c.bsess kind)).1 k =
        if k = kind then (listOf c.bpf.tx k).erase ⟨c.bsess.discr, kind⟩ else listOf c.bpf.tx k :=
      fun k => listOf_unlink _ _ _ hl (h.slots kind hl).isFinal _ k
    have hslot := unlink_slot c.bpf.tx _ hl ⟨c.bsess.discr, kind⟩
    have hmine := hlist kind
    rw [if_pos rfl] at hmine
    refine h.withSlot (fun k hk => by rw [hlist, if_neg hk]) ?_ ?_ ?_ (fun hs => ?_) ?_
    · intro ref hr
      rw [hmine] at hr
      exact h.kinds kind ref (List.mem_of_mem_erase hr)
    · rw [hmine]
      exact (h.nodup kind).erase _
    · simp [hmine, hslot, (h.nodup kind).mem_erase_iff]
    · rw [hslot] at hs
      exact absurd hs Bool.false_ne_true
    · intro ref hr
      rw [hmine]
      exact List.mem_erase_of_ne (fun he => hr (by rw [he]))

theorem unlinked_slot (c : Ctx) (kind : SlotKind) :
    (slotOf (c.unlinked kind).bsess kind).linked = false := by
  rw [Ctx.unlinked, Ctx.withSlot, slotOf_setSlot, if_pos rfl]
  cases hl : (slotOf c.bsess kind).linked with
  | false => rw [unlink_unlinked _ _ hl, hl]
  | true => rw [unlink_slot _ _ hl]

theorem txUnlink_ok {kind : SlotKind} (h : txUnlink kind c = .ok ((), c')) : c' = c.unlinked kind := by
  cases h
  rfl

theorem txEnqueue_ok {kind : SlotKind} {flags : UInt8}
    (h : txEnqueue kind (decide (kind = .final)) flags c = .ok ((), c')) :
    ∃ diagStats, diagStats .skSentCount = c.bpf.diagStats .skSentCount ∧
      Timed { c.withSlot (c.enqueued kind flags).2.1 (c.enqueued kind flags).2.2 kind with
        bpf := { c.bpf with tx := (c.enqueued kind flags).2.1, diagStats := diagStats } } c' := by
  have hw := wp_of_ok h
  simp only [txEnqueue, onBpf, onBsess, wp_bind, wp_read, wp_update, wp_whenever] at hw
  split at hw
  · obtain ⟨_, c₁, ha, -, rfl⟩ := hw
    exact ⟨_, by simp, timed_txPolloutArm _ _ _ ha⟩
  · obtain ⟨_, c₁, ha, -, rfl⟩ := hw
    exact ⟨c.bpf.diagStats, rfl, timed_txPolloutArm _ _ _ ha⟩

theorem Move.queue {own : Option UInt32} (h : Move own c c') (hc : QueueOk c) :
    QueueOk c' ∧ QueueApart c c' := by
  have same : ∀ {c' : Ctx}, SameQueue c c' → QueueOk c' ∧ QueueApart c c' := fun h => h.queue hc
  cases h with
  | ask h => exact same (injected_ask _ _ _ h).sameQueue
  | inject veth flags _ h => exact same (injected_sessionInjectPkt _ _ _ _ _ h).sameQueue
  | update inject _ h => exact same (injected_updateNow _ _ _ _ h).sameQueue
  | shwaitStop h => exact same (timed_shwaitStop _ _ _ h).sameQueue
  | shwaitStart h => exact same (timed_shwaitStart _ _ _ h).sameQueue
  | holdStop h => exact same (timed_holdStop _ _ _ h).sameQueue
  | holdStart h => exact same (timed_holdStart _ _ _ h).sameQueue
  | write h => exact same h.sameQueue
  | output | dequeued | capacity | maps | fired => exact same ⟨rfl, rfl, rfl, id, id, rfl, fun _ => rfl⟩
  | enqueue kind flags hf h =>
    rw [hf] at h
    obtain ⟨diagStats, -, ht⟩ := txEnqueue_ok h
    obtain ⟨hok, hap⟩ := hc.enqueued kind hf
    have hq := ht.sameQueue.queue ⟨hok.discr, hok.kinds, hok.nodup, hok.linked, hok.slots⟩
    exact ⟨hq.1, hap.trans ⟨hq.2.discr, hq.2.ldiscr, hq.2.port, hq.2.dport, hq.2.addressed, hq.2.others⟩⟩
  | unlink kind h =>
    rw [txUnlink_ok h]
    exact hc.unlinked kind

theorem Moves.queue {own : Option UInt32} (h : Moves own c c') (hc : QueueOk c) :
    QueueOk c' ∧ QueueApart c c' :=
  keeps_of_moves (I := fun d => QueueOk d ∧ QueueApart c d)
    (fun _ _ hm hd => ⟨(hm.queue hd.1).1, hd.2.trans (hm.queue hd.1).2⟩) h ⟨hc, .refl c⟩

end

end Bbdd.Datapath
