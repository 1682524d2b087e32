import Bbdd.Datapath.Queue
import Mathlib.Data.List.Perm.Subperm

namespace Bbdd.Datapath

open Lib.Program Packet Session TxQueue

def queue (tx : Tx) : List SlotRef := tx.finals ++ tx.periodics

theorem peek_eq_head? (tx : Tx) : peek tx = (queue tx).head? := by
  obtain ⟨finals, periodics, _, _⟩ := tx
  cases finals <;> rfl

theorem listOf_eq_filter {tx : Tx} (hk : ∀ kind, ∀ ref ∈ listOf tx kind, ref.kind = kind)
    (kind : SlotKind) :
    listOf tx kind = (queue tx).filter (fun ref => decide (ref.kind = kind)) := by
  have hf : ∀ k, (listOf tx k).filter (fun ref => decide (ref.kind = kind)) = if k = kind
    then listOf tx k else [] := by
    intro k
    split
    · rename_i he
      exact List.filter_eq_self.mpr (fun ref hr => decide_eq_true ((hk k ref hr).trans he))
    · rename_i hne
      exact List.filter_eq_nil_iff.mpr (fun ref hr he => hne ((hk k ref hr).symm.trans (of_decide_eq_true he)))
  have hq : queue tx = listOf tx .final ++ listOf tx .periodic := rfl
  rw [hq, List.filter_append, hf, hf]
  cases kind <;> simp

structure Tallied (tx : Tx) : Prop where
  finals : tx.nfinals = tx.finals.length
  periodics : tx.nperiodics = tx.periodics.length

def Follows (stays : SlotRef → Bool) (l l' : List SlotRef) : Prop :=
  ∃ new, l' = l.filter stays ++ new ∧ ∀ ref ∈ new, ref ∉ l

section

variable {stays alive : SlotRef → Bool} {l l' l'' : List SlotRef} {a b : SlotRef}

theorem Follows.of_grown (h : l <+: l') (hn : l'.Nodup) (hs : ∀ ref ∈ l, stays ref = true) :
    Follows stays l l' := by
  obtain ⟨new, rfl⟩ := h
  refine ⟨new, by rw [List.filter_eq_self.mpr hs], fun ref hr hm => ?_⟩
  exact (List.nodup_append.mp hn).2.2 ref hm ref hr rfl

theorem Follows.of_sublist (h : l'.Sublist l) (hn : l.Nodup)
    (hs : ∀ ref, ref ∈ l' ↔ ref ∈ l ∧ stays ref = true) :
    Follows stays l l' := by
  have hsub : l'.Sublist (l.filter stays) := by
    have hf := h.filter stays
    rwa [List.filter_eq_self.mpr (fun ref hr => ((hs ref).mp hr).2)] at hf
  have hle : (l.filter stays).length ≤ l'.length := by
    apply List.Subperm.length_le
    apply List.subperm_of_subset (hn.filter stays)
    exact fun ref hr => (hs ref).mpr (List.mem_filter.mp hr)
  exact ⟨[], by rw [List.append_nil, hsub.eq_of_length_le hle], by simp⟩

theorem Follows.of_served {tx tx' : Tx} {served : List SlotRef}
    (hq : queue tx = served ++ queue tx') (hn : (queue tx).Nodup)
    (hk : ∀ kind, ∀ ref ∈ listOf tx kind, ref.kind = kind)
    (hk' : ∀ kind, ∀ ref ∈ listOf tx' kind, ref.kind = kind) (kind : SlotKind) :
    Follows (fun ref => decide (ref ∉ served)) (listOf tx kind) (listOf tx' kind) := by
  rw [hq] at hn
  rw [listOf_eq_filter hk, listOf_eq_filter hk', hq]
  refine .of_sublist ?_ (hn.filter _) (fun ref => ?_)
  · rw [List.filter_append]
    exact List.sublist_append_right _ _
  · simp only [List.mem_filter, List.mem_append, decide_eq_true_eq]
    constructor
    · rintro ⟨hm, hkind⟩
      exact ⟨⟨.inr hm, hkind⟩, fun hs => (List.nodup_append.mp hn).2.2 ref hs ref hm rfl⟩
    · rintro ⟨⟨hm, hkind⟩, hs⟩
      exact ⟨hm.resolve_left hs, hkind⟩

theorem Follows.trans (h : Follows stays l l') (k : Follows alive l' l'')
    (hs : ∀ ref ∈ l, alive ref = true → stays ref = true) (ha : ∀ ref ∈ l'', alive ref = true) :
    Follows alive l l'' := by
  obtain ⟨new, rfl, hnew⟩ := h
  obtain ⟨new', rfl, hnew'⟩ := k
  refine ⟨new.filter alive ++ new', ?_, fun ref hr hm => ?_⟩
  · rw [List.filter_append, List.filter_filter, List.append_assoc]
    congr 1
    apply List.filter_congr
    intro ref hr
    cases hal : alive ref with
    | false => rfl
    | true => rw [hs ref hr hal, Bool.and_true]
  · obtain hr | hr := List.mem_append.mp hr
    · exact hnew ref (List.mem_filter.mp hr).1 hm
    · have hal := ha ref (List.mem_append_right _ hr)
      exact hnew' ref hr (List.mem_append_left _ (List.mem_filter.mpr ⟨hm, hs ref hm hal⟩))

def Leads (a b : SlotRef) (l : List SlotRef) : Prop := a ∈ l ∧ (b ∈ l → [a, b].Sublist l)

theorem Follows.leads (h : Follows stays l l') (hl : Leads a b l) (ha : a ∈ l') : Leads a b l' := by
  obtain ⟨new, rfl, hnew⟩ := h
  have hstay : ∀ {ref}, ref ∈ l → ref ∈ l.filter stays ++ new → ref ∈ l.filter stays :=
    fun hm hr => (List.mem_append.mp hr).resolve_right (fun hn => hnew _ hn hm)
  have ha' := hstay hl.1 ha
  refine ⟨ha, fun hb => ?_⟩
  by_cases hbl : b ∈ l
  · have hb' := hstay hbl hb
    have hf := (hl.2 hbl).filter stays
    rw [List.filter_eq_self.mpr (by simp [List.of_mem_filter ha', List.of_mem_filter hb'])] at hf
    exact hf.trans (List.sublist_append_left _ _)
  · have hb' := (List.mem_append.mp hb).resolve_left (fun hm => hbl (List.mem_filter.mp hm).1)
    exact (List.singleton_sublist.mpr ha').append (List.singleton_sublist.mpr hb')

end

section

variable {tx : Tx} {ref : SlotRef} {slot : TxSlot}

theorem Tallied.enqueue (h : Tallied tx) (ref : SlotRef) (slot : TxSlot) (isFinal : Bool)
    (discr : UInt32) (veth : Veth) (flags : UInt8) :
    Tallied (enqueue tx ref slot isFinal discr veth flags).2.1 := by
  unfold TxQueue.enqueue
  split
  · exact h
  · split
    · exact ⟨by simp [h.finals], h.periodics⟩
    · exact ⟨h.finals, by simp [h.periodics]⟩

theorem Tallied.unlink (h : Tallied tx) {kind : SlotKind}
    (hm : slot.linked = true → slot.isFinal = decide (kind = .final) ∧ ref ∈ listOf tx kind) :
    Tallied (unlink tx ref slot).1 := by
  cases hl : slot.linked with
  | false =>
    rw [unlink_unlinked _ _ hl]
    exact h
  | true =>
    obtain ⟨hf, hmem⟩ := hm hl
    cases kind with
    | final =>
      have hlen := List.length_erase_of_mem hmem
      simp only [listOf] at hlen
      exact ⟨by simp [TxQueue.unlink, hl, hf, hlen, h.finals], by simp [TxQueue.unlink, hl, hf, h.periodics]⟩
    | periodic =>
      have hlen := List.length_erase_of_mem hmem
      simp only [listOf] at hlen
      exact ⟨by simp [TxQueue.unlink, hl, hf, h.finals], by simp [TxQueue.unlink, hl, hf, hlen, h.periodics]⟩

theorem prefix_enqueue (tx : Tx) (ref : SlotRef) (slot : TxSlot) (isFinal : Bool) (discr : UInt32)
    (veth : Veth) (flags : UInt8) (kind : SlotKind) :
    listOf tx kind <+: listOf (enqueue tx ref slot isFinal discr veth flags).2.1 kind := by
  unfold TxQueue.enqueue
  split
  · exact List.prefix_refl _
  · cases isFinal <;> cases kind
    · exact List.prefix_refl _
    · exact List.prefix_append _ _
    · exact List.prefix_append _ _
    · exact List.prefix_refl _

theorem unlink_sublist (tx : Tx) (ref : SlotRef) (slot : TxSlot) (kind : SlotKind) :
    (listOf (unlink tx ref slot).1 kind).Sublist (listOf tx kind) := by
  unfold TxQueue.unlink
  split
  · exact .refl _
  · split <;> cases kind
    · exact List.erase_sublist
    · exact .refl _
    · exact .refl _
    · exact List.erase_sublist

theorem pending_of_unlink (h : pending (unlink tx ref slot).1 = true) : pending tx = true := by
  have hsub : (queue (unlink tx ref slot).1).Sublist (queue tx) :=
    (unlink_sublist tx ref slot .final).append (unlink_sublist tx ref slot .periodic)
  rw [pending_eq_peek, peek_eq_head?] at h ⊢
  cases hq : queue tx with
  | nil =>
    rw [hq] at hsub
    rw [List.sublist_nil.mp hsub] at h
    cases h
  | cons _ _ => rfl

end

def PollSets (b : Bpf) : Prop := ∀ n, (b.answers n).pollSet = true

structure Stays (c c' : Ctx) : Prop where
  tx : c'.bpf.tx = c.bpf.tx
  registered : c.bpf.txPolloutRegistered = true → c'.bpf.txPolloutRegistered = true

section

variable {c c' : Ctx}

theorem Injected.registered (h : Injected c c') :
    c'.bpf.txPolloutRegistered = c.bpf.txPolloutRegistered := by
  obtain ⟨-, -, ⟨kn, ds, ss, hs, tk, hp⟩⟩ := h
  rw [hp]

theorem Injected.stays (h : Injected c c') : Stays c c' := ⟨h.sameQueue.tx, h.registered.trans⟩

theorem Timed.stays (h : Timed c c') : Stays c c' := ⟨h.sameQueue.tx, h.armed⟩

theorem txPolloutArm_registers (h : txPolloutArm c = .ok ((), c')) (hp : PollSets c.bpf) :
    c'.bpf.txPolloutRegistered = true := by
  cases hr : c.bpf.txPolloutRegistered with
  | true => exact (timed_txPolloutArm _ _ _ h).armed hr
  | false =>
    have hset := hp c.bpf.tick
    have hw := wp_of_ok h
    simp only [txPolloutArm, wp_bind, wp_read, hr, Bool.false_eq_true, if_false] at hw
    obtain ⟨_, _, ha, hw⟩ := hw
    cases ha
    rw [if_pos (show c.bpf.ask.1.pollSet = true from hset)] at hw
    obtain ⟨_, _, hu, -, rfl⟩ := hw
    cases hu
    rfl

theorem txEnqueue_registers {kind : SlotKind} {isFinal : Bool} {flags : UInt8}
    (h : txEnqueue kind isFinal flags c = .ok ((), c')) (hp : PollSets c.bpf) :
    c'.bpf.txPolloutRegistered = true := by
  have hw := wp_of_ok h
  simp only [txEnqueue, onBpf, onBsess, wp_bind, wp_read, wp_update, wp_whenever] at hw
  split at hw
  · obtain ⟨_, c₁, ha, -, rfl⟩ := hw
    exact txPolloutArm_registers ha hp
  · obtain ⟨_, c₁, ha, -, rfl⟩ := hw
    exact txPolloutArm_registers ha hp

/-- What a move does to the queue and to the registration. -/
inductive TxMove (c c' : Ctx) : Prop
  | stays : Stays c c' → TxMove c c'
  | enqueued (kind : SlotKind) (flags : UInt8) : c'.bpf.tx = (c.enqueued kind flags).2.1 →
      (PollSets c.bpf → c'.bpf.txPolloutRegistered = true) → TxMove c c'
  | unlinked (kind : SlotKind) : c' = c.unlinked kind → TxMove c c'

theorem Move.tx {own : Option UInt32} (h : Move own c c') : TxMove c c' := by
  cases h with
  | ask h => exact .stays (injected_ask _ _ _ h).stays
  | inject veth flags _ h => exact .stays (injected_sessionInjectPkt _ _ _ _ _ h).stays
  | update inject _ h => exact .stays (injected_updateNow _ _ _ _ h).stays
  | shwaitStop h => exact .stays (timed_shwaitStop _ _ _ h).stays
  | shwaitStart h => exact .stays (timed_shwaitStart _ _ _ h).stays
  | holdStop h => exact .stays (timed_holdStop _ _ _ h).stays
  | holdStart h => exact .stays (timed_holdStart _ _ _ h).stays
  | write h => exact .stays ⟨by rw [h.bpf], by rw [h.bpf]; exact id⟩
  | output | dequeued | capacity | maps | fired => exact .stays ⟨rfl, id⟩
  | enqueue kind flags hf h =>
    have hr := txEnqueue_registers h
    rw [hf] at h
    obtain ⟨diagStats, -, ht⟩ := txEnqueue_ok h
    exact .enqueued kind flags ht.sameQueue.tx hr
  | unlink kind h => exact .unlinked kind (txUnlink_ok h)

theorem Move.tallied {own : Option UInt32} (h : Move own c c') (hc : QueueOk c)
    (ht : Tallied c.bpf.tx) : Tallied c'.bpf.tx := by
  rcases h.tx with hs | ⟨kind, flags, htx, -⟩ | ⟨kind, rfl⟩
  · rw [hs.tx]
    exact ht
  · rw [htx]
    exact ht.enqueue _ _ _ _ _ _
  · exact ht.unlink (fun hl => ⟨(hc.slots kind hl).isFinal, (hc.linked kind).mpr hl⟩)

def Watched (b : Bpf) : Prop := pending b.tx = true → b.txPolloutRegistered = true

theorem Move.watched {own : Option UInt32} (h : Move own c c') (hp : PollSets c.bpf)
    (hw : Watched c.bpf) : Watched c'.bpf := by
  rcases h.tx with hs | ⟨kind, flags, -, hr⟩ | ⟨kind, rfl⟩
  · intro hpend
    rw [hs.tx] at hpend
    exact hs.registered (hw hpend)
  · exact fun _ => hr hp
  · intro hpend
    exact hw (pending_of_unlink hpend)

structure Files (b b' : Bpf) : Prop where
  answers : b'.answers = b.answers
  tallied : Tallied b.tx → Tallied b'.tx
  watched : PollSets b → Watched b → Watched b'

theorem Files.refl (b : Bpf) : Files b b := ⟨rfl, id, fun _ => id⟩

theorem Files.trans {a b d : Bpf} (h : Files a b) (k : Files b d) : Files a d where
  answers := k.answers.trans h.answers
  tallied := k.tallied ∘ h.tallied
  watched := fun hp hw => k.watched (by simpa only [PollSets, h.answers] using hp) (h.watched hp hw)

theorem Moves.files {own : Option UInt32} (h : Moves own c c') (hc : QueueOk c) : Files c.bpf c'.bpf := by
  have hboth : QueueOk c' ∧ Files c.bpf c'.bpf := by
    induction h with
    | refl => exact ⟨hc, .refl _⟩
    | tail _ hm ih =>
      exact ⟨(hm.queue ih.1).1, ih.2.trans ⟨hm.answers, hm.tallied ih.1, hm.watched⟩⟩
  exact hboth.2

end

def Grows (c c' : Ctx) : Prop := ∀ kind, listOf c.bpf.tx kind <+: listOf c'.bpf.tx kind

instance : Std.Refl Grows := ⟨fun _ _ => List.prefix_refl _⟩

instance : IsTrans Ctx Grows := ⟨fun _ _ _ h k kind => (h kind).trans (k kind)⟩

def Shrinks (c c' : Ctx) : Prop := ∀ kind, (listOf c'.bpf.tx kind).Sublist (listOf c.bpf.tx kind)

instance : Std.Refl Shrinks := ⟨fun _ _ => .refl _⟩

instance : IsTrans Ctx Shrinks := ⟨fun _ _ _ h k kind => (k kind).trans (h kind)⟩

section

variable {c c' : Ctx}

theorem grows_of_tx (h : c'.bpf.tx = c.bpf.tx) : Grows c c' := fun _ => h ▸ List.prefix_refl _

theorem shrinks_of_tx (h : c'.bpf.tx = c.bpf.tx) : Shrinks c c' := fun _ => h ▸ List.Sublist.refl _

theorem grows_txEnqueue (kind : SlotKind) (flags : UInt8) :
    Within Grows (txEnqueue kind (decide (kind = .final)) flags) := by
  intro c a c' h k
  obtain ⟨diagStats, -, ht⟩ := txEnqueue_ok h
  rw [ht.sameQueue.tx]
  exact prefix_enqueue _ _ _ _ _ _ _ k

theorem Chore.grows (h : Chore c c') : Grows c c' := by
  cases h with
  | ask h => exact grows_of_tx (injected_ask _ _ _ h).sameQueue.tx
  | output => exact grows_of_tx rfl
  | defer flags hf h =>
    rw [hf] at h
    exact grows_txEnqueue .periodic flags _ _ _ h
  | rearm h => exact grows_of_tx (injected_sessionInjectPkt _ _ _ _ _ h).sameQueue.tx
  | update inject _ h => exact grows_of_tx (injected_updateNow _ _ _ _ h).sameQueue.tx
  | shwaitStop h => exact grows_of_tx (timed_shwaitStop _ _ _ h).sameQueue.tx
  | shwaitStart h => exact grows_of_tx (timed_shwaitStart _ _ _ h).sameQueue.tx
  | holdStop h => exact grows_of_tx (timed_holdStop _ _ _ h).sameQueue.tx
  | write h => exact grows_of_tx h.sameQueue.tx

theorem Chores.grows (h : Chores c c') : Grows c c' :=
  keeps_of_moves (I := fun v => Grows c v) (fun _ _ hm hv => trans_of Grows hv hm.grows) h (refl_of Grows c)

theorem grows_respondPoll : Within Grows respondPoll := by
  refine within_bind (chores_txHaveCapacity.mono (fun _ _ => Chores.grows)) (fun _ => within_ite ?_ ?_)
  · refine reported_within (fun o => within_update (fun c => grows_of_tx rfl)) (fun c r c' h => ?_) _
    exact grows_of_tx (injected_sessionInjectPkt _ _ _ _ _ h).sameQueue.tx
  · exact grows_txEnqueue .final bitFinal

theorem grows_handlePacket (packet : BfdPkt) (wireLen : UInt32) (ttl : UInt8) :
    Within Grows (handlePacket packet wireLen ttl) :=
  within_handlePacket (fun _ _ => Chores.grows) grows_respondPoll packet wireLen ttl

theorem shrinks_txUnlink (kind : SlotKind) : Within Shrinks (txUnlink kind) := by
  intro c a c' h k
  rw [txUnlink_ok h]
  exact unlink_sublist _ _ _ k

end

end Bbdd.Datapath
