import Bbdd.Datapath.Voice

namespace Bbdd.Datapath

open Lib.Program Packet Session Prog TxQueue

section

variable {own : Option UInt32} {c c' : Ctx}

theorem Move.dsess (h : Move own c c') : c'.dsess = c.dsess ∨ Writes c c' := by
  cases h with
  | ask h => exact .inl (within_ask _ _ _ h).dsess
  | output | dequeued | fired | capacity | maps => exact .inl rfl
  | enqueue kind flags hf h => exact .inl (within_txEnqueue _ _ _ _ _ _ h).dsess
  | inject veth flags hf h => exact .inl (within_sessionInjectPkt _ _ _ _ _ h).dsess
  | update inject hg h => exact .inl (within_updateNow _ _ _ _ h).dsess
  | shwaitStop h => exact .inl (timed_shwaitStop _ _ _ h).dsess
  | shwaitStart h => exact .inl (timed_shwaitStart _ _ _ h).dsess
  | holdStop h => exact .inl (timed_holdStop _ _ _ h).dsess
  | holdStart h => exact .inl (timed_holdStart _ _ _ h).dsess
  | unlink kind h => exact .inl (by rw [txUnlink_ok h]; cases kind <;> rfl)
  | write h => exact .inr h

theorem Moves.addressed (h : Moves own c c') (ha : Addressed c.dsess) : Addressed c'.dsess := by
  refine keeps_of_moves (I := fun b => Addressed b.dsess) (fun a b hm ha => ?_) h ha
  obtain he | hw := hm.dsess
  · rw [he]; exact ha
  · exact hw.addressed ha

theorem Moves.dport (h : Moves own c c') (hp : BfdPort c.dsess) : BfdPort c'.dsess := by
  refine keeps_of_moves (I := fun b => BfdPort b.dsess) (fun a b hm hp => ?_) h hp
  obtain he | hw := hm.dsess
  · rw [he]; exact hp
  · exact hw.dport hp

end

structure Rests (c c' : Ctx) : Prop where
  steady : Steady c c'
  marks : ∀ d, (marksOf c'.bpf.kernel d).Sublist (marksOf c.bpf.kernel d)

theorem Rests.refl (c : Ctx) : Rests c c := ⟨.refl c, fun _ => .refl _⟩

theorem Rests.trans {a b c : Ctx} (h : Rests a b) (k : Rests b c) : Rests a c :=
  ⟨h.steady.trans k.steady, fun d => (k.marks d).trans (h.marks d)⟩

/-- A handler at work: whether the session was updated since it last changed. -/
inductive InStep : Bool → Ctx → Ctx → Prop
  | refl (c : Ctx) : InStep true c c
  | write {b a c c'} : InStep b a c → Moves none c c' → Mute c c' → InStep false a c'
  | rest {b a c c'} : InStep b a c → Rests c c' → Talks c.bpf c'.bpf → InStep b a c'
  | update {b a c c' r} : InStep b a c → sessionUpdateInner c = .ok (r, c') → InStep true a c'

section

variable {b : Bool} {a c c' : Ctx} {r : Except String Unit}

theorem rests_output (o : Output) (c : Ctx) : Rests c { c with bpf := c.bpf.output o } :=
  ⟨{ Steady.refl c with }, fun _ => .refl _⟩

theorem Timed.rests (h : Timed c c') : Rests c c' :=
  ⟨h.steady, fun d => Flows.marks h.drift.idle.flow d⟩

theorem sessionInjectPkt_rests {veth : Veth} {flags : UInt8}
    (h : sessionInjectPkt veth flags c = .ok (r, c'))
    (hv : veth = .rx ∨ hasBit flags bitFinal = true) (hp : BfdPort c.dsess) : Rests c c' := by
  refine ⟨steady_sessionInjectPkt _ _ _ _ _ h, fun d => ?_⟩
  obtain ⟨c₁, hd, -, hs⟩ := sessionInjectPkt_ok h
  rw [hs.marks (hd.dport hp) hv]
  exact Flows.marks hd.idle.flow d

theorem reported_rests {p : Act (Except String Unit)} {context : String}
    (h : reported p context c = .ok ((), c')) (hp : ∀ r c₁, p c = .ok (r, c₁) → Rests c c₁) :
    Rests c c' := by
  obtain ⟨r, c₁, h₁, h⟩ := bind_ok.mp h
  cases r with
  | error e =>
    cases h
    exact (hp _ _ h₁).trans (rests_output _ c₁)
  | ok _ =>
    obtain ⟨-, rfl⟩ := pure_ok.mp h
    exact hp _ _ h₁

theorem respondPoll_rests (h : respondPoll c = .ok ((), c')) (hp : BfdPort c.dsess) : Rests c c' := by
  refine ⟨steady_respondPoll _ _ _ h, fun d => ?_⟩
  obtain ⟨room, c₁, h₁, h⟩ := bind_ok.mp h
  have hs := steady_txHaveCapacity _ _ _ h₁
  have hd := txHaveCapacity_within drift_ask _ _ _ h₁
  refine List.Sublist.trans ?_ (Flows.marks hd.idle.flow d)
  cases room with
  | true =>
    exact (reported_rests h (fun r c₂ h₂ => sessionInjectPkt_rests h₂
      (.inr (by decide)) (hs.dsess ▸ hp))).marks d
  | false =>
    have hq : txEnqueue .final (decide (SlotKind.final = .final)) bitFinal c₁ = .ok ((), c') := h
    obtain ⟨diagStats, -, ht⟩ := txEnqueue_ok hq
    exact Flows.marks ht.drift.idle.flow d

theorem InStep.output (h : InStep b a c) (o : Output) : InStep b a { c with bpf := c.bpf.output o } :=
  h.rest (rests_output o c) (talks_of_eq rfl)

theorem InStep.timed (h : InStep b a c) (ht : Timed c c') : InStep b a c' :=
  h.rest ht.rests (talks_of_eq ht.mute)

theorem InStep.callUpdate (h : InStep b a c) (hu : sessionCallUpdate c = .ok ((), c')) :
    InStep true a c' := by
  obtain ⟨_, _, hr, hu⟩ := bind_ok.mp hu
  cases hr
  obtain ⟨r, c₁, h₁, hu⟩ := bind_ok.mp hu
  have hs := h.update h₁
  cases r with
  | error e => cases hu; exact hs.output _
  | ok _ => obtain ⟨-, rfl⟩ := pure_ok.mp hu; exact hs

theorem InStep.stateChanged (h : InStep b a c) (hu : sessionStateChanged c = .ok ((), c')) :
    InStep true a c' := by
  obtain ⟨_, c₁, h₁, hu⟩ := bind_ok.mp hu
  cases hu
  exact (h.callUpdate h₁).output _

theorem InStep.talks (h : InStep b a c) : Talks a.bpf c.bpf := by
  induction h with
  | refl => exact talks_of_eq rfl
  | write _ _ hm ih => exact ih.trans (talks_of_eq hm)
  | rest _ _ ht ih => exact ih.trans ht
  | update _ hu ih => exact ih.trans (sessionUpdateInner_talks hu)

theorem Moves.updatable {own : Option UInt32} (h : Moves own c c') (hu : Updatable c) : Updatable c' :=
  ⟨h.addressed hu.addressed, fun n => by rw [Moves.answers h]; exact hu.stores n⟩

theorem InStep.updatable (h : InStep b a c) (hu : Updatable a) : Updatable c := by
  induction h with
  | refl => exact hu
  | write _ hm _ ih => exact hm.updatable (ih hu)
  | rest _ hr _ ih => exact hr.steady.updatable (ih hu)
  | update _ h₁ ih =>
    have hm : Moves none _ _ := (chores_sessionUpdateInner _ _ _ h₁).moves
    exact hm.updatable (ih hu)

theorem Moves.bumps (h : Moves none c c') : c.bsess.genBumps ≤ c'.bsess.genBumps :=
  (Moves.ages h (by simp)).bumps

theorem InStep.bumps (h : InStep b a c) : a.bsess.genBumps ≤ c.bsess.genBumps := by
  induction h with
  | refl => exact Nat.le_refl _
  | write _ hm _ ih => exact ih.trans hm.bumps
  | rest _ hr _ ih => exact ih.trans hr.steady.genBumps.ge
  | update _ h₁ ih => exact ih.trans (Moves.bumps (chores_sessionUpdateInner _ _ _ h₁).moves)

theorem Marks.rests (hm : Marks c) (h : Rests c c') : Marks c' :=
  hm.sublist (h.steady.dsess ▸ hm.dport) h.steady.genId h.steady.genBumps (by rw [h.steady.dsess]) (h.marks _)

theorem InStep.marks (h : InStep b a c) (hm : Marks a) (hb : c.bsess.genBumps < 2 ^ 32) : Marks c := by
  induction h with
  | refl => exact hm
  | write _ hw _ ih => exact (ih hm (hw.bumps.trans_lt hb)).moves hw (by simp) hb
  | rest _ hr _ ih => exact (ih hm (hr.steady.genBumps.ge.trans_lt hb)).rests hr
  | update _ h₁ ih =>
    have hu : Moves none _ _ := (chores_sessionUpdateInner _ _ _ h₁).moves
    exact (ih hm ((Moves.bumps hu).trans_lt hb)).moves hu (by simp) hb

theorem InStep.renewed (h : InStep true a c) (hu : Updatable a) :
    Renewed a.bsess.genBumps c ∨ Steady a c := by
  generalize ht : true = b at h
  induction h with
  | refl => exact .inr (.refl _)
  | write => cases ht
  | rest _ hr _ ih => exact (ih hu ht).imp (·.steady hr.steady) (·.trans hr.steady)
  | update h h₁ _ => exact .inl ((sessionUpdateInner_renewed h₁ (h.updatable hu)).mono h.bumps)

def Hushed (c : Ctx) : Prop :=
  ∀ m ∈ marksOf c.bpf.kernel c.dsess.localData.discr, m.toNat < c.bsess.genBumps

theorem Hushed.rests (hq : Hushed c) (h : Rests c c') : Hushed c' := by
  intro m hm
  rw [h.steady.dsess] at hm
  rw [h.steady.genBumps]
  exact hq m ((h.marks _).subset hm)

theorem Trail.marks (h : Trail c c') (hp : BfdPort c.dsess) (d : UInt32) :
    BfdPort c'.dsess ∧ (marksOf c'.bpf.kernel d).Sublist (marksOf c.bpf.kernel d) := by
  refine keeps_of_moves (I := fun b => BfdPort b.dsess ∧ (marksOf b.bpf.kernel d).Sublist
    (marksOf c.bpf.kernel d))
    (fun a b hs ha => ?_) h ⟨hp, .refl _⟩
  obtain hd | hs := hs
  · exact ⟨hd.dport ha.1, (Flows.marks hd.idle.flow d).trans ha.2⟩
  · exact ⟨hs.same.1 ▸ ha.1, by rw [hs.marks ha.1 (.inl rfl)]; exact ha.2⟩

theorem updateNow_hushed (h : updateNow false c = .ok (r, c')) (hm : Marks c) : Hushed c' := by
  obtain ⟨c₁, c₂, hd, -, hs, ht⟩ := updateNow_ok h
  obtain rfl | ⟨hf, -⟩ := hs
  · intro m hmem
    have hage := (updateNow_charted h).genBumps
    have hdiscr : c'.dsess.localData.discr = c.dsess.localData.discr := (updateNow_charted h).discr
    rw [hdiscr] at hmem
    have hm₁ := (ht.marks (hd.dport hm.dport) _).2.subset hmem
    have := (hm.dated m ((Flows.marks hd.idle.flow _).subset hm₁)).2
    change c'.bsess.genBumps = c.bsess.genBumps + 1 at hage
    omega
  · cases hf

theorem sessionUpdateInner_hushed (h : sessionUpdateInner c = .ok (r, c'))
    (hs : Silent c.dsess c.bsess.bstate) (hm : Marks c) : Hushed c' := by
  have h := read_ok.mp h
  rw [if_neg (fun hi => shouldInject_iff.mp hi hs)] at h
  exact updateNow_hushed h hm

theorem InStep.hushed (h : InStep true a c) (hm : Marks a) (hb : c.bsess.genBumps < 2 ^ 32)
    (hs : Silent c.dsess c.bsess.bstate) : Hushed c ∨ Rests a c := by
  generalize ht : true = b at h
  induction h with
  | refl => exact .inr (.refl _)
  | write => cases ht
  | rest _ hr _ ih =>
    have hst := hr.steady
    rw [hst.dsess, hst.bstate] at hs
    rw [hst.genBumps] at hb
    exact (ih hm hb hs ht).imp (·.rests hr) (·.trans hr)
  | @update _ _ c c' r h h₁ _ =>
    have hf := within_sessionUpdateInner _ _ _ h₁
    rw [hf.dsess, hf.bstate] at hs
    have hle := Moves.bumps (chores_sessionUpdateInner _ _ _ h₁).moves
    exact .inl (sessionUpdateInner_hushed h₁ hs (h.marks hm (hle.trans_lt hb)))

end

end Bbdd.Datapath
