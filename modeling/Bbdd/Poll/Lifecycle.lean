import Bbdd.Datapath.Queue
import Bbdd.Poll.Sane

namespace Bbdd.Poll

open Lib.Program TxQueue Datapath

/-- What setting a session up or tearing it down leaves alone, apart from its
slots: all of the session but the two pointers, and the queue. -/
structure Aside (c c' : Ctx) : Prop where
  dsess : c'.dsess = c.dsess
  bsess : ∃ shwait hold, c'.bsess = { c.bsess with shwait := shwait, hold := hold }
  tx : c'.bpf.tx = c.bpf.tx

theorem Aside.refl (c : Ctx) : Aside c c := ⟨rfl, ⟨_, _, rfl⟩, rfl⟩

theorem Aside.trans {a b c : Ctx} (h : Aside a b) (k : Aside b c) : Aside a c := by
  obtain ⟨hd, ⟨s, o, hb⟩, ht⟩ := h
  obtain ⟨kd, ⟨s', o', kb⟩, kt⟩ := k
  exact ⟨kd.trans hd, ⟨s', o', by rw [kb, hb]⟩, kt.trans ht⟩

instance : Std.Refl Aside := ⟨Aside.refl⟩

instance : IsTrans Ctx Aside := ⟨fun _ _ _ => Aside.trans⟩

theorem Aside.sameQueue {c c' : Ctx} (h : Aside c c') : SameQueue c c' := by
  obtain ⟨hd, ⟨s, o, hb⟩, ht⟩ := h
  exact ⟨by rw [hb], by rw [hd], by rw [hd], by
    rw [hd]; exact id, by rw [hd]; exact id, ht, fun kind => by rw [hb]; cases kind <;> rfl⟩

theorem Aside.genBumps {c c' : Ctx} (h : Aside c c') : c'.bsess.genBumps = c.bsess.genBumps := by
  obtain ⟨-, ⟨s, o, hb⟩, -⟩ := h
  rw [hb]

theorem aside_timed {c c' : Ctx} (h : Timed c c') : Aside c c' := by
  obtain ⟨hd, hb, ⟨evs, t, n, tk, out, ar, hp⟩⟩ := h
  exact ⟨hd, hb, by rw [hp]⟩

/-- All that sizing the socket and writing to the maps changes. -/
def Provided (c c' : Ctx) : Prop :=
  ∃ kernel tick outputs cap, c' = { c with
    bpf := { c.bpf with kernel := kernel, tick := tick, outputs := outputs, txCapacity := cap } }

instance : Std.Refl Provided := ⟨fun _ => ⟨_, _, _, _, rfl⟩⟩

instance : IsTrans Ctx Provided where
  trans := by
    rintro a b c ⟨k, t, o, cap, rfl⟩ ⟨k', t', o', cap', rfl⟩
    exact ⟨k', t', o', cap', rfl⟩

theorem Provided.frame {c c' : Ctx} (h : Provided c c') : Frame c c' := by
  obtain ⟨k, t, o, cap, rfl⟩ := h
  exact { Frame.refl c with }

theorem Provided.aside {c c' : Ctx} (h : Provided c c') : Aside c c' := by
  obtain ⟨k, t, o, cap, rfl⟩ := h
  exact ⟨rfl, ⟨_, _, rfl⟩, rfl⟩

theorem provided_ask : Within Provided ask := by
  intro c a c' h
  cases h
  exact ⟨_, _, _, _, rfl⟩

theorem provided_onBpf {f : Bpf → Bpf} (h : ∀ b, ∃ kernel outputs cap,
      f b = { b with kernel := kernel, outputs := outputs, txCapacity := cap }) : Within Provided (onBpf f) := by
  refine within_update (fun c => ?_)
  obtain ⟨kernel, outputs, cap, hf⟩ := h c.bpf
  exact ⟨kernel, _, outputs, cap, by rw [hf]⟩

theorem provided_sessionConfUpdate (args : ConfArgs) : Within Provided (sessionConfUpdate args) := by
  refine within_bind within_read (fun c => ?_)
  split
  · exact within_pure _
  · exact within_bind provided_ask (fun _ => within_ite (within_pure _)
      (within_bind (provided_onBpf (fun _ => ⟨_, _, _, rfl⟩)) (fun _ => within_pure _)))

theorem provided_sessionConfAdd : Within Provided sessionConfAdd := by
  refine within_attempt (provided_sessionConfUpdate _) (fun _ => ?_)
  refine within_bind provided_ask (fun _ => within_bind within_read (fun _ => within_ite ?_ ?_))
  · exact within_bind (provided_onBpf (fun _ => ⟨_, _, _, rfl⟩)) (fun _ => within_pure _)
  · exact within_bind provided_ask (fun _ =>
      within_bind (within_whenever (provided_onBpf (fun _ => ⟨_, _, _, rfl⟩))) (fun _ => within_pure _))

theorem provided_sessionConfDelete (discr : UInt32) : Within Provided (sessionConfDelete discr) :=
  within_bind provided_ask
    (fun _ => within_bind (within_whenever (provided_onBpf (fun _ => ⟨_, _, _, rfl⟩))) (fun _ =>
    within_bind provided_ask (fun _ => within_whenever (provided_onBpf (fun _ => ⟨_, _, _, rfl⟩)))))

theorem provided_txResize (sessions : Nat) (add : Bool) : Within Provided (txResize sessions add) := by
  refine within_bind within_read (fun _ => within_ite (within_pure _) (within_ite (within_pure _) ?_))
  exact within_bind provided_ask (fun _ => within_ite (within_pure _)
    (within_bind (provided_onBpf (fun _ => ⟨_, _, _, rfl⟩)) (fun _ => within_pure _)))

theorem total_attempt {p : Act (Except String Unit)} {f : Unit → Act (Except String Unit)} (hp : Total p)
    (hf : ∀ a, Total (f a)) : Total (attempt p f) := by
  refine total_bind hp (fun r => ?_)
  cases r with
  | error e => exact total_pure _
  | ok a => exact hf a

theorem total_sessionConfAdd : Total sessionConfAdd := by
  refine total_attempt (total_sessionConfUpdate _)
    (fun _ => total_bind total_ask (fun _ => total_bind total_read (fun _ => ?_)))
  refine total_ite (total_bind (total_onBpf _) (fun _ => total_pure _)) (total_bind total_ask (fun _ => ?_))
  exact total_bind (total_whenever (total_onBpf _)) (fun _ => total_pure _)

theorem total_sessionConfDelete (discr : UInt32) : Total (sessionConfDelete discr) :=
  total_bind total_ask (fun _ => total_bind (total_whenever (total_onBpf _)) (fun _ =>
    total_bind total_ask (fun _ => total_whenever (total_onBpf _))))

theorem total_txResize (sessions : Nat) (add : Bool) : Total (txResize sessions add) := by
  refine total_bind total_read (fun _ => total_ite (total_pure _) (total_ite (total_pure _) ?_))
  exact total_bind total_ask (fun _ => total_ite (total_pure _)
    (total_bind (total_onBpf _) (fun _ => total_pure _)))

section

variable {R : Ctx → Ctx → Prop} [Std.Refl R] [IsTrans Ctx R]

theorem sessionAdd_within (hp : ∀ c c', Provided c c' → R c c') (ht : ∀ c c', Timed c c' → R c c')
    (sessions : Nat) :
    Within R (sessionAdd sessions) := by
  refine within_bind (provided_ask.mono hp) (fun _ => within_ite (within_pure _) ?_)
  refine within_attempt (timed_holdStart.mono ht) (fun _ => ?_)
  refine within_bind (within_attempt ((provided_txResize _ _).mono hp)
    (fun _ => provided_sessionConfAdd.mono hp)) (fun r => ?_)
  cases r with
  | error e => exact within_bind (timed_holdStop.mono ht) (fun _ => within_pure _)
  | ok _ => exact within_pure _

theorem sessionDel_within (hp : ∀ c c', Provided c c' → R c c') (ht : ∀ c c', Timed c c' → R c c')
    (hu : ∀ kind, Within R (txUnlink kind)) (sessions : Nat) : Within R (sessionDel sessions) := by
  refine within_bind within_read (fun _ => within_bind (within_whenever (timed_holdStop.mono ht)) (fun _ => ?_))
  refine within_bind (within_whenever (timed_shwaitStop.mono ht)) (fun _ => ?_)
  refine within_bind (hu .final) (fun _ => within_bind (hu .periodic) (fun _ => ?_))
  refine within_bind ((provided_sessionConfDelete _).mono hp) (fun _ => ?_)
  refine reported_within (fun o => ?_) ((provided_txResize _ _).mono hp) _
  exact (provided_onBpf (fun _ => ⟨_, _, _, rfl⟩)).mono hp

end

theorem aside_sessionAdd (sessions : Nat) : Within Aside (sessionAdd sessions) :=
  sessionAdd_within (fun _ _ => Provided.aside) (fun _ _ => aside_timed) sessions

structure Adding (c c' : Ctx) : Prop where
  dsess : c'.dsess = c.dsess
  genBumps : c'.bsess.genBumps = c.bsess.genBumps
  moves : c.bsess.genBumps = 0 → Moves (some c.dsess.localData.discr) c c'

instance : Std.Refl Adding := ⟨fun _ => ⟨rfl, rfl, fun _ => .refl⟩⟩

instance : IsTrans Ctx Adding where
  trans _ _ _ h k :=
    { dsess := k.dsess.trans h.dsess
      genBumps := k.genBumps.trans h.genBumps
      moves := fun h0 => (h.moves h0).trans (h.dsess ▸ k.moves (h.genBumps.trans h0)) }

theorem Aside.adding {c c' : Ctx} (h : Aside c c')
    (hm : c.bsess.genBumps = 0 → Moves (some c.dsess.localData.discr) c c') :
    Adding c c' :=
  ⟨h.dsess, h.genBumps, hm⟩

theorem adding_ask : Within Adding ask :=
  fun c a c' h => (provided_ask c a c' h).aside.adding (fun _ => moves_ask c a c' h)

theorem adding_sessionConfUpdate (args : ConfArgs) : Within Adding (sessionConfUpdate args) := by
  intro c r c' h
  refine (provided_sessionConfUpdate args c r c' h).aside.adding (fun h0 => ?_)
  have h := read_ok.mp h
  cases haddr : confAddrs c.dsess with
  | error e =>
    simp only [haddr] at h
    obtain ⟨-, rfl⟩ := pure_ok.mp h
    exact .refl
  | ok addrs =>
    simp only [haddr] at h
    obtain ⟨a, c₁, ha, h⟩ := bind_ok.mp h
    have hg : c₁.bsess.genBumps = 0 := (adding_ask _ _ _ ha).genBumps.trans h0
    refine (moves_ask _ _ _ ha).trans ?_
    cases hm : a.mapUpdate with
    | false =>
      simp only [hm] at h
      obtain ⟨-, rfl⟩ := pure_ok.mp h
      exact .refl
    | true =>
      simp only [hm] at h
      obtain ⟨_, c₂, hs, h⟩ := bind_ok.mp h
      obtain ⟨-, rfl⟩ := pure_ok.mp h
      cases hs
      exact .single (move_setConfig c₁ _ _ (.inr hg))

theorem adding_sessionConfAdd : Within Adding sessionConfAdd := by
  refine within_attempt (adding_sessionConfUpdate _) (fun _ => within_bind adding_ask (fun a => ?_))
  refine within_read_bind (fun c r c' h => Aside.adding ?_ (fun _ => ?_))
  · have hp : Within Provided (if a.mapUpdate = true then do
          onBpf (fun b => { b with kernel := b.kernel.setData c.dsess.localData.discr (some .fresh) })
          pure (.ok ())
        else do
          let d ← ask
          whenever d.mapDelete (onBpf
            (fun b => { b with kernel := b.kernel.setConfig c.dsess.localData.discr none }))
          pure (.error s!"Failed to insert session data: {a.strerror}") : Act (Except String Unit)) := by
      refine within_ite (within_bind (provided_onBpf (fun _ => ⟨_, _, _, rfl⟩)) (fun _ => within_pure _)) ?_
      exact within_bind provided_ask (fun _ =>
        within_bind (within_whenever (provided_onBpf (fun _ => ⟨_, _, _, rfl⟩))) (fun _ => within_pure _))
    exact (hp _ _ _ h).aside
  · refine within_ite ?_ ?_ _ _ _ h
    · exact within_bind (moves_setData _ _) (fun _ => within_pure _)
    · exact within_bind moves_ask (fun _ =>
        within_bind (within_whenever (moves_unsetConfig _)) (fun _ => within_pure _))

theorem adding_timed {α : Type} {p : Act α} (ht : Within Timed p)
    (hm : ∀ discr, Within (Moves (some discr)) p) :
    Within Adding p :=
  fun c a c' h => (aside_timed (ht c a c' h)).adding (fun _ => hm _ c a c' h)

theorem adding_txResize (sessions : Nat) (add : Bool) : Within Adding (txResize sessions add) :=
  fun c r c' h => (provided_txResize sessions add c r c' h).aside.adding
    (fun _ => moves_txResize sessions add c r c' h)

theorem adding_sessionAdd (sessions : Nat) : Within Adding (sessionAdd sessions) := by
  refine within_bind adding_ask (fun _ => within_ite (within_pure _) ?_)
  have hstart : Within Adding holdStart := adding_timed timed_holdStart
    (fun _ => Move.within (fun _ _ _ h => .holdStart h))
  have hstop : Within Adding holdStop := adding_timed timed_holdStop
    (fun _ => moves_of_chores (chores_of_tasks tasks_holdStop))
  refine within_attempt hstart (fun _ => ?_)
  refine within_bind (within_attempt (adding_txResize _ _) (fun _ => adding_sessionConfAdd)) (fun r => ?_)
  cases r with
  | error e => exact within_bind hstop (fun _ => within_pure _)
  | ok _ => exact within_pure _

def Machine.awaken (m : Machine) (id : Nat) : Machine :=
  { m with hold := some id, mine := m.mine ++ [⟨id, .hold, m.discr, m.ptr⟩] }

theorem holdStart_view (c : Ctx) : wp holdStart (fun r c' => match r with
    | .error _ => view c' = view c
    | .ok _ => view c' = (view c).awaken c.bpf.nextTimer) c := by
  refine wp_mono (holdStart_runs c) (fun r c' h => ?_)
  cases r with
  | error e => exact view_frame h
  | ok _ =>
    have hv := view_frame h
    rw [hv]
    simp only [Machine.awaken, view, Ctx.withTimer]
    rw [timersOf_append _ ⟨_, _, _, c.bsess.ptr⟩]

theorem sessionAdd_runs {c : Ctx} (sessions : Nat) (hh : c.bsess.hold = none)
    (hid : ∀ t ∈ (view c).mine, t.id ≠ c.bpf.nextTimer) :
    wp (sessionAdd sessions) (fun r c' => match r with
      | .error _ => view c' = view c
      | .ok _ => view c' = (view c).awaken c.bpf.nextTimer) c := by
  refine wp_seq (ask_runs c) (fun a c₁ h₁ => ?_)
  have f₁ := h₁.1
  rw [wp_ite]
  split
  · exact (wp_pure _ _ _).mpr (view_frame f₁)
  · rw [wp_attempt]
    refine wp_mono (holdStart_view c₁) (fun r c₂ h₂ => ?_)
    rw [view_frame f₁, f₁.nextTimer] at h₂
    cases r with
    | error e => exact h₂
    | ok _ =>
      have ht : Total (attempt (txResize sessions true) fun _ => sessionConfAdd) :=
        total_attempt (total_txResize _ _) (fun _ => total_sessionConfAdd)
      have hw : Within Provided (attempt (txResize sessions true) fun _ => sessionConfAdd) :=
        within_attempt (provided_txResize _ _) (fun _ => provided_sessionConfAdd)
      refine wp_seq (ht.wp hw c₂) (fun r c₃ h₃ => ?_)
      have hv : view c₃ = (view c).awaken c.bpf.nextTimer := (view_frame h₃.frame).trans h₂
      cases r with
      | ok _ => exact (wp_pure _ _ _).mpr hv
      | error e =>
        have hs : c₃.bsess.hold = some c.bpf.nextTimer := congrArg Machine.hold hv
        have hp : Pending (view c₃).mine c.bpf.nextTimer := by
          rw [hv]
          exact ⟨⟨c.bpf.nextTimer, .hold, c.bsess.discr, c.bsess.ptr⟩, by simp [Machine.awaken, view], rfl⟩
        refine wp_seq (holdStop_runs hs hp) (fun _ c₄ h₄ => (wp_pure _ _ _).mpr (h₄.trans ?_))
        -- what was set for the hold is gone again
        have hno : without (view c).mine c.bpf.nextTimer = (view c).mine := by
          rw [without, List.filter_eq_self]
          exact fun t ht => by simpa using hid t ht
        have hold : (view c).hold = none := hh
        rw [hv]
        simp only [Machine.awaken, without, List.filter_append] at hno ⊢
        rw [hno, ← hold]
        simp

def Machine.unhold (m : Machine) : Machine :=
  match m.hold with
  | none => m
  | some id => { m with hold := none, mine := without m.mine id }

theorem Clocks.unhold {m : Machine} (h : Clocks m) : Clocks m.unhold := by
  unfold Machine.unhold
  split
  · exact h
  · rename_i id hh
    have hr := h.release hh
    exact ⟨hr.holdMine, hr.shwaitMine, hr.owned, hr.holds, hr.nodup⟩

theorem unhold_stop_hold (m : Machine) : m.unhold.stop.hold = none := by
  obtain ⟨s, l, hst⟩ := m.unhold.stop_shape
  rw [hst]
  unfold Machine.unhold
  split
  · assumption
  · rfl

theorem unholdStop_runs {c : Ctx} (h : Clocks (view c)) :
    wp (whenever c.bsess.hold.isSome holdStop) (fun _ c' => view c' = (view c).unhold ∧ Aside c c') c := by
  cases hh : c.bsess.hold with
  | none =>
    rw [wp_whenever]
    exact ⟨by simp [Machine.unhold, view, hh], .refl c⟩
  | some id =>
    have hp : Pending (view c).mine id := ⟨_, h.holdMine id hh, rfl⟩
    rw [wp_whenever]
    refine wp_mono ((timed_holdStop.mono (fun _ _ => aside_timed)).wp (holdStop_runs hh hp))
      (fun _ c' hc => ⟨?_, hc.2⟩)
    have hv : (view c).hold = some id := hh
    rw [hc.1, Machine.unhold, hv]

theorem stopAny_runs {c : Ctx} (h : Clocks (view c)) :
    wp (whenever c.bsess.shwait.isSome shwaitStop) (fun _ c' => view c' = (view c).stop ∧ Aside c c') c := by
  cases hs : c.bsess.shwait with
  | none =>
    rw [wp_whenever]
    exact ⟨by simp [Machine.stop, view, hs], .refl c⟩
  | some id =>
    have hp : Pending (view c).mine id := ⟨_, h.shwaitMine id hs, rfl⟩
    rw [wp_whenever]
    exact wp_mono ((timed_shwaitStop.mono (fun _ _ => aside_timed)).wp (shwaitStop_runs hs hp))
      (fun _ c' hc => ⟨hc.1.2.2, hc.2⟩)

theorem unlinked_view (c : Ctx) (kind : SlotKind) : view (c.unlinked kind) = view c := by
  cases kind <;> rfl

theorem unlinked_genBumps (c : Ctx) (kind : SlotKind) :
    (c.unlinked kind).bsess.genBumps = c.bsess.genBumps := by
  cases kind <;> rfl

theorem wp_txUnlink (kind : SlotKind) (Q : Unit → Ctx → Prop) (c : Ctx) :
    wp (txUnlink kind) Q c ↔ Q () (c.unlinked kind) :=
  ⟨fun ⟨_, _, h, hq⟩ => txUnlink_ok h ▸ hq, fun hq => ⟨(), _, rfl, hq⟩⟩

theorem unlinked_other {c : Ctx} {k : SlotKind} (kind : SlotKind) (h : (slotOf c.bsess k).linked = false) :
    (slotOf (c.unlinked kind).bsess k).linked = false := by
  by_cases hk : k = kind
  · rw [hk]; exact unlinked_slot c kind
  · rw [Ctx.unlinked, Ctx.withSlot, slotOf_setSlot, if_neg hk]; exact h

theorem sessionDel_runs {c : Ctx} (sessions : Nat) (h : Clocks (view c)) :
    wp (sessionDel sessions) (fun _ c' => view c' = (view c).unhold.stop ∧
      (∀ kind, (slotOf c'.bsess kind).linked = false) ∧ c'.bsess.genBumps = c.bsess.genBumps) c := by
  refine (wp_bind _ _ _ _).mpr ((wp_read _ _).mpr ?_)
  refine wp_seq (unholdStop_runs h) (fun _ c₁ h₁ => ?_)
  have hs₁ : c.bsess.shwait = c₁.bsess.shwait := by
    have : (view c₁).shwait = (view c).shwait := by
      rw [h₁.1, Machine.unhold]
      split <;> rfl
    exact this.symm
  rw [hs₁]
  refine wp_seq (stopAny_runs (h₁.1 ▸ h.unhold)) (fun _ c₂ h₂ => ?_)
  simp only [wp_bind, wp_txUnlink]
  have hg : ((c₂.unlinked .final).unlinked .periodic).bsess.genBumps = c.bsess.genBumps := by
    rw [unlinked_genBumps, unlinked_genBumps, h₂.2.genBumps, h₁.2.genBumps]
  have hv : view ((c₂.unlinked .final).unlinked .periodic) = (view c).unhold.stop := by
    rw [unlinked_view, unlinked_view, h₂.1, h₁.1]
  have hl : ∀ kind, (slotOf ((c₂.unlinked .final).unlinked .periodic).bsess kind).linked = false := by
    intro kind
    cases kind with
    | final => exact unlinked_other .periodic (unlinked_slot c₂ .final)
    | periodic => exact unlinked_slot _ .periodic
  refine wp_mono ((total_sessionConfDelete _).wp (provided_sessionConfDelete _) _) (fun _ c₃ h₃ => ?_)
  refine wp_seq ((total_txResize _ _).wp (provided_txResize _ _) _) (fun r c₄ h₄ => ?_)
  have done : ∀ c', Provided ((c₂.unlinked .final).unlinked .periodic) c' →
      view c' = (view c).unhold.stop ∧ (∀ kind, (slotOf c'.bsess kind).linked = false) ∧
        c'.bsess.genBumps = c.bsess.genBumps := by
    intro c' hp
    refine ⟨(view_frame hp.frame).trans hv, fun kind => ?_, hp.aside.genBumps.trans hg⟩
    rw [hp.aside.sameQueue.slots kind]
    exact hl kind
  have hp := trans_of Provided h₃ h₄
  cases r with
  | ok _ => exact (wp_pure _ _ _).mpr (done c₄ hp)
  | error e => exact (wp_update _ _ _).mpr (done _ (trans_of Provided hp ⟨_, _, _, _, rfl⟩))

end Bbdd.Poll
