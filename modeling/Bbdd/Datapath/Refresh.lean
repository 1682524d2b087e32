import Bbdd.Datapath.Marks

namespace Bbdd.Datapath

open Lib.Program Session Prog TxQueue

def Ctx.wanted (c : Ctx) : Option SessionConfig :=
  match sessionDetectTimeUs c.bsess.effData c.dsess.remoteData, confAddrs c.dsess with
  | some us, .ok addrs => some (confEntry c.dsess c.bsess (updateArgs c.bpf c.dsess c.bsess us) addrs)
  | _, _ => none

theorem wanted_eq {c : Ctx} {entry : SessionConfig} (h : c.wanted = some entry) :
    ∃ args addrs, entry = confEntry c.dsess c.bsess args addrs := by
  unfold Ctx.wanted at h
  split at h
  · cases h
    exact ⟨_, _, rfl⟩
  · cases h

def Settled (c : Ctx) : Prop :=
  ∃ entry, c.wanted = some entry ∧ c.bpf.kernel.config c.dsess.localData.discr = some entry

/-- Nothing the config entry depends on changed, nor did the entry, and an
update that was to be made up for still is. -/
structure Steady (c c' : Ctx) : Prop where
  dsess : c'.dsess = c.dsess
  bstate : c'.bsess.bstate = c.bsess.bstate
  effData : c'.bsess.effData = c.bsess.effData
  genId : c'.bsess.genId = c.bsess.genId
  genBumps : c'.bsess.genBumps = c.bsess.genBumps
  veth : c'.bpf.vethTxIfindex = c.bpf.vethTxIfindex
  answers : c'.bpf.answers = c.bpf.answers
  config : c'.bpf.kernel.config = c.bpf.kernel.config
  linked : c.bsess.periodicSlot.linked = true → c'.bsess.periodicSlot.linked = true

theorem Steady.refl (c : Ctx) : Steady c c := ⟨rfl, rfl, rfl, rfl, rfl, rfl, rfl, rfl, id⟩

theorem Steady.trans {a b c : Ctx} (h : Steady a b) (k : Steady b c) : Steady a c where
  dsess := k.dsess.trans h.dsess
  bstate := k.bstate.trans h.bstate
  effData := k.effData.trans h.effData
  genId := k.genId.trans h.genId
  genBumps := k.genBumps.trans h.genBumps
  veth := k.veth.trans h.veth
  answers := k.answers.trans h.answers
  config := k.config.trans h.config
  linked := k.linked ∘ h.linked

instance : Std.Refl Steady := ⟨Steady.refl⟩

instance : IsTrans Ctx Steady := ⟨fun _ _ _ => Steady.trans⟩

section

variable {c c' : Ctx} {n : Nat}

theorem Steady.wanted (h : Steady c c') : c'.wanted = c.wanted := by
  simp only [Ctx.wanted, confEntry, updateArgs, rxExpectBfdFlags, h.dsess, h.bstate, h.effData, h.genId, h.veth]

theorem Steady.settled (h : Steady c c') (hs : Settled c) : Settled c' := by
  obtain ⟨entry, hw, hc⟩ := hs
  exact ⟨entry, h.wanted.trans hw, by rw [h.config, h.dsess, hc]⟩

theorem Timed.steady (h : Timed c c') : Steady c c' := by
  have hc := h.config
  obtain ⟨hd, ⟨s, o, hb⟩, ⟨evs, t, m, tk, out, ar, hp⟩⟩ := h
  refine ⟨hd, by rw [hb], by rw [hb], by rw [hb], by rw [hb], by rw [hp], by rw [hp], hc, ?_⟩
  rw [hb]
  exact id

theorem steady_ask : Within Steady ask := timed_ask.mono (fun _ _ => Timed.steady)

theorem steady_output (o : Output) : Within Steady (onBpf (·.output o)) :=
  within_update (fun c => { Steady.refl c with })

theorem steady_reported {p : Act (Except String Unit)} (hp : Within Steady p) (context : String) :
    Within Steady (reported p context) :=
  reported_within steady_output hp context

theorem steady_txHaveCapacity : Within Steady txHaveCapacity := txHaveCapacity_within steady_ask

theorem steady_sessionInjectPkt (veth : Veth) (flags : UInt8) :
    Within Steady (sessionInjectPkt veth flags) := by
  intro c r c' h
  obtain ⟨hd, hb, hs⟩ := sessionInjectPkt_served h
  obtain ⟨-, -, ⟨kn, ds, ss, hs', tk, hp⟩⟩ := injected_sessionInjectPkt veth flags c r c' h
  exact ⟨hd, by rw [hb], by
    rw [hb], by rw [hb], by rw [hb], by rw [hp], by rw [hp], hs.config, by rw [hb]; exact id⟩

theorem enqueued_linked (c : Ctx) (kind : SlotKind) (flags : UInt8) :
    (c.enqueued kind flags).2.2.linked = true := by
  cases hl : (slotOf c.bsess kind).linked with
  | true => rw [Ctx.enqueued, enqueue_linked _ _ _ _ _ hl, hl]
  | false => rw [Ctx.enqueued, enqueue_slot _ _ _ _ _ hl]

theorem txEnqueue_steady (kind : SlotKind) {flags : UInt8}
    (h : txEnqueue kind (decide (kind = .final)) flags c = .ok ((), c')) :
    Steady c c' ∧ (kind = .periodic → c'.bsess.periodicSlot.linked = true) := by
  obtain ⟨diagStats, -, ht⟩ := txEnqueue_ok h
  have hl := enqueued_linked c kind flags
  cases kind with
  | final =>
    refine ⟨Steady.trans ?_ ht.steady, fun hk => by cases hk⟩
    exact { Steady.refl c with }
  | periodic =>
    refine ⟨Steady.trans ?_ ht.steady, fun _ => ht.steady.linked hl⟩
    exact { Steady.refl c with linked := fun _ => hl }

theorem steady_respondPoll : Within Steady respondPoll := by
  refine within_bind steady_txHaveCapacity
    (fun _ => within_ite (steady_reported (steady_sessionInjectPkt _ _) _) ?_)
  exact fun c _ c' h => (txEnqueue_steady .final h).1

theorem steady_updateInject (inject : Bool) : Within Steady (updateInject inject) :=
  updateInject_within (fun _ _ _ _ _ => steady_sessionInjectPkt _ _ _ _ _) inject

theorem steady_updateRearm (us : UInt32) : Within Steady (updateRearm us) :=
  updateRearm_within (steady_sessionInjectPkt _ _) (fun _ => within_update (fun c => { Steady.refl c with })) us

/-- What an update needs to reach the kernel: addresses that go together, and
map updates that succeed. -/
structure Updatable (c : Ctx) : Prop where
  addressed : Addressed c.dsess
  stores : ∀ n, (c.bpf.answers n).mapUpdate = true

theorem Steady.updatable (h : Steady c c') (hu : Updatable c) : Updatable c' :=
  ⟨h.dsess ▸ hu.addressed, fun n => by rw [h.answers]; exact hu.stores n⟩

def Refreshed (n : Nat) (c : Ctx) : Prop :=
  Settled c ∧ n < c.bsess.genBumps ∨ c.bsess.periodicSlot.linked = true ∧ shouldInject c.dsess c.bsess = true

theorem Steady.refreshed (h : Steady c c') (hr : Refreshed n c) : Refreshed n c' := by
  refine hr.imp (fun hs => ⟨h.settled hs.1, by rw [h.genBumps]; exact hs.2⟩) (fun hs => ⟨h.linked hs.1, ?_⟩)
  rw [shouldInject, h.dsess, h.bstate]
  exact hs.2

theorem updateNow_stored {inject : Bool} {r : Except String Unit}
    (h : updateNow inject c = .ok (r, c')) (hu : Updatable c) :
    ∃ us addrs, sessionDetectTimeUs c.bsess.effData c.dsess.remoteData = some us ∧
      confAddrs c.dsess = .ok addrs ∧
      attempt (updateInject inject) (fun _ => updateRearm us) { c.bumped with
        bpf := { c.bpf.ask.2 with
          kernel := c.bpf.ask.2.kernel.setConfig c.dsess.localData.discr
            (some (confEntry c.dsess c.bumped.bsess (updateArgs c.bpf c.dsess c.bumped.bsess us)
              addrs)) } } = .ok (r, c') := by
  obtain ⟨us, hus, h⟩ := updateNow_marked h
  obtain ⟨r₁, c₁, h₁, h⟩ := bind_ok.mp h
  obtain ⟨-, ⟨-, e, he⟩ | ⟨-, hm⟩⟩ | ⟨hok, addrs, ha, hc₁⟩ := sessionConfUpdate_eq h₁
  · obtain ⟨addrs, ha⟩ := hu.addressed.confAddrs
    exact absurd (ha.symm.trans he) (by simp)
  · exact absurd (hu.stores c.bpf.tick) (ne_true_of_eq_false hm)
  · cases r₁ with
    | error e => cases hok
    | ok _ =>
      subst hc₁
      exact ⟨us, addrs, hus, ha, h⟩

theorem updateNow_settled {inject : Bool} {r : Except String Unit} (h : updateNow inject c = .ok (r, c'))
    (hu : Updatable c) : Updatable c' ∧ Settled c' ∧ c.bsess.genBumps < c'.bsess.genBumps := by
  obtain ⟨us, addrs, hus, ha, h⟩ := updateNow_stored h hu
  have hrest := within_attempt (steady_updateInject _) (fun _ => steady_updateRearm _) _ _ _ h
  refine ⟨hrest.updatable ⟨hu.addressed, hu.stores⟩, hrest.settled ⟨_, ?_, Function.update_self ..⟩, ?_⟩
  · simp only [Ctx.wanted, Ctx.bumped, hus, ha]
    rfl
  · rw [hrest.genBumps]
    exact Nat.lt_succ_self _

theorem updateDefer_linked {r : Except String Unit} (h : updateDefer c = .ok (r, c')) :
    Steady c c' ∧ c'.bsess.periodicSlot.linked = true := by
  obtain ⟨flags, -, he⟩ := updateDefer_ok h
  obtain ⟨hs, hl⟩ := txEnqueue_steady .periodic he
  exact ⟨hs, hl rfl⟩

theorem Refreshed.mono {m : Nat} (h : Refreshed m c) (hn : n ≤ m) : Refreshed n c :=
  h.imp_left (fun hs => ⟨hs.1, Nat.lt_of_le_of_lt hn hs.2⟩)

structure Renewed (n : Nat) (c : Ctx) : Prop where
  updatable : Updatable c
  bumps : n ≤ c.bsess.genBumps
  refreshed : Refreshed n c

theorem Renewed.steady (hr : Renewed n c) (h : Steady c c') : Renewed n c' :=
  ⟨h.updatable hr.updatable, by rw [h.genBumps]; exact hr.bumps, h.refreshed hr.refreshed⟩

theorem Renewed.mono {m : Nat} (h : Renewed m c) (hn : n ≤ m) : Renewed n c :=
  ⟨h.updatable, hn.trans h.bumps, h.refreshed.mono hn⟩

theorem sessionUpdateInner_renewed {r : Except String Unit} (h : sessionUpdateInner c = .ok (r, c'))
    (hu : Updatable c) : Renewed c.bsess.genBumps c' := by
  have h := read_ok.mp h
  have now : ∀ {inject d r}, updateNow inject d = .ok (r, c') → Steady c d → Renewed c.bsess.genBumps c' := by
    intro inject d r h hs
    obtain ⟨hu', hset, hn⟩ := updateNow_settled h (hs.updatable hu)
    rw [hs.genBumps] at hn
    exact ⟨hu', hn.le, .inl ⟨hset, hn⟩⟩
  split at h
  · rename_i hi
    obtain ⟨room, c₁, h₁, h⟩ := bind_ok.mp h
    have hs := steady_txHaveCapacity _ _ _ h₁
    cases room with
    | true => exact now h hs
    | false =>
      obtain ⟨hs', hl⟩ := updateDefer_linked h
      have hall := hs.trans hs'
      refine ⟨hall.updatable hu, hall.genBumps.ge, .inr ⟨hl, ?_⟩⟩
      rw [shouldInject, hall.dsess, hall.bstate]
      exact hi
  · exact now h (.refl c)

end

end Bbdd.Datapath
