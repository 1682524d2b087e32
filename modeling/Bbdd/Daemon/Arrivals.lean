import Bbdd.Daemon.Requests

namespace Bbdd.Daemon

open Lib.Program Lib.Directory Packet Session Prog TxQueue Datapath Poll

section

variable {w w' v : World} {c c' : Ctx} {ref : SlotRef}

theorem timerFire_runs {t : Timer} (hw : Sound w) (ht : t ∈ w.bpf.timers) (hc : w.session t.discr = some c)
    (ho : c.bsess.ptr = t.owner) (hs : t.fn = .shwait → c.bsess.shwait.isSome = true) :
    wp (timerFire t) (fun _ w' => Step (.handler t.discr (.timer t)) w w') w := by
  have hok := hw.session t.discr c hc
  have htm := hw.timersOk hc
  obtain ⟨hsd, hbd, hbpf⟩ := session_eq_some.mp hc
  obtain ⟨bpf, dsess, bsess⟩ := c
  obtain ⟨id, fn, discr, owner⟩ := t
  cases hbpf
  have hname : bsess.discr = discr := hok.name
  have hptr : bsess.ptr = owner := ho
  subst hname hptr
  simp only [timerFire, wp_bind, wp_read, hsd, hbd, ne_eq, not_true_eq_false, if_false, wp_onSession, wp_update]
  cases fn with
  | hold => exact wp_mono (wp_eq (hold_runs hok htm ht)) (fun _ c' h => .handled hc (.hold id ht h.1))
  | shwait => exact wp_mono (wp_eq (shwait_runs hok htm ht (hs rfl))) (fun _ c' h =>
      .handled hc (.shwait id ht h.1))

theorem Handling.mine {t : Timer} (hh : Handling (.timer t) c c') {u : Timer} (hne : u.id ≠ t.id)
    (hold : u.id ≠ c.bpf.nextTimer) :
    u ∈ (view c').mine ↔ u ∈ (view c).mine ∧ ¬ (t.fn = .shwait ∧ c.bsess.shwait = some u.id) := by
  have hm := hh.machine
  obtain ⟨id, fn, discr, owner⟩ := t
  cases fn with
  | hold =>
    obtain ⟨-, fresh, -, hv⟩ := hm
    rw [hv]
    simp only [Machine.stir, Machine.release, mem_without, reduceCtorEq, false_and, not_false_eq_true, and_true]
    exact and_iff_left hne
  | shwait =>
    obtain ⟨⟨-, hs⟩, fresh, hg, hv⟩ := hm
    obtain ⟨i, hi⟩ := Option.isSome_iff_exists.mp hs
    have hshwait : c.bsess.shwait = some i := hi
    have hstop : u ∈ (view c).stop.mine ↔ u ∈ (view c).mine ∧ i ≠ u.id := by
      simp only [Machine.stop, hi, mem_without, ne_comm]
    obtain ⟨hkeep, hnew⟩ := conclude_mine (view c).stop fresh
    rw [hv, hshwait]
    simp only [Machine.stir, Machine.shwaitExpire, mem_without, true_and, Option.some.injEq]
    rw [and_iff_left hne, ← ne_eq, ← hstop]
    refine ⟨fun hin => (hnew u hin).resolve_right fun hf => ?_, @hkeep u⟩
    obtain rfl | ⟨rfl, -⟩ := hg
    · exact hold (Option.some.inj hf).symm
    · cases hf

theorem Step.turn {t : Timer} (hw : Sound w) (h : Step (.handler t.discr (.timer t)) w w')
    (hc : w.session t.discr = some c) {n : Nat} (hne : n ≠ t.id) (hp : Pending w.bpf.timers n) :
    ¬ Pending w'.bpf.timers n ↔ t.fn = .shwait ∧ c.bsess.shwait = some n := by
  obtain ⟨u, hu, rfl⟩ := hp
  cases h with
  | @handled _ _ _ s s' hs hh =>
    obtain rfl : s = c := Option.some.inj (hs.symm.trans hc)
    have htm := hw.timersOk hc
    have hhandling := hw.handled hc hh
    have hapart := (hw.upkeep hc hhandling.moves).timersApart
    rw [← (session_eq_some.mp hc).2.2] at hu
    have hmine : ∀ x : Timer, x.id = u.id → x.owner = s.bsess.ptr →
        (x ∈ s'.bpf.timers ↔ x ∈ s.bpf.timers ∧ ¬ (t.fn = .shwait ∧ s.bsess.shwait = some u.id)) := by
      intro x hid ho
      have h := hhandling.mine (u := x) (by rwa [hid]) (by rw [hid]; exact Nat.ne_of_lt (htm.ids u hu))
      simpa only [view, mem_timersOf, hapart.ptr, ho, and_true, hid] using h
    have hpend : Pending s'.bpf.timers u.id ↔ u ∈ s'.bpf.timers := by
      refine ⟨?_, fun h => ⟨u, h, rfl⟩⟩
      rintro ⟨x, hx, hid⟩
      have hx' : x ∈ s.bpf.timers := (hapart.owned x hx).elim id fun ho => ((hmine x hid ho.1).mp hx).1
      exact List.inj_on_of_nodup_map htm.nodup hx' hu hid ▸ hx
    show ¬ Pending s'.bpf.timers u.id ↔ _
    rw [hpend]
    by_cases ho : u.owner = s.bsess.ptr
    · rw [hmine u rfl ho, and_iff_right hu, not_not]
    · have hstay : u ∈ s'.bpf.timers := by
        have h := hapart.others u.owner ho
        have hin : u ∈ timersOf s'.bpf.timers u.owner := h ▸ mem_timersOf.mpr ⟨hu, rfl⟩
        exact (mem_timersOf.mp hin).1
      refine iff_of_false (fun h => h hstay) (fun h => ho ?_)
      rw [List.inj_on_of_nodup_map htm.nodup hu (htm.shwait _ h.2) rfl]

theorem Step.turned {t : Timer} (hw : Sound w) (h : Step (.handler t.discr (.timer t)) w w') :
    w.bpf.nextTimer ≤ w'.bpf.nextTimer ∧
      ∀ u ∈ w'.bpf.timers, u ∈ w.bpf.timers ∧ u.id ≠ t.id ∨ u.id = w.bpf.nextTimer := by
  cases h with
  | @handled _ _ _ s s' hs hh =>
    have hhandling := hw.handled hs hh
    have hapart := (hw.upkeep hs hhandling.moves).timersApart
    rw [← (session_eq_some.mp hs).2.2]
    refine ⟨hapart.next, fun u hu => ?_⟩
    have hne : u.id ≠ t.id := by
      cases hh with
      | hold id _ _ => exact (mem_without.mp hu).2
      | shwait id _ _ => exact (mem_without.mp hu).2
    by_cases hnew : u.id = s.bpf.nextTimer
    · exact .inr hnew
    · refine .inl ⟨?_, hne⟩
      obtain hold | ⟨ho, -⟩ := hapart.owned u hu
      · exact hold
      · have hin : u ∈ (view s').mine := mem_timersOf.mpr ⟨hu, ho.trans hapart.ptr.symm⟩
        exact (mem_timersOf.mp ((hhandling.mine hne hnew).mp hin).1).1

theorem Drains.sound (h : Drains w w') (hw : Sound w) : Sound w' :=
  keeps_of_moves (I := Sound) (fun _ _ hs hv => hs.elim (·.sound hv) (fun ⟨_, _, hs⟩ => hs.sound hv)) h hw

theorem Sound.peek (hw : Sound w) {ref : SlotRef} (h : peek w.bpf.tx = some ref) :
    ∃ c, w.session ref.owner = some c ∧ (slotOf c.bsess ref.kind).linked = true ∧
      (slotOf c.bsess ref.kind).discr = ref.owner := by
  have hmem : ref ∈ listOf w.bpf.tx ref.kind := by
    obtain hm | hm := mem_of_peek h
    · rw [hw.tx_kinds.1 .final ref hm]; exact hm
    · rw [hw.tx_kinds.1 .periodic ref hm]; exact hm
  obtain ⟨c, hc⟩ := Option.isSome_iff_exists.mp (hw.queued _ ref hmem)
  have hok := hw.session _ c hc
  have hl : (slotOf c.bsess ref.kind).linked = true := by
    rw [← hok.queue.linked ref.kind, (session_eq_some.mp hc).2.2, hok.name]
    exact hmem
  exact ⟨c, hc, hl, (hok.queue.slots _ hl).discr.trans hok.name⟩

def World.asked (w : World) : World := w.setBpf w.bpf.ask.2

def HasRoom (b : Bpf) : Prop := b.txPinned < b.txCapacity

instance (b : Bpf) : Decidable (HasRoom b) := inferInstanceAs (Decidable (b.txPinned < b.txCapacity))

/-- What the loop does with a slot: it is taken off its list, and its session
sends. -/
def takeSlot (ref : SlotRef) : Cmd Unit := do
  let w ← read
  match w.bsdir.find ref.owner with
  | none => crash .dangling
  | some owner =>
    let slot := slotOf owner ref.kind
    let (tx, unlinked) := unlink w.bpf.tx ref slot
    update (fun w => { w with
      bpf := { w.bpf with tx := tx }, bsdir := w.bsdir.insert ref.owner (setSlot owner unlinked ref.kind) })
    let (dsess, bsess) ← lookupSession slot.discr
    onSession slot.discr dsess bsess (drainSlot slot)

theorem txDrain_empty (n : Nat) (h : peek w.bpf.tx = none) :
    txDrain (n + 1) w = .ok (some (), w.setBpf (txPolloutDisarm w.bpf)) := by
  rw [txDrain, bind_run rfl, h]
  rfl

theorem haveCapacity_eq (w : World) : haveCapacity w = .ok (decide (HasRoom w.asked.bpf), w.asked) := rfl

theorem txDrain_full (n : Nat) (h : peek w.bpf.tx = some ref) (hr : ¬ HasRoom w.asked.bpf) :
    txDrain (n + 1) w = .ok (some (), w.asked) := by
  rw [txDrain, bind_run rfl, h]
  dsimp only
  rw [bind_run (haveCapacity_eq w), decide_eq_false hr]
  rfl

theorem txDrain_turn (n : Nat) (h : peek w.bpf.tx = some ref) (hr : HasRoom w.asked.bpf)
    (ht : takeSlot ref w.asked = .ok ((), v)) : txDrain (n + 1) w = txDrain n v := by
  rw [txDrain, bind_run rfl, h]
  dsimp only
  rw [bind_run (haveCapacity_eq w), decide_eq_true hr, if_pos rfl, bind_run rfl]
  rw [takeSlot, bind_run rfl] at ht
  cases hf : w.asked.bsdir.find ref.owner with
  | none =>
    rw [hf] at ht
    cases ht
  | some owner =>
    rw [hf] at ht
    dsimp only at ht ⊢
    rw [bind_run rfl] at ht ⊢
    obtain ⟨p, u, hl, hs⟩ := bind_ok.mp ht
    rw [bind_run hl]
    exact bind_run hs

theorem takeSlot_runs {ref : SlotRef} (hw : Sound w) (hp : peek w.bpf.tx = some ref) :
    ∃ c c', w.session ref.owner = some c ∧
    (slotOf c.bsess ref.kind).linked = true ∧
    drainSlot (slotOf c.bsess ref.kind) (c.unlinked ref.kind) = .ok ((), c') ∧ takeSlot ref w = .ok
      ((), w.put ref.owner c') := by
  obtain ⟨c, hc, hl, hdiscr⟩ := hw.peek hp
  have hok := hw.session _ c hc
  obtain ⟨_, c', hrun, -⟩ := drain_runs hok hl
  obtain ⟨hsd, hbd, hbpf⟩ := session_eq_some.mp hc
  refine ⟨c, c', hc, hl, hrun, ?_⟩
  -- the slot is taken off before its owner is looked up again
  have hctx : (⟨{ w.bpf with tx := (unlink w.bpf.tx ref (slotOf c.bsess ref.kind)).1 }, c.dsess,
      setSlot c.bsess (unlink w.bpf.tx ref (slotOf c.bsess ref.kind)).2 ref.kind⟩ : Ctx) =
        c.unlinked ref.kind := by
    simp only [Ctx.unlinked, Ctx.withSlot, hok.name, hbpf]
  have hwp : wp (takeSlot ref) (fun _ v => v = w.put ref.owner c') w := by
    simp only [takeSlot, wp_bind, wp_read, hbd, wp_update, hdiscr, lookupSession,
      Dir.find_insert_self, hsd, wp_pure,
      wp_onSession, hctx]
    refine ⟨_, c', hrun, ?_⟩
    simp only [World.put, Dir.insert_insert]
  obtain ⟨_, v, hv, rfl⟩ := hwp
  exact hv

theorem txDrain_runs (bound : Nat) (hw : Sound w) : wp (txDrain bound) (fun _ w' => Drains w w') w := by
  induction bound generalizing w with
  | zero => exact (wp_pure _ _ _).mpr .refl
  | succ bound ih =>
    cases hp : peek w.bpf.tx with
    | none =>
      refine ⟨_, _, txDrain_empty bound hp, .single (.inl (.shared (.disarm _ ?_)))⟩
      rw [pending_eq_peek, hp]
      rfl
    | some ref =>
      have hask : Step .shared w w.asked := .shared (.ask _)
      by_cases hr : HasRoom w.asked.bpf
      · obtain ⟨c, c', hc, hl, hrun, ht⟩ := takeSlot_runs (hask.sound hw) hp
        have hstep := Step.handled hc (.drain ref.kind hl hrun)
        rw [wp, txDrain_turn bound hp hr ht]
        refine wp_mono (ih (hstep.sound (hask.sound hw))) (fun _ w' hd => .trans ?_ hd)
        exact .tail (.single (.inl hask)) (.inr ⟨_, _, hstep⟩)
      · exact ⟨_, _, txDrain_full bound hp hr, .single (.inl hask)⟩

theorem Sound.discr_of_find (hw : Sound w) {d : UInt32} {dsess : DSession}
    (hd : w.sdir.find d = some dsess) :
    dsess.localData.discr = d := by
  obtain ⟨b, -, hs⟩ := hw.find hd
  have hok := hw.session d _ hs
  exact hok.queue.discr.trans hok.name

theorem Sound.matched (hw : Sound w) {digest : MatchDigest} {s : DSession}
    (hm : matchSession w digest = [s]) :
    w.sdir.find s.localData.discr = some s := by
  have hmem : s ∈ matchSession w digest := by
    rw [hm]
    exact List.mem_singleton_self s
  obtain ⟨k, hk⟩ := Dir.mem_values.mp (List.mem_filter.mp hmem).1
  rw [hw.discr_of_find hk, hk]

theorem packetFor_runs (hw : Sound w) {dsess : Option DSession} (packet : BfdPkt)
    (wireLen : UInt32) (ttl : UInt8)
    (hd : ∀ s, dsess = some s → w.sdir.find s.localData.discr = some s) :
    wp (packetFor dsess packet wireLen ttl) (fun _ w' => Shape (fun l => ∃ s, dsess = some s ∧
      l = .handler s.localData.discr (.packet packet wireLen ttl)) w w') w := by
  cases dsess with
  | none => exact (wp_pure _ _ _).mpr (.of_quiet hw .refl)
  | some s =>
    have hsd := hd s rfl
    obtain ⟨b, hbd, hs⟩ := hw.find hsd
    simp only [packetFor, lookupSession, wp_bind, wp_read, hsd, hbd, wp_pure, wp_onSession]
    refine wp_mono (wp_eq (packet_runs (hw.session _ _ hs) packet wireLen ttl)) (fun _ c' h => ?_)
    exact .of_step hw ⟨s, rfl, rfl⟩ rfl (.handled hs (.packet packet wireLen ttl h.1))

/-- What an element of the ring buffer calls for. -/
def RingCall (nl : Nl) (w : World) : RbElem → Label → Prop
  | .txNoNeigh _ _ _, _ => False
  | .rxTimeout discr, l => l = .handler discr .timeout
  | .rxUnxPkt wireLen ttl packet, l => l = .handler (ntoh32 packet.yourDisc) (.packet packet wireLen ttl)
  | .rxDiscr0 ifindex wireLen ethtype ttl multihop saddr daddr packet, l => ∃ digest s,
    discr0Digest nl ifindex ethtype ttl multihop saddr daddr packet = .ok digest ∧ matchSession w digest = [s] ∧
      l = .handler s.localData.discr (.packet packet wireLen ttl)

theorem ringCall_handler {nl : Nl} {elem : RbElem} {d : UInt32} {h : Handler}
    (hr : RingCall nl w elem (.handler d h)) :
    (elem = .rxTimeout d ∧ h = .timeout) ∨ ∃ packet wireLen ttl, h = .packet packet wireLen ttl ∧
      ((elem = .rxUnxPkt wireLen ttl packet ∧ ntoh32 packet.yourDisc = d) ∨
        ∃ ifindex ethtype multihop saddr daddr digest s,
          elem = .rxDiscr0 ifindex wireLen ethtype ttl multihop saddr daddr packet ∧
          discr0Digest nl ifindex ethtype ttl multihop saddr daddr packet = .ok digest ∧
            matchSession w digest = [s] ∧
          s.localData.discr = d) := by
  cases elem with
  | txNoNeigh => exact hr.elim
  | rxTimeout =>
    cases hr
    exact .inl ⟨rfl, rfl⟩
  | rxUnxPkt =>
    cases hr
    exact .inr ⟨_, _, _, rfl, .inl ⟨rfl, rfl⟩⟩
  | rxDiscr0 =>
    obtain ⟨digest, s, hdig, hm, hl⟩ := hr
    cases hl
    exact .inr ⟨_, _, _, rfl, .inr ⟨_, _, _, _, _, digest, s, rfl, hdig, hm, rfl⟩⟩

theorem rbHandleNoNeigh_runs (ethtype : UInt16) (addr : Addr) :
    wp (rbHandleNoNeigh ethtype addr) (fun _ w' => Quiet w w') w := by
  unfold rbHandleNoNeigh
  split
  · exact wp_mono (outputWorld_runs w _) (fun _ _ h => .single h)
  · refine wp_seq (askWorld_runs w) (fun a w₁ h₁ => ?_)
    rw [wp_ite]
    split
    · exact (wp_pure _ _ _).mpr (.single h₁.1)
    · exact wp_mono (outputWorld_runs w₁ _) (fun _ _ h => .tail (.single h₁.1) h)

theorem rbHandleTimeout_runs (hw : Sound w) {discr : UInt32}
    (h : ∀ c, w.session discr = some c → c.bsess.bstate ≠ .onHold) :
    wp (rbHandleTimeout discr) (fun _ w' => Shape (fun l => l = .handler discr .timeout) w w') w := by
  simp only [rbHandleTimeout, wp_bind, wp_read]
  cases hd : w.sdir.find discr with
  | none => exact (wp_pure _ _ _).mpr (.of_quiet hw .refl)
  | some dsess =>
    obtain ⟨b, hb, hs⟩ := hw.find hd
    simp only [lookupSession, wp_bind, wp_read, hd, hb, wp_pure, wp_onSession]
    refine wp_mono (wp_eq (timeout_runs (hw.session _ _ hs) (h _ hs))) (fun _ c' hr => ?_)
    exact .of_step hw rfl rfl (.handled hs (.timeout hr.1))

theorem rbHandle_runs (nl : Nl) (hw : Sound w) (elem : RbElem)
    (h : ∀ discr c, elem = .rxTimeout discr → w.session discr = some c → c.bsess.bstate ≠ .onHold) :
    wp (rbHandle nl elem) (fun _ w' => Shape (RingCall nl w elem) w w') w := by
  cases elem with
  | txNoNeigh ifindex ethtype addr =>
    exact wp_mono (rbHandleNoNeigh_runs ethtype addr) (fun _ _ hq => .of_quiet hw hq)
  | rxTimeout discr => exact rbHandleTimeout_runs hw (fun c => h discr c rfl)
  | rxUnxPkt wireLen ttl packet =>
    refine (wp_bind _ _ _ _).mpr ((wp_read _ _).mpr ?_)
    have hd : ∀ s, w.sdir.find (ntoh32 packet.yourDisc) = some s → s.localData.discr = ntoh32 packet.yourDisc :=
      fun s hs => hw.discr_of_find hs
    refine wp_mono (packetFor_runs hw packet wireLen ttl (fun s hs => by rw [hd s hs, hs]))
      (fun _ w' hs => hs.mono ?_)
    rintro l ⟨s, hs, rfl⟩
    rw [hd s hs]
    rfl
  | rxDiscr0 ifindex wireLen ethtype ttl multihop saddr daddr packet =>
    simp only [rbHandle]
    cases hdig : discr0Digest nl ifindex ethtype ttl multihop saddr daddr packet with
    | error e => exact wp_mono (outputWorld_runs w _) (fun _ _ hq => .of_quiet hw (.single hq))
    | ok digest =>
      simp only [wp_bind, wp_read]
      split
      · rename_i s hm
        have hs := hw.matched hm
        refine wp_mono (packetFor_runs hw packet wireLen ttl (fun s' hs' => by cases hs'; exact hs))
          (fun _ w' hsh => hsh.mono ?_)
        rintro l ⟨s', hs', rfl⟩
        cases hs'
        exact ⟨digest, s, hdig, hm, rfl⟩
      · exact (wp_update _ _ _).mpr (.of_quiet hw (.single (.shared (.count _))))

end

end Bbdd.Daemon
