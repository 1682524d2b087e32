import Bbdd.Daemon.Sound

namespace Bbdd.Daemon

open Lib.Program Packet Session TxQueue Datapath Poll

/-- What the daemon runs for one session, with its arguments. -/
inductive Handler
  | set (applied : DSession)
  | packet (packet : BfdPkt) (wireLen : UInt32) (ttl : UInt8)
  | timeout
  | timer (t : Timer)
  | drain (kind : SlotKind)

def Handler.cause (c : Ctx) : Handler → Option Cause
  | .set applied => some (.configure (userBdata applied))
  | .packet pkt _ ttl =>
    (taken c pkt ttl).map fun p => .packet p.remote.state.state p.remote.timing.detectMult p.final
  | .timeout => some .timeout
  | .timer ⟨id, .hold, _, _⟩ => some (.hold id)
  | .timer ⟨id, .shwait, _, _⟩ => some (.shwait id)
  | .drain _ => none

def announced (r : Except String Unit) (changed : Bool) (c : Ctx) : Ctx :=
  if r.isOk = true ∧ changed = true ∧
    c.bsess.bstate ≠ .onHold then { c with bpf := c.bpf.output (.stateChanged c.dsess) }
  else c

/-- A run of a handler that ended well. -/
inductive Handled : Handler → Ctx → Ctx → Prop
  | set {c c' r} (applied csess) : Applied c.dsess csess applied → csess.dst.unset = false →
      sessionUpdate { c with dsess := applied } = .ok (r, c') →
      Handled (.set applied) c (announced r (decide (applied ≠ c.dsess)) c')
  | packet {c c'} (packet wireLen ttl) : handlePacket packet wireLen ttl c = .ok ((), c') →
      Handled (.packet packet wireLen ttl) c c'
  | timeout {c c'} : handleTimeout c = .ok ((), c') → Handled .timeout c c'
  | hold {c c'} (id) : ⟨id, .hold, c.bsess.discr, c.bsess.ptr⟩ ∈ c.bpf.timers → holdTimerCb c = .ok ((), c') →
      Handled (.timer ⟨id, .hold, c.bsess.discr, c.bsess.ptr⟩) c { c' with bpf := c'.bpf.timerDrop id }
  | shwait {c c'} (id) : ⟨id, .shwait, c.bsess.discr, c.bsess.ptr⟩ ∈ c.bpf.timers →
      shwaitTimerCb c = .ok ((), c') →
      Handled (.timer ⟨id, .shwait, c.bsess.discr, c.bsess.ptr⟩) c { c' with bpf := c'.bpf.timerDrop id }
  | drain {c c'} (kind) : (slotOf c.bsess kind).linked = true →
      drainSlot (slotOf c.bsess kind) (c.unlinked kind) = .ok ((), c') → Handled (.drain kind) c c'

/-- What a handler amounts to. -/
structure Handling (h : Handler) (c c' : Ctx) : Prop where
  moves : Moves none c c'
  machine : match h.cause c with
    | none => view c' = view c
    | some s => Enabled (view c) s ∧ Becomes c (fun fresh => (view c).stir fresh s) c'
  held : c'.bsess.bstate = .onHold → c'.bsess = c.bsess

section

variable {n : Nat} {discr : UInt32} {c c' : Ctx}

theorem Handling.stirred {h : Handler} {s : Cause} (hs : h.cause c = some s)
    (hm : Moves none c c') (he : Enabled (view c) s)
    (hb : Becomes c (fun fresh => (view c).stir fresh s) c')
    (hi : c'.bsess.bstate = .onHold → c'.bsess = c.bsess) : Handling h c c' where
  moves := hm
  machine := by rw [hs]; exact ⟨he, hb⟩
  held := hi

theorem Handling.still {h : Handler} (hs : h.cause c = none) (hm : Moves none c c') (hv : view c' = view c)
    (hi : c'.bsess.bstate = .onHold → c'.bsess = c.bsess) : Handling h c c' where
  moves := hm
  machine := by rw [hs]; exact hv
  held := hi

theorem held_of_awake {m : Machine} (hv : view c' = m) (hm : m.bstate ≠ .onHold) :
    c'.bsess.bstate = .onHold → c'.bsess = c.bsess :=
  fun hb => absurd (hv ▸ hb : m.bstate = .onHold) hm

theorem SessionOk.fit (hok : SessionOk n discr c) (hb : c.bsess.bstate ≠ .onHold) : Fit (view c) :=
  (hok.sane.fit hb).1

theorem view_applied {csess : CSession} {applied : DSession} (ha : Applied c.dsess csess applied) :
    view { c with dsess := applied } = { view c with user := userBdata applied } := by
  obtain ⟨d, hr⟩ := ha.rem
  simp only [view, ha.loc, hr]

theorem writes_applied (hok : SessionOk n discr c) {csess : CSession} {applied : DSession}
    (ha : Applied c.dsess csess applied) (hu : csess.dst.unset = false) :
    Writes c { c with dsess := applied } := by
  have hne : c.dsess.localData.discr ≠ 0 := by rw [hok.queue.discr, hok.name]; exact hok.named
  exact ⟨rfl, ha.kept hne, ha.port, fun _ => ha.dport, fun had => ha.addressed hu (.inr had),
    rfl, rfl, rfl, rfl, rfl, rfl, rfl, rfl⟩

theorem announced_eq (r : Except String Unit) (changed : Bool) (c : Ctx) :
    announced r changed c = c ∨ announced r changed c =
      { c with bpf := c.bpf.output (.stateChanged c.dsess) } := by
  unfold announced
  split
  · exact .inr rfl
  · exact .inl rfl

theorem Handling.announced {h : Handler} (hh : Handling h c c') (r : Except String Unit) (changed : Bool) :
    Handling h c (announced r changed c') := by
  obtain he | he := announced_eq r changed c' <;> rw [he]
  · exact hh
  · exact ⟨hh.moves.tail (.output _ _), hh.machine, hh.held⟩

theorem set_runs (hok : SessionOk n discr c) {csess : CSession} {applied : DSession}
    (ha : Applied c.dsess csess applied) (hu : csess.dst.unset = false) :
    wp sessionUpdate (fun _ c' => Handling (.set applied) c c') { c with dsess := applied } := by
  have hv := view_applied ha
  have hm : ∀ {r c'}, sessionUpdate { c with dsess := applied } = .ok (r, c') → Moves none c c' := fun hr =>
    .trans (.single (.write (writes_applied hok ha hu))) (chores_sessionUpdate _ _ _ hr).moves
  by_cases hb : c.bsess.bstate = .onHold
  · refine wp_mono (wp_eq (sessionUpdate_hold (c := { c with dsess := applied }) hb)) (fun r c' h => ?_)
    obtain ⟨hr, -, rfl⟩ := h
    refine .stirred rfl (hm hr) ha.mult ⟨some c.bpf.nextTimer, .inl rfl, ?_⟩ (fun _ => rfl)
    have hb' : (view c).bstate = .onHold := hb
    rw [hv]
    simp only [Machine.stir, Machine.configure, if_pos hb']
  · have hfit : Fit (view { c with dsess := applied }) := by
      rw [hv]
      exact { hok.fit hb with userMult := ha.mult }
    refine wp_mono (wp_eq (sessionUpdate_runs hfit)) (fun r c' h => ?_)
    obtain ⟨hr, fresh, hg, -, hv'⟩ := h
    refine .stirred rfl (hm hr) ha.mult ⟨fresh, hg, ?_⟩ (held_of_awake hv' (hfit.update fresh).awake)
    have hb' : (view c).bstate ≠ .onHold := hb
    rw [hv', hv]
    simp only [Machine.stir, Machine.configure, if_neg hb']

theorem taken_enabled {packet : BfdPkt} {ttl : UInt8} {p : Parsed} (h : taken c packet ttl = some p) :
    Enabled (view c) (.packet p.remote.state.state p.remote.timing.detectMult p.final) := by
  obtain ⟨hm, -, hm', -⟩ := parsePacket_ok (taken_parsed h)
  unfold taken at h
  split_ifs at h with h₁ h₂ h₃
  exact ⟨hm' ▸ hm, fun hb => h₁ (.inl hb), fun hb => h₁ (.inr hb), h₂⟩

theorem packet_runs (hok : SessionOk n discr c) (packet : BfdPkt) (wireLen : UInt32) (ttl : UInt8) :
    wp (handlePacket packet wireLen ttl) (fun _ c' => Handling (.packet packet wireLen ttl) c c') c := by
  by_cases hb : c.bsess.bstate = .onHold
  · have hs : wp (handlePacket packet wireLen ttl) (fun _ c' => c' = c) c := by simp [handlePacket, hb]
    refine wp_mono (wp_eq hs) (fun _ c' h => ?_)
    obtain ⟨hr, rfl⟩ := h
    exact .still (by simp [Handler.cause, taken, hb]) (moves_handlePacket _ _ _ _ _ _ hr) rfl (fun _ => rfl)
  · have hfit := hok.fit hb
    refine wp_mono (wp_eq (handlePacket_runs (.inr hfit) packet wireLen ttl)) (fun _ c' h => ?_)
    obtain ⟨hr, h⟩ := h
    have hm : Moves none c c' := moves_handlePacket _ _ _ _ _ _ hr
    cases ht : taken c packet ttl with
    | none =>
      rw [ht] at h
      exact .still (by simp [Handler.cause, ht]) hm h (held_of_awake h hfit.awake)
    | some p =>
      rw [ht] at h
      have he := taken_enabled ht
      obtain ⟨fresh, hg, hv⟩ := h
      exact .stirred (by simp [Handler.cause, ht]) hm he ⟨fresh, hg, hv⟩
        (held_of_awake hv (hfit.packet _ he.1 _ _).awake)

theorem timeout_runs (hok : SessionOk n discr c) (hb : c.bsess.bstate ≠ .onHold) :
    wp handleTimeout (fun _ c' => Handling .timeout c c') c := by
  have hfit := hok.fit hb
  refine wp_mono (wp_eq (handleTimeout_runs hfit)) (fun _ c' h => ?_)
  obtain ⟨hr, fresh, hg, hv⟩ := h
  exact .stirred rfl (chores_handleTimeout _ _ _ hr).moves hb ⟨fresh, hg, hv⟩
    (held_of_awake hv (hfit.timeout fresh).awake)

theorem view_timerDrop (c : Ctx) (id : Nat) :
    view { c with bpf := c.bpf.timerDrop id } = { view c with mine := without (view c).mine id } := by
  simp only [view, ← timersOf_without]
  rfl

theorem without_without (timers : List Timer) (id : Nat) :
    without (without timers id) id = without timers id := by
  simp [without]

theorem moves_fired {id : Nat} {fn : TimerFn} (ht : TimersOk c) (hm : Moves none c c')
    (hmem : ⟨id, fn, c.bsess.discr, c.bsess.ptr⟩ ∈ c.bpf.timers) (hs : c'.bsess.shwait ≠ some id)
    (hh : c'.bsess.hold ≠ some id) : Moves none c { c' with bpf := c'.bpf.timerDrop id } := by
  obtain ⟨-, ha⟩ := Moves.timers hm ht
  refine .tail hm (.fired c' id (fun u hu he => ?_) hs hh)
  rw [ha.ptr]
  obtain hu | hu := ha.owned u hu
  · rw [List.inj_on_of_nodup_map ht.nodup hu hmem he]
  · exact hu.1

theorem hold_runs (hok : SessionOk n discr c) (ht : TimersOk c) {id : Nat}
    (hmem : ⟨id, .hold, c.bsess.discr, c.bsess.ptr⟩ ∈ c.bpf.timers) :
    wp holdTimerCb (fun _ c' => Handling (.timer ⟨id, .hold, c.bsess.discr, c.bsess.ptr⟩) c
      { c' with bpf := c'.bpf.timerDrop id }) c := by
  have hmine : ⟨id, .hold, (view c).discr, (view c).ptr⟩ ∈ (view c).mine := mem_timersOf.mpr ⟨hmem, rfl⟩
  have hh : (view c).hold = some id := hok.sane.clocks.holds _ hmine rfl
  have hb := hok.sane.onHold hh
  have hs := (hok.sane.held hb).2.1
  refine wp_mono (wp_eq (holdTimerCb_runs hh ⟨_, hmine, rfl⟩ hs hok.sane.remMult hok.sane.userMult))
    (fun _ c' h => ?_)
  obtain ⟨hr, hv⟩ := h
  have hs' : c'.bsess.shwait = none := (congrArg Machine.shwait hv).trans hs
  have hh' : c'.bsess.hold = none := congrArg Machine.hold hv
  refine .stirred rfl (moves_fired ht (chores_holdTimerCb _ _ _ hr).moves hmem
    (by simp [hs']) (by simp [hh'])) hh ?_ ?_
  · refine ⟨some c.bpf.nextTimer, .inl rfl, ?_⟩
    rw [view_timerDrop, hv]
    simp only [Machine.stir, Machine.release, without_without]
  · exact held_of_awake (view_timerDrop c' id) (by rw [hv]; simp [Machine.release])

theorem shwait_runs (hok : SessionOk n discr c) (ht : TimersOk c) {id : Nat}
    (hmem : ⟨id, .shwait, c.bsess.discr, c.bsess.ptr⟩ ∈ c.bpf.timers) (hs : c.bsess.shwait.isSome = true) :
    wp shwaitTimerCb (fun _ c' => Handling (.timer ⟨id, .shwait, c.bsess.discr, c.bsess.ptr⟩) c
      { c' with bpf := c'.bpf.timerDrop id }) c := by
  have hmine : ⟨id, .shwait, (view c).discr, (view c).ptr⟩ ∈ (view c).mine := mem_timersOf.mpr ⟨hmem, rfl⟩
  obtain ⟨i, hi⟩ := Option.isSome_iff_exists.mp hs
  have hb : (view c).bstate ≠ .onHold := hok.sane.awake hs
  have hfit := hok.fit hb
  refine wp_mono (wp_eq (shwaitTimerCb_runs hfit hi ⟨_, hok.sane.clocks.shwaitMine i hi, rfl⟩))
    (fun _ c' h => ?_)
  obtain ⟨hr, fresh, hg, hv⟩ := h
  obtain ⟨hk, hsw⟩ := conclude_kept (view c).stop fresh
  have hh' : c'.bsess.hold = none := by
    obtain ⟨s, l, hst⟩ := (view c).stop_shape
    rw [show c'.bsess.hold = (view c').hold from rfl, hv, hk.hold, hst]
    exact (hok.sane.fit hb).2
  have hs' : c'.bsess.shwait ≠ some id := by
    rw [show c'.bsess.shwait = (view c').shwait from rfl, hv]
    obtain hsw | hsw := hsw (stop_shwait _) <;> rw [hsw]
    · simp
    · obtain rfl | ⟨rfl, -⟩ := hg
      · have := ht.ids _ hmem
        simp only [ne_eq, Option.some.injEq]
        exact fun he => absurd he (Nat.ne_of_gt this)
      · simp
  refine .stirred rfl (moves_fired ht (chores_shwaitTimerCb _ _ _ hr).moves hmem hs' (by simp [hh'])) ⟨hmine, hs⟩
    ⟨fresh, hg, ?_⟩ ?_
  · rw [view_timerDrop, hv]
    rfl
  · refine held_of_awake (view_timerDrop c' id) ?_
    rw [hv]
    exact (hfit.stop_dfr (.inr hs) fresh).awake

theorem drain_runs (hok : SessionOk n discr c) {kind : SlotKind}
    (hl : (slotOf c.bsess kind).linked = true) :
    wp (drainSlot (slotOf c.bsess kind)) (fun _ c' => Handling (.drain kind) c c') (c.unlinked kind) := by
  have hb : c.bsess.bstate ≠ .onHold := by
    intro hb
    rw [hok.idle hb kind] at hl
    cases hl
  have hfit := hok.fit hb
  have hv := unlinked_view c kind
  have hready : Ready (c.unlinked kind) := Fit.ready (hv ▸ hfit)
  have hslot := hok.queue.slots kind hl
  have hinner : wp (if (slotOf c.bsess kind).isFinal then
        sessionInjectPkt (slotOf c.bsess kind).txIfindex (slotOf c.bsess kind).bfdFlags else sessionUpdateInner)
      (fun _ c' => Frame (c.unlinked kind) c') (c.unlinked kind) := by
    rw [wp_ite]
    split
    · exact sessionInjectPkt_runs hready _ _
    · exact sessionUpdateInner_runs hready
  refine wp_mono (wp_eq (Q := fun _ c' => Frame (c.unlinked kind) c') ?_) (fun _ c' h => ?_)
  · refine wp_seq (reported_runs hinner _) (fun _ c₁ h₁ => (wp_update _ _ _).mpr ?_)
    exact { h₁ with }
  · obtain ⟨hr, hf⟩ := h
    have hv' : view c' = view c := (view_frame hf).trans hv
    refine .still rfl ?_ hv' (held_of_awake hv' hfit.awake)
    have hun : Move none c (c.unlinked kind) := .unlink kind rfl
    refine .trans (.single hun) (moves_drainSlot (fun hfin => ?_) _ _ _ _ hr)
    rw [hslot.flags, hfin]

theorem Handled.handling {h : Handler} (hh : Handled h c c') (hok : SessionOk n discr c) (ht : TimersOk c) :
    Handling h c c' := by
  cases hh with
  | set applied csess ha hu hr => exact (wp_ok (set_runs hok ha hu) hr :).announced _ _
  | packet packet wireLen ttl hr => exact (wp_ok (packet_runs hok packet wireLen ttl) hr :)
  | timeout hr =>
    have hb : c.bsess.bstate ≠ .onHold := by
      intro hb
      have hw := wp_of_ok hr
      simp [handleTimeout, hb] at hw
    exact (wp_ok (timeout_runs hok hb) hr :)
  | hold id hm hr => exact (wp_ok (hold_runs hok ht hm) hr :)
  | shwait id hm hr =>
    have hs : c.bsess.shwait.isSome = true := by
      by_contra hs
      have hw := wp_of_ok hr
      simp only [Option.isSome_iff_ne_none, ne_eq, not_not] at hs
      simp [shwaitTimerCb, shwaitStop, hs] at hw
    exact (wp_ok (shwait_runs hok ht hm hs) hr :)
  | drain kind hl hr => exact (wp_ok (drain_runs hok hl) hr :)

theorem fresh_of_granted (ht : TimersOk c) {fresh : Option Nat} (hg : Granted c.bpf fresh) :
    Fresh (view c) fresh := by
  intro id hid t hm
  obtain rfl | ⟨rfl, -⟩ := hg
  · cases hid
    exact Nat.ne_of_lt (ht.ids t (mem_timersOf.mp hm).1)
  · cases hid

theorem Handling.sane {h : Handler} (hh : Handling h c c') (hs : Sane (view c)) (ht : TimersOk c) :
    Sane (view c') := by
  have hm := hh.machine
  cases hc : h.cause c with
  | none =>
    rw [hc] at hm
    rw [hm]
    exact hs
  | some s =>
    rw [hc] at hm
    obtain ⟨he, fresh, hg, hv⟩ := hm
    rw [hv]
    exact hs.stir (fresh_of_granted ht hg) he

theorem Sound.handling {w : World} {h : Handler} (hw : Sound w) (hc : w.session discr = some c)
    (hh : Handling h c c') :
    Sound (w.put discr c') := by
  have hok := hw.session discr c hc
  refine hw.put hc (hw.upkeep hc hh.moves) (hh.sane hok.sane (hw.timersOk hc)) (fun hb kind => ?_)
  have he := hh.held hb
  rw [he] at hb ⊢
  exact hok.idle hb kind

end

end Bbdd.Daemon
