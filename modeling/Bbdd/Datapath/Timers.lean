import Bbdd.Datapath.Moves

namespace Bbdd.Datapath

open Lib.Program Session Prog TxQueue

def timersOf (timers : List Timer) (ptr : Nat) : List Timer := timers.filter (·.owner = ptr)

def without (timers : List Timer) (id : Nat) : List Timer := timers.filter (·.id ≠ id)

def Pending (timers : List Timer) (id : Nat) : Prop := ∃ t ∈ timers, t.id = id

instance (timers : List Timer) (id : Nat) : Decidable (Pending timers id) :=
  inferInstanceAs (Decidable (∃ t ∈ timers, t.id = id))

theorem mem_timersOf {timers : List Timer} {ptr : Nat} {t : Timer} :
    t ∈ timersOf timers ptr ↔ t ∈ timers ∧ t.owner = ptr := by
  simp [timersOf]

theorem mem_without {timers : List Timer} {id : Nat} {t : Timer} :
    t ∈ without timers id ↔ t ∈ timers ∧ t.id ≠ id := by
  simp [without]

theorem Pending.of_mine {timers : List Timer} {ptr id : Nat} (h : Pending (timersOf timers ptr) id) :
    Pending timers id := by
  obtain ⟨t, ht, hid⟩ := h
  exact ⟨t, (mem_timersOf.mp ht).1, hid⟩

theorem timersOf_without (timers : List Timer) (ptr id : Nat) :
    timersOf (without timers id) ptr = without (timersOf timers ptr) id := by
  simp only [timersOf, without, List.filter_filter, Bool.and_comm]

theorem timersOf_without_of_ne {timers : List Timer} {id ptr q : Nat}
    (h : ∀ t ∈ timers, t.id = id → t.owner = ptr) (hq : q ≠ ptr) :
    timersOf (without timers id) q = timersOf timers q := by
  rw [timersOf_without, without, List.filter_eq_self]
  intro t ht
  obtain ⟨ht, ho⟩ := mem_timersOf.mp ht
  have hne : t.id ≠ id := fun he => hq (ho ▸ h t ht he)
  simpa using hne

theorem timersOf_append (timers : List Timer) (t : Timer) :
    timersOf (timers ++ [t]) t.owner = timersOf timers t.owner ++ [t] := by
  simp [timersOf]

theorem timersOf_append_of_ne (timers : List Timer) {t : Timer} {ptr : Nat} (h : t.owner ≠ ptr) :
    timersOf (timers ++ [t]) ptr = timersOf timers ptr := by
  simp [timersOf, h]

def Supplied (b : Bpf) : Prop := ∀ n, (b.answers n).malloc = true ∧ (b.answers n).timerfd = true

def SameSupply (b b' : Bpf) : Prop := b'.nextTimer = b.nextTimer ∧ b'.answers = b.answers

theorem SameSupply.supplied {b b' : Bpf} (h : SameSupply b b') (hs : Supplied b) : Supplied b' := by
  intro n
  rw [h.2]
  exact hs n

theorem supply_frame {c c' : Ctx} (h : Frame c c') : SameSupply c.bpf c'.bpf := ⟨h.nextTimer, h.answers⟩

theorem ask_runs (c : Ctx) : wp ask (fun a c' => Frame c c' ∧ ∃ n, a = c.bpf.answers n) c :=
  ⟨_, _, rfl, within_ask c _ _ rfl, c.bpf.tick, rfl⟩

theorem timerSet_runs (c : Ctx) (fn : TimerFn) :
    wp (timerSet fn) (fun r c' => match r with
      | .error _ => Frame c c' ∧ ¬ Supplied c.bpf
      | .ok id => id = c.bpf.nextTimer ∧ Frame { c with bpf := { c.bpf with
          timers := c.bpf.timers ++ [⟨c.bpf.nextTimer, fn, c.bsess.discr, c.bsess.ptr⟩]
          nextTimer := c.bpf.nextTimer + 1 } } c') c := by
  refine wp_seq (ask_runs c) (fun a c₁ h₁ => ?_)
  obtain ⟨h₁, n, rfl⟩ := h₁
  rw [wp_ite]
  split
  · rename_i ha
    exact (wp_pure _ _ _).mpr ⟨h₁, fun hs => by simp [(hs n).1] at ha⟩
  · refine wp_seq (ask_runs c₁) (fun a c₂ h₂ => ?_)
    obtain ⟨h₂, n, rfl⟩ := h₂
    have h := h₁.trans h₂
    rw [wp_ite]
    split
    · rename_i ha
      exact (wp_pure _ _ _).mpr ⟨h, fun hs => by simp [((supply_frame h₁).supplied hs n).2] at ha⟩
    · simp only [onBpf, wp_bind, wp_read, wp_update, wp_pure]
      refine ⟨h.nextTimer, ?_⟩
      exact { h with
        timers := by simp [h.timers, h.nextTimer, h.discr, h.ptr]
        nextTimer := by simp [h.nextTimer] }

theorem timerCancel_runs {c : Ctx} {id : Nat} (h : Pending c.bpf.timers id) :
    wp (timerCancel id) (fun _ c' => Frame { c with bpf := c.bpf.timerDrop id } c') c := by
  have hp : ∃ t ∈ c.bpf.timers, t.id = id := h
  simp only [timerCancel, wp_bind, wp_read, if_pos hp, onBpf, wp_update]
  refine wp_mono (total_ask.wp within_ask _) (fun a c₁ h₁ => ?_)
  rw [wp_ite]
  split
  · exact (wp_pure _ _ _).mpr h₁
  · exact wp_mono ((total_monSenderr _ _).wp (within_monSenderr _ _) c₁) (fun _ _ h₂ => h₁.trans h₂)

theorem timerCancel_ok {c c' : Ctx} {id : Nat} (h : timerCancel id c = .ok ((), c')) :
    Pending c.bpf.timers id ∧ Frame { c with bpf := c.bpf.timerDrop id } c' := by
  by_cases hp : Pending c.bpf.timers id
  · have hf := wp_ok (timerCancel_runs hp) h
    exact ⟨hp, hf⟩
  · have hw := wp_of_ok h
    have hp' : ¬ ∃ t ∈ c.bpf.timers, t.id = id := hp
    simp only [timerCancel, wp_bind, wp_read, if_neg hp', wp_crash] at hw

theorem shwaitStop_ok {c c' : Ctx} (h : shwaitStop c = .ok ((), c')) :
    ∃ id, c.bsess.shwait = some id ∧ Pending c.bpf.timers id ∧
      Frame { c with bpf := c.bpf.timerDrop id, bsess := { c.bsess with shwait := none } } c' := by
  have hw := wp_of_ok h
  simp only [shwaitStop, wp_bind, wp_read] at hw
  cases hs : c.bsess.shwait with
  | none => simp [hs] at hw
  | some id =>
    simp only [hs, wp_bind, onBsess] at hw
    obtain ⟨_, c₁, hc, hu⟩ := hw
    obtain ⟨-, rfl⟩ := (wp_update _ _ _).mp hu
    obtain ⟨hp, hf⟩ := timerCancel_ok hc
    exact ⟨id, rfl, hp, { hf with shwait := rfl }⟩

theorem holdStop_ok {c c' : Ctx} (h : holdStop c = .ok ((), c')) :
    ∃ id, c.bsess.hold = some id ∧ Pending c.bpf.timers id ∧
      Frame { c with bpf := c.bpf.timerDrop id, bsess := { c.bsess with hold := none } } c' := by
  have hw := wp_of_ok h
  simp only [holdStop, wp_bind, wp_read] at hw
  cases hs : c.bsess.hold with
  | none => simp [hs] at hw
  | some id =>
    simp only [hs, wp_bind, onBsess] at hw
    obtain ⟨_, c₁, hc, hu⟩ := hw
    obtain ⟨-, rfl⟩ := (wp_update _ _ _).mp hu
    obtain ⟨hp, hf⟩ := timerCancel_ok hc
    exact ⟨id, rfl, hp, { hf with hold := rfl }⟩

/-- A context in which a timer was set for the session, which now has the
pointers of another version of it. -/
def Ctx.withTimer (c : Ctx) (fn : TimerFn) (b : BSession) : Ctx :=
  { c with
    bpf := { c.bpf with
      timers := c.bpf.timers ++ [⟨c.bpf.nextTimer, fn, c.bsess.discr, c.bsess.ptr⟩]
      nextTimer := c.bpf.nextTimer + 1 }
    bsess := b }

theorem Frame.withTimer {c c' : Ctx} (h : Frame c c') (fn : TimerFn) :
    Frame (c.withTimer fn c.bsess) (c'.withTimer fn c'.bsess) :=
  { h with
    timers := by simp [Ctx.withTimer, h.timers, h.nextTimer, h.discr, h.ptr]
    nextTimer := by simp [Ctx.withTimer, h.nextTimer] }

theorem shwaitStart_ok {c c' : Ctx} {r : Except String Unit} (h : shwaitStart c = .ok (r, c')) :
    Frame c c' ∨ Frame (c.withTimer .shwait { c.bsess with shwait := some c.bpf.nextTimer }) c' := by
  have hw := wp_of_ok h
  simp only [shwaitStart, wp_bind, wp_read] at hw
  split at hw
  · simp at hw
  · simp only [wp_bind] at hw
    obtain ⟨a, c₁, ha, hw⟩ := hw
    obtain ⟨f₁, -⟩ := wp_ok (ask_runs c) ha
    rw [wp_ite] at hw
    split at hw
    · obtain ⟨-, rfl⟩ := (wp_pure _ _ _).mp hw
      exact .inl f₁
    · rw [wp_attempt] at hw
      obtain ⟨r₂, c₂, hs, hw⟩ := hw
      have h₂ := wp_ok (timerSet_runs c₁ .shwait) hs
      cases r₂ with
      | error e =>
        obtain ⟨-, rfl⟩ := hw
        exact .inl (f₁.trans h₂.1)
      | ok id =>
        obtain ⟨rfl, f₂⟩ := h₂
        simp only [onBsess, wp_bind, wp_update, wp_pure] at hw
        obtain ⟨-, rfl⟩ := hw
        exact .inr { (f₁.withTimer .shwait).trans f₂ with shwait := by simp [Ctx.withTimer, f₁.nextTimer] }

theorem holdStart_runs (c : Ctx) : wp holdStart (fun r c' => match r with
    | .error _ => Frame c c'
    | .ok _ => Frame (c.withTimer .hold { c.bsess with hold := some c.bpf.nextTimer }) c') c := by
  refine wp_seq (ask_runs c) (fun a c₁ h₁ => ?_)
  obtain ⟨f₁, -⟩ := h₁
  rw [wp_ite]
  split
  · exact (wp_pure _ _ _).mpr f₁
  · rw [wp_attempt]
    refine wp_mono (timerSet_runs c₁ .hold) (fun r c₂ h₂ => ?_)
    cases r with
    | error e => exact f₁.trans h₂.1
    | ok id =>
      obtain ⟨rfl, f₂⟩ := h₂
      simp only [onBsess, wp_bind, wp_update, wp_pure]
      exact { (f₁.withTimer .hold).trans f₂ with hold := by simp [Ctx.withTimer, f₁.nextTimer] }

/-- All that setting and cancelling timers and arming the socket changes, apart
from what the kernel does meanwhile. Failures are reported. -/
structure Timed (c c' : Ctx) : Prop where
  dsess : c'.dsess = c.dsess
  bsess : ∃ shwait hold, c'.bsess = { c.bsess with shwait := shwait, hold := hold }
  bpf : ∃ evs timers next tick new armed,
    c'.bpf = { c.bpf with
      kernel := c.bpf.kernel.steps c.bpf.vethTxIfindex evs, timers := timers, nextTimer := next, tick := tick
      outputs := c.bpf.outputs ++ new, txPolloutRegistered := armed }
  armed : c.bpf.txPolloutRegistered = true → c'.bpf.txPolloutRegistered = true

theorem Timed.refl (c : Ctx) : Timed c c :=
  ⟨rfl, ⟨_, _, rfl⟩, ⟨[], _, _, _, [], _, by rw [List.append_nil]; rfl⟩, id⟩

theorem Timed.trans {a b c : Ctx} (h : Timed a b) (k : Timed b c) : Timed a c := by
  obtain ⟨hd, ⟨s, o, hb⟩, ⟨evs, t, n, tk, out, ar, hp⟩, ha⟩ := h
  obtain ⟨kd, ⟨s', o', kb⟩, ⟨evs', t', n', tk', out', ar', kp⟩, ka⟩ := k
  refine ⟨kd.trans hd, ⟨s', o', by rw [kb, hb]⟩, ⟨evs ++ evs', t', n', tk', out ++ out', ar', ?_⟩, ka ∘ ha⟩
  rw [kp, hp, Kernel.steps_append, List.append_assoc]

instance : Std.Refl Timed := ⟨Timed.refl⟩

instance : IsTrans Ctx Timed := ⟨fun _ _ _ => Timed.trans⟩

theorem timed_ask : Within Timed ask := by
  intro c a c' h
  cases h
  exact ⟨rfl, ⟨_, _, rfl⟩, ⟨_, _, _, _, [], _, by rw [List.append_nil]; rfl⟩, id⟩

theorem timed_onBpf {f : Bpf → Bpf}
    (h : ∀ b, ∃ timers next armed, (b.txPolloutRegistered = true → armed = true) ∧
      f b = { b with timers := timers, nextTimer := next, txPolloutRegistered := armed }) :
        Within Timed (onBpf f) := by
  refine within_update (fun c => ?_)
  obtain ⟨timers, next, armed, ha, hf⟩ := h c.bpf
  exact ⟨rfl, ⟨_, _, rfl⟩, ⟨[], timers, next, _, [], armed, by rw [List.append_nil, hf]; rfl⟩, by
    rw [hf]; exact ha⟩

theorem timed_output (o : Output) : Within Timed (onBpf (·.output o)) :=
  within_update (fun _ => ⟨rfl, ⟨_, _, rfl⟩, ⟨[], _, _, _, [o], _, rfl⟩, id⟩)

theorem timed_onBsess {f : BSession → BSession}
    (h : ∀ b, ∃ shwait hold, f b = { b with shwait := shwait, hold := hold }) :
    Within Timed (onBsess f) := by
  refine within_update (fun c => ?_)
  obtain ⟨shwait, hold, hf⟩ := h c.bsess
  exact ⟨rfl, ⟨shwait, hold, hf⟩, ⟨[], _, _, _, [], _, by rw [List.append_nil]; rfl⟩, id⟩

theorem timed_timerCancel (id : Nat) : Within Timed (timerCancel id) := by
  refine within_bind within_read (fun c => within_ite ?_ (within_crash _))
  refine within_bind (timed_onBpf (fun _ => ⟨_, _, _, fun h => h, rfl⟩))
    (fun _ => within_bind timed_ask (fun a => ?_))
  exact within_ite (within_pure _) (timed_output _)

theorem timed_timerSet (fn : TimerFn) : Within Timed (timerSet fn) := by
  refine within_bind timed_ask (fun a => within_ite (within_pure _) ?_)
  refine within_bind timed_ask (fun a => within_ite (within_pure _) (within_bind within_read (fun c => ?_)))
  exact within_bind (timed_onBpf (fun _ => ⟨_, _, _, id, rfl⟩)) (fun _ => within_pure _)

theorem timed_txPolloutArm : Within Timed txPolloutArm := by
  refine within_bind within_read (fun c => within_ite (within_pure _) ?_)
  exact within_bind timed_ask (fun a =>
    within_ite (timed_onBpf (fun _ => ⟨_, _, _, fun _ => rfl, rfl⟩)) (timed_output _))

theorem timed_shwaitStop : Within Timed shwaitStop := by
  refine within_bind within_read (fun c => ?_)
  split
  · exact within_crash _
  · exact within_bind (timed_timerCancel _) (fun _ => timed_onBsess (fun _ => ⟨_, _, rfl⟩))

theorem timed_holdStop : Within Timed holdStop := by
  refine within_bind within_read (fun c => ?_)
  split
  · exact within_crash _
  · exact within_bind (timed_timerCancel _) (fun _ => timed_onBsess (fun _ => ⟨_, _, rfl⟩))

theorem timed_shwaitStart : Within Timed shwaitStart := by
  refine within_bind within_read (fun c => ?_)
  split
  · exact within_crash _
  · refine within_bind timed_ask
      (fun a => within_ite (within_pure _) (within_attempt (timed_timerSet _) (fun _ => ?_)))
    exact within_bind (timed_onBsess (fun _ => ⟨_, _, rfl⟩)) (fun _ => within_pure _)

theorem timed_holdStart : Within Timed holdStart := by
  refine within_bind timed_ask
    (fun a => within_ite (within_pure _) (within_attempt (timed_timerSet _) (fun _ => ?_)))
  exact within_bind (timed_onBsess (fun _ => ⟨_, _, rfl⟩)) (fun _ => within_pure _)

/-- The list of timers, as far as one session relies on it: identities are
never reused, and both pointers of the session are to timers of its own. -/
structure TimersOk (c : Ctx) : Prop where
  ids : ∀ t ∈ c.bpf.timers, t.id < c.bpf.nextTimer
  nodup : (c.bpf.timers.map (·.id)).Nodup
  shwait : ∀ id, c.bsess.shwait = some id → ⟨id, .shwait, c.bsess.discr, c.bsess.ptr⟩ ∈ c.bpf.timers
  hold : ∀ id, c.bsess.hold = some id → ⟨id, .hold, c.bsess.discr, c.bsess.ptr⟩ ∈ c.bpf.timers

/-- What a handler of one session leaves to the others. -/
structure TimersApart (c c' : Ctx) : Prop where
  discr : c'.bsess.discr = c.bsess.discr
  ptr : c'.bsess.ptr = c.bsess.ptr
  next : c.bpf.nextTimer ≤ c'.bpf.nextTimer
  others : ∀ q, q ≠ c.bsess.ptr → timersOf c'.bpf.timers q = timersOf c.bpf.timers q
  owned : ∀ t ∈ c'.bpf.timers, t ∈ c.bpf.timers ∨ (t.owner = c.bsess.ptr ∧ t.discr = c.bsess.discr)

theorem TimersApart.refl (c : Ctx) : TimersApart c c :=
  ⟨rfl, rfl, Nat.le_refl _, fun _ _ => rfl, fun _ h => .inl h⟩

theorem TimersApart.trans {a b c : Ctx} (h : TimersApart a b) (k : TimersApart b c) : TimersApart a c where
  discr := k.discr.trans h.discr
  ptr := k.ptr.trans h.ptr
  next := Nat.le_trans h.next k.next
  others := fun q hq => (k.others q (by rwa [h.ptr])).trans (h.others q hq)
  owned := by
    intro t ht
    obtain ht | ht := k.owned t ht
    · exact h.owned t ht
    · rw [h.ptr, h.discr] at ht
      exact .inr ht

section

variable {c c' : Ctx}

theorem Frame.timersOk (h : Frame c c') (hc : TimersOk c) : TimersOk c' := by
  obtain ⟨h₁, h₂, h₃, h₄⟩ := hc
  constructor
  · rw [h.timers, h.nextTimer]; exact h₁
  · rw [h.timers]; exact h₂
  · rw [h.timers, h.shwait, h.discr, h.ptr]; exact h₃
  · rw [h.timers, h.hold, h.discr, h.ptr]; exact h₄

theorem Frame.timersApart (h : Frame c c') : TimersApart c c' :=
  ⟨h.discr, h.ptr, h.nextTimer.ge, fun _ _ => by rw [h.timers], fun _ ht => .inl (h.timers ▸ ht)⟩

theorem Writes.timersOk (h : Writes c c') (hc : TimersOk c) : TimersOk c' := by
  obtain ⟨h₁, h₂, h₃, h₄⟩ := hc
  constructor
  · rw [h.bpf]; exact h₁
  · rw [h.bpf]; exact h₂
  · rw [h.bpf, h.shwait, h.bdiscr, h.ptr]; exact h₃
  · rw [h.bpf, h.hold, h.bdiscr, h.ptr]; exact h₄

theorem Writes.timersApart (h : Writes c c') : TimersApart c c' :=
  ⟨h.bdiscr, h.ptr, by rw [h.bpf], fun _ _ => by rw [h.bpf], fun _ ht => .inl (h.bpf ▸ ht)⟩

theorem TimersOk.drop (h : TimersOk c) {id : Nat} {fn : TimerFn}
    (ht : ⟨id, fn, c.bsess.discr, c.bsess.ptr⟩ ∈ c.bpf.timers) {b : BSession}
    (hd : b.discr = c.bsess.discr) (hp : b.ptr = c.bsess.ptr)
    (hs : ∀ i, b.shwait = some i → c.bsess.shwait = some i ∧ fn ≠ .shwait)
    (hh : ∀ i, b.hold = some i → c.bsess.hold = some i ∧ fn ≠ .hold) :
    TimersOk { c with bpf := c.bpf.timerDrop id, bsess := b } ∧
      TimersApart c { c with bpf := c.bpf.timerDrop id, bsess := b } := by
  -- the dropped timer is the only one with its identity, so every other one stays
  have hkeep : ∀ t ∈ c.bpf.timers, t ≠ ⟨id, fn, c.bsess.discr, c.bsess.ptr⟩ → t ∈ without c.bpf.timers id :=
    fun t hm hne => mem_without.mpr ⟨hm, fun he => hne (List.inj_on_of_nodup_map h.nodup hm ht he)⟩
  refine ⟨⟨?_, ?_, ?_, ?_⟩, ⟨hd, hp, Nat.le_refl _, ?_, fun t hm => .inl (mem_without.mp hm).1⟩⟩
  · exact fun t hm => h.ids t (mem_without.mp hm).1
  · exact h.nodup.sublist (List.filter_sublist.map _)
  · intro i hi
    obtain ⟨hi, hfn⟩ := hs i hi
    change (⟨i, .shwait, b.discr, b.ptr⟩ : Timer) ∈ without c.bpf.timers id
    rw [hd, hp]
    exact hkeep _ (h.shwait i hi) (fun he => hfn (congrArg Timer.fn he).symm)
  · intro i hi
    obtain ⟨hi, hfn⟩ := hh i hi
    change (⟨i, .hold, b.discr, b.ptr⟩ : Timer) ∈ without c.bpf.timers id
    rw [hd, hp]
    exact hkeep _ (h.hold i hi) (fun he => hfn (congrArg Timer.fn he).symm)
  · exact fun q hq => timersOf_without_of_ne
      (fun t hm he => by rw [List.inj_on_of_nodup_map h.nodup hm ht he]) hq

theorem TimersOk.fired (h : TimersOk c) {id : Nat}
    (ho : ∀ t ∈ c.bpf.timers, t.id = id → t.owner = c.bsess.ptr) (hs : c.bsess.shwait ≠ some id)
    (hh : c.bsess.hold ≠ some id) :
    TimersOk { c with bpf := c.bpf.timerDrop id } ∧ TimersApart c { c with bpf := c.bpf.timerDrop id } := by
  refine ⟨⟨?_, ?_, ?_, ?_⟩, ⟨rfl, rfl, Nat.le_refl _, ?_, fun t hm => .inl (mem_without.mp hm).1⟩⟩
  · exact fun t hm => h.ids t (mem_without.mp hm).1
  · exact h.nodup.sublist (List.filter_sublist.map _)
  · exact fun i hi => mem_without.mpr ⟨h.shwait i hi, fun he => hs (he ▸ hi)⟩
  · exact fun i hi => mem_without.mpr ⟨h.hold i hi, fun he => hh (he ▸ hi)⟩
  · exact fun q hq => timersOf_without_of_ne ho hq

theorem TimersOk.set (h : TimersOk c) (fn : TimerFn) {b : BSession} (hd : b.discr = c.bsess.discr)
    (hp : b.ptr = c.bsess.ptr)
    (hs : ∀ i, b.shwait = some i → c.bsess.shwait = some i ∨ (i = c.bpf.nextTimer ∧ fn = .shwait))
    (hh : ∀ i, b.hold = some i → c.bsess.hold = some i ∨ (i = c.bpf.nextTimer ∧ fn = .hold)) :
    TimersOk (c.withTimer fn b) ∧ TimersApart c (c.withTimer fn b) := by
  have hmem : ∀ {t : Timer}, t ∈ (c.withTimer fn b).bpf.timers ↔
      t ∈ c.bpf.timers ∨ t = ⟨c.bpf.nextTimer, fn, c.bsess.discr, c.bsess.ptr⟩ := by
    intro t
    simp [Ctx.withTimer]
  refine ⟨⟨?_, ?_, ?_, ?_⟩, ⟨hd, hp, Nat.le_succ _, ?_, ?_⟩⟩
  · intro t ht
    obtain ht | rfl := hmem.mp ht
    · exact Nat.lt_succ_of_lt (h.ids t ht)
    · exact Nat.lt_succ_self _
  · -- the new identity is above all others
    simp only [Ctx.withTimer, List.map_append, List.map_cons, List.map_nil]
    refine List.nodup_append.mpr ⟨h.nodup, List.nodup_singleton _, ?_⟩
    intro i hi j hj
    obtain ⟨t, ht, rfl⟩ := List.mem_map.mp hi
    rw [List.mem_singleton.mp hj]
    exact Nat.ne_of_lt (h.ids t ht)
  · intro i hi
    change (⟨i, .shwait, b.discr, b.ptr⟩ : Timer) ∈ _
    rw [hd, hp]
    obtain hi | ⟨rfl, rfl⟩ := hs i hi
    · exact hmem.mpr (.inl (h.shwait i hi))
    · exact hmem.mpr (.inr rfl)
  · intro i hi
    change (⟨i, .hold, b.discr, b.ptr⟩ : Timer) ∈ _
    rw [hd, hp]
    obtain hi | ⟨rfl, rfl⟩ := hh i hi
    · exact hmem.mpr (.inl (h.hold i hi))
    · exact hmem.mpr (.inr rfl)
  · intro q hq
    exact timersOf_append_of_ne _ (t := ⟨_, _, _, c.bsess.ptr⟩) (fun he => hq he.symm)
  · intro t ht
    obtain ht | rfl := hmem.mp ht
    · exact .inl ht
    · exact .inr ⟨rfl, rfl⟩

theorem shwaitStop_timers (h : shwaitStop c = .ok ((), c')) (hc : TimersOk c) :
    TimersOk c' ∧ TimersApart c c' := by
  obtain ⟨id, hs, -, hf⟩ := shwaitStop_ok h
  obtain ⟨hok, hap⟩ := hc.drop (hc.shwait id hs) (b := { c.bsess with shwait := none }) rfl rfl
    (by simp) (fun i hi => ⟨hi, by simp⟩)
  exact ⟨hf.timersOk hok, hap.trans hf.timersApart⟩

theorem holdStop_timers (h : holdStop c = .ok ((), c')) (hc : TimersOk c) :
    TimersOk c' ∧ TimersApart c c' := by
  obtain ⟨id, hs, -, hf⟩ := holdStop_ok h
  obtain ⟨hok, hap⟩ := hc.drop (hc.hold id hs) (b := { c.bsess with hold := none }) rfl rfl
    (fun i hi => ⟨hi, by simp⟩) (by simp)
  exact ⟨hf.timersOk hok, hap.trans hf.timersApart⟩

theorem shwaitStart_timers {r : Except String Unit} (h : shwaitStart c = .ok (r, c')) (hc : TimersOk c) :
    TimersOk c' ∧ TimersApart c c' := by
  obtain hf | hf := shwaitStart_ok h
  · exact ⟨hf.timersOk hc, hf.timersApart⟩
  · obtain ⟨hok, hap⟩ := hc.set .shwait (b := { c.bsess with shwait := some c.bpf.nextTimer }) rfl rfl
      (fun i hi => .inr ⟨(Option.some.inj hi).symm, rfl⟩) (fun i hi => .inl hi)
    exact ⟨hf.timersOk hok, hap.trans hf.timersApart⟩

theorem holdStart_timers {r : Except String Unit} (h : holdStart c = .ok (r, c')) (hc : TimersOk c) :
    TimersOk c' ∧ TimersApart c c' := by
  have hw := wp_ok (holdStart_runs c) h
  cases r with
  | error e => exact ⟨Frame.timersOk hw hc, Frame.timersApart hw⟩
  | ok _ =>
    obtain ⟨hok, hap⟩ := hc.set .hold (b := { c.bsess with hold := some c.bpf.nextTimer }) rfl rfl
      (fun i hi => .inl hi) (fun i hi => .inr ⟨(Option.some.inj hi).symm, rfl⟩)
    exact ⟨Frame.timersOk hw hok, hap.trans (Frame.timersApart hw)⟩

theorem within_txUnlink (kind : SlotKind) : Within Frame (txUnlink kind) := by
  refine within_bind within_read (fun c => ?_)
  split
  exact within_bind (within_onBpf (fun _ => rfl) (fun _ => rfl) (fun _ => rfl)) (fun _ => within_setSlot _ _)

theorem Move.answers {own : Option UInt32} (h : Move own c c') : c'.bpf.answers = c.bpf.answers := by
  cases h with
  | ask h => exact (within_ask _ _ _ h).answers
  | enqueue kind flags _ h => exact (within_txEnqueue _ _ _ _ _ _ h).answers
  | inject veth flags _ h => exact (within_sessionInjectPkt _ _ _ _ _ h).answers
  | update inject _ h => exact (within_updateNow _ _ _ _ h).answers
  | unlink kind h => exact (within_txUnlink _ _ _ _ h).answers
  | output | dequeued | capacity | maps | fired => rfl
  | shwaitStop h =>
    obtain ⟨_, _, _, hf⟩ := shwaitStop_ok h
    exact hf.answers
  | shwaitStart h => obtain hf | hf := shwaitStart_ok h <;> exact hf.answers
  | holdStop h =>
    obtain ⟨_, _, _, hf⟩ := holdStop_ok h
    exact hf.answers
  | holdStart h =>
    rename_i r
    have hw := wp_ok (holdStart_runs c) h
    cases r with
    | error e => exact Frame.answers hw
    | ok _ => exact (Frame.answers hw :)
  | write h => rw [h.bpf]

theorem Moves.answers {own : Option UInt32} (h : Moves own c c') : c'.bpf.answers = c.bpf.answers :=
  keeps_of_moves (I := fun d => d.bpf.answers = c.bpf.answers) (fun _ _ hm hd => hm.answers.trans hd) h rfl

theorem Move.timers {own : Option UInt32} (h : Move own c c') (hc : TimersOk c) :
    TimersOk c' ∧ TimersApart c c' := by
  have frame : ∀ {c' : Ctx}, Frame c c' → TimersOk c' ∧ TimersApart c c' :=
    fun hf => ⟨hf.timersOk hc, hf.timersApart⟩
  cases h with
  | ask h => exact frame (within_ask _ _ _ h)
  | enqueue kind flags _ h => exact frame (within_txEnqueue _ _ _ _ _ _ h)
  | inject veth flags _ h => exact frame (within_sessionInjectPkt _ _ _ _ _ h)
  | update inject _ h => exact frame (within_updateNow _ _ _ _ h)
  | unlink kind h => exact frame (within_txUnlink _ _ _ _ h)
  | output | dequeued | capacity | maps => exact frame { Frame.refl c with }
  | shwaitStop h => exact shwaitStop_timers h hc
  | shwaitStart h => exact shwaitStart_timers h hc
  | holdStop h => exact holdStop_timers h hc
  | holdStart h => exact holdStart_timers h hc
  | fired id ho hs hh => exact hc.fired ho hs hh
  | write h => exact ⟨h.timersOk hc, h.timersApart⟩

theorem Moves.timers {own : Option UInt32} (h : Moves own c c') (hc : TimersOk c) :
    TimersOk c' ∧ TimersApart c c' :=
  keeps_of_moves (I := fun d => TimersOk d ∧ TimersApart c d)
    (fun _ _ hm hd => ⟨(hm.timers hd.1).1, hd.2.trans (hm.timers hd.1).2⟩) h ⟨hc, .refl c⟩

end

end Bbdd.Datapath
