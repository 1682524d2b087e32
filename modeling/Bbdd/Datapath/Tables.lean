import Bbdd.Datapath.Marks

namespace Bbdd.Datapath

open Lib.Program Session Prog TxQueue

/-- The maps and the session are left to what the programs do to them. -/
structure Leaves (c c' : Ctx) : Prop where
  served : Served c.bpf.kernel c'.bpf.kernel
  dsess : c'.dsess = c.dsess
  discr : c'.bsess.discr = c.bsess.discr
  answers : c'.bpf.answers = c.bpf.answers

theorem Leaves.refl (c : Ctx) : Leaves c c := ⟨.refl _, rfl, rfl, rfl⟩

theorem Leaves.trans {a b c : Ctx} (h : Leaves a b) (k : Leaves b c) : Leaves a c :=
  ⟨h.served.trans k.served, k.dsess.trans h.dsess, k.discr.trans h.discr, k.answers.trans h.answers⟩

instance : Std.Refl Leaves := ⟨Leaves.refl⟩

instance : IsTrans Ctx Leaves := ⟨fun _ _ _ => Leaves.trans⟩

section

variable {c c' : Ctx}

theorem Timed.leaves (h : Timed c c') : Leaves c c' := by
  refine ⟨h.served, h.dsess, ?_, ?_⟩
  · obtain ⟨s, o, hb⟩ := h.bsess
    rw [hb]
  · obtain ⟨evs, t, n, tk, out, ar, hp⟩ := h.bpf
    rw [hp]

theorem leaves_ask : Within Leaves ask := timed_ask.mono (fun _ _ => Timed.leaves)

theorem leaves_txApplyCapacity (cap : UInt32) : Within Leaves (txApplyCapacity cap) := by
  refine within_ite (within_pure _) (within_bind leaves_ask (fun _ => within_ite (within_pure _) ?_))
  exact within_bind (within_update (fun c => { Leaves.refl c with })) (fun _ => within_pure _)

theorem leaves_txResize (sessions : Nat) (add : Bool) : Within Leaves (txResize sessions add) :=
  within_bind within_read (fun _ => within_ite (within_pure _) (leaves_txApplyCapacity _))

theorem leaves_txUnlink (kind : SlotKind) : Within Leaves (txUnlink kind) := by
  intro c _ c' h
  rw [txUnlink_ok h]
  cases kind <;> exact { Leaves.refl c with }

theorem leaves_reported {p : Act (Except String Unit)} (hp : Within Leaves p) (context : String) :
    Within Leaves (reported p context) :=
  reported_within (fun _ => within_update (fun c => { Leaves.refl c with })) hp context

/-- Which sessions have data is as before, and nothing got into the ring
buffer past the receive program. -/
structure Tended (c c' : Ctx) : Prop where
  keys : ∀ d, (c'.bpf.kernel.data d).isSome = (c.bpf.kernel.data d).isSome
  ring : ∀ elem ∈ c'.bpf.kernel.ring, elem ∈ c.bpf.kernel.ring ∨ elem.Screened

/-- The config entries are the daemon's to write; the rest of the kernel's state
is left to the programs. -/
structure AllowsDaemon (R : Kernel → Kernel → Prop) : Prop extends Allows R where
  setConfig : ∀ k discr entry, R k (k.setConfig discr entry)

section

variable {R : Kernel → Kernel → Prop} [Std.Refl R] [IsTrans Kernel R] (ha : AllowsDaemon R)
include ha

theorem sessionConfUpdate_allowed {args : ConfArgs} {r : Except String Unit}
    (h : sessionConfUpdate args c = .ok (r, c')) :
    R c.bpf.kernel c'.bpf.kernel := by
  have hask := c.bpf.ask_allowed ha.toAllows
  obtain ⟨-, ⟨rfl, -⟩ | ⟨rfl, -⟩⟩ | ⟨-, addrs, -, rfl⟩ := sessionConfUpdate_eq h
  · exact refl_of R _
  · exact hask
  · exact trans_of R hask (ha.setConfig ..)

theorem updateNow_allowed {inject : Bool} {r : Except String Unit} (h : updateNow inject c = .ok (r, c')) :
    R c.bpf.kernel c'.bpf.kernel := by
  let S : Ctx → Ctx → Prop := fun c c' => R c.bpf.kernel c'.bpf.kernel
  have : Std.Refl S := ⟨fun _ => refl_of R _⟩
  have : IsTrans Ctx S := ⟨fun _ _ _ => trans_of R⟩
  have hupd : ∀ f : BSession → BSession, Within S (onBsess f) := fun f => within_update (fun _ => refl_of R _)
  have hinj : ∀ veth flags, Within S (sessionInjectPkt veth flags) :=
    fun _ _ _ _ _ h => sessionInjectPkt_allowed ha.toAllows h
  have hrun : Within S (updateNow inject) := by
    refine within_bind (hupd _) (fun _ => within_bind within_read (fun c => ?_))
    split
    · exact within_crash _
    · refine within_attempt (fun _ _ _ h => sessionConfUpdate_allowed ha h)
        (fun _ => within_attempt ?_ (fun _ => ?_))
      · refine within_ite (within_bind within_read (fun c => ?_)) (within_pure _)
        split
        · exact within_crash _
        · exact hinj _ _
      · refine within_bind within_read (fun c => within_ite ?_ ?_)
        · exact within_attempt (hinj _ _) (fun _ => within_bind (hupd _) (fun _ => within_pure _))
        · exact within_bind (hupd _) (fun _ => within_pure _)
  exact hrun _ _ _ h

theorem Move.allowed {own : Option UInt32} (h : Move own c c') :
    R c.bpf.kernel c'.bpf.kernel ∨ ∃ d, own = some d ∧
      (∀ e, e ≠ d → c'.bpf.kernel.data e = c.bpf.kernel.data e) ∧
      c'.bpf.kernel.ring = c.bpf.kernel.ring := by
  cases h with
  | ask h => exact .inl ((timed_ask _ _ _ h).allowed ha.toAllows)
  | output | fired | dequeued | capacity => exact .inl (refl_of R _)
  | shwaitStop h => exact .inl ((timed_shwaitStop _ _ _ h).allowed ha.toAllows)
  | shwaitStart h => exact .inl ((timed_shwaitStart _ _ _ h).allowed ha.toAllows)
  | holdStop h => exact .inl ((timed_holdStop _ _ _ h).allowed ha.toAllows)
  | holdStart h => exact .inl ((timed_holdStart _ _ _ h).allowed ha.toAllows)
  | write h => exact .inl (by rw [h.bpf]; exact refl_of R _)
  | unlink kind h =>
    rw [txUnlink_ok h]
    cases kind <;> exact .inl (refl_of R _)
  | enqueue kind flags hf h =>
    rw [hf] at h
    obtain ⟨diagStats, -, ht⟩ := txEnqueue_ok h
    have hk := Timed.allowed ha.toAllows ht
    exact .inl hk
  | inject veth flags hf h => exact .inl (sessionInjectPkt_allowed ha.toAllows h)
  | update inject hg h => exact .inl (updateNow_allowed ha h)
  | maps config data ho hothers => exact .inr ⟨_, ho, fun e he => (hothers e he).2, rfl⟩

theorem Moves.allowed (h : Moves none c c') : R c.bpf.kernel c'.bpf.kernel :=
  keeps_of_moves (I := fun b => R c.bpf.kernel b.bpf.kernel)
    (fun _ _ hm hk => trans_of R hk ((hm.allowed ha).resolve_right (fun ⟨_, hd, _⟩ => by cases hd)))
      h (refl_of R _)

end

structure Kept (k k' : Kernel) : Prop where
  keys : ∀ d, (k'.data d).isSome = (k.data d).isSome
  ring : ∀ elem ∈ k'.ring, elem ∈ k.ring ∨ elem.Screened

instance : Std.Refl Kept := ⟨fun _ => ⟨fun _ => rfl, fun _ => .inl⟩⟩

instance : IsTrans Kernel Kept where
  trans _ _ _ h h' := ⟨fun d => (h'.keys d).trans (h.keys d), fun elem he =>
    (h'.ring elem he).elim (h.ring elem) .inr⟩

theorem allows_kept : AllowsDaemon Kept where
  toAllows := allows_served.mono (fun _ _ h => ⟨h.keys, h.ring⟩)
  setConfig _ _ _ := ⟨fun _ => rfl, fun _ => .inl⟩

theorem Moves.tended (h : Moves none c c') : Tended c c' := by
  have hk := Moves.allowed allows_kept h
  exact ⟨hk.keys, hk.ring⟩

theorem Moves.ring {own : Option UInt32} (h : Moves own c c') :
    ∀ elem ∈ c'.bpf.kernel.ring, elem ∈ c.bpf.kernel.ring ∨ elem.Screened := by
  refine keeps_of_moves (I := fun b => ∀ elem ∈ b.bpf.kernel.ring, elem ∈ c.bpf.kernel.ring ∨ elem.Screened)
    (fun a b hm hr elem he => ?_) h (fun _ => .inl)
  obtain hk | ⟨_, -, -, heq⟩ := hm.allowed allows_kept
  · exact (hk.ring elem he).elim (hr elem) .inr
  · exact hr elem (heq ▸ he)

theorem Moves.keys {own : Option UInt32} (h : Moves own c c') {d : UInt32} (hd : own ≠ some d) :
    (c'.bpf.kernel.data d).isSome = (c.bpf.kernel.data d).isSome := by
  refine keeps_of_moves (I := fun b => (b.bpf.kernel.data d).isSome = (c.bpf.kernel.data d).isSome)
    (fun a b hm hk => ?_) h rfl
  obtain ht | ⟨e, he, hothers, -⟩ := hm.allowed allows_kept
  · exact (ht.keys d).trans hk
  · rw [hothers d (fun heq => hd (heq ▸ he))]
    exact hk

def Deletes (b : Bpf) : Prop := ∀ n, (b.answers n).mapDelete = true

theorem Leaves.deletes (h : Leaves c c') (hd : Deletes c.bpf) : Deletes c'.bpf := by
  intro n
  rw [h.answers]
  exact hd n

/-- The data entry of a session whose config entry is there already; without
it the config entry goes again. -/
def confAddData : Act (Except String Unit) := do
  let a ← ask
  let c ← read
  let discr := c.dsess.localData.discr
  if a.mapUpdate then
    onBpf (fun b => { b with kernel := b.kernel.setData discr (some .fresh) })
    pure (.ok ())
  else
    let d ← ask
    whenever d.mapDelete (onBpf (fun b => { b with kernel := b.kernel.setConfig discr none }))
    pure (.error s!"Failed to insert session data: {a.strerror}")

theorem sessionConfAdd_eq : sessionConfAdd = attempt (sessionConfUpdate ⟨0, 0, 0, 0, 0, 0, false⟩)
    fun _ => confAddData := rfl

theorem confAddData_entered {d : UInt32} {r : Except String Unit} (hd : c.dsess.localData.discr = d)
    (h : confAddData c = .ok (r, c')) (hdel : Deletes c.bpf) (hn : (c.bpf.kernel.config d).isSome = true) :
    Entered d c.bpf.kernel c'.bpf.kernel r.isOk := by
  obtain ⟨a, c₁, ha, h⟩ := bind_ok.mp h
  have l₁ := leaves_ask _ _ _ ha
  have h := read_ok.mp h
  have hd₁ : c₁.dsess.localData.discr = d := by rw [l₁.dsess, hd]
  simp only [hd₁] at h
  split at h
  · obtain ⟨_, c₂, hu, h⟩ := bind_ok.mp h
    cases hu
    obtain ⟨rfl, rfl⟩ := pure_ok.mp h
    refine ⟨(l₁.served.entries d).trans (entries_setData ..), ?_, by simp [Except.isOk, Except.toBool]⟩
    change (c₁.bpf.kernel.config d).isSome = true
    rw [l₁.served.config]
    exact hn
  · obtain ⟨b, c₂, hb, h⟩ := bind_ok.mp h
    have l₂ := leaves_ask _ _ _ hb
    have hdb : b.mapDelete = true := by
      cases hb
      exact l₁.deletes hdel _
    obtain ⟨_, c₃, hu, h⟩ := bind_ok.mp h
    obtain ⟨rfl, rfl⟩ := pure_ok.mp h
    rw [hdb] at hu
    cases hu
    have hs := l₁.served.trans l₂.served
    exact ⟨(hs.entries d).trans (entries_setConfig ..), by simp [Except.isOk, Except.toBool], hs.keys d⟩

theorem sessionConfAdd_entered {r : Except String Unit} (h : sessionConfAdd c = .ok (r, c'))
    (hdel : Deletes c.bpf) (hn : c.bpf.kernel.config c.dsess.localData.discr = none) :
    Entered c.dsess.localData.discr c.bpf.kernel c'.bpf.kernel r.isOk := by
  rw [sessionConfAdd_eq] at h
  obtain ⟨r₁, c₁, h₁, h⟩ := bind_ok.mp h
  have hask := leaves_ask c _ _ rfl
  obtain ⟨hr, hc⟩ | ⟨hr, addrs, -, rfl⟩ := sessionConfUpdate_eq h₁
  · -- no entry was written, and none is looked for
    cases r₁ with
    | ok _ => cases hr
    | error e =>
      obtain ⟨rfl, rfl⟩ := pure_ok.mp h
      obtain ⟨rfl, -⟩ | ⟨rfl, -⟩ := hc
      · exact (Served.refl _).refused hn
      · exact hask.served.refused hn
  · cases r₁ with
    | error e => cases hr
    | ok _ =>
      have he := confAddData_entered rfl h hdel (by simp)
      refine ⟨((hask.served.entries _).trans (entries_setConfig ..)).trans he.entries, he.config,
        he.data.trans ?_⟩
      exact congrArg _ (hask.served.keys _)

theorem sessionAdd_entered {r : Except String Unit} {sessions : Nat}
    (h : sessionAdd sessions c = .ok (r, c')) (hdel : Deletes c.bpf)
    (hn : c.bpf.kernel.config c.dsess.localData.discr = none) :
    Entered c.dsess.localData.discr c.bpf.kernel c'.bpf.kernel r.isOk := by
  obtain ⟨a, c₁, ha, h⟩ := bind_ok.mp h
  have l₁ := leaves_ask _ _ _ ha
  split at h
  · obtain ⟨rfl, rfl⟩ := pure_ok.mp h
    exact l₁.served.refused hn
  obtain ⟨r₂, c₂, h₂, h⟩ := bind_ok.mp h
  have l₂ := l₁.trans (timed_holdStart _ _ _ h₂).leaves
  cases r₂ with
  | error e =>
    obtain ⟨rfl, rfl⟩ := pure_ok.mp h
    exact l₂.served.refused hn
  | ok _ =>
    obtain ⟨r₃, c₃, h₃, h⟩ := bind_ok.mp h
    have he : Entered c.dsess.localData.discr c.bpf.kernel c₃.bpf.kernel r₃.isOk := by
      obtain ⟨r₄, c₄, h₄, h₃⟩ := bind_ok.mp h₃
      have l₄ := l₂.trans (leaves_txResize _ _ _ _ _ h₄)
      cases r₄ with
      | error e =>
        obtain ⟨rfl, rfl⟩ := pure_ok.mp h₃
        exact l₄.served.refused hn
      | ok _ =>
        have hn₄ : c₄.bpf.kernel.config c₄.dsess.localData.discr = none := by rw [l₄.dsess, l₄.served.config, hn]
        have := sessionConfAdd_entered h₃ (l₄.deletes hdel) hn₄
        rw [l₄.dsess] at this
        exact this.after l₄.served
    cases r₃ with
    | error e =>
      obtain ⟨_, c₄, h₄, h⟩ := bind_ok.mp h
      obtain ⟨rfl, rfl⟩ := pure_ok.mp h
      exact he.before (timed_holdStop _ _ _ h₄).served
    | ok _ =>
      obtain ⟨rfl, rfl⟩ := pure_ok.mp h
      exact he

theorem sessionConfDelete_entries {d : UInt32} (h : sessionConfDelete d c = .ok ((), c'))
    (hdel : Deletes c.bpf) :
    Entries d c.bpf.kernel c'.bpf.kernel ∧ c'.bpf.kernel.config d = none ∧ c'.bpf.kernel.data d = none := by
  obtain ⟨a, c₁, ha, h⟩ := bind_ok.mp h
  have l₁ := leaves_ask _ _ _ ha
  have hda : a.mapDelete = true := by
    cases ha
    exact hdel _
  rw [hda] at h
  obtain ⟨_, c₂, hu, h⟩ := bind_ok.mp h
  cases hu
  obtain ⟨b, c₃, hb, h⟩ := bind_ok.mp h
  have l₃ := leaves_ask _ _ _ hb
  have hdb : b.mapDelete = true := by
    cases hb
    exact l₁.deletes hdel _
  rw [hdb] at h
  cases h
  have he : Entries d c.bpf.kernel c₃.bpf.kernel :=
    ((l₁.served.entries d).trans (entries_setConfig ..)).trans (l₃.served.entries d)
  refine ⟨he.trans (entries_setData ..), ?_, by simp⟩
  change c₃.bpf.kernel.config d = none
  rw [l₃.served.config]
  simp

theorem sessionDel_entries {sessions : Nat} (h : sessionDel sessions c = .ok ((), c'))
    (hdel : Deletes c.bpf) :
    Entries c.bsess.discr c.bpf.kernel c'.bpf.kernel ∧ c'.bpf.kernel.config c.bsess.discr = none ∧
      (c'.bpf.kernel.data c.bsess.discr).isSome = false := by
  have h := read_ok.mp h
  obtain ⟨_, c₁, h₁, h⟩ := bind_ok.mp h
  obtain ⟨_, c₂, h₂, h⟩ := bind_ok.mp h
  obtain ⟨_, c₃, h₃, h⟩ := bind_ok.mp h
  obtain ⟨_, c₄, h₄, h⟩ := bind_ok.mp h
  obtain ⟨_, c₅, h₅, h⟩ := bind_ok.mp h
  have l₁ : Leaves c c₁ := within_whenever (timed_holdStop.mono (fun _ _ => Timed.leaves)) _ _ _ h₁
  have l₂ : Leaves c₁ c₂ := within_whenever (timed_shwaitStop.mono (fun _ _ => Timed.leaves)) _ _ _ h₂
  have l₄ := ((l₁.trans l₂).trans (leaves_txUnlink _ _ _ _ h₃)).trans (leaves_txUnlink _ _ _ _ h₄)
  have l₆ := leaves_reported (leaves_txResize sessions false) _ _ _ _ h
  obtain ⟨he, hc, hd⟩ := sessionConfDelete_entries h₅ (l₄.deletes hdel)
  refine ⟨((l₄.served.entries _).trans he).trans (l₆.served.entries _), by rw [l₆.served.config, hc], ?_⟩
  rw [l₆.served.keys, hd]
  rfl

end

end Bbdd.Datapath
