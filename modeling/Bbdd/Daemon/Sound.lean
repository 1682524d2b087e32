import Bbdd.Daemon.System
import Bbdd.Poll.Lifecycle

namespace Bbdd.Daemon

open Lib.Program Lib.Directory Session Prog TxQueue Datapath Poll

def World.session (w : World) (discr : UInt32) : Option Ctx :=
  match w.sdir.find discr, w.bsdir.find discr with
  | some dsess, some bsess => some ⟨w.bpf, dsess, bsess⟩
  | _, _ => none

def World.machine (w : World) (discr : UInt32) : Option Machine := (w.session discr).map view

def World.put (w : World) (discr : UInt32) (c : Ctx) : World :=
  { w with bpf := c.bpf, sdir := w.sdir.insert discr c.dsess, bsdir := w.bsdir.insert discr c.bsess }

theorem session_eq_some {w : World} {discr : UInt32} {c : Ctx} :
    w.session discr = some c ↔
      w.sdir.find discr = some c.dsess ∧ w.bsdir.find discr = some c.bsess ∧ c.bpf = w.bpf := by
  unfold World.session
  obtain ⟨bpf, dsess, bsess⟩ := c
  split
  · rename_i d b hd hb
    simp only [hd, hb, Option.some.injEq, Ctx.mk.injEq]
    exact ⟨fun ⟨h₁, h₂, h₃⟩ => ⟨h₂, h₃, h₁.symm⟩, fun ⟨h₁, h₂, h₃⟩ => ⟨h₃.symm, h₁, h₂⟩⟩
  · rename_i hno
    simp only [reduceCtorEq, false_iff, not_and]
    exact fun hd hb => absurd hb (hno _ _ hd)

theorem session_eq_none {w : World} {discr : UInt32} (h : w.sdir.find discr = none) :
    w.session discr = none := by
  unfold World.session
  rw [h]

theorem session_put (w : World) (discr : UInt32) (c : Ctx) (e : UInt32) :
    (w.put discr c).session e = if e = discr then some c else (w.session e).map
    (fun s => { s with bpf := c.bpf }) := by
  unfold World.session World.put
  by_cases he : e = discr
  · subst he
    simp
  · simp only [Dir.find_insert_of_ne _ he, if_neg he]
    cases w.sdir.find e with
    | none => rfl
    | some d => cases w.bsdir.find e <;> rfl

theorem session_put_self (w : World) (discr : UInt32) (c : Ctx) :
    (w.put discr c).session discr = some c := by
  rw [session_put, if_pos rfl]

theorem session_put_some {w : World} {discr e : UInt32} {c s' : Ctx}
    (h : (w.put discr c).session e = some s') :
    e = discr ∧ s' = c ∨ e ≠ discr ∧ ∃ s, w.session e = some s ∧ s' = { s with bpf := c.bpf } := by
  rw [session_put] at h
  split at h
  · rename_i he
    exact .inl ⟨he, (Option.some.inj h).symm⟩
  · rename_i he
    obtain ⟨s, hs, rfl⟩ := Option.map_eq_some_iff.mp h
    exact .inr ⟨he, s, hs, rfl⟩

theorem wp_onSession {α : Type} (discr : UInt32) (dsess : DSession) (bsess : BSession) (p : Act α)
    (Q : α → World → Prop) (w : World) :
    wp (onSession discr dsess bsess p) Q w ↔ wp p (fun a c => Q a (w.put discr c)) ⟨w.bpf, dsess, bsess⟩ := by
  unfold wp onSession
  cases hp : p ⟨w.bpf, dsess, bsess⟩ with
  | error k => simp
  | ok r =>
    obtain ⟨a, c⟩ := r
    constructor
    · rintro ⟨b, w', hw, hQ⟩
      cases hw
      exact ⟨a, c, rfl, hQ⟩
    · rintro ⟨b, c', hc, hQ⟩
      cases hc
      exact ⟨a, _, rfl, hQ⟩

/-- What the daemon relies on for one of its sessions. -/
structure SessionOk (nextPtr : Nat) (discr : UInt32) (c : Ctx) : Prop where
  name : c.bsess.discr = discr
  named : discr ≠ 0
  port : sportLo ≤ c.dsess.src.port
  dport : BfdPort c.dsess
  addressed : Addressed c.dsess
  queue : QueueOk c
  idle : c.bsess.bstate = .onHold → ∀ kind, (slotOf c.bsess kind).linked = false
  sane : Sane (view c)
  ptr : c.bsess.ptr < nextPtr

/-- The invariant of the daemon between events: the two directories go
together, every session is sane, and no object is shared. -/
structure Sound (w : World) : Prop where
  sync : ∀ discr, (w.sdir.find discr).isSome = (w.bsdir.find discr).isSome
  session : ∀ discr c, w.session discr = some c → SessionOk w.nextPtr discr c
  ids : ∀ t ∈ w.bpf.timers, t.id < w.bpf.nextTimer
  nodup : (w.bpf.timers.map (·.id)).Nodup
  owners : ∀ t ∈ w.bpf.timers, t.owner < w.nextPtr
  holds : ∀ t ∈ w.bpf.timers, t.fn = .hold → ∃ c, w.session t.discr = some c ∧ c.bsess.ptr = t.owner
  distinct : ∀ d c e c', w.session d = some c → w.session e = some c' → c.bsess.ptr = c'.bsess.ptr → d = e
  queued : ∀ kind, ∀ ref ∈ listOf w.bpf.tx kind, (w.session ref.owner).isSome = true

/-- What a function of the data path owes to the daemon and its other
sessions. -/
structure Upkeep (c c' : Ctx) : Prop where
  timersOk : TimersOk c'
  timersApart : TimersApart c c'
  queueOk : QueueOk c'
  queueApart : QueueApart c c'

section

variable {w : World} {discr : UInt32} {c c' : Ctx}

theorem Sound.find (h : Sound w) {dsess : DSession} (hd : w.sdir.find discr = some dsess) :
    ∃ bsess, w.bsdir.find discr = some bsess ∧ w.session discr = some ⟨w.bpf, dsess, bsess⟩ := by
  have hs := h.sync discr
  rw [hd] at hs
  obtain ⟨bsess, hb⟩ := Option.isSome_iff_exists.mp hs.symm
  exact ⟨bsess, hb, session_eq_some.mpr ⟨hd, hb, rfl⟩⟩

theorem Sound.timersOk (h : Sound w) (hc : w.session discr = some c) : TimersOk c := by
  have hs := (h.session discr c hc).sane.clocks
  have hb := (session_eq_some.mp hc).2.2
  refine ⟨hb ▸ h.ids, hb ▸ h.nodup, fun id hi => ?_, fun id hi => ?_⟩
  · exact (mem_timersOf.mp (hs.shwaitMine id hi)).1
  · exact (mem_timersOf.mp (hs.holdMine id hi)).1

theorem Sound.upkeep (h : Sound w) (hc : w.session discr = some c) {own : Option UInt32}
    (hm : Moves own c c') : Upkeep c c' := by
  obtain ⟨h₁, h₂⟩ := Moves.timers hm (h.timersOk hc)
  obtain ⟨h₃, h₄⟩ := Moves.queue hm (h.session discr c hc).queue
  exact ⟨h₁, h₂, h₃, h₄⟩

theorem view_of_timers {bpf : Bpf}
    (h : timersOf bpf.timers c.bsess.ptr = timersOf c.bpf.timers c.bsess.ptr) :
    view { c with bpf := bpf } = view c := by
  simp only [view, h]

theorem Upkeep.others (hu : Upkeep c c') {e : Ctx} (hb : e.bpf = c.bpf) (hp : e.bsess.ptr ≠ c.bsess.ptr)
    (hd : e.bsess.discr ≠ c.bsess.discr) (hq : QueueOk e) :
    QueueOk { e with bpf := c'.bpf } ∧ view { e with bpf := c'.bpf } = view e := by
  refine ⟨⟨hq.discr, hu.queueOk.kinds, hu.queueOk.nodup, fun kind => ?_, hq.slots⟩, view_of_timers ?_⟩
  · rw [← hq.linked kind, hb]
    exact hu.queueApart.others kind _ hd
  · rw [hb]
    exact hu.timersApart.others _ hp

theorem Sound.rest (h : Sound w) (hu : Upkeep c c') (hb : c.bpf = w.bpf)
    (hd : c.bsess.discr = discr) (hp : ∀ e s, w.session e = some s → e ≠ discr → s.bsess.ptr ≠ c.bsess.ptr)
    {e : UInt32} {s : Ctx} (he : e ≠ discr) (hs : w.session e = some s) :
    SessionOk w.nextPtr e { s with bpf := c'.bpf } ∧ view { s with bpf := c'.bpf } = view s := by
  have hok := h.session e s hs
  have hbs := (session_eq_some.mp hs).2.2
  obtain ⟨hq, hv⟩ := hu.others (e := s) (hbs.trans hb.symm) (hp e s hs he)
    (by rw [hok.name, hd]; exact he) hok.queue
  refine ⟨{ hok with queue := hq, sane := ?_ }, hv⟩
  rw [hv]
  exact hok.sane

theorem Sound.ptr_ne (h : Sound w) (hc : w.session discr = some c) :
    ∀ e s, w.session e = some s → e ≠ discr → s.bsess.ptr ≠ c.bsess.ptr :=
  fun e s hs he hp => he (h.distinct e s discr c hs hc hp)

theorem SessionOk.mono {n n' : Nat} (h : SessionOk n discr c) (hn : n ≤ n') : SessionOk n' discr c :=
  { h with ptr := Nat.lt_of_lt_of_le h.ptr hn }

/-- What is asked of a session, old or new, before a function of the data path
runs for it and its outcome is stored. -/
structure Placeable (w : World) (n : Nat) (discr : UInt32) (c : Ctx) : Prop where
  bpf : c.bpf = w.bpf
  name : c.bsess.discr = discr
  named : discr ≠ 0
  port : sportLo ≤ c.dsess.src.port
  dport : BfdPort c.dsess
  addressed : Addressed c.dsess
  apart : ∀ e s, w.session e = some s → e ≠ discr → s.bsess.ptr ≠ c.bsess.ptr
  same : ∀ s, w.session discr = some s → s.bsess.ptr = c.bsess.ptr
  next : w.nextPtr ≤ n
  ptr : c.bsess.ptr < n

theorem Sound.place {n : Nat} (h : Sound w) (hp : Placeable w n discr c) (hu : Upkeep c c')
    (hs : Sane (view c'))
    (hi : c'.bsess.bstate = .onHold → ∀ kind, (slotOf c'.bsess kind).linked = false) :
    Sound { w.put discr c' with nextPtr := n } := by
  refine ⟨?_, ?_, hu.timersOk.ids, hu.timersOk.nodup, ?_, ?_, ?_, ?_⟩
  · intro e
    simp only [World.put, Dir.find_insert]
    split
    · rfl
    · exact h.sync e
  · intro e s' hs'
    obtain ⟨rfl, rfl⟩ | ⟨he, s, hs, rfl⟩ := session_put_some hs'
    · exact
        { name := hu.queueApart.discr.trans hp.name
          named := hp.named
          port := by rw [hu.queueApart.port]; exact hp.port
          dport := hu.queueApart.dport hp.dport
          addressed := hu.queueApart.addressed hp.addressed
          queue := hu.queueOk
          idle := hi
          sane := hs
          ptr := by rw [hu.timersApart.ptr]; exact hp.ptr }
    · exact (h.rest hu hp.bpf hp.name hp.apart he hs).1.mono hp.next
  · intro t ht
    obtain ht | ⟨ho, -⟩ := hu.timersApart.owned t ht
    · exact Nat.lt_of_lt_of_le (h.owners t (hp.bpf ▸ ht)) hp.next
    · rw [ho]; exact hp.ptr
  · intro t ht hfn
    change ∃ c, (w.put discr c').session t.discr = some c ∧ _
    rw [session_put]
    obtain ht | ⟨ho, hd⟩ := hu.timersApart.owned t ht
    · obtain ⟨s, hs, ho⟩ := h.holds t (hp.bpf ▸ ht) hfn
      split
      · rename_i he
        rw [he] at hs
        exact ⟨c', rfl, by rw [hu.timersApart.ptr, ← ho, hp.same s hs]⟩
      · exact ⟨{ s with bpf := c'.bpf }, by rw [hs]; rfl, ho⟩
    · rw [if_pos (hd.trans hp.name)]
      exact ⟨c', rfl, hu.timersApart.ptr.trans ho.symm⟩
  · intro d s e s' hs hs' hptr
    obtain ⟨rfl, rfl⟩ | ⟨hd, a, ha, rfl⟩ := session_put_some hs <;>
      obtain ⟨rfl, rfl⟩ | ⟨he, b, hb, rfl⟩ := session_put_some hs'
    · rfl
    · exact absurd (hptr.symm.trans hu.timersApart.ptr) (hp.apart e b hb he)
    · exact absurd (hptr.trans hu.timersApart.ptr) (hp.apart d a ha hd)
    · exact h.distinct d a e b ha hb hptr
  · intro kind ref hr
    change ((w.put discr c').session ref.owner).isSome = true
    rw [session_put]
    split
    · rfl
    · rename_i he
      have hr' := (hu.queueApart.others kind ref (by rw [hp.name]; exact he)).mp hr
      have := h.queued kind ref (hp.bpf ▸ hr')
      simpa using this

theorem Sound.placeable (h : Sound w) (hc : w.session discr = some c) : Placeable w w.nextPtr discr c :=
  have hok := h.session discr c hc
  { bpf := (session_eq_some.mp hc).2.2
    name := hok.name
    named := hok.named
    port := hok.port
    dport := hok.dport
    addressed := hok.addressed
    apart := h.ptr_ne hc
    same := fun s hs => by rw [hc] at hs; cases hs; rfl
    next := Nat.le_refl _
    ptr := hok.ptr }

theorem Sound.put (h : Sound w) (hc : w.session discr = some c) (hu : Upkeep c c')
    (hs : Sane (view c'))
    (hi : c'.bsess.bstate = .onHold → ∀ kind, (slotOf c'.bsess kind).linked = false) :
    Sound (w.put discr c') :=
  h.place (h.placeable hc) hu hs hi

theorem session_setBpf (w : World) (b : Bpf) (e : UInt32) :
    (w.setBpf b).session e = (w.session e).map (fun s => { s with bpf := b }) := by
  unfold World.session World.setBpf
  cases w.sdir.find e with
  | none => rfl
  | some d => cases w.bsdir.find e <;> rfl

theorem session_setBpf_of {w : World} {e : UInt32} {s : Ctx} (h : w.session e = some s) (b : Bpf) :
    (w.setBpf b).session e = some { s with bpf := b } := by
  rw [session_setBpf, h]
  rfl

theorem session_setBpf_some {w : World} {b : Bpf} {e : UInt32} {s' : Ctx}
    (h : (w.setBpf b).session e = some s') :
    ∃ s, w.session e = some s ∧ s' = { s with bpf := b } := by
  rw [session_setBpf] at h
  obtain ⟨s, hs, rfl⟩ := Option.map_eq_some_iff.mp h
  exact ⟨s, hs, rfl⟩

theorem session_enter {w : World} {e : UInt32} {s : Ctx} (h : w.session e = some s) (env : Env) :
    (w.enter env).session e = some { s with bpf := (w.enter env).bpf } :=
  session_setBpf_of h _

theorem session_enter_some {w : World} {env : Env} {e : UInt32} {s' : Ctx}
    (h : (w.enter env).session e = some s') :
    ∃ s, w.session e = some s ∧ s' = { s with bpf := (w.enter env).bpf } :=
  session_setBpf_some h

/-- A world that is left without a session after something was done on its
behalf: the session is in no directory, and has no hold timer and no slot in
the queue. -/
structure Forgets (discr : UInt32) (c c' : Ctx) (w w' : World) : Prop where
  bpf : w'.bpf = c'.bpf
  sync : ∀ e, (w'.sdir.find e).isSome = (w'.bsdir.find e).isSome
  session : ∀ e, w'.session e = if e = discr then none else (w.session e).map (fun s => { s with bpf := c'.bpf })
  timers : ∀ t ∈ c'.bpf.timers, t.fn = .hold → t.owner ≠ c.bsess.ptr
  slots : ∀ kind, (slotOf c'.bsess kind).linked = false

variable {w' : World}

theorem Forgets.others (hf : Forgets discr c c' w w') {e : UInt32} {s' : Ctx}
    (hs : w'.session e = some s') :
    e ≠ discr ∧ ∃ s, w.session e = some s ∧ s' = { s with bpf := c'.bpf } := by
  rw [hf.session] at hs
  split at hs
  · cases hs
  · rename_i he
    obtain ⟨s, hs', rfl⟩ := Option.map_eq_some_iff.mp hs
    exact ⟨he, s, hs', rfl⟩

theorem Forgets.not_queued (hf : Forgets discr c c' w w') (hu : Upkeep c c')
    (hd : c.bsess.discr = discr) {kind : SlotKind} {ref : SlotRef}
    (hr : ref ∈ listOf c'.bpf.tx kind) : ref.owner ≠ discr := by
  intro he
  have hk := hu.queueOk.kinds kind ref hr
  have hown : ref = ⟨c'.bsess.discr, kind⟩ := by
    rw [hu.queueApart.discr, hd, ← he, ← hk]
  have hl := (hu.queueOk.linked kind).mp (hown ▸ hr)
  rw [hf.slots kind] at hl
  cases hl

theorem Sound.forget (h : Sound w) (hp : Placeable w w'.nextPtr discr c) (hu : Upkeep c c')
    (hf : Forgets discr c c' w w') :
    Sound w' := by
  refine ⟨hf.sync, ?_, hf.bpf ▸ hu.timersOk.ids, hf.bpf ▸ hu.timersOk.nodup, ?_, ?_, ?_, ?_⟩
  · intro e s' hs'
    obtain ⟨he, s, hs, rfl⟩ := hf.others hs'
    exact (h.rest hu hp.bpf hp.name hp.apart he hs).1.mono hp.next
  · intro t ht
    rw [hf.bpf] at ht
    obtain ht | ⟨ho, -⟩ := hu.timersApart.owned t ht
    · exact Nat.lt_of_lt_of_le (h.owners t (hp.bpf ▸ ht)) hp.next
    · rw [ho]
      exact hp.ptr
  · intro t ht hfn
    rw [hf.bpf] at ht
    have hown := hf.timers t ht hfn
    obtain ht' | ⟨ho, -⟩ := hu.timersApart.owned t ht
    · obtain ⟨s, hs, ho⟩ := h.holds t (hp.bpf ▸ ht') hfn
      have he : t.discr ≠ discr := by
        intro he
        rw [he] at hs
        exact hown (ho.symm.trans (hp.same s hs))
      exact ⟨{ s with bpf := c'.bpf }, by rw [hf.session, if_neg he, hs]; rfl, ho⟩
    · exact absurd ho hown
  · intro d s e s' hs hs' hptr
    obtain ⟨-, a, ha, rfl⟩ := hf.others hs
    obtain ⟨-, b, hb, rfl⟩ := hf.others hs'
    exact h.distinct d a e b ha hb hptr
  · intro kind ref hr
    rw [hf.bpf] at hr
    have he := hf.not_queued hu hp.name hr
    have hr' := (hu.queueApart.others kind ref (by rw [hp.name]; exact he)).mp hr
    rw [hf.session, if_neg he, Option.isSome_map]
    exact h.queued kind ref (hp.bpf ▸ hr')

def World.fresh (w : World) (discr : UInt32) (dsess : DSession) : Ctx :=
  ⟨w.bpf, dsess, freshBsess discr w.nextPtr⟩

section Fresh

variable {dsess : DSession}

theorem Sound.fresh_mine (h : Sound w) (discr : UInt32) (dsess : DSession) :
    (view (w.fresh discr dsess)).mine = [] := by
  change timersOf w.bpf.timers w.nextPtr = []
  rw [timersOf, List.filter_eq_nil_iff]
  intro t ht
  simpa using Nat.ne_of_lt (h.owners t ht)

theorem Sound.fresh_timers (h : Sound w) (discr : UInt32) (dsess : DSession) :
    TimersOk (w.fresh discr dsess) :=
  ⟨h.ids, h.nodup, by simp [World.fresh, freshBsess], by simp [World.fresh, freshBsess]⟩

theorem Sound.tx_kinds (h : Sound w) : (∀ kind, ∀ ref ∈ listOf w.bpf.tx kind, ref.kind = kind) ∧
    ∀ kind, (listOf w.bpf.tx kind).Nodup := by
  -- every queued slot has an owner, and the owner vouches for the whole queue
  have owner : ∀ kind ref, ref ∈ listOf w.bpf.tx kind → ∃ c, c.bpf = w.bpf ∧ QueueOk c := by
    intro kind ref hr
    obtain ⟨c, hc⟩ := Option.isSome_iff_exists.mp (h.queued kind ref hr)
    exact ⟨c, (session_eq_some.mp hc).2.2, (h.session _ c hc).queue⟩
  refine ⟨fun kind ref hr => ?_, fun kind => ?_⟩
  · obtain ⟨c, hb, hq⟩ := owner kind ref hr
    exact hq.kinds kind ref (hb ▸ hr)
  · cases hl : listOf w.bpf.tx kind with
    | nil => exact List.nodup_nil
    | cons ref rest =>
      obtain ⟨c, hb, hq⟩ := owner kind ref (by rw [hl]; exact List.mem_cons_self)
      rw [← hl, ← hb]
      exact hq.nodup kind

theorem Sound.fresh_queue (h : Sound w) (hd : w.sdir.find discr = none)
    (hn : dsess.localData.discr = discr) :
    QueueOk (w.fresh discr dsess) := by
  have hslot : ∀ kind, (slotOf (freshBsess discr w.nextPtr) kind).linked = false := by
    intro kind
    cases kind <;> rfl
  refine ⟨hn, h.tx_kinds.1, h.tx_kinds.2, fun kind => ?_, fun kind hl => ?_⟩
  · change (⟨discr, kind⟩ : SlotRef) ∈ listOf w.bpf.tx kind ↔
      (slotOf (freshBsess discr w.nextPtr) kind).linked = true
    rw [hslot kind]
    refine ⟨fun hm => ?_, fun hf => absurd hf Bool.false_ne_true⟩
    have := h.queued kind _ hm
    rw [session_eq_none hd] at this
    exact absurd this (by simp)
  · exact absurd (hl.symm.trans (hslot kind)) (by simp)

theorem Sound.fresh_upkeep (h : Sound w) (hd : w.sdir.find discr = none)
    (hn : dsess.localData.discr = discr) {own : Option UInt32}
    (hm : Moves own (w.fresh discr dsess) c') : Upkeep (w.fresh discr dsess) c' := by
  obtain ⟨h₁, h₂⟩ := Moves.timers hm (h.fresh_timers discr dsess)
  obtain ⟨h₃, h₄⟩ := Moves.queue hm (h.fresh_queue hd hn)
  exact ⟨h₁, h₂, h₃, h₄⟩

theorem Sound.fresh_placeable (h : Sound w) (hd : w.sdir.find discr = none) (hn : discr ≠ 0)
    (hp : sportLo ≤ dsess.src.port) (hb : BfdPort dsess) (hadd : Addressed dsess) :
    Placeable w (w.nextPtr + 1) discr (w.fresh discr dsess) where
  bpf := rfl
  name := rfl
  named := hn
  port := hp
  dport := hb
  addressed := hadd
  apart := fun e s hs _ => Nat.ne_of_lt (h.session e s hs).ptr
  same := fun s hs => by rw [session_eq_none hd] at hs; cases hs
  next := Nat.le_succ _
  ptr := Nat.lt_succ_self _

theorem fresh_slots (hq : SameQueue (w.fresh discr dsess) c') (kind : SlotKind) :
    (slotOf c'.bsess kind).linked = false := by
  rw [hq.slots kind]
  cases kind <;> rfl

theorem Sound.create (h : Sound w) (hd : w.sdir.find discr = none)
    (hn : dsess.localData.discr = discr) (hne : discr ≠ 0) (hp : sportLo ≤ dsess.src.port)
    (hb : BfdPort dsess) (hadd : Addressed dsess) (hu : dsess.localData.timing.detectMult ≠ 0)
    (hr : dsess.remoteData.timing.detectMult ≠ 0) (hl : dsess.localData.state.state = .down)
    {own : Option UInt32} (hm : Moves own (w.fresh discr dsess) c')
    (hq : SameQueue (w.fresh discr dsess) c')
    (hv : view c' = (view (w.fresh discr dsess)).awaken w.bpf.nextTimer) :
    Sound { w.put discr c' with nextPtr := w.nextPtr + 1 } := by
  refine h.place (h.fresh_placeable hd hne hp hb hadd) (h.fresh_upkeep hd hn hm) ?_ (fun _ => fresh_slots hq)
  rw [hv]
  have hc : Clocks ((view (w.fresh discr dsess)).awaken w.bpf.nextTimer) := by
    have hmine := h.fresh_mine discr dsess
    unfold Machine.awaken
    constructor <;> simp only [hmine, List.nil_append]
    · intro id hi
      cases hi
      exact List.mem_singleton_self _
    · intro id hi
      cases hi
    · intro t ht
      rw [List.mem_singleton.mp ht]
      exact ⟨rfl, rfl⟩
    · intro t ht _
      rw [List.mem_singleton.mp ht]
    · exact List.nodup_singleton _
  have hloc : (view (w.fresh discr dsess)).loc = .down := hl
  refine ⟨hr, hu, fun _ => ⟨rfl, rfl, hl⟩, fun hf => absurd rfl hf, ?_, hc, ⟨fun hf => ?_, fun hf => ?_⟩⟩
  · change ends (view (w.fresh discr dsess)).loc _ = true
    rw [hloc]
    rfl
  · cases hf
  · cases hf

theorem Sound.refuse (h : Sound w) (hd : w.sdir.find discr = none)
    (hn : dsess.localData.discr = discr) (hne : discr ≠ 0) (hp : sportLo ≤ dsess.src.port)
    (hb : BfdPort dsess) (hadd : Addressed dsess) {own : Option UInt32}
    (hm : Moves own (w.fresh discr dsess) c') (hq : SameQueue (w.fresh discr dsess) c')
    (hv : view c' = view (w.fresh discr dsess)) :
    Sound { w with bpf := c'.bpf, nextPtr := w.nextPtr + 1 } := by
  have hu := h.fresh_upkeep hd hn hm
  refine h.forget (h.fresh_placeable hd hne hp hb hadd) hu
    ⟨rfl, h.sync, fun e => ?_, fun t ht _ ho => ?_, fresh_slots hq⟩
  · change (w.setBpf c'.bpf).session e = _
    rw [session_setBpf]
    split
    · rename_i he
      rw [he, session_eq_none hd]
      rfl
    · rfl
  · have hmine : t ∈ (view c').mine := mem_timersOf.mpr ⟨ht, by rw [ho, hu.timersApart.ptr]⟩
    rw [hv, h.fresh_mine] at hmine
    cases hmine

end Fresh

def World.drop (w : World) (discr : UInt32) (c : Ctx) : World :=
  { w.put discr c with
    bsdir := (w.put discr c).bsdir.erase discr, sdir := (w.put discr c).sdir.erase discr }

theorem session_drop (w : World) (discr : UInt32) (c : Ctx) (e : UInt32) :
    (w.drop discr c).session e = if e = discr then none else (w.session e).map
    (fun s => { s with bpf := c.bpf }) := by
  unfold World.session World.drop World.put
  by_cases he : e = discr
  · subst he
    simp
  · simp only [Dir.find_erase_of_ne _ he, Dir.find_insert_of_ne _ he, if_neg he]
    cases w.sdir.find e with
    | none => rfl
    | some d => cases w.bsdir.find e <;> rfl

theorem Sound.remove (h : Sound w) (hc : w.session discr = some c) {own : Option UInt32}
    (hm : Moves own c c') (hv : view c' = (view c).unhold.stop)
    (hl : ∀ kind, (slotOf c'.bsess kind).linked = false) : Sound (w.drop discr c') := by
  have hu := h.upkeep hc hm
  refine h.forget (h.placeable hc) hu ⟨rfl, fun e => ?_, session_drop w discr c', fun t ht hfn ho => ?_, hl⟩
  · simp only [World.drop, World.put, Dir.find_erase, Dir.find_insert]
    split
    · rfl
    · exact h.sync e
  · have hmine : t ∈ (view c').mine := mem_timersOf.mpr ⟨ht, by rw [ho, hu.timersApart.ptr]⟩
    rw [hv] at hmine
    have hheld := ((h.session discr c hc).sane.clocks.unhold.stop).holds t hmine hfn
    rw [unhold_stop_hold] at hheld
    cases hheld

structure Unseen (b b' : Bpf) : Prop where
  timers : b'.timers = b.timers
  nextTimer : b'.nextTimer = b.nextTimer
  tx : b'.tx = b.tx

theorem Sound.setBpf {b : Bpf} (h : Sound w) (hb : Unseen w.bpf b) : Sound (w.setBpf b) := by
  refine ⟨h.sync, ?_, ?_, ?_, ?_, ?_, ?_, ?_⟩
  · intro e s' hs'
    obtain ⟨s, hs, rfl⟩ := session_setBpf_some hs'
    have hok := h.session e s hs
    have hbs := (session_eq_some.mp hs).2.2
    have hv : view { s with bpf := b } = view s := view_of_timers (by rw [hb.timers, hbs])
    have hq := hok.queue
    refine { hok with queue := ⟨hq.discr, ?_, ?_, ?_, hq.slots⟩, sane := hv ▸ hok.sane }
    · rw [hb.tx, ← hbs]; exact hq.kinds
    · rw [hb.tx, ← hbs]; exact hq.nodup
    · rw [hb.tx, ← hbs]; exact hq.linked
  · exact fun t ht => by
      change t.id < b.nextTimer
      rw [hb.nextTimer]
      exact h.ids t (hb.timers ▸ ht)
  · change (b.timers.map (·.id)).Nodup
    rw [hb.timers]; exact h.nodup
  · exact fun t ht => h.owners t (hb.timers ▸ ht)
  · intro t ht hfn
    obtain ⟨s, hs, ho⟩ := h.holds t (hb.timers ▸ ht) hfn
    exact ⟨{ s with bpf := b }, session_setBpf_of hs b, ho⟩
  · intro d s e s' hs hs' hp
    obtain ⟨a, ha, rfl⟩ := session_setBpf_some hs
    obtain ⟨b, hb, rfl⟩ := session_setBpf_some hs'
    exact h.distinct d a e b ha hb hp
  · intro kind ref hr
    change ref ∈ listOf b.tx kind at hr
    rw [session_setBpf, Option.isSome_map]
    exact h.queued kind ref (hb.tx ▸ hr)

end

end Bbdd.Daemon
