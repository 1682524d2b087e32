import Bbdd.EventLoop
import Mathlib.Data.List.Basic

namespace Bbdd.EventLoop

open Lib.Transition

variable {φ δ : Type}

/-- No callback removes the registration of a descriptor that has an event
still to come in the batch, and the kernel refuses no change of a
registration. -/
def Considerate (s : State φ δ) : Label φ δ → Prop
  | .set fd _ _ _ _ accept => (s.ctx.cbs fd).isSome = true → accept = true ∧ (s.ctx.epoll fd).isSome = true
  | .unset fd => ∀ ev ∈ s.pending, ev.fd ≠ fd
  | _ => True

/-- The context holds the registrations, the kernel reports only those, and
the events still to come are of registrations that are there. -/
structure Matches (s : State φ δ) : Prop where
  entries : ∀ fd, (s.ctx.cbs fd).bind s.ctx.heap = (s.reg.entry fd).map (·.record fd)
  held : ∀ fd ptr, s.ctx.cbs fd = some ptr → (s.ctx.heap ptr).isSome = true
  watched : ∀ fd ptr, s.ctx.epoll fd = some ptr → s.ctx.cbs fd = some ptr
  pending : ∀ ev ∈ s.pending, s.ctx.cbs ev.fd = some ev.ptr ∧ ev.id = (s.reg.entry ev.fd).map (·.id)

namespace Matches

variable {s t : State φ δ}

theorem entry_none (h : Matches s) {fd : Nat} (hc : s.ctx.cbs fd = none) : s.reg.entry fd = none := by
  have he := h.entries fd
  rw [hc] at he
  exact Option.map_eq_none_iff.mp he.symm

theorem entry_some (h : Matches s) {fd ptr : Nat} (hc : s.ctx.cbs fd = some ptr) :
    ∃ r, s.reg.entry fd = some r ∧ s.ctx.heap ptr = some (r.record fd) := by
  obtain ⟨cb, hcb⟩ := Option.isSome_iff_exists.mp (h.held fd ptr hc)
  have he := h.entries fd
  rw [hc, Option.bind_some, hcb] at he
  obtain ⟨r, hr, hcr⟩ := Option.map_eq_some_iff.mp he.symm
  exact ⟨r, hr, by rw [hcb, ← hcr]⟩

theorem ptr_inj (h : Matches s) {fd fd' ptr : Nat} (hc : s.ctx.cbs fd = some ptr)
    (hc' : s.ctx.cbs fd' = some ptr) : fd = fd' := by
  obtain ⟨r, -, hr⟩ := h.entry_some hc
  obtain ⟨r', -, hr'⟩ := h.entry_some hc'
  rw [hr] at hr'
  exact congrArg PollCb.fd (Option.some.inj hr')

theorem heap_update (h : Matches s) {fd ptr : Nat} (hne : s.ctx.cbs fd ≠ some ptr)
    (cb : Option (PollCb φ δ)) :
    (s.ctx.cbs fd).bind (Function.update s.ctx.heap ptr cb) = (s.reg.entry fd).map (·.record fd) := by
  rw [← h.entries fd]
  cases hc : s.ctx.cbs fd with
  | none => rfl
  | some p =>
    have hp : p ≠ ptr := fun he => hne (by rw [hc, he])
    simp only [Option.bind_some, Function.update_of_ne hp]

theorem add (h : Matches s) {fd ptr : Nat} (hc : s.ctx.cbs fd = none) (hfree : s.ctx.heap ptr = none)
    (events : UInt16) (fn : φ) (data : δ) :
    Matches { s with
      ctx := { s.ctx with
        heap := Function.update s.ctx.heap ptr (some ⟨fd, events, fn, data⟩)
        cbs := Function.update s.ctx.cbs fd (some ptr)
        epoll := Function.update s.ctx.epoll fd (some ptr) }
      reg := ⟨Function.update s.reg.entry fd (some ⟨s.reg.next, events, fn, data⟩), s.reg.next + 1⟩ } := by
  have hother : ∀ fd', s.ctx.cbs fd' ≠ some ptr := by
    intro fd' hfd
    have hheld := h.held fd' ptr hfd
    rw [hfree] at hheld
    cases hheld
  refine ⟨fun fd' => ?_, fun fd' p hp => ?_, fun fd' p hp => ?_, fun ev hev => ?_⟩
  · by_cases hfd : fd' = fd
    · subst hfd
      simp [Entry.record]
    · simp only [Function.update_of_ne hfd]
      exact h.heap_update (hother fd') _
  · by_cases hfd : p = ptr
    · simp [hfd]
    · have hne : fd' ≠ fd := by
        rintro rfl
        simp [Ne.symm hfd] at hp
      simp only [Function.update_of_ne hne, Function.update_of_ne hfd] at hp ⊢
      exact h.held fd' p hp
  · by_cases hfd : fd' = fd
    · subst hfd
      simpa using hp
    · simp only [Function.update_of_ne hfd] at hp ⊢
      exact h.watched fd' p hp
  · obtain ⟨hev₁, hev₂⟩ := h.pending ev hev
    have hne : ev.fd ≠ fd := fun he => by simp [he, hc] at hev₁
    simp only [Function.update_of_ne hne]
    exact ⟨hev₁, hev₂⟩

theorem modify (h : Matches s) {fd ptr : Nat} (hc : s.ctx.cbs fd = some ptr) {r : Entry φ δ}
    (hr : s.reg.entry fd = some r) (events : UInt16) (fn : φ) (data : δ) :
    Matches { s with
      ctx := { s.ctx with
        heap := Function.update s.ctx.heap ptr ((s.ctx.heap ptr).map (fun cb => ⟨cb.fd, events, fn, data⟩))
        epoll := Function.update s.ctx.epoll fd (some ptr) }
      reg := { s.reg with entry := Function.update s.reg.entry fd (some ⟨r.id, events, fn, data⟩) } } := by
  obtain ⟨r', hr', hheap⟩ := h.entry_some hc
  refine ⟨fun fd' => ?_, fun fd' p hp => ?_, fun fd' p hp => ?_, fun ev hev => ?_⟩
  · by_cases hfd : fd' = fd
    · subst hfd
      simp [hc, hheap, Entry.record]
    · simp only [Function.update_of_ne hfd]
      exact h.heap_update (fun hptr => hfd (h.ptr_inj hptr hc)) _
  · by_cases hfd : p = ptr
    · simp [hfd, hheap]
    · simp only [Function.update_of_ne hfd]
      exact h.held fd' p hp
  · by_cases hfd : fd' = fd
    · subst hfd
      simpa [hc] using hp
    · simp only [Function.update_of_ne hfd] at hp
      exact h.watched fd' p hp
  · obtain ⟨hev₁, hev₂⟩ := h.pending ev hev
    refine ⟨hev₁, ?_⟩
    by_cases hfd : ev.fd = fd
    · rw [hev₂, hfd, hr]
      simp
    · simp only [Function.update_of_ne hfd]
      exact hev₂

theorem remove (h : Matches s) {fd ptr : Nat} (hc : s.ctx.cbs fd = some ptr)
    (hp : ∀ ev ∈ s.pending, ev.fd ≠ fd) :
    Matches { s with
      ctx := { s.ctx with
        heap := Function.update s.ctx.heap ptr none
        cbs := Function.update s.ctx.cbs fd none
        epoll := Function.update s.ctx.epoll fd none }
      reg := s.reg.unset fd } := by
  have hother : ∀ fd', fd' ≠ fd → s.ctx.cbs fd' ≠ some ptr := fun fd' hfd hptr => hfd (h.ptr_inj hptr hc)
  refine ⟨fun fd' => ?_, fun fd' p hp => ?_, fun fd' p hp => ?_, fun ev hev => ?_⟩
  · by_cases hfd : fd' = fd
    · subst hfd
      simp [Registry.unset]
    · simp only [Registry.unset, Function.update_of_ne hfd]
      exact h.heap_update (hother fd' hfd) _
  · by_cases hfd : fd' = fd
    · subst hfd
      simp at hp
    · simp only [Function.update_of_ne hfd] at hp
      have hne : p ≠ ptr := fun he => hother fd' hfd (by rw [hp, he])
      simp only [Function.update_of_ne hne]
      exact h.held fd' p hp
  · by_cases hfd : fd' = fd
    · subst hfd
      simp at hp
    · simp only [Function.update_of_ne hfd] at hp ⊢
      exact h.watched fd' p hp
  · simp only [Registry.unset, Function.update_of_ne (hp ev hev)]
    exact h.pending ev hev

theorem set (h : Matches s) {fd : Nat} {events : UInt16} {fn : φ} {data : δ} {mem : Option Nat}
    {accept : Bool} (hmem : (mem.bind s.ctx.heap).isNone = true)
    (hacc : (s.ctx.cbs fd).isSome = true → accept = true ∧ (s.ctx.epoll fd).isSome = true) :
    Matches { s with
      ctx := (pollSetFd s.ctx fd events fn data mem accept).2
      reg := s.reg.set fd events fn data (pollSetFd s.ctx fd events fn data mem accept).1 } := by
  cases hc : s.ctx.cbs fd with
  | none =>
    cases mem with
    | none => simpa [pollSetFd, hc, Registry.set] using h
    | some ptr =>
      have hfree : s.ctx.heap ptr = none := by simpa using hmem
      by_cases hok : accept = true ∧ (s.ctx.epoll fd).isNone = true
      · have hctl : epollCtl s.ctx.epoll .add fd ptr accept = some (Function.update s.ctx.epoll fd (some ptr)) :=
          if_pos hok
        simp only [pollSetFd, hc, hctl, Registry.set, h.entry_none hc]
        exact h.add hc hfree events fn data
      · have hctl : epollCtl s.ctx.epoll .add fd ptr accept = none := if_neg hok
        simpa [pollSetFd, hc, hctl, Registry.set] using h
  | some ptr =>
    obtain ⟨r, hr, -⟩ := h.entry_some hc
    obtain ⟨hok, hknown⟩ := hacc (by rw [hc]; rfl)
    have hctl : epollCtl s.ctx.epoll .mod fd ptr accept = some (Function.update s.ctx.epoll fd (some ptr)) :=
      if_pos ⟨hok, by simpa using hknown⟩
    simp only [pollSetFd, hc, hctl, Registry.set, hr]
    exact h.modify hc hr events fn data

theorem unset (h : Matches s) {fd : Nat} (hp : ∀ ev ∈ s.pending, ev.fd ≠ fd) :
    Matches { s with ctx := (pollUnsetFd s.ctx fd).2, reg := s.reg.unset fd } := by
  cases hc : s.ctx.cbs fd with
  | none =>
    have hsame : s.reg.unset fd = s.reg := by
      rw [Registry.unset, ← h.entry_none hc, Function.update_eq_self]
    simpa only [pollUnsetFd, hc, hsame] using h
  | some ptr =>
    simp only [pollUnsetFd, hc]
    exact h.remove hc hp

theorem close (h : Matches s) (fd : Nat) :
    Matches { s with ctx := { s.ctx with epoll := Function.update s.ctx.epoll fd none } } := by
  refine ⟨h.entries, h.held, fun fd' p hp => ?_, h.pending⟩
  by_cases hfd : fd' = fd
  · subst hfd
    simp at hp
  · simp only [Function.update_of_ne hfd] at hp
    exact h.watched fd' p hp

theorem wait (h : Matches s) (ready : List (Nat × UInt32)) :
    Matches { s with pending := ready.filterMap s.report } := by
  refine ⟨h.entries, h.held, h.watched, fun ev hev => ?_⟩
  obtain ⟨r, -, hr⟩ := List.mem_filterMap.mp hev
  obtain ⟨ptr, hptr, rfl⟩ := Option.map_eq_some_iff.mp hr
  exact ⟨h.watched r.1 ptr hptr, rfl⟩

theorem next (h : Matches s) {ev : PollEvent} {rest : List PollEvent}
    (hp : s.pending = ev :: rest) : Matches (s.next ev rest) := by
  have hrest : ∀ e ∈ rest, s.ctx.cbs e.fd = some e.ptr ∧ e.id = (s.reg.entry e.fd).map (·.id) :=
    fun e he => h.pending e (by rw [hp]; exact List.mem_cons_of_mem _ he)
  unfold State.next
  split
  · exact ⟨h.entries, h.held, h.watched, hrest⟩
  · exact ⟨h.entries, h.held, h.watched, hrest⟩
  · exact ⟨h.entries, h.held, h.watched, by simp⟩
  · exact ⟨h.entries, h.held, h.watched, by simp⟩

theorem step (h : Matches s) {l : Label φ δ} (hl : Considerate s l) (hs : s.step l = some t) :
    Matches t := by
  cases l with
  | set fd events fn data mem accept =>
    obtain ⟨⟨-, hmem⟩, ⟨⟩⟩ := Option.ite_none_right_eq_some.mp hs
    exact h.set hmem hl
  | unset fd =>
    obtain ⟨-, ⟨⟩⟩ := Option.ite_none_right_eq_some.mp hs
    exact h.unset hl
  | close fd =>
    obtain ⟨-, ⟨⟩⟩ := Option.ite_none_right_eq_some.mp hs
    exact h.close fd
  | requestQuit =>
    obtain ⟨-, ⟨⟩⟩ := Option.ite_none_right_eq_some.mp hs
    exact ⟨h.entries, h.held, h.watched, h.pending⟩
  | wait ready =>
    obtain ⟨-, ⟨⟩⟩ := Option.ite_none_right_eq_some.mp hs
    exact h.wait ready
  | waitFailed =>
    obtain ⟨-, ⟨⟩⟩ := Option.ite_none_right_eq_some.mp hs
    exact ⟨h.entries, h.held, h.watched, h.pending⟩
  | next =>
    simp only [State.step] at hs
    split at hs
    · rename_i ev rest hp
      obtain ⟨-, ⟨⟩⟩ := Option.ite_none_right_eq_some.mp hs
      exact h.next hp
    · cases hs
  | «return» =>
    obtain ⟨-, ⟨⟩⟩ := Option.ite_none_right_eq_some.mp hs
    exact ⟨h.entries, h.held, h.watched, h.pending⟩

theorem dispatch (h : Matches s) {ev : PollEvent} (hev : ev ∈ s.pending) :
    ∃ r, s.reg.entry ev.fd = some r ∧ ev.id = some r.id ∧ pollDispatch s.ctx ev =
      (r.record ev.fd).dispatch ev.revents := by
  obtain ⟨hc, hid⟩ := h.pending ev hev
  obtain ⟨r, hr, hheap⟩ := h.entry_some hc
  refine ⟨r, hr, by rw [hid, hr]; rfl, ?_⟩
  rw [pollDispatch, hheap]

end Matches

theorem matches_initial : Matches (State.initial : State φ δ) where
  entries _ := rfl
  held _ _ h := by cases h
  watched _ _ h := by cases h
  pending _ h := by cases h

theorem matches_of_run {s : State φ δ} (h : Run (loop φ δ) Considerate s) : Matches s := by
  apply Run.invariant _ _ h
  · rintro s rfl
    exact matches_initial
  · intro s l t _ hm hl hs
    exact hm.step hl hs

instance (s : State φ δ) (l : Label φ δ) : Decidable (Considerate s l) :=
  match l with
  | .set fd _ _ _ _ accept =>
    inferInstanceAs (Decidable ((s.ctx.cbs fd).isSome = true → accept = true ∧ (s.ctx.epoll fd).isSome = true))
  | .unset fd => inferInstanceAs (Decidable (∀ ev ∈ s.pending, ev.fd ≠ fd))
  | .close _ | .requestQuit | .wait _ | .waitFailed | .next | .return => isTrue trivial

/-- In a run whose callbacks spare the registrations with an event to come, an
event is handled as the registration says that the kernel reported it for, and
that is there at the time. -/
theorem dispatch_registered {s : State φ δ} (h : Run (loop φ δ) Considerate s) {ev : PollEvent}
    (hev : ev ∈ s.pending) :
    ∃ r, s.reg.entry ev.fd = some r ∧ ev.id = some r.id ∧ pollDispatch s.ctx ev =
      (r.record ev.fd).dispatch ev.revents :=
  (matches_of_run h).dispatch hev

def bothReady : List (Label Nat Nat) :=
  [.set 1 1 10 100 (some 0x10) true, .set 2 1 20 200 (some 0x20) true, .wait [(1, 1), (2, 1)], .next]

theorem dispatch_registered_changed : ∃ s : State Nat Nat, Run (loop Nat Nat) Considerate s ∧
    ∃ ev ∈ s.pending, pollDispatch s.ctx ev = .invoke 40 1 400 ∧
      ∃ r, s.reg.entry ev.fd = some r ∧ ev.id = some r.id ∧ pollDispatch s.ctx ev =
        (r.record ev.fd).dispatch ev.revents := by
  obtain ⟨s, hs, ev, hev, hd⟩ : ∃ s, Run (loop Nat Nat) Considerate s ∧
      ∃ ev ∈ s.pending, pollDispatch s.ctx ev = .invoke 40 1 400 :=
    exists_replay _ (bothReady ++ [.unset 1, .set 2 1 40 400 none true, .return]) (by decide)
  exact ⟨s, hs, ev, hev, hd, dispatch_registered hs hev⟩

/-- Whether the loop is about to handle an event of the second descriptor,
with the given registration and outcome. -/
def State.about (s : State Nat Nat) (r : Option (Entry Nat Nat)) (d : Dispatch Nat Nat) : Prop :=
  s.inside = false ∧ s.stopped = false ∧ ∃ ev ∈ s.pending.head?, ev.fd = 2 ∧ s.reg.entry 2 = r ∧
    pollDispatch s.ctx ev = d

instance (s : State Nat Nat) (r : Option (Entry Nat Nat)) (d : Dispatch Nat Nat) :
    Decidable (s.about r d) :=
  inferInstanceAs (Decidable (_ ∧ _ ∧ ∃ ev ∈ s.pending.head?, _))

/-- A callback that removes the registration of a descriptor whose event is in
the batch: the loop then reads a record that was freed; or, if the memory has
been given to another registration since, it calls that one's callback; and a
change that the kernel refused is followed all the same. -/
theorem dispatch_unregistered :
    (∃ s : State Nat Nat, Reachable (loop Nat Nat) s ∧ s.about none .freed) ∧
    (∃ s : State Nat Nat, Reachable (loop Nat Nat) s ∧ s.about none (.invoke 30 1 300)) ∧
    ∃ s : State Nat Nat, Reachable (loop Nat Nat) s ∧ s.about (some ⟨1, 1, 20, 200⟩) (.invoke 40 1 400) := by
  refine ⟨?_, ?_, ?_⟩
  · exact exists_replay _ (bothReady ++ [.unset 2, .return]) (by decide)
  · exact exists_replay _ (bothReady ++ [.unset 2, .set 3 1 30 300 (some 0x20) true, .return]) (by decide)
  · exact exists_replay _ (bothReady ++ [.set 2 1 40 400 none false, .return]) (by decide)

end Bbdd.EventLoop
