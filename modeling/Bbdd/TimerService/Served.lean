import Bbdd.TimerService
import Mathlib.Algebra.Group.Nat.Defs

namespace Bbdd.TimerService

open Lib.Transition

section Ordered

variable {α : Type} {r : α → α → Prop} [DecidableRel r]

theorem orderedInsert_append {pre : List α} {a : α} (h : ∀ b ∈ pre, ¬ r a b) (rest : List α) :
    (pre ++ rest).orderedInsert r a = pre ++ rest.orderedInsert r a := by
  induction pre with
  | nil => rfl
  | cons b pre ih =>
    rw [List.cons_append, List.orderedInsert_of_not_le _ _ (h b List.mem_cons_self),
      ih (fun c hc => h c (List.mem_cons_of_mem _ hc)), List.cons_append]

theorem head?_orderedInsert (a : α) (l : List α) :
    (l.orderedInsert r a).head? = some a ∨ (l.orderedInsert r a).head? = l.head? := by
  cases l with
  | nil => exact .inl rfl
  | cons b l =>
    rw [List.orderedInsert_cons]
    split
    · exact .inl rfl
    · exact .inr rfl

theorem orderedInsert_cut (P : α → Prop) {a : α} (ha : P a) (mid post : List α) (hmid : ∀ b ∈ mid, P b) :
    ∃ mid' post', (mid ++ post).orderedInsert r a = mid' ++ post' ∧ (∀ b ∈ mid', P b) ∧
      post'.head? = post.head? := by
  induction mid with
  | nil =>
    cases post with
    | nil => exact ⟨[a], [], rfl, by simpa using ha, rfl⟩
    | cons b post =>
      by_cases hb : r a b
      · exact ⟨[a], b :: post, by simp [hb], by simpa using ha, rfl⟩
      · exact ⟨[], b :: post.orderedInsert r a, by simp [hb], by simp, rfl⟩
  | cons b mid ih =>
    by_cases hb : r a b
    · exact ⟨a :: b :: mid, post, by simp [hb], by simpa using ⟨ha, by simpa using hmid⟩, rfl⟩
    · obtain ⟨mid', post', heq, hmid', hhead⟩ := ih (fun c hc => hmid c (List.mem_cons_of_mem _ hc))
      refine ⟨b :: mid', post', by simp [hb, heq], ?_, hhead⟩
      intro c hc
      rcases List.mem_cons.mp hc with rfl | hc
      · exact hmid c List.mem_cons_self
      · exact hmid' c hc

end Ordered

theorem nextOf_append {timer : Timer} {pre : List Timer} (h : timer ∉ pre) (rest : List Timer) :
    nextOf timer (pre ++ timer :: rest) = rest.head? := by
  induction pre with
  | nil => simp [nextOf]
  | cons t pre ih =>
    have hne : t ≠ timer := fun he => h (by simp [he])
    simp only [List.cons_append, nextOf, if_neg hne]
    exact ih (fun hm => h (List.mem_cons_of_mem _ hm))

theorem sweep_none {now : UInt64} {pre rest : List Timer} (hpre : ∀ t ∈ pre, t.deadlineNs ≤ now)
    (hrest : ∀ t ∈ rest, now < t.deadlineNs) : sweep now none (pre ++ rest) = (rest, none) := by
  induction pre with
  | nil =>
    cases rest with
    | nil => rfl
    | cons t rest => simp [sweep, UInt64.not_le.mpr (hrest t List.mem_cons_self)]
  | cons t pre ih =>
    simp only [List.cons_append, sweep, if_pos (hpre t List.mem_cons_self), reduceCtorEq, if_false]
    exact ih (fun u hu => hpre u (List.mem_cons_of_mem _ hu))

theorem sweep_failed {now : UInt64} {timer : Timer} {pre : List Timer}
    (hpre : ∀ t ∈ pre, t.deadlineNs ≤ now) (hnot : timer ∉ pre) (hdue : timer.deadlineNs ≤ now)
    (rest : List Timer) :
    sweep now (some timer) (pre ++ timer :: rest) = (rest, none) := by
  induction pre with
  | nil => simp [sweep, hdue]
  | cons t pre ih =>
    have hne : some timer ≠ some t := fun he => hnot (by simp [Option.some.inj he])
    simp only [List.cons_append, sweep, if_pos (hpre t List.mem_cons_self), if_neg hne]
    exact ih (fun u hu => hpre u (List.mem_cons_of_mem _ hu)) (fun hm => hnot (List.mem_cons_of_mem _ hm))

/-- The delay does not carry the deadline past the end of the clock, nor to
the time that would disarm the descriptor. -/
def Fits (s : Timers) : Label → Prop
  | .set delayUs => 0 < s.clock.toNat + delayUs.toNat * 1000 ∧ s.clock.toNat + delayUs.toNat * 1000 < 2 ^ 64
  | _ => True

def Invoked (log : List Happening) (timer : Timer) : Prop := ∃ time, .invoked timer time ∈ log

def Untouched (log : List Happening) (timer : Timer) : Prop := ∀ x ∈ log, x.timer ≠ timer

/-- The list and the records about it. -/
structure Books (head made : List Timer) (log : List Happening) : Prop where
  sorted : head.Pairwise timerLe
  nodup : head.Nodup
  nonzero : ∀ t ∈ head, t.deadlineNs ≠ 0
  numbered : ∀ t ∈ made, t.id < made.length
  known : ∀ t ∈ head, t ∈ made
  logged : ∀ x ∈ log, x.timer ∈ made
  accounted : ∀ t ∈ made, t ∈ head ∨ Invoked log t ∨ .cancelled t false ∈ log
  due : ∀ t time, .invoked t time ∈ log → t.deadlineNs ≤ time
  once : log.Pairwise (fun newer older => newer.isInvoked = true → older.timer ≠ newer.timer)

/-- The list during a walk: what the walk is done with, which is due and was
invoked, and the rest, to which nothing happened. Of the rest only timers that
are not due stand before the element the walk goes on with. -/
structure Split (head : List Timer) (log : List Happening) (now : UInt64) (el : Option Timer)
    (pre rest : List Timer) : Prop where
  list : head = pre ++ rest
  past : ∀ t ∈ pre, t.deadlineNs ≤ now
  done : ∀ t ∈ pre, Invoked log t
  untouched : ∀ t ∈ rest, Untouched log t
  cursor : ∃ mid post, rest = mid ++ post ∧ (∀ t ∈ mid, now < t.deadlineNs) ∧ post.head? = el

section Records

variable {head made pre rest : List Timer} {log : List Happening} {timer : Timer} {now : UInt64}
    {el : Option Timer}

theorem Invoked.cons (h : Invoked log timer) (x : Happening) : Invoked (x :: log) timer := by
  obtain ⟨time, h⟩ := h
  exact ⟨time, List.mem_cons_of_mem _ h⟩

theorem Untouched.cons (h : Untouched log timer) {x : Happening} (hx : x.timer ≠ timer) :
    Untouched (x :: log) timer := by
  intro y hy
  rcases List.mem_cons.mp hy with rfl | hy
  · exact hx
  · exact h y hy

theorem Invoked.not_untouched (h : Invoked log timer) : ¬ Untouched log timer := by
  obtain ⟨time, h⟩ := h
  intro hu
  exact hu _ h rfl

namespace Books

theorem not_made (h : Books head made log) (ht : timer.id = made.length) : timer ∉ made := by
  intro hm
  have hlt := h.numbered timer hm
  omega

theorem insert (h : Books head made log) (ht : timer.id = made.length) (hz : timer.deadlineNs ≠ 0) :
    Books (head.orderedInsert timerLe timer) (timer :: made) log where
  sorted := h.sorted.orderedInsert timer head
  nodup := by
    rw [(List.perm_orderedInsert timerLe timer head).nodup_iff]
    exact List.nodup_cons.mpr ⟨fun hm => h.not_made ht (h.known timer hm), h.nodup⟩
  nonzero := by
    intro t hm
    rcases (List.mem_orderedInsert timerLe).mp hm with rfl | hm
    · exact hz
    · exact h.nonzero t hm
  numbered := by
    intro t hm
    rw [List.length_cons]
    rcases List.mem_cons.mp hm with rfl | hm
    · omega
    · exact Nat.lt_succ_of_lt (h.numbered t hm)
  known := by
    intro t hm
    rcases (List.mem_orderedInsert timerLe).mp hm with rfl | hm
    · exact List.mem_cons_self
    · exact List.mem_cons_of_mem _ (h.known t hm)
  logged := fun x hx => List.mem_cons_of_mem _ (h.logged x hx)
  accounted := by
    intro t hm
    rcases List.mem_cons.mp hm with rfl | hm
    · exact .inl ((List.mem_orderedInsert timerLe).mpr (.inl rfl))
    · exact (h.accounted t hm).imp_left (fun hh => (List.mem_orderedInsert timerLe).mpr (.inr hh))
  due := h.due
  once := h.once

theorem cancel (h : Books head made log) (ht : timer ∈ head) {own : Bool}
    (ho : own = true → Invoked log timer) :
    Books (head.erase timer) made (.cancelled timer own :: log) where
  sorted := h.sorted.sublist List.erase_sublist
  nodup := h.nodup.erase timer
  nonzero := fun t hm => h.nonzero t (List.mem_of_mem_erase hm)
  numbered := h.numbered
  known := fun t hm => h.known t (List.mem_of_mem_erase hm)
  logged := by
    intro x hx
    rcases List.mem_cons.mp hx with rfl | hx
    · exact h.known timer ht
    · exact h.logged x hx
  accounted := by
    intro t hm
    rcases h.accounted t hm with hh | hi | hc
    · by_cases he : t = timer
      · subst he
        cases own with
        | true => exact .inr (.inl ((ho rfl).cons _))
        | false => exact .inr (.inr List.mem_cons_self)
      · exact .inl ((List.mem_erase_of_ne he).mpr hh)
    · exact .inr (.inl (hi.cons _))
    · exact .inr (.inr (List.mem_cons_of_mem _ hc))
  due := fun t time hm => h.due t time (by simpa using hm)
  once := List.pairwise_cons.mpr ⟨fun _ _ hi => (by cases hi), h.once⟩

theorem invoke (h : Books head made log) (ht : timer ∈ head) (hu : Untouched log timer) {time : UInt64}
    (hdue : timer.deadlineNs ≤ time) : Books head made (.invoked timer time :: log) where
  sorted := h.sorted
  nodup := h.nodup
  nonzero := h.nonzero
  numbered := h.numbered
  known := h.known
  logged := by
    intro x hx
    rcases List.mem_cons.mp hx with rfl | hx
    · exact h.known timer ht
    · exact h.logged x hx
  accounted := by
    intro t hm
    rcases h.accounted t hm with hh | hi | hc
    · exact .inl hh
    · exact .inr (.inl (hi.cons _))
    · exact .inr (.inr (List.mem_cons_of_mem _ hc))
  due := by
    intro t at' hm
    rcases List.mem_cons.mp hm with he | hm
    · cases he
      exact hdue
    · exact h.due t at' hm
  once := List.pairwise_cons.mpr ⟨fun x hx _ => hu x hx, h.once⟩

theorem drop (h : Books (pre ++ rest) made log) (hpre : ∀ t ∈ pre, Invoked log t) :
    Books rest made log where
  sorted := h.sorted.sublist (List.sublist_append_right _ _)
  nodup := h.nodup.sublist (List.sublist_append_right _ _)
  nonzero := fun t hm => h.nonzero t (List.mem_append_right _ hm)
  numbered := h.numbered
  known := fun t hm => h.known t (List.mem_append_right _ hm)
  logged := h.logged
  accounted := by
    intro t hm
    rcases h.accounted t hm with hh | ha
    · rcases List.mem_append.mp hh with hp | hr
      · exact .inr (.inl (hpre t hp))
      · exact .inl hr
    · exact .inr ha
  due := h.due
  once := h.once

end Books

namespace Split

theorem insert (h : Split head log now el pre rest) (hb : Books head made log) (ht : timer.id = made.length)
    (hlate : now < timer.deadlineNs) :
    Split (head.orderedInsert timerLe timer) log now el pre (rest.orderedInsert timerLe timer) where
  list := by
    rw [h.list]
    apply orderedInsert_append
    intro t hm hle
    exact UInt64.not_le.mpr hlate (UInt64.le_trans hle (h.past t hm))
  past := h.past
  done := h.done
  untouched := by
    intro t hm
    rcases (List.mem_orderedInsert timerLe).mp hm with rfl | hm
    · intro x hx he
      exact hb.not_made ht (he ▸ hb.logged x hx)
    · exact h.untouched t hm
  cursor := by
    obtain ⟨mid, post, rfl, hmid, rfl⟩ := h.cursor
    exact @orderedInsert_cut Timer timerLe _ (fun t => now < t.deadlineNs) timer hlate mid post hmid

theorem cancel (h : Split head log now el pre rest) (ht : timer ∈ head) (hi : Invoked log timer) :
    Split (head.erase timer) (.cancelled timer true :: log) now el (pre.erase timer) rest where
  list := by
    have hrest : timer ∉ rest := fun hm => hi.not_untouched (h.untouched timer hm)
    rw [h.list] at ht ⊢
    exact List.erase_append_left _ ((List.mem_append.mp ht).resolve_right hrest)
  past := fun t hm => h.past t (List.mem_of_mem_erase hm)
  done := fun t hm => (h.done t (List.mem_of_mem_erase hm)).cons _
  untouched := by
    intro t hm
    apply (h.untouched t hm).cons
    rintro rfl
    exact hi.not_untouched (h.untouched _ hm)
  cursor := h.cursor

theorem due_next (h : Split head log now (some timer) pre rest) (hs : head.Pairwise timerLe)
    (hdue : timer.deadlineNs ≤ now) :
    ∃ post, rest = timer :: post := by
  obtain ⟨mid, post, rfl, hmid, hel⟩ := h.cursor
  obtain ⟨post, rfl⟩ := List.head?_eq_some_iff.mp hel
  cases mid with
  | nil => exact ⟨post, rfl⟩
  | cons t mid =>
    have hlate := hmid t List.mem_cons_self
    rw [h.list] at hs
    have hle : timerLe t timer :=
      List.rel_of_pairwise_cons (hs.sublist (List.sublist_append_right _ _)) (by simp)
    exact absurd (UInt64.le_trans hle hdue) (UInt64.not_le.mpr hlate)

theorem rest_late (h : Split head log now el pre rest) (hs : head.Pairwise timerLe)
    (hel : ∀ t ∈ el, now < t.deadlineNs) :
    ∀ t ∈ rest, now < t.deadlineNs := by
  obtain ⟨mid, post, rfl, hmid, rfl⟩ := h.cursor
  intro t hm
  rcases List.mem_append.mp hm with hm | hm
  · exact hmid t hm
  · cases post with
    | nil => cases hm
    | cons u post =>
      have hu : now < u.deadlineNs := hel u rfl
      rcases List.mem_cons.mp hm with rfl | hm
      · exact hu
      · rw [h.list] at hs
        have hpost : (u :: post).Pairwise timerLe :=
          hs.sublist ((List.sublist_append_right _ _).trans (List.sublist_append_right _ _))
        exact UInt64.lt_of_lt_of_le hu (List.rel_of_pairwise_cons hpost hm)

theorem invoke (h : Split head log now (some timer) pre (timer :: rest)) (hn : head.Nodup)
    (hdue : timer.deadlineNs ≤ now) (time : UInt64) :
    Split head (.invoked timer time :: log) now rest.head? (pre ++ [timer]) rest where
  list := by rw [h.list, List.append_assoc, List.singleton_append]
  past := by
    intro t hm
    rcases List.mem_append.mp hm with hm | hm
    · exact h.past t hm
    · rw [List.mem_singleton.mp hm]
      exact hdue
  done := by
    intro t hm
    rcases List.mem_append.mp hm with hm | hm
    · exact (h.done t hm).cons _
    · rw [List.mem_singleton.mp hm]
      exact ⟨time, List.mem_cons_self⟩
  untouched := by
    intro t hm
    apply (h.untouched t (List.mem_cons_of_mem _ hm)).cons
    rintro rfl
    rw [h.list] at hn
    exact (List.nodup_cons.mp (hn.sublist (List.sublist_append_right _ _))).1 hm
  cursor := ⟨[], rest, rfl, by simp, rfl⟩

end Split

end Records

/-- What a phase adds. A callback that has not touched the timers still has
its own at the end of what the walk is done with. -/
def PhaseOk (head : List Timer) (log : List Happening) (clock : UInt64) : Phase → Prop
  | .idle => ∀ t ∈ head, Untouched log t
  | .walk el now => now ≤ clock ∧ ∃ pre rest, Split head log now el pre rest
  | .callback timer tmp now touched => now ≤ clock ∧ Invoked log timer ∧
      ∃ pre rest, Split head log now tmp pre rest ∧ (touched = false → ∃ pre', pre = pre' ++ [timer])
  | .aborted => False

structure Kept (s : Timers) : Prop where
  books : Books s.head s.made s.log
  phase : PhaseOk s.head s.log s.clock s.phase

theorem timerSet_eq (s : Timers) (delayUs : UInt64) :
    timerSet s delayUs = { s with
      head := s.head.orderedInsert timerLe (s.fresh delayUs)
      made := s.fresh delayUs :: s.made
      armed := if (s.head.orderedInsert timerLe (s.fresh delayUs)).head? = some (s.fresh delayUs)
        then itValue (s.head.orderedInsert timerLe (s.fresh delayUs)) else s.armed } := by
  unfold timerSet
  dsimp only
  split <;> rfl

theorem timerCancel_eq (s : Timers) (timer : Timer) (own : Bool) :
    timerCancel s timer own = { s with
      head := s.head.erase timer
      log := .cancelled timer own :: s.log
      armed := if s.head.head? = some timer then itValue (s.head.erase timer) else s.armed } := by
  unfold timerCancel
  dsimp only
  split <;> rfl

/-- What one step of the walk may be: the end of the pass, a call of the
callback that is next, or the use of an element that was freed. -/
inductive Walks (s : Timers) : Timers → Prop
  | ends {el : Option Timer} {now : UInt64} : s.phase = .walk el now →
      (∀ u ∈ el, now < u.deadlineNs) → Walks s (s.finish now none)
  | invokes {timer : Timer} {now : UInt64} : s.phase = .walk (some timer) now → timer ∈ s.head →
      timer.deadlineNs ≤ now →
      Walks s { s with
        log := .invoked timer s.clock :: s.log
        phase := .callback timer (nextOf timer s.head) now false }
  | strays {timer : Timer} {now : UInt64} : s.phase = .walk (some timer) now → timer ∉ s.head →
      Walks s { s with phase := .aborted }

theorem walks_of_step {s t : Timers} (hs : s.step .walk = some t) : Walks s t := by
  simp only [Timers.step] at hs
  split at hs
  · rename_i now hphase
    cases hs
    exact .ends hphase (by simp)
  · rename_i timer now hphase
    by_cases hmem : timer ∈ s.head
    · rw [if_neg (not_not.mpr hmem)] at hs
      by_cases hdue : timer.deadlineNs ≤ now
      · rw [if_pos hdue] at hs
        cases hs
        exact .invokes hphase hmem hdue
      · rw [if_neg hdue] at hs
        cases hs
        exact .ends hphase (by simpa using UInt64.not_le.mp hdue)
    · rw [if_pos hmem] at hs
      cases hs
      exact .strays hphase hmem
  · cases hs

namespace Kept

variable {s t : Timers}

theorem fresh_late {delayUs : UInt64} (hf : Fits s (.set delayUs)) : (s.fresh delayUs).deadlineNs ≠ 0 ∧
    (0 < delayUs → s.clock < (s.fresh delayUs).deadlineNs) := by
  obtain ⟨hpos, hlt⟩ := hf
  have hval : (s.fresh delayUs).deadlineNs.toNat = s.clock.toNat + delayUs.toNat * 1000 := by
    have hmul : (delayUs * 1000).toNat = delayUs.toNat * 1000 := by
      rw [UInt64.toNat_mul, show (1000 : UInt64).toNat = 1000 from rfl]
      exact Nat.mod_eq_of_lt (by omega)
    rw [Timers.fresh, UInt64.toNat_add, hmul, Nat.mod_eq_of_lt hlt]
  constructor
  · intro hz
    rw [hz] at hval
    simp only [UInt64.toNat_zero] at hval
    omega
  · intro hd
    rw [UInt64.lt_iff_toNat_lt] at hd ⊢
    simp only [UInt64.toNat_zero] at hd
    omega

theorem set (h : Kept s) {delayUs : UInt64} (hf : Fits s (.set delayUs))
    (hs : s.step (.set delayUs) = some t) : Kept t := by
  obtain ⟨hz, hlate⟩ := fresh_late hf
  have hb := @Books.insert _ _ _ (s.fresh delayUs) h.books rfl hz
  have hp := h.phase
  simp only [Timers.step, timerSet_eq] at hs
  split at hs
  · rename_i hphase
    cases hs
    refine ⟨hb, ?_⟩
    simp only [hphase, PhaseOk] at hp ⊢
    intro t hm
    rcases (List.mem_orderedInsert timerLe).mp hm with rfl | hm
    · intro x hx he
      exact h.books.not_made rfl (he ▸ h.books.logged x hx)
    · exact hp t hm
  · rename_i timer tmp now touched hphase
    obtain ⟨hd, ⟨⟩⟩ := Option.ite_none_right_eq_some.mp hs
    refine ⟨hb, ?_⟩
    simp only [hphase, PhaseOk] at hp
    obtain ⟨hclock, hi, pre, rest, hsplit, -⟩ := hp
    have hins := hsplit.insert h.books rfl (UInt64.lt_of_le_of_lt hclock (hlate hd))
    exact ⟨hclock, hi, pre, _, hins, fun hc => by cases hc⟩
  · cases hs

theorem cancel (h : Kept s) {timer : Timer} (hs : s.step (.cancel timer) = some t) : Kept t := by
  obtain ⟨hm, hs⟩ := Option.ite_none_right_eq_some.mp hs
  have hp := h.phase
  simp only [timerCancel_eq] at hs
  split at hs
  · rename_i hphase
    cases hs
    refine ⟨h.books.cancel hm (fun hc => by cases hc), ?_⟩
    simp only [hphase, PhaseOk] at hp ⊢
    intro t ht
    apply (hp t (List.mem_of_mem_erase ht)).cons
    rintro rfl
    exact h.books.nodup.not_mem_erase ht
  · rename_i cur tmp now touched hphase
    obtain ⟨rfl, ⟨⟩⟩ := Option.ite_none_right_eq_some.mp hs
    simp only [hphase, PhaseOk] at hp
    obtain ⟨hclock, hi, pre, rest, hsplit, -⟩ := hp
    exact ⟨h.books.cancel hm (fun _ => hi), hclock, hi.cons _, _, rest, hsplit.cancel hm hi,
      fun hc => by cases hc⟩
  · cases hs

theorem walking (h : Kept s) {now : UInt64} {el : Option Timer} (hphase : s.phase = .walk el now) :
    now ≤ s.clock ∧ ∃ pre rest, Split s.head s.log now el pre rest := by
  have hp := h.phase
  rw [hphase] at hp
  exact hp

theorem finish (h : Kept s) {now : UInt64} {el : Option Timer} (hphase : s.phase = .walk el now)
    (hel : ∀ t ∈ el, now < t.deadlineNs) :
    ∃ pre rest, Split s.head s.log now el pre rest ∧ (∀ t ∈ rest, now < t.deadlineNs) ∧
      s.finish now none = { s with head := rest, armed := itValue rest, phase := .idle } := by
  obtain ⟨-, pre, rest, hsplit⟩ := h.walking hphase
  have hlate := hsplit.rest_late h.books.sorted hel
  refine ⟨pre, rest, hsplit, hlate, ?_⟩
  simp only [Timers.finish, hsplit.list, sweep_none hsplit.past hlate]
  rfl

theorem idle (h : Kept s) {now : UInt64} {el : Option Timer} {pre rest : List Timer}
    (hsplit : Split s.head s.log now el pre rest) (armed : Option UInt64) :
    Kept { s with head := rest, armed := armed, phase := .idle } :=
  ⟨(hsplit.list ▸ h.books).drop hsplit.done, hsplit.untouched⟩

theorem walk (h : Kept s) (hs : s.step .walk = some t) : Kept t := by
  cases walks_of_step hs with
  | ends hphase hel =>
    obtain ⟨pre, rest, hsplit, -, heq⟩ := h.finish hphase hel
    rw [heq]
    exact h.idle hsplit _
  | @invokes timer now hphase hmem hdue =>
    obtain ⟨hclock, pre, rest, hsplit⟩ := h.walking hphase
    obtain ⟨post, rfl⟩ := hsplit.due_next h.books.sorted hdue
    have hu := hsplit.untouched timer List.mem_cons_self
    have hpre : timer ∉ pre := fun hm => (hsplit.done timer hm).not_untouched hu
    have hnext : nextOf timer s.head = post.head? := by rw [hsplit.list, nextOf_append hpre]
    refine ⟨h.books.invoke hmem hu (UInt64.le_trans hdue hclock), hclock,
      ⟨s.clock, List.mem_cons_self⟩, pre ++ [timer], post, ?_,
      fun _ => ⟨pre, rfl⟩⟩
    rw [hnext]
    exact hsplit.invoke h.books.nodup hdue s.clock
  | @strays timer now hphase hmem =>
    -- the element the loop saved is never one that was freed meanwhile
    obtain ⟨-, pre, rest, hsplit⟩ := h.walking hphase
    obtain ⟨mid, post, rfl, -, hel⟩ := hsplit.cursor
    obtain ⟨post, rfl⟩ := List.head?_eq_some_iff.mp hel
    exact absurd (by simp [hsplit.list]) hmem

theorem failed (h : Kept s) {timer : Timer} {tmp : Option Timer} {now : UInt64}
    (hphase : s.phase = .callback timer tmp now false) :
    ∃ pre rest, Split s.head s.log now tmp pre rest ∧ s.finish now (some timer) =
      { s with head := rest, phase := .idle } := by
  have hp := h.phase
  simp only [hphase, PhaseOk] at hp
  obtain ⟨-, -, pre, rest, hsplit, hlast⟩ := hp
  obtain ⟨pre, rfl⟩ := hlast trivial
  have hlist : s.head = pre ++ timer :: rest := by rw [hsplit.list, List.append_assoc, List.singleton_append]
  have hnot : timer ∉ pre := by
    have hn := h.books.nodup
    rw [hlist] at hn
    intro hm
    exact (List.nodup_append.mp hn).2.2 timer hm timer List.mem_cons_self rfl
  have hsweep := sweep_failed (fun t ht => hsplit.past t (List.mem_append_left _ ht)) hnot
    (hsplit.past timer (List.mem_append_right _ (List.mem_singleton.mpr rfl))) rest
  refine ⟨_, rest, hsplit, ?_⟩
  simp only [Timers.finish, hlist, hsweep]
  rfl

theorem returned (h : Kept s) {ok : Bool} (hs : s.step (.return ok) = some t) : Kept t := by
  simp only [Timers.step] at hs
  split at hs
  · rename_i timer tmp now touched hphase
    cases ok with
    | true =>
      cases hs
      have hp := h.phase
      simp only [hphase, PhaseOk] at hp
      obtain ⟨hclock, -, pre, rest, hsplit, -⟩ := hp
      exact ⟨h.books, hclock, pre, rest, hsplit⟩
    | false =>
      cases touched with
      | true => cases hs
      | false =>
        obtain ⟨pre, rest, hsplit, heq⟩ := h.failed hphase
        cases hs
        rw [heq]
        exact h.idle hsplit _
  · cases hs

theorem event (h : Kept s) {now : UInt64} (hs : s.step (.event now) = some t) : Kept t := by
  obtain ⟨⟨hphase, -⟩, ⟨⟩⟩ := Option.ite_none_right_eq_some.mp hs
  have hp := h.phase
  simp only [hphase, PhaseOk] at hp
  exact ⟨h.books, UInt64.le_refl _, [], s.head, rfl, by simp, by simp, hp, [], s.head, rfl, by simp, rfl⟩

theorem tick (h : Kept s) {time : UInt64} (hs : s.step (.tick time) = some t) : Kept t := by
  obtain ⟨hle, ⟨⟩⟩ := Option.ite_none_right_eq_some.mp hs
  refine ⟨h.books, ?_⟩
  have hp := h.phase
  dsimp only
  cases hphase : s.phase with
  | idle =>
    rw [hphase] at hp
    exact hp
  | walk el now =>
    rw [hphase] at hp
    exact ⟨UInt64.le_trans hp.1 hle, hp.2⟩
  | callback timer tmp now touched =>
    rw [hphase] at hp
    exact ⟨UInt64.le_trans hp.1 hle, hp.2⟩
  | aborted =>
    rw [hphase] at hp
    exact hp

theorem step (h : Kept s) {l : Label} (hf : Fits s l) (hs : s.step l = some t) : Kept t := by
  cases l with
  | tick time => exact h.tick hs
  | set delayUs => exact h.set hf hs
  | cancel timer => exact h.cancel hs
  | event now => exact h.event hs
  | walk => exact h.walk hs
  | «return» ok => exact h.returned hs

end Kept

theorem kept_of_run {s : Timers} (h : Run service Fits s) : Kept s := by
  apply Run.invariant _ _ h
  · rintro s rfl
    exact
      { books := ⟨.nil, .nil, by simp [Timers.initial], by simp [Timers.initial], by simp [Timers.initial],
          by simp [Timers.initial], by simp [Timers.initial], by simp [Timers.initial], .nil⟩
        phase := fun _ hm => by cases hm }
  · intro s l t _ hk hf hs
    exact hk.step hf hs

/-- When the handler returns without a callback having failed, every timer
that was due at its reading of the clock is gone, and was invoked unless it
had been cancelled from outside, which is before the handler ran. -/
theorem Kept.all_due {s t : Timers} (h : Kept s) {el : Option Timer} {now : UInt64}
    (hphase : s.phase = .walk el now) (hs : s.step .walk = some t) (hidle : t.phase = .idle)
    {timer : Timer} (hm : timer ∈ s.made) (hdue : timer.deadlineNs ≤ now) :
    timer ∉ t.head ∧ (Invoked t.log timer ∨ .cancelled timer false ∈ t.log) := by
  have hk := h.walk hs
  cases walks_of_step hs with
  | ends hphase' hel =>
    cases hphase.symm.trans hphase'
    obtain ⟨pre, rest, -, hlate, heq⟩ := h.finish hphase hel
    rw [heq] at hk ⊢
    have hgone : timer ∉ rest := fun hh => UInt64.not_le.mpr (hlate timer hh) hdue
    exact ⟨hgone, (hk.books.accounted timer hm).resolve_left hgone⟩
  | invokes => cases hidle
  | strays => cases hidle

def Succeeds : Label → Prop
  | .return ok => ok = true
  | _ => True

/-- Between the calls and the runs of the handler the descriptor is armed for
the earliest deadline, or disarmed if there is none. -/
def Exact (s : Timers) : Prop := s.phase = .idle → s.armed = s.head.head?.map (·.deadlineNs)

theorem itValue_eq {l : List Timer} (h : ∀ t ∈ l, t.deadlineNs ≠ 0) :
    itValue l = l.head?.map (·.deadlineNs) := by
  cases l with
  | nil => rfl
  | cons t l => exact if_neg (h t List.mem_cons_self)

theorem head?_erase_of_ne {timer : Timer} {l : List Timer} (h : l.head? ≠ some timer) :
    (l.erase timer).head? = l.head? := by
  cases l with
  | nil => rfl
  | cons t l =>
    have hne : ¬ (t == timer) = true := fun he => h (by rw [List.head?_cons, eq_of_beq he])
    rw [List.erase_cons_tail hne, List.head?_cons, List.head?_cons]

theorem Exact.set {s t : Timers} (h : Exact s) (ht : Kept t) {delayUs : UInt64}
    (hs : s.step (.set delayUs) = some t) : Exact t := by
  intro hidle
  have hz := ht.books.nonzero
  simp only [Timers.step, timerSet_eq] at hs
  split at hs
  · rename_i hphase
    cases hs
    dsimp only at hz ⊢
    rcases @head?_orderedInsert Timer timerLe _ (s.fresh delayUs) s.head with hnew | hold
    · rw [if_pos hnew, itValue_eq hz]
    · split
      · exact itValue_eq hz
      · rw [hold]
        exact h hphase
  · obtain ⟨-, ⟨⟩⟩ := Option.ite_none_right_eq_some.mp hs
    cases hidle
  · cases hs

theorem Exact.cancel {s t : Timers} (h : Exact s) (ht : Kept t) {timer : Timer}
    (hs : s.step (.cancel timer) = some t) :
    Exact t := by
  intro hidle
  have hz := ht.books.nonzero
  obtain ⟨-, hs⟩ := Option.ite_none_right_eq_some.mp hs
  simp only [timerCancel_eq] at hs
  split at hs
  · rename_i hphase
    cases hs
    dsimp only at hz ⊢
    by_cases hhead : s.head.head? = some timer
    · rw [if_pos hhead, itValue_eq hz]
    · rw [if_neg hhead, head?_erase_of_ne hhead]
      exact h hphase
  · obtain ⟨-, ⟨⟩⟩ := Option.ite_none_right_eq_some.mp hs
    cases hidle
  · cases hs

theorem Kept.walk_exact {s t : Timers} (h : Kept s) (hs : s.step .walk = some t) : Exact t := by
  intro hidle
  cases walks_of_step hs with
  | ends hphase hel =>
    obtain ⟨pre, rest, hsplit, -, heq⟩ := h.finish hphase hel
    rw [heq]
    exact itValue_eq (h.idle hsplit none).books.nonzero
  | invokes => cases hidle
  | strays => cases hidle

theorem Exact.step {s t : Timers} (h : Exact s) (hk : Kept s) {l : Label} (hf : Fits s l) (ho : Succeeds l)
    (hs : s.step l = some t) : Exact t := by
  have ht := hk.step hf hs
  cases l with
  | tick time =>
    obtain ⟨-, ⟨⟩⟩ := Option.ite_none_right_eq_some.mp hs
    exact h
  | set delayUs => exact h.set ht hs
  | cancel timer => exact h.cancel ht hs
  | event now =>
    obtain ⟨-, ⟨⟩⟩ := Option.ite_none_right_eq_some.mp hs
    exact fun hidle => by cases hidle
  | walk => exact hk.walk_exact hs
  | «return» ok =>
    cases (ho : ok = true)
    simp only [Timers.step] at hs
    split at hs
    · cases hs
      exact fun hidle => by cases hidle
    · cases hs

theorem exact_of_run {s : Timers} (h : Run service (fun s l => Fits s l ∧ Succeeds l) s) : Exact s := by
  have hboth : Kept s ∧ Exact s := by
    apply Run.invariant _ _ h
    · rintro s rfl
      exact ⟨kept_of_run (.start rfl), fun _ => rfl⟩
    · rintro s l t - ⟨hk, he⟩ ⟨hf, ho⟩ hs
      exact ⟨hk.step hf hs, he.step hk hf ho hs⟩
  exact hboth.2

/-- In every run whose deadlines fit the clock: the list is in order of the
deadlines; a callback is invoked for a timer to which nothing had happened, so
once at most and never after it was cancelled; not before the deadline; and
the handler leaves nothing that is due, unless a callback failed. If none
does, the descriptor is armed for the earliest deadline. -/
theorem timers_served {s : Timers} (h : Run service Fits s) :
    s.head.Pairwise timerLe ∧
    s.log.Pairwise (fun newer older => newer.isInvoked = true → older.timer ≠ newer.timer) ∧
    (∀ timer time, .invoked timer time ∈ s.log → timer.deadlineNs ≤ time) ∧
    (∀ el now t, s.phase = .walk el now → s.step .walk = some t → t.phase = .idle →
      ∀ timer ∈ s.made, timer.deadlineNs ≤ now →
        timer ∉ t.head ∧ (Invoked t.log timer ∨ .cancelled timer false ∈ t.log)) ∧
    s.phase ≠ .aborted ∧
    (Run service (fun s l => Fits s l ∧ Succeeds l) s → s.phase = .idle → s.armed = s.head.head?.map
      (·.deadlineNs)) := by
  have hk := kept_of_run h
  refine ⟨hk.books.sorted, hk.books.once, hk.books.due, ?_, ?_, fun hr => exact_of_run hr⟩
  · intro el now t hphase hs hidle timer hm hdue
    exact hk.all_due hphase hs hidle hm hdue
  · intro hphase
    have hp := hk.phase
    rw [hphase] at hp
    exact hp

instance (s : Timers) (l : Label) : Decidable (Fits s l) :=
  match l with
  | .set delayUs => inferInstanceAs (Decidable (0 < s.clock.toNat + delayUs.toNat * 1000 ∧ _))
  | .tick _ | .cancel _ | .event _ | .walk | .return _ => isTrue trivial

instance (l : Label) : Decidable (Succeeds l) :=
  match l with
  | .return ok => inferInstanceAs (Decidable (ok = true))
  | .tick _ | .set _ | .cancel _ | .event _ | .walk => isTrue trivial

theorem timers_served_again : ∃ s, Run service (fun s l => Fits s l ∧ Succeeds l) s ∧
    (s.armed = some 7000 ∧ s.head.length = 2 ∧ s.log.length = 2) ∧
    (s.phase = .idle ∧ s.armed = s.head.head?.map (·.deadlineNs)) ∧ s.head.Pairwise timerLe := by
  obtain ⟨s, hs, hphase, hshape⟩ : ∃ s, Run service (fun s l => Fits s l ∧ Succeeds l) s ∧
      s.phase = .idle ∧ s.armed = some 7000 ∧ s.head.length = 2 ∧ s.log.length = 2 :=
    exists_replay _ [.set 1000, .set 1, .tick 2000, .event 2000, .walk, .cancel ⟨1, 1000⟩, .set 5,
      .return true, .walk] (by decide)
  have hserved := timers_served (hs.mono (fun _ _ hg => hg.1))
  exact ⟨s, hs, hshape, ⟨hphase, hserved.2.2.2.2.2 hs hphase⟩, hserved.1⟩

/-- A callback fails while another timer is due: the handler returns with that
timer pending and the descriptor disarmed. And a delay that overflows in a
callback makes a timer that is removed without having been invoked. -/
theorem timers_stranded :
    (∃ s, Reachable service s ∧ s.phase = .idle ∧ s.armed = none ∧ s.head = [⟨1, 2000⟩]) ∧
    ∃ s, Reachable service s ∧ s.phase = .idle ∧ ∃ timer ∈ s.made, timer.deadlineNs ≤ s.clock ∧ timer ∉ s.head ∧
      ∀ x ∈ s.log, x.timer ≠ timer := by
  constructor
  · exact exists_replay _ [.set 1, .set 2, .tick 5000, .event 5000, .walk, .return false] (by decide)
  · exact exists_replay _ [.set 1, .tick 2000, .event 2000, .walk, .set 18446744073709551,
      .return true, .walk] (by decide)

end Bbdd.TimerService
