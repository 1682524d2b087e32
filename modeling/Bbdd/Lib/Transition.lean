import Mathlib.Logic.Relation

namespace Bbdd.Lib.Transition

variable {S L : Type}

/-- A labelled transition system with its initial states. -/
structure System (S L : Type) where
  init : S → Prop
  step : S → L → S → Prop

/-- The states of the runs whose every step meets a guard on the state before
it and its label. -/
inductive Run (M : System S L) (G : S → L → Prop) : S → Prop
  | start {s} : M.init s → Run M G s
  | next {s l t} : Run M G s → G s l → M.step s l t → Run M G t

def Reachable (M : System S L) : S → Prop := Run M (fun _ _ => True)

theorem Run.mono {M : System S L} {G H : S → L → Prop} {s : S} (h : Run M G s)
    (hGH : ∀ s l, G s l → H s l) : Run M H s := by
  induction h with
  | start hs => exact .start hs
  | next _ hg hs ih => exact .next ih (hGH _ _ hg) hs

theorem Run.reachable {M : System S L} {G : S → L → Prop} {s : S} (h : Run M G s) : Reachable M s :=
  h.mono (fun _ _ _ => trivial)

theorem Reachable.next {M : System S L} {s t : S} {l : L} (h : Reachable M s) (hs : M.step s l t) :
    Reachable M t :=
  Run.next h trivial hs

/-- What holds at the start and is kept by every guarded step holds along
the whole run. The step may use that its source is reachable. -/
theorem Run.invariant {M : System S L} {G : S → L → Prop} {I : S → Prop}
    (hinit : ∀ s, M.init s → I s)
    (hstep : ∀ s l t, Reachable M s → I s → G s l → M.step s l t → I t)
    {s : S} (h : Run M G s) : I s := by
  induction h with
  | start hs => exact hinit _ hs
  | next hr hg hs ih => exact hstep _ _ _ hr.reachable ih hg hs

theorem Reachable.invariant {M : System S L} {I : S → Prop} (hinit : ∀ s, M.init s → I s)
    (hstep : ∀ s l t, I s → M.step s l t → I t) {s : S} (h : Reachable M s) : I s :=
  Run.invariant hinit (fun s l t _ hI _ hs => hstep s l t hI hs) h

/-- The system of a step function and the state it starts in. -/
def System.ofStep (init : S) (step : S → L → Option S) : System S L where
  init s := s = init
  step s l t := step s l = some t

theorem Run.foldl {step : S → L → S} {G : S → L → Prop} {init s : S} {ls : List L}
    (hs : Run (.ofStep init fun s l => some (step s l)) G s) (hG : ∀ l ∈ ls, ∀ s, G s l) :
    Run (.ofStep init fun s l => some (step s l)) G (ls.foldl step s) := by
  induction ls generalizing s with
  | nil => exact hs
  | cons l ls ih =>
    obtain ⟨hl, hls⟩ := List.forall_mem_cons.mp hG
    exact ih (.next hs (hl s) rfl) hls

section Replay

variable (step : S → L → Option S) (G : S → L → Prop) [∀ s l, Decidable (G s l)]

/-- The state after some steps that all meet a guard. -/
def replay (s : S) : List L → Option S
  | [] => some s
  | l :: ls => if G s l then (step s l).bind (fun t => replay t ls) else none

variable {step G}

theorem Run.replay {init s t : S} {ls : List L} (hs : Run (.ofStep init step) G s)
    (h : replay step G s ls = some t) :
    Run (.ofStep init step) G t := by
  induction ls generalizing s with
  | nil =>
    cases h
    exact hs
  | cons l ls ih =>
    obtain ⟨hg, h⟩ := Option.ite_none_right_eq_some.mp h
    obtain ⟨u, hu, h⟩ := Option.bind_eq_some_iff.mp h
    exact ih (.next hs hg hu) h

variable (G) in
theorem exists_replay {init : S} (ls : List L) {P : S → Prop} (h : ∃ s ∈ replay step G init ls, P s) :
    ∃ s, Run (.ofStep init step) G s ∧ P s := by
  obtain ⟨s, hs, hp⟩ := h
  exact ⟨s, Run.replay (.start rfl) hs, hp⟩

end Replay

end Bbdd.Lib.Transition
