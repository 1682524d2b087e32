import Bbdd.Lib.Transition
import Mathlib.Data.Set.Basic

namespace Bbdd.Lib.Network

open Transition

variable {S T L K M : Type}

structure Party (S L M : Type) where
  sys : System S L
  sent : S → Set M
  heard : S → L → S → Set M

def pair (p : Party S L M) (q : Party T K M) : System (S × T) (L ⊕ K) where
  init x := p.sys.init x.1 ∧ q.sys.init x.2
  step x l y := match l with
    | .inl l => p.sys.step x.1 l y.1 ∧ p.heard x.1 l y.1 ⊆ q.sent x.2 ∧ y.2 = x.2
    | .inr k => q.sys.step x.2 k y.2 ∧ q.heard x.2 k y.2 ⊆ p.sent x.1 ∧ y.1 = x.1

def Party.Grows (p : Party S L M) : Prop :=
  ∀ s l s', Reachable p.sys s → p.sys.step s l s' → p.sent s ⊆ p.sent s'

structure Party.Relies (p : Party S L M) (I : Set M → S → Prop) : Prop where
  mono : ∀ {H H' s}, H ⊆ H' → I H s → I H' s
  init : ∀ {H s}, p.sys.init s → I H s
  step : ∀ {H s l s'}, Reachable p.sys s → I H s → p.heard s l s' ⊆ H → p.sys.step s l s' → I H s'

section

variable {p : Party S L M} {q : Party T K M}

theorem pair_reachable {x : S × T} (h : Reachable (pair p q) x) :
    Reachable p.sys x.1 ∧ Reachable q.sys x.2 := by
  refine h.invariant (I := fun x => Reachable p.sys x.1 ∧ Reachable q.sys x.2) (fun x hx => ?_)
    (fun x l y hx hs => ?_)
  · exact ⟨.start hx.1, .start hx.2⟩
  · cases l with
    | inl l =>
      obtain ⟨hs, -, he⟩ := hs
      exact ⟨hx.1.next hs, he ▸ hx.2⟩
    | inr k =>
      obtain ⟨hs, -, he⟩ := hs
      exact ⟨he ▸ hx.1, hx.2.next hs⟩

/-- What each party relies on, given the messages of the other, holds of the two
in any interleaving. -/
theorem pair_relies {I : Set M → S → Prop} {J : Set M → T → Prop} (hp : p.Grows) (hq : q.Grows)
    (hI : p.Relies I) (hJ : q.Relies J) {x : S × T} (h : Reachable (pair p q) x) :
    I (q.sent x.2) x.1 ∧ J (p.sent x.1) x.2 := by
  refine Run.invariant (I := fun x => I (q.sent x.2) x.1 ∧ J (p.sent x.1) x.2) (fun x hx => ?_)
    (fun x l y hr hx _ hs => ?_) h
  · exact ⟨hI.init hx.1, hJ.init hx.2⟩
  · obtain ⟨hr₁, hr₂⟩ := pair_reachable hr
    cases l with
    | inl l =>
      obtain ⟨hs, hh, he⟩ := hs
      rw [he]
      exact ⟨hI.step hr₁ hx.1 hh hs, hJ.mono (hp _ _ _ hr₁ hs) hx.2⟩
    | inr k =>
      obtain ⟨hs, hh, he⟩ := hs
      rw [he]
      exact ⟨hI.mono (hq _ _ _ hr₂ hs) hx.1, hJ.step hr₂ hx.2 hh hs⟩

end

end Bbdd.Lib.Network
