import Bbdd.Lib.Program

namespace Bbdd.Lib.Program

variable {σ κ α β : Type}

/-- Whenever a program started in a state of the first kind ends well, it ends
with a value and in a state of the second. -/
def Triple (P : σ → Prop) (p : Prog σ κ α) (Q : α → σ → Prop) : Prop :=
  ∀ s a t, P s → p s = .ok (a, t) → Q a t

section

variable {P P' : σ → Prop} {Q Q' : α → σ → Prop}

theorem Triple.mono {p : Prog σ κ α} (h : Triple P p Q) (hP : ∀ s, P' s → P s)
    (hQ : ∀ a s, Q a s → Q' a s) :
    Triple P' p Q' :=
  fun s a t hs hp => hQ a t (h s a t (hP s hs) hp)

theorem triple_pure {a : α} (h : ∀ s, P s → Q a s) : Triple P (pure a : Prog σ κ α) Q := by
  intro s b t hs hp
  obtain ⟨rfl, rfl⟩ := pure_ok.mp hp
  exact h s hs

theorem triple_update {f : σ → σ} {Q : Unit → σ → Prop} (h : ∀ s, P s → Q () (f s)) :
    Triple P (update f : Prog σ κ Unit) Q := by
  intro s b t hs hp
  cases hp
  exact h s hs

theorem triple_crash (k : κ) : Triple P (crash k : Prog σ κ α) Q := by
  intro s b t _ hp
  cases hp

theorem triple_bind {p : Prog σ κ α} {f : α → Prog σ κ β} {R : β → σ → Prop} (hp : Triple P p Q)
    (hf : ∀ a, Triple (Q a) (f a) R) : Triple P (p >>= f) R := by
  intro s b t hs h
  obtain ⟨a, u, hu, ht⟩ := bind_ok.mp h
  exact hf a u b t (hp s a u hs hu) ht

theorem triple_read {f : σ → Prog σ κ α} (h : ∀ s, P s → Triple (· = s) (f s) Q) :
    Triple P (read >>= f) Q := by
  intro s b t hs hp
  obtain ⟨_, _, hr, hp⟩ := bind_ok.mp hp
  cases hr
  exact h s hs s b t rfl hp

theorem triple_ite {c : Prop} [Decidable c] {p q : Prog σ κ α} (hp : c → Triple P p Q)
    (hq : ¬ c → Triple P q Q) :
    Triple P (if c then p else q) Q := by
  split
  · exact hp ‹_›
  · exact hq ‹_›

theorem triple_whenever {b : Bool} {p : Prog σ κ Unit} {Q : Unit → σ → Prop} (hp : b = true → Triple P p Q)
    (hq : b = false → ∀ s, P s → Q () s) : Triple P (whenever b p) Q := by
  cases b with
  | true => exact hp rfl
  | false => exact triple_pure (hq rfl)

theorem triple_attempt {ε : Type} {p : Prog σ κ (Except ε α)} {f : α → Prog σ κ (Except ε β)}
    {R : Except ε α → σ → Prop} {Q : Except ε β → σ → Prop} (hp : Triple P p R)
    (he : ∀ e s, R (.error e) s → Q (.error e) s) (hf : ∀ a, Triple (R (.ok a)) (f a) Q) :
    Triple P (attempt p f) Q := by
  refine triple_bind hp (fun r => ?_)
  cases r with
  | error e => exact triple_pure (he e)
  | ok a => exact hf a

theorem Within.triple {R : σ → σ → Prop} {p : Prog σ κ α} (h : Within R p) {I : σ → Prop}
    (hI : ∀ s t, R s t → I s → I t) :
    Triple I p (fun _ => I) :=
  fun s a t hs hp => hI s t (h s a t hp) hs

end

end Bbdd.Lib.Program
