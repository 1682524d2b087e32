import Bbdd.Lib.Program

namespace Bbdd.Lib.Program

variable {σ τ κ α β : Type}

/-- Two runs end alike: with the same value in states that are related, or in a
crash for the same reason. -/
def Alike (S : σ → τ → Prop) : Except κ (α × σ) → Except κ (α × τ) → Prop
  | .ok (a, s), .ok (b, t) => a = b ∧ S s t
  | .error k, .error l => k = l
  | _, _ => False

/-- From states related by the first relation two programs end alike, in states
related by the second. -/
def Couples (R S : σ → τ → Prop) (p : Prog σ κ α) (q : Prog τ κ α) : Prop :=
  ∀ s t, R s t → Alike S (p s) (q t)

def reply (r : Except κ (α × σ)) : Except κ α := r.map Prod.fst

variable {R S T : σ → τ → Prop} {p : Prog σ κ α} {q : Prog τ κ α}

theorem Alike.cases {x : Except κ (α × σ)} {y : Except κ (α × τ)} (h : Alike S x y) :
    (∃ k, x = .error k ∧ y = .error k) ∨ ∃ a s t, x = .ok (a, s) ∧ y = .ok (a, t) ∧ S s t := by
  match x, y, h with
  | .ok (a, s), .ok (_, t), ⟨rfl, hst⟩ => exact .inr ⟨a, s, t, rfl, rfl, hst⟩
  | .error k, .error _, rfl => exact .inl ⟨k, rfl, rfl⟩

theorem Alike.reply_eq {x : Except κ (α × σ)} {y : Except κ (α × τ)} (h : Alike S x y) :
    reply x = reply y := by
  obtain ⟨k, rfl, rfl⟩ | ⟨a, s, t, rfl, rfl, -⟩ := h.cases
  · rfl
  · rfl

theorem Alike.mono {x : Except κ (α × σ)} {y : Except κ (α × τ)} (h : Alike S x y)
    (hST : ∀ s t, S s t → T s t) :
    Alike T x y := by
  obtain ⟨k, rfl, rfl⟩ | ⟨a, s, t, rfl, rfl, hst⟩ := h.cases
  · rfl
  · exact ⟨rfl, hST s t hst⟩

theorem Couples.mono (h : Couples R S p q) (hST : ∀ s t, S s t → T s t) : Couples R T p q :=
  fun s t hst => (h s t hst).mono hST

theorem Couples.before (h : Couples R S p q) (hTR : ∀ s t, T s t → R s t) : Couples T S p q :=
  fun s t hst => h s t (hTR s t hst)

theorem couples_self {p : Prog σ κ α} : Couples Eq Eq p p := by
  intro s t hst
  subst hst
  cases p s with
  | error k => exact rfl
  | ok r => exact ⟨rfl, rfl⟩

theorem couples_pure (a : α) : Couples R R (pure a : Prog σ κ α) (pure a : Prog τ κ α) :=
  fun _ _ hst => ⟨rfl, hst⟩

theorem couples_crash (k : κ) : Couples R S (crash k : Prog σ κ α) (crash k : Prog τ κ α) :=
  fun _ _ _ => rfl

theorem couples_update {f : σ → σ} {g : τ → τ} (h : ∀ s t, R s t → S (f s) (g t)) :
    Couples R S (update f : Prog σ κ Unit) (update g : Prog τ κ Unit) :=
  fun s t hst => ⟨rfl, h s t hst⟩

theorem couples_bind {f : α → Prog σ κ β} {g : α → Prog τ κ β} (hp : Couples R S p q)
    (hf : ∀ a, Couples S T (f a) (g a)) :
    Couples R T (p >>= f) (q >>= g) := by
  intro s t hst
  obtain ⟨k, hs, ht⟩ | ⟨a, s', t', hs, ht, hst'⟩ := (hp s t hst).cases
  · rw [bind_error hs, bind_error ht]
    exact rfl
  · rw [bind_run hs, bind_run ht]
    exact hf a s' t' hst'

theorem couples_read_bind {f : σ → Prog σ κ β} {g : τ → Prog τ κ β}
    (h : ∀ s t, R s t → Couples R T (f s) (g t)) :
    Couples R T (read >>= f) (read >>= g) := by
  intro s t hst
  rw [bind_run (show read s = .ok (s, s) from rfl), bind_run (show read t = .ok (t, t) from rfl)]
  exact h s t hst s t hst

theorem couples_ite {c : Prop} [Decidable c] {p' : Prog σ κ α} {q' : Prog τ κ α} (hp : Couples R S p q)
    (hq : Couples R S p' q') : Couples R S (if c then p else p') (if c then q else q') := by
  split
  · exact hp
  · exact hq

theorem couples_whenever {b : Bool} {p : Prog σ κ Unit} {q : Prog τ κ Unit} (hp : Couples R R p q) :
    Couples R R (whenever b p) (whenever b q) :=
  couples_ite hp (couples_pure _)

theorem couples_attempt {ε : Type} {p : Prog σ κ (Except ε α)} {q : Prog τ κ (Except ε α)}
    {f : α → Prog σ κ (Except ε β)} {g : α → Prog τ κ (Except ε β)} (hp : Couples R S p q)
    (hf : ∀ a, Couples S S (f a) (g a)) :
    Couples R S (attempt p f) (attempt q g) := by
  refine couples_bind hp (fun r => ?_)
  cases r with
  | error e => exact couples_pure _
  | ok a => exact hf a

end Bbdd.Lib.Program
