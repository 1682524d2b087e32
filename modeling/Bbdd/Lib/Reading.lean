import Mathlib.Data.List.Basic

namespace Bbdd.Lib.Reading

variable {σ τ κ : Type}

abbrev Reader (σ κ : Type) := σ → List String → Except κ (Option (σ × List String))

def orElse (p q : Reader σ κ) : Reader σ κ := fun s ws =>
  match p s ws with
  | .ok none => q s ws
  | r => r

def skip : Reader σ κ := fun _ _ => .ok none

def firstOf (ps : List (Reader σ κ)) : Reader σ κ := ps.foldr orElse skip

def on (get : σ → τ) (put : τ → σ → σ) (p : Reader τ κ) : Reader σ κ := fun s ws =>
  (p (get s) ws).map (Option.map fun r => (put r.1 s, r.2))

section

variable {p q : Reader σ κ} {s s' : σ} {ws rest : List String} {k : κ}

theorem orElse_some (h : orElse p q s ws = .ok (some (s', rest))) :
    p s ws = .ok (some (s', rest)) ∨ p s ws = .ok none ∧ q s ws = .ok (some (s', rest)) := by
  rw [orElse] at h
  split at h
  · rename_i hp
    exact .inr ⟨hp, h⟩
  · exact .inl h

theorem orElse_error (h : orElse p q s ws = .error k) :
    p s ws = .error k ∨ p s ws = .ok none ∧ q s ws = .error k := by
  rw [orElse] at h
  split at h
  · rename_i hp
    exact .inr ⟨hp, h⟩
  · exact .inl h

theorem on_some {get : σ → τ} {put : τ → σ → σ} {p : Reader τ κ}
    (h : on get put p s ws = .ok (some (s', rest))) :
    ∃ t, p (get s) ws = .ok (some (t, rest)) ∧ s' = put t s := by
  rw [on] at h
  rcases hp : p (get s) ws with e | _ | ⟨t, ws'⟩
  · rw [hp] at h
    cases h
  · rw [hp] at h
    cases h
  · rw [hp] at h
    cases h
    exact ⟨t, rfl, rfl⟩

theorem on_error {get : σ → τ} {put : τ → σ → σ} {p : Reader τ κ} (h : on get put p s ws = .error k) :
    p (get s) ws = .error k := by
  rw [on] at h
  rcases hp : p (get s) ws with e | r
  · rw [hp] at h
    exact congrArg _ (Except.error.inj h)
  · rw [hp] at h
    cases h

end

/-- Where a condition holds, a reader keeps an invariant, takes a word or more if
it takes any, and does not fail in one way. -/
structure Keeps (cond : σ → List String → Prop) (inv : σ → Prop) (bad : κ) (p : Reader σ κ) : Prop where
  step : ∀ {s s' ws rest}, cond s ws → inv s → p s ws = .ok (some (s', rest)) → inv s' ∧ rest.length < ws.length
  safe : ∀ {s ws}, cond s ws → p s ws ≠ .error bad

section

variable {cond : σ → List String → Prop} {inv : σ → Prop} {bad : κ} {p q : Reader σ κ}

theorem Keeps.orElse (hp : Keeps cond inv bad p)
    (hq : Keeps (fun s ws => cond s ws ∧ p s ws = .ok none) inv bad q) :
    Keeps cond inv bad (orElse p q) where
  step := by
    intro s s' ws rest hc hs h
    obtain h | ⟨hnone, h⟩ := orElse_some h
    · exact hp.step hc hs h
    · exact hq.step ⟨hc, hnone⟩ hs h
  safe := by
    intro s ws hc h
    obtain h | ⟨hnone, h⟩ := orElse_error h
    · exact hp.safe hc h
    · exact hq.safe ⟨hc, hnone⟩ h

theorem Keeps.mono {cond' : σ → List String → Prop} (hp : Keeps cond inv bad p)
    (h : ∀ s ws, cond' s ws → cond s ws) :
    Keeps cond' inv bad p :=
  ⟨fun hc => hp.step (h _ _ hc), fun hc => hp.safe (h _ _ hc)⟩

theorem Keeps.firstOf {ps : List (Reader σ κ)} (h : ∀ p ∈ ps, Keeps cond inv bad p) :
    Keeps cond inv bad (firstOf ps) := by
  induction ps with
  | nil => exact ⟨fun _ _ h => (by cases h), fun _ h => by cases h⟩
  | cons p ps ih =>
    have hps := ih fun q hq => h q (List.mem_cons_of_mem p hq)
    exact (h p List.mem_cons_self).orElse (hps.mono fun _ _ hc => hc.1)

theorem Keeps.on {get : σ → τ} {put : τ → σ → σ} {p : Reader τ κ} {part : τ → Prop}
    (hp : Keeps (fun _ _ => True) part bad p) (hget : ∀ s, inv s → part (get s))
    (hput : ∀ s t, inv s → part t → inv (put t s)) :
    Keeps (fun _ _ => True) inv bad (on get put p) where
  step := by
    intro s s' ws rest _ hs h
    obtain ⟨t, hread, rfl⟩ := on_some h
    obtain ⟨ht, hlen⟩ := hp.step trivial (hget s hs) hread
    exact ⟨hput s t hs ht, hlen⟩
  safe := fun _ h => hp.safe trivial (on_error h)

end

end Bbdd.Lib.Reading
