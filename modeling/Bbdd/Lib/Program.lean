import Mathlib.Logic.Relation

namespace Bbdd.Lib.Program

variable {σ κ α β : Type}

abbrev Prog (σ κ : Type) := StateT σ (Except κ)

def read : Prog σ κ σ := fun s => .ok (s, s)

def update (f : σ → σ) : Prog σ κ Unit := fun s => .ok ((), f s)

def crash (k : κ) : Prog σ κ α := fun _ => .error k

def whenever (b : Bool) (p : Prog σ κ Unit) : Prog σ κ Unit := if b then p else pure ()

/-- Go on with the value of a fallible call, or return its error. -/
def attempt {ε : Type} (p : Prog σ κ (Except ε α)) (f : α → Prog σ κ (Except ε β)) :
    Prog σ κ (Except ε β) :=
  p >>= fun r => match r with
    | .error e => pure (.error e)
    | .ok a => f a

def wp (p : Prog σ κ α) (Q : α → σ → Prop) (s : σ) : Prop := ∃ a t, p s = .ok (a, t) ∧ Q a t

theorem bind_ok {p : Prog σ κ α} {f : α → Prog σ κ β} {s t : σ} {b : β} :
    (p >>= f) s = .ok (b, t) ↔ ∃ a u, p s = .ok (a, u) ∧ f a u = .ok (b, t) := by
  cases h : p s with
  | error k => simp [bind, StateT.bind, Except.bind, h]
  | ok r =>
    obtain ⟨a, u⟩ := r
    simp [bind, StateT.bind, Except.bind, h, and_assoc]

theorem bind_run {p : Prog σ κ α} {f : α → Prog σ κ β} {s t : σ} {a : α} (h : p s = .ok (a, t)) :
    (p >>= f) s = f a t := by
  simp [bind, StateT.bind, Except.bind, h]

theorem read_run (s : σ) : (read : Prog σ κ σ) s = .ok (s, s) := rfl

theorem read_ok {f : σ → Prog σ κ β} {s t : σ} {b : β} :
    (read >>= f) s = .ok (b, t) ↔ f s s = .ok (b, t) := Iff.rfl

theorem bind_error {p : Prog σ κ α} {f : α → Prog σ κ β} {s : σ} {k : κ} (h : p s = .error k) :
    (p >>= f) s = .error k := by
  simp [bind, StateT.bind, Except.bind, h]

theorem pure_ok {a b : α} {s t : σ} : (pure a : Prog σ κ α) s = .ok (b, t) ↔ a = b ∧ s = t := by
  change (Except.ok (a, s) : Except κ (α × σ)) = .ok (b, t) ↔ _
  simp

@[simp] theorem wp_pure (a : α) (Q : α → σ → Prop) (s : σ) : wp (pure a : Prog σ κ α) Q s ↔ Q a s := by
  simp [wp, pure_ok, and_assoc]

@[simp] theorem wp_bind (p : Prog σ κ α) (f : α → Prog σ κ β) (Q : β → σ → Prop) (s : σ) :
    wp (p >>= f) Q s ↔ wp p (fun a => wp (f a) Q) s := by
  constructor
  · rintro ⟨b, t, h, hQ⟩
    obtain ⟨a, u, hp, hf⟩ := bind_ok.mp h
    exact ⟨a, u, hp, b, t, hf, hQ⟩
  · rintro ⟨a, u, hp, b, t, hf, hQ⟩
    exact ⟨b, t, bind_ok.mpr ⟨a, u, hp, hf⟩, hQ⟩

@[simp] theorem wp_map (f : α → β) (p : Prog σ κ α) (Q : β → σ → Prop) (s : σ) :
    wp (f <$> p) Q s ↔ wp p (fun a => Q (f a)) s := by
  rw [map_eq_pure_bind, wp_bind]
  constructor <;> rintro ⟨a, t, hp, h⟩ <;> exact ⟨a, t, hp, by simpa using h⟩

@[simp] theorem wp_read (Q : σ → σ → Prop) (s : σ) : wp (read : Prog σ κ σ) Q s ↔ Q s s := by
  simp [wp, read, and_assoc]

@[simp] theorem wp_update (f : σ → σ) (Q : Unit → σ → Prop) (s : σ) :
    wp (update f : Prog σ κ Unit) Q s ↔ Q () (f s) := by
  constructor
  · rintro ⟨a, t, h, hQ⟩
    cases h
    exact hQ
  · exact fun hQ => ⟨(), f s, rfl, hQ⟩

@[simp] theorem wp_crash (k : κ) (Q : α → σ → Prop) (s : σ) : ¬ wp (crash k : Prog σ κ α) Q s := by
  simp [wp, crash]

@[simp] theorem wp_ite (c : Prop) [Decidable c] (p q : Prog σ κ α) (Q : α → σ → Prop) (s : σ) :
    wp (if c then p else q) Q s ↔ if c then wp p Q s else wp q Q s := by
  split <;> rfl

@[simp] theorem wp_whenever (b : Bool) (p : Prog σ κ Unit) (Q : Unit → σ → Prop) (s : σ) :
    wp (whenever b p) Q s ↔ if b then wp p Q s else Q () s := by
  cases b <;> simp [whenever]

@[simp] theorem wp_attempt {ε : Type} (p : Prog σ κ (Except ε α)) (f : α → Prog σ κ (Except ε β))
    (Q : Except ε β → σ → Prop) (s : σ) :
    wp (attempt p f) Q s ↔ wp p (fun r t => match r with
      | .error e => Q (.error e) t
      | .ok a => wp (f a) Q t) s := by
  rw [attempt, wp_bind]
  constructor
  · rintro ⟨r, t, hp, hr⟩
    refine ⟨r, t, hp, ?_⟩
    cases r with
    | error e => simpa only [wp_pure] using hr
    | ok a => exact hr
  · rintro ⟨r, t, hp, hr⟩
    refine ⟨r, t, hp, ?_⟩
    cases r with
    | error e => simpa only [wp_pure] using hr
    | ok a => exact hr

theorem wp_mono {p : Prog σ κ α} {Q Q' : α → σ → Prop} {s : σ} (h : wp p Q s)
    (hQ : ∀ a t, Q a t → Q' a t) : wp p Q' s := by
  obtain ⟨a, t, hp, hq⟩ := h
  exact ⟨a, t, hp, hQ a t hq⟩

theorem wp_of_ok {p : Prog σ κ α} {s t : σ} {a : α} (h : p s = .ok (a, t)) :
    wp p (fun b u => b = a ∧ u = t) s :=
  ⟨a, t, h, rfl, rfl⟩

theorem wp_ok {p : Prog σ κ α} {Q : α → σ → Prop} {s t : σ} {a : α} (h : wp p Q s)
    (hp : p s = .ok (a, t)) : Q a t := by
  obtain ⟨b, u, hb, hQ⟩ := h
  rw [hp] at hb
  cases hb
  exact hQ

theorem wp_eq {p : Prog σ κ α} {Q : α → σ → Prop} {s : σ} (h : wp p Q s) :
    wp p (fun a t => p s = .ok (a, t) ∧ Q a t) s := by
  obtain ⟨a, t, hp, hQ⟩ := h
  exact ⟨a, t, hp, hp, hQ⟩

/-- Every run relates its first state to its last. With a reflexive and
transitive relation this is the frame rule: what each part of a program
leaves alone, or only moves forward, the whole program does too. -/
def Within (R : σ → σ → Prop) (p : Prog σ κ α) : Prop := ∀ s a t, p s = .ok (a, t) → R s t

section Within

variable {R : σ → σ → Prop}

theorem Within.wp {p : Prog σ κ α} {Q : α → σ → Prop} {s : σ} (hR : Within R p)
    (h : Program.wp p Q s) : Program.wp p (fun a t => Q a t ∧ R s t) s := by
  obtain ⟨a, t, hp, hQ⟩ := h
  exact ⟨a, t, hp, hQ, hR s a t hp⟩

theorem Within.mono {R' : σ → σ → Prop} {p : Prog σ κ α} (h : Within R p)
    (hR : ∀ s t, R s t → R' s t) : Within R' p :=
  fun s a t hp => hR s t (h s a t hp)

theorem within_pure [Std.Refl R] (a : α) : Within R (pure a : Prog σ κ α) := by
  intro s b t h
  obtain ⟨-, rfl⟩ := pure_ok.mp h
  exact refl_of R s

theorem within_read [Std.Refl R] : Within R (read : Prog σ κ σ) := by
  intro s b t h
  cases h
  exact refl_of R s

theorem within_update {f : σ → σ} (h : ∀ s, R s (f s)) : Within R (update f : Prog σ κ Unit) := by
  intro s b t hp
  cases hp
  exact h s

theorem within_crash (k : κ) : Within R (crash k : Prog σ κ α) := by
  intro s b t h
  cases h

theorem within_bind [IsTrans σ R] {p : Prog σ κ α} {f : α → Prog σ κ β} (hp : Within R p)
    (hf : ∀ a, Within R (f a)) : Within R (p >>= f) := by
  intro s b t h
  obtain ⟨a, u, hu, ht⟩ := bind_ok.mp h
  exact trans_of R (hp s a u hu) (hf a u b t ht)

theorem within_ite {c : Prop} [Decidable c] {p q : Prog σ κ α} (hp : Within R p) (hq : Within R q) :
    Within R (if c then p else q) := by
  split
  · exact hp
  · exact hq

theorem within_whenever [Std.Refl R] {b : Bool} {p : Prog σ κ Unit} (hp : Within R p) :
    Within R (whenever b p) :=
  within_ite hp (within_pure _)

theorem within_attempt [Std.Refl R] [IsTrans σ R] {ε : Type} {p : Prog σ κ (Except ε α)}
    {f : α → Prog σ κ (Except ε β)} (hp : Within R p) (hf : ∀ a, Within R (f a)) :
    Within R (attempt p f) := by
  refine within_bind hp (fun r => ?_)
  cases r with
  | error e => exact within_pure _
  | ok a => exact hf a

theorem within_read_bind {f : σ → Prog σ κ β} (hf : ∀ s b t, f s s = .ok (b, t) → R s t) :
    Within R (read >>= f) := by
  intro s b t h
  obtain ⟨a, u, hu, ht⟩ := bind_ok.mp h
  cases hu
  exact hf s b t ht

end Within

theorem keeps_of_moves {R : σ → σ → Prop} {I : σ → Prop} (h : ∀ s t, R s t → I s → I t) {s t : σ}
    (hst : Relation.ReflTransGen R s t) (hs : I s) : I t := by
  induction hst with
  | refl => exact hs
  | tail _ ht ih => exact h _ _ ht ih

theorem within_of_moves {R S : σ → σ → Prop} [Std.Refl R] [IsTrans σ R] (h : ∀ s t, S s t → R s t)
    {p : Prog σ κ α} (hp : Within (Relation.ReflTransGen S) p) : Within R p :=
  hp.mono (fun s _ hst => keeps_of_moves (I := R s) (fun _ _ hs hr => trans_of R hr (h _ _ hs)) hst
    (refl_of R s))

theorem wp_seq {p : Prog σ κ α} {f : α → Prog σ κ β} {P : α → σ → Prop} {Q : β → σ → Prop} {s : σ}
    (hp : wp p P s) (hf : ∀ a t, P a t → wp (f a) Q t) : wp (p >>= f) Q s :=
  (wp_bind p f Q s).mpr (wp_mono hp hf)

def Total (p : Prog σ κ α) : Prop := ∀ s, wp p (fun _ _ => True) s

section Total

theorem total_pure (a : α) : Total (pure a : Prog σ κ α) := fun s => (wp_pure a _ s).mpr trivial

theorem total_read : Total (read : Prog σ κ σ) := fun s => (wp_read _ s).mpr trivial

theorem total_update (f : σ → σ) : Total (update f : Prog σ κ Unit) :=
  fun s => (wp_update f _ s).mpr trivial

theorem total_bind {p : Prog σ κ α} {f : α → Prog σ κ β} (hp : Total p) (hf : ∀ a, Total (f a)) :
    Total (p >>= f) :=
  fun s => wp_seq (hp s) (fun a t _ => hf a t)

theorem total_ite {c : Prop} [Decidable c] {p q : Prog σ κ α} (hp : Total p) (hq : Total q) :
    Total (if c then p else q) := by
  split
  · exact hp
  · exact hq

theorem total_whenever {b : Bool} {p : Prog σ κ Unit} (hp : Total p) : Total (whenever b p) :=
  total_ite hp (total_pure _)

theorem Total.wp {R : σ → σ → Prop} {p : Prog σ κ α} (h : Total p) (hR : Within R p) (s : σ) :
    Program.wp p (fun _ t => R s t) s :=
  wp_mono (hR.wp (h s)) (fun _ _ ht => ht.2)

end Total

inductive Failure
  | error (message : String)
  | assert
  deriving DecidableEq, Repr

theorem bind_eq_ok {ε α β : Type} {x : Except ε α} {f : α → Except ε β} {b : β} :
    (x >>= f) = .ok b ↔ ∃ a, x = .ok a ∧ f a = .ok b := by
  cases x with
  | error e => exact ⟨nofun, nofun⟩
  | ok a => exact ⟨fun h => ⟨a, rfl, h⟩, fun ⟨_, ha, h⟩ => Except.ok.inj ha ▸ h⟩

end Bbdd.Lib.Program
