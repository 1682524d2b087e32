import Mathlib.Data.List.Infix

namespace Bbdd.Lib.Framing

section

variable {α : Type}

structure Split (IsFrame : List α → Prop) (stream : List α) (frames : List (List α))
    (rest : List α) : Prop where
  whole : frames.flatten ++ rest = stream
  frame : ∀ f ∈ frames, IsFrame f
  ends : ∀ f, IsFrame f → ¬ f <+: rest

structure PrefixFree (IsFrame : List α → Prop) : Prop where
  nonempty : ∀ f, IsFrame f → f ≠ []
  eq : ∀ f g, IsFrame f → IsFrame g → f <+: g → f = g

variable {IsFrame : List α → Prop} {stream f rest rest' : List α} {frames frames' : List (List α)}

theorem split_stop (h : ∀ f, IsFrame f → ¬ f <+: stream) : Split IsFrame stream [] stream :=
  ⟨rfl, by simp, h⟩

theorem Split.cons (hf : IsFrame f) (h : Split IsFrame stream frames rest) :
    Split IsFrame (f ++ stream) (f :: frames) rest := by
  refine ⟨?_, ?_, h.ends⟩
  · rw [List.flatten_cons, List.append_assoc, h.whole]
  · rintro g (_ | ⟨_, hg⟩)
    · exact hf
    · exact h.frame g hg

theorem Split.uncons (h : Split IsFrame stream (f :: frames) rest) :
    IsFrame f ∧ ∃ stream', stream = f ++ stream' ∧ Split IsFrame stream' frames rest := by
  refine ⟨h.frame f List.mem_cons_self, frames.flatten ++ rest, ?_, rfl, ?_, h.ends⟩
  · rw [← h.whole, List.flatten_cons, List.append_assoc]
  · exact fun g hg => h.frame g (List.mem_cons_of_mem f hg)

theorem Split.nil_eq (h : Split IsFrame stream [] rest) : rest = stream := h.whole

theorem Split.append {more : List α} (h : Split IsFrame stream frames rest)
    (h' : Split IsFrame (rest ++ more) frames' rest') :
    Split IsFrame (stream ++ more) (frames ++ frames') rest' := by
  refine ⟨?_, ?_, h'.ends⟩
  · rw [List.flatten_append, List.append_assoc, h'.whole, ← List.append_assoc, h.whole]
  · intro g hg
    exact (List.mem_append.mp hg).elim (h.frame g) (h'.frame g)

theorem exists_split (hp : PrefixFree IsFrame) (stream : List α) :
    ∃ frames rest, Split IsFrame stream frames rest := by
  induction hn : stream.length using Nat.strong_induction_on generalizing stream with
  | h n ih =>
    by_cases hf : ∃ f, IsFrame f ∧ f <+: stream
    · obtain ⟨f, hf, tail, rfl⟩ := hf
      have hpos := List.length_pos_of_ne_nil (hp.nonempty f hf)
      obtain ⟨frames, rest, h⟩ := ih tail.length (by rw [← hn, List.length_append]; omega) tail rfl
      exact ⟨f :: frames, rest, h.cons hf⟩
    · exact ⟨[], stream, split_stop (fun f h hpre => hf ⟨f, h, hpre⟩)⟩

theorem Split.unique (hp : PrefixFree IsFrame) (h : Split IsFrame stream frames rest)
    (h' : Split IsFrame stream frames' rest') :
    frames' = frames ∧ rest' = rest := by
  induction frames generalizing stream frames' with
  | nil =>
    cases frames' with
    | nil => exact ⟨rfl, h'.nil_eq.trans h.nil_eq.symm⟩
    | cons g gs =>
      obtain ⟨hg, tail, heq, -⟩ := h'.uncons
      exact absurd ⟨tail, by rw [h.nil_eq, heq]⟩ (h.ends g hg)
  | cons f fs ih =>
    obtain ⟨hf, tail, heq, ht⟩ := h.uncons
    cases frames' with
    | nil => exact absurd ⟨tail, by rw [h'.nil_eq, heq]⟩ (h'.ends f hf)
    | cons g gs =>
      obtain ⟨hg, tail', heq', ht'⟩ := h'.uncons
      have hfg : f = g := by
        obtain hpre | hpre := List.prefix_or_prefix_of_prefix ⟨tail, heq.symm⟩ ⟨tail', heq'.symm⟩
        · exact hp.eq f g hf hg hpre
        · exact (hp.eq g f hg hf hpre).symm
      subst hfg
      have htail : tail' = tail := List.append_cancel_left (heq'.symm.trans heq)
      subst htail
      obtain ⟨rfl, rfl⟩ := ih ht ht'
      exact ⟨rfl, rfl⟩

end

end Bbdd.Lib.Framing
