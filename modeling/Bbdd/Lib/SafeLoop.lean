import Mathlib.Data.List.Nodup

namespace Bbdd.Lib.SafeLoop

variable {σ κ ι : Type} [DecidableEq ι]

/-- The entry after one in a list. -/
def after : List ι → ι → Option ι
  | [], _ => none
  | b :: rest, a => if b = a then rest.head? else after rest a

variable (view : σ → List ι) (dangling : κ) (body : ι → σ → Except κ σ)

/-- Go through a linked list of objects, with the next one looked up before the
body is run on one. An object that is not in the list any more was freed, and
looking at it is an error. -/
def walk : Nat → Option ι → σ → Except κ σ
  | 0, _, s => .ok s
  | _ + 1, none, s => .ok s
  | n + 1, some a, s =>
    if a ∈ view s then
      match body a s with
      | .error k => .error k
      | .ok s' => walk n (after (view s) a) s'
    else .error dangling

def forEachSafe (s : σ) : Except κ σ := walk view dangling body (view s).length (view s).head? s

variable {view dangling body}

theorem after_append {pre post : List ι} {a : ι} (h : a ∉ pre) :
    after (pre ++ a :: post) a = post.head? := by
  induction pre with
  | nil => rw [List.nil_append, after, if_pos rfl]
  | cons b pre ih =>
    rw [List.mem_cons, not_or] at h
    rw [List.cons_append, after, if_neg (Ne.symm h.1), ih h.2]

theorem mem_of_after {l : List ι} {a b : ι} (hn : l.Nodup) (h : after l a = some b) : b ∈ l ∧ b ≠ a := by
  induction l with
  | nil => cases h
  | cons c l ih =>
    obtain ⟨hc, hn⟩ := List.nodup_cons.mp hn
    rw [after] at h
    split at h
    · rename_i hca
      have hb : b ∈ l := List.mem_of_mem_head? h
      exact ⟨List.mem_cons_of_mem c hb, fun he => hc (hca.trans he.symm ▸ hb)⟩
    · obtain ⟨hb, hne⟩ := ih hn h
      exact ⟨List.mem_cons_of_mem c hb, hne⟩

/-- A body that takes nothing out of the list but the entry it is run on, and
puts nothing in, where an invariant holds that it keeps. -/
def Local (inv : σ → Prop) (view : σ → List ι) (body : ι → σ → Except κ σ) : Prop :=
  ∀ a s s', inv s → a ∈ view s → body a s = .ok s' → inv s' ∧ (view s' = view s ∨ view s' = (view s).erase a)

variable {inv : σ → Prop}

theorem walk_eq (hb : Local inv view body) {pre post : List ι} {s : σ} (hi : inv s)
    (hv : view s = pre ++ post) (hn : (view s).Nodup) :
    walk view dangling body post.length post.head? s = post.foldlM (fun s a => body a s) s := by
  induction post generalizing pre s with
  | nil => rfl
  | cons a post ih =>
    have hmem : a ∈ view s := by simp [hv]
    have hpre : a ∉ pre := by
      rw [hv] at hn
      exact fun ha => (List.nodup_append.mp hn).2.2 a ha a List.mem_cons_self rfl
    rw [List.length_cons, List.head?_cons, walk, if_pos hmem, List.foldlM_cons]
    cases h : body a s with
    | error k => rfl
    | ok s' =>
      have hafter : after (view s) a = post.head? := by rw [hv, after_append hpre]
      obtain ⟨hi', hs⟩ := hb a s s' hi hmem h
      -- the entry itself may be gone by now, but what comes after it is not
      have hv' : ∃ pre', view s' = pre' ++ post ∧ (view s').Nodup := by
        obtain hs | hs := hs
        · exact ⟨pre ++ [a], by rw [hs, hv, List.append_assoc]; rfl, hs ▸ hn⟩
        · refine ⟨pre, ?_, hs ▸ hn.erase a⟩
          rw [hs, hv, List.erase_append_right _ hpre, List.erase_cons_head]
      obtain ⟨pre', hv', hn'⟩ := hv'
      exact (congrArg (walk view dangling body post.length · s') hafter).trans (ih hi' hv' hn')

theorem forEachSafe_eq (hb : Local inv view body) {s : σ} (hi : inv s) (hn : (view s).Nodup) :
    forEachSafe view dangling body s = (view s).foldlM (fun s a => body a s) s :=
  walk_eq hb hi (List.nil_append (view s)).symm hn

theorem walk_still {pre post : List ι} {s : σ} (hv : view s = pre ++ post) (hn : (view s).Nodup)
    (hbody : ∀ a ∈ post, body a s = .ok s) (n : Nat) :
    walk view dangling body n post.head? s = .ok s := by
  induction n generalizing pre post with
  | zero => rfl
  | succ n ih =>
    cases post with
    | nil => rfl
    | cons a post =>
      have hmem : a ∈ view s := by simp [hv]
      have hpre : a ∉ pre := by
        rw [hv] at hn
        exact fun ha => (List.nodup_append.mp hn).2.2 a ha a List.mem_cons_self rfl
      have hafter : after (view s) a = post.head? := by rw [hv, after_append hpre]
      rw [List.head?_cons, walk, if_pos hmem, hbody a List.mem_cons_self, hafter]
      exact ih (hv.trans (List.append_cons pre a post)) fun b hb => hbody b (List.mem_cons_of_mem a hb)

/-- On some turn of the loop the entry that was looked up before is lost, for a reason. -/
inductive Loses (view : σ → List ι) (body : ι → σ → Except κ σ) (reason : σ → ι → ι → Prop) :
    Option ι → σ → Prop
  | now {a b : ι} {s s' : σ} : body a s = .ok s' → after (view s) a = some b → b ∉ view s' →
      reason s a b → Loses view body reason (some a) s
  | later {a : ι} {s s' : σ} : body a s = .ok s' → Loses view body reason (after (view s) a) s' →
      Loses view body reason (some a) s

/-- A body that does well on the entries that are ready, takes entries out of the
list only, others than its own for a reason, and leaves its own entry settled. -/
def Shrinking (inv : σ → Prop) (ready settled : σ → ι → Prop) (reason : σ → ι → ι → Prop)
    (view : σ → List ι) (body : ι → σ → Except κ σ) :
    Prop :=
  ∀ a s, inv s → a ∈ view s → ready s a → ∃ s', body a s = .ok s' ∧ inv s' ∧
    (view s').Sublist (view s) ∧ settled s' a ∧
    ∀ b ∈ view s, b ≠ a → (b ∉ view s' → reason s a b) ∧ (ready s b → b ∈ view s' → ready s' b) ∧
      (settled s b → settled s' b)

variable {ready settled : σ → ι → Prop} {reason : σ → ι → ι → Prop}

theorem not_loses_none (s : σ) : ¬ Loses view body reason none s := by
  intro h
  cases h

theorem Loses.exists_reason {next : Option ι} {s : σ} (h : Loses view body reason next s) :
    ∃ s a b, reason s a b := by
  induction h with
  | now _ _ _ hr => exact ⟨_, _, _, hr⟩
  | later _ _ ih => exact ih

theorem loses_iff {a : ι} {s s' : σ} (hbody : body a s = .ok s') : Loses view body reason (some a) s ↔
    (∃ b, after (view s) a = some b ∧ b ∉ view s' ∧ reason s a b) ∨ Loses view body reason
    (after (view s) a) s' := by
  constructor
  · rintro (⟨hbody', hafter, hlost, hr⟩ | ⟨hbody', hl⟩)
    · cases hbody.symm.trans hbody'
      exact .inl ⟨_, hafter, hlost, hr⟩
    · cases hbody.symm.trans hbody'
      exact .inr hl
  · rintro (⟨b, hafter, hlost, hr⟩ | hl)
    · exact .now hbody hafter hlost hr
    · exact .later hbody hl

theorem walk_none (n : Nat) (s : σ) : walk view dangling body n none s = .ok s := by cases n <;> rfl

omit [DecidableEq ι] in
theorem sublist_middle {l pre post : List ι} {a : ι} (hs : l.Sublist (pre ++ a :: post))
    (hn : (pre ++ a :: post).Nodup) (hm : a ∈ l) :
    ∃ pre' post', l = pre' ++ a :: post' ∧ pre'.Sublist pre ∧ post'.Sublist post := by
  obtain ⟨l₁, l₂, rfl, h₁, h₂⟩ := List.sublist_append_iff.mp hs
  have ha : a ∉ l₁ := fun h => (List.nodup_append.mp hn).2.2 a (h₁.subset h) a List.mem_cons_self rfl
  have ha₂ : a ∈ l₂ := (List.mem_append.mp hm).resolve_left ha
  have hpost : a ∉ post := (List.nodup_cons.mp (List.nodup_append.mp hn).2.1).1
  cases h₂ with
  | cons _ h => exact absurd (h.subset ha₂) hpost
  | cons_cons _ h => exact ⟨l₁, _, rfl, h₁, h⟩

/-- The loop on its way: the entries behind it are settled, those ahead of it ready. -/
structure Midway (inv : σ → Prop) (ready settled : σ → ι → Prop) (view : σ → List ι) (s : σ)
    (pre post : List ι) : Prop where
  kept : inv s
  split : view s = pre ++ post
  nodup : (view s).Nodup
  behind : ∀ a ∈ pre, settled s a
  ahead : ∀ a ∈ post, ready s a

variable {s : σ} {pre post : List ι} {a b : ι}

omit [DecidableEq ι] in
theorem Midway.all_settled (h : Midway inv ready settled view s pre []) : ∀ a ∈ view s, settled s a := by
  rw [h.split, List.append_nil]
  exact h.behind

theorem Midway.after (h : Midway inv ready settled view s pre (a :: post)) :
    a ∈ view s ∧ SafeLoop.after (view s) a = post.head? := by
  obtain ⟨-, -, hdisj⟩ := List.nodup_append.mp (h.split ▸ h.nodup)
  rw [h.split]
  exact ⟨by simp, after_append fun ha => hdisj a ha a List.mem_cons_self rfl⟩

omit [DecidableEq ι] in
theorem Midway.turn (hb : Shrinking inv ready settled reason view body)
    (h : Midway inv ready settled view s pre (a :: post)) :
    ∃ s', body a s = .ok s' ∧ (post = [] → Midway inv ready settled view s' (view s') []) ∧
      ∀ b rest, post = b :: rest → (b ∉ view s' → reason s a b) ∧
        (b ∈ view s' → ∃ pre' rest', Midway inv ready settled view s' pre' (b :: rest') ∧
          rest'.length ≤ rest.length) := by
  obtain ⟨s', hbody, hi, hsub, hset, hothers⟩ := hb a s h.kept (by simp [h.split]) (h.ahead a List.mem_cons_self)
  have hview : view s = (pre ++ [a]) ++ post := by simp [h.split]
  have hapost : a ∉ post := (List.nodup_cons.mp (List.nodup_append.mp (h.split ▸ h.nodup)).2.1).1
  have hnodup := h.nodup.sublist hsub
  have hsettled : ∀ b ∈ pre ++ [a], b ∈ view s' → settled s' b := by
    intro b hbp hbm
    by_cases hba : b = a
    · exact hba ▸ hset
    · exact (hothers b (hsub.subset hbm) hba).2.2 (h.behind b (by simpa [hba] using hbp))
  refine ⟨s', hbody, ?_, ?_⟩
  · rintro rfl
    rw [List.append_nil] at hview
    exact ⟨hi, by simp, hnodup, fun b hbm => hsettled b (hview ▸ hsub.subset hbm) hbm, by simp⟩
  · rintro b rest rfl
    refine ⟨(hothers b (by simp [hview]) fun he => hapost (he ▸ List.mem_cons_self)).1, fun hbm => ?_⟩
    -- what is left of the list from there on is what the loop still has to do
    obtain ⟨pre', rest', hv', hpre', hrest'⟩ := sublist_middle (hview ▸ hsub) (hview ▸ h.nodup) hbm
    refine ⟨pre', rest', ⟨hi, hv', hnodup, fun c hc => ?_, fun c hc => ?_⟩, hrest'.length_le⟩
    · exact hsettled c (hpre'.subset hc) (hv' ▸ List.mem_append_left _ hc)
    · have hc' : c ∈ view s' := hv' ▸ List.mem_append_right pre' hc
      have hcp : c ∈ b :: rest := (hrest'.cons_cons b).subset hc
      exact (hothers c (hsub.subset hc') fun he => hapost (he ▸ hcp)).2.1
        (h.ahead c (List.mem_cons_of_mem a hcp)) hc'

theorem walk_shrinking (hb : Shrinking inv ready settled reason view body) {n : Nat}
    (h : Midway inv ready settled view s pre post) (hlen : post.length ≤ n) :
    Loses view body reason post.head? s ∧ walk view dangling body n post.head? s = .error dangling ∨
      ¬ Loses view body reason post.head? s ∧
        ∃ s', walk view dangling body n post.head? s = .ok s' ∧ inv s' ∧ ∀ a ∈ view s', settled s' a := by
  induction n generalizing pre post s with
  | zero =>
    obtain rfl := List.eq_nil_of_length_eq_zero (Nat.le_zero.mp hlen)
    exact .inr ⟨not_loses_none s, s, rfl, h.kept, h.all_settled⟩
  | succ n ih =>
    cases post with
    | nil => exact .inr ⟨not_loses_none s, s, rfl, h.kept, h.all_settled⟩
    | cons a post =>
      obtain ⟨hmem, hafter⟩ := h.after
      obtain ⟨s', hbody, hend, hnext⟩ := h.turn hb
      have hwalk : walk view dangling body (n + 1) (some a) s = walk view dangling body n post.head? s' := by
        rw [walk, if_pos hmem, hbody, hafter]
      rw [List.head?_cons, hwalk, loses_iff hbody, hafter]
      cases post with
      | nil =>
        have hdone := hend rfl
        refine .inr ⟨?_, s', walk_none n s', hdone.kept, hdone.all_settled⟩
        rintro (⟨b, hb, -⟩ | hl)
        · cases hb
        · exact not_loses_none s' hl
      | cons b rest =>
        obtain ⟨hlost, hkept⟩ := hnext b rest rfl
        rw [List.length_cons, List.length_cons] at hlen
        by_cases hbs : b ∈ view s'
        · obtain ⟨pre', rest', h', hle⟩ := hkept hbs
          refine (ih h' (by rw [List.length_cons]; omega)).imp (fun h => ⟨.inr h.1, h.2⟩) fun h => ⟨?_, h.2⟩
          rintro (⟨c, hc, hlost, -⟩ | hl)
          · cases hc
            exact hlost hbs
          · exact h.1 hl
        · refine .inl ⟨.inl ⟨b, rfl, hbs, hlost hbs⟩, ?_⟩
          obtain ⟨m, rfl⟩ : ∃ m, n = m + 1 := Nat.exists_eq_succ_of_ne_zero (by omega)
          rw [List.head?_cons, walk, if_neg hbs]

theorem forEachSafe_shrinking (dangling : κ) (hb : Shrinking inv ready settled reason view body)
    (hi : inv s) (hn : (view s).Nodup) (hready : ∀ a ∈ view s, ready s a) :
    Loses view body reason (view s).head? s ∧ forEachSafe view dangling body s = .error dangling ∨
      ¬ Loses view body reason (view s).head? s ∧
        ∃ s', forEachSafe view dangling body s = .ok s' ∧ inv s' ∧ ∀ a ∈ view s', settled s' a :=
  walk_shrinking hb ⟨hi, (List.nil_append _).symm, hn, fun _ h => absurd h List.not_mem_nil, hready⟩
    (Nat.le_refl _)

end Bbdd.Lib.SafeLoop
