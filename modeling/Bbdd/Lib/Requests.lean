import Mathlib.Data.List.Nodup

namespace Bbdd.Lib.Requests

structure Desk (R A : Type) where
  clients : List Nat
  joined : Nat
  issued : List R
  answers : List (Nat × A)

variable {R A : Type} {d : Desk R A} {client : R → Nat} {open_ : List Nat} {no : Nat} {r : R}

def Desk.join (d : Desk R A) : Desk R A :=
  { d with clients := d.clients ++ [d.joined], joined := d.joined + 1 }

def Desk.leave (d : Desk R A) (c : Nat) : Desk R A := { d with clients := d.clients.filter (· ≠ c) }

def Desk.issue (d : Desk R A) (r : R) : Desk R A := { d with issued := d.issued ++ [r] }

def Desk.answer (d : Desk R A) (as : List (Nat × A)) : Desk R A := { d with answers := d.answers ++ as }

def Desk.next (d : Desk R A) : Nat := d.issued.length

def Desk.answered (d : Desk R A) : List Nat := d.answers.map Prod.fst

def Desk.answersTo (d : Desk R A) (no : Nat) : List A := (d.answers.filter (fun x => x.1 = no)).map Prod.snd

def Desk.empty : Desk R A := ⟨[], 0, [], []⟩

theorem mem_answersTo {a : A} : a ∈ d.answersTo no ↔ (no, a) ∈ d.answers := by
  simp [Desk.answersTo]

theorem length_answersTo : (d.answersTo no).length = d.answered.count no := by
  rw [Desk.answersTo, Desk.answered, List.length_map, List.count, List.countP_map,
    ← List.countP_eq_length_filter]
  rfl

/-- No request is answered twice, none that is still open has been answered, and
one that is neither is of a client that has left. -/
structure Owes (client : R → Nat) (d : Desk R A) (open_ : List Nat) : Prop where
  nodup : (open_ ++ d.answered).Nodup
  issued : ∀ no ∈ open_ ++ d.answered, no < d.next
  joined : ∀ r ∈ d.issued, client r < d.joined
  present : ∀ c ∈ d.clients, c < d.joined
  owed : ∀ no r, d.issued[no]? = some r → client r ∈ d.clients → no ∈ open_ ++ d.answered

theorem Owes.empty : Owes client (.empty : Desk R A) [] where
  nodup := List.nodup_nil
  issued := by
    intro no h
    cases h
  joined := by
    intro r h
    cases h
  present := by
    intro c h
    cases h
  owed := by
    intro no r h
    cases h

theorem Owes.once (h : Owes client d open_) (no : Nat) : (d.answersTo no).length ≤ 1 := by
  rw [length_answersTo]
  exact List.nodup_iff_count_le_one.mp h.nodup.of_append_right no

theorem Owes.settled (h : Owes client d open_) (hr : d.issued[no]? = some r)
    (hc : client r ∈ d.clients) (ho : no ∉ open_) :
    (d.answersTo no).length = 1 := by
  have hm : no ∈ d.answered := (List.mem_append.mp (h.owed no r hr hc)).resolve_left ho
  rw [length_answersTo]
  exact List.count_eq_one_of_mem h.nodup.of_append_right hm

theorem Owes.join (h : Owes client d open_) : Owes client d.join open_ where
  nodup := h.nodup
  issued := h.issued
  joined := fun r hr => Nat.lt_succ_of_lt (h.joined r hr)
  present := by
    intro c hc
    rcases List.mem_append.mp hc with hc | hc
    · exact Nat.lt_succ_of_lt (h.present c hc)
    · rw [List.mem_singleton.mp hc]
      exact Nat.lt_succ_self _
  owed := by
    intro no r hr hc
    -- The newcomer's number is none that a request bears.
    rcases List.mem_append.mp hc with hc | hc
    · exact h.owed no r hr hc
    · have hlt := h.joined r (List.mem_of_getElem? hr)
      rw [List.mem_singleton.mp hc] at hlt
      exact absurd hlt (Nat.lt_irrefl _)

theorem Owes.leave (h : Owes client d open_) (c : Nat) : Owes client (d.leave c) open_ where
  nodup := h.nodup
  issued := h.issued
  joined := h.joined
  present := fun c hc => h.present c (List.mem_of_mem_filter hc)
  owed := fun no r hr hc => h.owed no r hr (List.mem_of_mem_filter hc)

theorem Owes.issue (h : Owes client d open_) (hr : client r ∈ d.clients) :
    Owes client (d.issue r) (open_ ++ [d.next]) where
  nodup := by
    have hnew : d.next ∉ open_ ++ d.answered := fun hm => Nat.lt_irrefl _ (h.issued _ hm)
    have hperm : (d.next :: (open_ ++ d.answered)).Perm (open_ ++ [d.next] ++ d.answered) := by
      rw [List.append_assoc]
      exact List.perm_middle.symm
    exact hperm.nodup (List.nodup_cons.mpr ⟨hnew, h.nodup⟩)
  issued := by
    intro no hm
    rw [Desk.next, Desk.issue, List.length_append, List.length_singleton]
    simp only [List.mem_append, List.mem_singleton] at hm
    rcases hm with (hm | rfl) | hm
    · exact Nat.lt_succ_of_lt (h.issued no (List.mem_append_left _ hm))
    · exact Nat.lt_succ_self _
    · exact Nat.lt_succ_of_lt (h.issued no (List.mem_append_right _ hm))
  joined := by
    intro q hq
    rcases List.mem_append.mp hq with hq | hq
    · exact h.joined q hq
    · rw [List.mem_singleton.mp hq]
      exact h.present _ hr
  present := h.present
  owed := by
    intro no q hq hc
    rcases Nat.lt_trichotomy no d.next with hlt | rfl | hgt
    · have hm := h.owed no q (by rwa [Desk.issue, List.getElem?_append_left hlt] at hq) hc
      simp only [List.mem_append] at hm ⊢
      exact hm.imp_left .inl
    · simp
    · have hnone : (d.issued ++ [r])[no]? = none := List.getElem?_eq_none
        (by simpa [Desk.next] using Nat.succ_le_of_lt hgt)
      cases hnone.symm.trans hq

theorem Owes.answer {as : List (Nat × A)} (h : Owes client d (open_ ++ as.map Prod.fst)) :
    Owes client (d.answer as) open_ := by
  have hperm : (open_ ++ as.map Prod.fst ++ d.answered).Perm (open_ ++ (d.answer as).answered) := by
    have hans : (d.answer as).answered = d.answered ++ as.map Prod.fst := List.map_append
    rw [hans, List.append_assoc]
    exact List.perm_append_comm.append_left open_
  exact ⟨hperm.nodup h.nodup, fun no hm => h.issued no (hperm.mem_iff.mpr hm), h.joined, h.present,
    fun no r hr hc => hperm.mem_iff.mp (h.owed no r hr hc)⟩

theorem Owes.drop {less : List Nat} (h : Owes client d open_) (hs : less.Sublist open_)
    (hgone : ∀ no r, no ∈ open_ → no ∉ less → d.issued[no]? = some r → client r ∉ d.clients) :
    Owes client d less where
  nodup := h.nodup.sublist (hs.append_right _)
  issued := fun no hm => h.issued no ((hs.append_right _).subset hm)
  joined := h.joined
  present := h.present
  owed := by
    intro no r hr hc
    rcases List.mem_append.mp (h.owed no r hr hc) with hm | hm
    · by_cases hl : no ∈ less
      · exact List.mem_append_left _ hl
      · exact absurd hc (hgone no r hm hl hr)
    · exact List.mem_append_right _ hm

def Answers (admits : R → A → Prop) (d : Desk R A) : Prop :=
  ∀ x ∈ d.answers, ∃ r, d.issued[x.1]? = some r ∧ admits r x.2

variable {admits : R → A → Prop}

theorem getElem?_issue {q : R} (h : d.issued[no]? = some r) : (d.issue q).issued[no]? = some r := by
  obtain ⟨hlt, -⟩ := List.getElem?_eq_some_iff.mp h
  rw [Desk.issue, List.getElem?_append_left hlt, h]

theorem getElem?_next (d : Desk R A) (r : R) : (d.issue r).issued[d.next]? = some r := by
  simp [Desk.issue, Desk.next]

theorem Answers.mono {admits' : R → A → Prop} (h : Answers admits d)
    (himp : ∀ r a, admits r a → admits' r a) : Answers admits' d := by
  intro x hx
  obtain ⟨q, hq, ha⟩ := h x hx
  exact ⟨q, hq, himp q x.2 ha⟩

theorem Answers.issue (h : Answers admits d) (r : R) : Answers admits (d.issue r) := by
  intro x hx
  obtain ⟨q, hq, ha⟩ := h x hx
  exact ⟨q, getElem?_issue hq, ha⟩

theorem Answers.answer (h : Answers admits d) {as : List (Nat × A)}
    (hnew : ∀ x ∈ as, ∃ r, d.issued[x.1]? = some r ∧ admits r x.2) : Answers admits (d.answer as) := by
  intro x hx
  rcases List.mem_append.mp hx with hx | hx
  · exact h x hx
  · exact hnew x hx

theorem Answers.of_mem (h : Answers admits d) (hr : d.issued[no]? = some r) {a : A}
    (ha : a ∈ d.answersTo no) : admits r a := by
  obtain ⟨q, hq, hadm⟩ := h (no, a) (mem_answersTo.mp ha)
  cases hq.symm.trans hr
  exact hadm

end Bbdd.Lib.Requests
