import Bbdd.Buffer
import Bbdd.Lib.Transition

namespace Bbdd.Buffer

open Lib.Program Lib.Wire Lib.Transition

def Sb.refused (sb : Sb) : Sb := if sb.buf = none then sb else sb.compact

def Sb.pushLenInPlace (realloc : Realloc) (strerror : String) (sb : Sb) (bytes : Bytes) :
    Except Failure Unit × Sb :=
  match sb.pushLen realloc strerror bytes with
  | .ok sb' => (.ok (), sb')
  | .error e => (.error e, sb.refused)

/-- A buffer with its past: what the calls that succeeded put into it, how much
was taken out, and whether since the last of them a call has failed on a buffer
whose content did not start at the front of its memory. -/
structure History where
  sb : Sb
  chunks : List Bytes
  pulled : Nat
  displaced : Bool

abbrev CLib := { realloc : Realloc // Lawful realloc }

inductive Op
  | push (lib : CLib) (strerror : String) (bytes : Bytes)
  | pull (len : Nat)

def History.step (h : History) : Op → Option History
  | .push lib strerror bytes =>
    match h.sb.pushLenInPlace lib strerror bytes with
    | (.ok (), sb) => some { h with sb := sb, chunks := h.chunks ++ [bytes], displaced := false }
    | (.error (.error _), sb) => some { h with sb := sb, displaced := h.displaced || decide (h.sb.off ≠ 0) }
    | (.error .assert, _) => none
  | .pull len => (h.sb.pull len).toOption.map (fun sb => { h with sb := sb, pulled := h.pulled + len })

def fifo (maxsize : Nat) : System History Op := .ofStep ⟨.new maxsize, [], 0, false⟩ History.step

/-- The content is a queue, and a zero that no failed call has left behind comes
after it. -/
structure History.Ok (maxsize : Nat) (h : History) : Prop where
  ok : h.sb.Ok
  maxsize : h.sb.maxsize = maxsize
  limited : h.sb.Limited
  pulled : h.pulled ≤ h.chunks.flatten.length
  content : h.sb.content = h.chunks.flatten.drop h.pulled
  tail : h.chunks ≠ [] → h.sb.endOff < h.sb.size
  zero : h.chunks ≠ [] → h.displaced = false → h.sb.memory[h.sb.endOff]? = some 0

/-- What comes of a call: the bytes are added, or an error is reported and the
buffer is the one that was refused. -/
inductive Pushes (lib : CLib) (sb : Sb) (bytes : Bytes) : Except Failure Unit × Sb → Prop
  | done {sb' : Sb} : sb'.Ok → sb'.maxsize = sb.maxsize →
      (sb.Limited → sb'.Limited ∧ sb.Room (bytes.length + 1)) →
      sb'.content = sb.content ++ bytes → sb'.endOff < sb'.size → sb'.memory[sb'.endOff]? = some 0 →
      Pushes lib sb bytes (.ok (), sb')
  | refused (message : String) : (¬ sb.Room (bytes.length + 1) ∨ ∃ mem n, lib.val mem n = none) →
      Pushes lib sb bytes (.error (.error message), sb.refused)

section

variable {lib : CLib} {strerror : String} {sb sb' : Sb} {bytes : Bytes} {maxsize : Nat} {h h' : History}

theorem store_getElem (mem : Bytes) (at_ : Nat) (hroom : at_ + bytes.length < mem.length) :
    (store mem at_ (bytes ++ [0]))[at_ + bytes.length]? = some 0 := by
  have hlen : (mem.take at_ ++ bytes).length = at_ + bytes.length := by
    rw [List.length_append, List.length_take]
    omega
  have heq : store mem at_ (bytes ++ [0]) = (mem.take at_ ++ bytes) ++ 0 :: mem.drop
    (at_ + (bytes ++ [0]).length) := by
    simp [store]
  rw [heq, List.getElem?_append_right (Nat.le_of_eq hlen), hlen, Nat.sub_self]
  rfl

theorem written_zero (h : sb.Ok) (hsome : sb.buf.isSome = true) (hfree : bytes.length + 1 ≤ sb.freeTail) :
    (sb.written sb.endOff bytes).endOff < (sb.written sb.endOff bytes).size ∧
      (sb.written sb.endOff bytes).memory[(sb.written sb.endOff bytes).endOff]? = some 0 := by
  obtain ⟨mem, hmem⟩ := Option.isSome_iff_exists.mp hsome
  have hsize : mem.length = sb.size := by
    have hsize := h.size
    rwa [Sb.memory, hmem] at hsize
  have hend : (sb.written sb.endOff bytes).endOff = sb.endOff + bytes.length := (Nat.add_assoc _ _ _).symm
  have hroom : sb.endOff + bytes.length < sb.size := by
    simp only [Sb.freeTail] at hfree
    omega
  refine ⟨hend ▸ hroom, ?_⟩
  rw [hend, Sb.memory, Sb.written, hmem]
  exact store_getElem mem sb.endOff (hsize ▸ hroom)

theorem Sb.Makes.room {extraLen : Nat} (h : sb.Makes sb' extraLen) (hlim : sb.Limited)
    (hpos : 0 < extraLen) :
    sb.Room extraLen := by
  refine (h.limit hlim).imp (fun hz => h.same.maxsize ▸ hz) (fun hsize => ?_)
  have hfree := h.free
  have hlen := h.same.len
  have hmax := h.same.maxsize
  simp only [Sb.freeTail, Sb.endOff] at hfree
  omega

theorem push_cases (h : sb.Ok) : Pushes lib sb bytes (sb.pushLenInPlace lib strerror bytes) := by
  have ho : Offers lib sb (bytes.length + 1) (sb.getBuffer lib strerror (bytes.length + 1)) :=
    getBuffer_offers lib.property h
  rw [Sb.pushLenInPlace, Sb.pushLen]
  revert ho
  generalize sb.getBuffer lib strerror (bytes.length + 1) = r
  intro ho
  cases ho with
  | @room sb' hm =>
    obtain ⟨hok, hcontent⟩ := written_ok hm.same.ok hm.some hm.free
    obtain ⟨hend, hzero⟩ := written_zero hm.same.ok hm.some hm.free
    exact .done hok hm.same.maxsize (fun hlim => ⟨hm.limit hlim, hm.room hlim (Nat.succ_pos _)⟩)
      (hcontent.trans (congrArg (· ++ bytes) hm.same.content)) hend hzero
  | overflow hno message => exact .refused message (.inl hno)
  | exhausted mem n hnone message => exact .refused message (.inr ⟨mem, n, hnone⟩)

theorem refused_same (h : sb.Ok) :
    sb.Same sb.refused ∧ sb.refused.size = sb.size ∧ sb.refused.endOff ≤ sb.endOff := by
  unfold Sb.refused
  split_ifs with hnone
  · exact ⟨⟨h, rfl, rfl, rfl⟩, rfl, Nat.le_refl _⟩
  · obtain ⟨hs, hoff⟩ := compact_same h
    refine ⟨hs, compact_size sb, ?_⟩
    rw [Sb.endOff, Sb.endOff, hoff, hs.len]
    omega

theorem refused_eq (hoff : sb.off = 0) : sb.refused = sb := by
  simp [Sb.refused, Sb.compact, hoff]

theorem Sb.Same.limited (hs : sb.Same sb') (hsize : sb'.size = sb.size) (hlim : sb.Limited) :
    sb'.Limited := by
  rwa [Sb.Limited, hs.maxsize, hsize]

theorem start_ok (maxsize : Nat) : History.Ok maxsize ⟨.new maxsize, [], 0, false⟩ :=
  ⟨new_ok maxsize, rfl, .inr (Nat.zero_le _), Nat.zero_le _, rfl, fun hne =>
    absurd rfl hne, fun hne => absurd rfl hne⟩

theorem push_step (hok : h.Ok maxsize) :
    ∃ h', h.step (.push lib strerror bytes) = some h' ∧ h'.Ok maxsize := by
  have hp : Pushes lib h.sb bytes (h.sb.pushLenInPlace lib strerror bytes) := push_cases hok.ok
  rw [History.step]
  revert hp
  generalize h.sb.pushLenInPlace lib strerror bytes = r
  intro hp
  cases hp with
  | done hsb hmax hlim hcontent hend hzero =>
    refine ⟨_, rfl, hsb, hmax.trans hok.maxsize, (hlim hok.limited).1, ?_, ?_, fun _ => hend, fun _ _ => hzero⟩
    · have hle := hok.pulled
      simp only [List.flatten_append, List.length_append]
      omega
    · simp only [List.flatten_append, List.flatten_singleton]
      rw [hcontent, hok.content, List.drop_append_of_le_length hok.pulled]
  | refused message _ =>
    obtain ⟨hs, hsize, hend⟩ := refused_same hok.ok
    refine ⟨_, rfl, hs.ok, hs.maxsize.trans hok.maxsize, hs.limited hsize hok.limited, hok.pulled,
      hs.content.trans hok.content, fun hne => ?_, fun hne hd => ?_⟩
    · exact Nat.lt_of_le_of_lt hend (hsize ▸ hok.tail hne)
    · -- the zero is where it was only if nothing was moved
      obtain ⟨hd, hoff⟩ := Bool.or_eq_false_iff.mp hd
      rw [refused_eq (not_not.mp (of_decide_eq_false hoff))]
      exact hok.zero hne hd

theorem pull_step (hok : h.Ok maxsize) {len : Nat} (hlen : len ≤ h.sb.len) :
    ∃ h', h.step (.pull len) = some h' ∧ h'.Ok maxsize := by
  have hroom := hok.ok.content_length
  have hend : h.sb.off + len + (h.sb.len - len) = h.sb.endOff := by
    rw [Sb.endOff]
    omega
  have heq : h.sb.pull len = .ok { h.sb with off := h.sb.off + len, len := h.sb.len - len } := by
    rw [Sb.pull, if_pos hlen]
  refine ⟨{ h with sb := { h.sb with off := h.sb.off + len, len := h.sb.len - len }, pulled := h.pulled + len },
    by rw [History.step, heq]; rfl, ⟨hok.ok.size, ?_⟩, hok.maxsize, hok.limited, ?_, ?_, fun hne =>
      ?_, fun hne hd => ?_⟩
  · change h.sb.off + len + (h.sb.len - len) ≤ h.sb.size
    rw [hend]
    exact hok.ok.room
  · rw [hok.content, List.length_drop] at hroom
    have hle := hok.pulled
    change h.pulled + len ≤ h.chunks.flatten.length
    omega
  · rw [← List.drop_drop, ← hok.content, Sb.content, Sb.content, List.drop_take, List.drop_drop]
    rfl
  · change h.sb.off + len + (h.sb.len - len) < h.sb.size
    rw [hend]
    exact hok.tail hne
  · change h.sb.memory[h.sb.off + len + (h.sb.len - len)]? = some 0
    rw [hend]
    exact hok.zero hne hd

theorem reachable_ok (hr : Reachable (fifo maxsize) h) : h.Ok maxsize := by
  refine Reachable.invariant (I := History.Ok maxsize) ?_ ?_ hr
  · rintro _ rfl
    exact start_ok maxsize
  · intro s op t hok hs
    cases op with
    | push lib strerror bytes =>
      obtain ⟨t', ht, hok'⟩ := push_step hok
      cases ht.symm.trans hs
      exact hok'
    | pull len =>
      by_cases hlen : len ≤ s.sb.len
      · obtain ⟨t', ht, hok'⟩ := pull_step hok hlen
        cases ht.symm.trans hs
        exact hok'
      · change (s.sb.pull len).toOption.map _ = some t at hs
        rw [Sb.pull, if_neg hlen] at hs
        cases hs

theorem push_fails_iff (hok : h.Ok maxsize) (hg : ∀ mem n, (lib.val mem n).isSome = true) :
    (h.sb.pushLenInPlace lib strerror bytes).1 ≠ .ok () ↔ maxsize ≠ 0 ∧
      h.sb.len + bytes.length + 1 > maxsize := by
  have hp : Pushes lib h.sb bytes (h.sb.pushLenInPlace lib strerror bytes) := push_cases hok.ok
  have hmax := hok.maxsize
  revert hp
  generalize h.sb.pushLenInPlace lib strerror bytes = r
  intro hp
  cases hp with
  | done _ _ hlim _ _ _ =>
    have hroom := (hlim hok.limited).2
    rw [Sb.Room, hmax] at hroom
    exact iff_of_false (not_not.mpr rfl) (by omega)
  | refused message hwhy =>
    obtain hno | ⟨mem, n, hnone⟩ := hwhy
    · rw [Sb.Room, hmax] at hno
      exact iff_of_true (by simp) (by omega)
    · have hsome := hg mem n
      rw [hnone] at hsome
      cases hsome

theorem push_fails_same (hok : h.Ok maxsize)
    (hfail : (h.sb.pushLenInPlace lib strerror bytes).1 ≠ .ok ()) :
    (h.sb.pushLenInPlace lib strerror bytes).2.content = h.sb.content := by
  have hp : Pushes lib h.sb bytes (h.sb.pushLenInPlace lib strerror bytes) := push_cases hok.ok
  revert hp hfail
  generalize h.sb.pushLenInPlace lib strerror bytes = r
  intro hfail hp
  cases hp with
  | done => exact absurd rfl hfail
  | refused => exact (refused_same hok.ok).1.content

/-- After any calls the content is what was pushed less what was pulled, within
the limit, and the next call fails only where the limit says and then changes
nothing of it. A zero comes after it unless the last call to push failed on a
buffer that had been pulled from. -/
theorem fifo_content (hr : Reachable (fifo maxsize) h) :
    h.sb.content = h.chunks.flatten.drop h.pulled ∧ h.sb.content.length = h.sb.len ∧
    (h.chunks ≠ [] → h.sb.off + h.sb.len < h.sb.size) ∧ (maxsize ≠ 0 → h.sb.size ≤ maxsize) ∧
    (∀ len, len ≤ h.sb.len → (h.step (.pull len)).isSome = true) ∧
    (∀ (lib : CLib) strerror bytes,
      (h.step (.push lib strerror bytes)).isSome = true ∧
      ((∀ mem n, (lib.val mem n).isSome = true) → ((h.sb.pushLenInPlace lib strerror bytes).1 ≠ .ok () ↔
        maxsize ≠ 0 ∧ h.sb.len + bytes.length + 1 > maxsize)) ∧
      ((h.sb.pushLenInPlace lib strerror bytes).1 ≠ .ok () →
        (h.sb.pushLenInPlace lib strerror bytes).2.content = h.sb.content)) ∧
    (h.chunks ≠ [] → h.displaced = false → h.sb.memory[h.sb.off + h.sb.len]? = some 0) := by
  have hok := reachable_ok hr
  refine ⟨hok.content, hok.ok.content_length, hok.tail, fun hne => ?_, fun len hlen =>
    ?_, fun lib strerror bytes => ?_,
    hok.zero⟩
  · have hlim := hok.limited
    rw [Sb.Limited, hok.maxsize] at hlim
    exact hlim.resolve_left hne
  · obtain ⟨_, hs, -⟩ := pull_step hok hlen
    exact Option.isSome_of_eq_some hs
  · obtain ⟨_, hs, -⟩ := push_step hok
    exact ⟨Option.isSome_of_eq_some hs, push_fails_iff hok, push_fails_same hok⟩

end

theorem fifo_content_pulled : ∃ h : History, h.sb.content = [2, 3, 4] ∧
    h.sb.memory[h.sb.off + h.sb.len]? = some 0 := by
  obtain ⟨h, hr, hchunks, hpulled, hd⟩ : ∃ h, Reachable (fifo 8) h ∧ h.chunks = [[1, 2], [3, 4]] ∧ h.pulled = 1 ∧
      h.displaced = false :=
    exists_replay (fun _ _ => True)
      [.push ⟨ample, ample_lawful⟩ "" [1, 2], .pull 1, .push ⟨ample, ample_lawful⟩ "" [3, 4]] (by decide +kernel)
  obtain ⟨hcontent, -, -, -, -, -, hzero⟩ := fifo_content hr
  rw [hchunks, hpulled] at hcontent
  exact ⟨h, hcontent, hzero (by rw [hchunks]; exact List.cons_ne_nil _ _) hd⟩

/-- Where a call fails after some of the content was pulled, the zero stays
behind: an old byte of the content comes after it. -/
theorem fifo_displaced : ∃ h : History, Reachable (fifo 4) h ∧ h.chunks = [[1, 2]] ∧ h.pulled = 1 ∧
    h.sb.content = [2] ∧ h.sb.memory[h.sb.off + h.sb.len]? = some 2 :=
  exists_replay (fun _ _ => True)
    [.push ⟨ample, ample_lawful⟩ "" [1, 2], .pull 1, .push ⟨ample, ample_lawful⟩ "" [3, 4, 5]]
    (by decide +kernel)

end Bbdd.Buffer
