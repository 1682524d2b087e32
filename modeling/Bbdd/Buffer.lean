import Bbdd.Lib.Program
import Bbdd.Lib.Wire

namespace Bbdd.Buffer

open Lib.Program Lib.Wire

/-- A buffer that is written at its end and read from its front. The memory is
none before the first write. -/
structure Sb where
  buf : Option Bytes
  size : Nat
  off : Nat
  len : Nat
  maxsize : Nat
  deriving DecidableEq, Repr

def Sb.new (maxsize : Nat) : Sb := ⟨none, 0, 0, 0, maxsize⟩

abbrev Realloc := Bytes → Nat → Option Bytes

/-- Memory of the size asked for, with as much of the old in it as both have
room for. -/
structure Lawful (realloc : Realloc) : Prop where
  size : ∀ mem n mem', realloc mem n = some mem' → mem'.length = n
  kept : ∀ mem n mem', realloc mem n = some mem' → mem'.take mem.length = mem.take n

def Sb.memory (sb : Sb) : Bytes := sb.buf.getD []

def Sb.content (sb : Sb) : Bytes := (sb.memory.drop sb.off).take sb.len

def Sb.compact (sb : Sb) : Sb :=
  if sb.off = 0 then sb
  else { sb with buf := sb.buf.map (fun mem => (mem.drop sb.off).take sb.len ++ mem.drop sb.len), off := 0 }

def Sb.endOff (sb : Sb) : Nat := sb.off + sb.len

def Sb.freeTail (sb : Sb) : Nat := sb.size - sb.endOff

def sbMinSize : Nat := 1024

def grow (nsize needed : Nat) : Nat :=
  if nsize < needed then grow (if nsize > 0 then nsize * 2 else sbMinSize) needed else nsize
termination_by needed - nsize
decreasing_by
  split
  · omega
  · simp only [sbMinSize]
    omega

def Sb.resize (realloc : Realloc) (strerror : String) (sb : Sb) (nsize extraLen : Nat) :
    Except Failure (Sb × Nat) :=
  match realloc sb.memory nsize with
  | none => .error (.error s!"Cannot allocate buffer of {nsize} bytes: {strerror}")
  | some mem =>
    let sb := { sb with buf := some mem, size := nsize }
    if sb.freeTail ≥ extraLen then .ok (sb, sb.endOff) else .error .assert

def Sb.realloc (realloc : Realloc) (strerror : String) (sb : Sb) (extraLen : Nat) :
    Except Failure (Sb × Nat) :=
  let neededSize := sb.len + extraLen
  let maxsize := sb.maxsize
  let nsize := grow sb.size neededSize
  if sb.off ≠ 0 then .error .assert
  else if maxsize ≠ 0 ∧ nsize > maxsize then
    if maxsize < neededSize then
      .error (.error s!"Buffer overflow: bytes needed {neededSize}, allowed {maxsize}")
    else sb.resize realloc strerror maxsize extraLen
  else sb.resize realloc strerror nsize extraLen

def Sb.getBuffer (realloc : Realloc) (strerror : String) (sb : Sb) (extraLen : Nat) :
    Except Failure (Sb × Nat) :=
  if sb.buf = none then sb.realloc realloc strerror extraLen
  else if sb.freeTail ≥ extraLen then .ok (sb, sb.endOff)
  else if sb.compact.freeTail ≥ extraLen then .ok (sb.compact, sb.compact.endOff)
  else sb.compact.realloc realloc strerror extraLen

def store (mem : Bytes) (at_ : Nat) (bytes : Bytes) : Bytes :=
  mem.take at_ ++ bytes ++ mem.drop (at_ + bytes.length)

def Sb.written (sb : Sb) (space : Nat) (bytes : Bytes) : Sb :=
  { sb with buf := sb.buf.map (store · space (bytes ++ [0])), len := sb.len + bytes.length }

def Sb.pushLen (realloc : Realloc) (strerror : String) (sb : Sb) (bytes : Bytes) : Except Failure Sb :=
  match sb.getBuffer realloc strerror (bytes.length + 1) with
  | .error e => .error e
  | .ok (sb, space) => .ok (sb.written space bytes)

def Sb.pull (sb : Sb) (len : Nat) : Except Failure Sb :=
  if len ≤ sb.len then .ok { sb with off := sb.off + len, len := sb.len - len } else .error .assert

structure Sb.Ok (sb : Sb) : Prop where
  size : sb.memory.length = sb.size
  room : sb.endOff ≤ sb.size

def Sb.Room (sb : Sb) (extraLen : Nat) : Prop := sb.maxsize = 0 ∨ sb.len + extraLen ≤ sb.maxsize

/-- The same content, under the same limit. -/
structure Sb.Same (sb sb' : Sb) : Prop where
  ok : sb'.Ok
  content : sb'.content = sb.content
  len : sb'.len = sb.len
  maxsize : sb'.maxsize = sb.maxsize

def Sb.Limited (sb : Sb) : Prop := sb.maxsize = 0 ∨ sb.size ≤ sb.maxsize

/-- The same buffer with room made at its end. -/
structure Sb.Makes (sb sb' : Sb) (extraLen : Nat) : Prop where
  same : sb.Same sb'
  some : sb'.buf.isSome = true
  free : extraLen ≤ sb'.freeTail
  limit : sb.Limited → sb'.Limited

/-- What comes of asking for room: the room, or an error because the limit or
the memory does not suffice. -/
inductive Offers (realloc : Realloc) (sb : Sb) (extraLen : Nat) : Except Failure (Sb × Nat) → Prop
  | room {sb'} : sb.Makes sb' extraLen → Offers realloc sb extraLen (.ok (sb', sb'.endOff))
  | overflow : ¬ sb.Room extraLen → ∀ message, Offers realloc sb extraLen (.error (.error message))
  | exhausted (mem : Bytes) (n : Nat) : realloc mem n = none → ∀ message, Offers realloc sb extraLen
      (.error (.error message))

section

variable {realloc : Realloc} {strerror : String} {sb sb' : Sb} {extraLen nsize : Nat} {bytes : Bytes}

theorem new_ok (maxsize : Nat) : (Sb.new maxsize).Ok := ⟨rfl, Nat.le_refl 0⟩

@[simp] theorem new_content (maxsize : Nat) : (Sb.new maxsize).content = [] := rfl

theorem Sb.Ok.content_length (h : sb.Ok) : sb.content.length = sb.len := by
  have hroom := h.room
  simp only [Sb.content, List.length_take, List.length_drop, h.size, Sb.endOff] at hroom ⊢
  omega

theorem Sb.Same.trans {sb'' : Sb} (h : sb.Same sb') (h' : sb'.Same sb'') : sb.Same sb'' :=
  ⟨h'.ok, h'.content.trans h.content, h'.len.trans h.len, h'.maxsize.trans h.maxsize⟩

theorem grow_ge (nsize needed : Nat) : needed ≤ grow nsize needed := by
  fun_induction grow nsize needed with
  | case1 nsize h ih => exact ih
  | case2 nsize h => exact Nat.le_of_not_lt h

theorem compact_same (h : sb.Ok) : sb.Same sb.compact ∧ sb.compact.off = 0 := by
  unfold Sb.compact
  split_ifs with h0
  · exact ⟨⟨h, rfl, rfl, rfl⟩, h0⟩
  · have hroom := h.room
    have hsize := h.size
    simp only [Sb.endOff] at hroom
    have hmem (mem : Bytes) (hm : sb.memory = mem) :
        (mem.drop sb.off).take sb.len ++ mem.drop sb.len = sb.content ++ mem.drop sb.len := by
          rw [Sb.content, hm]
    cases hb : sb.buf with
    | none =>
      rw [Sb.memory, hb] at hsize
      have hz : sb.size = 0 := hsize.symm
      refine ⟨⟨⟨hsize, ?_⟩, ?_, rfl, rfl⟩, rfl⟩
      · simp only [Sb.endOff]
        omega
      · simp [Sb.content, Sb.memory, hb]
    | some mem =>
      have hm : sb.memory = mem := by rw [Sb.memory, hb]; rfl
      have hlen : sb.content.length = sb.len := h.content_length
      rw [hm] at hsize
      refine ⟨⟨⟨?_, ?_⟩, ?_, rfl, rfl⟩, rfl⟩
      · simp only [Sb.memory, Option.map_some, Option.getD_some, hmem mem hm, List.length_append,
          hlen, List.length_drop]
        omega
      · simp only [Sb.endOff]
        omega
      · have hc : ((sb.content ++ mem.drop sb.len).drop 0).take sb.len = sb.content := List.take_left' hlen
        simpa only [Sb.content, Sb.memory, Option.map_some, Option.getD_some, hmem mem hm] using hc

theorem resize_offers (hl : Lawful realloc) (h : sb.Ok) (hoff : sb.off = 0)
    (hn : sb.len + extraLen ≤ nsize) (hmax : sb.maxsize = 0 ∨ nsize ≤ sb.maxsize) :
    Offers realloc sb extraLen (sb.resize realloc strerror nsize extraLen) := by
  unfold Sb.resize
  split
  · rename_i hnone
    exact .exhausted _ _ hnone _
  · rename_i mem hmem
    have hroom := h.room
    rw [Sb.endOff, hoff] at hroom
    have hfree : extraLen ≤ ({ sb with buf := some mem, size := nsize } : Sb).freeTail := by
      simp only [Sb.freeTail, Sb.endOff, hoff]
      omega
    have hcontent : ({ sb with buf := some mem, size := nsize } : Sb).content = sb.content := by
      have htake : mem.take sb.len = sb.memory.take sb.len := by
        have hkept := congrArg (List.take sb.len) (hl.kept _ _ _ hmem)
        rwa [List.take_take, List.take_take, Nat.min_eq_left
          (by rw [h.size]; omega), Nat.min_eq_left (by omega)] at hkept
      simpa [Sb.content, Sb.memory, hoff] using htake
    rw [if_pos hfree]
    refine .room ⟨⟨⟨hl.size _ _ _ hmem, ?_⟩, hcontent, rfl, rfl⟩, rfl, hfree, fun _ => hmax⟩
    simp only [Sb.endOff, hoff]
    omega

theorem realloc_offers (hl : Lawful realloc) (h : sb.Ok) (hoff : sb.off = 0) :
    Offers realloc sb extraLen (sb.realloc realloc strerror extraLen) := by
  simp only [Sb.realloc]
  rw [if_neg (not_not.mpr hoff)]
  split_ifs with hmax hneed
  · exact .overflow (fun hr => absurd (hr.resolve_left hmax.1) (by omega)) _
  · exact resize_offers hl h hoff (by omega) (.inr (Nat.le_refl _))
  · exact resize_offers hl h hoff (grow_ge _ _) (by omega)

theorem Offers.of_same {r : Except Failure (Sb × Nat)} (h : Offers realloc sb' extraLen r)
    (hs : sb.Same sb') (hsize : sb'.size = sb.size) : Offers realloc sb extraLen r := by
  cases h with
  | room hm =>
    refine .room ⟨hs.trans hm.same, hm.some, hm.free, fun hlim => hm.limit ?_⟩
    rwa [Sb.Limited, hs.maxsize, hsize]
  | overflow hr message =>
    refine .overflow (fun hroom => hr ?_) message
    rwa [Sb.Room, hs.maxsize, hs.len]
  | exhausted mem n hnone message => exact .exhausted mem n hnone message

theorem compact_buf (sb : Sb) (hsome : sb.buf ≠ none) : sb.compact.buf.isSome = true := by
  unfold Sb.compact
  split_ifs <;> simp [Option.isSome_iff_ne_none, hsome]

theorem compact_size (sb : Sb) : sb.compact.size = sb.size := by
  unfold Sb.compact
  split_ifs <;> rfl

theorem Sb.Ok.off_none (h : sb.Ok) (hnone : sb.buf = none) : sb.off = 0 := by
  have hsize := h.size
  have hroom := h.room
  rw [Sb.memory, hnone] at hsize
  simp only [Option.getD_none, List.length_nil, Sb.endOff] at hsize hroom
  omega

theorem getBuffer_offers (hl : Lawful realloc) (h : sb.Ok) :
    Offers realloc sb extraLen (sb.getBuffer realloc strerror extraLen) := by
  obtain ⟨hc, hoff⟩ := compact_same h
  unfold Sb.getBuffer
  split_ifs with hnone htail hctail
  · exact realloc_offers hl h (h.off_none hnone)
  · exact .room ⟨⟨h, rfl, rfl, rfl⟩, Option.isSome_iff_ne_none.mpr hnone, htail, id⟩
  · have hm : sb.compact.Makes sb.compact extraLen := ⟨⟨hc.ok, rfl, rfl, rfl⟩, compact_buf sb hnone, hctail, id⟩
    exact (Offers.room hm).of_same hc (compact_size sb)
  · exact (realloc_offers hl hc.ok hoff).of_same hc (compact_size sb)

theorem getBuffer_ok (hl : Lawful realloc) (hg : ∀ mem n, (realloc mem n).isSome = true)
    (h : sb.Ok) (hr : sb.Room extraLen) :
    ∃ sb', sb.getBuffer realloc strerror extraLen = .ok (sb', sb'.endOff) ∧ sb.Makes sb' extraLen := by
  have ho : Offers realloc sb extraLen (sb.getBuffer realloc strerror extraLen) := getBuffer_offers hl h
  revert ho
  generalize sb.getBuffer realloc strerror extraLen = r
  intro ho
  cases ho with
  | room hm => exact ⟨_, rfl, hm⟩
  | overflow hno message => exact absurd hr hno
  | exhausted mem n hnone message =>
    have hsome := hg mem n
    rw [hnone] at hsome
    cases hsome

theorem written_ok (h : sb.Ok) (hsome : sb.buf.isSome = true) (hfree : bytes.length + 1 ≤ sb.freeTail) :
    (sb.written sb.endOff bytes).Ok ∧ (sb.written sb.endOff bytes).content = sb.content ++ bytes := by
  obtain ⟨mem, hmem⟩ := Option.isSome_iff_exists.mp hsome
  have hm : sb.memory = mem := by rw [Sb.memory, hmem]; rfl
  have hw : (sb.written sb.endOff bytes).memory = store mem (sb.off + sb.len) (bytes ++ [0]) := by
    rw [Sb.memory, Sb.written, hmem]
    rfl
  have hroom := h.room
  have hsize := h.size
  simp only [Sb.freeTail, Sb.endOff, hm] at hfree hroom hsize
  refine ⟨⟨?_, ?_⟩, ?_⟩
  · rw [hw]
    simp only [store, List.length_append, List.length_take, List.length_drop, List.length_singleton,
      hsize, Sb.written]
    omega
  · simp only [Sb.written, Sb.endOff]
    omega
  · have hdrop : (mem.take (sb.off + sb.len)).drop sb.off = sb.content := by
      rw [List.drop_take, Nat.add_sub_cancel_left, Sb.content, hm]
    have hlen : (sb.content ++ bytes).length = sb.len + bytes.length := by
      rw [List.length_append, h.content_length]
    have hoff : sb.off ≤ (mem.take (sb.off + sb.len)).length := by
      rw [List.length_take]
      omega
    rw [Sb.content, hw]
    simp only [store, Sb.written, List.append_assoc]
    rw [List.drop_append_of_le_length hoff, hdrop, ← List.append_assoc, List.take_left' hlen]

theorem pushLen_ok (hl : Lawful realloc) (hg : ∀ mem n, (realloc mem n).isSome = true) (h : sb.Ok)
    (hr : sb.Room (bytes.length + 1)) :
    ∃ sb', sb.pushLen realloc strerror bytes = .ok sb' ∧ sb'.Ok ∧
      sb'.content = sb.content ++ bytes ∧ sb'.maxsize = sb.maxsize := by
  obtain ⟨sb₁, heq, hm⟩ := getBuffer_ok hl hg h hr
  obtain ⟨hok, hcontent⟩ := written_ok hm.same.ok hm.some hm.free
  exact ⟨sb₁.written sb₁.endOff bytes, by
    rw [Sb.pushLen, heq], hok, by rw [hcontent, hm.same.content], hm.same.maxsize⟩

theorem pull_ok (h : sb.Ok) {n : Nat} (hn : n ≤ sb.len) :
    ∃ sb', sb.pull n = .ok sb' ∧ sb'.Ok ∧ sb'.content = sb.content.drop n ∧ sb'.maxsize = sb.maxsize := by
  have hroom := h.room
  simp only [Sb.endOff] at hroom
  refine ⟨{ sb with off := sb.off + n, len := sb.len - n }, by rw [Sb.pull, if_pos hn], ⟨h.size, ?_⟩, ?_, rfl⟩
  · simp only [Sb.endOff]
    omega
  · rw [Sb.content, Sb.content, List.drop_take, List.drop_drop]
    rfl

end

def ample : Realloc := fun mem n => some ((mem ++ List.replicate n 0).take n)

theorem ample_lawful : Lawful ample where
  size mem n mem' h := by
    cases h
    simp
  kept mem n mem' h := by
    cases h
    rw [List.take_take, List.take_append_of_le_length (Nat.min_le_left _ _), Nat.min_comm,
      ← List.take_take, List.take_length]

end Bbdd.Buffer
