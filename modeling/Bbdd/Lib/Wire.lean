import Mathlib.Data.List.TakeWhile
import Mathlib.Data.UInt

namespace Bbdd.Lib.Wire

abbrev Bytes := List UInt8

/-- How values of a type lie in a fixed amount of memory. Reading looks at no
more than that. -/
structure Layout (α : Type) where
  size : Nat
  put : α → Bytes
  get : Bytes → α
  length_put : ∀ a, (put a).length = size
  get_put : ∀ a, get (put a) = a
  get_take : ∀ bytes, get (bytes.take size) = get bytes

attribute [simp] Layout.length_put Layout.get_put

section

variable {α β : Type}

theorem Layout.get_append (A : Layout α) {bytes : Bytes} (h : A.size ≤ bytes.length) (more : Bytes) :
    A.get (bytes ++ more) = A.get bytes := by
  rw [← A.get_take (bytes ++ more), List.take_append_of_le_length h, A.get_take]

@[simp] theorem Layout.get_put_append (A : Layout α) (a : α) (more : Bytes) : A.get (A.put a ++ more) = a := by
  rw [A.get_append (A.length_put a).ge, A.get_put]

/-- One value right after another. -/
def Layout.seq (A : Layout α) (B : Layout β) : Layout (α × β) where
  size := A.size + B.size
  put p := A.put p.1 ++ B.put p.2
  get bytes := (A.get bytes, B.get (bytes.drop A.size))
  length_put p := by simp
  get_put p := by
    rw [List.drop_left' (A.length_put p.1), B.get_put, A.get_append (A.length_put p.1).ge, A.get_put]
  get_take bytes := by
    have hA : A.get (bytes.take (A.size + B.size)) = A.get bytes := by
      rw [← A.get_take, List.take_take, Nat.min_eq_left (Nat.le_add_right _ _), A.get_take]
    rw [hA, List.drop_take, Nat.add_sub_cancel_left, B.get_take]

/-- The same bytes, read as values of another type. -/
def Layout.as (A : Layout α) (toB : α → β) (toA : β → α) (h : ∀ b, toB (toA b) = b) : Layout β where
  size := A.size
  put b := A.put (toA b)
  get bytes := toB (A.get bytes)
  length_put b := A.length_put _
  get_put b := by rw [A.get_put, h]
  get_take bytes := by rw [A.get_take]

@[simp] theorem Layout.seq_size (A : Layout α) (B : Layout β) : (A.seq B).size = A.size + B.size := rfl

@[simp] theorem Layout.seq_put (A : Layout α) (B : Layout β) (p : α × β) :
    (A.seq B).put p = A.put p.1 ++ B.put p.2 := rfl

@[simp] theorem Layout.as_size (A : Layout α) (toB : α → β) (toA : β → α) (h : ∀ b, toB (toA b) = b) :
    (A.as toB toA h).size = A.size := rfl

@[simp] theorem Layout.as_put (A : Layout α) (toB : α → β) (toA : β → α) (h : ∀ b, toB (toA b) = b) (b : β) :
    (A.as toB toA h).put b = A.put (toA b) := rfl

end

def u8 : Layout UInt8 where
  size := 1
  put x := [x]
  get bytes := bytes.headD 0
  length_put _ := rfl
  get_put _ := rfl
  get_take bytes := by cases bytes <;> rfl

/-- Two bytes, the more significant one first. -/
def be16 : Layout UInt16 :=
  (u8.seq u8).as (fun p => .ofNat (p.1.toNat * 2 ^ 8 + p.2.toNat))
    (fun x => (.ofNat (x.toNat / 2 ^ 8), .ofNat x.toNat)) <| by
    intro x
    have hx := x.toNat_lt
    apply UInt16.toNat_inj.mp
    simp only [UInt16.toNat_ofNat', UInt8.toNat_ofNat']
    omega

/-- Four bytes, the most significant one first. -/
def be32 : Layout UInt32 :=
  (be16.seq be16).as (fun p => .ofNat (p.1.toNat * 2 ^ 16 + p.2.toNat))
    (fun x => (.ofNat (x.toNat / 2 ^ 16), .ofNat x.toNat)) <| by
    intro x
    have hx := x.toNat_lt
    apply UInt32.toNat_inj.mp
    simp only [UInt32.toNat_ofNat', UInt16.toNat_ofNat']
    omega

/-- Two bytes, the less significant one first. -/
def le16 : Layout UInt16 :=
  (u8.seq u8).as (fun p => .ofNat (p.1.toNat + p.2.toNat * 2 ^ 8))
    (fun x => (.ofNat x.toNat, .ofNat (x.toNat / 2 ^ 8))) <| by
    intro x
    have hx := x.toNat_lt
    apply UInt16.toNat_inj.mp
    simp only [UInt16.toNat_ofNat', UInt8.toNat_ofNat']
    omega

/-- Four bytes, the least significant one first. -/
def le32 : Layout UInt32 :=
  (le16.seq le16).as (fun p => .ofNat (p.1.toNat + p.2.toNat * 2 ^ 16))
    (fun x => (.ofNat x.toNat, .ofNat (x.toNat / 2 ^ 16))) <| by
    intro x
    have hx := x.toNat_lt
    apply UInt32.toNat_inj.mp
    simp only [UInt32.toNat_ofNat', UInt16.toNat_ofNat']
    omega

abbrev Chars (n : Nat) := { bytes : Bytes // bytes.length = n }

def Chars.pad (n : Nat) (bytes : Bytes) : Chars n := ⟨(bytes ++ List.replicate n 0).take n, by simp⟩

def chars (n : Nat) : Layout (Chars n) where
  size := n
  put cs := cs.val
  get bytes := .pad n (bytes.take n)
  length_put cs := cs.property
  get_put cs := by
    apply Subtype.ext
    simp only [Chars.pad]
    rw [List.take_of_length_le cs.property.le, List.take_left' cs.property]
  get_take bytes := by rw [List.take_take, Nat.min_self]

def Chars.upto {n : Nat} (cs : Chars n) (limit : Nat) : Bytes := (cs.val.take limit).takeWhile (· ≠ 0)

theorem Chars.pad_upto {n limit : Nat} {bytes : Bytes} (h0 : 0 ∉ bytes)
    (hl : bytes.length ≤ limit) (hn : limit ≤ n) :
    (Chars.pad n bytes).upto limit = bytes := by
  have htake : (Chars.pad n bytes).val.take limit = bytes ++ List.replicate (limit - bytes.length) 0 := by
    simp only [Chars.pad, List.take_take, Nat.min_eq_left hn]
    rw [List.take_append, List.take_of_length_le hl, List.take_replicate, Nat.min_eq_left (by omega)]
  have hall : ∀ b ∈ bytes, decide (b ≠ 0) = true := fun b hb => decide_eq_true (fun h => h0 (h ▸ hb))
  rw [upto, htake, List.takeWhile_append_of_pos hall]
  cases limit - bytes.length with
  | zero => simp
  | succ k => simp [List.replicate_succ]

def bytesOf (s : String) : Bytes := s.toByteArray.data.toList

def textOf (bytes : Bytes) : String := (String.fromUTF8? ⟨bytes.toArray⟩).getD "\ufffd"

@[simp] theorem textOf_bytesOf (s : String) : textOf (bytesOf s) = s := by
  have hb : (⟨(bytesOf s).toArray⟩ : ByteArray) = s.toByteArray := by simp [bytesOf]
  rw [textOf, hb, String.fromUTF8?, dif_pos s.isValidUTF8]
  rfl

@[simp] theorem length_bytesOf (s : String) : (bytesOf s).length = s.utf8ByteSize := by
  rw [bytesOf, Array.length_toList]
  rfl

theorem bytesOf_eq_nil {s : String} : bytesOf s = [] ↔ s = "" := by
  constructor
  · intro h
    rw [← textOf_bytesOf s, h, ← textOf_bytesOf ""]
    rfl
  · rintro rfl
    rfl

end Bbdd.Lib.Wire
