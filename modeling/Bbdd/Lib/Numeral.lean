import Mathlib.Data.List.Basic
import Mathlib.Data.List.TakeWhile

namespace Bbdd.Lib.Numeral

/-- What a character counts as a digit; the letters go on after nine. -/
def digitVal (c : Char) : Option Nat :=
  if '0' ≤ c ∧ c ≤ '9' then some (c.toNat - '0'.toNat)
  else if 'a' ≤ c ∧ c ≤ 'f' then some (c.toNat - 'a'.toNat + 10)
  else if 'A' ≤ c ∧ c ≤ 'F' then some (c.toNat - 'A'.toNat + 10)
  else none

def isDigit (base : Nat) (c : Char) : Bool := (digitVal c).any (· < base)

def numeral (base : Nat) (digits : List Char) : Nat :=
  digits.foldl (fun n c => base * n + (digitVal c).getD 0) 0

def isHexMark (c : Char) : Bool := c = 'x' ∨ c = 'X'

def isBinMark (c : Char) : Bool := c = 'b' ∨ c = 'B'

/-- The decimal, octal and hexadecimal constants of C without a suffix, with
their values. -/
inductive Literal : List Char → Nat → Prop
  | decimal {c digits} : c ≠ '0' → (∀ d ∈ c :: digits, isDigit 10 d = true) → Literal (c :: digits)
      (numeral 10 (c :: digits))
  | octal {digits} : (∀ d ∈ digits, isDigit 8 d = true) → Literal ('0' :: digits) (numeral 8 digits)
  | hex {x c digits} : isHexMark x = true → (∀ d ∈ c :: digits, isDigit 16 d = true) →
      Literal ('0' :: x :: c :: digits) (numeral 16 (c :: digits))

inductive Binary : List Char → Nat → Prop
  | mk {x c digits} : isBinMark x = true → (∀ d ∈ c :: digits, isDigit 2 d = true) →
      Binary ('0' :: x :: c :: digits) (numeral 2 (c :: digits))

def Constant (lit : List Char) (n : Nat) : Prop := Literal lit n ∨ Binary lit n

def isSpace (c : Char) : Bool := c = ' ' ∨ ('\t' ≤ c ∧ c ≤ '\r')

def scan (base : Nat) (str : List Char) : Nat × List Char :=
  (numeral base (str.takeWhile (isDigit base)), str.dropWhile (isDigit base))

/-- What comes after the mark of a constant, if it has a digit. -/
def marked (mark : Char → Bool) (base : Nat) : List Char → Option (List Char)
  | x :: c :: rest => if mark x ∧ isDigit base c then some (c :: rest) else none
  | _ => none

/-- The constant a string starts with, whose base its first characters tell. -/
def subject : List Char → Option (Nat × List Char)
  | [] => none
  | c :: rest =>
    if c = '0' then
      match marked isHexMark 16 rest, marked isBinMark 2 rest with
      | some digits, _ => some (scan 16 digits)
      | none, some digits => some (scan 2 digits)
      | none, none => some (scan 8 rest)
    else if isDigit 10 c then some (scan 10 (c :: rest)) else none

inductive Sign
  | none
  | plus
  | minus
  deriving DecidableEq, Repr

def Sign.chars : Sign → List Char
  | .none => []
  | .plus => ['+']
  | .minus => ['-']

def takeSign : List Char → Sign × List Char
  | c :: rest => if c = '+' then (.plus, rest) else if c = '-' then (.minus, rest) else (.none, c :: rest)
  | [] => (.none, [])

def convert (sign : Sign) (n : Nat) : UInt64 :=
  if n ≥ UInt64.size then UInt64.ofNat (UInt64.size - 1)
  else match sign with
    | .minus => 0 - UInt64.ofNat n
    | .none | .plus => UInt64.ofNat n

/-- The value of the constant a string starts with after spaces and a sign, in
the base it is written in, and what comes after it: the whole string if there
is no constant. -/
def strtoull (str : List Char) : UInt64 × List Char :=
  let (sign, rest) := takeSign (str.dropWhile isSpace)
  match subject rest with
  | none => (0, str)
  | some (n, rest) => (convert sign n, rest)

def Stops (str : List Char) : Prop := ∀ c ∈ str.head?, isDigit 16 c = false ∧ isHexMark c = false

section

variable {base n : Nat} {c : Char} {str rest lit digits spaces : List Char}

theorem isDigit_mono {base' : Nat} (h : isDigit base c = true) (hb : base ≤ base') :
    isDigit base' c = true := by
  rw [isDigit, Option.any_eq_true] at h ⊢
  obtain ⟨n, hn, hlt⟩ := h
  exact ⟨n, hn, decide_eq_true (Nat.lt_of_lt_of_le (of_decide_eq_true hlt) hb)⟩

theorem scan_append (hd : ∀ d ∈ digits, isDigit base d = true)
    (hr : ∀ c ∈ rest.head?, isDigit base c = false) :
    scan base (digits ++ rest) = (numeral base digits, rest) := by
  have hstop : rest.takeWhile (isDigit base) = [] ∧ rest.dropWhile (isDigit base) = rest := by
    cases rest with
    | nil => exact ⟨rfl, rfl⟩
    | cons c rest =>
      have hc := hr c rfl
      exact ⟨List.takeWhile_cons_of_neg (by simp [hc]), List.dropWhile_cons_of_neg (by simp [hc])⟩
  rw [scan, List.takeWhile_append_of_pos hd, List.dropWhile_append_of_pos hd, hstop.1, hstop.2, List.append_nil]

theorem scan_inv (h : scan base str = (n, rest)) :
    ∃ digits, str = digits ++ rest ∧ (∀ d ∈ digits, isDigit base d = true) ∧ n = numeral base digits := by
  cases h
  exact ⟨str.takeWhile (isDigit base), (List.takeWhile_append_dropWhile).symm, fun _ hd =>
    List.mem_takeWhile_imp hd, rfl⟩

theorem scan_cons_inv (hc : isDigit base c = true) (h : scan base (c :: str) = (n, rest)) :
    ∃ digits, str = digits ++ rest ∧ (∀ d ∈ c :: digits, isDigit base d = true) ∧ n = numeral base
      (c :: digits) := by
  cases h
  refine ⟨str.takeWhile (isDigit base), ?_, List.forall_mem_cons.mpr
    ⟨hc, fun _ hd => List.mem_takeWhile_imp hd⟩, ?_⟩
  · rw [List.dropWhile_cons_of_pos hc, List.takeWhile_append_dropWhile]
  · rw [List.takeWhile_cons_of_pos hc]

theorem isDigit_ge (h : isDigit base c = true) : '0' ≤ c := by
  rw [isDigit, Option.any_eq_true] at h
  obtain ⟨n, hn, -⟩ := h
  unfold digitVal at hn
  split_ifs at hn with h₁ h₂ h₃
  · exact h₁.1
  · exact Char.le_trans (by decide) h₂.1
  · exact Char.le_trans (by decide) h₃.1

theorem digit_plain (h : isDigit base c = true) :
    isSpace c = false ∧ takeSign (c :: rest) = (.none, c :: rest) := by
  have hge := isDigit_ge h
  have hne (d : Char) (hd : ¬ '0' ≤ d) : c ≠ d := fun he => hd (he ▸ hge)
  refine ⟨decide_eq_false ?_, ?_⟩
  · rintro (rfl | ⟨-, hle⟩)
    · exact absurd hge (by decide)
    · exact absurd (Char.le_trans hge hle) (by decide)
  · rw [takeSign, if_neg (hne '+' (by decide)), if_neg (hne '-' (by decide))]

theorem Constant.head (h : Constant lit n) : ∃ c tail, lit = c :: tail ∧ isDigit 10 c = true := by
  obtain h | ⟨-, -⟩ := h
  · cases h with
    | @decimal c digits _ hd => exact ⟨c, digits, rfl, hd c List.mem_cons_self⟩
    | octal => exact ⟨_, _, rfl, by decide⟩
    | hex => exact ⟨_, _, rfl, by decide⟩
  · exact ⟨_, _, rfl, by decide⟩

theorem Stops.not_digit (h : Stops rest) (hb : base ≤ 16) : ∀ c ∈ rest.head?, isDigit base c = false := by
  intro c hc
  have hno := (h c hc).1
  rw [← Bool.not_eq_true] at hno ⊢
  exact fun hd => hno (isDigit_mono hd hb)

theorem Stops.not_marked (h : Stops rest) :
    ∀ c ∈ rest.head?, isHexMark c = false ∧ isBinMark c = false := by
  intro c hc
  refine ⟨(h c hc).2, decide_eq_false ?_⟩
  rintro (rfl | rfl) <;> exact absurd (h _ hc).1 (by decide)

theorem marked_octal {mark : Char → Bool} (hmark : ∀ c, mark c = true → isDigit 8 c = false)
    (hd : ∀ d ∈ digits, isDigit 8 d = true) (hr : ∀ c ∈ rest.head?, mark c = false) :
    marked mark base (digits ++ rest) = none := by
  have hhead : ∀ c ∈ (digits ++ rest).head?, mark c = false := by
    intro c hc
    cases digits with
    | nil => exact hr c hc
    | cons d ds =>
      cases hc
      rw [← Bool.not_eq_true]
      exact fun hm => Bool.false_ne_true ((hmark c hm).symm.trans (hd c List.mem_cons_self))
  match digits ++ rest, hhead with
  | [], _ => rfl
  | [_], _ => rfl
  | x :: c :: tail, hhead => simp [marked, hhead x rfl]

theorem hexMark_plain (h : isHexMark c = true) : isDigit 8 c = false := by
  obtain rfl | rfl := of_decide_eq_true h
  · decide
  · decide

theorem binMark_plain (h : isBinMark c = true) : isDigit 8 c = false ∧ isHexMark c = false := by
  obtain rfl | rfl := of_decide_eq_true h
  · decide
  · decide

theorem Binary.not_literal (h : Binary lit n) {m : Nat} : ¬ Literal lit m := by
  obtain ⟨hx, -⟩ := h
  intro h
  cases h with
  | decimal hc => exact hc rfl
  | octal hd => exact Bool.false_ne_true ((binMark_plain hx).1.symm.trans (hd _ List.mem_cons_self))
  | hex hx' => exact Bool.false_ne_true ((binMark_plain hx).2.symm.trans hx')

theorem subject_constant (h : Constant lit n) (hs : Stops rest) :
    subject (lit ++ rest) = some (n, rest) := by
  obtain h | @⟨x, c, digits, hx, hd⟩ := h
  · cases h with
    | @decimal c digits hc hd =>
      rw [List.cons_append, subject, if_neg hc, if_pos (hd c List.mem_cons_self), ← List.cons_append,
        scan_append hd (hs.not_digit (by decide))]
    | octal hd =>
      rw [List.cons_append, subject, if_pos rfl,
        marked_octal (fun _ => hexMark_plain) hd fun c hc => (hs.not_marked c hc).1,
        marked_octal (fun _ hm => (binMark_plain hm).1) hd fun c hc => (hs.not_marked c hc).2]
      simp only
      rw [scan_append hd (hs.not_digit (by decide))]
    | @hex x c digits hx hd =>
      have hc := hd c List.mem_cons_self
      simp only [List.cons_append, subject, if_true, marked, hx, hc, and_self]
      rw [← List.cons_append, scan_append hd (hs.not_digit (by decide))]
  · have hc := hd c List.mem_cons_self
    simp only [List.cons_append, subject, if_true, marked, hx, hc, and_self, (binMark_plain hx).2,
      Bool.false_eq_true, false_and, if_false]
    rw [← List.cons_append, scan_append hd (hs.not_digit (by decide))]

theorem marked_inv {mark : Char → Bool} (h : marked mark base str = some digits) :
    ∃ x c tail, str = x :: c :: tail ∧ digits = c :: tail ∧ mark x = true ∧ isDigit base c = true := by
  match str, h with
  | x :: c :: tail, h =>
    obtain ⟨⟨hx, hc⟩, h⟩ := Option.ite_none_right_eq_some.mp h
    exact ⟨x, c, tail, rfl, (Option.some.inj h).symm, hx, hc⟩

theorem subject_sound (h : subject str = some (n, rest)) : ∃ lit, str = lit ++ rest ∧ Constant lit n := by
  cases str with
  | nil => cases h
  | cons c tail =>
    rw [subject] at h
    split at h
    · rename_i hc
      subst hc
      split at h
      · rename_i hh
        obtain ⟨x, c, tail, rfl, rfl, hx, hc⟩ := marked_inv hh
        obtain ⟨digits, rfl, hd, rfl⟩ := scan_cons_inv hc (Option.some.inj h)
        exact ⟨'0' :: x :: c :: digits, rfl, .inl (.hex hx hd)⟩
      · rename_i hh
        obtain ⟨x, c, tail, rfl, rfl, hx, hc⟩ := marked_inv hh
        obtain ⟨digits, rfl, hd, rfl⟩ := scan_cons_inv hc (Option.some.inj h)
        exact ⟨'0' :: x :: c :: digits, rfl, .inr ⟨hx, hd⟩⟩
      · obtain ⟨digits, rfl, hd, rfl⟩ := scan_inv (Option.some.inj h)
        exact ⟨'0' :: digits, rfl, .inl (.octal hd)⟩
    · rename_i hc
      obtain ⟨hdig, h⟩ := Option.ite_none_right_eq_some.mp h
      obtain ⟨digits, rfl, hd, rfl⟩ := scan_cons_inv hdig (Option.some.inj h)
      exact ⟨c :: digits, rfl, .inl (.decimal hc hd)⟩

theorem takeSign_append (str : List Char) : (takeSign str).1.chars ++ (takeSign str).2 = str := by
  unfold takeSign
  split
  · split_ifs with hp hm
    · rw [hp]
      rfl
    · rw [hm]
      rfl
    · rfl
  · rfl

theorem takeSign_constant (sign : Sign) (h : Constant lit n) (rest : List Char) :
    takeSign (sign.chars ++ (lit ++ rest)) = (sign, lit ++ rest) := by
  obtain ⟨c, tail, rfl, hc⟩ := h.head
  cases sign with
  | none => exact (digit_plain hc).2
  | plus => rfl
  | minus => rfl

theorem dropSpaces_constant (hs : ∀ c ∈ spaces, isSpace c = true) (sign : Sign) (h : Constant lit n)
    (rest : List Char) :
    (spaces ++ (sign.chars ++ (lit ++ rest))).dropWhile isSpace = sign.chars ++ (lit ++ rest) := by
  obtain ⟨c, tail, rfl, hc⟩ := h.head
  rw [List.dropWhile_append_of_pos hs]
  cases sign with
  | none =>
    obtain ⟨hspace, -⟩ : isSpace c = false ∧ takeSign [c] = (.none, [c]) := digit_plain hc
    exact List.dropWhile_cons_of_neg (by rw [hspace]; decide)
  | plus => exact List.dropWhile_cons_of_neg (by decide)
  | minus => exact List.dropWhile_cons_of_neg (by decide)

theorem strtoull_constant (hs : ∀ c ∈ spaces, isSpace c = true) (sign : Sign) (h : Constant lit n)
    (hr : Stops rest) : strtoull (spaces ++ (sign.chars ++ (lit ++ rest))) = (convert sign n, rest) := by
  rw [strtoull, dropSpaces_constant hs sign h rest, takeSign_constant sign h rest]
  simp only
  rw [subject_constant h hr]

theorem strtoull_sound (str : List Char) : (strtoull str).2 = str ∨
    ∃ spaces sign lit n rest, str = spaces ++ (sign.chars ++ (lit ++ rest)) ∧ (∀ c ∈ spaces, isSpace c = true) ∧
      Constant lit n ∧ strtoull str = (convert sign n, rest) := by
  unfold strtoull
  have hsign := takeSign_append (str.dropWhile isSpace)
  revert hsign
  generalize takeSign (str.dropWhile isSpace) = p
  obtain ⟨sign, tail⟩ := p
  intro hsign
  simp only at hsign ⊢
  cases hsub : subject tail with
  | none => exact .inl rfl
  | some q =>
    obtain ⟨n, rest⟩ := q
    obtain ⟨lit, rfl, hlit⟩ := subject_sound hsub
    refine .inr ⟨str.takeWhile isSpace, sign, lit, n, rest, ?_, fun _ hc => List.mem_takeWhile_imp hc, hlit, rfl⟩
    rw [hsign, List.takeWhile_append_dropWhile]

theorem convert_plain {sign : Sign} (hs : sign ≠ .minus) (n : Nat) :
    (convert sign n).toNat = min n (UInt64.size - 1) := by
  unfold convert
  split
  · rename_i h
    rw [Nat.min_eq_right (by omega)]
    rfl
  · rename_i h
    cases sign with
    | minus => exact absurd rfl hs
    | none | plus =>
      rw [Nat.min_eq_left (by omega)]
      exact UInt64.toNat_ofNat_of_lt' (by omega)

theorem convert_minus {n : Nat} (h0 : n ≠ 0) (hn : n < UInt64.size) :
    (convert .minus n).toNat = UInt64.size - n := by
  rw [convert, if_neg (by omega)]
  rw [UInt64.toNat_sub, UInt64.toNat_ofNat_of_lt' hn, UInt64.toNat_zero]
  have hsize : UInt64.size = 2 ^ 64 := rfl
  omega

end

theorem toDigits_head (n : Nat) (hn : n ≠ 0) : (Nat.toDigits 10 n).head? ≠ some '0' := by
  have hsmall : ∀ d < 10, d ≠ 0 → d.digitChar ≠ '0' := by decide
  induction n using Nat.strong_induction_on with
  | _ n ih =>
    rw [Nat.toDigits_eq_if (by decide)]
    split
    · rename_i hlt
      exact fun h => hsmall n hlt hn (Option.some.inj h)
    · rename_i hge
      have hhead := ih (n / 10) (by omega) (by omega)
      cases hd : Nat.toDigits 10 (n / 10) with
      | nil => exact absurd hd Nat.toDigits_ne_nil
      | cons c digits => rwa [hd] at hhead

theorem digitVal_decimal {c : Char} (h : c.isDigit = true) :
    digitVal c = some (c.toNat - '0'.toNat) ∧ isDigit 10 c = true := by
  have hc : '0' ≤ c ∧ c ≤ '9' := by
    simpa [Char.isDigit, Char.le_def] using h
  have hval : digitVal c = some (c.toNat - '0'.toNat) := if_pos hc
  refine ⟨hval, ?_⟩
  have hle : c.toNat ≤ '9'.toNat := UInt32.le_iff_toNat_le.mp hc.2
  rw [isDigit, hval]
  exact decide_eq_true (by simp only [Char.reduceToNat] at hle ⊢; omega)

theorem numeral_decimal (digits : List Char) (h : ∀ c ∈ digits, c.isDigit = true) :
    numeral 10 digits = Nat.ofDigitChars 10 digits 0 := by
  rw [numeral, Nat.ofDigitChars_eq_foldl]
  refine List.foldl_ext _ _ _ (fun n c hc => ?_)
  rw [(digitVal_decimal (h c hc)).1, Option.getD_some]

/-- The decimal digits of a number that is not zero are a constant with its
value. -/
theorem literal_toDigits {n : Nat} (hn : n ≠ 0) : Literal (Nat.toDigits 10 n) n := by
  have hdigits : ∀ c ∈ Nat.toDigits 10 n, c.isDigit = true := fun c hc =>
    Nat.isDigit_of_mem_toDigits (by decide) (by decide) hc
  have hval : numeral 10 (Nat.toDigits 10 n) = n := by
    rw [numeral_decimal _ hdigits, Nat.ofDigitChars_ten_toDigits]
  have hhead := toDigits_head n hn
  cases hd : Nat.toDigits 10 n with
  | nil => exact absurd hd Nat.toDigits_ne_nil
  | cons c digits =>
    rw [hd] at hdigits hval hhead
    have hlit : Literal (c :: digits) (numeral 10 (c :: digits)) :=
      .decimal (fun hc => hhead (congrArg some hc)) (fun d hd => (digitVal_decimal (hdigits d hd)).2)
    rwa [hval] at hlit

end Bbdd.Lib.Numeral
