import Bbdd.Lib.Numeral
import Mathlib.Algebra.Group.Nat.Defs

namespace Bbdd.Client

open Lib.Numeral

def uint32Max : UInt64 := 0xffffffff

def timeOutOfBounds : String := "value out of bounds (0, uint32_max]"

def unitMult (unit : List Char) : Option UInt64 :=
  if unit = ['u', 's'] ∨ unit = [] then some 1
  else if unit = ['m', 's'] then some 1000
  else if unit = ['s'] then some 1000000
  else none

def parseTimeUs (str : List Char) : Except String UInt32 :=
  let (val, rest) := strtoull str
  if rest = str then .error "not a valid number"
  else if val ≤ 0 ∨ val > uint32Max then .error timeOutOfBounds
  else
    match unitMult rest with
    | none =>
      let unit := String.ofList rest
      .error s!"unknown unit `{unit}' (use us, ms, s)"
    | some mult => if val > uint32Max / mult then .error timeOutOfBounds else .ok (val * mult).toUInt32

def timeText (us : UInt64) : List Char :=
  if us % 1000000 = 0 then Nat.toDigits 10 (us / 1000000).toNat ++ ['s']
  else if us % 1000 = 0 then Nat.toDigits 10 (us / 1000).toNat ++ ['m', 's']
  else Nat.toDigits 10 us.toNat ++ ['u', 's']

def showTimeUs (numeric : Bool) (label : List Char) (us : UInt64) : List Char :=
  label ++ [' '] ++ (if numeric then Nat.toDigits 10 us.toNat else timeText us) ++ [' ']

/-- A text that is a constant of some kind, perhaps after spaces and a sign, and
a unit. -/
inductive Denotes (const : List Char → Nat → Prop) : List Char → Sign → Nat → UInt64 → Prop
  | mk {spaces lit unit : List Char} {sign : Sign} {n : Nat} {mult : UInt64} :
      (∀ c ∈ spaces, isSpace c = true) → const lit n → unitMult unit = some mult →
      Denotes const (spaces ++ (sign.chars ++ (lit ++ unit))) sign n mult

def InBounds (t : Nat) : Prop := 0 < t ∧ t ≤ 2 ^ 32 - 1

/-- The texts that are accepted for what they should not be: with a minus sign
before a number that is in the bounds once it is negated in 64 bits, and with a
binary constant, which the C library reads since C23. -/
def Slips (str : List Char) : Prop :=
  (∃ n mult, Denotes Constant str .minus n mult ∧ InBounds ((2 ^ 64 - n) * mult.toNat)) ∨
    ∃ sign n mult, sign ≠ .minus ∧ Denotes Binary str sign n mult ∧ InBounds (n * mult.toNat)

section

variable {str rest unit : List Char} {val mult : UInt64} {v : UInt32}

theorem unitMult_inv (h : unitMult unit = some mult) :
    Stops unit ∧ 0 < mult.toNat ∧ mult.toNat ≤ 1000000 := by
  have hstops (tail : List Char) (c : Char) (hc : isDigit 16 c = false ∧ isHexMark c = false) :
    Stops (c :: tail) := by
    intro d hd
    cases hd
    exact hc
  unfold unitMult at h
  split_ifs at h with h₁ h₂ h₃
  · cases h
    obtain rfl | rfl := h₁
    · exact ⟨hstops _ _ (by decide), by decide, by decide⟩
    · exact ⟨fun c hc => absurd hc (by simp), by decide, by decide⟩
  · cases h
    subst h₂
    exact ⟨hstops _ _ (by decide), by decide, by decide⟩
  · cases h
    subst h₃
    exact ⟨hstops _ _ (by decide), by decide, by decide⟩

theorem parseTimeUs_converted (h : strtoull str = (val, rest)) (hne : rest ≠ str)
    (hu : unitMult rest = some mult) :
    parseTimeUs str = .ok v ↔ InBounds (val.toNat * mult.toNat) ∧ v.toNat = val.toNat * mult.toNat := by
  obtain ⟨-, hpos, hmult⟩ := unitMult_inv hu
  have hbound : val > uint32Max / mult ↔ 2 ^ 32 - 1 < val.toNat * mult.toNat := by
    rw [gt_iff_lt, UInt64.lt_iff_toNat_lt, UInt64.toNat_div, Nat.div_lt_iff_lt_mul hpos]
    rfl
  have hgreat : val > uint32Max ↔ 2 ^ 32 - 1 < val.toNat := by
    rw [gt_iff_lt, UInt64.lt_iff_toNat_lt]
    rfl
  have hzero : val ≤ 0 ↔ val.toNat = 0 := by
    rw [UInt64.le_iff_toNat_le]
    exact Nat.le_zero
  have hle : val.toNat ≤ val.toNat * mult.toNat := Nat.le_mul_of_pos_right _ hpos
  simp only [parseTimeUs, h, if_neg hne, hu, hbound, hgreat, hzero, InBounds]
  split_ifs with h₁ h₂
  · refine iff_of_false (by simp) (fun hc => ?_)
    obtain h₁ | h₁ := h₁
    · rw [h₁, Nat.zero_mul] at hc
      omega
    · omega
  · exact iff_of_false (by simp) (fun hc => by omega)
  · have hval : (val * mult).toUInt32.toNat = val.toNat * mult.toNat := by
      rw [UInt64.toNat_toUInt32, UInt64.toNat_mul, Nat.mod_eq_of_lt (by omega), Nat.mod_eq_of_lt (by omega)]
    have hmul : 0 < val.toNat * mult.toNat := Nat.mul_pos (by omega) hpos
    rw [Except.ok.injEq, ← UInt32.toNat_inj, hval]
    exact ⟨fun hv => ⟨⟨hmul, by omega⟩, hv.symm⟩, fun hv => hv.2.symm⟩

theorem parseTimeUs_unit (h : parseTimeUs str = .ok v) (hs : strtoull str = (val, rest)) :
    rest ≠ str ∧ ∃ mult, unitMult rest = some mult := by
  simp only [parseTimeUs, hs] at h
  split_ifs at h with h₁ h₂
  cases hu : unitMult rest with
  | none =>
    rw [hu] at h
    cases h
  | some mult => exact ⟨h₁, mult, rfl⟩

theorem append_ne {spaces lit : List Char} {sign : Sign} {n : Nat} (hlit : Constant lit n) :
    rest ≠ spaces ++ (sign.chars ++ (lit ++ rest)) := by
  obtain ⟨c, tail, rfl, -⟩ := hlit.head
  intro h
  have hlen := congrArg List.length h
  simp only [List.length_append, List.length_cons] at hlen
  omega

variable {sign sign' : Sign} {n n' : Nat} {mult' : UInt64} {const : List Char → Nat → Prop}

theorem Denotes.mono {const' : List Char → Nat → Prop} (h : Denotes const str sign n mult)
    (hc : ∀ lit n, const lit n → const' lit n) : Denotes const' str sign n mult := by
  obtain ⟨hspaces, hlit, hu⟩ := h
  exact .mk hspaces (hc _ _ hlit) hu

theorem Denotes.accepted (h : Denotes Constant str sign n mult) : parseTimeUs str = .ok v ↔
    InBounds ((convert sign n).toNat * mult.toNat) ∧ v.toNat = (convert sign n).toNat * mult.toNat := by
  obtain ⟨hspaces, hlit, hu⟩ := h
  exact parseTimeUs_converted (strtoull_constant hspaces sign hlit (unitMult_inv hu).1) (append_ne hlit) hu

theorem Denotes.positive (h : Denotes const str sign n mult) : 0 < mult.toNat := by
  obtain ⟨-, -, hu⟩ := h
  exact (unitMult_inv hu).2.1

theorem inBounds_convert (hs : sign ≠ .minus) (hm : 0 < mult.toNat) :
    InBounds ((convert sign n).toNat * mult.toNat) ↔ InBounds (n * mult.toNat) := by
  rw [convert_plain hs]
  by_cases hn : n ≤ UInt64.size - 1
  · rw [Nat.min_eq_left hn]
  · rw [Nat.min_eq_right (by omega)]
    have hle : n ≤ n * mult.toNat := Nat.le_mul_of_pos_right _ hm
    have hbig : UInt64.size - 1 ≤ (UInt64.size - 1) * mult.toNat := Nat.le_mul_of_pos_right _ hm
    have hsize : UInt64.size = 2 ^ 64 := rfl
    simp only [InBounds]
    omega

theorem Denotes.plain (h : Denotes Constant str sign n mult) (hs : sign ≠ .minus) :
    parseTimeUs str = .ok v ↔ InBounds (n * mult.toNat) ∧ v.toNat = n * mult.toNat := by
  rw [h.accepted, inBounds_convert hs h.positive]
  refine and_congr_right fun hin => ?_
  have hle : n ≤ n * mult.toNat := Nat.le_mul_of_pos_right _ h.positive
  have hsize : UInt64.size = 2 ^ 64 := rfl
  rw [convert_plain hs, Nat.min_eq_left (by have := hin.2; omega)]

theorem inBounds_minus (hm : 0 < mult.toNat) :
    InBounds ((convert .minus n).toNat * mult.toNat) ↔ InBounds ((2 ^ 64 - n) * mult.toNat) := by
  have hsize : UInt64.size = 2 ^ 64 := rfl
  by_cases h0 : n = 0
  · have hbig : 2 ^ 64 ≤ 2 ^ 64 * mult.toNat := Nat.le_mul_of_pos_right _ hm
    have hzero : (convert .minus 0).toNat = 0 := by decide
    simp only [h0, hzero, InBounds, Nat.zero_mul, Nat.sub_zero]
    omega
  · by_cases hn : n < UInt64.size
    · rw [convert_minus h0 hn, hsize]
    · have hmax : (convert .minus n).toNat = UInt64.size - 1 := by
        rw [convert, if_pos (by omega)]
        rfl
      have hbig : UInt64.size - 1 ≤ (UInt64.size - 1) * mult.toNat := Nat.le_mul_of_pos_right _ hm
      have hnone : 2 ^ 64 - n = 0 := by omega
      simp only [hmax, hnone, InBounds, Nat.zero_mul]
      omega

theorem parseTimeUs_sound (h : parseTimeUs str = .ok v) :
    ∃ sign n mult, Denotes Constant str sign n mult := by
  obtain hsame | ⟨spaces, sign, lit, n, rest, rfl, hspaces, hlit, hs⟩ := strtoull_sound str
  · exact absurd hsame (parseTimeUs_unit h rfl).1
  · obtain ⟨-, mult, hu⟩ := parseTimeUs_unit h hs
    exact ⟨sign, n, mult, .mk hspaces hlit hu⟩

theorem Denotes.read (h : Denotes const str sign n mult) (hc : ∀ lit n, const lit n → Constant lit n) :
    ∃ lit unit, const lit n ∧ takeSign (str.dropWhile isSpace) = (sign, lit ++ unit) ∧
      strtoull str = (convert sign n, unit) := by
  obtain @⟨spaces, lit, unit, _, _, _, hspaces, hlit, hu⟩ := h
  refine ⟨lit, unit, hlit, ?_, strtoull_constant hspaces sign (hc _ _ hlit) (unitMult_inv hu).1⟩
  rw [dropSpaces_constant hspaces sign (hc _ _ hlit) unit, takeSign_constant sign (hc _ _ hlit) unit]

theorem Denotes.same {const' : List Char → Nat → Prop} (h : Denotes const str sign n mult)
    (h' : Denotes const' str sign' n' mult') (hc : ∀ lit n, const lit n → Constant lit n)
    (hc' : ∀ lit n, const' lit n → Constant lit n) : sign' = sign ∧ ∃ lit, const lit n ∧ const' lit n' := by
  obtain ⟨lit, unit, hlit, ht, hs⟩ := h.read hc
  obtain ⟨lit', unit', hlit', ht', hs'⟩ := h'.read hc'
  obtain ⟨hsign, happ⟩ := Prod.mk.inj (ht.symm.trans ht')
  obtain rfl : unit = unit' := (Prod.mk.inj (hs.symm.trans hs')).2
  obtain rfl := List.append_cancel_right happ
  exact ⟨hsign.symm, lit, hlit, hlit'⟩

theorem Denotes.kinds (h : Denotes Constant str sign n mult) :
    Denotes Literal str sign n mult ∨ Denotes Binary str sign n mult := by
  obtain ⟨hspaces, hlit | hlit, hu⟩ := h
  · exact .inl ⟨hspaces, hlit, hu⟩
  · exact .inr ⟨hspaces, hlit, hu⟩

theorem timeText_denotes {us : UInt64} (hus : us ≠ 0) :
    ∃ n mult, Denotes Literal (timeText us) .none n mult ∧ n * mult.toNat = us.toNat := by
  have text {n : Nat} (hn : n ≠ 0) {unit : List Char} {mult : UInt64} (hu : unitMult unit = some mult) :
      Denotes Literal (Nat.toDigits 10 n ++ unit) .none n mult :=
    @Denotes.mk _ [] _ _ .none _ _ (fun _ hc => absurd hc List.not_mem_nil) (literal_toDigits hn) hu
  have hpos : us.toNat ≠ 0 := fun hz => hus (UInt64.toNat_inj.mp hz)
  have hmod (m : UInt64) : us % m = 0 ↔ us.toNat % m.toNat = 0 := by
    rw [← UInt64.toNat_inj, UInt64.toNat_mod]
    rfl
  unfold timeText
  split_ifs with h₁ h₂
  · rw [hmod] at h₁
    have hdiv : (us / 1000000).toNat * 1000000 = us.toNat := by
      rw [UInt64.toNat_div]
      exact Nat.div_mul_cancel (Nat.dvd_of_mod_eq_zero h₁)
    exact ⟨_, 1000000, text (fun hz => by omega) rfl, hdiv⟩
  · rw [hmod] at h₂
    have hdiv : (us / 1000).toNat * 1000 = us.toNat := by
      rw [UInt64.toNat_div]
      exact Nat.div_mul_cancel (Nat.dvd_of_mod_eq_zero h₂)
    exact ⟨_, 1000, text (fun hz => by omega) rfl, hdiv⟩
  · exact ⟨_, 1, text hpos rfl, Nat.mul_one _⟩

theorem Slips.accepted (h : Slips str) :
    (∃ v, parseTimeUs str = .ok v) ∧ ∀ sign n mult, sign ≠ .minus → ¬ Denotes Literal str sign n mult := by
  have hval {t : Nat} (ht : InBounds t) : (UInt32.ofNat t).toNat = t :=
    UInt32.toNat_ofNat_of_lt' (by have := ht.2; simp only [UInt32.size]; omega)
  obtain ⟨n, mult, hd, hin⟩ | ⟨sign, n, mult, hs, hd, hin⟩ := h
  · have hin' := (inBounds_minus hd.positive).mpr hin
    refine ⟨⟨_, hd.accepted.mpr ⟨hin', hval hin'⟩⟩, fun sign n' mult' hs' hd' => hs' ?_⟩
    exact (hd.same hd' (fun _ _ => id) fun _ _ => .inl).1
  · refine ⟨⟨_, ((hd.mono fun _ _ => .inr).plain hs).mpr ⟨hin, hval hin⟩⟩, fun sign' n' mult' _ hd' => ?_⟩
    obtain ⟨-, lit, hbin, hlit⟩ := hd.same hd' (fun _ _ => .inr) fun _ _ => .inl
    exact hbin.not_literal hlit

/-- Apart from the slips exactly the times in the bounds are accepted, for what
they say; and what is printed for a time is accepted for it. -/
theorem parseTimeUs_exact (str : List Char) :
    ((∀ v, parseTimeUs str = .ok v ↔ ∃ sign n mult, sign ≠ .minus ∧ Denotes Literal str sign n mult ∧
      InBounds (n * mult.toNat) ∧ v.toNat = n * mult.toNat) ↔ ¬ Slips str) ∧
    ∀ (us : UInt32) label text, us ≠ 0 →
      showTimeUs false label us.toUInt64 = label ++ [' '] ++ text ++ [' '] → parseTimeUs text = .ok us := by
  refine ⟨⟨fun hexact hslip => ?_, fun hslip v => ⟨fun h => ?_, ?_⟩⟩, fun us label text hus htext => ?_⟩
  · obtain ⟨⟨v, hv⟩, hnot⟩ := hslip.accepted
    obtain ⟨sign, n, mult, hs, hd, -⟩ := (hexact v).mp hv
    exact hnot sign n mult hs hd
  · obtain ⟨sign, n, mult, hd⟩ := parseTimeUs_sound h
    by_cases hs : sign = .minus
    · subst hs
      exact absurd (.inl ⟨n, mult, hd, (inBounds_minus hd.positive).mp (hd.accepted.mp h).1⟩) hslip
    · have hin := (hd.plain hs).mp h
      obtain hlit | hbin := hd.kinds
      · exact ⟨sign, n, mult, hs, hlit, hin⟩
      · exact absurd (.inr ⟨sign, n, mult, hs, hbin, hin.1⟩) hslip
  · rintro ⟨sign, n, mult, hs, hd, hin⟩
    exact ((hd.mono fun _ _ => .inl).plain hs).mpr hin
  · have htext : timeText us.toUInt64 = text := List.append_cancel_left (List.append_cancel_right htext)
    subst htext
    have hpos : us.toNat ≠ 0 := fun hz => hus (UInt32.toNat_inj.mp hz)
    have h64 : us.toUInt64.toNat = us.toNat := UInt32.toNat_toUInt64 us
    have hne : us.toUInt64 ≠ 0 := fun hz => hpos (h64.symm.trans (congrArg UInt64.toNat hz))
    obtain ⟨n, mult, hd, ht⟩ := timeText_denotes hne
    have hlt := us.toNat_lt
    refine ((hd.mono fun _ _ => .inl).plain (by decide)).mpr ⟨⟨by omega, by omega⟩, by omega⟩

theorem parseTimeUs_exact_hex : parseTimeUs [' ', '+', '0', 'x', 'a', 'm', 's'] = .ok 10000 ∧
    ∃ sign n mult, sign ≠ .minus ∧ Denotes Literal [' ', '+', '0', 'x', 'a', 'm', 's'] sign n mult ∧
      n * mult.toNat = 10000 := by
  have h : parseTimeUs [' ', '+', '0', 'x', 'a', 'm', 's'] = .ok 10000 := by decide
  have hd : Denotes Literal [' ', '+', '0', 'x', 'a', 'm', 's'] .plus 10 1000 :=
    @Denotes.mk _ [' '] ['0', 'x', 'a'] ['m', 's'] .plus _ _
      (List.forall_mem_singleton.mpr rfl)
      (@Literal.hex 'x' 'a' [] rfl (List.forall_mem_singleton.mpr rfl)) rfl
  have hslip : ¬ Slips [' ', '+', '0', 'x', 'a', 'm', 's'] := fun hs => hs.accepted.2 .plus 10 1000
    (by decide) hd
  obtain ⟨sign, n, mult, hs, hd, -, ht⟩ := ((parseTimeUs_exact _).1.mpr hslip 10000).mp h
  exact ⟨h, sign, n, mult, hs, hd, ht.symm⟩

/-- With a minus sign the number is negated in 64 bits without a sign, and one
microsecond is what comes out here; and three in binary is accepted. -/
theorem parseTimeUs_minus :
    parseTimeUs ['-', '1', '8', '4', '4', '6', '7', '4', '4', '0', '7', '3', '7', '0', '9', '5',
    '5', '1', '6', '1', '5'] = .ok 1 ∧ parseTimeUs ['0', 'b', '1', '1'] = .ok 3 := by decide

end

end Bbdd.Client
