import Bbdd.Lib.Json
import Bbdd.Lib.Program
import Mathlib.Algebra.Group.Nat.Defs

namespace Bbdd.Jrpc

open Lib.Json

/-- What an object may or has to have under one key. -/
structure Policy where
  key : String
  kind : Kind
  anyType : Bool := false
  nullable : Bool := false
  required : Bool := false
  ignored : Bool := false

def Policy.accepts (pol : Policy) (value : Value) : Bool :=
  pol.anyType || (pol.nullable && value.kind = .null) || pol.kind = value.kind

def entryOf (policy : List Policy) (key : String) : Option Policy :=
  policy.find? (fun pol => !pol.ignored && pol.key = key)

def dissectMember (policy : List Policy) (values : Members) (m : String × Value) : Except String Members :=
  let (key, val) := m
  match entryOf policy key with
  | none => .error s!"The member {key} is not expected"
  | some pol =>
    let expected := pol.kind.name
    let actual := val.kind.name
    if !pol.accepts val then .error s!"The member {key} is expected to be a {expected}, but is {actual}"
    else if (values.lookup key).isSome then .error s!"Duplicate member {key}"
    else .ok (values ++ [m])

def missing (policy : List Policy) (values : Members) : Option Policy :=
  policy.find? (fun pol => (values.lookup pol.key).isNone && !pol.ignored && pol.required)

/-- Take an object apart. What was seen is kept by its key, and a member that
is null is one that was seen. -/
def dissect (policy : List Policy) : Value → Except String Members
  | .obj members =>
    match members.foldlM (dissectMember policy) [] with
    | .error e => .error e
    | .ok values =>
      match missing policy values with
      | some pol =>
        let key := pol.key
        .error s!"Required member {key} not present"
      | none => .ok values
  | val =>
    let actual := val.kind.name
    .error s!"Value expected to be an object, but is {actual}"

def getUint (max : Nat) : Value → Except String UInt32
  | .int v =>
    if v < 0 ∨ v > max then .error s!"Expected uint with maximum value `{max}d', got {v}"
    else .ok (UInt32.ofNat v.toNat)
  | _ => .error "Value expected to be an integer"

def getUint32 : Value → Except String UInt32 := getUint (2 ^ 32 - 1)

def getUint32Non0 (val : Value) : Except String UInt32 :=
  match getUint32 val with
  | .error e => .error e
  | .ok v => if v = 0 then .error "Expected non-zero uint32, got 0" else .ok v

def getUint8 (val : Value) : Except String UInt8 := (getUint (2 ^ 8 - 1) val).map UInt32.toUInt8

def getBoolean : Value → Bool
  | .bool b => b
  | _ => false

def getString : Value → String
  | .str s => s
  | _ => ""

def strcpy (bufLen : Nat) (val : Value) : Except String String :=
  let str := getString val
  let len := str.utf8ByteSize
  if len ≥ bufLen then .error s!"String `{str}' too long: {len} >= {bufLen}" else .ok str

def ofUint32 (x : UInt32) : Value := .int x.toNat

def ofUint8 (x : UInt8) : Value := .int x.toNat

@[simp] theorem getUint32_ofUint32 (x : UInt32) : getUint32 (ofUint32 x) = .ok x := by
  have h := x.toNat_lt
  rw [getUint32, ofUint32, getUint, if_neg (by omega)]
  simp

theorem getUint32Non0_ofUint32 {x : UInt32} (h : x ≠ 0) : getUint32Non0 (ofUint32 x) = .ok x := by
  simp [getUint32Non0, h]

@[simp] theorem getUint8_ofUint8 (x : UInt8) : getUint8 (ofUint8 x) = .ok x := by
  have h := x.toNat_lt
  rw [getUint8, ofUint8, getUint, if_neg (by omega)]
  simp [Except.map]

theorem strcpy_str {bufLen : Nat} {s : String} (h : s.utf8ByteSize < bufLen) :
    strcpy bufLen (.str s) = .ok s := by
  simp [strcpy, getString, h]

section

variable {policy : List Policy} {fields : Fields} {key : String} {pol : Policy}

def Allows (policy : List Policy) (key : String) (field : Option Value) : Prop :=
  ∀ v, field = some v → ∃ pol, entryOf policy key = some pol ∧ pol.accepts v = true

theorem allows_some {v : Value} (hp : entryOf policy key = some pol) (hk : pol.kind = v.kind) :
    Allows policy key (some v) := by
  intro v' hv
  cases hv
  exact ⟨pol, hp, by simp [Policy.accepts, hk]⟩

theorem allows_map {α : Type} {x : Option α} {enc : α → Value} (hp : entryOf policy key = some pol)
    (hk : ∀ a, pol.kind = (enc a).kind) : Allows policy key (x.map enc) := by
  intro v hv
  obtain ⟨a, -, rfl⟩ := Option.map_eq_some_iff.mp hv
  exact allows_some hp (hk a) _ rfl

theorem allows_null (hp : entryOf policy key = some pol) (hn : pol.nullable = true) :
    Allows policy key (some .null) := by
  intro v hv
  cases hv
  exact ⟨pol, hp, by simp [Policy.accepts, hn, Value.kind]⟩

def Allowed (policy : List Policy) (fields : Fields) : Prop := ∀ f ∈ fields, Allows policy f.1 f.2

def Complete (policy : List Policy) (fields : Fields) : Prop :=
  ∀ pol ∈ policy, pol.ignored = false → pol.required = true → ∃ v, fields.lookup pol.key = some (some v)

theorem dissect_members {members values : Members} (hn : ((values ++ members).map Prod.fst).Nodup)
    (h : ∀ m ∈ members, ∃ pol, entryOf policy m.1 = some pol ∧ pol.accepts m.2 = true) :
    members.foldlM (dissectMember policy) values = .ok (values ++ members) := by
  induction members generalizing values with
  | nil => simp [pure, Except.pure]
  | cons m rest ih =>
    obtain ⟨pol, hpol, hacc⟩ := h m List.mem_cons_self
    obtain ⟨key, val⟩ := m
    have hnew : values.lookup key = none := by
      apply lookup_eq_none
      rw [List.map_append, List.map_cons] at hn
      exact fun hk => (List.nodup_append.mp hn).2.2 key hk key List.mem_cons_self rfl
    have hm : dissectMember policy values (key, val) = .ok (values ++ [(key, val)]) := by
      simp [dissectMember, hpol, hacc, hnew]
    rw [List.foldlM_cons, hm]
    have hsplit : values ++ (key, val) :: rest = values ++ [(key, val)] ++ rest := by simp
    rw [hsplit] at hn ⊢
    exact ih hn (fun m hm => h m (List.mem_cons_of_mem _ hm))

theorem dissectMember_ok {m : String × Value} {values values' : Members}
    (h : dissectMember policy values m = .ok values') :
    values' = values ++ [m] ∧ Allows policy m.1 (some m.2) := by
  obtain ⟨key, val⟩ := m
  simp only [dissectMember] at h
  split at h
  · cases h
  · rename_i pol hpol
    split_ifs at h with hacc
    cases h
    refine ⟨rfl, fun v hv => ?_⟩
    cases hv
    exact ⟨pol, hpol, by simpa using hacc⟩

theorem dissected_members {members values start : Members}
    (h : members.foldlM (dissectMember policy) start = .ok values) :
    values = start ++ members ∧ ∀ m ∈ members, Allows policy m.1 (some m.2) := by
  induction members generalizing start with
  | nil =>
    cases h
    exact ⟨(List.append_nil _).symm, fun m hm => by cases hm⟩
  | cons m rest ih =>
    rw [List.foldlM_cons] at h
    obtain ⟨next, hm, h⟩ := Lib.Program.bind_eq_ok.mp h
    obtain ⟨rfl, ha⟩ := dissectMember_ok hm
    obtain ⟨rfl, hrest⟩ := ih h
    refine ⟨by simp, fun m' hm' => ?_⟩
    rcases List.mem_cons.mp hm' with rfl | hm'
    · exact ha
    · exact hrest m' hm'

theorem dissect_allows {obj : Value} {values : Members} (h : dissect policy obj = .ok values) :
    Allows policy key (values.lookup key) := by
  cases obj with
  | obj members =>
    simp only [dissect] at h
    split at h
    · cases h
    · rename_i vals hvals
      obtain ⟨rfl, hall⟩ := dissected_members hvals
      split at h
      · cases h
      · cases h
        intro v hv
        exact hall (key, v) (mem_of_lookup hv) v rfl
  | null | bool | double | int | str | array => cases h

theorem dissect_allowed (hn : (fields.map Prod.fst).Nodup) (ha : Allowed policy fields) :
    dissect policy (.obj (build fields)) =
      match missing policy (present fields) with
      | some pol => .error ("Required member " ++ pol.key ++ " not present")
      | none => .ok (present fields) := by
  have hm : (present fields).foldlM (dissectMember policy) [] = .ok (present fields) := by
    refine @dissect_members policy (present fields) [] (present_keys.nodup hn) (fun m hm => ?_)
    exact ha (m.1, some m.2) (mem_present.mp hm) m.2 rfl
  rw [build_eq hn]
  simp only [dissect, hm]
  rfl

theorem dissect_build (hn : (fields.map Prod.fst).Nodup) (ha : Allowed policy fields)
    (hc : Complete policy fields) :
    dissect policy (.obj (build fields)) = .ok (present fields) := by
  have hmiss : missing policy (present fields) = none := by
    refine List.find?_eq_none.mpr (fun pol hpol h => ?_)
    simp only [Bool.and_eq_true, Bool.not_eq_true', Option.isNone_iff_eq_none] at h
    obtain ⟨v, hv⟩ := hc pol hpol h.1.2 h.2
    rw [lookup_present hn, hv] at h
    cases h.1.1
  rw [dissect_allowed hn ha, hmiss]

end

end Bbdd.Jrpc
