import Bbdd.Jrpc

namespace Bbdd.Jrpc

open Lib.Json

/-- `seen[i]` and `values[i]` for the entry `policy[i]`. The null value is also
what `values[i]` starts as. -/
structure Slot where
  seen : Bool
  value : Value

def Slot.unseen : Slot := ⟨false, .null⟩

/-- The walk over a policy and its arrays for one member. It ends at the first
entry that is for the key, and there is no such entry if it gives nothing. -/
def scan (key : String) (val : Value) : List Policy → List Slot → Except String (Option (List Slot))
  | pol :: policy, slot :: slots =>
    if !pol.ignored && key = pol.key then
      let expected := pol.kind.name
      let actual := val.kind.name
      if !pol.accepts val then .error s!"The member {key} is expected to be a {expected}, but is {actual}"
      else if slot.seen then .error s!"Duplicate member {key}"
      else .ok (some (⟨true, val⟩ :: slots))
    else (scan key val policy slots).map (fun found => found.map (slot :: ·))
  | _, _ => .ok none

def scanMember (policy : List Policy) (slots : List Slot) (m : String × Value) :
    Except String (List Slot) :=
  let (key, val) := m
  match scan key val policy slots with
  | .error e => .error e
  | .ok none => .error s!"The member {key} is not expected"
  | .ok (some slots) => .ok slots

/-- `bbdd_jrpc_dissect` with its two arrays, one element for each entry of the
policy. -/
def dissectArrays (policy : List Policy) : Value → Except String (List Slot)
  | .obj members =>
    match members.foldlM (scanMember policy) (policy.map fun _ => Slot.unseen) with
    | .error e => .error e
    | .ok slots =>
      match (policy.zip slots).find? (fun p => !p.2.seen && !p.1.ignored && p.1.required) with
      | some p =>
        let key := p.1.key
        .error s!"Required member {key} not present"
      | none => .ok slots
  | val =>
    let actual := val.kind.name
    .error s!"Value expected to be an object, but is {actual}"

def found (members : Members) (pol : Policy) : Slot :=
  ⟨(members.lookup pol.key).isSome, (members.lookup pol.key).getD .null⟩

structure Meets (policy : List Policy) (members : Members) : Prop where
  expected : ∀ m ∈ members, ∃ pol ∈ policy, pol.ignored = false ∧ pol.key = m.1 ∧
    (pol.kind = m.2.kind ∨ pol.anyType = true ∨ (pol.nullable = true ∧ m.2.kind = .null))
  complete : ∀ pol ∈ policy, pol.ignored = false → pol.required = true → ∃ v, (pol.key, v) ∈ members

def Keyed (obj : Value) : Prop := ∀ members, obj = .obj members → (members.map Prod.fst).Nodup

def Reordered (obj obj' : Value) : Prop :=
  obj = obj' ∨ ∃ members members', obj = .obj members ∧ obj' = .obj members' ∧ members.Perm members'

section

variable {policy : List Policy} {members values : Members} {key : String} {val : Value} {pol : Policy}

theorem Policy.accepts_iff : pol.accepts val = true ↔
    (pol.kind = val.kind ∨ pol.anyType = true ∨ (pol.nullable = true ∧ val.kind = .null)) := by
  simp only [Policy.accepts, Bool.or_eq_true, Bool.and_eq_true, decide_eq_true_eq]
  tauto

theorem lookup_snoc (members : Members) (k key : String) (val : Value) :
    (members ++ [(key, val)]).lookup k = (members.lookup k).or (if k = key then some val else none) := by
  induction members with
  | nil =>
    by_cases hk : k = key
    · simp [hk]
    · simp [List.lookup_cons, hk, beq_eq_false_iff_ne.mpr hk]
  | cons m rest ih =>
    obtain ⟨k', v⟩ := m
    by_cases hk : k = k'
    · simp [hk]
    · simp only [List.cons_append, List.lookup_cons, beq_eq_false_iff_ne.mpr hk]
      exact ih

theorem found_other (h : pol.key ≠ key) : found (values ++ [(key, val)]) pol = found values pol := by
  simp [found, lookup_snoc, h]

theorem found_new (h : values.lookup pol.key = none) :
    found (values ++ [(pol.key, val)]) pol = ⟨true, val⟩ := by
  simp [found, lookup_snoc, h]

theorem map_found_other (h : key ∉ policy.map Policy.key) :
    policy.map (found (values ++ [(key, val)])) = policy.map (found values) := by
  apply List.map_congr_left
  intro pol hpol
  apply found_other
  intro he
  exact h (List.mem_map.mpr ⟨pol, hpol, he⟩)

theorem entryOf_eq_some : entryOf policy key = some pol →
    pol ∈ policy ∧ pol.ignored = false ∧ pol.key = key := by
  intro h
  have hp := List.find?_some h
  simp only [Bool.and_eq_true, Bool.not_eq_true', decide_eq_true_eq] at hp
  exact ⟨List.mem_of_find?_eq_some h, hp⟩

theorem entryOf_of_mem (hp : (policy.map Policy.key).Nodup) (hm : pol ∈ policy) (hi : pol.ignored = false) :
    entryOf policy pol.key = some pol := by
  induction policy with
  | nil => cases hm
  | cons p rest ih =>
    obtain ⟨hk, hrest⟩ := List.nodup_cons.mp hp
    rcases List.mem_cons.mp hm with rfl | hm
    · simp [entryOf, hi]
    · have hne : p.key ≠ pol.key := fun he => hk (List.mem_map.mpr ⟨pol, hm, he.symm⟩)
      have hskip : entryOf (p :: rest) pol.key = entryOf rest pol.key := by simp [entryOf, hne]
      rw [hskip]
      exact ih hrest hm

theorem scan_found (hp : (policy.map Policy.key).Nodup) (key : String) (val : Value) (values : Members) :
    scan key val policy (policy.map (found values)) =
      match entryOf policy key with
      | none => .ok none
      | some pol =>
        if !pol.accepts val then
          .error s!"The member {key} is expected to be a {pol.kind.name}, but is {val.kind.name}"
        else if (values.lookup key).isSome then .error s!"Duplicate member {key}"
        else .ok (some (policy.map (found (values ++ [(key, val)])))) := by
  induction policy with
  | nil => rfl
  | cons p rest ih =>
    obtain ⟨hk, hrest⟩ := List.nodup_cons.mp hp
    by_cases he : p.ignored = false ∧ key = p.key
    · obtain ⟨hi, rfl⟩ := he
      have hentry : entryOf (p :: rest) p.key = some p := by simp [entryOf, hi]
      rw [hentry]
      simp only [List.map_cons, scan, hi, Bool.not_false, Bool.true_and, decide_true, if_true]
      by_cases hacc : p.accepts val = true
      · by_cases hseen : (values.lookup p.key).isSome = true
        · simp [hacc, hseen, found]
        · have hnone : values.lookup p.key = none := Option.not_isSome_iff_eq_none.mp hseen
          have hfree : (found values p).seen = false := by simp [found, hnone]
          simp [hacc, hnone, hfree, found_new hnone, map_found_other hk]
      · simp [hacc]
    · have hcond : (!p.ignored && decide (key = p.key)) = false := by
        cases hi : p.ignored <;> simp_all
      have hentry : entryOf (p :: rest) key = entryOf rest key := by
        have hcond' : (!p.ignored && decide (p.key = key)) = false := by
          rw [← hcond]
          congr 2
          exact propext eq_comm
        simp [entryOf, hcond']
      rw [List.map_cons, scan, hcond, hentry, ih hrest]
      cases hrestEntry : entryOf rest key with
      | none => rfl
      | some pol =>
        -- the entry is further on, so this one is for another key
        obtain ⟨hm, -, hkey⟩ := entryOf_eq_some hrestEntry
        have hne : p.key ≠ key := by
          intro hsame
          exact hk (List.mem_map.mpr ⟨pol, hm, hkey.trans hsame.symm⟩)
        simp only [List.map_cons, found_other hne, Bool.false_eq_true, if_false]
        split_ifs <;> rfl

theorem scanMember_found (hp : (policy.map Policy.key).Nodup) (m : String × Value) (values : Members) :
    scanMember policy (policy.map (found values)) m =
      (dissectMember policy values m).map fun values => policy.map (found values) := by
  obtain ⟨key, val⟩ := m
  simp only [scanMember, dissectMember, scan_found hp]
  cases entryOf policy key with
  | none => rfl
  | some pol =>
    dsimp only
    split_ifs <;> rfl

theorem scanMembers_found (hp : (policy.map Policy.key).Nodup) (members values : Members) :
    members.foldlM (scanMember policy) (policy.map (found values)) =
      (members.foldlM (dissectMember policy) values).map fun values => policy.map (found values) := by
  induction members generalizing values with
  | nil => rfl
  | cons m rest ih =>
    rw [List.foldlM_cons, List.foldlM_cons, scanMember_found hp]
    cases dissectMember policy values m with
    | error e => rfl
    | ok next => exact ih next

theorem missing_found (policy : List Policy) (values : Members) :
    (policy.zip (policy.map (found values))).find? (fun p => !p.2.seen && !p.1.ignored && p.1.required) =
      (missing policy values).map fun pol => (pol, found values pol) := by
  induction policy with
  | nil => rfl
  | cons p rest ih =>
    simp only [List.map_cons, List.zip_cons_cons, List.find?_cons, missing, found, Option.not_isSome]
    cases ((values.lookup p.key).isNone && !p.ignored && p.required) with
    | true => rfl
    | false => exact ih

theorem dissectArrays_eq (hp : (policy.map Policy.key).Nodup) (obj : Value) :
    dissectArrays policy obj = (dissect policy obj).map fun values => policy.map (found values) := by
  cases obj with
  | obj members =>
    have hstart : (policy.map fun _ => Slot.unseen) = policy.map (found []) := rfl
    simp only [dissectArrays, dissect, hstart, scanMembers_found hp]
    cases members.foldlM (dissectMember policy) [] with
    | error e => rfl
    | ok values =>
      simp only [Except.map, missing_found]
      cases missing policy values <;> rfl
  | null | bool | double | int | str | array => rfl

theorem missing_eq_none (hn : (members.map Prod.fst).Nodup) : missing policy members = none ↔
    ∀ pol ∈ policy, pol.ignored = false → pol.required = true → ∃ v, (pol.key, v) ∈ members := by
  simp only [missing, List.find?_eq_none, Bool.and_eq_true, Bool.not_eq_true',
    Option.isNone_iff_eq_none, not_and]
  constructor
  · intro h pol hpol hi hr
    cases hl : members.lookup pol.key with
    | some v => exact ⟨v, mem_of_lookup hl⟩
    | none => exact absurd hr (h pol hpol ⟨hl, hi⟩)
  · rintro h pol hpol ⟨hl, hi⟩ hr
    obtain ⟨v, hv⟩ := h pol hpol hi hr
    rw [(lookup_eq_some_iff hn).mpr hv] at hl
    cases hl

theorem dissect_eq_ok (hp : (policy.map Policy.key).Nodup) (hn : (members.map Prod.fst).Nodup) :
    dissect policy (.obj members) = .ok values ↔ Meets policy members ∧ values = members := by
  constructor
  · intro h
    simp only [dissect] at h
    split at h
    · cases h
    · rename_i kept hkept
      obtain ⟨rfl, hall⟩ := dissected_members hkept
      split at h
      · cases h
      · rename_i hmiss
        cases h
        refine ⟨⟨fun m hm => ?_, (missing_eq_none hn).mp hmiss⟩, rfl⟩
        obtain ⟨pol, hpol, hacc⟩ := hall m hm m.2 rfl
        obtain ⟨hmem, hi, hk⟩ := entryOf_eq_some hpol
        exact ⟨pol, hmem, hi, hk, Policy.accepts_iff.mp hacc⟩
  · rintro ⟨hmeets, rfl⟩
    have hkept : values.foldlM (dissectMember policy) [] = .ok values := by
      apply @dissect_members policy values [] hn
      intro m hm
      obtain ⟨pol, hmem, hi, hk, hacc⟩ := hmeets.expected m hm
      exact ⟨pol, hk ▸ entryOf_of_mem hp hmem hi, Policy.accepts_iff.mpr hacc⟩
    simp only [dissect, hkept, (missing_eq_none hn).mpr hmeets.complete]

theorem dissectArrays_eq_ok (hp : (policy.map Policy.key).Nodup)
    (hn : (members.map Prod.fst).Nodup) {slots : List Slot} :
    dissectArrays policy (.obj members) = .ok slots ↔ Meets policy members ∧ slots = policy.map
      (found members) := by
  rw [dissectArrays_eq hp]
  constructor
  · intro h
    cases hd : dissect policy (.obj members) with
    | error e => simp [hd, Except.map] at h
    | ok values =>
      obtain ⟨hmeets, rfl⟩ := (dissect_eq_ok hp hn).mp hd
      simp only [hd, Except.map, Except.ok.injEq] at h
      exact ⟨hmeets, h.symm⟩
  · rintro ⟨hmeets, rfl⟩
    rw [(dissect_eq_ok hp hn).mpr ⟨hmeets, rfl⟩]
    rfl

theorem Meets.perm {policy' : List Policy} {members' : Members} (h : Meets policy members)
    (hm : members.Perm members') (hp : policy.Perm policy') : Meets policy' members' := by
  constructor
  · intro m hmem
    obtain ⟨pol, hpol, hrest⟩ := h.expected m (hm.mem_iff.mpr hmem)
    exact ⟨pol, hp.mem_iff.mp hpol, hrest⟩
  · intro pol hpol hi hr
    obtain ⟨v, hv⟩ := h.complete pol (hp.mem_iff.mpr hpol) hi hr
    exact ⟨v, hm.mem_iff.mp hv⟩

theorem found_of_mem (hn : (members.map Prod.fst).Nodup) (h : (pol.key, val) ∈ members) :
    found members pol = ⟨true, val⟩ := by
  simp [found, (lookup_eq_some_iff hn).mpr h]

theorem found_seen (hn : (members.map Prod.fst).Nodup) :
    (found members pol).seen = true ↔ pol.key ∈ members.map Prod.fst := by
  constructor
  · intro h
    obtain ⟨v, hv⟩ := Option.isSome_iff_exists.mp h
    exact List.mem_map.mpr ⟨_, mem_of_lookup hv, rfl⟩
  · intro h
    obtain ⟨⟨k, v⟩, hm, hk⟩ := List.mem_map.mp h
    have hsome := (lookup_eq_some_iff hn).mpr hm
    simp [found, ← hk, hsome]

theorem dissectArrays_obj {obj : Value} {slots : List Slot} (h : dissectArrays policy obj = .ok slots) :
    ∃ members, obj = .obj members := by
  cases obj with
  | obj members => exact ⟨members, rfl⟩
  | null | bool | double | int | str | array => cases h

theorem Reordered.symm {obj obj' : Value} (h : Reordered obj obj') : Reordered obj' obj := by
  rcases h with rfl | ⟨members, members', rfl, rfl, hm⟩
  · exact .inl rfl
  · exact .inr ⟨members', members, rfl, rfl, hm.symm⟩

theorem Reordered.obj {obj : Value} (h : Reordered (.obj members) obj) :
    ∃ members', obj = .obj members' ∧ members.Perm members' := by
  rcases h with rfl | ⟨_, members', he, rfl, hm⟩
  · exact ⟨members, rfl, .refl _⟩
  · cases he
    exact ⟨members', rfl, hm⟩

theorem Keyed.reordered {obj obj' : Value} (h : Keyed obj) (hr : Reordered obj obj') : Keyed obj' := by
  rcases hr with rfl | ⟨members, members', rfl, rfl, hm⟩
  · exact h
  · intro _ he
    cases he
    exact (hm.map Prod.fst).nodup (h members rfl)

theorem dissectArrays_perm {policy' : List Policy} {obj obj' : Value} {slots : List Slot}
    (hp : (policy.map Policy.key).Nodup) (hobj : Keyed obj) (hpol : policy.Perm policy')
    (hr : Reordered obj obj') (h : dissectArrays policy obj = .ok slots) :
    ∃ slots', dissectArrays policy' obj' = .ok slots' ∧ (policy.zip slots).Perm (policy'.zip slots') := by
  obtain ⟨members, rfl⟩ := dissectArrays_obj h
  obtain ⟨members', rfl, hm⟩ := hr.obj
  have hn : (members.map Prod.fst).Nodup := hobj members rfl
  have hn' : (members'.map Prod.fst).Nodup := (hm.map Prod.fst).nodup hn
  have hp' : (policy'.map Policy.key).Nodup := (hpol.map Policy.key).nodup hp
  obtain ⟨hmeets, rfl⟩ := (dissectArrays_eq_ok hp hn).mp h
  refine ⟨policy'.map (found members'), (dissectArrays_eq_ok hp' hn').mpr ⟨hmeets.perm hm hpol, rfl⟩, ?_⟩
  have hsame : found members' = found members := by
    funext pol
    simp only [found, lookup_perm hm hn]
  rw [hsame, ← List.map_prod_left_eq_zip, ← List.map_prod_left_eq_zip]
  exact hpol.map _

/-- Dissecting by a policy accepts just the objects that meet it, leaves in the
arrays just what the object has, and does not look at any order. -/
theorem dissect_exact (hp : (policy.map Policy.key).Nodup) {obj : Value} (hobj : Keyed obj) :
    ((∃ slots, dissectArrays policy obj = .ok slots) ↔ ∃ members, obj = .obj members ∧ Meets policy members) ∧
    (∀ slots members, dissectArrays policy obj = .ok slots → obj = .obj members → slots.length = policy.length ∧
      ∀ i, ∀ (hi : i < policy.length) (hs : i < slots.length),
        (slots[i].seen = true ↔ policy[i].key ∈ members.map Prod.fst) ∧
        ∀ v, (policy[i].key, v) ∈ members → slots[i].value = v) ∧
    ∀ policy' obj', policy.Perm policy' → Reordered obj obj' →
      ((∃ slots, dissectArrays policy obj = .ok slots) ↔ ∃ slots', dissectArrays policy' obj' = .ok slots') ∧
      ∀ slots slots', dissectArrays policy obj = .ok slots → dissectArrays policy' obj' = .ok slots' →
        (policy.zip slots).Perm (policy'.zip slots') := by
  refine ⟨⟨?_, ?_⟩, ?_, ?_⟩
  · rintro ⟨slots, h⟩
    obtain ⟨members, rfl⟩ := dissectArrays_obj h
    exact ⟨members, rfl, ((dissectArrays_eq_ok hp (hobj members rfl)).mp h).1⟩
  · rintro ⟨members, rfl, hmeets⟩
    exact ⟨_, (dissectArrays_eq_ok hp (hobj members rfl)).mpr ⟨hmeets, rfl⟩⟩
  · rintro slots members h rfl
    have hn : (members.map Prod.fst).Nodup := hobj members rfl
    obtain ⟨-, rfl⟩ := (dissectArrays_eq_ok hp hn).mp h
    refine ⟨List.length_map _, fun i hi hs => ?_⟩
    rw [List.getElem_map]
    exact ⟨found_seen hn, fun v hv => by rw [found_of_mem hn hv]⟩
  · intro policy' obj' hpol hr
    have hp' : (policy'.map Policy.key).Nodup := (hpol.map Policy.key).nodup hp
    have hobj' : Keyed obj' := hobj.reordered hr
    refine ⟨⟨?_, ?_⟩, ?_⟩
    · rintro ⟨slots, h⟩
      obtain ⟨slots', h', -⟩ := dissectArrays_perm hp hobj hpol hr h
      exact ⟨slots', h'⟩
    · rintro ⟨slots', h'⟩
      obtain ⟨slots, h, -⟩ := dissectArrays_perm hp' hobj' hpol.symm hr.symm h'
      exact ⟨slots, h⟩
    · intro slots slots' h h'
      obtain ⟨other, hother, hperm⟩ := dissectArrays_perm hp hobj hpol hr h
      obtain rfl : other = slots' := by
        rw [h'] at hother
        exact (Except.ok.inj hother).symm
      exact hperm

def samplePolicy : List Policy :=
  [{ key := "id", kind := .int, anyType := true },
    { key := "name", kind := .string, nullable := true, required := true },
    { key := "params", kind := .object, ignored := true }, { key := "ttl", kind := .int }]

theorem dissect_exact_sample : ∃ slots, dissectArrays samplePolicy
    (.obj [("name", .null), ("id", .str "x")]) = .ok slots := by
  have hkeyed : Keyed (.obj [("name", .null), ("id", .str "x")]) := by
    intro members h
    cases h
    decide
  apply (@dissect_exact samplePolicy (by decide) _ hkeyed).1.mpr
  refine ⟨_, rfl, ?_, ?_⟩
  · simp only [List.forall_mem_cons]
    exact ⟨⟨samplePolicy[1], by simp [samplePolicy], rfl, rfl, .inr (.inr ⟨rfl, rfl⟩)⟩,
      ⟨samplePolicy[0], by simp [samplePolicy], rfl, rfl, .inr (.inl rfl)⟩, nofun⟩
  · simp [samplePolicy]

end

end Bbdd.Jrpc
