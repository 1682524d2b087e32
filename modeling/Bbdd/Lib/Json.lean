import Mathlib.Data.List.Nodup

namespace Bbdd.Lib.Json

/-- A JSON value. The members of an object are in the order in which they were
added to it. -/
inductive Value
  | null
  | bool (b : Bool)
  | double (text : String)
  | int (n : Int)
  | str (s : String)
  | array (elems : List Value)
  | obj (members : List (String × Value))

inductive Kind
  | null
  | boolean
  | double
  | int
  | object
  | array
  | string
  deriving DecidableEq, Repr

def Value.kind : Value → Kind
  | .null => .null
  | .bool _ => .boolean
  | .double _ => .double
  | .int _ => .int
  | .str _ => .string
  | .array _ => .array
  | .obj _ => .object

def Kind.name : Kind → String
  | .null => "null"
  | .boolean => "boolean"
  | .double => "double"
  | .int => "int"
  | .object => "object"
  | .array => "array"
  | .string => "string"

abbrev Members := List (String × Value)

/-- Add a member. It replaces a member with the same key. -/
def Members.add (key : String) (value : Value) : Members → Members
  | [] => [(key, value)]
  | m :: rest => if m.1 = key then (key, value) :: rest else m :: add key value rest

abbrev Fields := List (String × Option Value)

def build (fields : Fields) : Members :=
  fields.foldl (fun members f => match f.2 with | none => members | some v => members.add f.1 v) []

def present (fields : Fields) : Members := fields.filterMap fun f => f.2.map (f.1, ·)

section

variable {fields : Fields} {key : String} {value : Value}

theorem Members.add_new {members : Members} (h : key ∉ members.map Prod.fst) :
    members.add key value = members ++ [(key, value)] := by
  induction members with
  | nil => rfl
  | cons m rest ih =>
    rw [List.map_cons, List.mem_cons, not_or] at h
    rw [Members.add, if_neg (Ne.symm h.1), ih h.2]
    rfl

theorem mem_present : (key, value) ∈ present fields ↔ (key, some value) ∈ fields := by
  simp only [present, List.mem_filterMap, Option.map_eq_some_iff, Prod.mk.injEq]
  constructor
  · rintro ⟨⟨k, v⟩, hm, w, hv, rfl, rfl⟩
    exact hv ▸ hm
  · intro h
    exact ⟨_, h, value, rfl, rfl, rfl⟩

theorem present_keys : ((present fields).map Prod.fst).Sublist (fields.map Prod.fst) := by
  induction fields with
  | nil => exact .slnil
  | cons f rest ih =>
    obtain ⟨k, v⟩ := f
    cases v with
    | none => exact ih.cons _
    | some v => exact ih.cons_cons _

theorem build_eq (h : (fields.map Prod.fst).Nodup) : build fields = present fields := by
  -- along the fold, what was added comes from the fields already gone by
  have step : ∀ (todo done : Fields), ((done ++ todo).map Prod.fst).Nodup →
      todo.foldl (fun members f => match f.2 with | none => members | some v => members.add f.1 v)
        (present done) =
        present (done ++ todo) := by
    intro todo
    induction todo with
    | nil => intro done _; rw [List.append_nil]; rfl
    | cons f rest ih =>
      intro done hn
      obtain ⟨k, v⟩ := f
      have hsplit : done ++ (k, v) :: rest = done ++ [(k, v)] ++ rest := by simp
      have hnew : k ∉ (present done).map Prod.fst := by
        intro hk
        have hk' : k ∈ done.map Prod.fst := present_keys.subset hk
        rw [List.map_append, List.map_cons] at hn
        exact (List.nodup_append.mp hn).2.2 k hk' k List.mem_cons_self rfl
      rw [hsplit, ← ih (done ++ [(k, v)]) (hsplit ▸ hn), List.foldl_cons]
      congr 1
      cases v with
      | none => simp [present]
      | some v =>
        change (present done).add k v = _
        rw [Members.add_new hnew]
        simp [present]
  exact step fields [] h

theorem lookup_eq_none {members : Members} (h : key ∉ members.map Prod.fst) :
    members.lookup key = none := by
  induction members with
  | nil => rfl
  | cons m rest ih =>
    obtain ⟨k, v⟩ := m
    rw [List.map_cons, List.mem_cons, not_or] at h
    simp only [List.lookup_cons, beq_eq_false_iff_ne.mpr h.1]
    exact ih h.2

theorem mem_of_lookup {members : Members} (h : members.lookup key = some value) :
    (key, value) ∈ members := by
  induction members with
  | nil => cases h
  | cons m rest ih =>
    obtain ⟨k, v⟩ := m
    by_cases he : key = k
    · simp only [List.lookup_cons, he, beq_self_eq_true, Option.some.injEq] at h
      rw [he, h]
      exact List.mem_cons_self
    · simp only [List.lookup_cons, beq_eq_false_iff_ne.mpr he] at h
      exact List.mem_cons_of_mem _ (ih h)

theorem lookup_eq_some_iff {members : Members} (hn : (members.map Prod.fst).Nodup) :
    members.lookup key = some value ↔ (key, value) ∈ members := by
  refine ⟨mem_of_lookup, fun hm => ?_⟩
  induction members with
  | nil => cases hm
  | cons m rest ih =>
    obtain ⟨k, v⟩ := m
    obtain ⟨hk, hrest⟩ := List.nodup_cons.mp hn
    rcases List.mem_cons.mp hm with he | hm
    · cases he
      simp
    · have hne : key ≠ k := fun he => hk (List.mem_map.mpr ⟨(key, value), hm, he⟩)
      simp only [List.lookup_cons, beq_eq_false_iff_ne.mpr hne]
      exact ih hrest hm

theorem lookup_perm {members members' : Members} (h : members.Perm members')
    (hn : (members.map Prod.fst).Nodup) :
    members.lookup key = members'.lookup key := by
  have hn' : (members'.map Prod.fst).Nodup := (h.map Prod.fst).nodup hn
  ext v
  rw [lookup_eq_some_iff hn, lookup_eq_some_iff hn']
  exact h.mem_iff

theorem lookup_present (hn : (fields.map Prod.fst).Nodup) :
    (present fields).lookup key = (fields.lookup key).join := by
  induction fields with
  | nil => rfl
  | cons f rest ih =>
    obtain ⟨k, v⟩ := f
    obtain ⟨hk, hrest⟩ := List.nodup_cons.mp hn
    by_cases he : key = k
    · subst he
      cases v with
      | none =>
        have hnone : (present rest).lookup key = none := lookup_eq_none (fun h => hk (present_keys.subset h))
        simpa [present, List.lookup_cons] using hnone
      | some v => simp [present]
    · have hne : (key == k) = false := beq_eq_false_iff_ne.mpr he
      cases v with
      | none =>
        simp only [List.lookup_cons, hne]
        exact ih hrest
      | some v =>
        change List.lookup key ((k, v) :: present rest) = _
        simp only [List.lookup_cons, hne]
        exact ih hrest

end

end Bbdd.Lib.Json
