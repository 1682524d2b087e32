import Bbdd.Client.CommandLine

namespace Bbdd.Client

open Lib.Reading Daemon Session

def PlainNetif (netif : CNetif) : Prop :=
  PlainName netif.unset netif.name ∧ (netif.unset = true → netif.ifindex = none)

def Key.Neat : (k : Key) → k.Slot → Prop
  | .name => fun str => PlainName str.unset str.val
  | .src | .dst => PlainAddr
  | .netif | .vrf => PlainNetif
  | _ => fun _ => True

def Params.Neat (p : Params) : Prop := ∀ k : Key, k.Neat (p.get k)

section

variable {α τ : Type} {found : Except Stop (Option (α × List String))} {next : α → Except Stop τ}
    {t : τ} {rest ws : List String}
  {kw word : String} {seen : Bool} {parser : String → String → Except String α} {a : α} {e : Stop}

theorem thenCheck_some (h : thenCheck found next = .ok (some (t, rest))) :
    ∃ a, found = .ok (some (a, rest)) ∧ next a = .ok t := by
  rcases found with e | _ | ⟨a, ws⟩
  · cases h
  · cases h
  · simp only [thenCheck] at h
    split at h
    · cases h
    · rename_i t' ht
      cases h
      exact ⟨a, rfl, ht⟩

theorem thenCheck_error (h : thenCheck found next = .error e) :
    found = .error e ∨ ∃ a rest, found = .ok (some (a, rest)) ∧ next a = .error e := by
  rcases found with e' | _ | ⟨a, ws⟩
  · exact .inl (congrArg _ (Except.error.inj h))
  · cases h
  · simp only [thenCheck] at h
    split at h
    · rename_i e' he
      cases h
      exact .inr ⟨a, ws, rfl, he⟩
    · cases h

theorem parseKw_some (h : parseKw kw seen parser ws = .ok (some (a, rest))) :
    ∃ arg, ws = kw :: arg :: rest ∧ parser arg kw = .ok a := by
  rcases ws with _ | ⟨word, _ | ⟨arg, ws⟩⟩
  · cases h
  · simp only [parseKw] at h
    split_ifs at h
    cases h
  · simp only [parseKw] at h
    split_ifs at h with hw hs
    · cases h
    · cases hp : parser arg kw with
      | error e =>
        rw [hp] at h
        cases h
      | ok b =>
        rw [hp] at h
        cases h
        exact ⟨arg, by rw [not_not.mp hw], hp⟩

theorem parseKw_ne_none (h : ws.head? = some kw) : parseKw kw seen parser ws ≠ .ok none := by
  rcases ws with _ | ⟨word, _ | ⟨arg, ws⟩⟩
  · cases h
  · cases h
    simp only [parseKw]
    split_ifs <;> simp_all
  · cases h
    simp only [parseKw]
    split_ifs
    · simp_all
    · simp
    · split <;> simp

theorem parseKw_sound : parseKw kw seen parser ws ≠ .error .abort := by
  rcases ws with _ | ⟨word, _ | ⟨arg, ws⟩⟩
  · simp [parseKw]
  · simp only [parseKw]
    split_ifs <;> simp [incomplete]
  · simp only [parseKw]
    split_ifs
    · simp
    · simp
    · split <;> simp

theorem kwFlagHere_some {value b : Bool} {first : String} {tail : List String}
    (h : kwFlagHere kw seen value first tail = .ok (some (b, rest))) :
    seen = false ∧ first = kw ∧ b = value ∧ rest = tail := by
  simp only [kwFlagHere] at h
  split_ifs at h with hw hs
  · cases h
  · cases h
    exact ⟨(Bool.not_eq_true _).mp hs, not_not.mp hw, rfl, rfl⟩

theorem kwFlagHere_sound {value : Bool} {first : String} {tail : List String} :
    kwFlagHere kw seen value first tail ≠ .error .abort := by
  simp only [kwFlagHere]
  split_ifs <;> simp

theorem parseKwFlag_of_ne {tail : List String} (h : word ≠ "no") :
    parseKwFlag kw seen (word :: tail) = kwFlagHere kw seen true word tail := by
  cases tail <;> simp [parseKwFlag, h]

theorem parseKwFlag_some {b : Bool} (h : parseKwFlag kw seen ws = .ok (some (b, rest))) :
    seen = false ∧ (b = true → ws.head? = some kw) ∧ rest.length < ws.length := by
  rcases ws with _ | ⟨word, tail⟩
  · cases h
  · by_cases hw : word = "no"
    · subst hw
      rcases tail with _ | ⟨next, tail⟩
      · cases h
      · obtain ⟨hs, -, rfl, rfl⟩ := kwFlagHere_some (show kwFlagHere kw seen false next tail = _ from h)
        exact ⟨hs, fun hb => absurd hb Bool.false_ne_true, by simp only [List.length_cons]; omega⟩
    · rw [parseKwFlag_of_ne hw] at h
      obtain ⟨hs, rfl, rfl, rfl⟩ := kwFlagHere_some h
      exact ⟨hs, fun _ => rfl, Nat.lt_succ_self _⟩

theorem parseKwFlag_sound : parseKwFlag kw seen ws ≠ .error .abort := by
  rcases ws with _ | ⟨first, _ | ⟨next, tail⟩⟩
  · simp [parseKwFlag]
  · simp only [parseKwFlag]
    split_ifs
    · simp [incomplete]
    · exact kwFlagHere_sound
  · simp only [parseKwFlag]
    split_ifs <;> exact kwFlagHere_sound

theorem given_speaks (h : thenCheck (parseKw kw seen parser ws) next = .ok none) : ws.head? ≠ some kw := by
  intro hhead
  rcases hk : parseKw kw seen parser ws with e | _ | r
  · rw [hk] at h
    cases h
  · exact parseKw_ne_none hhead hk
  · rw [hk, thenCheck] at h
    split at h <;> cases h

end

section

variable {α τ : Type} {cond : τ → List String → Prop} {neat : τ → Prop} {kw : String}
    {parser : String → String → Except String α}
  {seen : τ → Bool}

theorem given_keeps {next : τ → α → Except Stop τ}
    (hnext : ∀ s s' arg a, neat s → parser arg kw = .ok a → next s a = .ok s' → neat s')
    (hsafe : ∀ s a, next s a ≠ .error .abort) :
    Keeps cond neat .abort fun s ws => thenCheck (parseKw kw (seen s) parser ws) (next s) where
  step := by
    intro s s' ws rest _ hs h
    obtain ⟨a, hfound, hn⟩ := thenCheck_some h
    obtain ⟨arg, rfl, harg⟩ := parseKw_some hfound
    exact ⟨hnext s s' arg a hs harg hn, by simp only [List.length_cons]; omega⟩
  safe := by
    intro s ws _ h
    obtain h | ⟨a, rest, -, h⟩ := thenCheck_error h
    · exact parseKw_sound h
    · exact hsafe s a h

theorem flag_keeps {next : τ → Bool → Except Stop τ}
    (hnext : ∀ s s' b, neat s → seen s = false → next s b = .ok s' → neat s')
    (hsafe : ∀ s ws b, cond s ws → (b = true → ws.head? = some kw) → next s b ≠ .error .abort) :
    Keeps cond neat .abort fun s ws => thenCheck (parseKwFlag kw (seen s) ws) (next s) where
  step := by
    intro s s' ws rest _ hs h
    obtain ⟨b, hfound, hn⟩ := thenCheck_some h
    obtain ⟨hseen, -, hlen⟩ := parseKwFlag_some hfound
    exact ⟨hnext s s' b hs hseen hn, hlen⟩
  safe := by
    intro s ws hc h
    obtain h | ⟨b, rest, hfound, h⟩ := thenCheck_error h
    · exact parseKwFlag_sound h
    · exact hsafe s ws b hc (parseKwFlag_some hfound).2.1 h

theorem given_unless_keeps {unset : τ → Bool} {flagKw : String} {put : τ → α → τ}
    (hput : ∀ s arg a, neat s → unset s = false → parser arg kw = .ok a → neat (put s a)) :
    Keeps cond neat .abort fun s ws => thenCheck (parseKw kw (seen s) parser ws) fun a =>
      if unset s then .error (alreadyUnset kw flagKw) else .ok (put s a) := by
  apply given_keeps
  · intro s s' arg a hs harg h
    split_ifs at h with hu
    cases h
    exact hput s arg a hs ((Bool.not_eq_true _).mp hu) harg
  · intro s a
    split_ifs <;> simp [alreadyUnset]

theorem negated_keeps {put : τ → τ} (hcond : ∀ s ws, cond s ws → ws.head? ≠ some kw)
    (hput : ∀ s, neat s → seen s = false → neat (put s)) :
    Keeps cond neat .abort fun s ws => thenCheck (parseKwFlag kw (seen s) ws) fun value =>
      if value then .error .abort else .ok (put s) := by
  apply flag_keeps
  · intro s s' b hs hseen h
    split_ifs at h
    cases h
    exact hput s hs hseen
  · intro s ws b hc hb
    cases b with
    | true => exact absurd (hb rfl) (hcond s ws hc)
    | false => exact fun h => by cases h

theorem kwValue_keeps {cond : Option α → List String → Prop} :
    Keeps cond (fun _ => True) .abort (kwValue kw parser) :=
  given_keeps (fun _ _ _ _ _ _ _ => trivial) fun _ _ h => by cases h

theorem kwFlag_keeps {cond : Option Bool → List String → Prop} :
    Keeps cond (fun _ => True) .abort (kwFlag kw) :=
  flag_keeps (fun _ _ _ _ _ _ => trivial) fun _ _ _ _ _ h => by cases h

end

section

variable {L : Libc} {kw : String}

theorem parseKwU32No_keeps : Keeps (fun _ _ => True) (fun _ => True) .abort (parseKwU32No L kw) :=
  kwValue_keeps.orElse (negated_keeps (fun _ _ hc => given_speaks hc.2) fun _ _ _ => trivial)

theorem parseIfname_ok {str what name : String} (h : parseIfname str what = .ok name) :
    name.utf8ByteSize < ifNameSize := by
  rw [parseIfname] at h
  split_ifs at h with hlen
  cases h
  exact Nat.lt_of_not_le hlen

theorem plainName_none (unset : Bool) : PlainName unset none := ⟨fun _ => rfl, fun _ h => by cases h⟩

theorem plainName_some {unset : Bool} {name : String} (hu : unset = false)
    (h : name.utf8ByteSize < ifNameSize) :
    PlainName unset (some name) := by
  refine ⟨fun hu' => absurd (hu.symm.trans hu') Bool.false_ne_true, fun str hstr => ?_⟩
  cases hstr
  exact h

theorem sessionParseStr_keeps :
    Keeps (fun _ _ => True) (fun str => PlainName str.unset str.val) .abort (sessionParseStr kw) := by
  apply Keeps.orElse
  · apply given_unless_keeps
    exact fun s arg a _ hu harg => plainName_some hu (parseIfname_ok harg)
  · apply negated_keeps fun s ws hc => given_speaks hc.2
    intro s _ hseen
    rw [show s.val = none by simpa using hseen]
    exact plainName_none true

theorem parseAddr_ok {str what : String} {found : UInt16 × String} (h : parseAddr L str what = .ok found) :
    PlainAddr ⟨false, found.1, found.2⟩ := by
  rw [parseAddr] at h
  have hne : afInet ≠ 0 ∧ afInet6 ≠ 0 := by decide
  split_ifs at h with hlen h4 h6
  · cases h
    exact ⟨fun hu => absurd hu Bool.false_ne_true, fun h0 => absurd h0 hne.1, rfl, Nat.lt_of_not_le hlen⟩
  · cases h
    exact ⟨fun hu => absurd hu Bool.false_ne_true, fun h0 => absurd h0 hne.2, rfl, Nat.lt_of_not_le hlen⟩

theorem sessionParseAddr_keeps : Keeps (fun _ _ => True) PlainAddr .abort (sessionParseAddr L kw) := by
  apply Keeps.orElse
  · apply given_unless_keeps
    intro s arg a _ hu harg
    rw [hu]
    exact parseAddr_ok harg
  · apply flag_keeps
    · intro s s' b hs _ h
      split_ifs at h with haf
      cases h
      exact ⟨fun _ => not_not.mp haf, hs.2⟩
    · intro s ws b _ _
      split_ifs <;> simp [alreadyGiven]

theorem sessionParseNetif_keeps : Keeps (fun _ _ => True) PlainNetif .abort (sessionParseNetif L kw) := by
  apply Keeps.orElse
  · apply given_unless_keeps
    exact fun s arg a hs hu _ => ⟨hs.1, fun hu' => absurd (hu.symm.trans hu') Bool.false_ne_true⟩
  apply Keeps.orElse
  · apply given_unless_keeps
    exact fun s arg a hs hu harg => ⟨plainName_some hu (parseIfname_ok harg), hs.2⟩
  · apply flag_keeps
    · intro s s' b _ _ h
      split_ifs at h with hname hindex
      cases h
      rw [Option.not_isSome_iff_eq_none] at hname hindex
      rw [hname, hindex]
      exact ⟨plainName_none true, fun _ => rfl⟩
    · intro s ws b _ _
      split_ifs <;> simp [alreadyGiven]

theorem Key.keeps (L : Libc) (k : Key) : Keeps (fun _ _ => True) k.Neat .abort (k.reader L) := by
  cases k with
  | multihop | cpi | passive | shutdown | bulk | diag => exact kwFlag_keeps
  | discr | minTx | minRx | holdTime | ttl | detectMult | vrfTable => exact kwValue_keeps
  | remoteDiscr => exact parseKwU32No_keeps
  | name => exact sessionParseStr_keeps
  | src | dst => exact sessionParseAddr_keeps
  | netif | vrf => exact sessionParseNetif_keeps

end

theorem Params.get_put (p : Params) (k : Key) (x : k.Slot) :
    (p.put k x).get = Function.update p.get k x := by
  funext k'
  by_cases h : k' = k
  · subst h
    rw [Function.update_self]
    cases k' <;> rfl
  · rw [Function.update_of_ne h]
    cases k <;> cases k' <;> first | rfl | exact absurd rfl h

theorem Params.neat_blank : Params.blank.Neat := by
  intro k
  cases k with
  | name => exact plainName_none false
  | src | dst => exact ⟨fun _ => rfl, fun _ => rfl, rfl, by decide⟩
  | netif | vrf => exact ⟨plainName_none false, fun _ => rfl⟩
  | _ => exact trivial

section

variable {L : Libc} {early : Bool} {p : Params} {n : Nat} {line line' : Line} {word : String}
    {rest ws : List String}
  {command given : Command}

theorem Params.Neat.put (hp : p.Neat) {k : Key} {x : k.Slot} (hx : k.Neat x) : (p.put k x).Neat := by
  intro k'
  rw [Params.get_put]
  by_cases hk : k' = k
  · subst hk
    rw [Function.update_self]
    exact hx
  · rw [Function.update_of_ne hk]
    exact hp k'

theorem Params.Neat.alone (hp : p.Neat) : (Params.mk p.csess none none).Neat := by
  intro k
  cases k with
  | bulk | diag => exact trivial
  | _ => exact hp _

theorem parseParam_keeps (L : Libc) (early : Bool) :
    Keeps (fun _ _ => True) Params.Neat .abort (parseParam L early) := by
  apply Keeps.firstOf
  intro q hq
  obtain ⟨k, -, rfl⟩ := List.mem_map.mp hq
  exact (k.keeps L).on (fun p hp => hp k) fun p x hp hx => hp.put hx

theorem Params.Neat.netifs (h : p.Neat) : sessionCheckParams p.csess = true := by
  have hcheck : ∀ {netif : CNetif}, PlainNetif netif → checkParamsNetif netif = true := by
    rintro ⟨_ | _, name, ifindex⟩ ⟨hname, hindex⟩
    · rfl
    · obtain rfl : name = none := hname.1 rfl
      obtain rfl : ifindex = none := hindex rfl
      rfl
  rw [sessionCheckParams, Bool.and_eq_true]
  exact ⟨hcheck (h .netif), hcheck (h .vrf)⟩

/-- What holds of all that was read. Parameters were only taken where they go
with the command. -/
structure Line.Neat (line : Line) : Prop where
  select : line.select.Neat
  change : (Params.mk line.change none none).Neat
  unasked : line.seenArg = false → line.select = .blank
  query : ∀ command, line.command = some command → command.allowQuery = false → line.select = .blank
  unchanged : (∀ command, line.command = some command → command.allowChange = false) → line.change = .blank

theorem neat_start : Line.start.Neat :=
  ⟨Params.neat_blank, Params.neat_blank, fun _ => rfl, fun _ h => (by cases h), fun _ => rfl⟩

/-- What one turn of the loop comes to, if it is not the last. -/
inductive Turn (L : Libc) (line : Line) (word : String) (rest : List String) : Line → List String → Prop
  | command {command : Command} : line.command = none → (line.seenArg = true → command.allowQuery = true) →
      Turn L line word rest { line with command := some command } rest
  | query {r : Params × List String} : line.command = none → parseParam L true line.select
      (word :: rest) = .ok (some r) →
      Turn L line word rest { line with select := r.1, seenArg := true } r.2
  | change {given : Command} {r : Params × List String} : line.command = some given → given.allowChange = true →
      parseParam L false ⟨line.change, none, none⟩ (word :: rest) = .ok (some r) →
      Turn L line word rest { line with change := r.1.csess, seenArg := true } r.2

theorem Turn.keeps (h : Turn L line word rest line' ws) (hl : line.Neat) :
    line'.Neat ∧ ws.length < (word :: rest).length := by
  cases h with
  | command hc hq =>
    refine ⟨⟨hl.select, hl.change, hl.unasked, ?_, fun _ => hl.unchanged fun given hg => ?_⟩, Nat.lt_succ_self _⟩
    · intro given hg hno
      cases hg
      refine hl.unasked ((Bool.not_eq_true _).mp fun hseen => ?_)
      exact Bool.false_ne_true (hno.symm.trans (hq hseen))
    · rw [hc] at hg
      cases hg
  | query hc hr =>
    obtain ⟨hneat, hlen⟩ := (parseParam_keeps L true).step trivial hl.select hr
    refine ⟨⟨hneat, hl.change, fun h => (by cases h), fun given hg => ?_, hl.unchanged⟩, hlen⟩
    exact absurd (hc.symm.trans hg) (Option.some_ne_none given).symm
  | change hg ha hr =>
    obtain ⟨hneat, hlen⟩ := (parseParam_keeps L false).step trivial hl.change hr
    refine ⟨⟨hl.select, hneat.alone, fun h => (by cases h), hl.query, fun hno => ?_⟩, hlen⟩
    exact absurd ((hno _ hg).symm.trans ha) Bool.false_ne_true

theorem parseParam_cases (L : Libc) (early : Bool) (p : Params) (ws : List String) :
    (∃ m, parseParam L early p ws = .error (.usage m)) ∨ parseParam L early p ws = .ok none ∨
      ∃ r, parseParam L early p ws = .ok (some r) := by
  rcases h : parseParam L early p ws with (m | _) | _ | r
  · exact .inl ⟨m, rfl⟩
  · exact absurd h ((parseParam_keeps L early).safe trivial)
  · exact .inr (.inl rfl)
  · exact .inr (.inr ⟨r, rfl⟩)

theorem sessionWords_cases (n : Nat) (line : Line) (word : String) (rest : List String) :
    (∃ m, sessionWords L (n + 1) line (word :: rest) = .error (.usage m)) ∨ sessionWords L
    (n + 1) line (word :: rest) = .ok none ∨
      ∃ line' ws, Turn L line word rest line' ws ∧ sessionWords L (n + 1) line (word :: rest) =
        sessionWords L n line' ws := by
  cases hf : Command.find word with
  | some command =>
    cases hc : line.command with
    | some given =>
      left
      simp only [sessionWords, hf, hc]
      exact ⟨_, rfl⟩
    | none =>
      cases hq : !command.allowQuery && line.seenArg with
      | true =>
        left
        simp only [sessionWords, hf, hc, hq, if_true]
        exact ⟨_, rfl⟩
      | false =>
        have hquery : line.seenArg = true → command.allowQuery = true := by
          simpa [imp_iff_not_or, or_comm] using hq
        refine .inr (.inr ⟨_, _, .command hc hquery, ?_⟩)
        simp only [sessionWords, hf, hc, hq, Bool.false_eq_true, if_false]
  | none =>
    by_cases hh : word = "help"
    · exact .inr (.inl (by simp only [sessionWords, hf, if_pos hh]))
    cases hc : line.command with
    | none =>
      obtain ⟨m, hm⟩ | hnone | ⟨r, hr⟩ := parseParam_cases L true line.select (word :: rest)
      · exact .inl ⟨m, by simp only [sessionWords, hf, hc, if_neg hh, hm]⟩
      · left
        simp only [sessionWords, hf, hc, if_neg hh, hnone]
        exact ⟨_, rfl⟩
      · exact .inr (.inr ⟨_, _, .query hc hr, by simp only [sessionWords, hf, hc, if_neg hh, hr]⟩)
    | some given =>
      cases ha : given.allowChange with
      | false =>
        left
        simp only [sessionWords, hf, hc, if_neg hh, ha, Bool.not_false, if_true]
        exact ⟨_, rfl⟩
      | true =>
        obtain ⟨m, hm⟩ | hnone | ⟨r, hr⟩ := parseParam_cases L false ⟨line.change, none, none⟩ (word :: rest)
        · exact .inl ⟨m, by simp only [sessionWords, hf, hc, if_neg hh, ha, hm, Bool.not_true,
            Bool.false_eq_true, if_false]⟩
        · left
          simp only [sessionWords, hf, hc, if_neg hh, ha, hnone, Bool.not_true, Bool.false_eq_true, if_false]
          exact ⟨_, rfl⟩
        · refine .inr (.inr ⟨_, _, .change hc ha hr, ?_⟩)
          simp only [sessionWords, hf, hc, if_neg hh, ha, hr, Bool.not_true, Bool.false_eq_true, if_false]

theorem sessionWords_keeps (hl : line.Neat) (hn : ws.length ≤ n) :
    (∃ m, sessionWords L n line ws = .error (.usage m)) ∨ sessionWords L n line ws = .ok none ∨
      ∃ line', sessionWords L n line ws = .ok (some line') ∧ line'.Neat := by
  induction n generalizing line ws with
  | zero =>
    rw [List.length_eq_zero_iff.mp (Nat.le_zero.mp hn)]
    exact .inr (.inr ⟨line, rfl, hl⟩)
  | succ n ih =>
    cases ws with
    | nil => exact .inr (.inr ⟨line, rfl, hl⟩)
    | cons word rest =>
      obtain h | h | ⟨line', ws', hturn, h⟩ := @sessionWords_cases L n line word rest
      · exact .inl h
      · exact .inr (.inl h)
      · obtain ⟨hl', hlen⟩ := hturn.keeps hl
        rw [h]
        exact ih hl' (by omega)

/-- What holds of all that a client is asked to do. What the command has no use
for was not given. -/
structure Asked.Fits (asked : Asked) : Prop where
  select : (Params.mk asked.select asked.bulk asked.diag).Neat
  change : (Params.mk asked.change none none).Neat
  bulk : asked.bulk.isSome = true → asked.command.allowBulk = true
  diag : asked.diag.isSome = true → asked.command.allowDiag = true
  query : asked.command.allowQuery = false → asked.select = .blank
  unchanged : asked.command.allowChange = false → asked.change = .blank

theorem method_isSome {asked : Asked}
    (h : asked.diag.isSome = true → asked.command.allowDiag = true) :
    asked.method.isSome = true := by
  rw [Asked.method]
  split
  · rename_i hd
    have ha := h (by rw [hd]; rfl)
    cases hc : asked.command with
    | stats => rfl
    | _ =>
      rw [hc] at ha
      cases ha
  · rfl

theorem parseSession_cases (L : Libc) (words : List String) :
    (∃ m, parseSession L words = .error (.usage m)) ∨
    parseSession L words = .ok none ∨ ∃ asked, parseSession L words = .ok (some asked) ∧ asked.Fits := by
  obtain ⟨m, h⟩ | h | ⟨line, h, hl⟩ := @sessionWords_keeps L _ _ words neat_start (le_refl words.length)
  · exact .inl ⟨m, by rw [parseSession, h]⟩
  · exact .inr (.inl (by rw [parseSession, h]))
  have himp : ∀ {x y : Bool}, (x && !y) = false → x = true → y = true := by decide
  cases hc : line.command with
  | none =>
    left
    rw [parseSession, h]
    simp only [hc]
    exact ⟨_, rfl⟩
  | some command =>
    cases hb : line.select.bulk.isSome && !command.allowBulk with
    | true =>
      left
      rw [parseSession, h]
      simp only [hc, hb, if_true]
      exact ⟨_, rfl⟩
    | false =>
      cases hd : line.select.diag.isSome && !command.allowDiag with
      | true =>
        left
        rw [parseSession, h]
        simp only [hc, hb, hd, if_true, Bool.false_eq_true, if_false]
        exact ⟨_, rfl⟩
      | false =>
        have hfits : (Asked.mk command line.select.csess line.change line.select.bulk line.select.diag).Fits :=
          { select := hl.select
            change := hl.change
            bulk := himp hb
            diag := himp hd
            query := fun hno => by rw [hl.query command hc hno]; rfl
            unchanged := fun hno => hl.unchanged fun given hg => by
              cases hc.symm.trans hg
              exact hno }
        have hnetifs : (sessionCheckParams line.select.csess && sessionCheckParams line.change) = true := by
          rw [hl.select.netifs, show sessionCheckParams line.change = true from hl.change.netifs]
          rfl
        have hmethod := Option.isSome_iff_ne_none.mp (method_isSome hfits.diag)
        refine .inr (.inr ⟨_, ?_, hfits⟩)
        rw [parseSession, h]
        simp only [hc, hb, hd, hnetifs, Bool.not_true, Bool.false_eq_true, if_false]
        rw [if_neg (fun hnone => hmethod (Option.isNone_iff_eq_none.mp hnone))]

theorem parseSession_fits {words : List String} {asked : Asked}
    (h : parseSession L words = .ok (some asked)) : asked.Fits := by
  obtain ⟨m, hm⟩ | hnone | ⟨asked', hok, hfits⟩ := parseSession_cases L words
  · cases h.symm.trans hm
  · cases h.symm.trans hnone
  · cases h.symm.trans hok
    exact hfits

/-- No command line makes an assertion of the parser fail. -/
theorem session_never_aborts (L : Libc) (words : List String) : parseSession L words ≠ .error .abort := by
  intro habort
  obtain ⟨m, hm⟩ | hnone | ⟨asked, hok, -⟩ := parseSession_cases L words
  · cases habort.symm.trans hm
  · cases habort.symm.trans hnone
  · cases habort.symm.trans hok

end

end Bbdd.Client
