import Bbdd.Daemon.Replay
import Bbdd.Lib.Coupling

namespace Bbdd.Daemon

open Lib.Program Lib.Directory Lib.Transition Session Prog Datapath

/-- Two contexts that a call which brings up a session cannot tell apart, though
the sessions go by different names. -/
structure Twins (c c' : Ctx) : Prop where
  answers : c'.bpf.answers = c.bpf.answers
  tick : c'.bpf.tick = c.bpf.tick
  env : c'.bpf.envTxCapacity = c.bpf.envTxCapacity
  capacity : c'.bpf.txCapacity = c.bpf.txCapacity
  nextTimer : c'.bpf.nextTimer = c.bpf.nextTimer
  timers : c'.bpf.timers.map Timer.id = c.bpf.timers.map Timer.id
  hold : c'.bsess.hold = c.bsess.hold
  addrs : confAddrs c'.dsess = confAddrs c.dsess

section

variable {nl : Nl} {csess : CSession} {discr discr' : UInt32} {sdir : Dir UInt32 DSession}
    {stream : Nat → UInt32}

theorem couples_ask : Couples Twins Twins ask ask := fun c c' h =>
  ⟨by change c.bpf.answers c.bpf.tick = c'.bpf.answers c'.bpf.tick; rw [h.answers, h.tick],
    h.answers, by change c'.bpf.tick + 1 = c.bpf.tick + 1; rw [h.tick], h.env, h.capacity,
      h.nextTimer, h.timers, h.hold, h.addrs⟩

theorem couples_onBpf {f g : Bpf → Bpf}
    (h : ∀ c c', Twins c c' → Twins { c with bpf := f c.bpf } { c' with bpf := g c'.bpf }) :
    Couples Twins Twins (onBpf f) (onBpf g) := couples_update h

theorem couples_kernel (f g : Bpf → Kernel) :
    Couples Twins Twins (onBpf fun b => { b with kernel := f b }) (onBpf fun b => { b with kernel := g b }) :=
  couples_onBpf fun _ _ h => ⟨h.answers, h.tick, h.env, h.capacity, h.nextTimer, h.timers, h.hold, h.addrs⟩

theorem couples_monSenderr (error context : String) :
    Couples Twins Twins (monSenderr error context) (monSenderr error context) :=
  couples_onBpf fun _ _ h => ⟨h.answers, h.tick, h.env, h.capacity, h.nextTimer, h.timers, h.hold, h.addrs⟩

theorem couples_setHold (hold : Option Nat) :
    Couples Twins Twins (onBsess fun s => { s with hold := hold }) (onBsess fun s => { s with hold := hold }) :=
  couples_update fun _ _ h => ⟨h.answers, h.tick, h.env, h.capacity, h.nextTimer, h.timers, rfl, h.addrs⟩

theorem couples_timerSet (fn : TimerFn) : Couples Twins Twins (timerSet fn) (timerSet fn) := by
  refine couples_bind couples_ask fun a => couples_ite (couples_pure _) (couples_bind couples_ask fun b =>
    couples_ite (couples_pure _) (couples_read_bind fun c c' h => ?_))
  rw [h.nextTimer]
  refine couples_bind (couples_onBpf fun d d' k => ?_) fun _ => couples_pure _
  refine ⟨k.answers, k.tick, k.env, k.capacity, congrArg (· + 1) k.nextTimer, ?_, k.hold, k.addrs⟩
  simp only [List.map_append, List.map_singleton, k.timers]

theorem Twins.pending {c c' : Ctx} (h : Twins c c') (id : Nat) :
    (∃ t ∈ c'.bpf.timers, t.id = id) ↔ ∃ t ∈ c.bpf.timers, t.id = id := by
  rw [← List.mem_map, ← List.mem_map, h.timers]

theorem map_timerDrop (b : Bpf) (id : Nat) :
    (b.timerDrop id).timers.map Timer.id = (b.timers.map Timer.id).filter (· ≠ id) := by
  rw [List.filter_map]
  rfl

theorem couples_timerCancel (id : Nat) : Couples Twins Twins (timerCancel id) (timerCancel id) := by
  refine couples_read_bind fun c c' h => ?_
  by_cases hp : ∃ t ∈ c.bpf.timers, t.id = id
  · rw [if_pos hp, if_pos ((h.pending id).mpr hp)]
    refine couples_bind (S := Twins) (couples_onBpf fun d d' k => ?_)
      (fun _ => couples_bind couples_ask fun a => ?_)
    · refine ⟨k.answers, k.tick, k.env, k.capacity, k.nextTimer, ?_, k.hold, k.addrs⟩
      rw [map_timerDrop, map_timerDrop, k.timers]
    · exact couples_ite (couples_pure _) (couples_monSenderr _ _)
  · rw [if_neg hp, if_neg (mt (h.pending id).mp hp)]
    exact couples_crash _

theorem couples_holdStart : Couples Twins Twins holdStart holdStart :=
  couples_bind couples_ask fun _ => couples_ite (couples_pure _)
    (couples_attempt (couples_timerSet _) fun id => couples_bind (couples_setHold (some id))
      fun _ => couples_pure _)

theorem couples_holdStop : Couples Twins Twins holdStop holdStop := by
  refine couples_read_bind fun c c' h => ?_
  rw [h.hold]
  cases c.bsess.hold with
  | none => exact couples_crash _
  | some id => exact couples_bind (couples_timerCancel id) (fun _ => couples_setHold none)

theorem couples_txResize (sessions : Nat) (add : Bool) :
    Couples Twins Twins (txResize sessions add) (txResize sessions add) := by
  refine couples_read_bind fun c c' h => ?_
  rw [h.env, h.capacity]
  refine couples_ite (couples_pure _) (couples_ite (couples_pure _) (couples_bind couples_ask fun _ =>
    couples_ite (couples_pure _) (couples_bind (couples_onBpf fun d d' k => ?_) fun _ => couples_pure _)))
  exact ⟨k.answers, k.tick, k.env, rfl, k.nextTimer, k.timers, k.hold, k.addrs⟩

theorem couples_sessionConfUpdate (args : ConfArgs) :
    Couples Twins Twins (sessionConfUpdate args) (sessionConfUpdate args) := by
  refine couples_read_bind fun c c' h => ?_
  rw [h.addrs]
  cases confAddrs c.dsess with
  | error e => exact couples_pure _
  | ok addrs =>
    refine couples_bind couples_ask fun _ => couples_ite (couples_pure _)
      (couples_bind ?_ fun _ => couples_pure _)
    exact couples_kernel _ _

theorem couples_sessionConfAdd : Couples Twins Twins sessionConfAdd sessionConfAdd := by
  refine couples_attempt (couples_sessionConfUpdate _) fun _ => couples_bind couples_ask fun a =>
    couples_read_bind fun c c' h => ?_
  refine couples_ite (couples_bind (couples_kernel _ _) fun _ => couples_pure _)
    (couples_bind couples_ask fun b => couples_bind ?_ fun _ => couples_pure _)
  exact couples_whenever (couples_kernel _ _)

theorem couples_sessionAdd (sessions : Nat) :
    Couples Twins Twins (sessionAdd sessions) (sessionAdd sessions) := by
  refine couples_bind couples_ask fun a => couples_ite (couples_pure _)
    (couples_attempt couples_holdStart fun _ =>
    couples_bind (couples_attempt (couples_txResize _ _) fun _ => couples_sessionConfAdd) fun r => ?_)
  cases r with
  | error e => exact couples_bind couples_holdStop fun _ => couples_pure _
  | ok _ => exact couples_pure _

theorem sessionApplyC_named (hd : discr ≠ 0) (hd' : discr' ≠ 0) (nl : Nl) (csess : CSession)
    (sport : UInt16) :
    (∃ e, sessionApplyC nl (newSession discr sport) { csess with discr := some discr } = .error e ∧
      sessionApplyC nl (newSession discr' sport) { csess with discr := some discr' } = .error e) ∨
    ∃ r r', sessionApplyC nl (newSession discr sport) { csess with discr := some discr } = .ok r ∧
      sessionApplyC nl (newSession discr' sport) { csess with discr := some discr' } = .ok r' ∧
      confAddrs r'.1 = confAddrs r.1 := by
  have hfirst (d : UInt32) : ¬ (({ csess with discr := some d } : CSession).discr.isSome = true ∧
      (newSession d sport).localData.discr ≠ 0 ∧
      ({ csess with discr := some d } : CSession).discr ≠ some (newSession d sport).localData.discr)
        := fun h => h.2.2 rfl
  have hzero : mandatoryZero (newSession discr' sport) { csess with discr := some discr' } =
      mandatoryZero (newSession discr sport) { csess with discr := some discr } := by
    simp only [mandatoryZero, Option.getD_some, if_neg hd, if_neg hd']
    rfl
  have hdst : newDstAf (newSession discr' sport) { csess with discr := some discr' } =
      newDstAf (newSession discr sport) { csess with discr := some discr } := rfl
  have hsrc : newSrcAf (newSession discr' sport) { csess with discr := some discr' } =
      newSrcAf (newSession discr sport) { csess with discr := some discr } := rfl
  have hvrf : changedVrf nl (newSession discr' sport) csess.vrf = changedVrf nl
    (newSession discr sport) csess.vrf := rfl
  simp only [sessionApplyC]
  rw [if_neg (hfirst discr), if_neg (hfirst discr'), hzero, hdst, hsrc, hvrf]
  split_ifs
  · exact .inl ⟨_, rfl, rfl⟩
  · exact .inl ⟨_, rfl, rfl⟩
  · cases applyAddr nl csess.src with
    | error e => exact .inl ⟨e, rfl, rfl⟩
    | ok src =>
      cases applyAddr nl csess.dst with
      | error e => exact .inl ⟨e, rfl, rfl⟩
      | ok dst =>
        cases sessionValidateVrf nl (changedVrf nl (newSession discr sport) csess.vrf) with
        | error e => exact .inl ⟨e, rfl, rfl⟩
        | ok _ =>
          cases mandatoryZero (newSession discr sport) { csess with discr := some discr } with
          | some field => exact .inl ⟨_, rfl, rfl⟩
          | none => exact .inr ⟨_, _, rfl, rfl, rfl⟩

theorem sessionAddNew_named (hd : discr ≠ 0) (hd' : discr' ≠ 0) (nl : Nl) (csess : CSession) :
    Couples Eq (fun _ _ => True) (sessionAddNew nl csess discr) (sessionAddNew nl csess discr') := by
  have given_up (sport : UInt16) (e : String) : Couples (fun _ _ => True) (fun _ _ => True)
      (sportPut sport >>= fun _ => pure (.error e : Except String Unit))
      (sportPut sport >>= fun _ => pure (.error e : Except String Unit)) := by
    refine couples_bind (couples_ite (couples_crash _) (couples_update fun _ _ _ => trivial))
      fun _ => couples_pure _
  refine couples_read_bind fun w w' hw => ?_
  subst hw
  cases sportGet w.sports with
  | none => exact (couples_pure _).mono fun _ _ _ => trivial
  | some p =>
    obtain ⟨sport, sports⟩ := p
    refine couples_bind (S := Eq) (couples_update fun _ _ h => h ▸ rfl) fun _ =>
      couples_bind couples_self fun a => ?_
    refine couples_ite ((given_up sport _).before fun _ _ _ => trivial) ?_
    obtain ⟨e, he, he'⟩ | ⟨r, r', hr, hr', haddrs⟩ := sessionApplyC_named hd hd' nl csess sport
    · rw [he, he']
      exact (given_up sport e).before fun _ _ _ => trivial
    · rw [hr, hr']
      refine couples_read_bind fun v v' hv => ?_
      subst hv
      have htwins : Twins ⟨v.bpf, r.1, freshBsess discr v.nextPtr⟩ ⟨v.bpf, r'.1, freshBsess discr' v.nextPtr⟩ :=
        ⟨rfl, rfl, rfl, rfl, rfl, rfl, rfl, haddrs⟩
      obtain ⟨k, hx, hy⟩ | ⟨res, c, c', hx, hy, -⟩ := (couples_sessionAdd v.bsdir.count _ _ htwins).cases
      · rw [hx, hy]
        exact couples_crash k
      · rw [hx, hy]
        cases res with
        | error e => exact couples_bind (S := fun _ _ => True) (couples_update fun _ _
            _ => trivial) fun _ => given_up sport e
        | ok _ => exact couples_bind (S := fun _ _ => True) (couples_update fun _ _ _ =>
            trivial) fun _ => couples_pure _

theorem uniqueDiscr_some {draws : List UInt32} (h : uniqueDiscr sdir draws = some discr) :
    ∃ n : Nat, draws[n]? = some discr ∧ (discr = 0 ∨ sdir.find discr = none) ∧
      ∀ i < n, ∀ d, draws[i]? = some d → d ≠ 0 ∧ (sdir.find d).isSome = true := by
  induction draws with
  | nil => cases h
  | cons d ds ih =>
    rw [uniqueDiscr] at h
    split at h
    · rename_i htaken
      obtain ⟨n, hn, hend, hbefore⟩ := ih h
      refine ⟨n + 1, hn, hend, fun i hi x hx => ?_⟩
      cases i with
      | zero =>
        cases hx
        exact htaken
      | succ i => exact hbefore i (Nat.lt_of_succ_lt_succ hi) x hx
    · rename_i hfree
      cases h
      refine ⟨0, rfl, ?_, fun i hi => absurd hi (Nat.not_lt_zero i)⟩
      by_cases hd : discr = 0
      · exact .inl hd
      · exact .inr (Option.not_isSome_iff_eq_none.mp fun hs => hfree ⟨hd, hs⟩)

theorem uniqueDiscr_stream {m : Nat} (h : uniqueDiscr sdir ((List.range m).map stream) = some discr) :
    (discr ≠ 0 ∧ sdir.find discr = none) ↔
      ∀ i, stream i = 0 → ∃ j < i, stream j ≠ 0 ∧ sdir.find (stream j) = none := by
  have hget (i : Nat) (hi : i < m) : ((List.range m).map stream)[i]? = some (stream i) := by
    simp [hi]
  obtain ⟨n, hn, hend, hbefore⟩ := uniqueDiscr_some h
  obtain ⟨hlt, hdiscr⟩ : n < m ∧ stream n = discr := by
    obtain ⟨hlt, hn⟩ := List.getElem?_eq_some_iff.mp hn
    rw [List.length_map, List.length_range] at hlt
    exact ⟨hlt, by simpa using hn⟩
  constructor
  · rintro ⟨hne, hfree⟩ i hi
    refine ⟨n, ?_, hdiscr ▸ hne, hdiscr ▸ hfree⟩
    -- what is drawn up to this one is not zero
    by_contra hle
    obtain heq | hin := Nat.eq_or_lt_of_le (Nat.le_of_not_lt hle)
    · exact hne (hdiscr.symm.trans (heq ▸ hi))
    · exact (hbefore i hin (stream i) (hget i (by omega))).1 hi
  · intro hz
    have hne : discr ≠ 0 := by
      intro h0
      obtain ⟨j, hj, -, hfree⟩ := hz n (hdiscr.trans h0)
      have htaken := (hbefore j hj (stream j) (hget j (by omega))).2
      rw [hfree] at htaken
      cases htaken
    exact ⟨hne, hend.resolve_left hne⟩

theorem validateJrpc_discr (nl : Nl) (csess : CSession) (d : Option UInt32) :
    validateJrpc nl { csess with discr := d } = (validateJrpc nl csess).map
      (fun cs => { cs with discr := d }) := by
  unfold validateJrpc
  cases sessionValidateNetif nl csess.netif with
  | error e => rfl
  | ok netif =>
    simp only
    split
    · cases sessionValidateVrf nl csess.vrf with
      | error e => rfl
      | ok vrf => rfl
    · rfl

theorem handleSessionAdd_named {draws : List UInt32} {w : World} (hnone : csess.discr = none)
    (hu : uniqueDiscr w.sdir draws = some discr) (hd : discr ≠ 0) (hd' : discr' ≠ 0)
    (hfree : w.sdir.find discr' = none) :
    reply (handleSessionAdd nl csess draws w) = reply
      (handleSessionAdd nl { csess with discr := some discr' } [] w) := by
  rw [handleSessionAdd, handleSessionAdd, validateJrpc_discr nl csess (some discr')]
  cases hv : validateJrpc nl csess with
  | error e => rfl
  | ok cs =>
    obtain ⟨netif, vrf, hcs⟩ := validateJrpc_eq hv
    have hdiscr : cs.discr = none := by
      rw [hcs]
      exact hnone
    simp only [Except.map, bind_run (show read w = .ok (w, w) from rfl), hdiscr, hu, hfree, Option.isSome_none,
      Bool.false_eq_true, if_false]
    refine (Alike.reply_eq (S := fun _ _ => True) ?_)
    have hname (d : UInt32) : sessionAddNew nl { cs with discr := some discr' } d = sessionAddNew nl cs d := rfl
    rw [hname, map_eq_pure_bind, map_eq_pure_bind]
    exact couples_bind (sessionAddNew_named hd hd' nl cs) (fun _ => couples_pure _) w w rfl

/-- The discriminator chosen is free and not zero, and a request that leaves the
choice to the daemon fails only if it would with any other free one, exactly if no
zero is drawn before a free discriminator. -/
theorem uniqueDiscr_valid {m : Nat} (h : uniqueDiscr sdir ((List.range m).map stream) = some discr) :
    (discr ≠ 0 ∧ sdir.find discr = none ∧
      ∀ (nl : Nl) (csess : CSession) (w : World) (other : UInt32), w.sdir = sdir →
        csess.discr = none → other ≠ 0 →
        sdir.find other = none →
        reply (handleSessionAdd nl csess ((List.range m).map stream) w) =
          reply (handleSessionAdd nl { csess with discr := some other } [] w)) ↔
      ∀ i, stream i = 0 → ∃ j < i, stream j ≠ 0 ∧ sdir.find (stream j) = none := by
  rw [← uniqueDiscr_stream h]
  refine ⟨fun hv => ⟨hv.1, hv.2.1⟩, fun ⟨hd, hfree⟩ =>
    ⟨hd, hfree, fun nl csess w other hw hnone ho hother => ?_⟩⟩
  subst hw
  exact handleSessionAdd_named hnone h hd ho hother

theorem uniqueDiscr_valid_second : ∃ w : World, Reachable daemon w ∧ (w.sdir.find 5).isSome = true ∧
    uniqueDiscr w.sdir ((List.range 2).map fun i => if i = 0 then 5 else 9) = some 9 ∧ w.sdir.find 9 = none := by
  obtain ⟨w, c, hw, hc, h⟩ := exists_replayed (inPlain [.addFive none none])
    (P := fun w _ => uniqueDiscr w.sdir ((List.range 2).map fun i => if i = 0 then 5 else 9) = some 9)
    (by decide +kernel)
  obtain ⟨-, hfree, -⟩ := (uniqueDiscr_valid h).mpr fun i hi => by split at hi <;> cases hi
  exact ⟨w, hw, Option.isSome_of_eq_some (session_eq_some.mp hc).1, h, hfree⟩

/-- If the first number drawn is zero, it is chosen, and the request fails for it
where it would succeed with another. -/
theorem uniqueDiscr_zero : Reachable daemon .plain ∧ uniqueDiscr World.plain.sdir
    ((List.range 1).map fun _ => 0) = some 0 ∧
    reply (handleSessionAdd .plain { CSession.blank with dst := ⟨false, afInet, "10.0.0.1"⟩ }
      ((List.range 1).map fun _ => 0)
      .plain) = .ok (some (.error "discr needs to be non-0")) ∧
    reply (handleSessionAdd .plain
      { CSession.blank with dst := ⟨false, afInet, "10.0.0.1"⟩, discr := some 9 } [] .plain) =
      .ok (some (.ok ())) :=
  ⟨plain_run _, by decide +kernel, by decide +kernel, by decide +kernel⟩

end

end Bbdd.Daemon
