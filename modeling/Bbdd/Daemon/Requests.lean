import Bbdd.Daemon.Step

namespace Bbdd.Daemon

open Lib.Program Lib.Directory Session Datapath Poll

section

variable {w w' : World} {discr : UInt32} {c c' : Ctx}

theorem askWorld_runs (w : World) :
    wp askWorld (fun _ w' => Step .shared w w' ∧ w' = w.setBpf w.bpf.ask.2) w :=
  ⟨_, _, rfl, .shared (.ask _), rfl⟩

theorem outputWorld_runs (w : World) (o : Output) : wp (outputWorld o) (fun _ w' => Step .shared w w') w :=
  (wp_update _ _ _).mpr (.shared (.output _ o))

theorem sportPut_runs {port : UInt16} (h : sportLo ≤ port) :
    wp (sportPut port) (fun _ w' => w' = { w with sports := w.sports.put port }) w := by
  rw [sportPut, wp_ite, if_neg (UInt16.not_lt.mpr h)]
  exact (wp_update _ _ _).mpr rfl

theorem born {nl : Nl} {csess : CSession} {sport : UInt16} {dsess : DSession} {changed : Bool}
    (hp : sportLo ≤ sport)
    (hu : csess.dst.unset = false)
    (h : sessionApplyC nl (newSession discr sport) { csess with discr := some discr } = .ok (dsess, changed)) :
    Born discr dsess ∧ dsess.src.port = sport := by
  have ha := sessionApplyC_ok h
  obtain ⟨r, hr⟩ := ha.rem
  have hn : dsess.localData.discr = discr := ha.discr
  exact
    ⟨{ name := hn
       named := hn ▸ ha.named
       port := by rw [ha.port]; exact hp
       dport := ha.dport
       mult := ha.mult
       remMult := by rw [hr]; exact (by decide : (1 : UInt8) ≠ 0)
       loc := by rw [ha.loc]; rfl
       addressed := ha.addressed hu (.inl rfl) }, ha.port⟩

def Makes (nl : Nl) (csess : CSession) (discr : UInt32) (dsess : DSession) : Prop :=
  ∃ sport changed, sessionApplyC nl (newSession discr sport) { csess with discr := some discr } =
    .ok (dsess, changed)

theorem sessionAddNew_runs (nl : Nl) {csess : CSession} (hu : csess.dst.unset = false) (hw : Sound w)
    (hd : w.sdir.find discr = none) : wp (sessionAddNew nl csess discr)
      (fun r w' => Shape (fun l => if r.isOk then ∃ dsess, Makes nl csess discr dsess ∧ l = .create discr dsess
        else l = .refuse discr) w w') w := by
  simp only [sessionAddNew, wp_bind, wp_read]
  split
  · exact (wp_pure _ _ _).mpr (.of_quiet hw .refl)
  · rename_i sport sports hget
    have ht := sportGet_some hget
    simp only [wp_bind, wp_update]
    refine wp_mono (askWorld_runs _) (fun a w₂ h₂ => ?_)
    obtain ⟨-, rfl⟩ := h₂
    have hq : Quiet w (w.setBpf w.bpf.ask.2) := .single (.shared (.ask _))
    have hw₂ := hq.sound hw
    -- once the port is given back, it is as if it had never been taken
    have refused : ∀ (v : World) (e : String), Shape (fun l => l = .refuse discr) w
      { v with sports := w.sports } →
        wp (sportPut sport >>= fun _ => pure (.error e : Except String Unit))
          (fun r w' => Shape (fun l => if r.isOk then ∃ dsess, Makes nl csess discr dsess ∧
            l = .create discr dsess
            else l = .refuse discr) w w') { v with sports := sports } := by
      intro v e hv
      refine wp_seq (sportPut_runs ht.lo) (fun _ v' hv' => (wp_pure _ _ _).mpr ?_)
      rw [hv', ht.undo]
      exact hv
    rw [wp_ite]
    split
    · exact refused (w.setBpf w.bpf.ask.2) _ (.of_quiet hw hq)
    · split
      · exact refused (w.setBpf w.bpf.ask.2) _ (.of_quiet hw hq)
      · rename_i dsess changed hap
        obtain ⟨hb, hport⟩ := born ht.lo hu hap
        have hadd := sessionAdd_runs (c := World.fresh (w.setBpf w.bpf.ask.2) discr dsess) w.bsdir.count rfl
          (by rw [hw₂.fresh_mine]; exact fun t ht => absurd ht List.not_mem_nil)
        obtain ⟨r, c', hr, -⟩ := hadd
        refine (wp_bind _ _ _ _).mpr ((wp_read _ _).mpr ?_)
        simp only [World.fresh, World.setBpf] at hr
        simp only [World.setBpf, hr]
        cases r with
        | error e =>
          refine (wp_bind _ _ _ _).mpr ((wp_update _ _ _).mpr ?_)
          refine refused { w with bpf := c'.bpf, nextPtr := w.nextPtr + 1 } e (.before hw hq ?_)
          exact .of_step hw₂ rfl rfl (.refuse (n := w.bsdir.count) hd hb hr)
        | ok _ =>
          refine (wp_bind _ _ _ _).mpr ((wp_update _ _ _).mpr ((wp_pure _ _ _).mpr (.before hw hq ?_)))
          exact .of_step hw₂ ⟨dsess, ⟨sport, changed, hap⟩, rfl⟩ rfl
            (.create (n := w.bsdir.count) hd hb (hport ▸ ht) hr)

/-- The session an event may enter. -/
def Adds (w : World) (discr : UInt32) : Event → Prop
  | .add csess draws =>
    (csess.val.discr = some discr ∨ (csess.val.discr = none ∧ uniqueDiscr w.sdir draws = some discr)) ∧
      w.sdir.find discr = none
  | .bfddAdd csess => csess.val.discr = some discr ∧ w.sdir.find discr = none
  | _ => False

/-- The session an event enters. -/
def Creates (nl : Nl) (discr : UInt32) (dsess : DSession) : Event → Prop
  | .add csess _ => ∃ cs, validateJrpc nl csess.val = .ok cs ∧ Makes nl cs discr dsess
  | .bfddAdd csess => ∃ cs, validateBfdd nl csess.val = .ok cs ∧ Makes nl cs discr dsess
  | _ => False

/-- The change an event may make to a session. -/
def Sets (nl : Nl) (w : World) (discr : UInt32) (applied : DSession) : Event → Prop
  | .set select change bulk => ∃ sel ch discrs dsess changed,
    validateJrpc nl select.val = .ok sel ∧ validateJrpc nl change.val = .ok ch ∧
      parseSelectSessions nl w.sdir sel bulk = .ok discrs ∧ discr ∈ discrs ∧ w.sdir.find discr = some dsess ∧
      sessionApplyC nl dsess ch = .ok (applied, changed)
  | .bfddAdd csess => ∃ cs dsess changed,
    csess.val.discr = some discr ∧ validateBfdd nl csess.val = .ok cs ∧ w.sdir.find discr = some dsess ∧
      sessionApplyC nl dsess cs = .ok (applied, changed)
  | _ => False

/-- The session an event may delete. -/
def Removes (nl : Nl) (w : World) (discr : UInt32) : Event → Prop
  | .del select bulk => ∃ sel discrs,
    validateJrpc nl select.val = .ok sel ∧ parseSelectSessions nl w.sdir sel bulk = .ok discrs ∧ discr ∈ discrs
  | .bfddDel d => d = discr
  | _ => False

theorem validated_inv {nl : Nl} {csess cs : CSession} {cond : Prop} [Decidable cond]
    (h : (match sessionValidateNetif nl csess.netif with
      | .error e => .error e
      | .ok netif =>
        if cond then (sessionValidateVrf nl csess.vrf).map (fun vrf => { csess with netif := netif, vrf := vrf })
        else .ok { csess with netif := netif }) = (.ok cs : Except String CSession)) :
    ∃ netif vrf, cs = { csess with netif := netif, vrf := vrf } ∧
      sessionValidateNetif nl csess.netif = .ok netif ∧
      ((cond ∧ sessionValidateVrf nl csess.vrf = .ok vrf) ∨ (¬ cond ∧ vrf = csess.vrf)) := by
  cases hn : sessionValidateNetif nl csess.netif with
  | error e => simp [hn] at h
  | ok netif =>
    simp only [hn] at h
    by_cases hc : cond
    · rw [if_pos hc] at h
      cases hv : sessionValidateVrf nl csess.vrf with
      | error e => simp [hv, Except.map] at h
      | ok vrf =>
        simp only [hv, Except.map, Except.ok.injEq] at h
        exact ⟨netif, vrf, h.symm, rfl, .inl ⟨hc, rfl⟩⟩
    · rw [if_neg hc] at h
      cases h
      exact ⟨netif, csess.vrf, rfl, rfl, .inr ⟨hc, rfl⟩⟩

theorem validateJrpc_eq {nl : Nl} {csess cs : CSession} (h : validateJrpc nl csess = .ok cs) :
    ∃ netif vrf, cs = { csess with netif := netif, vrf := vrf } := by
  obtain ⟨netif, vrf, he, -⟩ := validated_inv h
  exact ⟨netif, vrf, he⟩

theorem validateBfdd_eq {nl : Nl} {csess cs : CSession} (h : validateBfdd nl csess = .ok cs) :
    ∃ netif vrf, cs = { csess with netif := netif, vrf := vrf } := by
  obtain ⟨netif, vrf, he, -⟩ := validated_inv h
  exact ⟨netif, vrf, he⟩

theorem validateJrpc_dst {nl : Nl} {csess : Decoded} {cs : CSession}
    (h : validateJrpc nl csess.val = .ok cs) :
    cs.dst.unset = false := by
  obtain ⟨netif, vrf, rfl⟩ := validateJrpc_eq h
  exact csess.property.1

theorem validateBfdd_dst {nl : Nl} {csess : Decoded} {cs : CSession}
    (h : validateBfdd nl csess.val = .ok cs) :
    cs.dst.unset = false := by
  obtain ⟨netif, vrf, rfl⟩ := validateBfdd_eq h
  exact csess.property.1

theorem Sound.find_none_of_zero (hw : Sound w) : w.sdir.find 0 = none := by
  cases hd : w.sdir.find 0 with
  | none => rfl
  | some dsess =>
    obtain ⟨b, -, hs⟩ := hw.find hd
    exact absurd rfl (hw.session 0 _ hs).named

theorem uniqueDiscr_free (hw : Sound w) {draws : List UInt32} (h : uniqueDiscr w.sdir draws = some discr) :
    w.sdir.find discr = none := by
  induction draws with
  | nil => cases h
  | cons d ds ih =>
    simp only [uniqueDiscr] at h
    split at h
    · exact ih h
    · rename_i hd
      cases h
      by_cases h0 : discr = 0
      · rw [h0]; exact hw.find_none_of_zero
      · have : ¬ (w.sdir.find discr).isSome = true := fun hs => hd ⟨h0, hs⟩
        simpa using this

theorem handleSessionAdd_runs (nl : Nl) (csess : Decoded) (draws : List UInt32) (hw : Sound w) :
    wp (handleSessionAdd nl csess.val draws) (fun r w' =>
      Shape (fun l => ∃ d, Adds w d (.add csess draws) ∧
        ((∃ dsess, Creates nl d dsess (.add csess draws) ∧ l = .create d dsess ∧
          r = some (.ok ())) ∨ l = .refuse d)) w w') w := by
  have added : ∀ {cs : CSession} {d : UInt32}, validateJrpc nl csess.val = .ok cs → Adds w d (.add csess draws) →
      wp (some <$> sessionAddNew nl cs d) (fun r w' =>
        Shape (fun l => ∃ d, Adds w d (.add csess draws) ∧
          ((∃ dsess, Creates nl d dsess (.add csess draws) ∧ l = .create d dsess ∧
            r = some (.ok ())) ∨ l = .refuse d)) w w') w := by
    intro cs d hv hadd
    rw [wp_map]
    refine wp_mono (sessionAddNew_runs nl (validateJrpc_dst hv) hw hadd.2) (fun r w' hs =>
      hs.mono (fun l hl => ⟨d, hadd, ?_⟩))
    cases r with
    | error e => exact .inr hl
    | ok _ =>
      obtain ⟨dsess, hmakes, rfl⟩ := hl
      exact .inl ⟨dsess, ⟨cs, hv, hmakes⟩, rfl, rfl⟩
  unfold handleSessionAdd
  split
  · exact (wp_pure _ _ _).mpr (.of_quiet hw .refl)
  · rename_i cs hv
    have hcs : cs.discr = csess.val.discr := by
      obtain ⟨netif, vrf, rfl⟩ := validateJrpc_eq hv
      rfl
    refine (wp_bind _ _ _ _).mpr ((wp_read _ _).mpr ?_)
    cases hd : cs.discr with
    | none =>
      cases huq : uniqueDiscr w.sdir draws with
      | none => exact (wp_pure _ _ _).mpr (.of_quiet hw .refl)
      | some d => exact added hv ⟨.inr ⟨hcs ▸ hd, huq⟩, uniqueDiscr_free hw huq⟩
    | some d =>
      simp only [wp_ite, wp_pure]
      split
      · exact .of_quiet hw .refl
      · rename_i hf
        exact added hv ⟨.inl (hcs ▸ hd), by simpa using hf⟩

theorem sessionChange_runs {dsess applied : DSession} {csess : CSession} (hw : Sound w)
    (hd : w.sdir.find discr = some dsess) (ha : Applied dsess csess applied)
    (hu : csess.dst.unset = false) :
    wp (sessionChange discr applied (decide (applied ≠ dsess)))
      (fun _ w' => Shape (fun l => l = .handler discr (.set applied)) w w') w := by
  obtain ⟨bsess, hb, hs⟩ := hw.find hd
  simp only [sessionChange, wp_bind, wp_update, wp_read, hb, wp_attempt, wp_onSession]
  refine wp_mono (wp_eq (set_runs (hw.session discr _ hs) ha hu)) (fun r c' h => ?_)
  have hput : World.put { w with sdir := w.sdir.insert discr applied } discr c' = w.put discr c' := by
    simp only [World.put, Dir.insert_insert]
  have hstep : Shape (fun l => l = .handler discr (.set applied)) w
      (w.put discr (announced r (decide (applied ≠ dsess)) c')) :=
    .of_step hw rfl rfl (.handled hs (.set applied csess ha hu h.1))
  rw [hput]
  cases r with
  | error e => exact hstep
  | ok _ =>
    have hold : sessionIsOnHold (w.put discr c') discr = decide (c'.bsess.bstate = .onHold) := by
      simp [sessionIsOnHold, World.put]
    simp only [wp_whenever, hold]
    split
    · rename_i htell
      have htell : decide (applied ≠ dsess) = true ∧ c'.bsess.bstate ≠ .onHold := by simpa using htell
      rw [announced, if_pos ⟨rfl, htell⟩] at hstep
      refine (wp_update _ _ _).mpr ((wp_pure _ _ _).mpr ?_)
      rw [show ((w.put discr c').sdir.find discr).getD applied = c'.dsess by simp [World.put]]
      exact hstep
    · rename_i hquiet
      have hquiet : ¬ (decide (applied ≠ dsess) = true ∧ c'.bsess.bstate ≠ .onHold) := by simpa using hquiet
      rw [announced, if_neg (fun h => hquiet h.2)] at hstep
      exact (wp_pure _ _ _).mpr hstep

/-- A step of a request about one of the sessions it selected. -/
def SetCall (nl : Nl) (change : CSession) (w : World) (discrs : List UInt32) (l : Label) : Prop :=
  ∃ d ∈ discrs, ∃ dsess applied changed,
    w.sdir.find d = some dsess ∧ sessionApplyC nl dsess change = .ok (applied, changed) ∧
      l = .handler d (.set applied)

theorem sessionSetLoop_runs (nl : Nl) {change : CSession} (hu : change.dst.unset = false)
    {discrs : List UInt32} (hn : discrs.Nodup) (set : Bool) (hw : Sound w) :
    wp (sessionSetLoop nl change set discrs) (fun _ w' => Shape (SetCall nl change w discrs) w w') w := by
  induction discrs generalizing w set with
  | nil => exact (wp_pure _ _ _).mpr (.of_quiet hw .refl)
  | cons d ds ih =>
    obtain ⟨hnot, hn⟩ := List.nodup_cons.mp hn
    have tail : ∀ {l}, SetCall nl change w ds l → SetCall nl change w (d :: ds) l :=
      fun ⟨e, he, h⟩ => ⟨e, List.mem_cons_of_mem _ he, h⟩
    simp only [sessionSetLoop, wp_bind, wp_read]
    cases hd : w.sdir.find d with
    | none => exact wp_mono (ih hn set hw) (fun _ w' hs => hs.mono (fun _ => tail))
    | some dsess =>
      cases ha : sessionApplyC nl dsess change with
      | error e =>
        simp only [ha, wp_pure]
        exact .of_quiet hw .refl
      | ok r =>
        obtain ⟨applied, changed⟩ := r
        simp only [ha, wp_attempt]
        obtain rfl := sessionApplyC_changed ha
        refine wp_mono (sessionChange_runs hw hd (sessionApplyC_ok ha) hu) (fun r w₁ h₁ => ?_)
        have head : ∀ l, l = Label.handler d (.set applied) → SetCall nl change w (d :: ds) l :=
          fun l hl => ⟨d, List.mem_cons_self, dsess, applied, _, hd, ha, hl⟩
        cases r with
        | error e => exact h₁.mono head
        | ok _ =>
          refine wp_mono (ih hn true h₁.1) (fun _ w' h₂ => ?_)
          -- the sessions still to come are as the request found them
          have hrest : ∀ l, SetCall nl change w₁ ds l → SetCall nl change w ds l := by
            rintro l ⟨e, he, es, applied', changed', hf, hc, rfl⟩
            refine ⟨e, he, es, applied', changed', ?_, hc, rfl⟩
            rw [← h₁.untouched hw (fun l hl hab => ?_)]
            · exact hf
            · subst hl
              exact hnot (Option.some.inj hab ▸ he)
          refine (Shape.seq h₁ h₂ ?_).mono (fun l hl => hl.elim (head l) (fun h => tail (hrest l h)))
          rintro l l' rfl ⟨e, he, _, _, _, _, _, rfl⟩ hab
          exact hnot (Option.some.inj hab ▸ he)

theorem Sound.values_discr (hw : Sound w) : w.sdir.values.map (·.localData.discr) = w.sdir.keys := by
  refine Dir.map_values (fun k dsess hd => ?_)
  obtain ⟨b, -, hs⟩ := hw.find hd
  have hok := hw.session k _ hs
  exact hok.queue.discr.trans hok.name

theorem parseSelectSessions_nodup {nl : Nl} {select : CSession} {bulk : Bool}
    {discrs : List UInt32} (hw : Sound w)
    (h : parseSelectSessions nl w.sdir select bulk = .ok discrs) : discrs.Nodup := by
  unfold parseSelectSessions at h
  cases hs : selectSessions nl select w.sdir.values with
  | error e => simp [hs, bind, Except.bind] at h
  | ok ds =>
    cases hb : sessionCheckBulk bulk ds with
    | error e => simp [hs, hb, bind, Except.bind] at h
    | ok _ =>
      simp only [hs, hb, bind, Except.bind, pure, Except.pure, Except.ok.injEq] at h
      have := selectSessions_sublist hs
      rw [hw.values_discr] at this
      exact h ▸ this.nodup w.sdir.nodup

theorem handleSessionSet_runs (nl : Nl) (select change : Decoded) (bulk : Bool) (hw : Sound w) :
    wp (handleSessionSet nl select.val change.val bulk) (fun _ w' =>
      Shape (fun l => ∃ d applied, Sets nl w d applied (.set select change bulk) ∧ l = .handler d
        (.set applied)) w w') w := by
  unfold handleSessionSet
  split
  · exact (wp_pure _ _ _).mpr (.of_quiet hw .refl)
  · exact (wp_pure _ _ _).mpr (.of_quiet hw .refl)
  · rename_i sel ch hsel hch
    refine (wp_bind _ _ _ _).mpr ((wp_read _ _).mpr ?_)
    cases hp : parseSelectSessions nl w.sdir sel bulk with
    | error e => exact (wp_pure _ _ _).mpr (.of_quiet hw .refl)
    | ok discrs =>
      refine wp_mono (sessionSetLoop_runs nl (validateJrpc_dst hch)
        (parseSelectSessions_nodup hw hp) false hw) (fun _ w' hs => hs.mono ?_)
      rintro l ⟨d, hd, dsess, applied, changed, hf, ha, rfl⟩
      exact ⟨d, applied, ⟨sel, ch, discrs, dsess, changed, hsel, hch, hp, hd, hf, ha⟩, rfl⟩

theorem handleSessionDelOne_runs (discr : UInt32) (hw : Sound w) :
    wp (handleSessionDelOne discr) (fun _ w' => Shape (fun l => l = .remove discr) w w') w := by
  simp only [handleSessionDelOne, wp_bind, wp_read]
  cases hd : w.sdir.find discr with
  | none => exact (wp_pure _ _ _).mpr (.of_quiet hw .refl)
  | some dsess =>
    obtain ⟨bsess, hb, hs⟩ := hw.find hd
    have hok := hw.session discr _ hs
    have hname : dsess.localData.discr = discr := hok.queue.discr.trans hok.name
    simp only [bpfSessionDel, hname, wp_bind, wp_read, hb, wp_onSession, wp_update]
    refine wp_mono (wp_eq (sessionDel_runs _ hok.sane.clocks)) (fun _ c' h => ?_)
    refine wp_mono (sportPut_runs hok.port) (fun _ v hv => (wp_pure _ _ _).mpr ?_)
    subst hv
    have hstep := Step.remove hs h.1
    exact .of_step hw rfl rfl hstep

theorem sessionDelLoop_runs {discrs : List UInt32} (hn : discrs.Nodup) (errors : Nat)
    (last : String) (hw : Sound w) :
    wp (sessionDelLoop errors last discrs)
      (fun _ w' => Shape (fun l => ∃ d ∈ discrs, l = .remove d) w w') w := by
  induction discrs generalizing w errors last with
  | nil => exact (wp_pure _ _ _).mpr (.of_quiet hw .refl)
  | cons d ds ih =>
    obtain ⟨hnot, hn⟩ := List.nodup_cons.mp hn
    refine wp_seq (handleSessionDelOne_runs d hw) (fun r w₁ h₁ => ?_)
    have rest : ∀ errors last, wp (sessionDelLoop errors last ds)
        (fun _ w' => Shape (fun l => ∃ e ∈ d :: ds, l = .remove e) w w') w₁ := by
      intro errors last
      refine wp_mono (ih hn errors last h₁.1) (fun _ w' h₂ => (Shape.seq h₁ h₂ ?_).mono ?_)
      · rintro l l' rfl ⟨e, he, rfl⟩ hab
        exact hnot (Option.some.inj hab ▸ he)
      · rintro l (rfl | ⟨e, he, rfl⟩)
        · exact ⟨d, List.mem_cons_self, rfl⟩
        · exact ⟨e, List.mem_cons_of_mem _ he, rfl⟩
    cases r <;> exact rest _ _

theorem handleSessionDel_runs (nl : Nl) (select : Decoded) (bulk : Bool) (hw : Sound w) :
    wp (handleSessionDel nl select.val bulk) (fun _ w' =>
      Shape (fun l => ∃ d, Removes nl w d (.del select bulk) ∧ l = .remove d) w w') w := by
  unfold handleSessionDel
  split
  · exact (wp_pure _ _ _).mpr (.of_quiet hw .refl)
  · rename_i sel hsel
    refine (wp_bind _ _ _ _).mpr ((wp_read _ _).mpr ?_)
    cases hp : parseSelectSessions nl w.sdir sel bulk with
    | error e => exact (wp_pure _ _ _).mpr (.of_quiet hw .refl)
    | ok discrs =>
      refine wp_seq (sessionDelLoop_runs (parseSelectSessions_nodup hw hp) _ _ hw) (fun r w' hs => ?_)
      have hs' : Shape (fun l => ∃ d, Removes nl w d (.del select bulk) ∧ l = .remove d) w w' :=
        hs.mono (fun l ⟨d, hd, hl⟩ => ⟨d, ⟨sel, discrs, hsel, hp, hd⟩, hl⟩)
      simp only [wp_ite, wp_pure, ite_self]
      exact hs'

theorem bfddHandleAddSession_runs (nl : Nl) (csess : Decoded) (hw : Sound w) :
    wp (bfddHandleAddSession nl csess.val) (fun r w' =>
      Shape (fun l => (∃ d, Adds w d (.bfddAdd csess) ∧
          ((∃ dsess, Creates nl d dsess (.bfddAdd csess) ∧ l = .create d dsess ∧ r = .ok ()) ∨ l = .refuse d)) ∨
        ∃ d applied, Sets nl w d applied (.bfddAdd csess) ∧ l = .handler d (.set applied)) w w') w := by
  unfold bfddHandleAddSession
  cases hdiscr : csess.val.discr with
  | none => exact (wp_pure _ _ _).mpr (.of_quiet hw .refl)
  | some discr =>
    cases hv : validateBfdd nl csess.val with
    | error e => exact (wp_pure _ _ _).mpr (.of_quiet hw .refl)
    | ok cs =>
      refine (wp_bind _ _ _ _).mpr ((wp_read _ _).mpr ?_)
      cases hd : w.sdir.find discr with
      | none =>
        refine wp_mono (sessionAddNew_runs nl (validateBfdd_dst hv) hw hd) (fun r w' hs =>
          hs.mono (fun l hl => .inl ⟨discr, ⟨hdiscr, hd⟩, ?_⟩))
        cases r with
        | error e => exact .inr hl
        | ok _ =>
          obtain ⟨dsess, hmakes, rfl⟩ := hl
          exact .inl ⟨dsess, ⟨cs, hv, hmakes⟩, rfl, rfl⟩
      | some dsess =>
        cases ha : sessionApplyC nl dsess cs with
        | error e =>
          simp only [ha, wp_pure]
          exact .of_quiet hw .refl
        | ok r =>
          simp only [ha]
          rw [sessionApplyC_changed ha]
          exact wp_mono (sessionChange_runs hw hd (sessionApplyC_ok ha) (validateBfdd_dst hv)) (fun _ w' hs =>
            hs.mono (fun l hl => .inr ⟨discr, r.1, ⟨cs, dsess, r.2, hdiscr, hv, hd, ha⟩, hl⟩))

end

end Bbdd.Daemon
