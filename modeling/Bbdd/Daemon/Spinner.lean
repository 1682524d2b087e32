import Bbdd.Daemon.Accounting
import Bbdd.Datapath.Marks

namespace Bbdd.Daemon

open Lib.Program Lib.Transition Prog TxQueue Datapath

def spinners (k : Kernel) (d : UInt32) : List Skb :=
  k.circ.filter fun skb =>
    decide (skb.discr = d) && !skb.final && (k.config d).any (fun config => decide (skb.mark = config.genId))

def Stale (k : Kernel) (d mark : UInt32) : Prop := ∀ config, k.config d = some config → mark ≠ config.genId

/-- At most one packet of the session keeps circulating; any other is dropped
when it comes around. -/
structure SingleSpinner (k : Kernel) (d : UInt32) : Prop where
  one : (spinners k d).length ≤ 1
  rest : ∀ i skb, k.circ[i]? = some skb → skb.discr = d → skb ∉ spinners k d →
    ∀ vethTxIfindex h, (pass vethTxIfindex i h k).circ = k.circ.eraseIdx i

def FewBumps (w : World) : Prop := ∀ d c, w.session d = some c → c.bsess.genBumps < 2 ^ 32

/-- No session is added under a discriminator of which packets are still in
the loop. -/
def Retired (w : World) (e : Event) : Prop := ∀ d, Adds w d e → ∀ skb ∈ w.bpf.kernel.circ, skb.discr ≠ d

section

variable {w w' : World} {l : Label} {d : UInt32} {b b' : Bpf} {S : UInt32 → Prop}

theorem length_spinners_le (k : Kernel) {config : SessionConfig} (hc : k.config d = some config) :
    (spinners k d).length ≤ (marksOf k d).count config.genId := by
  have hsub : ((spinners k d).map Skb.mark).Sublist (marksOf k d) := by
    have hle : spinners k d = (k.circ.filter (·.discr = d)).filter (fun skb =>
        !skb.final && (k.config d).any (fun config => decide (skb.mark = config.genId))) := by
      rw [List.filter_filter]
      refine List.filter_congr (fun skb _ => ?_)
      rw [Bool.and_assoc, Bool.and_comm]
    rw [hle]
    exact List.filter_sublist.map _
  have hall : ∀ m ∈ (spinners k d).map Skb.mark, m = config.genId := by
    intro m hm
    obtain ⟨skb, hs, rfl⟩ := List.mem_map.mp hm
    have := (List.mem_filter.mp hs).2
    simp only [hc, Option.any_some, Bool.and_eq_true, decide_eq_true_eq] at this
    exact this.2
  have hcount : ((spinners k d).map Skb.mark).count config.genId = (spinners k d).length := by
    rw [List.count_eq_length.mpr (fun m hm => (hall m hm).symm), List.length_map]
  rw [← hcount]
  exact hsub.count_le _

theorem singleSpinner_of_nodup {k : Kernel} (hb : ∀ skb ∈ k.circ, skb.isBfd = true)
    (h : (marksOf k d).Nodup) :
    SingleSpinner k d := by
  constructor
  · cases hc : k.config d with
    | none => simp [spinners, hc]
    | some config => exact (length_spinners_le k hc).trans (List.nodup_iff_count_le_one.mp h _)
  · intro i skb hi hd hs vethTxIfindex h
    have hm := List.mem_of_getElem? hi
    have hr := xmitVethTx_run vethTxIfindex h k (hb skb hm)
    rw [pass_eq hi, if_neg ?_]
    · simp only [hr.circ]
    · intro hok
      obtain ⟨⟨config, hc, -, hmark⟩, hf⟩ := hr.ok.mp hok
      refine hs (List.mem_filter.mpr ⟨hm, ?_⟩)
      rw [hd] at hc
      simp [hd, hf, hc, hmark]

theorem Shared.config (h : Shared b b') : b'.kernel.config = b.kernel.config := by
  cases h with
  | ask => exact ask_config b
  | output | disarm | count | pop => rfl
  | kernel ev => exact (Kernel.step_served ..).config

theorem Sound.mine (hw : Sound w) {c : Ctx} (hc : w.session d = some c) : c.dsess.localData.discr = d := by
  rw [(hw.session d c hc).queue.discr, (hw.session d c hc).name]

theorem Step.thins (h : Step l w w') (hw : Sound w) (hl : l.about ≠ some d) :
    (marksOf w'.bpf.kernel d).Sublist (marksOf w.bpf.kernel d) ∧
      w'.bpf.kernel.config d = w.bpf.kernel.config d := by
  have moved : ∀ {own c c' e}, c.bpf = w.bpf → Moves own c c' → BfdPort c.dsess →
    c.dsess.localData.discr = e → d ≠ e →
      (∀ f, own = some f → f = e) →
      (marksOf c'.bpf.kernel d).Sublist (marksOf w.bpf.kernel d) ∧
        c'.bpf.kernel.config d = w.bpf.kernel.config d := by
    rintro own c c' e hb hm hp rfl hne hown
    rw [← hb]
    exact ⟨(Moves.thins hm hp hne).marks, (Moves.ages hm hown).others d hne (fun ho => hne (hown d ho))⟩
  cases h with
  | shared hb => exact ⟨Flows.marks hb.idle.flow d, by rw [World.setBpf, hb.config]⟩
  | @handled _ e _ c c' hc hh =>
    have hne : d ≠ e := fun he => hl (by rw [he]; rfl)
    exact moved (session_eq_some.mp hc).2.2 (hw.handled hc hh).moves (hw.session e c hc).dport
      (hw.mine hc) hne (by simp)
  | @create _ e dsess n c' sports hn hb _ hr =>
    have hne : d ≠ e := fun he => hl (by rw [he]; rfl)
    refine moved (c := w.fresh e dsess) rfl (hw.added hr).1 hb.dport hb.name hne (fun f hf => ?_)
    rw [← Option.some.inj hf, hb.name]
  | @refuse _ e dsess n err c' hn hb hr =>
    have hne : d ≠ e := fun he => hl (by rw [he]; rfl)
    refine moved (c := w.fresh e dsess) rfl (hw.added hr).1 hb.dport hb.name hne (fun f hf => ?_)
    rw [← Option.some.inj hf, hb.name]
  | @remove _ e c n c' hc hr =>
    have hne : d ≠ e := fun he => hl (by rw [he]; rfl)
    refine moved (session_eq_some.mp hc).2.2 (hw.deleted hc hr).1 (hw.session e c hc).dport
      (hw.mine hc) hne (fun f hf => ?_)
    rw [← Option.some.inj hf, (hw.session e c hc).name]

/-- The marks of a session's packets, and some of them that are out of date. -/
structure Tracked (d : UInt32) (S : UInt32 → Prop) (w : World) : Prop where
  nodup : (marksOf w.bpf.kernel d).Nodup
  marks : ∀ c, w.session d = some c → Marks c
  past : ∀ m, S m → ∀ c, w.session d = some c → 1 ≤ m.toNat ∧ m.toNat ≤ c.bsess.genBumps
  stale : ∀ m, S m → Stale w.bpf.kernel d m

theorem Tracked.thin (h : Tracked d S w) (ha : Apart d w w')
    (hs : (marksOf w'.bpf.kernel d).Sublist (marksOf w.bpf.kernel d))
    (hc : w'.bpf.kernel.config d = w.bpf.kernel.config d) (hw : Sound w) : Tracked d S w' := by
  have hsess : ∀ c', w'.session d = some c' → ∃ c, w.session d = some c ∧ c' = { c with bpf := w'.bpf } := by
    intro c' hc'
    rw [ha.session] at hc'
    obtain ⟨c, hc, rfl⟩ := Option.map_eq_some_iff.mp hc'
    exact ⟨c, hc, rfl⟩
  refine ⟨h.nodup.sublist hs, fun c' hc' => ?_, fun m hm c' hc' => ?_, fun m hm config hcfg => ?_⟩
  · obtain ⟨c, hcs, rfl⟩ := hsess c' hc'
    have hm := h.marks c hcs
    refine hm.sublist hm.dport rfl rfl rfl ?_
    rw [hw.mine hcs, (session_eq_some.mp hcs).2.2]
    exact hs
  · obtain ⟨c, hcs, rfl⟩ := hsess c' hc'
    exact h.past m hm c hcs
  · exact h.stale m hm config (hc ▸ hcfg)

theorem Tracked.step (h : Tracked d S w) (hs : Step l w w') (hw : Sound w) (hl : l.about ≠ some d) :
    Tracked d S w' := by
  obtain ⟨hm, hc⟩ := hs.thins hw hl
  exact h.thin (hs.apart hw hl) hm hc hw

theorem Tracked.elsewhere (h : Tracked d S w) (he : Elsewhere d w w') (hw : Sound w) : Tracked d S w' :=
  (keeps_of_moves (I := fun v => Sound v ∧ Tracked d S v)
    (fun _ _ ⟨_, hl, hs⟩ hv => ⟨hs.sound hv.1, hv.2.step hs hv.1 hl⟩) he ⟨hw, h⟩).2

theorem stale_of_ages {c c' : Ctx} {m : UInt32} (h : Ages none c c')
    (hgen : c.bsess.genId = UInt32.ofNat c.bsess.genBumps) (hb : c'.bsess.genBumps < 2 ^ 32)
    (hm : m.toNat ≤ c.bsess.genBumps) (hs : Stale c.bpf.kernel c.dsess.localData.discr m) :
    Stale c'.bpf.kernel c.dsess.localData.discr m := by
  obtain he | ⟨n, entry, hlt, hle, he, hg⟩ | ⟨ho, -⟩ := h.entry
  · intro config hc
    exact hs config (he ▸ hc)
  · intro config hc hm'
    obtain rfl := Option.some.inj (he.symm.trans hc)
    have hnum : m.toNat = n := by
      rw [hm', hg hgen]
      exact UInt32.toNat_ofNat_of_lt' (hle.trans_lt hb)
    omega
  · cases ho

theorem Tracked.handled {h : Handler} (ht : Tracked d S w) (hs : Step (.handler d h) w w') (hw : Sound w)
    (hb : ∀ c, w'.session d = some c → c.bsess.genBumps < 2 ^ 32) : Tracked d S w' := by
  cases hs with
  | @handled _ _ _ c c' hc hh =>
    have hmoves := (hw.handled hc hh).moves
    have hmine := hw.mine hc
    have hage : Ages none c c' := Moves.ages hmoves (by simp)
    have hbc : c'.bsess.genBumps < 2 ^ 32 := hb c' (session_put_self ..)
    have hm' : Marks c' := (ht.marks c hc).moves hmoves (by simp) hbc
    have hself : ∀ s, (w.put d c').session d = some s → s = c' := by
      intro s hs
      rw [session_put_self] at hs
      exact (Option.some.inj hs).symm
    refine ⟨?_, fun s hs => hself s hs ▸ hm', fun m hm s hs => ?_, fun m hm => ?_⟩
    · have := hm'.nodup
      rwa [hage.discr, hmine] at this
    · have hp := ht.past m hm c hc
      rw [hself s hs]
      exact ⟨hp.1, hp.2.trans hage.bumps⟩
    · have hst : Stale c.bpf.kernel c.dsess.localData.discr m := by
        rw [hmine, (session_eq_some.mp hc).2.2]
        exact ht.stale m hm
      rw [← hmine]
      exact stale_of_ages hage (ht.marks c hc).gen hbc (ht.past m hm c hc).2 hst

theorem Tracked.removed (ht : Tracked d S w) (hs : Step (.remove d) w w') (hw : Sound w)
    (hb : ∀ c, w.session d = some c → c.bsess.genBumps < 2 ^ 32) : Tracked d S w' := by
  cases hs with
  | @remove _ _ c n c' hc hr =>
    obtain ⟨hmoves, -, -, hbumps⟩ := hw.deleted hc hr
    have hmine := hw.mine hc
    have hown : ∀ f, some c.bsess.discr = some f → f = c.dsess.localData.discr := by
      intro f hf
      rw [← Option.some.inj hf, (hw.session d c hc).queue.discr]
    have hage := Moves.ages hmoves hown
    have hbc : c'.bsess.genBumps < 2 ^ 32 := hbumps ▸ hb c hc
    have hm' : Marks c' := (ht.marks c hc).moves hmoves hown hbc
    have hgone : ∀ s, (w.drop d c').session d ≠ some s := by
      intro s
      rw [session_drop, if_pos rfl]
      exact Option.some_ne_none s ∘ Eq.symm
    refine ⟨?_, fun s hs => ?_, fun m hm s hs => ?_, fun m hm config hcfg => ?_⟩
    · have := hm'.nodup
      rwa [hage.discr, hmine] at this
    · exact absurd hs (hgone s)
    · exact absurd hs (hgone s)
    · have hp := ht.past m hm c hc
      have hcfg' : c'.bpf.kernel.config d = some config := hcfg
      have hbpf := (session_eq_some.mp hc).2.2
      have he := hage.entry
      rw [hmine, hbpf] at he
      obtain he | ⟨n, entry, hlt, hle, -⟩ | ⟨-, he | h0⟩ := he
      · exact ht.stale m hm config (he ▸ hcfg')
      · omega
      · rw [he] at hcfg'
        cases hcfg'
      · omega

theorem Tracked.added (hnone : marksOf w.bpf.kernel d = []) (hS : ∀ m, ¬ S m) (hw : Sound w)
    (hs : (∃ dsess, Step (.create d dsess) w w') ∨ Step (.refuse d) w w') : Tracked d S w' := by
  have fresh : ∀ {dsess n r c'}, Born d dsess → sessionAdd n (w.fresh d dsess) = .ok (r, c') →
      Marks c' ∧ marksOf c'.bpf.kernel d = [] := by
    intro dsess n r c' hb hr
    have hmarks : marksOf (w.fresh d dsess).bpf.kernel (w.fresh d dsess).dsess.localData.discr = [] := by
      rw [← hnone, ← hb.name]
      rfl
    have hm : Marks (w.fresh d dsess) :=
      ⟨hb.dport, rfl, by rw [hmarks]; exact List.nodup_nil, by rw [hmarks]; simp⟩
    obtain ⟨hmoves, haside, -⟩ := hw.added hr
    have hown : ∀ f, some dsess.localData.discr = some f → f = dsess.localData.discr := fun f hf =>
      (Option.some.inj hf).symm
    have hbumps : c'.bsess.genBumps = 0 := haside.genBumps
    have hm' : Marks c' := hm.moves hmoves hown (by rw [hbumps]; decide)
    refine ⟨hm', List.eq_nil_iff_forall_not_mem.mpr (fun m hmem => ?_)⟩
    have hds : c'.dsess = dsess := haside.dsess
    rw [← hb.name, ← hds] at hmem
    have := hm'.dated m hmem
    omega
  obtain ⟨_, hs⟩ | hs := hs
  · cases hs with
    | @create _ _ dsess n c' sports hn hb _ hr =>
      obtain ⟨hm, hnil⟩ := fresh hb hr
      refine ⟨by rw [World.put, hnil]; exact List.nodup_nil, fun s hs => ?_, fun m hm => absurd hm (hS m),
        fun m hm => absurd hm (hS m)⟩
      have hs' : (w.put d c').session d = some s := hs
      rw [session_put_self] at hs'
      exact Option.some.inj hs' ▸ hm
  · cases hs with
    | @refuse _ _ dsess n e c' hn hb hr =>
      obtain ⟨hm, hnil⟩ := fresh hb hr
      refine ⟨by rw [hnil]; exact List.nodup_nil, fun s hs => ?_, fun m hm => absurd hm (hS m),
        fun m hm => absurd hm (hS m)⟩
      rw [session_eq_none (by exact hn)] at hs
      cases hs

theorem Tracked.enter (h : Tracked d S w) (env : Env) : Tracked d S (w.enter env) := by
  refine ⟨h.nodup, fun c hc => ?_, fun m hm c hc => ?_, h.stale⟩ <;>
    obtain ⟨s, hs, rfl⟩ := session_enter_some hc
  · have hm := h.marks s hs
    refine hm.sublist hm.dport rfl rfl rfl ?_
    rw [(session_eq_some.mp hs).2.2]
    exact .refl _
  · exact h.past m hm s hs

theorem bumps_of_apart (ha : Apart d w w') (hb : ∀ c, w'.session d = some c → c.bsess.genBumps < 2 ^ 32) :
    ∀ c, w.session d = some c → c.bsess.genBumps < 2 ^ 32 := by
  intro c hc
  exact (hb { c with bpf := w'.bpf } (by rw [ha.session, hc]; rfl) :)

/-- One step of a drain. -/
abbrev Drain (w w' : World) : Prop := Step .shared w w' ∨ ∃ e kind, Step (.handler e (.drain kind)) w w'

theorem drain_bumps (h : Drain w w') (hw : Sound w)
    (hb : ∀ c, w'.session d = some c → c.bsess.genBumps < 2 ^ 32) :
    ∀ c, w.session d = some c → c.bsess.genBumps < 2 ^ 32 := by
  obtain hs | ⟨e, kind, hs⟩ := h
  · exact bumps_of_apart (hs.apart hw (by simp [Label.about])) hb
  · by_cases he : e = d
    · subst he
      intro c hc
      cases hs with
      | @handled _ _ _ s c' hs hh =>
        obtain rfl := Option.some.inj (hs.symm.trans hc)
        have hage : Ages none s c' := Moves.ages (hw.handled hs hh).moves (by simp)
        exact hage.bumps.trans_lt (hb c' (session_put_self ..))
    · exact bumps_of_apart (hs.apart hw (by simpa [Label.about] using he)) hb

theorem Tracked.drain (ht : Tracked d S w) (h : Drain w w') (hw : Sound w)
    (hb : ∀ c, w'.session d = some c → c.bsess.genBumps < 2 ^ 32) : Tracked d S w' := by
  obtain hs | ⟨e, kind, hs⟩ := h
  · exact ht.step hs hw (by simp [Label.about])
  · by_cases he : e = d
    · subst he
      exact ht.handled hs hw hb
    · exact ht.step hs hw (by simpa [Label.about] using he)

theorem Drain.sound (h : Drain w w') (hw : Sound w) : Sound w' := by
  obtain hs | ⟨e, kind, hs⟩ := h <;> exact hs.sound hw

theorem Tracked.drains (h : Tracked d S w) (hd : Drains w w') (hw : Sound w)
    (hb : ∀ c, w'.session d = some c → c.bsess.genBumps < 2 ^ 32) : Tracked d S w' := by
  -- the bound on the marks is known at the end, and marks only grow
  refine (keeps_of_moves (I := fun v => Sound v ∧
    ((∀ c, v.session d = some c → c.bsess.genBumps < 2 ^ 32) → Tracked d S v)) (fun u v hs hu => ?_) hd
    ⟨hw, fun _ => h⟩).2 hb
  exact ⟨Drain.sound hs hu.1, fun hb => (hu.2 (drain_bumps hs hu.1 hb)).drain hs hu.1 hb⟩

theorem Elsewhere.thins (h : Elsewhere d w w') (hw : Sound w) :
    (marksOf w'.bpf.kernel d).Sublist (marksOf w.bpf.kernel d) ∧
      w'.bpf.kernel.config d = w.bpf.kernel.config d := by
  refine (keeps_of_moves (I := fun v => Sound v ∧ (marksOf v.bpf.kernel d).Sublist (marksOf w.bpf.kernel d) ∧
    v.bpf.kernel.config d = w.bpf.kernel.config d) (fun u v ⟨_, hl, hs⟩ hu => ?_) h ⟨hw, .refl _, rfl⟩).2
  obtain ⟨hm, hc⟩ := hs.thins hu.1 hl
  exact ⟨hs.sound hu.1, hm.trans hu.2.1, hc.trans hu.2.2⟩

theorem not_mem_marks_of_retired {k : Kernel} (h : ∀ skb ∈ k.circ, skb.discr ≠ d) : marksOf k d = [] := by
  rw [marksOf, List.filter_eq_nil_iff.mpr (fun skb hs => by simpa using h skb hs), List.map_nil]

theorem step_tracked {env : Env} {e : Event} (hw : Sound w) (h : daemon.step w (env, e) w')
    (hr : Retired w e) (hb : FewBumps w) (hb' : FewBumps w')
    (hS : ∀ m, S m → m ∈ marksOf w.bpf.kernel d) (ht : Tracked d S w) :
    Tracked d S w' := by
  have hwe := hw.enter env
  have hte := ht.enter env
  obtain ⟨-, ds, hc⟩ | ⟨-, hd⟩ := step_done hw h
  · obtain ⟨-, he⟩ | ⟨-, l, w₁, w₂, ha, hl, h₁, hs, h₂⟩ := hc.single d
    · exact hte.elsewhere he hwe
    · obtain ⟨hw₁, ha₁⟩ := h₁.apart hwe
      have ht₁ := hte.elsewhere h₁ hwe
      have hw₂ := hs.sound hw₁
      have hbw₂ := bumps_of_apart (h₂.apart hw₂).2 (hb' d)
      have hbw₁ : ∀ c, w₁.session d = some c → c.bsess.genBumps < 2 ^ 32 := by
        intro c hc
        rw [ha₁.session, World.enter, session_setBpf, Option.map_map] at hc
        obtain ⟨s, hs, rfl⟩ := Option.map_eq_some_iff.mp hc
        exact hb d s hs
      refine Tracked.elsewhere ?_ h₂ hw₂
      have nothing : Adds w d e → marksOf w₁.bpf.kernel d = [] ∧ ∀ m, ¬ S m := by
        intro hadd
        have hnil := not_mem_marks_of_retired (hr d hadd)
        refine ⟨?_, fun m hm => ?_⟩
        · have hsub : (marksOf w₁.bpf.kernel d).Sublist (marksOf w.bpf.kernel d) := (h₁.thins hwe).1
          rw [hnil] at hsub
          exact List.sublist_nil.mp hsub
        · have := hS m hm
          rw [hnil] at this
          cases this
      cases l with
      | shared => simp [Label.about] at ha
      | handler f h =>
        cases ha
        exact ht₁.handled hs hw₁ hbw₂
      | create f =>
        cases ha
        obtain ⟨hnil, hno⟩ := nothing hl.create_inv.1
        exact .added hnil hno hw₁ (.inl ⟨_, hs⟩)
      | refuse f =>
        cases ha
        obtain ⟨hnil, hno⟩ := nothing hl.refuse_inv
        exact .added hnil hno hw₁ (.inr hs)
      | remove f =>
        cases ha
        exact ht₁.removed hs hw₁ hbw₁
  · exact hte.drains hd hwe (hb' d)

def Orderly (w : World) (l : Env × Event) : Prop := FewBumps w ∧ Retired w l.2

theorem run_tracked (h : Run daemon Orderly w) : FewBumps w → ∀ d, Tracked d (fun _ => False) w := by
  refine Run.invariant (I := fun w => FewBumps w → ∀ d, Tracked d (fun _ => False) w) ?_
    (fun w l w' hr hI hG hs hb' d => ?_) h
  · rintro s ⟨rx, tx, cap, answers, -, rfl⟩ - d
    exact ⟨List.nodup_nil, fun c hc => by simp [World.session, World.start] at hc, fun _ hf =>
      hf.elim, fun _ hf => hf.elim⟩
  · exact step_tracked (reachable_sound hr) hs hG.2 hG.1 hb' (fun _ hf => hf.elim) (hI hG.1 d)

end

/-- In an orderly run each session has at most one packet that keeps
circulating. The others are dropped as they come around, and what the next
event does to the session gives none of them a new life. -/
theorem singleSpinner_of_orderly {w : World} (h : Run daemon Orderly w) (hb : FewBumps w) :
    (∀ d, SingleSpinner w.bpf.kernel d) ∧
      ∀ env e w', daemon.step w (env, e) w' → Retired w e → FewBumps w' → ∀ skb ∈ w.bpf.kernel.circ,
        Stale w.bpf.kernel skb.discr skb.mark → Stale w'.bpf.kernel skb.discr skb.mark := by
  have ht := run_tracked h hb
  refine ⟨fun d => singleSpinner_of_nodup (reachable_books h.reachable).bfd (ht d).nodup, ?_⟩
  intro env e w' hs hr hb' skb hm hst
  have hw := reachable_sound h.reachable
  have hmem : skb.mark ∈ marksOf w.bpf.kernel skb.discr :=
    List.mem_map_of_mem (List.mem_filter.mpr ⟨hm, by simp⟩)
  have htrack : Tracked skb.discr (fun m => m = skb.mark) w := by
    refine ⟨(ht skb.discr).nodup, (ht skb.discr).marks, ?_, fun m hm => hm ▸ hst⟩
    rintro m rfl c hc
    have hmarks := (ht skb.discr).marks c hc
    refine hmarks.dated skb.mark ?_
    rw [hw.mine hc, (session_eq_some.mp hc).2.2]
    exact hmem
  exact (step_tracked hw hs hr hb hb' (fun m hm => hm ▸ hmem) htrack).stale skb.mark rfl

def fewBumps (w : World) : Bool := w.bsdir.values.all (·.genBumps < 2 ^ 32)

theorem fewBumps_sound {w : World} (h : fewBumps w = true) : FewBumps w := by
  intro d c hc
  have hm : c.bsess ∈ w.bsdir.values := Lib.Directory.Dir.mem_values.mpr ⟨d, (session_eq_some.mp hc).2.1⟩
  exact of_decide_eq_true (List.all_eq_true.mp h c.bsess hm)

def orderly (w : World) (l : Env × Event) : Bool :=
  fewBumps w && match l.2 with
    | .add .. | .bfddAdd .. => w.bpf.kernel.circ.isEmpty
    | _ => true

theorem orderly_sound (w : World) (l : Env × Event) (h : orderly w l = true) : Orderly w l := by
  obtain ⟨hb, hc⟩ := Bool.and_eq_true_iff.mp h
  refine ⟨fewBumps_sound hb, fun d ha skb hs => ?_⟩
  cases he : l.2 <;> rw [he] at ha hc <;> try exact ha.elim
  all_goals rw [List.isEmpty_iff.mp hc] at hs; cases hs

theorem singleSpinner_coming_up : ∃ w, Run daemon Orderly w ∧ w.bpf.kernel.circ.length = 2 ∧
    SingleSpinner w.bpf.kernel 5 := by
  obtain ⟨w, c, hw, -, hl, hb⟩ := exists_run (inPlain bringUp) (fun w l _ => orderly_sound w l)
    (P := fun w _ => w.bpf.kernel.circ.length = 2 ∧ fewBumps w = true) (by decide +kernel)
  exact ⟨w, hw, hl, (singleSpinner_of_orderly hw (fewBumps_sound hb)).1 5⟩

/-- A session is deleted and added again before its packet came around: the
new session's first packet gets the mark of the old one, and both go on. -/
theorem two_spinners_readded : ∃ w, Reachable daemon w ∧ ¬ SingleSpinner w.bpf.kernel 5 ∧ FewBumps w := by
  obtain ⟨w, c, hw, -, htwo, hb⟩ := exists_replayed
    (inPlain [.addFive none none, .timer 0 none, .bfddDel 5, .addFive none none, .timer 1 none])
    (P := fun w _ => (spinners w.bpf.kernel 5).length = 2 ∧ fewBumps w = true) (by decide +kernel)
  refine ⟨w, hw, fun h => ?_, fewBumps_sound hb⟩
  have := h.one
  omega

end Bbdd.Daemon
