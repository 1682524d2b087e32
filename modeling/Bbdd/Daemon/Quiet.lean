import Bbdd.Daemon.Coherence
import Bbdd.Daemon.Fate

namespace Bbdd.Daemon

open Lib.Program Lib.Directory Lib.Transition Packet Prog TxQueue Datapath Poll

section

variable {w w' v : World} {l : Label} {d : UInt32} {c c' : Ctx} {kind : SlotKind}

theorem Outcome.talks {h : Handler} (ho : Outcome c c' h)
    (hg : h = .drain .final → c.bsess.finalSlot.linked = true → ¬ Silent c.dsess c.bsess.bstate) :
    Talks c.bpf c'.bpf := by
  cases ho with
  | held _ _ hp => exact talks_of_eq (by rw [hp])
  | inStep hs => exact hs.talks
  | starved _ hs => exact hs.talks
  | replied hl _ ht => exact ht (hg rfl hl)

theorem Provided.mute (h : Provided c c') : Mute c c' := by
  obtain ⟨kernel, tick, outputs, cap, rfl⟩ := h
  rfl

theorem mute_sessionAdd (sessions : Nat) : Within Mute (sessionAdd sessions) :=
  sessionAdd_within (fun _ _ => Provided.mute) (fun _ _ => Timed.mute) sessions

theorem mute_sessionDel (sessions : Nat) : Within Mute (sessionDel sessions) :=
  sessionDel_within (fun _ _ => Provided.mute) (fun _ _ => Timed.mute) mute_txUnlink sessions

theorem Shared.handoffs {b b' : Bpf} (h : Shared b b') : b'.handoffs = b.handoffs := by
  cases h <;> rfl

theorem Step.talks (h : Step l w w') (hw : Sound w)
    (hg : ∀ d c, l = .handler d (.drain .final) → w.session d = some c → c.bsess.finalSlot.linked = true →
      ¬ Silent c.dsess c.bsess.bstate) : Talks w.bpf w'.bpf := by
  cases h with
  | shared hb => exact talks_of_eq hb.handoffs
  | @handled _ d h c c' hc hh =>
    have ht := (hh.outcome (hw.session d c hc)).talks (fun he hl => hg d c (by rw [he]) hc hl)
    rw [(session_eq_some.mp hc).2.2] at ht
    exact ht
  | create _ _ _ hr => exact talks_of_eq (mute_sessionAdd _ _ _ _ hr)
  | refuse _ _ hr => exact talks_of_eq (mute_sessionAdd _ _ _ _ hr)
  | remove hc hr =>
    have hm := mute_sessionDel _ _ _ _ hr
    rw [Mute, (session_eq_some.mp hc).2.2] at hm
    exact talks_of_eq hm

theorem sessionUpdateInner_finalSlot {r : Except String Unit} (h : sessionUpdateInner c = .ok (r, c')) :
    c'.bsess.finalSlot = c.bsess.finalSlot := by
  have injected : ∀ {a b : Ctx}, Injected a b → b.bsess.finalSlot = a.bsess.finalSlot := by
    intro a b hi
    obtain ⟨g, n, us, hb⟩ := hi.bsess
    rw [hb]
  have h := read_ok.mp h
  split at h
  · obtain ⟨room, c₁, h₁, h⟩ := bind_ok.mp h
    have hi := txHaveCapacity_within injected_ask _ _ _ h₁
    cases room with
    | true => exact (injected (injected_updateNow _ _ _ _ h)).trans (injected hi)
    | false =>
      refine Eq.trans ?_ (injected hi)
      obtain ⟨flags, -, he⟩ := updateDefer_ok h
      have hq : txEnqueue .periodic (decide (SlotKind.periodic = .final)) flags c₁ = .ok ((), c') := he
      obtain ⟨diagStats, -, ht⟩ := txEnqueue_ok hq
      obtain ⟨s, o, hb⟩ := ht.bsess
      rw [hb]
      rfl
  · exact injected (injected_updateNow _ _ _ _ h)

/-- The session has as much to say as before, and no new Final to send. -/
def Alike (c c' : Ctx) : Prop :=
  c'.dsess = c.dsess ∧ c'.bsess.bstate = c.bsess.bstate ∧
    (c'.bsess.finalSlot.linked = true → c.bsess.finalSlot.linked = true)

theorem drained_alike {n : Nat} (hh : Handled (.drain kind) c c') (hok : SessionOk n d c) : Alike c c' := by
  cases hh with
  | drain _ hl hr =>
    have hf := within_drainSlot _ _ _ _ hr
    obtain ⟨r, c₁, h₁, hbs, -, -⟩ := drainSlot_ok hr
    rw [(hok.queue.slots kind hl).isFinal] at h₁
    cases kind with
    | final => exact ⟨hf.dsess, hf.bstate, fun _ => hl⟩
    | periodic =>
      refine ⟨hf.dsess, hf.bstate, fun h => ?_⟩
      rw [hbs, sessionUpdateInner_finalSlot h₁] at h
      exact h

structure Drained (w v : World) : Prop where
  sound : Sound v
  same : ∀ d c', v.session d = some c' → ∃ c, w.session d = some c ∧ Alike c c'

theorem Drained.refl (hw : Sound w) : Drained w w := ⟨hw, fun _ c hc => ⟨c, hc, rfl, rfl, id⟩⟩

theorem Drained.drain (h : Drained w v) (hs : Drain v w') : Drained w w' := by
  refine ⟨hs.sound h.sound, fun d c' hc' => ?_⟩
  have apart : ∀ {l}, Step l v w' → l.about ≠ some d → ∃ c, w.session d = some c ∧ Alike c c' := by
    intro l hs hl
    rw [(hs.apart h.sound hl).session] at hc'
    obtain ⟨c, hc, rfl⟩ := Option.map_eq_some_iff.mp hc'
    exact h.same d c hc
  obtain hs | ⟨e, kind, hs⟩ := hs
  · exact apart hs (by simp [Label.about])
  · by_cases he : e = d
    · subst he
      cases hs with
      | @handled _ _ _ c c₁ hc hh =>
        rw [session_put_self] at hc'
        cases hc'
        obtain ⟨c₀, hc₀, hd, hb, hf⟩ := h.same e c hc
        obtain ⟨hd', hb', hf'⟩ := drained_alike hh (h.sound.session e c hc)
        exact ⟨c₀, hc₀, hd'.trans hd, hb'.trans hb, hf ∘ hf'⟩
    · exact apart hs (by simpa [Label.about] using he)

theorem Drains.talks (h : Drains w w') (hw : Sound w) (hg : ∀ d c, w.session d = some c →
    c.bsess.finalSlot.linked = true → ¬ Silent c.dsess c.bsess.bstate) : Drained w w' ∧ Talks w.bpf w'.bpf := by
  refine keeps_of_moves (I := fun v => Drained w v ∧ Talks w.bpf v.bpf) (fun u v hs hu => ?_) h
    ⟨.refl hw, talks_of_eq rfl⟩
  refine ⟨hu.1.drain hs, hu.2.trans ?_⟩
  obtain hs | ⟨e, kind, hs⟩ := hs
  · exact hs.talks hu.1.sound (fun _ _ he => by cases he)
  · refine hs.talks hu.1.sound (fun d c _ hc hl => ?_)
    obtain ⟨c₀, hc₀, hd, hb, hf⟩ := hu.1.same d c hc
    rw [hd, hb]
    exact hg d c₀ hc₀ (hf hl)

/-- A session on hold never had a mark, and a silent one has no packet with
its mark. -/
structure Quieted (c : Ctx) : Prop where
  held : c.bsess.bstate = .onHold → c.bsess.genBumps = 0
  hushed : c.bsess.bstate ≠ .onHold → Silent c.dsess c.bsess.bstate → Settled c ∧ Hushed c

theorem Quieted.steady (hq : Quieted c) (h : Rests c c') : Quieted c' := by
  have hst := h.steady
  refine ⟨fun hb => ?_, fun hb hs => ?_⟩
  · rw [hst.genBumps]
    exact hq.held (hst.bstate ▸ hb)
  · rw [hst.dsess, hst.bstate] at hs
    rw [hst.bstate] at hb
    exact ⟨hst.settled (hq.hushed hb hs).1, (hq.hushed hb hs).2.rests h⟩

theorem Handled.quieted {n : Nat} {h : Handler} (hh : Handled h c c') (hok : SessionOk n d c)
    (ht : TimersOk c) (hst : ∀ n, (c.bpf.answers n).mapUpdate = true) (hsup : Supplied c.bpf)
    (hm : Marks c) (hb : c'.bsess.genBumps < 2 ^ 32) (hq : Quieted c) : Quieted c' := by
  refine ⟨fun hold => ?_, fun hne hs => ?_⟩
  · have he := (hh.handling hok ht).held hold
    rw [he] at hold ⊢
    exact hq.held hold
  · cases hh.outcome hok with
    | held hold hbs _ => exact absurd (hbs ▸ hold) hne
    | starved hno _ => exact absurd hsup hno
    | replied _ hr _ => exact (hq.steady hr).hushed hne hs
    | inStep hi =>
      obtain hr | hr := hi.hushed hm hb hs
      · refine ⟨?_, hr⟩
        obtain hr | hst := hi.renewed ⟨hok.addressed, hst⟩
        · obtain ⟨hset, -⟩ | ⟨-, hsay⟩ := hr.refreshed
          · exact hset
          · exact absurd hs (shouldInject_iff.mp hsay)
        · rw [hst.dsess, hst.bstate] at hs
          rw [hst.bstate] at hne
          exact hst.settled (hq.hushed hne hs).1
      · exact (hq.steady hr).hushed hne hs

theorem quieted_elsewhere (hq : ∀ c, w.session d = some c → Quieted c) (h : Elsewhere d w w')
    (hw : Sound w) :
    ∀ c', w'.session d = some c' → Quieted c' := by
  intro c' hc'
  rw [(h.apart hw).2.session] at hc'
  obtain ⟨c, hc, rfl⟩ := Option.map_eq_some_iff.mp hc'
  have hbpf := (session_eq_some.mp hc).2.2
  have hmine := hw.mine hc
  obtain ⟨hm, hcfg⟩ := h.thins hw
  have hv : w'.bpf.vethTxIfindex = w.bpf.vethTxIfindex :=
    (keeps_of_moves (I := fun v => Sound v ∧ v.bpf.vethTxIfindex = w.bpf.vethTxIfindex)
      (fun _ _ ⟨_, _, hs⟩ hu => ⟨hs.sound hu.1, (hs.veth hu.1).trans hu.2⟩) h ⟨hw, rfl⟩).2
  refine ⟨(hq c hc).held, fun hb hs => ⟨?_, fun m hmem => ?_⟩⟩
  · refine settled_setBpf ((hq c hc).hushed hb hs).1 ?_ ?_
    · rw [hbpf, hv]
    · rw [hmine, hbpf, hcfg]
  · refine ((hq c hc).hushed hb hs).2 m ?_
    rw [hmine, hbpf]
    rw [hmine] at hmem
    exact hm.subset hmem

/-- The moments of an event in which map updates and allocations succeed, as
one session has them. -/
structure QuietIn (env : Env) (d : UInt32) (v : World) : Prop where
  sound : Sound v
  answers : v.bpf.answers = env.answers
  tracked : Tracked d (fun _ => False) v
  quieted : ∀ c, v.session d = some c → Quieted c

section

variable {env : Env}

theorem QuietIn.elsewhere (hi : QuietIn env d v) (h : Elsewhere d v w') : QuietIn env d w' where
  sound := (h.apart hi.sound).1
  answers := (h.apart hi.sound).2.answers.trans hi.answers
  tracked := hi.tracked.elsewhere h hi.sound
  quieted := quieted_elsewhere hi.quieted h hi.sound

theorem QuietIn.handled {h : Handler} (hi : QuietIn env d v) (hst : env.Stores)
    (hsup : env.Supplied) (hs : Step (.handler d h) v w')
    (hb : ∀ c, w'.session d = some c → c.bsess.genBumps < 2 ^ 32) : QuietIn env d w' := by
  refine ⟨hs.sound hi.sound, (hs.answers hi.sound).trans hi.answers, hi.tracked.handled hs hi.sound
    hb, fun c' hc' => ?_⟩
  have hbound := hb c' hc'
  cases hs with
  | @handled _ _ _ c c₁ hc hh =>
    rw [session_put_self] at hc'
    cases hc'
    have hbpf := (session_eq_some.mp hc).2.2
    refine hh.quieted (hi.sound.session d c hc) (hi.sound.timersOk hc) ?_ ?_ (hi.tracked.marks c hc) hbound
      (hi.quieted c hc)
    · rw [hbpf, hi.answers]; exact hst
    · rw [Supplied, hbpf, hi.answers]; exact hsup

theorem QuietIn.drain (hi : QuietIn env d v) (hst : env.Stores) (hsup : env.Supplied) (hs : Drain v w')
    (hb : ∀ c, w'.session d = some c → c.bsess.genBumps < 2 ^ 32) : QuietIn env d w' := by
  obtain hs | ⟨e, kind, hs⟩ := hs
  · exact hi.elsewhere (.single ⟨_, by simp [Label.about], hs⟩)
  · by_cases he : e = d
    · subst he
      exact hi.handled hst hsup hs hb
    · exact hi.elsewhere (.single ⟨_, by simpa [Label.about] using he, hs⟩)

theorem QuietIn.enter (hw : Sound w) (ht : Tracked d (fun _ => False) w)
    (hq : ∀ c, w.session d = some c → Quieted c) (env : Env) : QuietIn env d (w.enter env) := by
  refine ⟨hw.enter env, rfl, ht.enter env, fun c hc => ?_⟩
  obtain ⟨c₀, hc₀, rfl⟩ := session_enter_some hc
  have hbpf := (session_eq_some.mp hc₀).2.2
  refine ⟨(hq c₀ hc₀).held, fun hb hs => ?_⟩
  obtain ⟨hset, hh⟩ := (hq c₀ hc₀).hushed hb hs
  refine ⟨settled_setBpf hset ?_ ?_, ?_⟩
  · rw [hbpf]
    rfl
  · rw [hbpf]
    rfl
  · unfold Hushed at hh
    rw [hbpf] at hh
    exact hh

theorem step_quieted {e : Event} (hw : Sound w) (h : daemon.step w (env, e) w') (hst : env.Stores)
    (hsup : env.Supplied) (ht : Tracked d (fun _ => False) w) (hb : FewBumps w')
    (hq : ∀ c, w.session d = some c → Quieted c) :
    ∀ c, w'.session d = some c → Quieted c := by
  have hi := QuietIn.enter hw ht hq env
  cases step_fate hw h d with
  | apart he => exact (hi.elsewhere he).quieted
  | gone hn =>
    intro c hc
    rw [session_eq_none hn] at hc
    cases hc
  | @made dsess v v' ha hcr h₁ hs h₂ =>
    have hw₁ := (hi.elsewhere h₁).sound
    refine quieted_elsewhere (fun c hc => ?_) h₂ (hs.sound hw₁)
    cases hs with
    | @create _ _ _ n c' sports hn hb hp hr =>
      have hc' : (v.put d c').session d = some c := hc
      rw [session_put_self] at hc'
      rw [← Option.some.inj hc']
      obtain ⟨-, haside, hv⟩ := hw₁.added hr
      have hold : c'.bsess.bstate = .onHold := congrArg Machine.bstate hv
      exact ⟨fun _ => haside.genBumps, fun hne => absurd hold hne⟩
  | @handled v h c c' h₁ hc hl hh h₂ =>
    have hi₁ := hi.elsewhere h₁
    have hs : Step (.handler d h) v (v.put d c') := .handled hc hh
    have hb₂ := bumps_of_apart (h₂.apart (hs.sound hi₁.sound)).2 (hb d)
    exact ((hi₁.handled hst hsup hs hb₂).elsewhere h₂).quieted
  | drained _ hd =>
    refine ((keeps_of_moves (I := fun v => Sound v ∧
      ((∀ c, v.session d = some c → c.bsess.genBumps < 2 ^ 32) → QuietIn env d v)) (fun u v hs hu => ?_) hd
      ⟨hw.enter env, fun _ => hi⟩).2 (hb d)).quieted
    exact ⟨Drain.sound hs hu.1, fun hb => (hu.2 (drain_bumps hs hu.1 hb)).drain hst hsup hs hb⟩

theorem step_entered {e : Event} (hw : Sound w) (h : daemon.step w (env, e) w') (hst : env.Stores)
    (hsup : env.Supplied) (hc : w.session d = some c) (hc' : w'.session d = some c')
    (hs : ¬ Silent c.dsess c.bsess.bstate) (hs' : Silent c'.dsess c'.bsess.bstate) :
    c.bsess.genBumps < c'.bsess.genBumps ∨ c.bsess.bstate = .onHold ∧ c'.bsess = c.bsess := by
  cases step_stays hw h hc hc' with
  | apart hds hbs =>
    rw [hds, hbs] at hs'
    exact absurd hs' hs
  | @handled v _ _ _ hv hans hcv _ hh _ _ =>
    have hok := hv.session d _ hcv
    obtain ⟨hold, hbs, -⟩ | hr | hst' := (hh.outcome hok).renewed ⟨hok.addressed, by rw [hans]; exact hst⟩
      (by rw [Supplied, hans]; exact hsup)
    · exact .inr ⟨hold, hbs⟩
    · obtain ⟨-, hlt⟩ | ⟨-, hsay⟩ := hr.refreshed
      · exact .inl hlt
      · exact absurd hs' (shouldInject_iff.mp hsay)
    · rw [show c'.dsess = c.dsess from hst'.dsess, show c'.bsess.bstate = c.bsess.bstate from hst'.bstate] at hs'
      exact absurd hs' hs
  | drained _ hd =>
    have hdr := keeps_of_moves (I := Drained (w.enter env)) (fun u v hs hu => hu.drain hs) hd
      (.refl (hw.enter env))
    obtain ⟨c₀, hc₀, hds, hbs, -⟩ := hdr.same d c' hc'
    cases (session_enter hc env).symm.trans hc₀
    rw [hds, hbs] at hs'
    exact absurd hs' hs

end

end

/-- No session that is silent has a Final left to send when the queue is drained. -/
def Answered (w : World) : Event → Prop
  | .pollout _ => ∀ d c, w.session d = some c → c.bsess.finalSlot.linked = true → ¬ Silent c.dsess c.bsess.bstate
  | _ => True

/-- Orderly steps in which map updates and allocations succeed, and no Final
outlives what its session had to say. -/
def Discreet (w : World) (l : Env × Event) : Prop :=
  Orderly w l ∧ l.1.Stores ∧ l.1.Supplied ∧ Answered w l.2

section

variable {w w' : World} {env : Env} {e : Event} {d : UInt32} {c : Ctx} {m : UInt32}

theorem step_talks (hw : Sound w) (h : daemon.step w (env, e) w') (hg : Answered w e) :
    Talks w.bpf w'.bpf := by
  have hwe := hw.enter env
  have henter : Talks w.bpf (w.enter env).bpf := talks_of_eq rfl
  refine henter.trans ?_
  obtain ⟨-, ds, hc⟩ | ⟨⟨bound, rfl⟩, hd⟩ := step_done hw h
  · refine hc.keeps (I := fun v => Talks (w.enter env).bpf v.bpf)
      (fun l u v hl hu hs ht => ht.trans ?_) hwe (talks_of_eq rfl)
    refine hs.talks hu (fun d c he => ?_)
    obtain rfl | hl := hl
    · cases he
    · cases he
      cases hl with
      | ring _ hr => obtain ⟨-, hf⟩ | ⟨_, _, _, hf, -⟩ := ringCall_handler hr <;> cases hf
  · refine (hd.talks hwe (fun d c hc => ?_)).2
    obtain ⟨c₀, hc₀, rfl⟩ := session_enter_some hc
    exact hg d c₀ hc₀

theorem run_quieted (h : Run daemon Discreet w) : FewBumps w → ∀ d c, w.session d = some c → Quieted c := by
  induction h with
  | start hs =>
    obtain ⟨rx, tx, cap, answers, -, rfl⟩ := hs
    intro _ d c hc
    simp [World.session, World.start] at hc
  | @next w l w' hr hg hs ih =>
    intro hb d
    have ht := run_tracked (hr.mono (fun _ _ hg => hg.1)) hg.1.1 d
    exact step_quieted (reachable_sound hr.reachable) hs hg.2.1 hg.2.2.1 ht hb (ih hg.1.1 d)

theorem stale_of_older (hm : Marks c) (hs : Settled c) (hb : c.bsess.genBumps < 2 ^ 32)
    (hlt : m.toNat < c.bsess.genBumps) :
    Stale c.bpf.kernel c.dsess.localData.discr m := by
  intro config hcfg hmark
  obtain ⟨entry, hwant, he⟩ := hs
  obtain ⟨args, addrs, rfl⟩ := wanted_eq hwant
  have hnum : m.toNat = c.bsess.genBumps := by
    rw [hmark, ← Option.some.inj (he.symm.trans hcfg), confEntry, hm.gen]
    exact UInt32.toNat_ofNat_of_lt' hb
  omega

end

/-- In a discreet run nothing is handed over for a session that is on hold or
silent. A session that is silent after an event has no current packet in the
loop, and if it fell silent with the event, none of the packets it had there
before is current. -/
theorem quiet_of_discreet {w w' : World} {env : Env} {e : Event} (h : Run daemon Discreet w)
    (hg : Discreet w (env, e)) (hs : daemon.step w (env, e) w') (hb : FewBumps w') :
    Talks w.bpf w'.bpf ∧ ∀ d c', w'.session d = some c' → Silent c'.dsess c'.bsess.bstate →
      (∀ skb ∈ w'.bpf.kernel.circ, skb.discr = d → Stale w'.bpf.kernel d skb.mark) ∧
      ∀ c, w.session d = some c → ¬ Silent c.dsess c.bsess.bstate →
        ∀ skb ∈ w.bpf.kernel.circ, skb.discr = d → Stale w'.bpf.kernel d skb.mark := by
  have hw := reachable_sound h.reachable
  have hw' := step_sound hw hs
  have h' : Run daemon Discreet w' := h.next hg hs
  refine ⟨step_talks hw hs hg.2.2.2, fun d c' hc' hsil => ?_⟩
  have ht := run_tracked (h.mono fun _ _ hg => hg.1) hg.1.1 d
  have ht' := run_tracked (h'.mono fun _ _ hg => hg.1) hb d
  have hq := run_quieted h hg.1.1 d
  have hq' := run_quieted h' hb d c' hc'
  have hm' := ht'.marks c' hc'
  have mark : ∀ {k : Kernel} {skb : Skb}, skb ∈ k.circ → skb.discr = d → skb.mark ∈ marksOf k d :=
    fun hm hd => List.mem_map_of_mem (List.mem_filter.mpr ⟨hm, by simpa using hd⟩)
  have stale : ∀ {m : UInt32}, 1 ≤ m.toNat → (c'.bsess.bstate = .onHold → m.toNat ≤ 0) →
      (c'.bsess.bstate ≠ .onHold → m.toNat < c'.bsess.genBumps) → Stale w'.bpf.kernel d m := by
    intro m h1 hold hlt
    have hne : c'.bsess.bstate ≠ .onHold := fun h => by have := hold h; omega
    have := stale_of_older hm' (hq'.hushed hne hsil).1 (hb d c' hc') (hlt hne)
    rwa [hw'.mine hc', (session_eq_some.mp hc').2.2] at this
  have dated : ∀ {v : World} {s : Ctx} {m : UInt32}, Sound v → v.session d = some s → Marks s →
      m ∈ marksOf v.bpf.kernel d → 1 ≤ m.toNat ∧ m.toNat ≤ s.bsess.genBumps := by
    intro v s m hv hc hm hmem
    refine hm.dated m ?_
    rwa [hv.mine hc, (session_eq_some.mp hc).2.2]
  constructor
  · intro skb hmem hd
    obtain ⟨h1, hle⟩ := dated hw' hc' hm' (mark hmem hd)
    refine stale h1 (fun hold => hq'.held hold ▸ hle) (fun hne => (hq'.hushed hne hsil).2 _ ?_)
    rw [hw'.mine hc', (session_eq_some.mp hc').2.2]
    exact mark hmem hd
  · intro c hc hno skb hmem hd
    obtain ⟨h1, hle⟩ := dated hw hc (ht.marks c hc) (mark hmem hd)
    obtain hlt | ⟨hold, hbs⟩ := step_entered hw hs hg.2.1 hg.2.2.1 hc hc' hno hsil
    · refine stale h1 (fun hold => ?_) (fun _ => hle.trans_lt hlt)
      have := hq'.held hold
      omega
    · refine stale h1 (fun _ => (hq c hc).held hold ▸ hle) (fun hne => absurd (hbs ▸ hold) hne)

def discreet (w : World) (l : Env × Event) : Bool :=
  orderly w l && match l.2 with
    | .pollout _ => w.bsdir.values.all (!·.finalSlot.linked)
    | _ => true

theorem discreet_sound {w : World} {l : Env × Event} (hp : l.1 = .plain) (h : discreet w l = true) :
    Discreet w l := by
  obtain ⟨ho, hf⟩ := Bool.and_eq_true_iff.mp h
  obtain ⟨env, e⟩ := l
  subst hp
  refine ⟨orderly_sound w _ ho, plain_stores, plain_supplied, ?_⟩
  cases e with
  | pollout bound =>
    intro d c hc hl
    have := List.all_eq_true.mp hf c.bsess (Dir.mem_values.mpr ⟨d, (session_eq_some.mp hc).2.1⟩)
    rw [hl] at this
    cases this
  | _ => trivial

theorem quiet_of_discreet_shut : ∃ (w w' : World) (c' : Ctx), daemon.step w (.plain, .timer 1 none) w' ∧
    w'.session 5 = some c' ∧ Silent c'.dsess c'.bsess.bstate ∧ w.bpf.kernel.circ ≠ [] ∧ Talks w.bpf w'.bpf ∧
    ∀ skb ∈ w.bpf.kernel.circ, skb.discr = 5 → Stale w'.bpf.kernel 5 skb.mark := by
  obtain ⟨w, c, hr, hc, hok, hno, hcirc, w', hw', hb, c', hc', hs⟩ :=
    exists_run (inPlain (settledUp ++ [.setFive (some true) none]))
      (fun w l hl (h : discreet w l = true) => discreet_sound (mem_inPlain hl) h)
      (P := fun w c => discreet w (.plain, .timer 1 none) = true ∧ ¬ Silent c.dsess c.bsess.bstate ∧
        0 < w.bpf.kernel.circ.length ∧
        ∃ w' ∈ replay w [(.plain, .timer 1 none)], fewBumps w' = true ∧
          ∃ c' ∈ w'.session 5, Silent c'.dsess c'.bsess.bstate) (by decide +kernel)
  have hstep := replay_step hw'
  obtain ⟨htalks, hstale⟩ := quiet_of_discreet hr (discreet_sound rfl hok) hstep (fewBumps_sound hb)
  exact ⟨w, w', c', hstep, hc', hs, List.length_pos_iff.mp hcirc, htalks, (hstale 5 c' hc' hs).2 c hc hno⟩

/-- A poll is answered while the loop is full, so the Final waits. Meanwhile the
session is shut down and its wait ends; the Final goes out all the same. -/
theorem not_quiet_final : ∃ (w w' : World), Reachable daemon w ∧ daemon.step w (.plain, .pollout 3)
    w' ∧ FewBumps w' ∧
    ¬ Talks w.bpf w'.bpf := by
  obtain ⟨w, c, hr, -, w', hw', hb, hlen, x, hx, hs⟩ := exists_replayed
    (inPlain (bringUp ++ arrival (peerPacket .up bitPoll) ++
      [.setFive (some true) none, .timer 1 none, .kernel (.pass 0 routed)]))
    (P := fun w c => ∃ w' ∈ replay w [(.plain, .pollout 3)], fewBumps w' = true ∧
      w'.bpf.handoffs.length = w.bpf.handoffs.length + 1 ∧ ∃ x ∈ w'.bpf.handoffs.head?, Silent x.dsess x.bstate)
    (by decide +kernel)
  refine ⟨w, w', hr, replay_step hw', fewBumps_sound hb, fun ⟨new, hn, ha⟩ => ?_⟩
  rw [hn, List.length_append] at hlen
  obtain ⟨y, rfl⟩ := List.length_eq_one_iff.mp (by omega : new.length = 1)
  rw [hn] at hx
  cases hx
  exact (ha x (by simp)).2 hs

end Bbdd.Daemon
