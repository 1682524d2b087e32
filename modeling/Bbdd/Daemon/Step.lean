import Bbdd.Daemon.Handled

namespace Bbdd.Daemon

open Lib.Program Lib.Directory Session Prog TxQueue Datapath Poll

/-- What the daemon does to the shared state outside of any session. -/
inductive Shared : Bpf → Bpf → Prop
  | ask (b : Bpf) : Shared b b.ask.2
  | output (b : Bpf) (o : Output) : Shared b (b.output o)
  | count (b : Bpf) : Shared b (b.bump .rxNoUniqueSession)
  | disarm (b : Bpf) (h : pending b.tx = false) : Shared b (txPolloutDisarm b)
  | kernel (b : Bpf) (ev : KernelEvent) : Shared b { b with kernel := b.kernel.step b.vethTxIfindex ev }
  | pop (b : Bpf) {elem : RbElem} {rest : List RbElem} (h : b.kernel.ring = elem :: rest) :
      Shared b { b with kernel := { b.kernel with ring := rest } }

theorem Shared.unseen {b b' : Bpf} (h : Shared b b') : Unseen b b' := by
  cases h <;> exact ⟨rfl, rfl, rfl⟩

theorem Shared.answers {b b' : Bpf} (h : Shared b b') : b'.answers = b.answers := by
  cases h <;> rfl

/-- What a step of the daemon is about. -/
inductive Label
  | shared
  | handler (discr : UInt32) (h : Handler)
  | create (discr : UInt32) (dsess : DSession)
  | refuse (discr : UInt32)
  | remove (discr : UInt32)

def Label.about : Label → Option UInt32
  | .shared => none
  | .handler discr _ | .create discr _ | .refuse discr | .remove discr => some discr

/-- A session as a request for a new one has it. -/
structure Born (discr : UInt32) (dsess : DSession) : Prop where
  name : dsess.localData.discr = discr
  named : discr ≠ 0
  port : sportLo ≤ dsess.src.port
  dport : BfdPort dsess
  mult : dsess.localData.timing.detectMult ≠ 0
  remMult : dsess.remoteData.timing.detectMult ≠ 0
  loc : dsess.localData.state.state = .down
  addressed : Addressed dsess

/-- Everything the daemon does, one session at a time. -/
inductive Step : Label → World → World → Prop
  | shared {w b} : Shared w.bpf b → Step .shared w (w.setBpf b)
  | handled {w d h c c'} : w.session d = some c → Handled h c c' → Step (.handler d h) w (w.put d c')
  | create {w d dsess n c' sports} : w.sdir.find d = none → Born d dsess → Taken w.sports dsess.src.port sports →
      sessionAdd n (w.fresh d dsess) = .ok (.ok (), c') →
      Step (.create d dsess) w { w.put d c' with nextPtr := w.nextPtr + 1, sports := sports }
  | refuse {w d dsess n e c'} : w.sdir.find d = none → Born d dsess →
      sessionAdd n (w.fresh d dsess) = .ok (.error e, c') →
      Step (.refuse d) w { w with bpf := c'.bpf, nextPtr := w.nextPtr + 1 }
  | remove {w d c n c'} : w.session d = some c → sessionDel n c = .ok ((), c') →
      Step (.remove d) w { w.drop d c' with sports := w.sports.put c.dsess.src.port }

section

variable {w w' : World} {l : Label} {d : UInt32} {c c' : Ctx} {dsess : DSession}

theorem Sound.added (hw : Sound w) {n : Nat} {r : Except String Unit}
    (h : sessionAdd n (w.fresh d dsess) = .ok (r, c')) :
    Moves (some dsess.localData.discr) (w.fresh d dsess) c' ∧ Aside (w.fresh d dsess) c' ∧
      view c' = if r.isOk then (view (w.fresh d dsess)).awaken w.bpf.nextTimer else view (w.fresh d dsess) := by
  have hid : ∀ t ∈ (view (w.fresh d dsess)).mine, t.id ≠ (w.fresh d dsess).bpf.nextTimer := by
    rw [hw.fresh_mine]
    exact fun t ht => absurd ht List.not_mem_nil
  have hr := wp_ok (sessionAdd_runs n rfl hid) h
  refine ⟨(adding_sessionAdd n _ _ _ h).moves rfl, aside_sessionAdd n _ _ _ h, ?_⟩
  cases r <;> exact hr

theorem Sound.deleted (hw : Sound w) (hc : w.session d = some c) {n : Nat}
    (h : sessionDel n c = .ok ((), c')) :
    Moves (some c.bsess.discr) c c' ∧ view c' = (view c).unhold.stop ∧
      (∀ kind, (slotOf c'.bsess kind).linked = false) ∧
      c'.bsess.genBumps = c.bsess.genBumps :=
  ⟨moves_sessionDel h, (wp_ok (sessionDel_runs n (hw.session d c hc).sane.clocks) h :)⟩

theorem Sound.handled {h : Handler} (hw : Sound w) (hc : w.session d = some c)
    (hh : Handled h c c') : Handling h c c' :=
  hh.handling (hw.session d c hc) (hw.timersOk hc)

theorem Step.sound (h : Step l w w') (hw : Sound w) : Sound w' := by
  cases h with
  | shared hb => exact hw.setBpf hb.unseen
  | handled hc hh => exact hw.handling hc (hw.handled hc hh)
  | create hd hb _ hr =>
    obtain ⟨hm, ha, hv⟩ := hw.added hr
    exact { hw.create hd hb.name hb.named hb.port hb.dport hb.addressed hb.mult hb.remMult hb.loc hm
      ha.sameQueue hv with }
  | refuse hd hb hr =>
    obtain ⟨hm, ha, hv⟩ := hw.added hr
    exact hw.refuse hd hb.name hb.named hb.port hb.dport hb.addressed hm ha.sameQueue hv
  | remove hc hr =>
    obtain ⟨hm, hv, hl, -⟩ := hw.deleted hc hr
    exact { hw.remove hc hm hv hl with }

/-- Nothing a session can tell happened: both directories still have it as it
was, and so are its timers. -/
structure Apart (d : UInt32) (w w' : World) : Prop where
  sdir : w'.sdir.find d = w.sdir.find d
  bsdir : w'.bsdir.find d = w.bsdir.find d
  timers : ∀ c, w.session d = some c → timersOf w'.bpf.timers c.bsess.ptr = timersOf w.bpf.timers c.bsess.ptr
  answers : w'.bpf.answers = w.bpf.answers
  next : w.bpf.nextTimer ≤ w'.bpf.nextTimer

theorem Apart.refl (d : UInt32) (w : World) : Apart d w w := ⟨rfl, rfl, fun _ _ => rfl, rfl, Nat.le_refl _⟩

theorem Apart.session (h : Apart d w w') :
    w'.session d = (w.session d).map (fun c => { c with bpf := w'.bpf }) := by
  unfold World.session
  rw [h.sdir, h.bsdir]
  cases w.sdir.find d with
  | none => rfl
  | some dsess => cases w.bsdir.find d <;> rfl

theorem Apart.trans {w'' : World} (h : Apart d w w') (k : Apart d w' w'') : Apart d w w'' where
  sdir := k.sdir.trans h.sdir
  bsdir := k.bsdir.trans h.bsdir
  timers := fun c hc => (k.timers { c with bpf := w'.bpf } (by rw [h.session, hc]; rfl)).trans (h.timers c hc)
  answers := k.answers.trans h.answers
  next := Nat.le_trans h.next k.next

theorem Apart.machine (h : Apart d w w') : w'.machine d = w.machine d := by
  unfold World.machine
  rw [h.session, Option.map_map]
  cases hc : w.session d with
  | none => rfl
  | some c =>
    simp only [Option.map_some, Function.comp]
    rw [view_of_timers]
    rw [h.timers c hc, (session_eq_some.mp hc).2.2]

theorem Unseen.apart {b : Bpf} (h : Unseen w.bpf b) (ha : b.answers = w.bpf.answers) (d : UInt32) :
    Apart d w (w.setBpf b) :=
  ⟨rfl, rfl, fun _ _ => by rw [World.setBpf, h.timers], ha, h.nextTimer.ge⟩

theorem apart_moves (hb : c.bpf = w.bpf) {own : Option UInt32} (hm : Moves own c c') (ht : TimersOk c)
    (hp : ∀ s, w.session d = some s → s.bsess.ptr ≠ c.bsess.ptr) (hs : w'.sdir.find d = w.sdir.find d)
    (hbs : w'.bsdir.find d = w.bsdir.find d) (hb' : w'.bpf = c'.bpf) : Apart d w w' := by
  obtain ⟨-, ha⟩ := Moves.timers hm ht
  refine ⟨hs, hbs, fun s hs' => ?_, ?_, ?_⟩
  · rw [hb', ha.others _ (hp s hs'), hb]
  · rw [hb', Moves.answers hm, hb]
  · rw [hb', ← hb]; exact ha.next

theorem Step.apart (h : Step l w w') (hw : Sound w) (hd : l.about ≠ some d) : Apart d w w' := by
  cases h with
  | shared hb => exact hb.unseen.apart hb.answers d
  | @handled _ e _ c c' hc hh =>
    have hne : d ≠ e := fun he => hd (by rw [he]; rfl)
    exact apart_moves (session_eq_some.mp hc).2.2 (hw.handled hc hh).moves (hw.timersOk hc)
      (fun s hs => hw.ptr_ne hc d s hs hne) (Dir.find_insert_of_ne _ hne _) (Dir.find_insert_of_ne _ hne _) rfl
  | @create _ e dsess n c' sports hn hb _ hr =>
    have hne : d ≠ e := fun he => hd (by rw [he]; rfl)
    exact apart_moves rfl (hw.added hr).1 (hw.fresh_timers e dsess)
      (fun s hs => Nat.ne_of_lt (hw.session d s hs).ptr) (Dir.find_insert_of_ne _ hne _)
      (Dir.find_insert_of_ne _ hne _) rfl
  | @refuse _ e dsess n err c' hn hb hr =>
    exact apart_moves rfl (hw.added hr).1 (hw.fresh_timers e dsess)
      (fun s hs => Nat.ne_of_lt (hw.session d s hs).ptr) rfl rfl rfl
  | @remove _ e c n c' hc hr =>
    have hne : d ≠ e := fun he => hd (by rw [he]; rfl)
    refine apart_moves (session_eq_some.mp hc).2.2 (hw.deleted hc hr).1 (hw.timersOk hc)
      (fun s hs => hw.ptr_ne hc d s hs hne) ?_ ?_ rfl
    · simp only [World.drop, World.put, Dir.find_erase_of_ne _ hne, Dir.find_insert_of_ne _ hne]
    · simp only [World.drop, World.put, Dir.find_erase_of_ne _ hne, Dir.find_insert_of_ne _ hne]

theorem Step.answers (h : Step l w w') (hw : Sound w) : w'.bpf.answers = w.bpf.answers := by
  by_cases h0 : l.about = some 0
  · exact (h.apart hw (d := 1) (by rw [h0]; decide)).answers
  · exact (h.apart hw h0).answers

/-- Steps that are not about a session. -/
abbrev Elsewhere (d : UInt32) : World → World → Prop :=
  Relation.ReflTransGen fun w w' => ∃ l, l.about ≠ some d ∧ Step l w w'

abbrev Quiet : World → World → Prop := Relation.ReflTransGen (Step .shared)

/-- Steps that drain the queue. -/
abbrev Drains : World → World → Prop :=
  Relation.ReflTransGen fun w w' => Step .shared w w' ∨ ∃ e kind, Step (.handler e (.drain kind)) w w'

theorem Elsewhere.apart (h : Elsewhere d w w') (hw : Sound w) : Sound w' ∧ Apart d w w' :=
  keeps_of_moves (I := fun v => Sound v ∧ Apart d w v)
    (fun _ _ ⟨_, hl, hs⟩ hv => ⟨hs.sound hv.1, hv.2.trans (hs.apart hv.1 hl)⟩) h ⟨hw, .refl d w⟩

theorem Quiet.elsewhere (h : Quiet w w') (d : UInt32) : Elsewhere d w w' :=
  Relation.ReflTransGen.mono (fun _ _ hs => ⟨.shared, by simp [Label.about], hs⟩) w w' h

theorem Quiet.sound (h : Quiet w w') (hw : Sound w) : Sound w' := ((h.elsewhere 0).apart hw).1

/-- A run of steps in which each session is the subject of at most one, and
each was called for. -/
inductive Chain (calls : Label → Prop) : List UInt32 → World → World → Prop
  | refl (w : World) : Chain calls [] w w
  | quiet {ds : List UInt32} {w w₁ w' : World} : Step .shared w w₁ → Chain calls ds w₁ w' → Chain calls ds w w'
  | step {d : UInt32} {ds : List UInt32} {l : Label} {w w₁ w' : World} : calls l → l.about = some d → d ∉ ds →
      Step l w w₁ → Chain calls ds w₁ w' → Chain calls (d :: ds) w w'

namespace Chain

variable {calls calls' : Label → Prop} {ds ds' : List UInt32}

theorem called (h : Chain calls ds w w') {d : UInt32} (hd : d ∈ ds) : ∃ l, calls l ∧ l.about = some d := by
  induction h with
  | refl => cases hd
  | quiet _ _ ih => exact ih hd
  | step hl ha _ _ _ ih =>
    obtain rfl | hd := List.mem_cons.mp hd
    · exact ⟨_, hl, ha⟩
    · exact ih hd

theorem mono (h : Chain calls ds w w') (hc : ∀ l, calls l → calls' l) : Chain calls' ds w w' := by
  induction h with
  | refl => exact .refl _
  | quiet hs _ ih => exact .quiet hs ih
  | step hl ha hd hs _ ih => exact .step (hc _ hl) ha hd hs ih

theorem append {w'' : World} (h : Chain calls ds w w') (k : Chain calls ds' w' w'')
    (hd : ∀ d ∈ ds, d ∉ ds') :
    Chain calls (ds ++ ds') w w'' := by
  induction h with
  | refl => exact k
  | quiet hs _ ih => exact .quiet hs (ih k hd)
  | step hl ha hn hs _ ih =>
    refine .step hl ha ?_ hs (ih k (fun d hm => hd d (List.mem_cons_of_mem _ hm)))
    exact fun hm => (List.mem_append.mp hm).elim hn (hd _ List.mem_cons_self)

theorem single (h : Chain calls ds w w') (d : UInt32) : (d ∉ ds ∧ Elsewhere d w w') ∨ (d ∈ ds ∧ ∃ l w₁ w₂,
    l.about = some d ∧ calls l ∧ Elsewhere d w w₁ ∧ Step l w₁ w₂ ∧ Elsewhere d w₂ w') := by
  induction h with
  | refl => exact .inl ⟨List.not_mem_nil, .refl⟩
  | quiet hs _ ih =>
    have hs' : ∃ l : Label, l.about ≠ some d ∧ Step l _ _ := ⟨.shared, by simp [Label.about], hs⟩
    obtain ⟨hd, he⟩ | ⟨hd, l, w₁, w₂, ha, hl, h₁, h₂, h₃⟩ := ih
    · exact .inl ⟨hd, .head hs' he⟩
    · exact .inr ⟨hd, l, w₁, w₂, ha, hl, .head hs' h₁, h₂, h₃⟩
  | @step e ds l v v₁ v' hl ha hn hs _ ih =>
    by_cases hde : d = e
    · subst hde
      obtain ⟨-, he⟩ | ⟨hd, -⟩ := ih
      · exact .inr ⟨List.mem_cons_self, l, v, v₁, ha, hl, .refl, hs, he⟩
      · exact absurd hd hn
    · have hs' : ∃ l : Label, l.about ≠ some d ∧ Step l v v₁ :=
        ⟨l, fun he => hde (Option.some.inj (he.symm.trans ha)), hs⟩
      obtain ⟨hd, he⟩ | ⟨hd, l', w₁, w₂, ha', hl', h₁, h₂, h₃⟩ := ih
      · exact .inl ⟨fun hm => (List.mem_cons.mp hm).elim hde hd, .head hs' he⟩
      · exact .inr ⟨List.mem_cons_of_mem _ hd, l', w₁, w₂, ha', hl', .head hs' h₁, h₂, h₃⟩

theorem sound (h : Chain calls ds w w') (hw : Sound w) : Sound w' := by
  induction h with
  | refl => exact hw
  | quiet hs _ ih => exact ih (hs.sound hw)
  | step _ _ _ hs _ ih => exact ih (hs.sound hw)

theorem keeps {I : World → Prop} (hI : ∀ l w w', l = .shared ∨ calls l → Sound w → Step l w w' → I w → I w')
    (h : Chain calls ds w w') (hw : Sound w) (hi : I w) : I w' := by
  induction h with
  | refl => exact hi
  | quiet hs _ ih => exact ih (hs.sound hw) (hI _ _ _ (.inl rfl) hw hs hi)
  | step hl _ _ hs _ ih => exact ih (hs.sound hw) (hI _ _ _ (.inr hl) hw hs hi)

end Chain

def Shape (calls : Label → Prop) (w w' : World) : Prop := Sound w' ∧ ∃ ds, Chain calls ds w w'

theorem Shape.of_quiet {calls : Label → Prop} (hw : Sound w) (h : Quiet w w') : Shape calls w w' := by
  refine ⟨h.sound hw, [], ?_⟩
  induction h using Relation.ReflTransGen.head_induction_on with
  | refl => exact .refl _
  | head hs _ ih => exact .quiet hs (ih (hs.sound hw))

theorem Shape.of_step {calls : Label → Prop} (hw : Sound w) (hl : calls l) (hd : l.about = some d)
    (h : Step l w w') :
    Shape calls w w' :=
  ⟨h.sound hw, [d], .step hl hd List.not_mem_nil h (.refl _)⟩

theorem Shape.mono {calls calls' : Label → Prop} (h : Shape calls w w') (hc : ∀ l, calls l → calls' l) :
    Shape calls' w w' :=
  ⟨h.1, h.2.imp fun _ hds => hds.mono hc⟩

theorem Shape.seq {calls calls' : Label → Prop} {w'' : World} (h : Shape calls w w')
    (k : Shape calls' w' w'') (hd : ∀ l l', calls l → calls' l' → l.about ≠ l'.about) :
    Shape (fun l => calls l ∨ calls' l) w w'' := by
  obtain ⟨hw, ds, h⟩ := h
  obtain ⟨hw', ds', k⟩ := k
  refine ⟨hw', ds ++ ds', (h.mono fun _ => .inl).append (k.mono fun _ => .inr) fun d hm hm' => ?_⟩
  obtain ⟨l, hl, ha⟩ := h.called hm
  obtain ⟨l', hl', ha'⟩ := k.called hm'
  exact hd l l' hl hl' (ha.trans ha'.symm)

theorem Shape.untouched {calls : Label → Prop} (h : Shape calls w w') (hw : Sound w)
    (hno : ∀ l, calls l → l.about ≠ some d) : w'.sdir.find d = w.sdir.find d := by
  obtain ⟨-, ds, hc⟩ := h
  obtain ⟨-, he⟩ | ⟨-, l, v₁, v₂, hab, hl, -⟩ := hc.single d
  · exact (he.apart hw).2.sdir
  · exact absurd hab (hno l hl)

theorem Shape.before {calls : Label → Prop} {w'' : World} (hw : Sound w) (h : Quiet w w')
    (k : Shape calls w' w'') :
    Shape calls w w'' :=
  have hq : Shape (fun _ => False) w w' := .of_quiet hw h
  (hq.seq k (fun _ _ hf => hf.elim)).mono (fun _ hl => hl.resolve_left id)

end

end Bbdd.Daemon
