import Bbdd.Daemon.Replay
import Bbdd.Datapath.Tables

namespace Bbdd.Daemon

open Lib.Program Lib.Directory Lib.Transition Prog Datapath

/-- The two maps of the kernel have an entry for each session of the
directory, and for no other. -/
structure Keyed (w : World) : Prop where
  config : ∀ d, (w.bpf.kernel.config d).isSome = (w.sdir.find d).isSome
  data : ∀ d, (w.bpf.kernel.data d).isSome = (w.sdir.find d).isSome

/-- The four tables are as they were; the programs may have gone on counting
in the entries of the data map. -/
structure SameTables (w w' : World) : Prop where
  sdir : w'.sdir = w.sdir
  bsdir : w'.bsdir = w.bsdir
  config : w'.bpf.kernel.config = w.bpf.kernel.config
  data : ∀ d, (w'.bpf.kernel.data d).isSome = (w.bpf.kernel.data d).isSome

theorem SameTables.refl (w : World) : SameTables w w := ⟨rfl, rfl, rfl, fun _ => rfl⟩

theorem SameTables.trans {a b c : World} (h : SameTables a b) (k : SameTables b c) : SameTables a c :=
  ⟨k.sdir.trans h.sdir, k.bsdir.trans h.bsdir, k.config.trans h.config, fun d => (k.data d).trans (h.data d)⟩

section

variable {w w' : World} {l : Label} {d : UInt32} {c c' : Ctx}

theorem SameTables.keyed (h : SameTables w w') (hk : Keyed w) : Keyed w' :=
  ⟨fun d => by rw [h.config, h.sdir]; exact hk.config d, fun d => by rw [h.data, h.sdir]; exact hk.data d⟩

theorem SameTables.of_enter {env : Env} (h : SameTables (w.enter env) w') : SameTables w w' :=
  ⟨h.sdir, h.bsdir, h.config, h.data⟩

theorem Shared.tables {b : Bpf} (h : Shared w.bpf b) : SameTables w (w.setBpf b) := by
  have of_served : Served w.bpf.kernel b.kernel → SameTables w (w.setBpf b) := fun hs =>
    ⟨rfl, rfl, hs.config, hs.keys⟩
  cases h with
  | ask => exact of_served (ask_served _)
  | kernel ev => exact of_served (Kernel.step_served ..)
  | output | count | disarm => exact of_served (.refl _)
  | pop ring => exact ⟨rfl, rfl, rfl, fun _ => rfl⟩

theorem keyed_of_entries {k : Kernel} (h : Entries d w.bpf.kernel k) (hk : Keyed w) (hb : w'.bpf.kernel = k)
    (hd : ∀ e, e ≠ d → w'.sdir.find e = w.sdir.find e) (hc : (k.config d).isSome = (w'.sdir.find d).isSome)
    (hdata : (k.data d).isSome = (w'.sdir.find d).isSome) : Keyed w' := by
  subst hb
  refine ⟨fun e => ?_, fun e => ?_⟩ <;> by_cases he : e = d
  · rw [he]; exact hc
  · rw [h.config e he, hd e he]; exact hk.config e
  · rw [he]; exact hdata
  · rw [h.keys e he, hd e he]; exact hk.data e

theorem handled_keyed {h : Handler} (hw : Sound w) (hk : Keyed w) (hc : w.session d = some c)
    (hh : Handled h c c') :
    Keyed (w.put d c') := by
  have hm := (hw.handled hc hh).moves
  obtain ⟨hs, -, hbpf⟩ := session_eq_some.mp hc
  have hok := hw.session d c hc
  have hd : c.dsess.localData.discr = d := hok.queue.discr.trans hok.name
  have ha := Moves.ages hm (fun _ hf => by cases hf)
  have ht := Moves.tended hm
  have hfind : ((w.put d c').sdir.find d).isSome = (w.sdir.find d).isSome := by
    rw [World.put, Dir.find_insert_self, hs]
    rfl
  have hentries : Entries d w.bpf.kernel c'.bpf.kernel := by
    rw [← hbpf]
    exact ⟨fun e he => ha.others e (by rw [hd]; exact he) (by simp), fun e _ => ht.keys e⟩
  refine keyed_of_entries hentries hk rfl (fun e he => Dir.find_insert_of_ne _ he _) ?_ ?_
  · rw [hfind, ← hk.config d, ← hbpf]
    have he := ha.entry
    rw [hd] at he
    obtain he | ⟨n, entry, -, -, he, -⟩ | ⟨hf, -⟩ := he
    · rw [he]
    · rw [he, hbpf, hk.config d, hs]; rfl
    · cases hf
  · rw [hfind, ht.keys, hbpf]
    exact hk.data d

theorem Keyed.config_none (hk : Keyed w) (hn : w.sdir.find d = none) : w.bpf.kernel.config d = none := by
  have := hk.config d
  rw [hn] at this
  exact Option.not_isSome_iff_eq_none.mp (by simp [this])

theorem refuse_tables (hk : Keyed w) (hdel : Deletes w.bpf) (h : Step (.refuse d) w w') :
    SameTables w w' := by
  cases h with
  | @refuse _ _ dsess n e c' hn hb hr =>
    have hcfg := hk.config_none hn
    have hname := hb.name
    subst hname
    have he := sessionAdd_entered hr hdel hcfg
    have hnone : c'.bpf.kernel.config dsess.localData.discr = none :=
      Option.not_isSome_iff_eq_none.mp (ne_true_of_eq_false he.config)
    refine ⟨rfl, rfl, funext fun e => ?_, fun e => ?_⟩ <;> by_cases h : e = dsess.localData.discr
    · rw [h, hcfg]; exact hnone
    · exact he.entries.config e h
    · rw [h]; exact he.data
    · exact he.entries.keys e h

theorem Step.keyed (h : Step l w w') (hw : Sound w) (hdel : Deletes w.bpf) (hk : Keyed w) : Keyed w' := by
  cases h with
  | shared hb => exact hb.tables.keyed hk
  | handled hc hh => exact handled_keyed hw hk hc hh
  | @refuse _ d dsess n e c' hn hb hr => exact (refuse_tables hk hdel (.refuse hn hb hr)).keyed hk
  | @create _ d dsess n c' sports hn hb ht hr =>
    have hname := hb.name
    subst hname
    have he := sessionAdd_entered hr hdel (hk.config_none hn)
    refine keyed_of_entries he.entries hk rfl (fun e he => Dir.find_insert_of_ne _ he _) ?_ ?_
    · rw [he.config]
      exact (congrArg Option.isSome (Dir.find_insert_self w.sdir _ c'.dsess)).symm
    · rw [he.data]
      exact (congrArg Option.isSome (Dir.find_insert_self w.sdir _ c'.dsess)).symm
  | @remove _ d c n c' hc hr =>
    obtain ⟨-, -, hbpf⟩ := session_eq_some.mp hc
    obtain ⟨he, hcfg, hdata⟩ := sessionDel_entries hr (hbpf ▸ hdel)
    rw [(hw.session d c hc).name, hbpf] at he
    rw [(hw.session d c hc).name] at hcfg hdata
    refine keyed_of_entries he hk rfl (fun e he => ?_) ?_ ?_
    · simp only [World.drop, World.put, Dir.find_erase_of_ne _ he, Dir.find_insert_of_ne _ he]
    · simp [hcfg, World.drop]
    · simp [hdata, World.drop]

end

def Env.Deletes (env : Env) : Prop := ∀ n, (env.answers n).mapDelete = true

theorem run_keyed {w : World} (h : Run daemon (fun _ l => l.1.Deletes) w) : Keyed w := by
  refine Run.invariant (I := Keyed) ?_ (fun w l w' hr hk hdel hs => ?_) h
  · rintro s ⟨rx, tx, cap, answers, -, rfl⟩
    exact ⟨fun _ => rfl, fun _ => rfl⟩
  · refine (step_keeps (I := fun v => Deletes v.bpf ∧ Keyed v) (fun l v v' hv hs hi => ?_)
      (reachable_sound hr) hs
      ⟨hdel, ⟨hk.config, hk.data⟩⟩).2
    exact ⟨fun n => by rw [hs.answers hv]; exact hi.1 n, hs.keyed hv hi.1 hi.2⟩

theorem failed_tables {w w' : World} {calls : Label → Prop} (hw : Sound w) (hk : Keyed w)
    (hdel : Deletes w.bpf) (hcalls : ∀ l, calls l → ∃ d, l = .refuse d) (h : Shape calls w w') :
    SameTables w w' := by
  obtain ⟨-, ds, hc⟩ := h
  refine (hc.keeps (I := fun v => Deletes v.bpf ∧ Keyed v ∧ SameTables w v) (fun l v v' hl hv hs hi => ?_) hw
    ⟨hdel, hk, .refl w⟩).2.2
  refine ⟨fun n => by rw [hs.answers hv]; exact hi.1 n, hs.keyed hv hi.1 hi.2.1, hi.2.2.trans ?_⟩
  obtain rfl | hl := hl
  · cases hs with
    | shared hb => exact hb.tables
  · obtain ⟨d, rfl⟩ := hcalls l hl
    exact refuse_tables hi.2.1 hi.1 hs

/-- What keeps the four tables together: they have the same keys, each session
is filed under its own discriminator, and an add that fails changes none. -/
structure TablesAgree (w : World) : Prop where
  bsdir : ∀ d, (w.bsdir.find d).isSome = (w.sdir.find d).isSome
  config : ∀ d, (w.bpf.kernel.config d).isSome = (w.sdir.find d).isSome
  data : ∀ d, (w.bpf.kernel.data d).isSome = (w.sdir.find d).isSome
  named : ∀ d s, w.sdir.find d = some s → s.localData.discr = d ∧ d ≠ 0
  nodup : (w.sdir.values.map (·.localData.discr)).Nodup
  failedAdd : ∀ env (csess : Decoded) draws e w', env.Deletes →
    handleSessionAdd env.nl csess.val draws (w.enter env) = .ok (some (.error e), w') → SameTables w w'
  failedBfddAdd : ∀ env (csess : Decoded) d e w', env.Deletes → csess.val.discr = some d → w.sdir.find d = none →
    bfddHandleAddSession env.nl csess.val (w.enter env) = .ok (.error e, w') → SameTables w w'

/-- Whatever requests come, and wherever they fail, the tables agree. -/
theorem tablesAgree {w : World} (h : Run daemon (fun _ l => l.1.Deletes) w) : TablesAgree w := by
  have hw := reachable_sound h.reachable
  have hk := run_keyed h
  have henter : ∀ env : Env, Keyed (w.enter env) := fun env => ⟨hk.config, hk.data⟩
  refine ⟨fun d => (hw.sync d).symm, hk.config, hk.data, fun d s hs => ⟨hw.discr_of_find hs, ?_⟩, ?_, ?_, ?_⟩
  · rintro rfl
    rw [hw.find_none_of_zero] at hs
    cases hs
  · rw [hw.values_discr]
    exact w.sdir.nodup
  · intro env csess draws e w' hdel hr
    have hs := wp_ok (handleSessionAdd_runs env.nl csess draws (hw.enter env)) hr
    refine .of_enter (failed_tables (hw.enter env) (henter env) hdel ?_ hs)
    rintro l ⟨d, -, ⟨-, -, -, hf⟩ | rfl⟩
    · cases hf
    · exact ⟨d, rfl⟩
  · intro env csess d e w' hdel hd hn hr
    have hs := wp_ok (bfddHandleAddSession_runs env.nl csess (hw.enter env)) hr
    refine .of_enter (failed_tables (hw.enter env) (henter env) hdel ?_ hs)
    rintro l (⟨f, -, ⟨-, -, -, hf⟩ | rfl⟩ | ⟨f, applied, ⟨cs, dsess, changed, hf, -, hs, -⟩, -⟩)
    · cases hf
    · exact ⟨f, rfl⟩
    · -- the session would have to be there already
      rw [hd] at hf
      cases hf
      have : w.sdir.find d = some dsess := hs
      rw [hn] at this
      cases this

def Env.scarce : Env := ⟨.plain, fun n => { obliging with mapUpdate := n ≠ 7 }⟩

theorem tablesAgree_scarce : ∃ w, TablesAgree w ∧ (w.bpf.kernel.data 5).isSome = true ∧
    w.bpf.kernel.config 6 = none ∧
    w.sdir.find 6 = none := by
  have hrun : (replay .plain [(.plain, .addFive none none), (.scarce, .addSix)]).any (fun w =>
      (w.bpf.kernel.data 5).isSome && (w.bpf.kernel.config 6).isNone && (w.sdir.find 6).isNone) = true := by
    decide +kernel
  obtain ⟨w, hr, hw⟩ := (Option.any_eq_true _ _).mp hrun
  simp only [Bool.and_eq_true, Option.isNone_iff_eq_none] at hw
  have hdel : Run daemon (fun _ l => l.1.Deletes) w := by
    refine replayIf_run (fun _ l hl _ => ?_) (plain_run _) hr
    simp only [List.mem_cons, List.not_mem_nil, or_false] at hl
    obtain rfl | rfl := hl <;> exact fun _ => rfl
  exact ⟨w, tablesAgree hdel, hw.1.1, hw.1.2, hw.2⟩

end Bbdd.Daemon
