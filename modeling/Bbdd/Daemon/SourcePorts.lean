import Bbdd.Daemon.Replay

namespace Bbdd.Daemon

open Lib.Program Lib.Allocator Lib.Directory Lib.Transition Session Datapath

def World.leased (w : World) (d : UInt32) : Option Nat := (w.sdir.find d).map fun s => sportOff s.src.port

section

variable {w w' : World} {l : Label} {d : UInt32} {c c' : Ctx}

theorem leased_insert (w : World) (d : UInt32) (c : Ctx) (e : UInt32) :
    ((w.sdir.insert d c.dsess).find e).map (fun s => sportOff s.src.port) =
      if e = d then some (sportOff c.dsess.src.port) else w.leased e := by
  rw [Dir.find_insert]
  split <;> rfl

theorem Sound.handled_port (hw : Sound w) (hc : w.session d = some c) {h : Handler} (hh : Handled h c c') :
    c'.dsess.src.port = c.dsess.src.port :=
  (hw.upkeep hc (hw.handled hc hh).moves).queueApart.port

theorem Step.exact (h : Step l w w') (hw : Sound w) (he : Exact w.sports.taken w.leased) :
    Exact w'.sports.taken w'.leased := by
  cases h with
  | shared => exact he
  | @handled _ d h c c' hc hh =>
    refine he.congr (fun _ => rfl) (fun e => (leased_insert w d c' e).trans ?_)
    split
    · rename_i hed
      rw [hed, World.leased, (session_eq_some.mp hc).1, hw.handled_port hc hh]
      rfl
    · rfl
  | @create _ d dsess n c' sports hn hb ht hr =>
    have hport : c'.dsess.src.port = dsess.src.port := congrArg (·.src.port) (hw.added hr).2.1.dsess
    refine he.lease ht.free (by rw [World.leased, hn]; rfl) ht.taken (fun e => ?_)
    exact (leased_insert w d c' e).trans (by rw [hport])
  | refuse => exact he
  | @remove _ d c n c' hc hr =>
    refine he.release (k := d) ?_ (put_taken _ (hw.session d c hc).port) (fun e => ?_)
    · rw [World.leased, (session_eq_some.mp hc).1]
      rfl
    · simp only [World.leased, World.drop, World.put, Dir.find_erase, Dir.find_insert]
      split <;> rfl

theorem reachable_exact (h : Reachable daemon w) : Exact w.sports.taken w.leased := by
  refine Run.invariant (I := fun w => Exact w.sports.taken w.leased) ?_ (fun w l w' hr he _ hs => ?_) h
  · rintro s ⟨rx, tx, cap, answers, -, rfl⟩
    exact exact_none.congr (fun j => by simp [World.start, SportAlloc.empty, SportAlloc.taken, bit])
      (fun _ => rfl)
  · exact step_keeps (I := fun w => Exact w.sports.taken w.leased) (fun _ _ _ hw hs he => hs.exact hw he)
      (reachable_sound hr) hs he

theorem Drains.port (h : Drains w w') (hw : Sound w) (d : UInt32) :
    (w'.sdir.find d).map (·.src.port) = (w.sdir.find d).map (·.src.port) := by
  refine (keeps_of_moves (I := fun v => Sound v ∧ (v.sdir.find d).map (·.src.port) =
    (w.sdir.find d).map (·.src.port))
    (fun u v hs hv => ?_) h ⟨hw, rfl⟩).2
  obtain hs | ⟨e, kind, hs⟩ := hs
  · refine ⟨hs.sound hv.1, ?_⟩
    rw [(hs.apart hv.1 (d := d) (by simp [Label.about])).sdir]
    exact hv.2
  · refine ⟨hs.sound hv.1, ?_⟩
    cases hs with
    | @handled _ _ _ c c' hc hh =>
      rw [← hv.2]
      change ((u.sdir.insert e c'.dsess).find d).map _ = _
      rw [Dir.find_insert]
      split
      · rename_i hde
        rw [hde, (session_eq_some.mp hc).1, Option.map_some, Option.map_some, hv.1.handled_port hc hh]
      · rfl

theorem step_port {env : Env} {e : Event} (hw : Sound w) (h : daemon.step w (env, e) w') {s s' : DSession}
    (hs : w.sdir.find d = some s) (hs' : w'.sdir.find d = some s') : s'.src.port = s.src.port := by
  obtain ⟨-, ds, hc⟩ | ⟨-, hd⟩ := step_done hw h
  · obtain ⟨-, he⟩ | ⟨-, l, w₁, w₂, ha, -, h₁, hst, h₂⟩ := hc.single d
    · have := (he.apart (hw.enter env)).2.sdir.symm.trans hs'
      rw [← Option.some.inj (this.symm.trans hs)]
    · obtain ⟨hw₁, ha₁⟩ := h₁.apart (hw.enter env)
      have hs₁ : w₁.sdir.find d = some s := ha₁.sdir.trans hs
      have hs₂ : w₂.sdir.find d = some s' := (h₂.apart (hst.sound hw₁)).2.sdir.symm.trans hs'
      cases hst with
      | shared => simp [Label.about] at ha
      | @handled _ _ _ c c' hc hh =>
        cases ha
        have hf : (w₁.sdir.insert d c'.dsess).find d = some s' := hs₂
        rw [Dir.find_insert_self] at hf
        rw [← Option.some.inj hf, ← Option.some.inj ((session_eq_some.mp hc).1.symm.trans hs₁)]
        exact hw₁.handled_port hc hh
      | create hn | refuse hn =>
        cases ha
        rw [hn] at hs₁
        cases hs₁
      | remove hc hr =>
        cases ha
        simp [World.drop, World.put] at hs₂
  · have := hd.port (hw.enter env) d
    rw [hs'] at this
    have hs : (w.enter env).sdir.find d = some s := hs
    rw [hs] at this
    exact Option.some.inj this

end

/-- What the port allocator is for: it has a bit for each session's source
port and no other, and a session keeps its port as long as it lives. -/
structure PortsKept (w : World) : Prop where
  bits : ∀ off, bit w.sports.occ off = true ↔
    ∃ d s, w.sdir.find d = some s ∧ s.src.port.toNat = sportLo.toNat + off
  range : ∀ d s, w.sdir.find d = some s → sportLo ≤ s.src.port ∧ s.src.port ≤ sportHi
  distinct : ∀ d e s t, w.sdir.find d = some s → w.sdir.find e = some t → s.src.port = t.src.port → d = e
  lifelong : ∀ l w' d s s', daemon.step w l w' → w.sdir.find d = some s → w'.sdir.find d = some s' →
    s'.src.port = s.src.port
  exhausted : sportGet w.sports = none → ∀ off < sportCap, bit w.sports.occ off = true

/-- Whatever requests come and however they end, source ports are unique and
none is lost. -/
theorem portsKept {w : World} (h : Reachable daemon w) : PortsKept w := by
  have hw := reachable_sound h
  have he := reachable_exact h
  have lo : ∀ {d s}, w.sdir.find d = some s → sportLo.toNat ≤ s.src.port.toNat := by
    intro d s hs
    obtain ⟨b, -, hc⟩ := hw.find hs
    exact UInt16.le_iff_toNat_le.mp (hw.session d _ hc).port
  refine ⟨fun off => ?_, fun d s hs => ⟨UInt16.le_iff_toNat_le.mpr (lo hs), ?_⟩, fun d e s t hs ht
    hp => ?_, ?_, ?_⟩
  · refine (he.taken_iff off).trans ⟨?_, ?_⟩
    · rintro ⟨d, hd⟩
      obtain ⟨s, hs, hoff⟩ := Option.map_eq_some_iff.mp hd
      have := lo hs
      exact ⟨d, s, hs, by rw [← hoff, sportOff]; omega⟩
    · rintro ⟨d, s, hs, hp⟩
      exact ⟨d, by rw [World.leased, hs, Option.map_some, sportOff, hp, Nat.add_sub_cancel_left]⟩
  · exact UInt16.le_iff_toNat_le.mpr (Nat.le_of_lt_succ (UInt16.toNat_lt s.src.port))
  · refine he.apart d e (sportOff s.src.port) ?_ ?_
    · rw [World.leased, hs]; rfl
    · rw [World.leased, ht, hp]; rfl
  · rintro ⟨env, e⟩ w' d s s' hstep hs hs'
    exact step_port hw hstep hs hs'
  · exact fun hg off hoff => sportGet_none hg hoff

theorem portsKept_deleted : ∃ w, PortsKept w ∧ w.sdir.find 5 = none ∧ (w.sdir.find 6).isSome = true ∧
    bit w.sports.occ 0 = false ∧ bit w.sports.occ 1 = true := by
  have hrun : (replay .plain (inPlain [.addFive none none, .addSix, .bfddDel 5])).any (fun w =>
      (w.sdir.find 5).isNone && (w.sdir.find 6).isSome && !bit w.sports.occ 0 && bit w.sports.occ 1) = true := by
    decide +kernel
  obtain ⟨w, hr, hw⟩ := (Option.any_eq_true _ _).mp hrun
  simp only [Bool.and_eq_true, Option.isNone_iff_eq_none, Bool.not_eq_true'] at hw
  have hreach : Reachable daemon w := replayIf_run (fun _ _ _ _ => trivial) (plain_run _) hr
  exact ⟨w, portsKept hreach, hw.1.1.1, hw.1.1.2, hw.1.2, hw.2⟩

end Bbdd.Daemon
