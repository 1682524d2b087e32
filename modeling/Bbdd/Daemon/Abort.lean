import Bbdd.Daemon.Replay
import Bbdd.Lib.SafeLoop
import Mathlib.Data.List.Sort

namespace Bbdd.Daemon

open Lib.Program Lib.SafeLoop Lib.Transition Datapath

def dueBefore (deadline : Nat → Nat) (a b : Nat) : Prop :=
  deadline a < deadline b ∨ deadline a = deadline b ∧ b ≤ a

instance (deadline : Nat → Nat) : DecidableRel (dueBefore deadline) := fun a b =>
  inferInstanceAs (Decidable (deadline a < deadline b ∨ deadline a = deadline b ∧ b ≤ a))

instance (deadline : Nat → Nat) : Std.Total (dueBefore deadline) := ⟨fun a b => by unfold dueBefore; omega⟩

instance (deadline : Nat → Nat) : IsTrans Nat (dueBefore deadline) :=
  ⟨fun a b c h h' => by unfold dueBefore at *; omega⟩

def timerIds (deadline : Nat → Nat) (w : World) : List Nat :=
  (w.bpf.timers.map (·.id)).insertionSort (dueBefore deadline)

def expire (deadline : Nat → Nat) (now : Nat) (envs : Nat → Env) (id : Nat) (w : World) :
    Except Crash World :=
  if deadline id ≤ now then (run w (envs id) (.timer id none)).map (·.2) else .ok w

def timersFdCb (deadline : Nat → Nat) (now : Nat) (envs : Nat → Env) (w : World) : Except Crash World :=
  walk (timerIds deadline) .dangling (expire deadline now envs) (w.bpf.timers.length + 1)
    (timerIds deadline w).head? w

section

variable {deadline : Nat → Nat} {now : Nat} {envs : Nat → Env} {w : World}

theorem mem_timerIds {id : Nat} : id ∈ timerIds deadline w ↔ Pending w.bpf.timers id := by
  simp [timerIds, Pending]

theorem Sound.timerIds_nodup (hw : Sound w) : (timerIds deadline w).Nodup :=
  (List.perm_insertionSort _ _).nodup_iff.mpr hw.nodup

theorem not_freed_self (timers : List Timer) (id : Nat) (next : Option Nat) :
    ¬ Freed timers timers id next :=
  fun ⟨_, _, _, hp, hn⟩ => hn hp

theorem not_freed_none (before after : List Timer) (id : Nat) : ¬ Freed before after id none :=
  fun ⟨_, h, _⟩ => by cases h

theorem timerEvent_next (id : Nat) (next : Option Nat) :
    timerEvent id next w =
      match timerEvent id none w with
      | .error k => .error k
      | .ok r => if Freed w.bpf.timers r.2.bpf.timers id next then .error .dangling else .ok r := by
  simp only [timerEvent, bind_run (read_run w)]
  cases w.bpf.timers.find? (·.id = id) with
  | none => exact (if_neg (not_freed_self _ id next)).symm
  | some t =>
    cases hfire : timerFire t w with
    | error k => simp only [bind_error hfire]
    | ok r =>
      obtain ⟨⟨⟩, w'⟩ := r
      simp only [bind_run hfire, bind_run (read_run w'), if_neg (not_freed_none _ _ _)]
      show (if _ then _ else _ : Cmd Unit) w' = if _ then _ else _
      split <;> rfl

theorem run_timer (env : Env) (id : Nat) (next : Option Nat) :
    run w env (.timer id next) =
      match run w env (.timer id none) with
      | .error k => .error k
      | .ok r => if Freed w.bpf.timers r.2.bpf.timers id next then .error .dangling else .ok r := by
  have h := timerEvent_next (w := w.enter env) id next
  simp only [run, handle, map_eq_pure_bind]
  cases hn : timerEvent id none (w.enter env) with
  | error k =>
    rw [hn] at h
    simp only [bind_error hn, bind_error h]
  | ok r =>
    obtain ⟨⟨⟩, w'⟩ := r
    rw [hn] at h
    by_cases hf : Freed w.bpf.timers w'.bpf.timers id next
    · have herr : timerEvent id next (w.enter env) = .error .dangling := h.trans (if_pos hf)
      exact (bind_error herr).trans ((if_pos hf).symm.trans (by rw [bind_run hn]; rfl))
    · have hok : timerEvent id next (w.enter env) = .ok ((), w') := h.trans (if_neg hf)
      rw [bind_run hn, bind_run hok]
      exact (if_neg hf).symm

variable (deadline now envs) in
/-- The turns a pass at a timer comes to, with the world each is made in,
the timer whose turn it is and the one that is saved. -/
inductive Comes : World → Option Nat → World → Nat → Option Nat → Prop
  | here {w id} : deadline id ≤ now → Comes w (some id) w id (after (timerIds deadline w) id)
  | later {w id w' v i next} : deadline id ≤ now →
      daemon.step w (envs id, .timer id (after (timerIds deadline w) id)) w' →
      Comes w' (after (timerIds deadline w) id) v i next → Comes w (some id) v i next

def World.due (w : World) (deadline : Nat → Nat) (now : Nat) : List Timer :=
  w.bpf.timers.filter (deadline ·.id ≤ now)

def Late (deadline : Nat → Nat) (now : Nat) (w : World) : Prop :=
  ∀ id, w.bpf.nextTimer ≤ id → now < deadline id

theorem due_drops {t : Timer} {w' : World} (hw : Sound w) (hl : Late deadline now w) (ht : t ∈ w.bpf.timers)
    (hd : deadline t.id ≤ now) (h : Step (.handler t.discr (.timer t)) w w') :
    (w'.due deadline now).length < (w.due deadline now).length := by
  have hmem : t ∈ w.due deadline now := List.mem_filter.mpr ⟨ht, decide_eq_true hd⟩
  have hsub : w'.due deadline now ⊆ (w.due deadline now).erase t := by
    intro u hu
    obtain ⟨hu, hdue⟩ := List.mem_filter.mp hu
    obtain ⟨hold, hne⟩ | hnew := (h.turned hw).2 u hu
    · exact (List.mem_erase_of_ne fun he => hne (by rw [he])).mpr (List.mem_filter.mpr ⟨hold, hdue⟩)
    · exact absurd (of_decide_eq_true hdue) (Nat.not_le.mpr (hl _ hnew.ge))
  have hle : (w'.due deadline now).length ≤ _ :=
    (List.subperm_of_subset ((h.sound hw).nodup.of_map.filter _) hsub).length_le
  rw [List.length_erase_of_mem hmem] at hle
  have := List.length_pos_of_mem hmem
  omega

theorem turn_steps {env : Env} {id : Nat} {next : Option Nat} {r : Option Unit × World}
    (hw : Sound w) (hl : Late deadline now w) (hp : Pending w.bpf.timers id)
    (hd : deadline id ≤ now) (h : run w env (.timer id next) = .ok r) :
    daemon.step w (env, .timer id next) r.2 ∧ Late deadline now r.2 ∧
      (r.2.due deadline now).length < (w.due deadline now).length := by
  have hf : ¬ Fatal (w.enter env) (.timer id next) := fun hf => by
    obtain ⟨k, hk⟩ := (run_dies_iff hw env _).mpr ((fatal_enter env _).mp hf)
    cases h.symm.trans hk
  obtain ⟨_, w', hrun, hw'⟩ := timerEvent_steps (hw.enter env) hf
  have hr : run w env (.timer id next) = .ok (some (), w') := by
    simp only [run, handle, map_eq_pure_bind, bind_run hrun]
    rfl
  obtain rfl : (some (), w') = r := Except.ok.inj (hr.symm.trans h)
  obtain ⟨hn, -⟩ | ⟨t, ht, rfl, hstep⟩ := hw'
  · exact absurd hp hn
  · have hnext := (hstep.turned (hw.enter env)).1
    exact ⟨hr, fun i hi => hl i (Nat.le_trans hnext hi), due_drops (w := w.enter env) (hw.enter env)
      hl ht hd hstep⟩

theorem walk_late {n id : Nat} (hw : Sound w) (hp : Pending w.bpf.timers id) (hd : ¬ deadline id ≤ now) :
    walk (timerIds deadline) .dangling (expire deadline now envs) n (some id) w = .ok w := by
  have hm : id ∈ timerIds deadline w := mem_timerIds.mpr hp
  obtain ⟨pre, post, hv⟩ := List.append_of_mem hm
  have hsorted : (timerIds deadline w).Pairwise (dueBefore deadline) := List.pairwise_insertionSort _ _
  rw [hv, List.pairwise_append] at hsorted
  have hstill : ∀ b ∈ id :: post, expire deadline now envs b w = .ok w := by
    refine fun b hb => if_neg fun hle => hd ?_
    obtain rfl | hb := List.mem_cons.mp hb
    · exact hle
    · have h := List.rel_of_pairwise_cons hsorted.2.1 hb
      unfold dueBefore at h
      omega
  exact walk_still hv hw.timerIds_nodup hstill n

theorem comes_later_iff {id : Nat} {w' : World} (hw : Sound w) (hd : deadline id ≤ now)
    (hstep : daemon.step w (envs id, .timer id (after (timerIds deadline w) id)) w') :
    (∃ v i next, Comes deadline now envs w' (after (timerIds deadline w) id) v i next ∧ Fatal v (.timer i next)) ↔
      ∃ v i next, Comes deadline now envs w (some id) v i next ∧ Fatal v (.timer i next) := by
  constructor
  · rintro ⟨v, i, next, ht, hfatal⟩
    exact ⟨v, i, next, .later hd hstep ht, hfatal⟩
  · rintro ⟨v, i, next, ht, hfatal⟩
    cases ht with
    | here =>
      obtain ⟨k, hk⟩ := (run_dies_iff hw (envs id) _).mpr hfatal
      cases hk.symm.trans hstep
    | later _ hstep' ht =>
      obtain rfl := (Prod.mk.inj (Except.ok.inj (hstep'.symm.trans hstep))).2
      exact ⟨v, i, next, ht, hfatal⟩

theorem walk_dies_iff {n : Nat} {o : Option Nat} (hw : Sound w) (hl : Late deadline now w)
    (hn : (w.due deadline now).length < n) (ho : ∀ id ∈ o, Pending w.bpf.timers id) :
    (∃ k, walk (timerIds deadline) .dangling (expire deadline now envs) n o w = .error k) ↔
      ∃ v id next, Comes deadline now envs w o v id next ∧ Fatal v (.timer id next) := by
  induction n generalizing w o with
  | zero => exact absurd hn (Nat.not_lt_zero _)
  | succ n ih =>
    cases o with
    | none => exact iff_of_false (by rintro ⟨_, h⟩; cases h) (by rintro ⟨_, _, _, h, _⟩; cases h)
    | some id =>
      have hp := ho id rfl
      by_cases hd : deadline id ≤ now
      · have hmem : id ∈ timerIds deadline w := mem_timerIds.mpr hp
        have hnext := run_timer (w := w) (envs id) id (after (timerIds deadline w) id)
        rw [walk, if_pos hmem, expire, if_pos hd]
        cases hr : run w (envs id) (.timer id none) with
        | error k =>
          rw [hr] at hnext
          exact iff_of_true ⟨k, rfl⟩ ⟨w, id, _, .here hd, (run_dies_iff hw _ _).mp ⟨k, hnext⟩⟩
        | ok r =>
          rw [hr] at hnext
          by_cases hf : Freed w.bpf.timers r.2.bpf.timers id (after (timerIds deadline w) id)
          · have hdies := hnext.trans (if_pos hf)
            obtain ⟨b, hb, -, -, hgone⟩ := hf
            obtain ⟨m, rfl⟩ : ∃ m, n = m + 1 := by
              have := (turn_steps hw hl hp hd hr).2.2
              exact ⟨n - 1, by omega⟩
            refine iff_of_true ⟨.dangling, ?_⟩ ⟨w, id, _, .here hd, (run_dies_iff hw _ _).mp ⟨_, hdies⟩⟩
            rw [hb]
            exact if_neg fun h => hgone (mem_timerIds.mp h)
          · obtain ⟨hstep, hl', hdue⟩ := turn_steps hw hl hp hd (hnext.trans (if_neg hf))
            have hkept : ∀ b ∈ after (timerIds deadline w) id, Pending r.2.bpf.timers b := fun b hb => by
              obtain ⟨hin, hne⟩ := mem_of_after hw.timerIds_nodup hb
              exact not_not.mp fun hgone => hf ⟨b, hb, hne, mem_timerIds.mp hin, hgone⟩
            exact (ih (step_sound hw hstep) hl' (by omega) hkept).trans (comes_later_iff hw hd hstep)
      · rw [walk_late hw hp hd]
        exact iff_of_false (by rintro ⟨_, h⟩; cases h)
          (by rintro ⟨_, _, _, h, _⟩; cases h <;> contradiction)

theorem timersFdCb_dies_iff (hw : Sound w) (hl : Late deadline now w) :
    (∃ k, timersFdCb deadline now envs w = .error k) ↔
      ∃ v id next, Comes deadline now envs w (timerIds deadline w).head? v id next ∧ Fatal v (.timer id next) :=
  walk_dies_iff hw hl (Nat.lt_succ_of_le (List.length_filter_le _ _)) fun _ h => mem_timerIds.mp
    (List.mem_of_mem_head? h)

/-- Whatever the daemon went through, an event kills it exactly if it is the
timeout of a session that is on hold by the time it is handled, or the end of a
shutdown wait that its session has lost. A pass over the timers kills it
exactly if one of its turns does. -/
theorem run_survives_iff (h : Reachable daemon w) :
    (∀ env e, (∀ k, run w env e ≠ .error k) ↔ ¬ Fatal w e) ∧
    ∀ deadline now envs, Late deadline now w → ((∀ k, timersFdCb deadline now envs w ≠ .error k) ↔
      ∀ v id next, Comes deadline now envs w (timerIds deadline w).head? v id next →
        ¬ Fatal v (.timer id next)) := by
  have hw := reachable_sound h
  refine ⟨fun env e => ?_, fun deadline now envs hl => ?_⟩
  · rw [← run_dies_iff hw env e, not_exists]
  · have hdies : (∃ k, timersFdCb deadline now envs w = .error k) ↔ _ := timersFdCb_dies_iff hw hl
    simpa only [not_exists, not_and] using not_congr hdies

end

theorem run_survives_timeout : ∃ w, Reachable daemon w ∧ w.bpf.kernel.ring = [.rxTimeout 5] ∧
    ∀ k, run w .plain .ringbuf ≠ .error k := by
  obtain ⟨w, c, hw, hc, hr, hb⟩ := exists_replayed (inPlain (bringUp ++ [.kernel (.expired true 5)]))
    (P := fun w c => w.bpf.kernel.ring = [.rxTimeout 5] ∧ c.bsess.bstate = .stable) (by decide +kernel)
  refine ⟨w, hw, hr, ((run_survives_iff hw).1 .plain .ringbuf).mpr ?_⟩
  rintro ⟨d, rest, s, hr', hs, hb'⟩
  rw [hr] at hr'
  cases hr'
  rw [hc] at hs
  cases hs
  rw [hb] at hb'
  cases hb'

/-- The timeout is still in the ring buffer when its session is deleted and
added again. And a wait that was forgotten ends while the next timer is that of
the wait that took its place. -/
theorem run_aborts_readded :
    (∃ w, Reachable daemon w ∧ run w .plain .ringbuf = .error .onHold) ∧
    ∃ w, Reachable daemon w ∧ timersFdCb id 1 (fun _ => .plain) w = .error .dangling ∧
      ∀ k, run w .plain (.timer 1 none) ≠ .error k := by
  constructor
  · obtain ⟨w, c, hw, -, hr⟩ := exists_replayed
      (inPlain (bringUp ++ [.kernel (.expired true 5), .bfddDel 5, .addFive none none]))
      (P := fun w _ => (match run w .plain .ringbuf with
        | .error k => decide (k = .onHold)
        | .ok _ => false) = true) (by decide +kernel)
    refine ⟨w, hw, ?_⟩
    split at hr
    · rename_i k hk
      rw [hk, of_decide_eq_true hr]
    · cases hr
  · obtain ⟨w, c, hw, -, hr, hone⟩ := exists_replayed
      (inPlain (bringUp ++ [.setFive (some true) none, .setFive none (some 2000000)] ++ expiry ++
        [.setFive (some false) none, .setFive (some true) none]))
      (P := fun w _ => (match timersFdCb id 1 (fun _ => .plain) w with
        | .error k => decide (k = .dangling)
        | .ok _ => false) = true ∧ (run w .plain (.timer 1 none)).isOk = true) (by decide +kernel)
    refine ⟨w, hw, ?_, fun k hk => by rw [hk] at hone; cases hone⟩
    split at hr
    · rename_i k hk
      rw [hk, of_decide_eq_true hr]
    · cases hr

end Bbdd.Daemon
