import Bbdd.Daemon.Fate
import Bbdd.Daemon.Replies

namespace Bbdd.Daemon

open Lib.Program Lib.Directory Lib.Transition Packet Session Prog TxQueue Datapath Poll

structure Sheds (b b' : Bpf) : Prop where
  finals : b'.tx.finals.Sublist b.tx.finals
  sent : ∃ new, b'.sends = new ++ b.sends ∧ ∀ s ∈ new, s.skb.final = false
  config : Pollless b.kernel → Pollless b'.kernel

theorem Sheds.trans {a b c : Bpf} (h : Sheds a b) (k : Sheds b c) : Sheds a c := by
  obtain ⟨new, hs, hn⟩ := h.sent
  obtain ⟨new', hs', hn'⟩ := k.sent
  refine ⟨k.finals.trans h.finals,
    ⟨new' ++ new, by rw [hs', hs, List.append_assoc], fun s hm => ?_⟩, k.config ∘ h.config⟩
  exact (List.mem_append.mp hm).elim (hn' s) (hn s)

theorem Mum.sheds {c c' : Ctx} (h : Mum c c') : Sheds c.bpf c'.bpf :=
  ⟨by rw [h.silent.queued], h.silent.sent, h.config⟩

theorem Sheds.replies {b b' : Bpf} (h : Sheds b b') (d : UInt32) : replies d b' ≤ replies d b := by
  obtain ⟨new, hs, hn⟩ := h.sent
  have hz : new.countP (fun s => s.skb.final && s.skb.discr == d) = 0 :=
    List.countP_eq_zero.mpr (fun s hm => by simp [hn s hm])
  have hc := h.finals.count_le ⟨d, .final⟩
  simp only [Daemon.replies, hs, List.countP_append, hz]
  omega

def AcceptsPoll (nl : Nl) (w : World) (e : Event) (d : UInt32) : Prop :=
  ∃ c h, w.session d = some c ∧ Calls nl w e (.handler d h) ∧ h.polls c = true

/-- A run of the daemon in which a session took so many Polls. -/
inductive Polled (d : UInt32) : Nat → World → Prop
  | start {w} : daemon.init w → Polled d 0 w
  | poll {n w env e w'} : Polled d n w → AcceptsPoll env.nl w e d → daemon.step w (env, e) w' →
      Polled d (n + 1) w'
  | other {n w env e w'} : Polled d n w → ¬ AcceptsPoll env.nl w e d → daemon.step w (env, e) w' → Polled d n w'

section

variable {c c' : Ctx} {w w' : World} {d : UInt32} {l : Label}

theorem Pollless.unset {k : Kernel} (h : Pollless k) (d : UInt32) : Pollless (k.setConfig d none) :=
  h.setConfig (fun _ he => by cases he)

theorem mum_onBpf {f : Bpf → Bpf} (hq : ∀ b, (f b).tx = b.tx) (hs : ∀ b, (f b).sends = b.sends)
    (hk : ∀ b, Pollless b.kernel → Pollless (f b).kernel) : Within Mum (onBpf f) :=
  within_update (fun c => .of_still (hq c.bpf) (hs c.bpf) rfl (hk c.bpf))

theorem mum_txResize (sessions : Nat) (add : Bool) : Within Mum (txResize sessions add) := by
  refine within_bind within_read (fun _ => within_ite (within_pure _) (within_ite (within_pure _) ?_))
  refine within_bind (mum_timed timed_ask) (fun _ => within_ite (within_pure _) ?_)
  exact within_bind (mum_onBpf (fun _ => rfl) (fun _ => rfl) (fun _ => id)) (fun _ => within_pure _)

theorem mum_sessionConfAdd : Within Mum sessionConfAdd := by
  refine within_attempt (mum_sessionConfUpdate _) (fun _ => within_bind (mum_timed timed_ask) (fun a => ?_))
  refine within_bind within_read (fun c => within_ite ?_ (within_bind (mum_timed timed_ask) (fun _ => ?_)))
  · exact within_bind (mum_onBpf (fun _ => rfl) (fun _ => rfl) (fun _ => id)) (fun _ => within_pure _)
  · exact within_bind (within_whenever (mum_onBpf (fun _ => rfl) (fun _ => rfl) (fun _ hk => hk.unset _)))
      (fun _ => within_pure _)

theorem mum_sessionAdd (sessions : Nat) : Within Mum (sessionAdd sessions) := by
  refine within_bind (mum_timed timed_ask) (fun _ => within_ite (within_pure _) ?_)
  refine within_attempt (mum_timed timed_holdStart) (fun _ => ?_)
  refine within_bind (within_attempt (mum_txResize _ _) (fun _ => mum_sessionConfAdd)) (fun r => ?_)
  cases r with
  | error e => exact within_bind (mum_timed timed_holdStop) (fun _ => within_pure _)
  | ok _ => exact within_pure _

theorem unlinked_sheds (c : Ctx) (kind : SlotKind) : Sheds c.bpf (c.unlinked kind).bpf := by
  refine ⟨?_, ⟨[], rfl, by simp⟩, id⟩
  simp only [Ctx.unlinked, Ctx.withSlot, unlink]
  split
  · exact List.Sublist.refl _
  · split
    · exact List.erase_sublist
    · exact List.Sublist.refl _

theorem mum_sessionConfDelete (discr : UInt32) : Within Mum (sessionConfDelete discr) := by
  refine within_bind (mum_timed timed_ask) (fun _ => within_bind (within_whenever ?_) (fun _ => ?_))
  · exact mum_onBpf (fun _ => rfl) (fun _ => rfl) (fun _ hk => hk.unset _)
  · exact within_bind (mum_timed timed_ask)
      (fun _ => within_whenever (mum_onBpf (fun _ => rfl) (fun _ => rfl) (fun _ => id)))

theorem sessionDel_sheds {n : Nat} (h : sessionDel n c = .ok ((), c')) : Sheds c.bpf c'.bpf := by
  have h := read_ok.mp h
  obtain ⟨_, c₁, h₁, h⟩ := bind_ok.mp h
  obtain ⟨_, c₂, h₂, h⟩ := bind_ok.mp h
  obtain ⟨_, c₃, h₃, h⟩ := bind_ok.mp h
  obtain ⟨_, c₄, h₄, h⟩ := bind_ok.mp h
  obtain ⟨_, c₅, h₅, h⟩ := bind_ok.mp h
  have m₁ := within_whenever (mum_timed timed_holdStop) _ _ _ h₁
  have m₂ := within_whenever (mum_timed timed_shwaitStop) _ _ _ h₂
  have m₅ := mum_sessionConfDelete _ _ _ _ h₅
  have m₆ := reported_within (fun _ => mum_onBpf (fun _ => rfl) (fun _ => rfl) (fun _ => id))
    (mum_txResize _ _) _ _ _ _ h
  rw [txUnlink_ok h₃] at h₄
  rw [txUnlink_ok h₄] at m₅
  have hun := (unlinked_sheds c₂ .final).trans (unlinked_sheds _ .periodic)
  exact ((m₁.trans m₂).sheds.trans hun).trans (m₅.trans m₆).sheds

structure Upright (w : World) : Prop where
  config : Pollless w.bpf.kernel
  slots : ∀ d s, w.bsdir.find d = some s → s.finalSlot.linked = true → s.finalSlot.bfdFlags = bitFinal
  sends : ∀ s ∈ w.bpf.sends, ¬ (s.skb.poll = true ∧ s.skb.final = true)

theorem Upright.straight (h : Upright w) (hc : w.session d = some c) : Straight c := by
  obtain ⟨-, hb, hbpf⟩ := session_eq_some.mp hc
  exact ⟨hbpf ▸ h.config, h.slots d _ hb, hbpf ▸ h.sends⟩

theorem Upright.put (h : Upright w) (hc : Straight c) (d : UInt32) : Upright (w.put d c) := by
  refine ⟨hc.config, fun e s he => ?_, hc.sends⟩
  by_cases hed : e = d
  · subst hed
    rw [World.put, Dir.find_insert_self] at he
    cases he
    exact hc.slot
  · rw [World.put, Dir.find_insert_of_ne _ hed] at he
    exact h.slots e s he

theorem Upright.sheds {b : Bpf} (h : Upright w) (hb : Sheds w.bpf b) : Upright (w.setBpf b) := by
  obtain ⟨new, hs, hn⟩ := hb.sent
  refine ⟨hb.config h.config, h.slots, fun s hm => ?_⟩
  change s ∈ b.sends at hm
  rw [hs] at hm
  obtain hm | hm := List.mem_append.mp hm
  · rw [hn s hm]
    exact fun hf => Bool.false_ne_true hf.2
  · exact h.sends s hm

theorem Shared.sheds {b b' : Bpf} (h : Shared b b') : Sheds b b' := by
  have still : ∀ {b' : Bpf}, b'.tx = b.tx → b'.sends = b.sends →
    b'.kernel.config = b.kernel.config → Sheds b b' :=
    fun hq hs hk => ⟨by rw [hq], ⟨[], by rw [hs]; rfl, by simp⟩, fun h => h.of_config hk⟩
  cases h with
  | ask => exact still rfl rfl (ask_config b)
  | output | count | disarm | pop => exact still rfl rfl rfl
  | kernel ev => exact still rfl rfl (Kernel.step_served b.vethTxIfindex b.kernel ev).config

/-- Whether a step is the answer to a Poll for a session. -/
def Label.polls (w : World) (d : UInt32) : Label → Prop
  | .handler e h => e = d ∧ ∃ c, w.session d = some c ∧ h.polls c = true
  | _ => False

theorem Step.upright (h : Step l w w') (hw : Sound w) (hu : Upright w) : Upright w' := by
  cases h with
  | shared hb => exact hu.sheds hb.sheds
  | handled hc hh =>
    have hs := hu.straight hc
    exact hu.put ((hh.tallies (hw.session _ _ hc) hs).straight hs) _
  | @create _ e dsess n c' sports hn hb _ hr =>
    have hs : Straight (w.fresh e dsess) :=
      ⟨hu.config, fun hl => absurd hl (by simp [World.fresh, freshBsess, TxSlot.zero]), hu.sends⟩
    exact { hu.put ((mum_sessionAdd _ _ _ _ hr).straight hs) e with }
  | refuse hn hb hr => exact { hu.sheds (mum_sessionAdd _ _ _ _ hr).sheds with }
  | @remove _ e c n c' hc hr =>
    have hs : Sheds w.bpf c'.bpf := (session_eq_some.mp hc).2.2 ▸ sessionDel_sheds hr
    have hk := hu.sheds hs
    refine ⟨hk.config, fun f s hf => ?_, hk.sends⟩
    by_cases hfe : f = e
    · subst hfe
      simp [World.drop] at hf
    · refine hu.slots f s ?_
      simpa only [World.drop, World.put, Dir.find_erase_of_ne _ hfe, Dir.find_insert_of_ne _ hfe] using hf

theorem Step.replies (h : Step l w w') (hw : Sound w) (hu : Upright w) (d : UInt32) :
    Daemon.replies d w'.bpf ≤ Daemon.replies d w.bpf + 1 ∧
      (¬ l.polls w d → Daemon.replies d w'.bpf ≤ Daemon.replies d w.bpf) := by
  have shed : ∀ {b : Bpf}, Sheds w.bpf b → ∀ {p : Prop},
      Daemon.replies d b ≤ Daemon.replies d w.bpf + 1 ∧ (p → Daemon.replies d b ≤ Daemon.replies d w.bpf) :=
    fun hs => ⟨Nat.le_succ_of_le (hs.replies d), fun _ => hs.replies d⟩
  cases h with
  | shared hb => exact shed hb.sheds
  | create _ _ _ hr => exact shed (mum_sessionAdd _ _ _ _ hr).sheds
  | refuse _ _ hr => exact shed (mum_sessionAdd _ _ _ _ hr).sheds
  | remove hc hr => exact shed ((session_eq_some.mp hc).2.2 ▸ sessionDel_sheds hr)
  | @handled _ e h c c' hc hh =>
    have ht := hh.tallies (hw.session _ _ hc) (hu.straight hc)
    have hbpf := (session_eq_some.mp hc).2.2
    by_cases hde : d = e
    · subst hde
      have hown := ht.own
      rw [hbpf] at hown
      refine ⟨Nat.le_trans hown (by split <;> omega), fun hno => ?_⟩
      have hp : h.polls c ≠ true := fun hp => hno ⟨rfl, c, hc, hp⟩
      rw [if_neg hp] at hown
      exact hown
    · have ho := ht.others d hde
      rw [hbpf] at ho
      exact ⟨Nat.le_succ_of_le ho, fun _ => ho⟩

theorem Elsewhere.replies (h : Elsewhere d w w') (hw : Sound w) (hu : Upright w) :
    (Sound w' ∧ Upright w') ∧ Daemon.replies d w'.bpf ≤ Daemon.replies d w.bpf := by
  refine keeps_of_moves (I := fun v => (Sound v ∧ Upright v) ∧ Daemon.replies d v.bpf ≤ Daemon.replies d w.bpf)
    (fun u v hs hv => ?_) h ⟨⟨hw, hu⟩, Nat.le_refl _⟩
  obtain ⟨l, hl, hs⟩ := hs
  have hno : ¬ l.polls u d := by
    cases l with
    | handler e h => exact fun hp => hl (congrArg some hp.1)
    | shared | create | refuse | remove => exact id
  exact ⟨⟨hs.sound hv.1.1, hs.upright hv.1.1 hv.1.2⟩,
    Nat.le_trans ((hs.replies hv.1.1 hv.1.2 d).2 hno) hv.2⟩

theorem Drains.replies (h : Drains w w') (hw : Sound w) (hu : Upright w) (d : UInt32) :
    Daemon.replies d w'.bpf ≤ Daemon.replies d w.bpf := by
  refine (keeps_of_moves (I := fun v => (Sound v ∧ Upright v) ∧ Daemon.replies d v.bpf ≤ Daemon.replies d w.bpf)
    (fun u v hs hv => ?_) h ⟨⟨hw, hu⟩, Nat.le_refl _⟩).2
  obtain hs | ⟨e, kind, hs⟩ := hs
  · exact ⟨⟨hs.sound hv.1.1, hs.upright hv.1.1 hv.1.2⟩,
      Nat.le_trans ((hs.replies hv.1.1 hv.1.2 d).2 id) hv.2⟩
  · refine ⟨⟨hs.sound hv.1.1, hs.upright hv.1.1 hv.1.2⟩, Nat.le_trans ((hs.replies hv.1.1 hv.1.2 d).2 ?_) hv.2⟩
    rintro ⟨-, c, -, hp⟩
    cases hp

theorem step_replies {env : Env} {e : Event} (hw : Sound w) (hu : Upright w)
    (h : daemon.step w (env, e) w') (d : UInt32) :
    replies d w'.bpf ≤ replies d w.bpf + 1 ∧
      (¬ AcceptsPoll env.nl w e d → replies d w'.bpf ≤ replies d w.bpf) := by
  have hw₀ := hw.enter env
  have hu₀ : Upright (w.enter env) := { hu with }
  obtain ⟨-, ds, hc⟩ | ⟨-, hd⟩ := step_done hw h
  · obtain ⟨-, he⟩ | ⟨-, l, v, v', ha, hl, h₁, hs, h₂⟩ := hc.single d
    · have hle := (he.replies hw₀ hu₀).2
      exact ⟨Nat.le_succ_of_le hle, fun _ => hle⟩
    · obtain ⟨⟨hv, huv⟩, hle₁⟩ := h₁.replies hw₀ hu₀
      have hle₂ := (h₂.replies (hs.sound hv) (hs.upright hv huv)).2
      obtain ⟨hone, hnone⟩ := hs.replies hv huv d
      have hle₁ : replies d v.bpf ≤ replies d w.bpf := hle₁
      refine ⟨by omega, fun hno => ?_⟩
      have hnp : ¬ l.polls v d := by
        cases l with
        | handler e' h =>
          rintro ⟨rfl, c, hc, hp⟩
          exact hno ⟨_, h, before_enter hw h₁ hc, hl, by cases h <;> exact hp⟩
        | shared | create | refuse | remove => exact id
      have := hnone hnp
      omega
  · have hle := hd.replies hw₀ hu₀ d
    exact ⟨Nat.le_succ_of_le hle, fun _ => hle⟩

theorem reachable_upright (h : Reachable daemon w) : Upright w := by
  refine Run.invariant (I := Upright) ?_ (fun w l w' hr hu _ hs => ?_) h
  · rintro s ⟨rx, tx, cap, answers, -, rfl⟩
    refine ⟨fun d config hd => ?_, fun d s hd => ?_, fun s hm => ?_⟩
    · cases hd
    · cases hd
    · cases hm
  · exact step_keeps (fun l v v' hv hs hu => hs.upright hv hu) (reachable_sound hr) hs { hu with }

theorem Polled.reachable {n : Nat} (h : Polled d n w) : Reachable daemon w := by
  induction h with
  | start hs => exact .start hs
  | poll _ _ hs ih | other _ _ hs ih => exact .next ih hs

theorem Polled.replies_le {n : Nat} (h : Polled d n w) : replies d w.bpf ≤ n := by
  induction h with
  | start hs =>
    obtain ⟨rx, tx, cap, answers, -, rfl⟩ := hs
    simp [replies, World.start, create]
  | poll hr _ hs ih =>
    have hle := (step_replies (reachable_sound hr.reachable) (reachable_upright hr.reachable) hs d).1
    omega
  | other hr hno hs ih =>
    have hle := (step_replies (reachable_sound hr.reachable) (reachable_upright hr.reachable) hs d).2 hno
    omega

theorem reachable_polled (h : Reachable daemon w) (d : UInt32) : ∃ n, Polled d n w := by
  induction h with
  | start hs => exact ⟨0, .start hs⟩
  | @next w l w' _ _ hs ih =>
    obtain ⟨n, hn⟩ := ih
    obtain ⟨env, e⟩ := l
    by_cases ha : AcceptsPoll env.nl w e d
    · exact ⟨n + 1, .poll hn ha hs⟩
    · exact ⟨n, .other hn ha hs⟩

theorem taken_poll {packet : BfdPkt} {ttl : UInt8} {p : Parsed} (h : taken c packet ttl = some p) :
    p.poll = hasBit (pktBits packet) bitPoll := by
  have hp := taken_parsed h
  unfold parsePacket at hp
  dsimp only at hp
  split_ifs at hp
  cases hp
  rfl

theorem expected_not_poll {k : Kernel} (hk : Pollless k) {frame : RxFrame} {packet : BfdPkt}
    (hb : frame.bfd = some packet) (hp : hasBit (pktBits packet) bitPoll = true) (d : UInt32)
    (config : SessionConfig) :
    recvVerdict k frame ≠ .expected d config := by
  intro h
  obtain ⟨-, -, -, hcfg, -, -, rfl⟩ := recvVerdict_expected h hb
  rw [hk d config hcfg] at hp
  cases hp

theorem accepted_given {packet : BfdPkt} {wireLen : UInt32} {ttl : UInt8} (h : Meets w d c)
    (ht : (taken c packet ttl).isSome = true) (hp : hasBit (pktBits packet) bitPoll = true) :
    ∃ c', handlePacket packet wireLen ttl c = .ok ((), c') ∧ Given d c c' := by
  obtain ⟨n, hok⟩ := h.ok
  obtain ⟨p, ht⟩ := Option.isSome_iff_exists.mp ht
  obtain ⟨_, c', hr, -⟩ := packet_runs hok packet wireLen ttl
  have hpolls : (Handler.packet packet wireLen ttl).polls c = true := by
    simp [Handler.polls, ht, taken_poll ht, hp]
  have hg := packet_tallies hok.queue hok.name hr
  rw [if_pos hpolls] at hg
  exact ⟨c', hr, hg.2⟩

/-- Polls and Finals: the receive program leaves every Poll to the daemon, a
Poll that is taken is answered by the time its handler is done, Finals are
nothing but such answers, and no packet is both. -/
theorem poll_final :
    (∀ w, Reachable daemon w → ∀ frame packet, frame.bfd = some packet → hasBit (pktBits packet) bitPoll = true →
      ∀ d config, recvVerdict w.bpf.kernel frame ≠ .expected d config) ∧
    (∀ w d c, Meets w d c → ∀ packet wireLen ttl, (taken c packet ttl).isSome = true →
      hasBit (pktBits packet) bitPoll = true → ∃ c', handlePacket packet wireLen ttl c = .ok
        ((), c') ∧ Given d c c') ∧
    (∀ d w, Reachable daemon w → ∃ n, Polled d n w) ∧ (∀ d n w, Polled d n w → replies d w.bpf ≤ n) ∧
    ∀ w, Reachable daemon w → ∀ s ∈ w.bpf.sends, ¬ (s.skb.poll = true ∧ s.skb.final = true) := by
  refine ⟨fun w hr frame packet hb hp => expected_not_poll (reachable_upright hr).config hb hp,
    fun w d c hm packet wireLen ttl ht hp => accepted_given hm ht hp, fun d w hr => reachable_polled hr d,
    fun d n w h => h.replies_le, fun w hr => (reachable_upright hr).sends⟩

theorem poll_final_up : ∃ (w : World) (c c' : Ctx), Meets w 5 c ∧
    (∀ d config, recvVerdict w.bpf.kernel (peerFrame (peerPacket .up bitPoll)) ≠ .expected d config) ∧
    handlePacket (peerPacket .up bitPoll) 66 255 c = .ok ((), c') ∧ Given 5 c c' := by
  obtain ⟨w, c, hw, hc, ht⟩ := exists_replayed (inPlain settledUp)
    (P := fun _ c => (taken c (peerPacket .up bitPoll) 255).isSome = true) (by decide +kernel)
  have hmeets := Meets.of_session hw hc .plain
  obtain ⟨c', hr, hg⟩ := poll_final.2.1 w 5 _ hmeets (peerPacket .up bitPoll) 66 255 ht (by decide)
  exact ⟨w, _, c', hmeets, poll_final.1 w hw _ _ rfl (by decide), hr, hg⟩

end

end Bbdd.Daemon
