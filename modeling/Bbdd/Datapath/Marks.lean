import Bbdd.Datapath.Loop
import Bbdd.Prog.Maps

namespace Bbdd.Datapath

open Lib.Program Packet Session Prog TxQueue

section

variable {R : Kernel → Kernel → Prop} [IsTrans Kernel R] {c c' : Ctx}

theorem Bpf.send_allowed (ha : Allows R) (b : Bpf) (a : Answer) (veth : Veth) (skb : Skb) :
    R b.kernel (b.send a veth skb).2.kernel := by
  have hegress : R b.kernel (egress b a veth skb).2.2 := by
    cases veth with
    | tx => exact ha.xmitVethTx ..
    | rx => exact ha.xmitVethRxXmit ..
  unfold Bpf.send
  generalize egress b a veth skb = r at hegress
  obtain ⟨act, skb', k⟩ := r
  cases act with
  | ok => exact trans_of R hegress (ha.circ ..)
  | shot | stolen | redirect => exact hegress

variable [Std.Refl R]

theorem Bpf.ask_allowed (ha : Allows R) (b : Bpf) : R b.kernel b.ask.2.kernel := ha.steps ..

theorem sessionInjectPkt_allowed (ha : Allows R) {veth : Veth} {flags : UInt8} {r : Except String Unit}
    (h : sessionInjectPkt veth flags c = .ok (r, c')) : R c.bpf.kernel c'.bpf.kernel := by
  obtain ⟨bdata, -, rfl, -⟩ := sessionInjectPkt_eq h
  have hask := (c.handed veth).bpf.ask_allowed ha
  rw [handed_kernel] at hask
  exact trans_of R hask (Bpf.send_allowed ha _ (c.handed veth).bpf.ask.1 veth (c.packet bdata flags))

theorem Timed.allowed (ha : Allows R) (h : Timed c c') : R c.bpf.kernel c'.bpf.kernel := by
  obtain ⟨-, -, ⟨evs, t, n, tk, out, ar, hp⟩⟩ := h
  rw [hp]
  exact ha.steps ..

end

theorem ask_served (b : Bpf) : Served b.kernel b.ask.2.kernel := b.ask_allowed allows_served

theorem ask_config (b : Bpf) : b.ask.2.kernel.config = b.kernel.config := (ask_served b).config

theorem sessionInjectPkt_served {c c' : Ctx} {veth : Veth} {flags : UInt8} {r : Except String Unit}
    (h : sessionInjectPkt veth flags c = .ok (r, c')) :
    c'.dsess = c.dsess ∧ c'.bsess = c.bsess ∧ Served c.bpf.kernel c'.bpf.kernel := by
  have hs := sessionInjectPkt_allowed allows_served h
  obtain ⟨bdata, -, rfl, -⟩ := sessionInjectPkt_eq h
  exact ⟨rfl, rfl, hs⟩

theorem Timed.served {c c' : Ctx} (h : Timed c c') : Served c.bpf.kernel c'.bpf.kernel :=
  h.allowed allows_served

theorem Timed.config {c c' : Ctx} (h : Timed c c') : c'.bpf.kernel.config = c.bpf.kernel.config :=
  h.served.config

/-- The config entries while an update is carried out: at most the session's
own was written, with the mark the session has. -/
structure Charted (c c' : Ctx) : Prop where
  discr : c'.dsess.localData.discr = c.dsess.localData.discr
  genId : c'.bsess.genId = c.bsess.genId
  genBumps : c'.bsess.genBumps = c.bsess.genBumps
  config : c'.bpf.kernel.config = c.bpf.kernel.config ∨ ∃ entry : SessionConfig, entry.genId = c.bsess.genId ∧
    c'.bpf.kernel.config = Function.update c.bpf.kernel.config c.dsess.localData.discr (some entry)

instance : Std.Refl Charted := ⟨fun _ => ⟨rfl, rfl, rfl, .inl rfl⟩⟩

instance : IsTrans Ctx Charted where
  trans a b c h k := by
    refine ⟨k.discr.trans h.discr, k.genId.trans h.genId, k.genBumps.trans h.genBumps, ?_⟩
    obtain hc | ⟨entry, hg, hc⟩ := k.config
    · rw [hc]
      exact h.config
    · refine .inr ⟨entry, hg.trans h.genId, ?_⟩
      obtain hc' | ⟨entry', -, hc'⟩ := h.config
      · rw [hc, hc', h.discr]
      · rw [hc, hc', h.discr, Function.update_idem]

theorem charted_sessionInjectPkt (veth : Veth) (flags : UInt8) :
    Within Charted (sessionInjectPkt veth flags) := by
  intro c r c' h
  obtain ⟨hd, hb, hs⟩ := sessionInjectPkt_served h
  exact ⟨by rw [hd], by rw [hb], by rw [hb], .inl hs.config⟩

theorem charted_sessionConfUpdate (args : ConfArgs) : Within Charted (sessionConfUpdate args) := by
  intro c r c' h
  obtain ⟨-, ⟨rfl, -⟩ | ⟨rfl, -⟩⟩ | ⟨-, addrs, -, rfl⟩ := sessionConfUpdate_eq h
  · exact refl_of Charted _
  · exact ⟨rfl, rfl, rfl, .inl (ask_config _)⟩
  · refine ⟨rfl, rfl, rfl, .inr ⟨confEntry c.dsess c.bsess args addrs, rfl, ?_⟩⟩
    simp only [Kernel.setConfig, ask_config]

theorem charted_updateRearm (us : UInt32) : Within Charted (updateRearm us) :=
  updateRearm_within (charted_sessionInjectPkt _ _)
    (fun _ => within_update (fun _ => ⟨rfl, rfl, rfl, .inl rfl⟩)) us

theorem updateNow_charted {c c' : Ctx} {inject : Bool} {r : Except String Unit}
    (h : updateNow inject c = .ok (r, c')) :
    Charted c.bumped c' := by
  obtain ⟨us, -, h⟩ := updateNow_marked h
  exact within_attempt (charted_sessionConfUpdate _) (fun _ =>
    within_attempt (updateInject_within (fun _ _ _ _ _ => charted_sessionInjectPkt _ _ _ _ _) _)
      (fun _ => charted_updateRearm _)) _ _ _ h

/-- The config entries in the course of some moves. The session's own is kept,
or written under a mark the session got meanwhile; it is dropped or written
otherwise only when the session comes or goes. -/
structure Ages (own : Option UInt32) (c c' : Ctx) : Prop where
  discr : c'.dsess.localData.discr = c.dsess.localData.discr
  bumps : c.bsess.genBumps ≤ c'.bsess.genBumps
  gen : c.bsess.genId = UInt32.ofNat c.bsess.genBumps → c'.bsess.genId = UInt32.ofNat c'.bsess.genBumps
  others : ∀ e, e ≠ c.dsess.localData.discr → own ≠ some e → c'.bpf.kernel.config e = c.bpf.kernel.config e
  entry : c'.bpf.kernel.config c.dsess.localData.discr = c.bpf.kernel.config c.dsess.localData.discr ∨
    (∃ n entry, c.bsess.genBumps < n ∧ n ≤ c'.bsess.genBumps ∧
      c'.bpf.kernel.config c.dsess.localData.discr = some entry ∧
      (c.bsess.genId = UInt32.ofNat c.bsess.genBumps → entry.genId = UInt32.ofNat n)) ∨
    (own = some c.dsess.localData.discr ∧
      (c'.bpf.kernel.config c.dsess.localData.discr = none ∨ c.bsess.genBumps = 0))

section

variable {own : Option UInt32} {a b c c' : Ctx}

theorem Ages.still (hd : c'.dsess.localData.discr = c.dsess.localData.discr)
    (hg : c'.bsess.genId = c.bsess.genId) (hb : c'.bsess.genBumps = c.bsess.genBumps)
    (hc : c'.bpf.kernel.config = c.bpf.kernel.config) : Ages own c c' :=
  ⟨hd, hb.ge, fun h => by rw [hg, hb, h], fun _ _ _ => by rw [hc], .inl (by rw [hc])⟩

theorem Ages.refl (own : Option UInt32) (c : Ctx) : Ages own c c := .still rfl rfl rfl rfl

theorem Ages.trans (h : Ages own a b) (k : Ages own b c) : Ages own a c := by
  refine ⟨k.discr.trans h.discr, h.bumps.trans k.bumps, k.gen ∘ h.gen, fun e he ho => ?_, ?_⟩
  · rw [k.others e (h.discr ▸ he) ho, h.others e he ho]
  · have hk := k.entry
    rw [h.discr] at hk
    obtain hk | ⟨n, entry, hlt, hle, hk, hg⟩ | ⟨ho, hk⟩ := hk
    · rw [hk]
      obtain hh | ⟨n, entry, hlt, hle, hh, hg⟩ | hh := h.entry
      · exact .inl hh
      · exact .inr (.inl ⟨n, entry, hlt, hle.trans k.bumps, hh, hg⟩)
      · exact .inr (.inr hh)
    · exact .inr (.inl ⟨n, entry, h.bumps.trans_lt hlt, hle, hk, hg ∘ h.gen⟩)
    · exact .inr (.inr ⟨ho, hk.imp_right (fun h0 => by have := h.bumps; omega)⟩)

theorem Charted.ages (h : Charted c.bumped c') : Ages own c c' := by
  have hd : c'.dsess.localData.discr = c.dsess.localData.discr := h.discr
  have hg : c'.bsess.genId = c.bsess.genId + 1 := h.genId
  have hb : c'.bsess.genBumps = c.bsess.genBumps + 1 := h.genBumps
  have hnext : c.bsess.genId = UInt32.ofNat c.bsess.genBumps → c.bsess.genId + 1 = UInt32.ofNat
    (c.bsess.genBumps + 1) := by
    intro hgen
    rw [hgen, UInt32.ofNat_add]
    rfl
  refine ⟨hd, by omega, fun hgen => by rw [hg, hb]; exact hnext hgen, fun e he _ => ?_, ?_⟩
  · obtain hc | ⟨entry, -, hc⟩ := h.config
    · rw [hc]; rfl
    · rw [hc]; exact Function.update_of_ne he _ _
  · obtain hc | ⟨entry, hen, hc⟩ := h.config
    · exact .inl (by rw [hc]; rfl)
    · refine .inr (.inl ⟨c.bsess.genBumps + 1, entry, Nat.lt_succ_self _, hb.ge, ?_, fun hgen =>
        hen.trans (hnext hgen)⟩)
      rw [hc]
      exact Function.update_self _ _ _

theorem Timed.ages (h : Timed c c') : Ages own c c' := by
  have hc := h.config
  obtain ⟨hd, ⟨s, o, hb⟩, -⟩ := h
  exact .still (by rw [hd]) (by rw [hb]) (by rw [hb]) hc

theorem Move.ages (h : Move own c c') (hown : ∀ d, own = some d → d = c.dsess.localData.discr) :
    Ages own c c' := by
  cases h with
  | ask h => cases h; exact .still rfl rfl rfl (ask_config _)
  | output | fired | dequeued | capacity => exact .still rfl rfl rfl rfl
  | shwaitStop h => exact (timed_shwaitStop _ _ _ h).ages
  | shwaitStart h => exact (timed_shwaitStart _ _ _ h).ages
  | holdStop h => exact (timed_holdStop _ _ _ h).ages
  | holdStart h => exact (timed_holdStart _ _ _ h).ages
  | write h => exact .still h.discr h.genId h.genBumps (by rw [h.bpf])
  | unlink kind h =>
    rw [txUnlink_ok h]
    cases kind <;> exact .still rfl rfl rfl rfl
  | enqueue kind flags hf h =>
    rw [hf] at h
    obtain ⟨diagStats, -, ht⟩ := txEnqueue_ok h
    refine Ages.trans ?_ ht.ages
    cases kind <;> exact .still rfl rfl rfl rfl
  | inject veth flags hf h =>
    obtain ⟨hd, hb, hs⟩ := sessionInjectPkt_served h
    exact .still (by rw [hd]) (by rw [hb]) (by rw [hb]) hs.config
  | update inject hg h => exact (updateNow_charted h).ages
  | maps config data ho hothers hentry =>
    have hd := hown _ ho
    subst hd
    refine ⟨rfl, Nat.le_refl _, id, fun e he _ => (hothers e he).1, ?_⟩
    obtain hn | hs | h0 := hentry
    · exact .inr (.inr ⟨ho, .inl hn⟩)
    · exact .inl hs
    · exact .inr (.inr ⟨ho, .inr h0⟩)

theorem Moves.ages (h : Moves own c c') (hown : ∀ d, own = some d → d = c.dsess.localData.discr) :
    Ages own c c' := by
  refine keeps_of_moves (I := fun b => Ages own c b) (fun a b hm ha => ?_) h (.refl own c)
  exact ha.trans (hm.ages (fun d hd => (hown d hd).trans ha.discr.symm))

end

def marksOf (k : Kernel) (d : UInt32) : List UInt32 := (k.circ.filter (·.discr = d)).map Skb.mark

theorem marksOf_core (k : Kernel) (d : UInt32) :
    marksOf k d = ((k.circ.map Skb.core).filter (·.discr = d)).map Skb.mark := by
  rw [List.filter_map, List.map_map]
  rfl

theorem Flows.marks {k k' : Kernel} (h : Flows k k') (d : UInt32) :
    (marksOf k' d).Sublist (marksOf k d) := by
  rw [marksOf_core, marksOf_core]
  exact (h.circ.filter _).map _

theorem marksOf_append {k k' : Kernel} {skb : Skb} (h : k'.circ = k.circ ++ [skb]) (d : UInt32) :
    marksOf k' d = marksOf k d ++ if skb.discr = d then [skb.mark] else [] := by
  rw [marksOf, h, List.filter_append, List.map_append]
  by_cases hd : skb.discr = d <;> simp [marksOf, hd]

theorem send_marks (b : Bpf) (a : Answer) (veth : Veth) {skb : Skb} (hb : skb.isBfd = true) (d : UInt32) :
    marksOf (b.send a veth skb).2.kernel d = marksOf b.kernel d ∨
      veth = .tx ∧ skb.final = false ∧ skb.discr = d ∧
        marksOf (b.send a veth skb).2.kernel d = marksOf b.kernel d ++ [skb.mark] := by
  cases send_fate b a veth hb with
  | joined skb' hv hf _ hcore hcirc =>
    have hdiscr : skb'.discr = skb.discr := by rw [← skb'.core_discr, hcore]; rfl
    have hmark : skb'.mark = skb.mark := by rw [← skb'.core_mark, hcore]; rfl
    rw [marksOf_append hcirc, hdiscr, hmark]
    by_cases hd : skb.discr = d
    · exact .inr ⟨hv, hf, hd, by rw [if_pos hd]⟩
    · exact .inl (by rw [if_neg hd, List.append_nil])
  | left _ hcirc | refused _ hcirc => exact .inl (by rw [marksOf, hcirc, marksOf])

/-- The marks of a session's packets are told apart, and none is newer than
the session's own. -/
structure Marks (c : Ctx) : Prop where
  dport : BfdPort c.dsess
  gen : c.bsess.genId = UInt32.ofNat c.bsess.genBumps
  nodup : (marksOf c.bpf.kernel c.dsess.localData.discr).Nodup
  dated : ∀ m ∈ marksOf c.bpf.kernel c.dsess.localData.discr, 1 ≤ m.toNat ∧ m.toNat ≤ c.bsess.genBumps

section

variable {own : Option UInt32} {c c' : Ctx} {veth : Veth} {flags : UInt8} {d : UInt32}

theorem Marks.sublist (hm : Marks c) (hp : BfdPort c'.dsess) (hg : c'.bsess.genId = c.bsess.genId)
    (hb : c'.bsess.genBumps = c.bsess.genBumps) (hd : c'.dsess.localData.discr = c.dsess.localData.discr)
    (hs : (marksOf c'.bpf.kernel c.dsess.localData.discr).Sublist
      (marksOf c.bpf.kernel c.dsess.localData.discr)) :
    Marks c' := by
  refine ⟨hp, by rw [hg, hb, hm.gen], ?_, ?_⟩ <;> rw [hd]
  · exact hm.nodup.sublist hs
  · intro m hmem
    rw [hb]
    exact hm.dated m (hs.subset hmem)

theorem Marks.drift (hm : Marks c) (h : Drift c c') : Marks c' :=
  hm.sublist (h.dport hm.dport) h.genId h.genBumps h.discr (Flows.marks h.idle.flow _)

theorem Sends.marks (h : Sends veth flags c c') (hp : BfdPort c.dsess)
    (hv : veth = .rx ∨ hasBit flags bitFinal = true) :
    marksOf c'.bpf.kernel d = marksOf c.bpf.kernel d := by
  obtain ⟨a, bdata, -, rfl⟩ := h
  obtain hs | ⟨rfl, hf, -, -⟩ := send_marks c.bpf a veth (packet_isBfd hp bdata flags) d
  · exact hs
  · rw [Skb.final, Ctx.packet, injectSkb, final_makePacket] at hf
    obtain hv | hv := hv
    · cases hv
    · rw [hf] at hv
      cases hv

theorem Sends.same (h : Sends veth flags c c') : c'.dsess = c.dsess ∧ c'.bsess = c.bsess := by
  obtain ⟨a, bdata, -, rfl⟩ := h
  exact ⟨rfl, rfl⟩

theorem Marks.sends (hm : Marks c) (h : Sends veth flags c c')
    (hv : veth = .rx ∨ hasBit flags bitFinal = true) : Marks c' := by
  have hk := h.marks (d := c.dsess.localData.discr) hm.dport hv
  obtain ⟨hd, hb⟩ := h.same
  exact hm.sublist (hd ▸ hm.dport) (by rw [hb]) (by rw [hb]) (by rw [hd]) (by rw [hk])

theorem Marks.trail (hm : Marks c) (h : Trail c c') : Marks c' := by
  refine keeps_of_moves (fun a b hs hm => ?_) h hm
  obtain hd | hs := hs
  · exact hm.drift hd
  · exact hm.sends hs (.inl rfl)

theorem Trail.genBumps (h : Trail c c') : c'.bsess.genBumps = c.bsess.genBumps := by
  refine keeps_of_moves (I := fun b => b.bsess.genBumps = c.bsess.genBumps) (fun a b hs ha => ?_) h rfl
  obtain hd | hs := hs
  · exact hd.genBumps.trans ha
  · rw [hs.same.2, ha]

theorem Marks.bumped (hm : Marks c) : Marks c.bumped where
  dport := hm.dport
  gen := by
    change c.bsess.genId + 1 = UInt32.ofNat (c.bsess.genBumps + 1)
    rw [hm.gen, UInt32.ofNat_add]
    rfl
  nodup := hm.nodup
  dated m hmem := ⟨(hm.dated m hmem).1, Nat.le_succ_of_le (hm.dated m hmem).2⟩

theorem Marks.fresh (hm : Marks c) (hb : c.bsess.genBumps < 2 ^ 32) (h0 : 1 ≤ c.bsess.genBumps)
    (hnew : ∀ m ∈ marksOf c.bpf.kernel c.dsess.localData.discr, m.toNat < c.bsess.genBumps)
    (h : Sends .tx flags c c') : Marks c' := by
  obtain ⟨hds, hbs⟩ := h.same
  obtain ⟨a, bdata, -, hc⟩ := h
  have hk : c'.bpf.kernel = (c.bpf.send a .tx (c.packet bdata flags)).2.kernel := by rw [hc]
  obtain hs | ⟨-, -, -, hs⟩ := send_marks c.bpf a .tx (packet_isBfd hm.dport bdata flags) c.dsess.localData.discr
  · exact hm.sublist (hds ▸ hm.dport) (by rw [hbs]) (by rw [hbs]) (by rw [hds]) (by rw [hk, hs])
  · have hnum : c.bsess.genId.toNat = c.bsess.genBumps := by
      rw [hm.gen]
      exact UInt32.toNat_ofNat_of_lt' hb
    have hs' : marksOf c'.bpf.kernel c.dsess.localData.discr =
        marksOf c.bpf.kernel c.dsess.localData.discr ++ [c.bsess.genId] := by rw [hk, hs]; rfl
    refine ⟨hds ▸ hm.dport, by rw [hbs]; exact hm.gen, ?_, ?_⟩ <;> rw [hds, hs']
    · refine hm.nodup.append (List.nodup_singleton _) (fun m hmem hlast => ?_)
      have := hnew m hmem
      rw [List.mem_singleton.mp hlast] at this
      omega
    · intro m hmem
      rw [hbs]
      obtain hmem | hmem := List.mem_append.mp hmem
      · exact hm.dated m hmem
      · rw [List.mem_singleton.mp hmem]
        omega

theorem Marks.turn (hm : Marks c) (h : Turn c c') (hb : c'.bsess.genBumps < 2 ^ 32) : Marks c' := by
  cases h with
  | drift hd => exact hm.drift hd
  | capacity hf hs hn hv hc hd hbs =>
    exact hm.sublist (hd ▸ hm.dport) (by rw [hbs]) (by rw [hbs]) (by rw [hd]) (Flows.marks hf _)
  | inject veth flags hv hd _ hs => exact (hm.drift hd).sends hs hv
  | @update c₁ c₂ inject hcap hd _ hs ht =>
    have hm₁ : Marks c₁ := hm.bumped.drift hd
    refine Marks.trail ?_ ht
    obtain rfl | ⟨hi, flags, -, hs⟩ := hs
    · exact hm₁
    · have hbumps : c₁.bsess.genBumps = c.bsess.genBumps + 1 := hd.genBumps
      have hbound : c₁.bsess.genBumps < 2 ^ 32 := by
        rw [← hs.same.2, ← ht.genBumps]
        exact hb
      refine hm₁.fresh hbound (by omega) (fun m hmem => ?_) hs
      -- the packets that were there before have older marks
      have hold : m ∈ marksOf c.bpf.kernel c.dsess.localData.discr := by
        have hdiscr : c₁.dsess.localData.discr = c.dsess.localData.discr := hd.discr
        rw [hdiscr] at hmem
        exact (Flows.marks hd.idle.flow _).subset hmem
      have := (hm.dated m hold).2
      omega

theorem Marks.moves (hm : Marks c) (h : Moves own c c')
    (hown : ∀ d, own = some d → d = c.dsess.localData.discr) (hb : c'.bsess.genBumps < 2 ^ 32) :
    Marks c' := by
  induction h with
  | refl => exact hm
  | @tail a b ha hab ih =>
    have hage : Ages own c a := Moves.ages ha hown
    have hab' := hab.ages (fun d hd => (hown d hd).trans hage.discr.symm)
    exact (ih (hab'.bumps.trans_lt hb)).turn hab.turn hb

structure Thins (d : UInt32) (c c' : Ctx) : Prop where
  dport : BfdPort c'.dsess
  discr : c'.dsess.localData.discr = c.dsess.localData.discr
  marks : (marksOf c'.bpf.kernel d).Sublist (marksOf c.bpf.kernel d)

theorem Thins.trans {c'' : Ctx} (h : Thins d c c') (k : Thins d c' c'') : Thins d c c'' :=
  ⟨k.dport, k.discr.trans h.discr, k.marks.trans h.marks⟩

theorem Drift.thins (h : Drift c c') (hp : BfdPort c.dsess) (d : UInt32) : Thins d c c' :=
  ⟨h.dport hp, h.discr, Flows.marks h.idle.flow d⟩

theorem Sends.thins (h : Sends veth flags c c') (hp : BfdPort c.dsess)
    (hd : d ≠ c.dsess.localData.discr) : Thins d c c' := by
  obtain ⟨a, bdata, -, rfl⟩ := h
  refine ⟨hp, rfl, ?_⟩
  obtain hs | ⟨-, -, hs, -⟩ := send_marks c.bpf a veth (packet_isBfd hp bdata flags) d
  · rw [hs]
  · rw [packet_discr] at hs
    exact absurd hs.symm hd

theorem Trail.thins (h : Trail c c') (hp : BfdPort c.dsess) (hd : d ≠ c.dsess.localData.discr) :
    Thins d c c' := by
  refine keeps_of_moves (I := fun b => Thins d c b) (fun a b hs ha => ha.trans ?_) h
    ⟨hp, rfl, List.Sublist.refl _⟩
  obtain hs | hs := hs
  · exact hs.thins ha.dport d
  · exact hs.thins ha.dport (ha.discr ▸ hd)

theorem Turn.thins (h : Turn c c') (hp : BfdPort c.dsess) (hd : d ≠ c.dsess.localData.discr) :
    Thins d c c' := by
  cases h with
  | drift h => exact h.thins hp d
  | capacity hf hs hn hv hc hds hbs => exact ⟨hds ▸ hp, by rw [hds], Flows.marks hf d⟩
  | inject veth flags hv h _ hs =>
    have h₁ := h.thins hp d
    exact h₁.trans (hs.thins h₁.dport (h₁.discr ▸ hd))
  | @update c₁ c₂ inject hcap h _ hs ht =>
    have h₁ : Thins d c.bumped c₁ := h.thins hp d
    have h₂ : Thins d c.bumped c₂ := by
      obtain rfl | ⟨hi, flags, -, hs⟩ := hs
      · exact h₁
      · exact h₁.trans (hs.thins h₁.dport (h₁.discr ▸ hd))
    have h₃ := h₂.trans (ht.thins h₂.dport (h₂.discr ▸ hd))
    exact ⟨h₃.dport, h₃.discr, h₃.marks⟩

theorem Moves.thins (h : Moves own c c') (hp : BfdPort c.dsess) (hd : d ≠ c.dsess.localData.discr) :
    Thins d c c' :=
  keeps_of_moves (I := fun b => Thins d c b)
    (fun _ _ hm ha => ha.trans (hm.turn.thins ha.dport (ha.discr ▸ hd))) h
    ⟨hp, rfl, List.Sublist.refl _⟩

end

end Bbdd.Datapath
