import Bbdd.Datapath.Refresh
import Bbdd.Datapath.Tables

namespace Bbdd.Datapath

open Lib.Program Packet Session Prog TxQueue

section

variable {own : Option UInt32} {c c' : Ctx} {r : Except String Unit}

theorem Timed.outputs (h : Timed c c') : c.bpf.outputs <+: c'.bpf.outputs := by
  obtain ⟨-, -, ⟨evs, t, n, tk, out, ar, hp⟩⟩ := h
  rw [hp]
  exact List.prefix_append _ _

theorem Injected.outputs (h : Injected c c') : c'.bpf.outputs = c.bpf.outputs := by
  obtain ⟨-, -, ⟨kn, ds, ss, hs, tk, hp⟩⟩ := h
  rw [hp]

theorem Move.outputs (h : Move own c c') : c.bpf.outputs <+: c'.bpf.outputs := by
  cases h with
  | ask h => exact (timed_ask _ _ _ h).outputs
  | output => exact List.prefix_append _ _
  | dequeued | fired | capacity | maps => exact List.prefix_refl _
  | enqueue kind flags hf h =>
    rw [hf] at h
    obtain ⟨diagStats, -, ht⟩ := txEnqueue_ok h
    exact ht.outputs
  | inject veth flags hf h => exact (injected_sessionInjectPkt _ _ _ _ _ h).outputs ▸ List.prefix_refl _
  | update inject hg h => exact (injected_updateNow _ _ _ _ h).outputs ▸ List.prefix_refl _
  | shwaitStop h => exact (timed_shwaitStop _ _ _ h).outputs
  | shwaitStart h => exact (timed_shwaitStart _ _ _ h).outputs
  | holdStop h => exact (timed_holdStop _ _ _ h).outputs
  | holdStart h => exact (timed_holdStart _ _ _ h).outputs
  | unlink kind h => rw [txUnlink_ok h]; exact List.prefix_refl _
  | write h => exact h.bpf ▸ List.prefix_refl _

theorem Moves.outputs (h : Moves own c c') : c.bpf.outputs <+: c'.bpf.outputs :=
  keeps_of_moves (I := fun b => c.bpf.outputs <+: b.bpf.outputs) (fun _ _ hm hp => hp.trans hm.outputs) h
    (List.prefix_refl _)

def Announces (b b' : Bpf) (s : DSession) : Prop :=
  ∃ told, b.outputs <+: told ∧ told ++ [.stateChanged s] <+: b'.outputs

theorem Announces.before {a b b' : Bpf} {s : DSession} (h : Announces b b' s)
    (hp : a.outputs <+: b.outputs) :
    Announces a b' s := by
  obtain ⟨told, hb, ht⟩ := h
  exact ⟨told, hp.trans hb, ht⟩

theorem Announces.after {a b b' : Bpf} {s : DSession} (h : Announces a b s)
    (hp : b.outputs <+: b'.outputs) :
    Announces a b' s := by
  obtain ⟨told, ha, ht⟩ := h
  exact ⟨told, ha, ht.trans hp⟩

theorem announces_output {b b' : Bpf} {s : DSession} (h : b.outputs <+: b'.outputs) :
    Announces b (b'.output (.stateChanged s)) s := ⟨b'.outputs, h, List.prefix_refl _⟩

theorem sessionStateChanged_announces (h : sessionStateChanged c = .ok ((), c')) :
    Announces c.bpf c'.bpf c.dsess := by
  obtain ⟨_, c₁, h₁, h⟩ := bind_ok.mp h
  cases h
  have hm : Moves none c c₁ := (tasks_sessionCallUpdate _ _ _ h₁).chores.moves
  rw [(within_sessionCallUpdate _ _ _ h₁).dsess]
  exact announces_output hm.outputs

end

section

variable {c c' : Ctx} {r : Except String Unit} {veth : Veth} {flags : UInt8}

/-- A packet that is not a Final goes through if its session has both entries
and the mark of the first. -/
structure Posted (c : Ctx) : Prop where
  dport : BfdPort c.dsess
  entry : ∃ entry, c.bpf.kernel.config c.dsess.localData.discr = some entry ∧ entry.genId = c.bsess.genId
  data : (c.bpf.kernel.data c.dsess.localData.discr).isSome = true

theorem sessionInjectPkt_delivered (h : sessionInjectPkt veth flags c = .ok (r, c')) (hp : Posted c)
    (hf : hasBit flags bitFinal = false) : r.isOk = true ∧ Posted c' := by
  have hserved := sessionInjectPkt_served h
  refine ⟨?_, ⟨hserved.1 ▸ hp.dport, ?_, ?_⟩⟩
  · obtain ⟨bdata, -, -, hok⟩ := sessionInjectPkt_eq h
    obtain ⟨entry, hcfg, hgen⟩ := hp.entry
    have hcfg' : (c.handed veth).bpf.ask.2.kernel.config c.dsess.localData.discr = some entry := by
      rw [ask_config, handed_kernel, hcfg]
    have hdata' : ((c.handed veth).bpf.ask.2.kernel.data c.dsess.localData.discr).isSome = true := by
      rw [(ask_served _).keys, handed_kernel, hp.data]
    have hfinal : (c.packet bdata flags).final = false := by
      rw [Skb.final, Ctx.packet, injectSkb, final_makePacket, hf]
    rw [hok, send_sent _ _ _ (packet_isBfd hp.dport bdata flags), Bpf.call, packet_discr, hcfg', hdata']
    cases veth with
    | rx => rfl
    | tx =>
      have hmark : (c.packet bdata flags).mark = entry.genId := hgen.symm
      simp [Send.refused, refusedTx, hfinal, hmark]
  · rw [hserved.1, hserved.2.1, hserved.2.2.config]
    exact hp.entry
  · rw [hserved.1, hserved.2.2.keys]
    exact hp.data

theorem updateInject_delivered {inject : Bool} (h : updateInject inject c = .ok (r, c')) (hp : Posted c) :
    r.isOk = true ∧ Posted c' := by
  cases inject with
  | false =>
    obtain ⟨rfl, rfl⟩ := pure_ok.mp h
    exact ⟨rfl, hp⟩
  | true =>
    have h := read_ok.mp h
    cases hf : injectBfdFlags c.dsess c.bsess with
    | none => simp only [hf] at h; cases h
    | some flags =>
      simp only [hf] at h
      exact sessionInjectPkt_delivered h hp (injectBfdFlags_bits hf).2.1

theorem updateRearm_delivered {us : UInt32} (h : updateRearm us c = .ok (r, c')) (hp : Posted c) :
    r.isOk = true := by
  have h := read_ok.mp h
  split at h
  · obtain ⟨r₁, c₁, h₁, h⟩ := bind_ok.mp h
    cases r₁ with
    | error e => cases (sessionInjectPkt_delivered h₁ hp (by decide)).1
    | ok _ =>
      obtain ⟨_, c₂, -, h⟩ := bind_ok.mp h
      obtain ⟨rfl, -⟩ := pure_ok.mp h
      rfl
  · obtain ⟨_, c₂, -, h⟩ := bind_ok.mp h
    obtain ⟨rfl, -⟩ := pure_ok.mp h
    rfl

theorem updateNow_delivered {inject : Bool} (h : updateNow inject c = .ok (r, c'))
    (hu : Updatable c) (hp : BfdPort c.dsess)
    (hd : (c.bpf.kernel.data c.dsess.localData.discr).isSome = true) : r.isOk = true := by
  obtain ⟨us, addrs, -, -, h⟩ := updateNow_stored h hu
  obtain ⟨r₂, c₂, h₂, h⟩ := bind_ok.mp h
  have hdata := ((ask_served c.bpf).keys _).trans hd
  obtain ⟨hok₂, hpost₂⟩ := updateInject_delivered h₂ ⟨hp, ⟨_, Function.update_self .., rfl⟩, hdata⟩
  cases r₂ with
  | error e => cases hok₂
  | ok _ => exact updateRearm_delivered h hpost₂

theorem sessionUpdateInner_delivered (h : sessionUpdateInner c = .ok (r, c')) (hu : Updatable c)
    (hp : BfdPort c.dsess) (hd : (c.bpf.kernel.data c.dsess.localData.discr).isSome = true) :
    r.isOk = true := by
  have h := read_ok.mp h
  split at h
  · obtain ⟨room, c₁, h₁, h⟩ := bind_ok.mp h
    have hm : Moves none c c₁ := (chores_txHaveCapacity _ _ _ h₁).moves
    have hs := steady_txHaveCapacity _ _ _ h₁
    cases room with
    | true =>
      refine updateNow_delivered h (hs.updatable hu) (hs.dsess ▸ hp) ?_
      rw [hs.dsess, (Moves.tended hm).keys, hd]
    | false =>
      have h := read_ok.mp h
      cases hf : injectBfdFlags c₁.dsess c₁.bsess with
      | none => simp only [hf] at h; cases h
      | some flags =>
        simp only [hf] at h
        obtain ⟨_, c₂, -, h⟩ := bind_ok.mp h
        obtain ⟨rfl, -⟩ := pure_ok.mp h
        rfl
  · exact updateNow_delivered h hu hp hd

theorem sessionConfAdd_data (h : sessionConfAdd c = .ok (.ok (), c')) :
    (c'.bpf.kernel.data c.dsess.localData.discr).isSome = true := by
  rw [sessionConfAdd_eq] at h
  obtain ⟨r₁, c₁, h₁, h⟩ := bind_ok.mp h
  have hd₁ := (injected_sessionConfUpdate _ _ _ _ h₁).dsess
  cases r₁ with
  | error e => cases (pure_ok.mp h).1
  | ok _ =>
    obtain ⟨a, c₂, ha, h⟩ := bind_ok.mp h
    have l₂ := leaves_ask _ _ _ ha
    have h := read_ok.mp h
    split at h
    · obtain ⟨_, c₃, hu, h⟩ := bind_ok.mp h
      cases hu
      obtain ⟨-, rfl⟩ := pure_ok.mp h
      rw [← hd₁, ← l₂.dsess]
      simp
    · obtain ⟨_, c₃, -, h⟩ := bind_ok.mp h
      obtain ⟨_, c₄, -, h⟩ := bind_ok.mp h
      cases (pure_ok.mp h).1

theorem sessionAdd_data {sessions : Nat} (h : sessionAdd sessions c = .ok (.ok (), c')) :
    (c'.bpf.kernel.data c.dsess.localData.discr).isSome = true := by
  obtain ⟨a, c₁, ha, h⟩ := bind_ok.mp h
  have l₁ := leaves_ask _ _ _ ha
  split at h
  · cases (pure_ok.mp h).1
  obtain ⟨r₂, c₂, h₂, h⟩ := bind_ok.mp h
  have l₂ := l₁.trans (timed_holdStart _ _ _ h₂).leaves
  cases r₂ with
  | error e => cases (pure_ok.mp h).1
  | ok _ =>
    obtain ⟨r₃, c₃, h₃, h⟩ := bind_ok.mp h
    cases r₃ with
    | error e =>
      obtain ⟨_, c₄, -, h⟩ := bind_ok.mp h
      cases (pure_ok.mp h).1
    | ok _ =>
      obtain ⟨-, rfl⟩ := pure_ok.mp h
      obtain ⟨r₄, c₄, h₄, h₃⟩ := bind_ok.mp h₃
      have l₄ := l₂.trans (leaves_txResize _ _ _ _ _ h₄)
      cases r₄ with
      | error e => cases (pure_ok.mp h₃).1
      | ok _ =>
        rw [← l₄.dsess]
        exact sessionConfAdd_data h₃

end

end Bbdd.Datapath
