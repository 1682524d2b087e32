import Bbdd.Datapath.Airs

namespace Bbdd.Datapath

open Lib.Program Packet Session Prog TxQueue

structure Avows (dsess : DSession) (packet : BfdPkt) : Prop where
  my : ntoh32 packet.myDisc = dsess.localData.discr
  your : ntoh32 packet.yourDisc = dsess.remoteData.discr
  state : pktState packet = dsess.localData.state.state

/-- Every packet of the loop and of the wire says what its session was when it
was handed over. -/
def Avowed (b : Bpf) : Prop := Airs (fun p => ∃ h ∈ b.handoffs, Avows h.dsess p) 0 b.kernel

/-- A session that does not change has handed over packets that say what it is. -/
structure Recounts (c c' : Ctx) : Prop where
  dsess : c'.dsess = c.dsess
  handoffs : ∃ new, c'.bpf.handoffs = new ++ c.bpf.handoffs ∧ ∀ h ∈ new, h.dsess = c.dsess
  avowed : BfdPort c.dsess → Avowed c.bpf → Avowed c'.bpf
  wire : BfdPort c.dsess → c.bpf.kernel.wire <:+ c'.bpf.kernel.wire

theorem Recounts.refl (c : Ctx) : Recounts c c :=
  ⟨rfl, ⟨[], rfl, by simp⟩, fun _ => id, fun _ => List.suffix_refl _⟩

theorem Recounts.trans {a b c : Ctx} (h : Recounts a b) (k : Recounts b c) : Recounts a c := by
  obtain ⟨new, hn, hs⟩ := h.handoffs
  obtain ⟨new', hn', hs'⟩ := k.handoffs
  refine ⟨k.dsess.trans h.dsess, ⟨new' ++ new, by rw [hn', hn, List.append_assoc], fun x hx => ?_⟩,
    fun hp ha => ?_, fun hp => ?_⟩
  · obtain hx | hx := List.mem_append.mp hx
    · exact (hs' x hx).trans h.dsess
    · exact hs x hx
  · exact k.avowed (h.dsess ▸ hp) (h.avowed hp ha)
  · exact (h.wire hp).trans (k.wire (h.dsess ▸ hp))

instance : Std.Refl Recounts := ⟨Recounts.refl⟩

instance : IsTrans Ctx Recounts := ⟨fun _ _ _ => Recounts.trans⟩

section

variable {c c' : Ctx} {r : Except String Unit} {veth : Veth} {flags : UInt8}

theorem Avowed.flows {b b' : Bpf} (h : Avowed b) (hh : b'.handoffs = b.handoffs)
    (hf : Flows b.kernel b'.kernel) : Avowed b' := by
  rw [Avowed, hh]
  exact Airs.flows h hf

theorem recounts_of_flows (hd : c'.dsess = c.dsess) (hh : c'.bpf.handoffs = c.bpf.handoffs)
    (hf : Flows c.bpf.kernel c'.bpf.kernel) :
    Recounts c c' := by
  obtain ⟨out, hw, -⟩ := hf.wire
  exact ⟨hd, ⟨[], hh, by simp⟩, fun _ ha => ha.flows hh hf, fun _ => ⟨out, hw.symm⟩⟩

theorem recounts_onBpf {f : Bpf → Bpf}
    (h : ∀ b, (f b).handoffs = b.handoffs ∧ Flows b.kernel (f b).kernel) :
    Within Recounts (onBpf f) :=
  within_update (fun c => recounts_of_flows rfl (h c.bpf).1 (h c.bpf).2)

theorem recounts_onBsess (f : BSession → BSession) : Within Recounts (onBsess f) :=
  within_update (fun c => recounts_of_flows rfl rfl (.refl c.bpf.kernel))

theorem recounts_output (o : Output) : Within Recounts (onBpf (·.output o)) :=
  recounts_onBpf (fun _ => ⟨rfl, .refl _⟩)

theorem recounts_ask : Within Recounts ask := by
  intro c a c' h
  cases h
  exact recounts_of_flows rfl rfl (idle_ask c.bpf).flow

theorem Timed.recounts (h : Timed c c') : Recounts c c' :=
  recounts_of_flows h.dsess h.mute h.drift.idle.flow

theorem avows_packet (bdata : BData) (hf : flags < 64) : Avows c.dsess (c.packet bdata flags).bfd := by
  refine ⟨?_, ?_, ?_⟩
  · simp [Ctx.packet, injectSkb, makePacket]
  · simp [Ctx.packet, injectSkb, makePacket]
  · simp only [Ctx.packet, injectSkb, pktState_makePacket _ _ _ _ _ hf]

theorem recounts_sessionInjectPkt (hf : flags < 64) : Within Recounts (sessionInjectPkt veth flags) := by
  intro c r c' h
  obtain ⟨-, hh⟩ := sessionInjectPkt_handoffs h
  obtain ⟨c₁, hd, hi, hs⟩ := sessionInjectPkt_ok h
  have hds : c₁.dsess = c.dsess := hi.dsess
  refine ⟨hs.same.1.trans hds, ?_, fun hp ha => ?_, fun hp => ?_⟩
  · cases veth with
    | rx => exact ⟨[], hh, by simp⟩
    | tx => exact ⟨[⟨c.dsess, c.bsess.bstate⟩], hh, fun x hx => by rw [List.mem_singleton.mp hx]⟩
  · -- the packet that was sent is the newest that was handed over
    have ha' : Airs (fun p => ∃ h ∈ c'.bpf.handoffs, Avows h.dsess p) 0 c₁.bpf.kernel := by
      refine Airs.mono (Airs.drift ha hd) (fun p hp => ?_)
      obtain ⟨x, hx, hav⟩ := hp
      refine ⟨x, ?_, hav⟩
      rw [hh]
      cases veth with
      | rx => exact hx
      | tx => exact List.mem_cons_of_mem _ hx
    refine ha'.sends hs (hds ▸ hp) (fun hv bdata _ => ?_)
    subst hv
    exact ⟨⟨c.dsess, c.bsess.bstate⟩, hh ▸ List.mem_cons_self, hds ▸ avows_packet bdata hf⟩
  · obtain ⟨out, hw, -⟩ := hd.idle.flow.wire
    have hsuf : c.bpf.kernel.wire <:+ c₁.bpf.kernel.wire := ⟨out, hw.symm⟩
    obtain ⟨a, bdata, -, rfl⟩ := hs
    obtain hw | ⟨-, ifindex, hw⟩ := send_wire c₁.bpf a veth (packet_isBfd (hds ▸ hp) bdata flags)
    · exact hw ▸ hsuf
    · rw [hw]
      exact hsuf.trans (List.suffix_cons _ _)

theorem recounts_sessionConfUpdate (args : ConfArgs) : Within Recounts (sessionConfUpdate args) :=
  fun c r c' h =>
  recounts_of_flows (injected_sessionConfUpdate args c r c' h).dsess (mute_sessionConfUpdate args c r c' h)
    (drift_sessionConfUpdate args c r c' h).idle.flow

theorem recounts_injectRearmPacket : Within Recounts injectRearmPacket := recounts_sessionInjectPkt (by decide)

theorem recounts_updateNow (inject : Bool) : Within Recounts (updateNow inject) :=
  updateNow_within (recounts_onBsess _) recounts_sessionConfUpdate
    (updateInject_within (fun _ _ _ _ hf => recounts_sessionInjectPkt (injectBfdFlags_bits hf).1 _ _ _) inject)
    (updateRearm_within recounts_injectRearmPacket (fun _ => recounts_onBsess _))

theorem recounts_txEnqueue {kind : SlotKind}
    (h : txEnqueue kind (decide (kind = .final)) flags c = .ok ((), c')) :
    Recounts c c' := by
  obtain ⟨diagStats, -, ht⟩ := txEnqueue_ok h
  have hslot : Recounts c { c.withSlot (c.enqueued kind flags).2.1 (c.enqueued kind flags).2.2 kind with
      bpf := { c.bpf with tx := (c.enqueued kind flags).2.1, diagStats := diagStats } } :=
    recounts_of_flows rfl rfl (.refl c.bpf.kernel)
  exact hslot.trans ht.recounts

theorem recounts_updateDefer : Within Recounts updateDefer := by
  intro c r c' h
  obtain ⟨flags, -, he⟩ := updateDefer_ok h
  exact @recounts_txEnqueue c c' flags .periodic he

theorem recounts_txHaveCapacity : Within Recounts txHaveCapacity := txHaveCapacity_within recounts_ask

theorem recounts_sessionUpdateInner : Within Recounts sessionUpdateInner :=
  within_bind within_read (fun _ => within_ite
    (within_bind recounts_txHaveCapacity (fun _ => within_ite (recounts_updateNow true) recounts_updateDefer))
    (recounts_updateNow false))

theorem recounts_reported {p : Act (Except String Unit)} (hp : Within Recounts p) (context : String) :
    Within Recounts (reported p context) :=
  reported_within recounts_output hp context

theorem recounts_sessionCallUpdate : Within Recounts sessionCallUpdate :=
  within_bind within_read (fun _ => recounts_reported recounts_sessionUpdateInner _)

theorem recounts_sessionStateChanged : Within Recounts sessionStateChanged :=
  within_bind recounts_sessionCallUpdate (fun _ => within_bind within_read (fun _ => recounts_output _))

theorem recounts_respondPoll : Within Recounts respondPoll := by
  refine within_bind recounts_txHaveCapacity (fun _ => within_ite ?_ (fun c _ c' h => ?_))
  · exact recounts_reported (recounts_sessionInjectPkt (by decide)) _
  · exact @recounts_txEnqueue c c' _ .final h

theorem recounts_txUnlink (kind : SlotKind) : Within Recounts (txUnlink kind) := by
  refine within_bind within_read (fun _ => within_bind (recounts_onBpf (fun _ => ⟨rfl, .refl _⟩))
    (fun _ => recounts_onBsess _))

theorem recounts_entry {f : Bpf → Bpf} (h : ∀ b, ∃ config data, f b = { b with
    kernel := { b.kernel with config := config, data := data } }) : Within Recounts (onBpf f) := by
  refine recounts_onBpf (fun b => ?_)
  obtain ⟨config, data, hf⟩ := h b
  rw [hf]
  exact ⟨rfl, .of_eq rfl rfl rfl⟩

theorem recounts_txResize (sessions : Nat) (add : Bool) : Within Recounts (txResize sessions add) := by
  refine within_bind within_read (fun _ => within_ite (within_pure _) (within_ite (within_pure _) ?_))
  exact within_bind recounts_ask (fun _ => within_ite (within_pure _)
    (within_bind (recounts_onBpf (fun _ => ⟨rfl, .refl _⟩)) (fun _ => within_pure _)))

theorem recounts_sessionAdd (sessions : Nat) : Within Recounts (sessionAdd sessions) := by
  have hconf : Within Recounts sessionConfAdd := by
    refine within_attempt (recounts_sessionConfUpdate _) (fun _ => ?_)
    refine within_bind recounts_ask (fun _ => within_bind within_read (fun c => within_ite ?_ ?_))
    · exact within_bind (recounts_entry (fun _ => ⟨_, _, rfl⟩)) (fun _ => within_pure _)
    · exact within_bind recounts_ask
        (fun _ => within_bind (within_whenever (recounts_entry (fun _ => ⟨_, _, rfl⟩)))
        (fun _ => within_pure _))
  refine within_bind recounts_ask (fun _ => within_ite (within_pure _) ?_)
  refine within_attempt (timed_holdStart.mono (fun _ _ => Timed.recounts)) (fun _ => ?_)
  refine within_bind (within_attempt (recounts_txResize _ _) (fun _ => hconf)) (fun r => ?_)
  cases r with
  | error e => exact within_bind (timed_holdStop.mono (fun _ _ => Timed.recounts)) (fun _ => within_pure _)
  | ok _ => exact within_pure _

theorem recounts_sessionDel (sessions : Nat) : Within Recounts (sessionDel sessions) := by
  have hentry {f : Bpf → Bpf} {b : Bool} (h : ∀ b, ∃ config data, f b = { b with
      kernel := { b.kernel with config := config, data := data } }) : Within Recounts (whenever b (onBpf f)) :=
    within_whenever (recounts_entry h)
  refine within_bind within_read (fun c => ?_)
  refine within_bind (within_whenever (timed_holdStop.mono (fun _ _ => Timed.recounts))) (fun _ => ?_)
  refine within_bind (within_whenever (timed_shwaitStop.mono (fun _ _ => Timed.recounts))) (fun _ => ?_)
  refine within_bind (recounts_txUnlink _) (fun _ => within_bind (recounts_txUnlink _) (fun _ => ?_))
  refine within_bind (within_bind recounts_ask
    (fun _ => within_bind (hentry (fun _ => ⟨_, _, rfl⟩)) (fun _ => ?_))) (fun _ => ?_)
  · exact within_bind recounts_ask (fun _ => hentry (fun _ => ⟨_, _, rfl⟩))
  · exact recounts_reported (recounts_txResize _ _) _

end

end Bbdd.Datapath
