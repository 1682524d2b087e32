import Bbdd.Datapath.Refresh

namespace Bbdd.Datapath

open Lib.Program Session TxQueue

/-- A session that has nothing to say: it is down for good, or it waits for
the other end to speak first. -/
def Silent (dsess : DSession) (bstate : BState) : Prop :=
  (dsess.localData.state.state = .adminDown ∧ bstate = .stable) ∨
    (dsess.remoteData.discr = 0 ∧ dsess.localData.flags.passive = true)

instance (dsess : DSession) (bstate : BState) : Decidable (Silent dsess bstate) :=
  inferInstanceAs (Decidable (_ ∨ _))

theorem shouldInject_iff {dsess : DSession} {bsess : BSession} :
    shouldInject dsess bsess = true ↔ ¬ Silent dsess bsess.bstate := by
  simp [shouldInject, Silent, imp_iff_not_or]

def Handoff.Audible (h : Handoff) : Prop := h.bstate ≠ .onHold ∧ ¬ Silent h.dsess h.bstate

/-- No packets were handed to the transmit loop but those of sessions with
something to say. -/
def Talks (b b' : Bpf) : Prop := ∃ new, b'.handoffs = new ++ b.handoffs ∧ ∀ h ∈ new, h.Audible

theorem talks_of_eq {b b' : Bpf} (h : b'.handoffs = b.handoffs) : Talks b b' := ⟨[], h, by simp⟩

theorem Talks.trans {a b c : Bpf} (h : Talks a b) (k : Talks b c) : Talks a c := by
  obtain ⟨new, hn, ha⟩ := h
  obtain ⟨new', hn', ha'⟩ := k
  refine ⟨new' ++ new, by rw [hn', hn, List.append_assoc], fun x hx => ?_⟩
  exact (List.mem_append.mp hx).elim (ha' x) (ha x)

def Mute (c c' : Ctx) : Prop := c'.bpf.handoffs = c.bpf.handoffs

instance : Std.Refl Mute := ⟨fun _ => rfl⟩

instance : IsTrans Ctx Mute := ⟨fun _ _ _ h k => k.trans h⟩

section

variable {c c' : Ctx} {r : Except String Unit}

theorem Timed.mute (h : Timed c c') : Mute c c' := by
  obtain ⟨-, -, ⟨evs, t, n, tk, out, ar, hp⟩⟩ := h
  rw [Mute, hp]

theorem mute_ask : Within Mute ask := timed_ask.mono (fun _ _ => Timed.mute)

theorem mute_output (o : Output) : Within Mute (onBpf (·.output o)) := within_update (fun _ => rfl)

theorem mute_reported {p : Act (Except String Unit)} (hp : Within Mute p) (context : String) :
    Within Mute (reported p context) :=
  reported_within mute_output hp context

theorem mute_onBsess (f : BSession → BSession) : Within Mute (onBsess f) := within_update (fun _ => rfl)

theorem sessionInjectPkt_handoffs {veth : Veth} {flags : UInt8}
    (h : sessionInjectPkt veth flags c = .ok (r, c')) :
    c.bsess.bstate ≠ .onHold ∧ c'.bpf.handoffs = (c.handed veth).bpf.handoffs := by
  obtain ⟨bdata, hb, rfl, -⟩ := sessionInjectPkt_eq h
  refine ⟨fun hold => by simp [injectBdata, hold] at hb, ?_⟩
  obtain ⟨kernel, diagStats, sends, hs⟩ := send_eq (c.handed veth).bpf.ask.2
    (c.handed veth).bpf.ask.1 veth (c.packet bdata flags)
  simp only [hs]
  rfl

theorem mute_injectRearmPacket : Within Mute injectRearmPacket := fun _ _ _ h => (sessionInjectPkt_handoffs h).2

theorem sessionInjectPkt_talks {veth : Veth} {flags : UInt8}
    (h : sessionInjectPkt veth flags c = .ok (r, c')) (hs : ¬ Silent c.dsess c.bsess.bstate) :
    Talks c.bpf c'.bpf := by
  obtain ⟨hb, hh⟩ := sessionInjectPkt_handoffs h
  cases veth with
  | rx => exact talks_of_eq hh
  | tx =>
    refine ⟨[⟨c.dsess, c.bsess.bstate⟩], hh, fun x hx => ?_⟩
    rw [List.mem_singleton.mp hx]
    exact ⟨hb, hs⟩

theorem mute_sessionConfUpdate (args : ConfArgs) : Within Mute (sessionConfUpdate args) := by
  intro c r c' h
  obtain ⟨-, ⟨rfl, -⟩ | ⟨rfl, -⟩⟩ | ⟨-, addrs, -, rfl⟩ := sessionConfUpdate_eq h <;> rfl

theorem mute_updateRearm (us : UInt32) : Within Mute (updateRearm us) :=
  updateRearm_within mute_injectRearmPacket (fun _ => mute_onBsess _) us

theorem mute_txEnqueue (kind : SlotKind) {flags : UInt8}
    (h : txEnqueue kind (decide (kind = .final)) flags c = .ok ((), c')) :
    Mute c c' := by
  obtain ⟨diagStats, -, ht⟩ := txEnqueue_ok h
  exact trans_of Mute (b := _) rfl ht.mute

theorem updateInject_talks {inject : Bool} (h : updateInject inject c = .ok (r, c'))
    (hi : inject = true → ¬ Silent c.dsess c.bsess.bstate) : Talks c.bpf c'.bpf := by
  cases inject with
  | false =>
    obtain ⟨-, rfl⟩ := pure_ok.mp h
    exact talks_of_eq rfl
  | true =>
    have h := read_ok.mp h
    cases hf : injectBfdFlags c.dsess c.bsess with
    | none => simp only [hf] at h; cases h
    | some flags =>
      simp only [hf] at h
      exact sessionInjectPkt_talks h (hi rfl)

theorem updateNow_talks {inject : Bool} (h : updateNow inject c = .ok (r, c'))
    (hi : inject = true → ¬ Silent c.dsess c.bsess.bstate) : Talks c.bpf c'.bpf := by
  obtain ⟨us, -, h⟩ := updateNow_marked h
  obtain ⟨r₁, c₁, h₁, h⟩ := bind_ok.mp h
  have hmute : Mute c.bumped c₁ := mute_sessionConfUpdate _ _ _ _ h₁
  have hinj := injected_sessionConfUpdate _ _ _ _ h₁
  cases r₁ with
  | error e =>
    obtain ⟨-, rfl⟩ := pure_ok.mp h
    exact talks_of_eq hmute
  | ok _ =>
    obtain ⟨r₂, c₂, h₂, h⟩ := bind_ok.mp h
    have hsame : ¬ Silent c.dsess c.bsess.bstate → ¬ Silent c₁.dsess c₁.bsess.bstate := by
      obtain ⟨g, n, us', hbs⟩ := hinj.bsess
      rw [hinj.dsess, hbs]
      exact id
    have htalks := (talks_of_eq hmute).trans (updateInject_talks h₂ (fun ht => hsame (hi ht)))
    cases r₂ with
    | error e =>
      obtain ⟨-, rfl⟩ := pure_ok.mp h
      exact htalks
    | ok _ => exact htalks.trans (talks_of_eq (mute_updateRearm _ _ _ _ h))

theorem updateDefer_mute (h : updateDefer c = .ok (r, c')) : Mute c c' := by
  obtain ⟨flags, -, he⟩ := updateDefer_ok h
  exact mute_txEnqueue .periodic he

theorem sessionUpdateInner_talks (h : sessionUpdateInner c = .ok (r, c')) : Talks c.bpf c'.bpf := by
  have h := read_ok.mp h
  split at h
  · rename_i hi
    obtain ⟨room, c₁, h₁, h⟩ := bind_ok.mp h
    have hs := steady_txHaveCapacity _ _ _ h₁
    have hmute := txHaveCapacity_within mute_ask _ _ _ h₁
    refine (talks_of_eq hmute).trans ?_
    cases room with
    | true =>
      refine updateNow_talks h (fun _ => ?_)
      rw [hs.dsess, hs.bstate]
      exact shouldInject_iff.mp hi
    | false => exact talks_of_eq (updateDefer_mute h)
  · exact updateNow_talks h (fun hf => absurd hf Bool.false_ne_true)

theorem respondPoll_talks (h : respondPoll c = .ok ((), c'))
    (hs : ¬ Silent c.dsess c.bsess.bstate) : Talks c.bpf c'.bpf := by
  obtain ⟨room, c₁, h₁, h⟩ := bind_ok.mp h
  have hst := steady_txHaveCapacity _ _ _ h₁
  have hmute := txHaveCapacity_within mute_ask _ _ _ h₁
  refine (talks_of_eq hmute).trans ?_
  cases room with
  | true =>
    obtain ⟨r, c₂, h₂, h⟩ := bind_ok.mp h
    have ht := sessionInjectPkt_talks h₂ (by rw [hst.dsess, hst.bstate]; exact hs)
    cases r with
    | error e => exact ht.trans (talks_of_eq (mute_output _ _ _ _ h))
    | ok _ =>
      obtain ⟨-, rfl⟩ := pure_ok.mp h
      exact ht
  | false => exact talks_of_eq (mute_txEnqueue .final h)

theorem mute_txUnlink (kind : SlotKind) : Within Mute (txUnlink kind) :=
  within_bind within_read (fun _ => within_bind (within_update (fun _ => rfl)) (fun _ => mute_onBsess _))

end

end Bbdd.Datapath
