import Bbdd.Daemon.Fate
import Bbdd.Daemon.Replay
import Bbdd.Poll.Retain

namespace Bbdd.Daemon

open Lib.Directory Lib.Transition Packet Session Datapath Poll

def Bound (dsess : DSession) : Prop :=
  dsess.userRemoteDiscr ≠ 0 → dsess.remoteData.discr = dsess.userRemoteDiscr

section

variable {n : Nat} {d : UInt32} {dsess dsess' : DSession} {c c' : Ctx}

theorem bound_of_sameButEnds (h : SameButEnds dsess dsess') (hb : Bound dsess) : Bound dsess' := by
  obtain ⟨l, r, rfl⟩ := h
  exact hb

theorem bound_applyFields {csess : CSession} {src dst : Option Sockaddr} (hb : Bound dsess) :
    Bound (applyFields dsess csess src dst) := by
  intro hu
  unfold applyFields at hu ⊢
  cases hr : csess.remoteDiscr with
  | none =>
    rw [hr] at hu
    exact hb hu
  | some r => rfl

theorem Applied.bound {csess : CSession} {applied : DSession} (h : Applied dsess csess applied)
    (hb : Bound dsess) :
    Bound applied := by
  obtain ⟨src, dst, rfl⟩ := h.fields
  exact bound_applyFields hb

theorem makes_bound {nl : Nl} {csess : CSession} (h : Makes nl csess d dsess) : Bound dsess := by
  obtain ⟨sport, changed, h⟩ := h
  exact (sessionApplyC_ok h).bound (fun hu => absurd rfl hu)

theorem creates_bound {nl : Nl} {e : Event} (h : Creates nl d dsess e) : Bound dsess := by
  cases e with
  | add => exact makes_bound h.choose_spec.2
  | bfddAdd => exact makes_bound h.choose_spec.2
  | set | del | bfddDel | timer | pollout | ringbuf | kernel => exact h.elim

theorem timeoutDown_bound (h : timeoutDown c = .ok ((), c')) (hb : Bound c.dsess) : Bound c'.dsess := by
  have h := timeoutDown_ok h
  split at h
  · rw [(within_sessionStateChanged _ _ _ h).dsess]
    exact fun _ => rfl
  · rw [h]
    exact hb

theorem handleTimeout_bound (h : handleTimeout c = .ok ((), c')) (hb : Bound c.dsess) : Bound c'.dsess := by
  obtain ⟨c₁, hdown, h₁⟩ := handleTimeout_ok h
  refine timeoutDown_bound hdown ?_
  cases hs : c.bsess.bstate <;> simp only [hs] at h₁
  · rw [h₁]
    exact hb
  · exact bound_of_sameButEnds (sameButEnds_gotNonFinal h₁) hb
  · exact bound_of_sameButEnds (sameButEnds_gotNonFinal h₁) hb
  · exact bound_of_sameButEnds (sameButEnds_shwaitTimerCb h₁) hb

def ByPeer (dsess : DSession) (packet : BfdPkt) : Prop :=
  dsess.userRemoteDiscr ≠ 0 → ntoh32 packet.myDisc = dsess.userRemoteDiscr

theorem Handled.bound {h : Handler} (hh : Handled h c c') (hb : Bound c.dsess)
    (hp : ∀ packet wireLen ttl, h = .packet packet wireLen ttl →
      (taken c packet ttl).isSome = true → ByPeer c.dsess packet) :
    Bound c'.dsess := by
  cases hh with
  | @set _ c₁ r applied csess ha hu hr =>
    have hb₁ : Bound c₁.dsess := bound_of_sameButEnds (sameButEnds_sessionUpdate hr) (ha.bound hb)
    obtain he | he := announced_eq r (decide (applied ≠ c.dsess)) c₁ <;> rw [he] <;> exact hb₁
  | timeout hr => exact handleTimeout_bound hr hb
  | @hold _ c₂ id hm hr =>
    obtain ⟨c₁, h₁, h⟩ := holdTimerCb_ok hr
    have hd : c₂.dsess = (released c).dsess :=
      (timed_holdStop _ _ _ h).dsess.trans (within_sessionStateChanged _ _ _ h₁).dsess
    change Bound c₂.dsess
    rw [hd]
    exact hb
  | @shwait _ c₂ id hm hr => exact (bound_of_sameButEnds (sameButEnds_shwaitTimerCb hr) hb : Bound c₂.dsess)
  | drain kind hl hr =>
    rw [(within_drainSlot _ _ _ _ hr).dsess]
    exact hb
  | packet packet wireLen ttl hr =>
    obtain ⟨-, stats, diagStats, rfl⟩ | ⟨p, ht, hparse, hr⟩ := handlePacket_ok hr
    · exact hb
    · refine bound_of_sameButEnds (sameButEnds_acceptPacket hr) (fun hu => ?_)
      exact (parsePacket_discr hparse).1.trans (hp packet wireLen ttl rfl (by rw [ht]; rfl) hu)

theorem matched_byPeer {w : World} {nl : Nl} {ifindex : UInt32} {ethtype : UInt16} {ttl : UInt8}
    {multihop : Bool} {saddr daddr : Addr} {packet : BfdPkt} {digest : MatchDigest}
    (hdig : discr0Digest nl ifindex ethtype ttl multihop saddr daddr packet = .ok digest)
    (hm : matchSession w digest = [dsess]) : dsess ∈ w.sdir.values ∧ ByPeer dsess packet := by
  have hmem : dsess ∈ matchSession w digest := by rw [hm]; exact List.mem_singleton_self _
  obtain ⟨hval, hcomp⟩ := List.mem_filter.mp hmem
  refine ⟨hval, fun hu => ?_⟩
  have hdisc : digest.myDisc = ntoh32 packet.myDisc := by
    unfold discr0Digest at hdig
    split at hdig
    · cases hdig
    · split at hdig <;> cases hdig
      rfl
  simp only [sessionCompatible, Bool.and_eq_true, Bool.not_eq_true', decide_eq_false_iff_not,
    not_and, not_not] at hcomp
  rw [← hdisc]
  exact hcomp.1.1.2 hu

end

/-- No packet that comes to a session by its discriminator and is taken is by
another peer than the one the user named. -/
def OnlyPeers (w : World) (l : Env × Event) : Prop :=
  ∀ wireLen ttl packet rest c, l.2 = .ringbuf → w.bpf.kernel.ring = .rxUnxPkt wireLen ttl packet :: rest →
    w.session (ntoh32 packet.yourDisc) = some c → (taken c packet ttl).isSome = true → ByPeer c.dsess packet

theorem calls_byPeer {w : World} {env : Env} {e : Event} {d : UInt32} {c : Ctx} {packet : BfdPkt}
    {wireLen : UInt32} {ttl : UInt8} (hw : Sound w) (hg : OnlyPeers w (env, e))
    (hc : w.session d = some c)
    (hcall : Calls env.nl w e (.handler d (.packet packet wireLen ttl)))
    (ht : (taken c packet ttl).isSome = true) :
    ByPeer c.dsess packet := by
  cases hcall with
  | ring hring hr =>
    obtain ⟨-, hf⟩ | ⟨_, _, _, he,
      ⟨rfl, hy⟩ | ⟨ifindex, ethtype, multihop, saddr, daddr, digest, s, rfl, hdig, hm, hs⟩⟩ :=
      ringCall_handler hr
    · cases hf
    · cases he
      exact hg _ _ _ _ c rfl hring (hy ▸ hc) ht
    · cases he
      obtain ⟨hval, hpeer⟩ := matched_byPeer hdig hm
      obtain ⟨k, hk⟩ := Dir.mem_values.mp hval
      have hkd : d = k := hs.symm.trans (hw.discr_of_find hk)
      have hfind := (session_eq_some.mp hc).1
      rw [hkd, hk] at hfind
      cases hfind
      exact hpeer

/-- A session of whose peer the user gave the discriminator has no other peer,
as long as packets with the session's discriminator come from that peer. -/
theorem peerBound {w : World} (h : Run daemon OnlyPeers w) {d : UInt32} {c : Ctx}
    (hc : w.session d = some c) (hu : c.dsess.userRemoteDiscr ≠ 0) :
    c.dsess.remoteData.discr = c.dsess.userRemoteDiscr := by
  have hall : ∀ d dsess, w.sdir.find d = some dsess → Bound dsess := by
    refine Run.invariant (I := fun w => ∀ d dsess, w.sdir.find d = some dsess → Bound dsess) ?_
      (fun w l w' hr hb hg hs d dsess hd => ?_) h
    · rintro s ⟨rx, tx, cap, answers, -, rfl⟩ d dsess hd
      cases hd
    · obtain ⟨env, e⟩ := l
      have hw := reachable_sound hr
      obtain hd | ⟨-, hcr⟩ | ⟨h, c, c', hcs, hcall, hh, rfl⟩ := step_dsess hw hs hd
      · exact hb d dsess hd
      · exact creates_bound hcr
      · refine hh.bound (hb d _ (session_eq_some.mp hcs).1) (fun packet wireLen ttl hp ht => ?_)
        subst hp
        exact (calls_byPeer hw hg hcs hcall ht :)
  exact hall d c.dsess (session_eq_some.mp hc).1 hu

def byPeers (w : World) (l : Env × Event) : Bool :=
  match l.2, w.bpf.kernel.ring with
  | .ringbuf, .rxUnxPkt _ _ packet :: _ => w.sdir.values.all fun s => s.userRemoteDiscr = ntoh32 packet.myDisc
  | _, _ => true

theorem onlyPeers_of_byPeers {w : World} {l : Env × Event} (h : byPeers w l = true) : OnlyPeers w l := by
  intro wireLen ttl packet rest c he hring hc _ _
  simp only [byPeers, he, hring, List.all_eq_true, decide_eq_true_eq] at h
  exact (h _ (Dir.mem_values.mpr ⟨_, (session_eq_some.mp hc).1⟩)).symm

theorem peerBound_up : ∃ (w : World) (c : Ctx), w.session 5 = some c ∧ c.dsess.localData.state.state = .up ∧
    c.dsess.userRemoteDiscr = 7 ∧ c.dsess.remoteData.discr = 7 := by
  obtain ⟨w, c, hr, hc, hup, hu⟩ :=
    exists_run (inPlain ([.addFive (some 7) none, .timer 0 none] ++ arrival (peerPacket .init 0)))
    (fun w l _ (h : byPeers w l = true) => onlyPeers_of_byPeers h)
    (P := fun w c => c.dsess.localData.state.state = .up ∧ c.dsess.userRemoteDiscr = 7) (by decide +kernel)
  exact ⟨w, c, hc, hup, hu, (peerBound hr hc (by rw [hu]; decide)).trans hu⟩

/-- The user gives 8 as the peer of a session. A packet by the peer 7 with the
session's discriminator is taken all the same, and the session is up with 7. -/
theorem peerBound_stranger : ∃ (w : World) (c : Ctx), Reachable daemon w ∧ w.session 5 = some c ∧
    c.dsess.localData.state.state = .up ∧ c.dsess.userRemoteDiscr = 8 ∧ c.dsess.remoteData.discr = 7 := by
  obtain ⟨w, c, hr, hc, h⟩ := exists_replayed
    (inPlain ([.addFive (some 8) none, .timer 0 none] ++ arrival (peerPacket .init 0)))
    (P := fun w c => c.dsess.localData.state.state = .up ∧ c.dsess.userRemoteDiscr = 8 ∧
      c.dsess.remoteData.discr = 7)
    (by decide +kernel)
  exact ⟨w, c, hr, hc, h⟩

end Bbdd.Daemon
