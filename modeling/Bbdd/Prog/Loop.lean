import Bbdd.Prog
import Mathlib.Data.List.Basic

namespace Bbdd.Prog

open Packet Session

def Skb.discr (skb : Skb) : UInt32 := ntoh32 skb.bfd.myDisc

def Skb.final (skb : Skb) : Bool := hasBit (pktBits skb.bfd) bitFinal

def Skb.poll (skb : Skb) : Bool := hasBit (pktBits skb.bfd) bitPoll

def Skb.cpi (skb : Skb) : Bool := hasBit (pktBits skb.bfd) bitCpi

def Skb.isBfd (skb : Skb) : Bool := (txGetBfd skb).isSome

def Skb.core (skb : Skb) : Skb := { skb with hash := 0, tstamp := 0 }

@[simp] theorem Skb.core_discr (skb : Skb) : skb.core.discr = skb.discr := rfl

@[simp] theorem Skb.core_isBfd (skb : Skb) : skb.core.isBfd = skb.isBfd := rfl

@[simp] theorem Skb.core_mark (skb : Skb) : skb.core.mark = skb.mark := rfl

@[simp] theorem Skb.core_bfd (skb : Skb) : skb.core.bfd = skb.bfd := rfl

theorem txGetBfd_of_isBfd {skb : Skb} (h : skb.isBfd = true) : txGetBfd skb = some skb.bfd := by
  unfold Skb.isBfd at h
  unfold txGetBfd at h ⊢
  split_ifs at h ⊢ <;> first | rfl | cases h

theorem isBfd_of_headers {skb : Skb} (hp : skb.protocol = ethPIp ∨ skb.protocol = ethPIpv6)
    (hu : skb.ipProtocol = ipprotoUdp)
    (hd : skb.udpDest = bfdSingleHopPort ∨ skb.udpDest = bfdMultiHopPort) :
    skb.isBfd = true := by
  rw [Skb.isBfd, txGetBfd, if_neg (fun hn => hp.elim hn.1 hn.2), if_neg (fun hn => hn hu),
    if_neg (fun hn => hd.elim hn.1 hn.2)]
  rfl

def Current (k : Kernel) (skb : Skb) : Prop :=
  ∃ config, k.config skb.discr = some config ∧ (k.data skb.discr).isSome = true ∧ skb.mark = config.genId

/-- What the transmit program may do before its verdict: count, notify and
send the packet out. -/
structure Handles (k : Kernel) (skb : Skb) (k' : Kernel) : Prop where
  circ : k'.circ = k.circ
  released : k'.diagStats .skReleasedCount = k.diagStats .skReleasedCount
  wire : k'.wire = k.wire ∨ ∃ ifindex, k'.wire = (ifindex, skb.bfd) :: k.wire

namespace Handles

variable {k k' : Kernel} {skb : Skb}

theorem refl (k : Kernel) (skb : Skb) : Handles k skb k := ⟨rfl, rfl, .inl rfl⟩

theorem bumpDiag (h : Handles k skb k') (discr : UInt32) (st : SessionDiagStat) :
    Handles k skb (k'.bumpDiag discr st) :=
  ⟨h.circ, h.released, h.wire⟩

theorem notify (h : Handles k skb k') (reserve : Bool) (elem : RbElem) :
    Handles k skb (k'.notify reserve elem) := by
  unfold Kernel.notify
  split
  · exact ⟨h.circ, h.released, h.wire⟩
  · exact ⟨h.circ, by simpa [Kernel.bump] using h.released, h.wire⟩

end Handles

/-- Whether the first run of the transmit program shoots a packet down, in
terms of what the run reads. -/
def refusedTx (vethTxIfindex : UInt32) (h : TxHelpers) (skb : Skb) (config : Option SessionConfig)
    (hasData : Bool) : Bool :=
  match config with
  | none => true
  | some config =>
    !hasData || decide (skb.mark ≠ config.genId) ||
      skb.final && (match fibFailure h.fib with
        | some .txNoNeigh => false
        | some _ => true
        | none => decide (h.ifindex = vethTxIfindex) || !h.update || !h.redirect)

/-- One run of the transmit program on a BFD packet. Whatever leaves the loop
is counted as released. -/
structure TxRun (vethTxIfindex : UInt32) (h : TxHelpers) (k : Kernel) (skb : Skb)
    (r : TcAct × Skb × Kernel) : Prop where
  core : r.2.1.core = skb.core
  circ : r.2.2.circ = k.circ
  released : r.2.2.diagStats .skReleasedCount = k.diagStats .skReleasedCount + if r.1 = .ok then 0 else 1
  wire : r.2.2.wire = k.wire ∨ ∃ ifindex, r.2.2.wire = (ifindex, skb.bfd) :: k.wire
  ok : r.1 = .ok ↔ Current k skb ∧ skb.final = false
  shot : r.1 = .shot ↔ refusedTx vethTxIfindex h skb (k.config skb.discr) (k.data skb.discr).isSome = true

section

variable {vethTxIfindex : UInt32} {h : TxHelpers} {k k' : Kernel} {skb skb' : Skb} {config : SessionConfig}

theorem TxRun.gone (hn : Handles k skb k') (hc : ¬ Current k skb)
    (hr : refusedTx vethTxIfindex h skb (k.config skb.discr) (k.data skb.discr).isSome = true) :
    TxRun vethTxIfindex h k skb (.shot, skb, k'.bump .skReleasedCount) where
  core := rfl
  circ := hn.circ
  released := by simp [Kernel.bump, hn.released]
  wire := hn.wire
  ok := by simp [hc]
  shot := by simp [hr]

theorem TxRun.left (hn : Handles k skb k') (hs : skb'.core = skb.core) (hf : skb.final = true)
    {rc : TcAct} (hrc : rc ≠ .ok)
    (hr : rc = .shot ↔ refusedTx vethTxIfindex h skb (k.config skb.discr) (k.data skb.discr).isSome = true) :
    TxRun vethTxIfindex h k skb (rc, skb', k'.bump .skReleasedCount) where
  core := hs
  circ := hn.circ
  released := by simp [Kernel.bump, hn.released, hrc]
  wire := hn.wire
  ok := by simp [hf, hrc]
  shot := hr

theorem TxRun.out (hn : Handles k skb k') (hs : skb'.core = skb.core) (hc : Current k skb)
    {rc : TcAct} (hrc : rc ≠ .ok)
    (hr : skb.final = true → (rc = .shot ↔
      refusedTx vethTxIfindex h skb (k.config skb.discr) (k.data skb.discr).isSome = true)) :
    TxRun vethTxIfindex h k skb (txOut h config skb.final rc skb' k') := by
  unfold txOut
  cases hf : skb.final with
  | true => exact .left hn hs hf hrc (hr hf)
  | false =>
    refine ⟨by rw [← hs]; rfl, hn.circ, by simpa using hn.released, hn.wire, by simp [hf, hc], ?_⟩
    obtain ⟨config, h₁, h₂, h₃⟩ := hc
    simp [refusedTx, h₁, h₂, h₃, hf]

variable (vethTxIfindex h) in
theorem refusedTx_current (hc : Current k skb) (hf : skb.final = true) :
    refusedTx vethTxIfindex h skb (k.config skb.discr) (k.data skb.discr).isSome =
      match fibFailure h.fib with
        | some .txNoNeigh => false
        | some _ => true
        | none => decide (h.ifindex = vethTxIfindex) || !h.update || !h.redirect := by
  obtain ⟨config, h₁, h₂, h₃⟩ := hc
  simp only [refusedTx, h₁, h₂, h₃, hf]
  simp

theorem txForward_run (hs : skb'.core = skb.core) (hc : Current k skb) (hfib : fibFailure h.fib = none) :
    TxRun vethTxIfindex h k skb (txForward vethTxIfindex h config skb.discr skb.final skb' k) := by
  have hb : skb'.bfd = skb.bfd := by rw [← skb'.core_bfd, hs, skb.core_bfd]
  have hn := Handles.refl k skb
  have hr := fun hf => refusedTx_current vethTxIfindex h hc hf
  simp only [hfib] at hr
  unfold txForward
  split
  · rename_i h₁
    exact .out (hn.bumpDiag _ _) hs hc (by simp) (fun hf => by simp [hr hf, h₁])
  split
  · rename_i h₁ h₂
    exact .out (hn.bumpDiag _ _) hs hc (by simp) (fun hf => by simp [hr hf, h₂])
  split
  · rename_i h₁ h₂ h₃
    obtain ⟨hf, h₃⟩ := Bool.and_eq_true_iff.mp h₃
    exact .left (hn.bumpDiag _ _) hs hf (by simp) (by simp [hr hf, h₃])
  split
  · rename_i h₁ h₂ h₃ h₄
    exact .out (hn.bumpDiag _ _) hs hc (by simp) (fun hf => by simp [hr hf, h₄])
  · rename_i h₁ h₂ h₃ h₄
    simp only [Bool.not_eq_true, Bool.not_eq_false'] at h₂ h₄
    have hsent : Handles k skb (Kernel.mapData { k with wire := (h.ifindex, skb'.bfd) :: k.wire } skb.discr
        (fun e => (e.bump .txPackets 1).bump .txBytes skb'.len.toNat)) :=
      ⟨rfl, rfl, .inr ⟨h.ifindex, by rw [← hb]; rfl⟩⟩
    exact .out hsent hs hc (by simp) (fun hf => by simp [hr hf, h₁, h₂, h₄])

theorem xmitVethTx_run (vethTxIfindex : UInt32) (h : TxHelpers) (k : Kernel) {skb : Skb}
    (hb : skb.isBfd = true) :
    TxRun vethTxIfindex h k skb (xmitVethTx vethTxIfindex h skb k) := by
  have hn := Handles.refl k skb
  have hdiscr : ntoh32 skb.bfd.myDisc = skb.discr := rfl
  simp only [xmitVethTx, txGetBfd_of_isBfd hb, hdiscr]
  split
  · rename_i config e hcfg hdata
    split
    · rename_i hmark
      refine .gone (hn.bumpDiag _ _) (fun hc => ?_) (by simp [refusedTx, hcfg, hmark])
      obtain ⟨config', h₁, -, h₃⟩ := hc
      rw [hcfg] at h₁
      cases h₁
      exact hmark h₃
    · rename_i hmark
      have hc : Current k skb := ⟨config, hcfg, by simp [hdata], by simpa using hmark⟩
      have hs : (if skb.hash = 0 then { skb with hash := skb.discr ^^^ (config.genId * 2654435761) }
          else skb).core = skb.core := by
        split <;> rfl
      have hr := fun hf => refusedTx_current vethTxIfindex h hc hf
      generalize (if skb.hash = 0 then { skb with hash := skb.discr ^^^ (config.genId * 2654435761) }
        else skb) = skb' at hs
      cases hfib : fibFailure h.fib with
      | none => exact txForward_run hs hc hfib
      | some st =>
        simp only [hfib] at hr
        by_cases hst : st = .txNoNeigh
        · subst hst
          have hk := hn.notify h.reserve (txNotifyNoNeigh h skb'.protocol)
          change TxRun _ _ _ _ (if skb.final = true then _ else _)
          split
          · rename_i hf
            exact .left (hk.bumpDiag _ _) hs hf (by simp) (by simp [hr hf])
          · rename_i hf
            exact .out (hk.bumpDiag _ _) hs hc (by simp) (fun h => absurd h hf)
        · have hr' : skb.final = true →
              refusedTx vethTxIfindex h skb (k.config skb.discr) (k.data skb.discr).isSome = true := by
            intro hf
            rw [hr hf]
            cases st <;> first | rfl | exact absurd rfl hst
          split
          · rename_i heq; cases heq
          · rename_i heq; exact absurd (Option.some.inj heq) hst
          · rename_i st' heq hne
            exact .out (hn.bumpDiag _ _) hs hc (by simp) (fun hf => by simp [hr' hf])
  · rename_i hno
    have hc : ¬ Current k skb := by
      rintro ⟨config, h₁, h₂, -⟩
      obtain ⟨e, he⟩ := Option.isSome_iff_exists.mp h₂
      exact hno config e h₁ he
    refine .gone ⟨rfl, by simp [Kernel.bump], .inl rfl⟩ hc ?_
    cases hcfg : k.config skb.discr with
    | none => rfl
    | some config =>
      cases hdata : k.data skb.discr with
      | none => simp [refusedTx]
      | some e => exact absurd hdata (hno config e hcfg)

end

/-- What the kernel does to the loop by itself: packets leave it, and the ones
that stay may have been sent out. -/
structure Flows (k k' : Kernel) : Prop where
  circ : (k'.circ.map Skb.core).Sublist (k.circ.map Skb.core)
  released : (∀ skb ∈ k.circ, skb.isBfd = true) →
    k'.diagStats .skReleasedCount + k'.circ.length = k.diagStats .skReleasedCount + k.circ.length
  wire : ∃ out, k'.wire = out ++ k.wire ∧ ∀ p ∈ out, ∃ skb ∈ k.circ, p.2 = skb.bfd

namespace Flows

variable {k k' k'' : Kernel}

theorem all (h : Flows k k') {P : Skb → Prop} (hP : ∀ skb skb' : Skb, skb'.core = skb.core → P skb → P skb')
    (hk : ∀ skb ∈ k.circ, P skb) : ∀ skb ∈ k'.circ, P skb := by
  intro skb' hs
  obtain ⟨skb, hm, he⟩ := List.mem_map.mp (h.circ.subset (List.mem_map_of_mem hs))
  exact hP skb skb' he.symm (hk skb hm)

theorem isBfd (h : Flows k k') (hk : ∀ skb ∈ k.circ, skb.isBfd = true) :
    ∀ skb ∈ k'.circ, skb.isBfd = true :=
  h.all (fun skb skb' he hb => by rw [← skb'.core_isBfd, he, skb.core_isBfd, hb]) hk

theorem of_eq (hc : k'.circ = k.circ) (hr : k'.diagStats .skReleasedCount = k.diagStats .skReleasedCount)
    (hw : k'.wire = k.wire) : Flows k k' :=
  ⟨by rw [hc], fun _ => by rw [hc, hr], [], by rw [hw]; rfl, by simp⟩

theorem refl (k : Kernel) : Flows k k := .of_eq rfl rfl rfl

theorem trans (h : Flows k k') (h' : Flows k' k'') : Flows k k'' := by
  obtain ⟨out, hw, hout⟩ := h.wire
  obtain ⟨out', hw', hout'⟩ := h'.wire
  refine ⟨h'.circ.trans h.circ, fun hb => (h'.released (h.isBfd hb)).trans (h.released hb), out' ++ out, ?_, ?_⟩
  · rw [hw', hw, List.append_assoc]
  · intro p hp
    obtain hp | hp := List.mem_append.mp hp
    · obtain ⟨skb', hs', he⟩ := hout' p hp
      obtain ⟨skb, hs, hc⟩ := List.mem_map.mp (h.circ.subset (List.mem_map_of_mem hs'))
      exact ⟨skb, hs, by rw [he, ← skb'.core_bfd, ← hc, skb.core_bfd]⟩
    · exact hout p hp

end Flows

theorem pass_eq {vethTxIfindex : UInt32} {i : Nat} {h : TxHelpers} {k : Kernel} {skb : Skb}
    (hi : k.circ[i]? = some skb) :
    pass vethTxIfindex i h k =
      if (xmitVethTx vethTxIfindex h skb k).1 = .ok then
        { (xmitVethTx vethTxIfindex h skb k).2.2 with
          circ := (xmitVethTx vethTxIfindex h skb k).2.2.circ.set i (xmitVethTx vethTxIfindex h skb k).2.1 }
      else
        { (xmitVethTx vethTxIfindex h skb k).2.2 with
          circ := (xmitVethTx vethTxIfindex h skb k).2.2.circ.eraseIdx i } := by
  simp only [pass, hi]
  obtain ⟨act, skb', k'⟩ := xmitVethTx vethTxIfindex h skb k
  cases act <;> rfl

theorem pass_flows (vethTxIfindex : UInt32) (i : Nat) (h : TxHelpers) (k : Kernel) :
    Flows k (pass vethTxIfindex i h k) := by
  cases hi : k.circ[i]? with
  | none =>
    simp only [pass, hi]
    exact .refl k
  | some skb =>
    have hm := List.mem_of_getElem? hi
    obtain ⟨hlt, hget⟩ := List.getElem?_eq_some_iff.mp hi
    rw [pass_eq hi]
    by_cases hb : skb.isBfd = true
    · have hr := xmitVethTx_run vethTxIfindex h k hb
      have hwire : ∃ out, (xmitVethTx vethTxIfindex h skb k).2.2.wire = out ++ k.wire ∧
          ∀ p ∈ out, ∃ skb ∈ k.circ, p.2 = skb.bfd := by
        obtain hw | ⟨ifindex, hw⟩ := hr.wire
        · exact ⟨[], hw, by simp⟩
        · exact ⟨[(ifindex, skb.bfd)], hw, fun p hp => ⟨skb, hm, by rw [List.mem_singleton.mp hp]⟩⟩
      have hrel := hr.released
      split
      · rename_i hok
        rw [if_pos hok] at hrel
        refine ⟨?_, fun _ => ?_, hwire⟩
        · have hself : (k.circ.map Skb.core).set i skb.core = k.circ.map Skb.core := by
            have hl : i < (k.circ.map Skb.core).length := by simpa using hlt
            have hset := List.set_getElem_self hl
            rwa [List.getElem_map, hget] at hset
          simp only [hr.circ, List.map_set, hr.core, hself]
          exact List.Sublist.refl _
        · simp only [hr.circ, List.length_set, hrel, Nat.add_zero]
      · rename_i hok
        rw [if_neg hok] at hrel
        refine ⟨?_, fun _ => ?_, hwire⟩
        · simp only [hr.circ]
          exact (List.eraseIdx_sublist _ _).map _
        · simp only [hr.circ, hrel, List.length_eraseIdx, if_pos hlt]
          omega
    · have hx : xmitVethTx vethTxIfindex h skb k = (.shot, skb, k.bump .txNotBfd) := by
        unfold xmitVethTx
        cases hg : txGetBfd skb with
        | none => rfl
        | some bfd => simp [Skb.isBfd, hg] at hb
      rw [hx, if_neg (by simp)]
      exact ⟨(List.eraseIdx_sublist _ _).map _, fun hall => absurd (hall skb hm) hb, [], rfl, by simp⟩

theorem recv_flows (h : TimerHelpers) (reserve : Bool) (frame : RxFrame) (k : Kernel) :
    Flows k (recv h reserve frame k) := by
  have hnotify : ∀ (k' : Kernel) elem, Flows k k' → Flows k (k'.notify reserve elem) := by
    intro k' elem hk
    refine hk.trans ?_
    unfold Kernel.notify
    split <;> exact .of_eq rfl (by simp [Kernel.bump]) rfl
  have hbump : ∀ st, st ≠ .skReleasedCount → Flows k (k.bump st) := fun st hst =>
    .of_eq rfl (Function.update_of_ne (Ne.symm hst) _ _) rfl
  unfold recv
  split
  · exact hbump _ (by simp)
  · exact hbump _ (by simp)
  · exact hbump _ (by simp)
  · exact hnotify _ _ (hbump _ (by simp))
  · exact hbump _ (by simp)
  · exact .of_eq rfl rfl rfl
  · exact .of_eq rfl rfl rfl
  · exact hnotify _ _ (.refl k)
  · exact .of_eq rfl rfl rfl

theorem sessionExpired_flows (reserve : Bool) (discr : UInt32) (k : Kernel) :
    Flows k (sessionExpired reserve discr k) := by
  unfold sessionExpired
  split
  · exact .refl k
  · split
    · exact .refl k
    · unfold Kernel.notify
      split <;> exact .of_eq rfl (by simp [Kernel.bump, Kernel.mapData]) rfl

theorem Kernel.step_flows (vethTxIfindex : UInt32) (k : Kernel) (ev : KernelEvent) :
    Flows k (k.step vethTxIfindex ev) := by
  cases ev with
  | pass i h => exact pass_flows vethTxIfindex i h k
  | recv h reserve frame => exact recv_flows h reserve frame k
  | expired reserve discr => exact sessionExpired_flows reserve discr k

theorem Kernel.steps_flows (vethTxIfindex : UInt32) (k : Kernel) (evs : List KernelEvent) :
    Flows k (k.steps vethTxIfindex evs) := by
  induction evs generalizing k with
  | nil => exact .refl k
  | cons ev evs ih => exact (k.step_flows vethTxIfindex ev).trans (ih _)

theorem xmitVethRxXmit_run (h : TimerHelpers) (k : Kernel) {skb : Skb} (hb : skb.isBfd = true) :
    (xmitVethRxXmit h skb k).1 ≠ .ok ∧ (xmitVethRxXmit h skb k).2.2.circ = k.circ ∧
      (xmitVethRxXmit h skb k).2.2.wire = k.wire ∧
      (xmitVethRxXmit h skb k).2.2.diagStats .skReleasedCount = k.diagStats .skReleasedCount + 1 ∧
      ((xmitVethRxXmit h skb k).1 = .shot ↔
        ((k.config skb.discr).isSome && (k.data skb.discr).isSome) = false) := by
  unfold xmitVethRxXmit
  rw [txGetBfd_of_isBfd hb]
  simp only [Skb.discr]
  split
  · rename_i config e hcfg hdata
    exact ⟨by simp, rfl, rfl, by simp [Kernel.bump, Kernel.mapData], by simp [hcfg, hdata]⟩
  · rename_i hno
    refine ⟨by simp, rfl, rfl, by simp [Kernel.bump], ?_⟩
    cases hcfg : k.config (ntoh32 skb.bfd.myDisc) with
    | none => simp
    | some config =>
      cases hdata : k.data (ntoh32 skb.bfd.myDisc) with
      | none => simp
      | some e => exact absurd hdata (hno config e hcfg)

end Bbdd.Prog
