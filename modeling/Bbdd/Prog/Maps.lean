import Bbdd.Prog.Loop

namespace Bbdd.Prog

open Packet Session

/-- What the receive program has checked of a packet that it hands on. -/
def RbElem.Screened : RbElem → Prop
  | .rxDiscr0 _ _ _ _ _ _ _ packet => pktVersion packet = 1 ∧ packet.length = pktSize ∧
      ntoh32 packet.yourDisc = 0
  | .rxUnxPkt _ _ packet => pktVersion packet = 1 ∧ packet.length = pktSize ∧ ntoh32 packet.yourDisc ≠ 0
  | .txNoNeigh _ _ _ | .rxTimeout _ => True

/-- The programs read the configuration and never write it, they update the
data only of sessions that have some, and they screen what they hand on. -/
structure Served (k k' : Kernel) : Prop where
  config : k'.config = k.config
  keys : ∀ d, (k'.data d).isSome = (k.data d).isSome
  ring : ∀ elem ∈ k'.ring, elem ∈ k.ring ∨ elem.Screened

variable {k k' k'' : Kernel}

theorem Served.refl (k : Kernel) : Served k k := ⟨rfl, fun _ => rfl, fun _ => .inl⟩

theorem Served.trans (h : Served k k') (h' : Served k' k'') : Served k k'' :=
  ⟨h'.config.trans h.config, fun d => (h'.keys d).trans (h.keys d), fun elem he =>
    (h'.ring elem he).elim (h.ring elem) .inr⟩

theorem Served.of_eq (hc : k'.config = k.config) (hd : k'.data = k.data) (hr : k'.ring = k.ring) :
    Served k k' :=
  ⟨hc, fun d => by rw [hd], fun _ he => .inl (hr ▸ he)⟩

theorem served_bump (k : Kernel) (st : GlobalDiagStat) : Served k (k.bump st) := .of_eq rfl rfl rfl

theorem served_mapData (k : Kernel) (discr : UInt32) (f : SessionEntry → SessionEntry) :
    Served k (k.mapData discr f) := by
  refine ⟨rfl, fun d => ?_, fun _ => .inl⟩
  simp only [Kernel.mapData, Function.update_apply]
  split
  · rename_i hd
    rw [hd, Option.isSome_map]
  · rfl

theorem served_bumpDiag (k : Kernel) (discr : UInt32) (st : SessionDiagStat) :
    Served k (k.bumpDiag discr st) :=
  served_mapData ..

theorem served_notify (k : Kernel) (reserve : Bool) {elem : RbElem} (he : elem.Screened) :
    Served k (k.notify reserve elem) := by
  unfold Kernel.notify
  split
  · refine ⟨rfl, fun _ => rfl, fun e hm => ?_⟩
    obtain hm | hm := List.mem_append.mp hm
    · exact .inl hm
    · exact .inr (List.mem_singleton.mp hm ▸ he)
  · exact served_bump ..

/-- What the programs do to the state of the kernel, one change at a time. -/
structure Allows (R : Kernel → Kernel → Prop) : Prop where
  bump : ∀ k st, R k (k.bump st)
  bumpDiag : ∀ k discr st, R k (k.bumpDiag discr st)
  notify : ∀ k reserve elem, elem.Screened → R k (k.notify reserve elem)
  circ : ∀ k circ, R k { k with circ := circ }
  wire : ∀ k wire, R k { k with wire := wire }
  sent : ∀ k discr len, R k (k.mapData discr (fun e => (e.bump .txPackets 1).bump .txBytes len))
  rearm : ∀ k discr h config, R k (k.mapData discr (recvRearmTimer h config))
  expire : ∀ k discr, R k (k.mapData discr (fun e => { e with timer := none }.bumpDiag .rxTimeout))
  recv : ∀ h reserve frame k, R k (recv h reserve frame k)

theorem Allows.mono {R S : Kernel → Kernel → Prop} (ha : Allows R) (h : ∀ k k', R k k' → S k k') :
    Allows S where
  bump _ _ := h _ _ (ha.bump ..)
  bumpDiag _ _ _ := h _ _ (ha.bumpDiag ..)
  notify _ _ _ hs := h _ _ (ha.notify _ _ _ hs)
  circ _ _ := h _ _ (ha.circ ..)
  wire _ _ := h _ _ (ha.wire ..)
  sent _ _ _ := h _ _ (ha.sent ..)
  rearm _ _ _ _ := h _ _ (ha.rearm ..)
  expire _ _ := h _ _ (ha.expire ..)
  recv _ _ _ _ := h _ _ (ha.recv ..)

section

variable {R : Kernel → Kernel → Prop} [IsTrans Kernel R] (ha : Allows R)
include ha

theorem Allows.out (hk : R k k') (h : TxHelpers) (config : SessionConfig) (final : Bool)
    (rc : TcAct) (skb : Skb) :
    R k (txOut h config final rc skb k').2.2 := by
  unfold txOut
  split
  · exact trans_of R hk (ha.bump ..)
  · exact hk

theorem Allows.txForward (vethTxIfindex : UInt32) (h : TxHelpers) (config : SessionConfig)
    (discr : UInt32) (final : Bool) (skb : Skb) (k : Kernel) :
    R k (txForward vethTxIfindex h config discr final skb k).2.2 := by
  unfold Prog.txForward
  split_ifs
  · exact ha.out (ha.bumpDiag ..) ..
  · exact ha.out (ha.bumpDiag ..) ..
  · exact trans_of R (ha.bumpDiag ..) (ha.bump ..)
  · exact ha.out (ha.bumpDiag ..) ..
  · exact ha.out (trans_of R (ha.wire ..) (ha.sent ..)) ..

theorem Allows.xmitVethTx (vethTxIfindex : UInt32) (h : TxHelpers) (skb : Skb) (k : Kernel) :
    R k (xmitVethTx vethTxIfindex h skb k).2.2 := by
  unfold Prog.xmitVethTx
  split
  · exact ha.bump ..
  · dsimp only
    split
    · split
      · exact trans_of R (ha.bumpDiag ..) (ha.bump ..)
      · split
        · exact ha.txForward ..
        · have hn : R k (k.notify h.reserve (txNotifyNoNeigh h skb.protocol)) := ha.notify k h.reserve _ trivial
          split
          · simp only [apply_ite Skb.protocol, ite_self]
            exact trans_of R (trans_of R hn (ha.bumpDiag ..)) (ha.bump ..)
          · simp only [apply_ite Skb.protocol, ite_self]
            exact ha.out (trans_of R hn (ha.bumpDiag ..)) ..
        · exact ha.out (ha.bumpDiag ..) ..
    · exact trans_of R (ha.bump ..) (ha.bump ..)

theorem Allows.xmitVethRxXmit (h : TimerHelpers) (skb : Skb) (k : Kernel) :
    R k (xmitVethRxXmit h skb k).2.2 := by
  unfold Prog.xmitVethRxXmit
  split
  · exact ha.bump ..
  · dsimp only
    split
    · exact trans_of R (ha.rearm ..) (ha.bump ..)
    · exact trans_of R (ha.bump ..) (ha.bump ..)

variable [Std.Refl R]

theorem Allows.pass (vethTxIfindex : UInt32) (i : Nat) (h : TxHelpers) (k : Kernel) :
    R k (pass vethTxIfindex i h k) := by
  cases hi : k.circ[i]? with
  | none =>
    simp only [Prog.pass, hi]
    exact refl_of R k
  | some skb =>
    rw [pass_eq hi]
    split <;> exact trans_of R (ha.xmitVethTx ..) (ha.circ ..)

theorem Allows.sessionExpired (reserve : Bool) (discr : UInt32) (k : Kernel) :
    R k (sessionExpired reserve discr k) := by
  unfold Prog.sessionExpired
  split
  · exact refl_of R k
  · split
    · exact refl_of R k
    · exact trans_of R (ha.expire ..) (ha.notify _ reserve (.rxTimeout discr) trivial)

theorem Allows.step (vethTxIfindex : UInt32) (k : Kernel) (ev : KernelEvent) :
    R k (k.step vethTxIfindex ev) := by
  cases ev with
  | pass i h => exact ha.pass vethTxIfindex i h k
  | recv h reserve frame => exact ha.recv h reserve frame k
  | expired reserve discr => exact ha.sessionExpired reserve discr k

theorem Allows.steps (vethTxIfindex : UInt32) (k : Kernel) (evs : List KernelEvent) :
    R k (k.steps vethTxIfindex evs) := by
  induction evs generalizing k with
  | nil => exact refl_of R k
  | cons ev evs ih => exact trans_of R (ha.step vethTxIfindex k ev) (ih _)

end

theorem recvVerdict_screened {frame : RxFrame} {bfd : BfdPkt} :
    (recvVerdict k frame = .discr0 bfd → pktVersion bfd = 1 ∧ bfd.length = pktSize ∧ ntoh32 bfd.yourDisc = 0) ∧
      (recvVerdict k frame = .unexpected bfd → pktVersion bfd = 1 ∧ bfd.length = pktSize ∧
        ntoh32 bfd.yourDisc ≠ 0) := by
  unfold recvVerdict
  split
  · simp
  · dsimp only
    split_ifs with hv hl h0
    · simp
    · simp
    · simp only [RecvVerdict.discr0.injEq, false_implies, and_true]
      rintro rfl
      exact ⟨not_not.mp hv, not_not.mp hl, h0⟩
    · split
      · split_ifs <;> simp only [RecvVerdict.unexpected.injEq, false_implies, true_and, and_true]
        rintro rfl
        exact ⟨not_not.mp hv, not_not.mp hl, h0⟩
      · simp

theorem recv_served (h : TimerHelpers) (reserve : Bool) (frame : RxFrame) (k : Kernel) :
    Served k (recv h reserve frame k) := by
  unfold recv
  split
  · exact served_bump ..
  · exact served_bump ..
  · exact served_bump ..
  · rename_i bfd hv
    exact (served_bump ..).trans (served_notify _ _ (recvVerdict_screened.1 hv))
  · exact served_bump ..
  · exact served_bumpDiag ..
  · exact served_bumpDiag ..
  · rename_i bfd hv
    exact served_notify _ _ (recvVerdict_screened.2 hv)
  · exact served_mapData ..

instance : Std.Refl Served := ⟨Served.refl⟩

instance : IsTrans Kernel Served := ⟨fun _ _ _ => Served.trans⟩

theorem allows_served : Allows Served where
  bump := served_bump
  bumpDiag := served_bumpDiag
  notify _ _ _ := served_notify _ _
  circ _ _ := .of_eq rfl rfl rfl
  wire _ _ := .of_eq rfl rfl rfl
  sent _ _ _ := served_mapData ..
  rearm _ _ _ _ := served_mapData ..
  expire _ _ := served_mapData ..
  recv := recv_served

theorem Kernel.step_served (vethTxIfindex : UInt32) (k : Kernel) (ev : KernelEvent) :
    Served k (k.step vethTxIfindex ev) :=
  allows_served.step vethTxIfindex k ev

structure Entries (d : UInt32) (k k' : Kernel) : Prop where
  config : ∀ e, e ≠ d → k'.config e = k.config e
  keys : ∀ e, e ≠ d → (k'.data e).isSome = (k.data e).isSome

variable {d : UInt32} {ok : Bool}

theorem Served.entries (h : Served k k') (d : UInt32) : Entries d k k' :=
  ⟨fun _ _ => by rw [h.config], fun e _ => h.keys e⟩

theorem Entries.trans (h : Entries d k k') (h' : Entries d k' k'') : Entries d k k'' :=
  ⟨fun e he => (h'.config e he).trans (h.config e he), fun e he => (h'.keys e he).trans (h.keys e he)⟩

theorem entries_setConfig (d : UInt32) (k : Kernel) (config : Option SessionConfig) :
    Entries d k (k.setConfig d config) :=
  ⟨fun _ he => Function.update_of_ne he _ _, fun _ _ => rfl⟩

theorem entries_setData (d : UInt32) (k : Kernel) (data : Option SessionEntry) :
    Entries d k (k.setData d data) :=
  ⟨fun _ _ => rfl, fun _ he => congrArg Option.isSome (Function.update_of_ne he _ _)⟩

@[simp] theorem setConfig_self (k : Kernel) (config : Option SessionConfig) :
    (k.setConfig d config).config d = config :=
  Function.update_self ..

@[simp] theorem setData_self (k : Kernel) (data : Option SessionEntry) : (k.setData d data).data d = data :=
  Function.update_self ..

structure Entered (d : UInt32) (k k' : Kernel) (ok : Bool) : Prop where
  entries : Entries d k k'
  config : (k'.config d).isSome = ok
  data : (k'.data d).isSome = (ok || (k.data d).isSome)

theorem Entered.after (h : Served k k') (h' : Entered d k' k'' ok) : Entered d k k'' ok :=
  ⟨(h.entries d).trans h'.entries, h'.config, by rw [h'.data, h.keys]⟩

theorem Entered.before (h : Entered d k k' ok) (h' : Served k' k'') : Entered d k k'' ok :=
  ⟨h.entries.trans (h'.entries d), by rw [h'.config]; exact h.config, by rw [h'.keys]; exact h.data⟩

theorem Served.refused (h : Served k k') (hd : k.config d = none) : Entered d k k' false :=
  ⟨h.entries d, by rw [h.config, hd]; rfl, h.keys d⟩

end Bbdd.Prog
