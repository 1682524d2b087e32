import Bbdd.Prog.Loop

namespace Bbdd.Prog

open Packet Session

theorem txInterval_bounds (config : SessionConfig) (prandom : UInt32) :
    config.minIntervalUs.toNat ≤ (txInterval config prandom).toNat ∧
      (txInterval config prandom).toNat ≤ (config.maxIntervalUs - config.minIntervalUs).toNat +
        config.minIntervalUs.toNat := by
  have hspan := (config.maxIntervalUs - config.minIntervalUs).toNat_lt
  have hmin := config.minIntervalUs.toNat_lt
  have hrand := prandom.toNat_lt
  generalize hs : (config.maxIntervalUs - config.minIntervalUs).toNat = span at hspan ⊢
  have hprod : prandom.toNat * span ≤ (2 ^ 32 - 1) * span := Nat.mul_le_mul_right _ (by omega)
  have hdiv : prandom.toNat * span / (2 ^ 32 - 1) ≤ span := Nat.div_le_of_le_mul hprod
  have hval : (txInterval config prandom).toNat = prandom.toNat * span / (2 ^ 32 - 1) +
    config.minIntervalUs.toNat := by
    simp only [txInterval, UInt64.toNat_add, UInt64.toNat_div, UInt64.toNat_mul, UInt32.toNat_toUInt64, hs]
    rw [show (0xffffffff : UInt64).toNat = 2 ^ 32 - 1 from rfl, Nat.mod_eq_of_lt
      (by omega), Nat.mod_eq_of_lt (by omega)]
  omega

theorem txOut_tstamp {h : TxHelpers} {config : SessionConfig} {final : Bool} {rc : TcAct}
    {skb skb' : Skb} {k k' : Kernel} (hne : rc ≠ .ok)
    (ho : txOut h config final rc skb k = (.ok, skb', k')) :
    skb'.tstamp = h.ktimeNs + txInterval config h.prandom * 1000 := by
  unfold txOut at ho
  split at ho
  · cases ho
    exact absurd rfl hne
  · cases ho
    rfl

theorem txForward_tstamp {veth discr : UInt32} {h : TxHelpers} {config : SessionConfig}
    {final : Bool} {skb skb' : Skb} {k k' : Kernel}
    (hf : txForward veth h config discr final skb k = (.ok, skb', k')) :
    skb'.tstamp = h.ktimeNs + txInterval config h.prandom * 1000 := by
  unfold txForward at hf
  split_ifs at hf
  · exact txOut_tstamp (by decide) hf
  · exact txOut_tstamp (by decide) hf
  · cases hf
  · exact txOut_tstamp (by decide) hf
  · exact txOut_tstamp (by decide) hf

theorem xmitVethTx_tstamp {veth : UInt32} {h : TxHelpers} {skb skb' : Skb} {k k' : Kernel}
    {config : SessionConfig} (hc : k.config (ntoh32 skb.bfd.myDisc) = some config)
    (hx : xmitVethTx veth h skb k = (.ok, skb', k')) :
    skb'.tstamp = h.ktimeNs + txInterval config h.prandom * 1000 := by
  unfold xmitVethTx at hx
  split at hx
  · cases hx
  · rename_i bfd hb
    have hbfd : skb.bfd = bfd := by
      unfold txGetBfd at hb
      split_ifs at hb
      exact Option.some.inj hb
    subst hbfd
    simp only [hc] at hx
    split at hx
    · rename_i config' _ hc' _
      cases hc'
      split at hx
      · cases hx
      · split at hx
        · exact txForward_tstamp hx
        · split at hx
          · cases hx
          · exact txOut_tstamp (by decide) hx
        · exact txOut_tstamp (by decide) hx
    · cases hx

theorem xmitVethTx_delay {veth : UInt32} {h : TxHelpers} {skb skb' : Skb} {k k' : Kernel}
    {config : SessionConfig} (hc : k.config (ntoh32 skb.bfd.myDisc) = some config)
    (hx : xmitVethTx veth h skb k = (.ok, skb', k')) :
    (skb'.tstamp - h.ktimeNs).toNat = (txInterval config h.prandom).toNat * 1000 := by
  have hspan := (config.maxIntervalUs - config.minIntervalUs).toNat_lt
  have hmin := config.minIntervalUs.toNat_lt
  have hhi := (txInterval_bounds config h.prandom).2
  rw [xmitVethTx_tstamp hc hx, UInt64.add_comm, UInt64.add_sub_cancel, UInt64.toNat_mul,
    show (1000 : UInt64).toNat = 1000 from rfl]
  exact Nat.mod_eq_of_lt (by omega)

def Kernel.txPackets (k : Kernel) (discr : UInt32) : Option Nat := (k.data discr).map (·.stats .txPackets)

/-- Nothing was sent and nothing counted, or the packet was sent and counted once. -/
def Counted (h : TxHelpers) (k : Kernel) (skb : Skb) (k' : Kernel) : Prop :=
  (k'.wire = k.wire ∧ k'.txPackets = k.txPackets) ∨
    (h.redirect = true ∧ k'.wire = (h.ifindex, skb.bfd) :: k.wire ∧
      k'.txPackets = Function.update k.txPackets skb.discr ((k.txPackets skb.discr).map (· + 1)))

section

variable {h : TxHelpers} {k k' : Kernel} {skb skb' : Skb}

theorem txPackets_mapData (k : Kernel) (discr : UInt32) (f : SessionEntry → SessionEntry) (d : UInt32) :
    (k.mapData discr f).txPackets d =
      if d = discr then (k.data discr).map (fun e => (f e).stats .txPackets) else k.txPackets d := by
  by_cases hd : d = discr
  · subst hd
    simp [Kernel.txPackets, Kernel.mapData, Function.comp_def]
  · simp [Kernel.txPackets, Kernel.mapData, hd]

@[simp] theorem txPackets_bumpDiag (k : Kernel) (discr : UInt32) (st : SessionDiagStat) :
    (k.bumpDiag discr st).txPackets = k.txPackets := by
  funext d
  rw [Kernel.bumpDiag, txPackets_mapData]
  by_cases hd : d = discr
  · rw [if_pos hd, hd]
    rfl
  · rw [if_neg hd]

@[simp] theorem txPackets_notify (k : Kernel) (reserve : Bool) (elem : RbElem) :
    (k.notify reserve elem).txPackets = k.txPackets := by
  unfold Kernel.notify
  split <;> rfl

theorem wire_notify (k : Kernel) (reserve : Bool) (elem : RbElem) :
    (k.notify reserve elem).wire = k.wire := by
  unfold Kernel.notify
  split <;> rfl

theorem Counted.refl (k : Kernel) : Counted h k skb k := .inl ⟨rfl, rfl⟩

theorem Counted.bump (hc : Counted h k skb k') (st : GlobalDiagStat) : Counted h k skb (k'.bump st) := hc

theorem Counted.bumpDiag (hc : Counted h k skb k') (discr : UInt32) (st : SessionDiagStat) :
    Counted h k skb (k'.bumpDiag discr st) := by
  unfold Counted
  rw [txPackets_bumpDiag]
  exact hc

theorem Counted.notify (hc : Counted h k skb k') (reserve : Bool) (elem : RbElem) :
    Counted h k skb (k'.notify reserve elem) := by
  unfold Counted
  rw [txPackets_notify, wire_notify]
  exact hc

theorem Counted.out (hc : Counted h k skb k') (config : SessionConfig) (final : Bool) (rc : TcAct) :
    Counted h k skb (txOut h config final rc skb' k').2.2 := by
  unfold txOut
  split
  · exact hc.bump _
  · exact hc

theorem Counted.sent (hr : h.redirect = true) (hb : skb'.bfd = skb.bfd) :
    Counted h k skb (Kernel.mapData { k with wire := (h.ifindex, skb'.bfd) :: k.wire } skb.discr
      (fun e => (e.bump .txPackets 1).bump .txBytes skb'.len.toNat)) := by
  refine .inr ⟨hr, by rw [← hb]; rfl, ?_⟩
  funext d
  rw [txPackets_mapData]
  by_cases hd : d = skb.discr
  · subst hd
    simp [Kernel.txPackets, SessionEntry.bump, Function.comp_def]
  · rw [if_neg hd, Function.update_of_ne hd]
    rfl

theorem txForward_counted (veth : UInt32) (config : SessionConfig) (final : Bool)
    (hb : skb'.bfd = skb.bfd) :
    Counted h k skb (txForward veth h config skb.discr final skb' k).2.2 := by
  have hk : Counted h k skb k := .refl k
  unfold txForward
  split_ifs with h₁ h₂ h₃ h₄
  · exact (hk.bumpDiag _ _).out _ _ _
  · exact (hk.bumpDiag _ _).out _ _ _
  · exact (hk.bumpDiag _ _).bump _
  · exact (hk.bumpDiag _ _).out _ _ _
  · exact (Counted.sent (by simpa using h₄) hb).out _ _ _

theorem xmitVethTx_counted (veth : UInt32) (h : TxHelpers) (k : Kernel) {skb : Skb}
    (hb : skb.isBfd = true) :
    Counted h k skb (xmitVethTx veth h skb k).2.2 := by
  have hk : Counted h k skb k := .refl k
  unfold xmitVethTx
  rw [txGetBfd_of_isBfd hb]
  dsimp only
  split
  · split
    · exact (hk.bumpDiag _ _).bump _
    · split
      · apply txForward_counted
        split <;> rfl
      · split
        · exact ((hk.notify _ _).bumpDiag _ _).bump _
        · exact ((hk.notify _ _).bumpDiag _ _).out _ _ _
      · exact (hk.bumpDiag _ _).out _ _ _
  · exact (hk.bump _).bump _

end

/-- The packet stays in the loop, as only one of the session as it is now does
that is not a Final, and is due after the least interval at the earliest. The
departure time as a number is that late as long as the clock is not about to
wrap. -/
structure Loops (h : TxHelpers) (k : Kernel) (skb : Skb) (r : TcAct × Skb × Kernel) : Prop where
  ok : r.1 = .ok
  kept : r.2.2.diagStats .skReleasedCount = k.diagStats .skReleasedCount
  not_final : skb.final = false
  due : ∃ config, k.config skb.discr = some config ∧ (k.data skb.discr).isSome = true ∧ skb.mark = config.genId ∧
    config.minIntervalUs.toNat * 1000 ≤ (r.2.1.tstamp - h.ktimeNs).toNat ∧
    (h.ktimeNs.toNat < 2 ^ 63 → h.ktimeNs.toNat + config.minIntervalUs.toNat * 1000 ≤ r.2.1.tstamp.toNat)

structure Departs (k : Kernel) (r : TcAct × Skb × Kernel) : Prop where
  verdict : r.1 ≠ .ok
  released : r.2.2.diagStats .skReleasedCount = k.diagStats .skReleasedCount + 1

theorem loops_of_ok {veth : UInt32} {h : TxHelpers} {k : Kernel} {skb : Skb} (hb : skb.isBfd = true)
    (hok : (xmitVethTx veth h skb k).1 = .ok) : Loops h k skb (xmitVethTx veth h skb k) := by
  have hrun := xmitVethTx_run veth h k hb
  obtain ⟨⟨config, hcfg, hdata, hmark⟩, hfinal⟩ := hrun.ok.mp hok
  have hx : xmitVethTx veth h skb k = (.ok, (xmitVethTx veth h skb k).2.1, (xmitVethTx veth h skb k).2.2) :=
    Prod.ext hok rfl
  have hdelay := xmitVethTx_delay hcfg hx
  have hlo := (txInterval_bounds config h.prandom).1
  refine ⟨hok, by simpa [hok] using hrun.released, hfinal, config, hcfg, hdata, hmark, by
    omega, fun hclock => ?_⟩
  have ht := (xmitVethTx veth h skb k).2.1.tstamp.toNat_lt
  have hhi := (txInterval_bounds config h.prandom).2
  have hspan := (config.maxIntervalUs - config.minIntervalUs).toNat_lt
  have hmin := config.minIntervalUs.toNat_lt
  rw [UInt64.toNat_sub] at hdelay
  omega

/-- A BFD packet either stays in the loop or leaves it, for every content of
the maps and every outcome of the helpers. A Final never stays, and what is
counted as sent was sent. -/
theorem pass_contract (veth : UInt32) (h : TxHelpers) (k : Kernel) {skb : Skb}
    (hb : (txGetBfd skb).isSome = true) :
    Xor (Loops h k skb (xmitVethTx veth h skb k)) (Departs k (xmitVethTx veth h skb k)) ∧
      (skb.final = true → Departs k (xmitVethTx veth h skb k)) ∧ Counted h k skb
        (xmitVethTx veth h skb k).2.2 := by
  have hrun := xmitVethTx_run veth h k hb
  have hdeparts : (xmitVethTx veth h skb k).1 ≠ .ok → Departs k (xmitVethTx veth h skb k) :=
    fun hok => ⟨hok, by simpa [hok] using hrun.released⟩
  refine ⟨?_, fun hf => ?_, xmitVethTx_counted veth h k hb⟩
  · by_cases hok : (xmitVethTx veth h skb k).1 = .ok
    · exact .inl ⟨loops_of_ok hb hok, fun hl => hl.verdict hok⟩
    · exact .inr ⟨hdeparts hok, fun hl => hok hl.ok⟩
  · apply hdeparts
    intro hok
    rw [(hrun.ok.mp hok).2] at hf
    cases hf

def Skb.ofFive (bits : UInt8) (mark : UInt32) : Skb :=
  { protocol := ethPIp
    ipProtocol := ipprotoUdp
    udpDest := bfdSingleHopPort
    bfd := ⟨0x20, 0x40 ||| bits, 3, 24, hton32 5, hton32 0, hton32 1000000, hton32 1000000, hton32 0⟩
    mark := mark
    hash := 0
    len := 66
    tstamp := 0 }

def Kernel.ofFive : Kernel :=
  let config : SessionConfig :=
    { fibLookup := ⟨2, 17, 0, 3784, 0, 0, 0, .zero, .zero⟩
      bpfFibLookupFlags := 0
      minIntervalUs := 750000
      maxIntervalUs := 1000000
      detectTimeUs := 0
      genId := 7
      adminDown := false
      rearmTimer := false
      ttl := 255
      rxExpect := (Skb.ofFive 0 7).bfd }
  (Kernel.empty.setConfig 5 (some config)).setData 5 (some .fresh)

theorem pass_contract_five :
    let h : TxHelpers := ⟨.success, 2, .zero, true, true, true, 0, 1000⟩
    Loops h .ofFive (.ofFive 0 7) (xmitVethTx 1 h (.ofFive 0 7) .ofFive) ∧
      Departs .ofFive (xmitVethTx 1 h (.ofFive 0x10 7) .ofFive) := by
  intro h
  have hok : (xmitVethTx 1 h (.ofFive 0 7) .ofFive).1 = .ok := by decide
  have hloop := @pass_contract 1 h .ofFive (.ofFive 0 7) (by decide)
  have hfinal := @pass_contract 1 h .ofFive (.ofFive 0x10 7) (by decide)
  obtain ⟨hl, -⟩ | ⟨hl, -⟩ := hloop.1
  · exact ⟨hl, hfinal.2.1 (by decide)⟩
  · exact absurd hok hl.verdict

end Bbdd.Prog
