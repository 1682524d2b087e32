import Bbdd.Monitor.Receive

namespace Bbdd.Monitor

open Lib.SafeLoop

/-- Whose registrations a connection loses as one of them is told that it is done. -/
def Owner.Takes : Owner → Owner → Prop
  | .client id, o => o = .client id
  | .echo id, o => o = .echo id ∨ ∃ c, o = .client c
  | .tokener, _ | .stats, _ => False

def Unheld (pid : Nat) (hub : Hub) (cid : Nat) : Prop := ∀ o, ¬ hub.Holds pid cid o

def Untold (pid : Nat) (hub : Hub) (cid : Nat) : Prop :=
  ∀ o, cbsOwner pid cid hub = some o → o ≠ .tokener → hub.Holds pid cid o

def Precedes (pid : Nat) (hub : Hub) (cid next : Nat) : Prop :=
  ∃ id c, cbsOwner pid cid hub = some (.echo id) ∧ cbsOwner pid next hub = some (.client c)

section

variable {C : Conditions} {hub hub' : Hub} {pid cid : Nat} {peer : Peer}

theorem peerTx_fails (C : Conditions) (sent : Sent) (ht : Tidy none hub)
    (hp : hub.peers pid = some peer) : Fails hub (peerTx C pid sent hub) := by
  cases sent with
  | again => exact ⟨none, hub, rfl, ht, Kept.refl hub⟩
  | failed e => exact ⟨_, hub, rfl, ht, Kept.refl hub⟩
  | took len =>
    obtain ⟨hub₁, h₁, ht₁, hk₁⟩ := reportDebug_goes C (fun peer => s!"fd {peer.fd}: sent {len} bytes") ht hp
    obtain ⟨peer₁, hp₁⟩ := hk₁.peer hp
    obtain ⟨ht₂, hk₂⟩ := onPeer_spares (f := fun peer =>
      { peer with tx := (peer.tx.pull len).toOption.getD peer.tx }) ht₁ hp₁ rfl rfl
    refine ⟨none, _, ?_, ht₂, hk₁.trans hk₂.kept⟩
    rw [peerTx, h₁]
    rfl

theorem flush_goes (C : Conditions) (sends : Nat → Sent) (left : Nat) (ht : Tidy none hub)
    (hp : hub.peers pid = some peer) :
    Goes none hub (flush C pid sends left hub) := by
  induction left generalizing hub peer with
  | zero => exact .ok ht
  | succ left ih =>
    obtain ⟨failed, hub₁, h₁, ht₁, hk₁⟩ := peerTx_fails C (sends left) ht hp
    obtain ⟨peer₁, hp₁⟩ := hk₁.peer hp
    simp only [flush, hp, h₁]
    by_cases hlen : peer.tx.len = 0
    · rw [if_pos hlen]
      exact .ok ht
    · rw [if_neg hlen]
      refine Goes.after hk₁ ?_
      cases failed with
      | some e => exact .ok ht₁
      | none =>
        by_cases hleft : left = 0
        · simp only [if_pos hleft]
          exact (monSendDebug_spares C _ ht₁).goes
        · simp only [if_neg hleft]
          exact ih ht₁ hp₁

theorem Tidy.tell {stats : Stats} (ht : Tidy (some pid) hub) (hs : hub.stats = some stats)
    (hpeer : stats.peer = some pid) :
    Tidy (some pid) { hub with stats := some { stats with peer := none } } := by
  have hholds : ∀ q r o, ({ hub with stats := some { stats with peer := none } } : Hub).Holds q r
    o ↔ hub.Holds q r o ∧ o ≠ .stats := by
    intro q r o
    refine (holds_setStats _ hub.fresh q r o).trans (or_iff_left ?_)
    rintro ⟨-, s, h, hq, -⟩
    cases h
    cases hq
  refine { ht.toRolls.setStats _ (Nat.le_refl _)
    with peers := fun q p hq => ?_, there := fun q r o h => ht.there q r o ((hholds q r o).mp h).1 }
  have hreg := ht.peers q p hq
  refine
    { hreg with
      held := fun r o h => hreg.held r o ((hholds q r o).mp h).1
      debug := fun r id h => hreg.debug r id ((hholds q r _).mp h).1
      owned := fun e he ho => ?_ }
  by_cases hstats : e.owner = .stats
  · obtain h | h := hreg.owned e he ho
    · rw [hstats] at h
      obtain ⟨s, hm, hq, -⟩ := h
      cases hs.symm.trans hm
      cases hpeer.symm.trans hq
      exact .inr ⟨rfl, hstats⟩
    · exact .inr h
  · exact (hreg.owned e he ho).imp_left fun h => (hholds q e.id e.owner).mpr ⟨h, hstats⟩

theorem Shrinks.tell {stats : Stats} (gone : Owner → Prop) :
    Shrinks gone hub { hub with stats := some { stats with peer := none } } where
  kept := { Kept.refl hub with }
  holds q r o h := by
    refine ((holds_setStats _ hub.fresh q r o).mp h).elim And.left ?_
    rintro ⟨-, s, hm, hq, -⟩
    cases hm
    cases hq
  cbs _ := .refl _
  lost pid p p' hp hp' e he hne := by
    cases hp.symm.trans hp'
    exact absurd he hne

theorem doneCb_goes (C : Conditions) (ht : Tidy (some pid) hub) (hp : hub.peers pid = some peer)
    {e : Cbs} (he : e ∈ peer.cbs) (hready : e.owner ≠ .tokener → hub.Holds pid e.id e.owner) :
    ∃ hub', doneCb C pid e.id hub = .ok hub' ∧ Tidy (some pid) hub' ∧
      Shrinks e.owner.Takes hub hub' ∧ ¬ hub'.Holds pid e.id e.owner ∧
      (e.owner ≠ .stats → hub'.stats = hub.stats) := by
  have hreg := ht.peers pid peer hp
  have howner := cbsOwner_eq ht hp he
  unfold doneCb
  rw [howner]
  obtain ⟨cid, owner⟩ := e
  cases owner with
  | tokener => exact ⟨hub, rfl, ht,
      ⟨.refl hub, fun _ _ _ h => h, fun _ => .refl _, fun _ _ _ hq hq' _ hm hne => by
      cases hq.symm.trans hq'; exact absurd hm hne⟩, id, fun _ => rfl⟩
  | client id =>
    obtain ⟨cli, hm, rfl, hk⟩ := hready (by simp)
    have hr : Rolls (hub.setPeer pid (some { peer with cbs := peer.cbs.eraseP (·.id = cid) })) :=
      { ht.toRolls with }
    have hholds := holds_dealloc hr cli
    refine ⟨_, ?_, ht.drop hm hk hp, .release hreg.nodup hp rfl he rfl rfl fun q r o h =>
      ((hholds q r o).mp h).1,
      fun h => ((hholds _ _ _).mp h).2 rfl, fun _ => rfl⟩
    simp only [client?_eq ht.clients hm]
    exact unsubscribe_sock hk hp he
  | echo id =>
    obtain ⟨epeer, hm, rfl, -, -⟩ := hready (by simp)
    obtain ⟨hub₁, h₁, ht₁, hs₁⟩ := monSendDebug_spares C "echo peer gone" ht
    obtain ⟨hub₂, h₂, ht₂, hs₂, hechoes, hstats⟩ := echoPeerFini_goes C ht₁ (hs₁.echoPeers ▸ hm)
    refine ⟨hub₂, ?_, ht₂, (hs₁.shrinks fun id => .inr ⟨id, rfl⟩).trans hs₂, ?_, fun _ => hstats.trans hs₁.stats⟩
    · simp only [echoPeerDone, h₁]
      exact h₂
    · rintro ⟨d, hd, hid, -⟩
      rw [hechoes] at hd
      exact ((mem_eraseP ht₁.echoes).mp hd).2 hid
  | stats =>
    obtain ⟨stats, hs, hpeer, -⟩ := hready (by simp)
    have hs : hub.stats = some stats := hs
    refine ⟨_, ?_, ht.tell hs hpeer, .tell _, ?_, fun h => absurd rfl h⟩
    · simp only [hs]
    · rintro ⟨s, hm, hq, -⟩
      cases hm
      cases hq

theorem mem_cbsIds (h : cid ∈ cbsIds pid hub) :
    ∃ peer, hub.peers pid = some peer ∧ ∃ e ∈ peer.cbs, e.id = cid := by
  cases hp : hub.peers pid with
  | none =>
    rw [cbsIds_none hp] at h
    exact absurd h List.not_mem_nil
  | some peer =>
    rw [cbsIds_eq hp] at h
    exact ⟨peer, rfl, List.mem_map.mp h⟩

theorem Shrinks.precedes {e d : Cbs} {peer' : Peer} (ht : Tidy (some pid) hub)
    (hs : Shrinks e.owner.Takes hub hub') (hp : hub.peers pid = some peer)
    (hp' : hub'.peers pid = some peer') (he : e ∈ peer.cbs) (hd : d ∈ peer.cbs)
    (hlost : d ∉ peer'.cbs) (hne : d.id ≠ e.id)
    (hready : e.owner ≠ .tokener → hub.Holds pid e.id e.owner) :
    Precedes pid hub e.id d.id := by
  have htakes := hs.lost pid peer peer' hp hp' d hd hlost
  -- two registrations of one owner that has a pointer are one
  have hsame : d.owner = e.owner → d.owner ≠ .tokener → d.owner ≠ .stats → False := fun hde hto hst =>
    hne (ht.unique (((ht.peers pid peer hp).owned d hd hto).resolve_right fun h => hst h.2)
      (hde ▸ hready (hde ▸ hto))).2
  cases ho : e.owner with
  | tokener | stats =>
    rw [ho] at htakes
    exact htakes.elim
  | client id =>
    rw [ho] at htakes
    have htakes : d.owner = .client id := htakes
    exact (hsame (htakes.trans ho.symm) (by simp [htakes]) (by simp [htakes])).elim
  | echo id =>
    rw [ho] at htakes
    obtain htakes | ⟨c, hc⟩ := htakes
    · exact (hsame (htakes.trans ho.symm) (by simp [htakes]) (by simp [htakes])).elim
    · exact ⟨id, c, (cbsOwner_eq ht hp he).trans (congrArg some ho),
        (cbsOwner_eq ht hp hd).trans (congrArg some hc)⟩

theorem doneCb_shrinking (C : Conditions) (pid : Nat) :
    Shrinking (Tidy (some pid)) (Untold pid) (Unheld pid) (Precedes pid) (cbsIds pid) (doneCb C pid) := by
  intro cid hub ht hm hready
  obtain ⟨peer, hp, e, he, rfl⟩ := mem_cbsIds hm
  have hreg := ht.peers pid peer hp
  have howner := cbsOwner_eq ht hp he
  obtain ⟨hub', hdone, ht', hs, hgone, hstats⟩ := doneCb_goes C ht hp he (hready e.owner howner)
  obtain ⟨peer', hp'⟩ := hs.kept.peer hp
  refine ⟨hub', hdone, ht', hs.cbs pid, fun o h => ?_, fun b hb hne =>
    ⟨fun hlost => ?_, fun hb' hmem o ho hto => ?_, fun h o hh => ?_⟩⟩
  · have heq : (⟨e.id, o⟩ : Cbs) = e := List.inj_on_of_nodup_map hreg.nodup
      (hreg.held e.id o (hs.holds _ _ _ h)) he rfl
    exact hgone (congrArg Cbs.owner heq ▸ h)
  · obtain ⟨p, hq, d, hd, rfl⟩ := mem_cbsIds hb
    cases hp.symm.trans hq
    have hdlost : d ∉ peer'.cbs := fun h => hlost (cbsIds_eq hp' ▸ List.mem_map_of_mem h)
    exact hs.precedes ht hp hp' he hd hdlost hne (hready e.owner howner)
  · obtain ⟨p, hq, d, hd, rfl⟩ := mem_cbsIds hmem
    cases hp'.symm.trans hq
    obtain rfl : d.owner = o := Option.some.inj ((cbsOwner_eq ht' hp' hd).symm.trans ho)
    refine ((ht'.peers pid peer' hp').owned d hd hto).elim id fun hst => ?_
    -- a request for counters is told once
    have hdold : d ∈ peer.cbs := by
      refine ((hs.kept.cbs pid peer peer' hp hp').1 d hd).resolve_right fun hf => ?_
      obtain ⟨q, hq, d', hd', hid⟩ := mem_cbsIds hb
      cases hp.symm.trans hq
      exact absurd (hid ▸ hreg.fresh.2 d' hd') (Nat.not_lt.mpr hf)
    have hholds : hub.Holds pid d.id .stats := hst.2 ▸ hb' d.owner (cbsOwner_eq ht hp hdold) hto
    have hes : e.owner ≠ .stats := fun h => hne (ht.unique hholds (h ▸ hready e.owner howner (by simp [h]))).2
    rw [hst.2]
    simpa only [Hub.Holds, hstats hes] using hholds
  · exact h o (hs.holds pid b o hh)

theorem peerDelCbs_shrinking (pid : Nat) :
    Shrinking (fun hub => Tidy (some pid) hub ∧ ∀ cid, Unheld pid hub cid) (fun _ _ => True)
      (fun _ _ => True) (fun _ _ _ => False)
      (cbsIds pid) (peerDelCbs pid) := by
  rintro cid hub ⟨ht, hunheld⟩ hm -
  obtain ⟨peer, hp, e, he, rfl⟩ := mem_cbsIds hm
  have hreg := ht.peers pid peer hp
  have hholds : ∀ q r o, (hub.setPeer pid
    (some { peer with cbs := peer.cbs.eraseP (·.id = e.id) })).Holds q r o ↔ hub.Holds q r o :=
    holds_congr rfl rfl rfl
  have hids : cbsIds pid (hub.setPeer pid (some { peer with cbs := peer.cbs.eraseP (·.id = e.id) }))
    = (cbsIds pid hub).erase e.id := by
    rw [cbsIds_eq (hub.setPeer_self pid _), cbsIds_eq hp]
    exact map_eraseP peer.cbs Cbs.id e.id
  refine ⟨_, peerDelCbs_eq hp he, ⟨?_, fun cid o h => hunheld cid o ((hholds pid cid o).mp h)⟩,
    hids ▸ List.erase_sublist, trivial,
    fun b hb hne => ⟨fun hlost => hlost ?_, fun _ _ => trivial, fun _ => trivial⟩⟩
  · refine ht.edit { ht.toRolls with } (Nat.le_refl _) rfl (fun q _ => hholds q) ?_
    exact
      { nodup := nodup_eraseP hreg.nodup
        front := .inl rfl
        held := fun r o h => absurd ((hholds pid r o).mp h) (hunheld r o)
        owned := fun d hd ho => (hreg.owned d (List.mem_of_mem_eraseP hd) ho).imp_left
          (hholds pid d.id d.owner).mpr
        debug := fun r id h => absurd ((hholds pid r _).mp h) (hunheld r _)
        fresh := ⟨hreg.fresh.1, fun d hd => hreg.fresh.2 d (List.mem_of_mem_eraseP hd)⟩ }
  · rw [hids]
    exact (List.mem_erase_of_ne hne).mpr hb

end

/-- As a connection is told that it is done, a request that waited for an echo
goes, and what is said of that costs the connection a subscription that was to
be told next. -/
def Cut (C : Conditions) (pid : Nat) (sends : Nat → Sent) (hub : Hub) : Prop :=
  ∃ hub', flush C pid sends 101 hub = .ok hub' ∧ Loses (cbsIds pid) (doneCb C pid) (Precedes pid)
    (cbsIds pid hub').head? hub'

section

variable {hub : Hub} {pid : Nat} {peer : Peer}

theorem unsetFd_spares (C : Conditions) (fd : Nat) (unset : Bool) {leaving : Option Nat}
    (ht : Tidy leaving hub) :
    Spares leaving hub (unsetFd C fd unset hub) := by
  cases unset with
  | true => exact .ok ht
  | false => exact monSenderr_spares C _ ht

theorem peerRemove_ok (C : Conditions) (fd : Nat) (unset : Bool) (ht : Tidy (some pid) hub)
    (hunheld : ∀ cid, Unheld pid hub cid) :
    ∃ hub₁ hub₂, forEachSafe (cbsIds pid) Crash.dangling (peerDelCbs pid) hub = .ok hub₁ ∧
      unsetFd C fd unset hub₁ = .ok hub₂ ∧
      Tidy none (hub₂.setPeer pid none) := by
  have hnodup : (cbsIds pid hub).Nodup := by
    cases hp : hub.peers pid with
    | none => rw [cbsIds_none hp]; exact List.nodup_nil
    | some peer => exact (cbsIds_eq hp).symm ▸ (ht.peers pid peer hp).nodup
  obtain ⟨hl, -⟩ | ⟨-, hub₁, h₁, ⟨ht₁, hunheld₁⟩, -⟩ :=
    forEachSafe_shrinking Crash.dangling (peerDelCbs_shrinking pid) ⟨ht, hunheld⟩ hnodup fun _ _ => trivial
  · obtain ⟨-, -, -, h⟩ := hl.exists_reason
    exact h.elim
  · obtain ⟨hub₂, h₂, ht₂, hs₂⟩ := unsetFd_spares C fd unset ht₁
    have hs₂ : Shrinks (fun _ => True) hub₁ hub₂ := hs₂.shrinks fun _ => trivial
    exact ⟨hub₁, hub₂, h₁, h₂, ht₂.remove fun cid o h => hunheld₁ cid o (hs₂.holds pid cid o h)⟩

theorem peerDestroy_cases (C : Conditions) (sends : Nat → Sent) (unset : Bool)
    (ht : Tidy none hub) (hp : hub.peers pid = some peer) :
    Cut C pid sends hub ∧ peerDestroy C pid sends unset hub = .error .dangling ∨
      ¬ Cut C pid sends hub ∧ ∃ hub', peerDestroy C pid sends unset hub = .ok hub' ∧
        Tidy none hub' ∧ hub'.peers pid = none := by
  obtain ⟨hub₁, h₁, ht₁, hk₁⟩ := flush_goes C sends 101 ht hp
  obtain ⟨peer₁, hp₁⟩ := hk₁.peer hp
  have hreg := ht₁.peers pid peer₁ hp₁
  have hready : ∀ cid ∈ cbsIds pid hub₁, Untold pid hub₁ cid := by
    intro cid hm o ho hto
    obtain ⟨p, hq, e, he, rfl⟩ := mem_cbsIds hm
    cases hp₁.symm.trans hq
    cases (cbsOwner_eq ht₁ hp₁ he).symm.trans ho
    exact (hreg.owned e he hto).resolve_right fun h => by cases h.1
  have hcut : Cut C pid sends hub ↔ Loses (cbsIds pid) (doneCb C pid) (Precedes pid)
    (cbsIds pid hub₁).head? hub₁ := by
    refine ⟨?_, fun h => ⟨hub₁, h₁, h⟩⟩
    rintro ⟨hub', h', hl⟩
    cases h₁.symm.trans h'
    exact hl
  have hnodup : (cbsIds pid hub₁).Nodup := (cbsIds_eq hp₁).symm ▸ hreg.nodup
  rw [hcut]
  refine (forEachSafe_shrinking Crash.dangling (doneCb_shrinking C pid) (ht₁.leave pid) hnodup hready).imp ?_ ?_
  · rintro ⟨hl, herr⟩
    exact ⟨hl, by simp only [peerDestroy, hp, h₁, herr, bind, Except.bind]⟩
  · rintro ⟨hl, hub₂, h₂, ht₂, htold⟩
    refine ⟨hl, ?_⟩
    have hunheld : ∀ cid, Unheld pid hub₂ cid := by
      intro cid o h
      obtain ⟨peer₂, hp₂⟩ := ht₂.there _ _ _ h
      exact htold cid (cbsIds_eq hp₂ ▸ List.mem_map_of_mem ((ht₂.peers pid peer₂ hp₂).held cid o h)) o h
    obtain ⟨hub₃, hub₄, h₃, h₄, ht₄⟩ := peerRemove_ok C peer.fd unset ht₂ hunheld
    refine ⟨hub₄.setPeer pid none, ?_, ht₄, hub₄.setPeer_self pid none⟩
    simp only [peerDestroy, hp, h₁, h₂, h₃, h₄, bind, Except.bind]

end

end Bbdd.Monitor
