import Bbdd.Monitor.Delivery

namespace Bbdd.Monitor

open Lib.Json Lib.SafeLoop

def Goes (leaving : Option Nat) (hub : Hub) (r : Except Crash Hub) : Prop :=
  ∃ hub', r = .ok hub' ∧ Tidy leaving hub' ∧ Kept hub hub'

def Spares (leaving : Option Nat) (hub : Hub) (r : Except Crash Hub) : Prop :=
  ∃ hub', r = .ok hub' ∧ Tidy leaving hub' ∧ Sheds hub hub'

def Action.Sound : Action → Bool
  | .subscribe _ alloc addCbs _ _ => !alloc || addCbs
  | _ => true

section

variable {leaving : Option Nat} {C : Conditions} {hub hub' : Hub} {pid cid : Nat} {peer : Peer}
    {f : Peer → Peer} {msg : Value}

theorem Goes.ok (ht : Tidy leaving hub) : Goes leaving hub (.ok hub) := ⟨hub, rfl, ht, Kept.refl hub⟩

theorem Goes.after {r : Except Crash Hub} (hk : Kept hub hub') (h : Goes leaving hub' r) :
    Goes leaving hub r := by
  obtain ⟨hub₂, h₂, ht₂, hk₂⟩ := h
  exact ⟨hub₂, h₂, ht₂, hk.trans hk₂⟩

theorem Goes.bind {r : Except Crash Hub} {k : Hub → Except Crash Hub} (h : Goes leaving hub r)
    (hk : ∀ hub', Tidy leaving hub' → Kept hub hub' → Goes leaving hub' (k hub')) :
    Goes leaving hub (r >>= k) := by
  obtain ⟨hub₁, rfl, ht₁, hk₁⟩ := h
  exact (hk hub₁ ht₁ hk₁).after hk₁

theorem Spares.ok (ht : Tidy leaving hub) : Spares leaving hub (.ok hub) := ⟨hub, rfl, ht, Sheds.refl hub⟩

theorem Spares.after {r : Except Crash Hub} (hk : Sheds hub hub') (h : Spares leaving hub' r) :
    Spares leaving hub r := by
  obtain ⟨hub₂, h₂, ht₂, hk₂⟩ := h
  exact ⟨hub₂, h₂, ht₂, hk.trans hk₂⟩

theorem Spares.goes {r : Except Crash Hub} (h : Spares leaving hub r) : Goes leaving hub r := by
  obtain ⟨hub', h, ht, hs⟩ := h
  exact ⟨hub', h, ht, hs.kept⟩

/-- Pointers to registrations and registrations of some owners only go. -/
structure Shrinks (gone : Owner → Prop) (hub hub' : Hub) : Prop where
  kept : Kept hub hub'
  holds : ∀ q r o, hub'.Holds q r o → hub.Holds q r o
  cbs : ∀ pid, (cbsIds pid hub').Sublist (cbsIds pid hub)
  lost : ∀ pid peer peer', hub.peers pid = some peer → hub'.peers pid = some peer' →
    ∀ e ∈ peer.cbs, e ∉ peer'.cbs → gone e.owner

theorem Shrinks.trans {gone : Owner → Prop} (h : Shrinks gone hub hub') {hub'' : Hub}
    (h' : Shrinks gone hub' hub'') :
    Shrinks gone hub hub'' where
  kept := h.kept.trans h'.kept
  holds q r o hh := h.holds q r o (h'.holds q r o hh)
  cbs pid := (h'.cbs pid).trans (h.cbs pid)
  lost pid peer peer'' hp hp'' e he hne := by
    obtain ⟨peer', hp'⟩ := h.kept.peer hp
    by_cases he' : e ∈ peer'.cbs
    · exact h'.lost pid peer' peer'' hp' hp'' e he' hne
    · exact h.lost pid peer peer' hp hp' e he he'

theorem cbsIds_eq (hp : hub.peers pid = some peer) : cbsIds pid hub = peer.cbs.map Cbs.id := by
  rw [cbsIds, hp]
  rfl

theorem cbsIds_none (hp : hub.peers pid = none) : cbsIds pid hub = [] := by
  rw [cbsIds, hp]
  rfl

theorem Sheds.shrinks (h : Sheds hub hub') {gone : Owner → Prop} (hg : ∀ id, gone (.client id)) :
    Shrinks gone hub hub' where
  kept := h.kept
  holds q r o hh := by
    cases o with
    | tokener => exact hh
    | client id => exact hh.imp fun cli hc => ⟨h.clients.subset hc.1, hc.2⟩
    | echo id => simpa only [Hub.Holds, h.echoPeers] using hh
    | stats => simpa only [Hub.Holds, h.stats] using hh
  cbs pid := by
    cases hp : hub.peers pid with
    | none =>
      rw [cbsIds_none hp, cbsIds_none (h.absent pid hp)]
    | some peer =>
      obtain ⟨peer', hp', hsub, -⟩ := h.peers pid peer hp
      rw [cbsIds_eq hp, cbsIds_eq hp']
      exact hsub.map Cbs.id
  lost pid peer peer' hp hp' e he hne := by
    obtain ⟨p, hq, -, hlost, -⟩ := h.peers pid peer hp
    cases hq.symm.trans hp'
    obtain ⟨id, ho⟩ := hlost e he hne
    exact ho ▸ hg id

theorem Kept.release (hp : hub.peers pid = some peer) (hf : hub'.fresh = hub.fresh)
    (hp' : hub'.peers = Function.update hub.peers pid
      (some { peer with cbs := peer.cbs.eraseP (·.id = cid) })) : Kept hub hub' :=
  .update hp hp' hf.ge (fun _ he => .inl (List.mem_of_mem_eraseP he)) id

theorem Shrinks.release {gone : Owner → Prop} (hn : (peer.cbs.map Cbs.id).Nodup)
    (hp : hub.peers pid = some peer) (hf : hub'.fresh = hub.fresh)
    {owner : Owner} (he : ⟨cid, owner⟩ ∈ peer.cbs) (hg : gone owner)
    (hp' : hub'.peers = Function.update hub.peers pid (some { peer with cbs := peer.cbs.eraseP (·.id = cid) }))
    (hh : ∀ q r o, hub'.Holds q r o → hub.Holds q r o) : Shrinks gone hub hub' where
  kept := .release hp hf hp'
  holds := hh
  cbs q := by
    by_cases h : q = pid
    · subst h
      rw [cbsIds_eq hp, cbsIds_eq ((congrFun hp' q).trans (Function.update_self q _ _))]
      exact List.eraseP_sublist.map Cbs.id
    · have hq : hub'.peers q = hub.peers q := (congrFun hp' q).trans (Function.update_of_ne h _ _)
      rw [cbsIds, cbsIds, hq]
  lost q p p' hq hq' e hm hne := by
    by_cases h : q = pid
    · subst h
      rw [hp', Function.update_self] at hq'
      cases hp.symm.trans hq
      cases hq'
      have hid : e.id = cid := by
        by_contra hid
        exact hne ((mem_eraseP hn).mpr ⟨hm, hid⟩)
      rw [List.inj_on_of_nodup_map hn hm he hid]
      exact hg
    · rw [hp', Function.update_of_ne h] at hq'
      cases hq.symm.trans hq'
      exact absurd hm hne

theorem Sheds.setPeer {peer' : Peer} (hp : hub.peers pid = some peer) (hc : peer'.cbs = peer.cbs)
    (hd : peer'.debug = peer.debug) :
    Sheds hub (hub.setPeer pid (some peer')) := by
  refine ⟨rfl, rfl, rfl, .refl _, fun q hq => ?_, fun q p hq => ?_⟩
  · have h : q ≠ pid := by rintro rfl; cases hq.symm.trans hp
    exact (hub.setPeer_of_ne _ h).trans hq
  · by_cases h : q = pid
    · subst h
      cases hp.symm.trans hq
      exact ⟨peer', hub.setPeer_self q _, hc ▸ .refl _, fun _ he hne => absurd (hc ▸ he) hne, hd⟩
    · exact ⟨p, (hub.setPeer_of_ne _ h).trans hq, .refl _, fun _ he hne => absurd he hne, rfl⟩

theorem monSend_spares (C : Conditions) (topic : Topic) (method : String) (params : Value)
    (ht : Tidy leaving hub) :
    Spares leaving hub (monSend C topic method params hub) := by
  obtain ⟨hub', h, ht', hk, -⟩ := monSend_delivers C topic method params ht
  exact ⟨hub', h, ht', hk⟩

theorem monSendActive_spares (C : Conditions) (topic : Topic) (method : String) (params : Value)
    (ht : Tidy leaving hub) :
    Spares leaving hub (monSendActive C topic method params hub) := by
  rw [monSendActive_eq C topic method params ht]
  exact monSend_spares C topic method params ht

theorem monSendDebug_spares (C : Conditions) (text : String) (ht : Tidy leaving hub) :
    Spares leaving hub (monSendDebug C text hub) :=
  monSendActive_spares C .debug _ _ ht

theorem monSenderr_spares (C : Conditions) (text : String) (ht : Tidy leaving hub) :
    Spares leaving hub (monSenderr C text hub) :=
  monSendActive_spares C .error _ _ ht

theorem bfddMonSendO_spares (C : Conditions) (out : Except String (String × Value))
    (ht : Tidy leaving hub) :
    Spares leaving hub (bfddMonSendO C out hub) := by
  unfold bfddMonSendO
  split_ifs
  · exact .ok ht
  · cases out with
    | ok msg => exact monSend_spares C .bfddo msg.1 msg.2 ht
    | error text => exact monSenderr_spares C text ht

theorem onPeer_eq (hp : hub.peers pid = some peer) :
    onPeer pid f hub = hub.setPeer pid (some (f peer)) := by rw [onPeer, hp, Option.map_some]

theorem onPeer_spares (ht : Tidy leaving hub) (hp : hub.peers pid = some peer)
    (hcbs : (f peer).cbs = peer.cbs) (hd : (f peer).debug = peer.debug) :
    Tidy leaving (onPeer pid f hub) ∧ Sheds hub (onPeer pid f hub) := by
  rw [onPeer_eq hp]
  exact ⟨ht.setPeer hp hcbs fun h => hd.trans h, .setPeer hp hcbs hd⟩

theorem peerNq_spares (C : Conditions) (msg : Value) (ht : Tidy leaving hub)
    (hp : hub.peers pid = some peer) :
    ∃ b hub', peerNq C pid msg hub = .ok (b, hub') ∧ Tidy leaving hub' ∧ Sheds hub hub' := by
  simp only [peerNq, hp]
  cases C.pollSet pid with
  | false => exact ⟨false, hub, rfl, ht, .refl hub⟩
  | true =>
    cases peer.tx.pushLen C.realloc C.strerror (C.serialize msg) with
    | error e => exact ⟨false, hub, rfl, ht, .refl hub⟩
    | ok tx => exact ⟨true, _, rfl, ht.setPeer hp rfl id, .setPeer hp rfl rfl⟩

theorem jrpcSendKeep_spares (C : Conditions) (msg : Value) (report : Option String)
    (ht : Tidy leaving hub) (hp : hub.peers pid = some peer) :
    Spares leaving hub (jrpcSendKeep C pid msg report hub) := by
  obtain ⟨b, hub', h, ht', hk⟩ := peerNq_spares C msg ht hp
  rw [jrpcSendKeep, h]
  refine Spares.after hk ?_
  cases b <;> cases report
  · exact .ok ht'
  · exact monSenderr_spares C _ ht'
  · exact .ok ht'
  · exact .ok ht'

theorem jrpcSendDone_spares (C : Conditions) (msg : Value) (report : Option String)
    (ht : Tidy leaving hub) (hp : hub.peers pid = some peer) :
    Spares leaving hub (jrpcSendDone C pid msg report hub) := by
  obtain ⟨ht', hk⟩ := onPeer_spares (f := fun peer => { peer with done := true }) ht hp rfl rfl
  obtain ⟨peer', hp'⟩ := hk.kept.peer hp
  exact (jrpcSendKeep_spares C msg report ht' hp').after hk

theorem peerAddCbs_eq {h : Hub} (hp : h.peers pid = some peer) (cid : Nat) (owner : Owner) :
    peerAddCbs pid cid owner h = .ok (h.setPeer pid (some { peer with cbs := peer.cbs ++ [⟨cid, owner⟩] })) := by
  simp only [peerAddCbs, hp]

theorem Kept.append (hp : hub.peers pid = some peer) {owner : Owner} {debug : Bool}
    (hf : hub.fresh ≤ cid) (hf' : hub.fresh ≤ hub'.fresh)
    (hd : peer.debug = false → debug = false)
    (hp' : hub'.peers = Function.update hub.peers pid
      (some { peer with cbs := peer.cbs ++ [⟨cid, owner⟩], debug := debug })) :
    Kept hub hub' := by
  refine Kept.update hp hp' hf' (fun e he => ?_) hd
  obtain he | rfl := List.mem_append.mp he |>.imp_right List.mem_singleton.mp
  · exact .inl he
  · exact .inr hf

theorem Tidy.addCbs (ht : Tidy leaving hub) (hp : hub.peers pid = some peer) {mid : Hub}
    {owner : Owner} (hr : Rolls mid) (hpeers : mid.peers = hub.peers) (hf : hub.fresh ≤ cid)
    (hf' : cid < mid.fresh) (hto : owner ≠ .tokener) (hcli : ∀ id, owner ≠ .client id)
    (hholds : ∀ q r o, mid.Holds q r o ↔ hub.Holds q r o ∨ q = pid ∧ r = cid ∧ o = owner) :
    ∃ hub', peerAddCbs pid cid owner mid = .ok hub' ∧ Tidy leaving hub' ∧ Kept hub hub' ∧
      hub'.echoPeers = mid.echoPeers ∧
      hub'.stats = mid.stats := by
  have hp' : (mid.setPeer pid (some { peer with cbs := peer.cbs ++ [⟨cid, owner⟩] })).peers =
      Function.update hub.peers pid
        (some { peer with cbs := peer.cbs ++ [⟨cid, owner⟩], debug := peer.debug }) := by
    rw [← hpeers]
    rfl
  refine ⟨_, peerAddCbs_eq (hpeers ▸ hp) cid owner, ht.register hp { hr with } hf hf' hto id
    (fun id h => absurd h (hcli id)) hp' ?_,
    .append hp hf (hf.trans hf'.le) id hp', rfl, rfl⟩
  exact fun q r o => (holds_congr rfl rfl rfl q r o).trans (hholds q r o)

def Hub.subscribed (hub : Hub) (pid : Nat) (peer : Peer) (topics : Topics) : Hub :=
  { allocClient ⟨hub.fresh, topics, .sock pid (hub.fresh + 1)⟩ hub with
    fresh := hub.fresh + 2
    peers := Function.update hub.peers pid
      (some { peer with cbs := peer.cbs ++ [⟨hub.fresh + 1, .client hub.fresh⟩], debug := false }) }

theorem Tidy.subscribed (ht : Tidy leaving hub) (hp : hub.peers pid = some peer) (topics : Topics) :
    Tidy leaving (hub.subscribed pid peer topics) ∧ Kept hub (hub.subscribed pid peer topics) := by
  have hr : Rolls (hub.subscribed pid peer topics) :=
    { ht.toRolls.alloc ⟨hub.fresh, topics, .sock pid (hub.fresh + 1)⟩ rfl
      (by simp) (Nat.lt_add_of_pos_right Nat.two_pos) with }
  have hne : Owner.client hub.fresh ≠ .tokener := by simp
  refine ⟨ht.register hp hr (Nat.le_succ _) (Nat.lt_succ_self _) hne (fun _ => rfl) (fun _ _ => rfl)
    rfl fun q r o => ?_,
    Kept.append hp (Nat.le_succ _) (Nat.le_add_right _ _) (fun _ => rfl) rfl⟩
  refine (holds_congr rfl rfl rfl q r o).trans
    ((holds_alloc _ (hub.fresh + 2) q r o).trans (or_congr_right ⟨?_, ?_⟩))
  · rintro ⟨rfl, hk⟩
    cases hk
    exact ⟨rfl, rfl, rfl⟩
  · rintro ⟨rfl, rfl, rfl⟩
    exact ⟨rfl, rfl⟩

theorem subscribed_eq (hp : hub.peers pid = some peer) (topics : Topics) :
    ∃ subscribed, subscribeSock true true pid topics hub = .ok (true, subscribed) ∧
      disableDebug pid subscribed = hub.subscribed pid peer topics := by
  have hadd := peerAddCbs_eq (h := allocClient ⟨hub.fresh, topics, .sock pid (hub.fresh + 1)⟩
    { hub with fresh := hub.fresh + 2 })
    hp (hub.fresh + 1) (.client hub.fresh)
  have hsub := congrArg (Except.map (true, ·)) hadd
  refine ⟨_, hsub, ?_⟩
  simp only [disableDebug, onPeer, Hub.setPeer, Function.update_self, Option.map_some,
    Function.update_idem, allocClient, Hub.subscribed]

theorem handleSubscribe_goes (C : Conditions) (topics : Topics) {alloc addCbs : Bool}
    (granted refused : Value) (ht : Tidy leaving hub) (hp : hub.peers pid = some peer)
    (hs : (!alloc || addCbs) = true) :
    Goes leaving hub (handleSubscribe C pid topics alloc addCbs granted refused hub) := by
  cases alloc with
  | false => exact (jrpcSendDone_spares C refused none ht hp).goes
  | true =>
    obtain rfl : addCbs = true := by simpa using hs
    obtain ⟨subscribed, h, hd⟩ := subscribed_eq hp topics
    have hrest : handleSubscribe C pid topics true true granted refused hub =
        jrpcSendKeep C pid granted none (disableDebug pid subscribed) := by
      rw [handleSubscribe, h]
      rfl
    rw [hrest, hd]
    obtain ⟨htidy, hkept⟩ := ht.subscribed hp topics
    obtain ⟨peer', hp'⟩ := hkept.peer hp
    exact (jrpcSendKeep_spares C granted none htidy hp').goes.after hkept

theorem handleSubscribe_null (C : Conditions) (pid : Nat) (topics : Topics)
    (granted refused : Value) (hub : Hub) :
    handleSubscribe C pid topics true false granted refused hub = .error .null := rfl

theorem echoPeer?_eq (hn : hub.echoIds.Nodup) {epeer : EchoPeer} (hm : epeer ∈ hub.echoPeers) :
    hub.echoPeer? epeer.id = some epeer := by
  cases h : hub.echoPeer? epeer.id with
  | none => exact absurd (List.find?_eq_none.mp h epeer hm) (by simp)
  | some d =>
    unfold Hub.echoPeer? at h
    have hd : d.id = epeer.id := by simpa using List.find?_some h
    rw [List.inj_on_of_nodup_map hn (List.mem_of_find?_eq_some h) hm hd]

theorem echoPeerFini_goes (C : Conditions) (ht : Tidy leaving hub) {epeer : EchoPeer}
    (hm : epeer ∈ hub.echoPeers) :
    ∃ hub', echoPeerFini C epeer.id hub = .ok hub' ∧ Tidy leaving hub' ∧
      Shrinks (fun o => o = .echo epeer.id ∨ ∃ c, o = .client c) hub hub' ∧
        hub'.echoPeers = hub.echoPeers.eraseP (·.id = epeer.id) ∧ hub'.stats = hub.stats := by
  obtain ⟨hub₁, h₁, ht₁, hs₁⟩ := monSendDebug_spares C "echo peer fini" ht
  have hm₁ : epeer ∈ hub₁.echoPeers := hs₁.echoPeers ▸ hm
  have hh : hub₁.Holds epeer.peer epeer.cbs (.echo epeer.id) := ⟨epeer, hm₁, rfl, rfl, rfl⟩
  obtain ⟨peer₁, hp₁⟩ := ht₁.there _ _ _ hh
  have hreg := ht₁.peers _ _ hp₁
  have he := hreg.held _ _ hh
  have hr : Rolls ({ hub₁ with echoPeers := hub₁.echoPeers.eraseP (·.id = epeer.id) }.setPeer epeer.peer
      (some { peer₁ with cbs := peer₁.cbs.eraseP (·.id = epeer.cbs) })) :=
        { ht₁.toRolls.eraseEcho epeer.id with }
  have hholds : ∀ q r o, ({ hub₁ with echoPeers := hub₁.echoPeers.eraseP (·.id = epeer.id) }.setPeer epeer.peer
      (some { peer₁ with cbs := peer₁.cbs.eraseP (·.id = epeer.cbs) })).Holds q r o ↔
        hub₁.Holds q r o ∧ o ≠ .echo epeer.id :=
    fun q r o => (holds_congr rfl rfl rfl q r o).trans (holds_eraseEcho ht₁.toRolls epeer.id q r o)
  refine ⟨_, ?_, ht₁.release hp₁ hh hr rfl rfl hholds, ?_, congrArg (List.eraseP _) hs₁.echoPeers, hs₁.stats⟩
  · simp only [echoPeerFini, echoPeer?_eq ht.echoes hm, h₁]
    exact peerDelCbs_eq hp₁ he
  · exact (hs₁.shrinks fun id => .inr ⟨id, rfl⟩).trans
      (.release hreg.nodup hp₁ rfl he (.inl rfl) rfl fun q r o h => ((hholds q r o).mp h).1)

theorem echoPeerFini_local (C : Conditions) : Local (Tidy leaving) Hub.echoIds (echoPeerFini C) := by
  intro id hub hub' ht hm h
  obtain ⟨epeer, he, rfl⟩ := List.mem_map.mp hm
  obtain ⟨hub'', hfini, ht', -, hechoes, -⟩ := echoPeerFini_goes C ht he
  cases hfini.symm.trans h
  refine ⟨ht', .inr ?_⟩
  rw [Hub.echoIds, hechoes]
  exact map_eraseP hub.echoPeers EchoPeer.id epeer.id

theorem echoPeersFree_goes (C : Conditions) (ht : Tidy leaving hub) :
    Goes leaving hub (echoPeersFree C hub) := by
  rw [echoPeersFree, forEachSafe_eq (echoPeerFini_local C) ht ht.echoes]
  have hfold : ∀ (l : List EchoPeer) (hub : Hub), Tidy leaving hub → hub.echoPeers = l →
      Goes leaving hub ((l.map EchoPeer.id).foldlM (fun hub id => echoPeerFini C id hub) hub) := by
    intro l
    induction l with
    | nil => exact fun hub ht _ => .ok ht
    | cons epeer l ih =>
      intro hub ht hl
      obtain ⟨hub', hfini, ht', hs, hechoes, -⟩ := echoPeerFini_goes C ht
        (hl ▸ List.mem_cons_self : epeer ∈ hub.echoPeers)
      rw [hl, List.eraseP_cons_of_pos (by simp)] at hechoes
      rw [List.map_cons, List.foldlM_cons, hfini]
      exact (ih hub' ht' hechoes).after hs.kept
  exact hfold hub.echoPeers hub ht rfl

theorem answers_spare (C : Conditions) (answer : Value → Value) (report : Option String)
    {l : List EchoPeer} (ht : Tidy leaving hub) (hl : ∀ epeer ∈ l, epeer ∈ hub.echoPeers) :
    Spares leaving hub (l.foldlM
      (fun hub epeer => jrpcSendDone C epeer.peer (answer epeer.request) report hub) hub) := by
  induction l generalizing hub with
  | nil => exact .ok ht
  | cons epeer l ih =>
    obtain ⟨peer, hp⟩ := ht.there _ _ (.echo epeer.id) ⟨epeer, hl epeer List.mem_cons_self, rfl, rfl, rfl⟩
    obtain ⟨hub', h, ht', hs⟩ := jrpcSendDone_spares C (answer epeer.request) report ht hp
    rw [List.foldlM_cons, h]
    exact (ih ht' fun e he => hs.echoPeers ▸ hl e (List.mem_cons_of_mem epeer he)).after hs

theorem echoPeersEnd_goes (C : Conditions) (answer : Value → Value) (report : Option String)
    (ht : Tidy leaving hub) :
    Goes leaving hub (echoPeersEnd C answer report hub) :=
  (answers_spare C answer report ht fun _ h => h).goes.bind fun _ ht' _ => echoPeersFree_goes C ht'

theorem echoPeerInit_goes (C : Conditions) (alloc addCbs : Bool) (request : Value)
    (ht : Tidy leaving hub) (hp : hub.peers pid = some peer) :
    ∃ started hub', echoPeerInit C alloc addCbs pid request hub = .ok (started, hub') ∧
      Tidy leaving hub' ∧ Kept hub hub' ∧
      ∀ id ∈ started, ∃ epeer ∈ hub'.echoPeers, epeer.id = id := by
  obtain ⟨hub₁, h₁, ht₁, hs₁⟩ := monSendDebug_spares C "echo peer init" ht
  obtain ⟨peer₁, hp₁⟩ := hs₁.kept.peer hp
  rw [echoPeerInit, h₁]
  cases hmem : !alloc || !addCbs with
  | true =>
    refine ⟨none, hub₁, ?_, ht₁, hs₁.kept, fun _ h => by cases h⟩
    simp only [bind, Except.bind, if_true]
  | false =>
    have hlt : hub₁.fresh < hub₁.fresh + 2 := Nat.lt_add_of_pos_right Nat.two_pos
    obtain ⟨hub₂, h₂, ht₂, hk₂, hechoes, -⟩ := ht₁.addCbs hp₁ 
      (ht₁.toRolls.addEcho ⟨hub₁.fresh, pid, hub₁.fresh + 1, request⟩ rfl hlt) rfl (Nat.le_succ _)
        (Nat.lt_succ_self _) (by simp) (by simp)
      (holds_addEcho _ _)
    refine ⟨some hub₁.fresh, hub₂, ?_, ht₂, hs₁.kept.trans hk₂, fun id hid => ?_⟩
    · simp only [bind, Except.bind, Bool.false_eq_true, if_false, h₂]
      rfl
    · cases hid
      rw [hechoes]
      exact ⟨_, List.mem_append_right _ (List.mem_singleton_self _), rfl⟩

theorem echoHandleStart_goes (C : Conditions) (alloc addCbs sent : Bool) (request refused : Value)
    (out : Except String (String × Value)) (ht : Tidy leaving hub)
    (hp : hub.peers pid = some peer) :
    Goes leaving hub (echoHandleStart C pid alloc addCbs sent request refused out hub) := by
  obtain ⟨started, hub₁, h₁, ht₁, hk₁, hid⟩ := echoPeerInit_goes C alloc addCbs request ht hp
  obtain ⟨peer₁, hp₁⟩ := hk₁.peer hp
  rw [echoHandleStart, h₁]
  refine Goes.after hk₁ ?_
  cases started with
  | none => exact (jrpcSendDone_spares C refused none ht₁ hp₁).goes
  | some id =>
    cases sent with
    | true => exact (bfddMonSendO_spares C out ht₁).goes
    | false =>
      obtain ⟨epeer, he, rfl⟩ := hid id rfl
      obtain ⟨hub₂, h₂, ht₂, hs₂, -⟩ := echoPeerFini_goes C ht₁ he
      have hfini : Goes leaving hub₁ (echoPeerFini C epeer.id hub₁) := ⟨hub₂, h₂, ht₂, hs₂.kept⟩
      refine hfini.bind fun hub₃ ht₃ hk₃ => ?_
      obtain ⟨peer₃, hp₃⟩ := hk₃.peer hp₁
      exact (jrpcSendDone_spares C refused none ht₃ hp₃).goes

theorem Rolls.setStats (hr : Rolls hub) (stats : Option Stats) {fresh : Nat} (hf : hub.fresh ≤ fresh) :
    Rolls { hub with stats := stats, fresh := fresh } where
  clients := hr.clients
  echoes := hr.echoes
  active := hr.active
  kinds := hr.kinds
  cliFresh c hc := (hr.cliFresh c hc).trans_le hf
  echoFresh e he := (hr.echoFresh e he).trans_le hf

theorem holds_setStats (stats : Option Stats) (fresh q r : Nat) (o : Owner) :
    ({ hub with stats := stats, fresh := fresh } : Hub).Holds q r o ↔
    hub.Holds q r o ∧ o ≠ .stats ∨ o = .stats ∧ ∃ s ∈ stats, s.peer = some q ∧ s.cbs = r := by
  cases o <;> simp [Hub.Holds]

theorem statsFree_goes {stats : Stats} (ht : Tidy none hub) (hs : hub.stats = some stats) :
    Goes none hub (statsFree stats hub) := by
  have hr := ht.toRolls.setStats none (Nat.le_refl _)
  have hholds : ∀ q r o, ({ hub with stats := none } : Hub).Holds q r o ↔ hub.Holds q r o ∧
    o ≠ .stats := fun q r o =>
    (holds_setStats none hub.fresh q r o).trans (or_iff_left fun h => by simpa using h.2)
  cases hpeer : stats.peer with
  | none =>
    have hnone : ∀ q r o, ({ hub with stats := none } : Hub).Holds q r o ↔ hub.Holds q r o := by
      intro q r o
      refine (hholds q r o).trans (and_iff_left_of_imp ?_)
      rintro hh rfl
      obtain ⟨s, hmem, hq, -⟩ := hh
      cases hs.symm.trans hmem
      cases hpeer.symm.trans hq
    refine ⟨{ hub with stats := none }, by rw [statsFree, hpeer]; rfl, ?_, { Kept.refl hub with }⟩
    exact
      { hr with
        peers := fun q p hq => (ht.peers q p hq).congr (Nat.le_refl _) (hnone q)
        there := fun q r o h => ht.there q r o ((hnone q r o).mp h) }
  | some pid =>
    have hh : hub.Holds pid stats.cbs .stats := ⟨stats, hs, hpeer, rfl⟩
    obtain ⟨peer, hp⟩ := ht.there _ _ _ hh
    have hdel := peerDelCbs_eq hp ((ht.peers _ _ hp).held _ _ hh)
    refine ⟨{ hub with stats := none }.setPeer pid
      (some { peer with cbs := peer.cbs.eraseP (·.id = stats.cbs) }), ?_,
      ht.release hp hh { hr with } rfl rfl fun q r o => (holds_congr rfl rfl rfl q r o).trans
        (hholds q r o), .release hp rfl rfl⟩
    simp only [statsFree, hpeer, hdel]
    rfl

theorem peerAddCbs_stats (request : Value) (ht : Tidy none hub) (hs : hub.stats = none)
    (hp : hub.peers pid = some peer) :
    ∃ hub', peerAddCbs pid hub.fresh .stats
      { hub with stats := some ⟨some pid, hub.fresh, request⟩, fresh := hub.fresh + 1 } = .ok hub' ∧
      Tidy none hub' ∧ Kept hub hub' ∧ hub'.stats = some ⟨some pid, hub.fresh, request⟩ := by
  have hholds : ∀ q r o, ({ hub with stats := some ⟨some pid, hub.fresh, request⟩, fresh :=
    hub.fresh + 1 } : Hub).Holds q r o ↔
      hub.Holds q r o ∨ q = pid ∧ r = hub.fresh ∧ o = .stats := by
    intro q r o
    refine (holds_setStats _ (hub.fresh + 1) q r o).trans ?_
    cases o <;> simp [Hub.Holds, hs, eq_comm]
  obtain ⟨hub', h, ht', hk, -, hstats⟩ :=
    ht.addCbs hp (ht.toRolls.setStats (some ⟨some pid, hub.fresh, request⟩) (Nat.le_succ hub.fresh))
    rfl (Nat.le_refl _) (Nat.lt_succ_self _) (by simp) (by simp) hholds
  exact ⟨hub', h, ht', hk, hstats⟩

theorem handleSessionStats_goes (C : Conditions) (alloc addCbs sent : Bool)
    (request pending refused : Value) (out : Except String (String × Value)) (ht : Tidy none hub)
    (hp : hub.peers pid = some peer) :
    Goes none hub (handleSessionStats C pid alloc addCbs sent request pending refused out hub) := by
  unfold handleSessionStats
  cases hs : hub.stats with
  | some stats => exact (jrpcSendDone_spares C pending none ht hp).goes
  | none =>
    cases hmem : !alloc || !addCbs with
    | true => exact (jrpcSendDone_spares C refused none ht hp).goes
    | false =>
      obtain ⟨hub₁, h₁, ht₁, hk₁, hs₁⟩ := peerAddCbs_stats request ht hs hp
      simp only [Bool.false_eq_true, if_false, h₁, bind, Except.bind]
      refine Goes.after hk₁ ?_
      cases sent with
      | true => exact (bfddMonSendO_spares C out ht₁).goes
      | false =>
        refine (statsFree_goes ht₁ hs₁).bind fun hub₂ ht₂ hk₂ => ?_
        obtain ⟨peer₂, hp₂⟩ := (hk₁.trans hk₂).peer hp
        exact (jrpcSendDone_spares C refused none ht₂ hp₂).goes

theorem statsClose_goes (C : Conditions) (answer : Value → Value) (ht : Tidy none hub) :
    Goes none hub (statsClose C answer hub) := by
  unfold statsClose
  cases hs : hub.stats with
  | none => exact .ok ht
  | some stats =>
    cases hpeer : stats.peer with
    | none =>
      simp only [hpeer]
      exact statsFree_goes ht hs
    | some pid =>
      obtain ⟨peer, hp⟩ := ht.there pid stats.cbs .stats ⟨stats, hs, hpeer, rfl⟩
      obtain ⟨hub₁, h₁, ht₁, hs₁⟩ := jrpcSendDone_spares C (answer stats.request) none ht hp
      simp only [hpeer, h₁]
      exact (statsFree_goes ht₁ (hs₁.stats.trans hs)).after hs₁.kept

theorem runAction_goes (C : Conditions) (action : Action) (ht : Tidy none hub)
    (hp : hub.peers pid = some peer) :
    Goes none hub (runAction C pid hub action) ∨ runAction C pid hub action = .error .null ∧
      action.Sound = false := by
  cases action with
  | publish topic method params => exact .inl (monSendActive_spares C topic method params ht).goes
  | respond msg report => exact .inl (jrpcSendDone_spares C msg report ht hp).goes
  | subscribe topics alloc addCbs granted refused =>
    cases hs : !alloc || addCbs with
    | false =>
      obtain ⟨rfl, rfl⟩ : alloc = true ∧ addCbs = false := by simpa using hs
      exact .inr ⟨handleSubscribe_null C pid topics granted refused hub, rfl⟩
    | true => exact .inl (handleSubscribe_goes C topics granted refused ht hp hs)
  | echo alloc addCbs sent request refused out =>
    exact .inl (echoHandleStart_goes C alloc addCbs sent request refused out ht hp)
  | stats alloc addCbs sent request pending refused out =>
    exact .inl (handleSessionStats_goes C alloc addCbs sent request pending refused out ht hp)
  | disconnect answer => exact .inl (echoPeersEnd_goes C answer none ht)

theorem runActions_goes (C : Conditions) (actions : List Action) (ht : Tidy none hub)
    (hp : hub.peers pid = some peer) :
    Goes none hub (runActions C pid actions hub) ∨ runActions C pid actions hub = .error .null ∧
      ∃ a ∈ actions, a.Sound = false := by
  induction actions generalizing hub peer with
  | nil => exact .inl (.ok ht)
  | cons a actions ih =>
    simp only [runActions, List.foldlM_cons] at ih ⊢
    obtain ⟨hub₁, h₁, ht₁, hk₁⟩ | ⟨h₁, hs⟩ := runAction_goes C a ht hp
    · obtain ⟨peer₁, hp₁⟩ := hk₁.peer hp
      rw [h₁]
      exact (ih ht₁ hp₁).imp (Goes.after hk₁) fun h =>
        ⟨h.1, h.2.imp fun b hb => ⟨List.mem_cons_of_mem _ hb.1, hb.2⟩⟩
    · exact .inr ⟨by rw [h₁]; rfl, a, List.mem_cons_self, hs⟩

theorem runActions_append (C : Conditions) (pid : Nat) (l₁ l₂ : List Action) (hub : Hub) :
    runActions C pid (l₁ ++ l₂) hub = runActions C pid l₁ hub >>= runActions C pid l₂ := List.foldlM_append

theorem runActions_tidy {actions : List Action} (ht : Tidy none hub) (hp : hub.peers pid = some peer)
    (h : runActions C pid actions hub = .ok hub') : Tidy none hub' ∧ Kept hub hub' := by
  obtain ⟨hub'', h', ht', hk⟩ | ⟨h', -⟩ := runActions_goes C actions ht hp
  · cases h.symm.trans h'
    exact ⟨ht', hk⟩
  · cases h.symm.trans h'

end

end Bbdd.Monitor
