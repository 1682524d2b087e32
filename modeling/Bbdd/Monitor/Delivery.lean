import Bbdd.Monitor.Tidy

namespace Bbdd.Monitor

open Lib.Json Lib.SafeLoop Buffer

def Cli.on (pid : Nat) (cli : Cli) : Bool :=
  match cli.kind with
  | .sock q _ => q = pid
  | _ => false

def Cli.wants (topic : Topic) (pid : Nat) (cli : Cli) : Bool := cli.topics topic && cli.on pid

theorem Cli.sock_of_wants {topic : Topic} {pid : Nat} {cli : Cli} (h : cli.wants topic pid = true) :
    ∃ cid, cli.kind = .sock pid cid := by
  cases hk : cli.kind with
  | sock q cid =>
    obtain rfl : q = pid := by simpa [Cli.wants, Cli.on, hk] using (Bool.and_eq_true_iff.mp h).2
    exact ⟨cid, rfl⟩
  | cb | blank => simp [Cli.wants, Cli.on, hk] at h

def Cli.hears (topic : Topic) (cli : Cli) : Bool := cli.topics topic && cli.kind = .cb

def Hub.queued (hub : Hub) (pid : Nat) : List Value := ((hub.peers pid).map Peer.queued).getD []

def Refuses (C : Conditions) (msg : Value) (pid : Nat) (peer : Peer) : Prop :=
  C.pollSet pid = false ∨ ∃ e, peer.tx.pushLen C.realloc C.strerror (C.serialize msg) = .error e

/-- What a connection makes of a message that each of some clients of its gets in
turn, and the clients that remain: one for which there is no room any more is
unsubscribed. -/
def serve (C : Conditions) (msg : Value) (pid : Nat) : Peer → List Cli → Peer × List Cli
  | peer, [] => (peer, [])
  | peer, cli :: subs =>
    match C.pollSet pid, peer.tx.pushLen C.realloc C.strerror (C.serialize msg) with
    | true, .ok tx =>
      let rest := serve C msg pid { peer with tx, queued := peer.queued ++ [msg] } subs
      (rest.1, cli :: rest.2)
    | _, _ => serve C msg pid { peer with cbs := peer.cbs.eraseP (·.owner = .client cli.id) } subs

/-- Some clients were sent a message. Every connection has served its own, and
those that remain have got it. -/
structure Delivered (C : Conditions) (topic : Topic) (msg : Value) (hub hub' : Hub)
    (clients clients' : List Cli) : Prop where
  sublist : clients'.Sublist clients
  others : ∀ c ∈ clients, c.topics topic = false ∨ c.kind = .cb → c ∈ clients'
  served : ∀ pid peer, hub.peers pid = some peer → ∃ peer', hub'.peers pid = some peer' ∧
    serve C msg pid peer (clients.filter (Cli.wants topic pid)) = (peer', clients'.filter (Cli.wants topic pid))
  absent : ∀ pid, hub.peers pid = none → hub'.peers pid = none
  printed : hub'.printed = hub.printed ++ List.replicate (clients'.countP (Cli.hears topic)) msg
  waiting : hub'.echoPeers = hub.echoPeers ∧ hub'.stats = hub.stats

/-- Nothing but subscriptions was lost. -/
structure Sheds (hub hub' : Hub) : Prop where
  fresh : hub'.fresh = hub.fresh
  echoPeers : hub'.echoPeers = hub.echoPeers
  stats : hub'.stats = hub.stats
  clients : hub'.clients.Sublist hub.clients
  absent : ∀ pid, hub.peers pid = none → hub'.peers pid = none
  peers : ∀ pid peer, hub.peers pid = some peer → ∃ peer', hub'.peers pid = some peer' ∧
    peer'.cbs.Sublist peer.cbs ∧
    (∀ e ∈ peer.cbs, e ∉ peer'.cbs → ∃ id, e.owner = .client id) ∧ peer'.debug = peer.debug

theorem Sheds.refl (hub : Hub) : Sheds hub hub :=
  ⟨rfl, rfl, rfl, .refl _, fun _ h => h, fun _ peer hp =>
    ⟨peer, hp, .refl _, fun _ he hne => absurd he hne, rfl⟩⟩

theorem Sheds.trans {hub hub' hub'' : Hub} (h : Sheds hub hub') (h' : Sheds hub' hub'') :
    Sheds hub hub'' where
  fresh := h'.fresh.trans h.fresh
  echoPeers := h'.echoPeers.trans h.echoPeers
  stats := h'.stats.trans h.stats
  clients := h'.clients.trans h.clients
  absent pid hp := h'.absent pid (h.absent pid hp)
  peers pid peer hp := by
    obtain ⟨peer', hp', hsub, hlost, hd⟩ := h.peers pid peer hp
    obtain ⟨peer'', hp'', hsub', hlost', hd'⟩ := h'.peers pid peer' hp'
    refine ⟨peer'', hp'', hsub'.trans hsub, fun e he hne => ?_, hd'.trans hd⟩
    by_cases hmem : e ∈ peer'.cbs
    · exact hlost' e hmem hne
    · exact hlost e he hmem

/-- No connection comes or goes, and none gets a registration back that it has lost. -/
structure Kept (hub hub' : Hub) : Prop where
  fresh : hub.fresh ≤ hub'.fresh
  peers : ∀ pid, hub'.peers pid = none ↔ hub.peers pid = none
  cbs : ∀ pid peer peer', hub.peers pid = some peer → hub'.peers pid = some peer' →
    (∀ e ∈ peer'.cbs, e ∈ peer.cbs ∨ hub.fresh ≤ e.id) ∧ (peer.debug = false → peer'.debug = false)

theorem Kept.refl (hub : Hub) : Kept hub hub where
  fresh := Nat.le_refl _
  peers _ := Iff.rfl
  cbs pid peer peer' hp hp' := by
    rw [hp] at hp'
    cases hp'
    exact ⟨fun e he => .inl he, id⟩

theorem Kept.peer {hub hub' : Hub} (h : Kept hub hub') {pid : Nat} {peer : Peer}
    (hp : hub.peers pid = some peer) :
    ∃ peer', hub'.peers pid = some peer' := by
  rw [← Option.ne_none_iff_exists', Ne, h.peers, hp]
  exact Option.some_ne_none peer

theorem Kept.trans {hub hub' hub'' : Hub} (h : Kept hub hub') (h' : Kept hub' hub'') : Kept hub hub'' where
  fresh := h.fresh.trans h'.fresh
  peers pid := (h'.peers pid).trans (h.peers pid)
  cbs pid peer peer'' hp hp'' := by
    obtain ⟨peer', hp'⟩ := h.peer hp
    obtain ⟨hcbs, hdebug⟩ := h.cbs pid peer peer' hp hp'
    obtain ⟨hcbs', hdebug'⟩ := h'.cbs pid peer' peer'' hp' hp''
    refine ⟨fun e he => ?_, hdebug' ∘ hdebug⟩
    obtain he | he := hcbs' e he
    · exact hcbs e he
    · exact .inr (h.fresh.trans he)

theorem Sheds.kept {hub hub' : Hub} (h : Sheds hub hub') : Kept hub hub' where
  fresh := h.fresh.ge
  peers pid := by
    refine ⟨fun hnone => ?_, h.absent pid⟩
    cases hp : hub.peers pid with
    | none => rfl
    | some peer =>
      obtain ⟨peer', hp', -⟩ := h.peers pid peer hp
      cases hnone.symm.trans hp'
  cbs pid peer peer' hp hp' := by
    obtain ⟨p, hq, hsub, -, hd⟩ := h.peers pid peer hp
    cases hq.symm.trans hp'
    exact ⟨fun e he => .inl (hsub.subset he), fun h => hd.trans h⟩

theorem Kept.update {hub hub' : Hub} {pid : Nat} {peer peer' : Peer}
    (hp : hub.peers pid = some peer)
    (hp' : hub'.peers = Function.update hub.peers pid (some peer')) (hf : hub.fresh ≤ hub'.fresh)
    (hcbs : ∀ e ∈ peer'.cbs, e ∈ peer.cbs ∨ hub.fresh ≤ e.id)
    (hd : peer.debug = false → peer'.debug = false) : Kept hub hub' where
  fresh := hf
  peers q := by
    rw [hp']
    by_cases h : q = pid
    · subst h
      rw [Function.update_self, hp]
      exact iff_of_false (Option.some_ne_none _) (Option.some_ne_none _)
    · rw [Function.update_of_ne h]
  cbs q p p' hq hq' := by
    rw [hp'] at hq'
    by_cases h : q = pid
    · subst h
      rw [Function.update_self] at hq'
      cases hp.symm.trans hq
      cases hq'
      exact ⟨hcbs, hd⟩
    · rw [Function.update_of_ne h] at hq'
      cases hq.symm.trans hq'
      exact ⟨fun e he => .inl he, id⟩

section

variable {C : Conditions} {topic : Topic} {msg : Value} {hub hub' hub'' : Hub} {pid : Nat}
    {peer : Peer} {cli : Cli}

theorem serve_take (hset : C.pollSet pid = true) {tx : Sb}
    (hpush : peer.tx.pushLen C.realloc C.strerror (C.serialize msg) = .ok tx) (subs : List Cli) :
    serve C msg pid peer (cli :: subs) =
      ((serve C msg pid { peer with tx, queued := peer.queued ++ [msg] } subs).1,
        cli :: (serve C msg pid { peer with tx, queued := peer.queued ++ [msg] } subs).2) := by
  simp only [serve, hset, hpush]

theorem serve_refuse (hr : Refuses C msg pid peer) (subs : List Cli) : serve C msg pid peer (cli :: subs) =
    serve C msg pid { peer with cbs := peer.cbs.eraseP (·.owner = .client cli.id) } subs := by
  obtain hset | ⟨e, hpush⟩ := hr
  · simp only [serve, hset]
  · cases hset : C.pollSet pid <;> simp only [serve, hset, hpush]

theorem serve_append (peer : Peer) (l₁ l₂ : List Cli) : serve C msg pid peer (l₁ ++ l₂) =
    ((serve C msg pid (serve C msg pid peer l₁).1 l₂).1,
      (serve C msg pid peer l₁).2 ++ (serve C msg pid (serve C msg pid peer l₁).1 l₂).2) := by
  induction l₁ generalizing peer with
  | nil => rfl
  | cons cli l₁ ih =>
    by_cases hr : Refuses C msg pid peer
    · rw [List.cons_append, serve_refuse hr, serve_refuse hr, ih]
    · obtain ⟨hset, hpush⟩ := not_or.mp hr
      cases htx : peer.tx.pushLen C.realloc C.strerror (C.serialize msg) with
      | error e => exact absurd ⟨e, htx⟩ hpush
      | ok tx =>
        have hset : C.pollSet pid = true := Bool.not_eq_false _ ▸ hset
        rw [List.cons_append, serve_take hset htx, serve_take hset htx, ih, List.cons_append]

theorem serve_queued (peer : Peer) (subs : List Cli) : (serve C msg pid peer subs).1.queued =
    peer.queued ++ List.replicate (serve C msg pid peer subs).2.length msg := by
  induction subs generalizing peer with
  | nil => exact (List.append_nil _).symm
  | cons cli subs ih =>
    by_cases hr : Refuses C msg pid peer
    · rw [serve_refuse hr, ih]
    · obtain ⟨hset, hpush⟩ := not_or.mp hr
      cases htx : peer.tx.pushLen C.realloc C.strerror (C.serialize msg) with
      | error e => exact absurd ⟨e, htx⟩ hpush
      | ok tx =>
        have hset : C.pollSet pid = true := Bool.not_eq_false _ ▸ hset
        rw [serve_take hset htx, ih, List.append_assoc, List.length_cons, List.replicate_succ]
        rfl

theorem serve_refused (hr : Refuses C msg pid peer) (subs : List Cli) :
    (serve C msg pid peer subs).2 = [] := by
  induction subs generalizing peer with
  | nil => rfl
  | cons cli subs ih =>
    rw [serve_refuse hr]
    exact ih hr

theorem Hub.queued_eq (hp : hub.peers pid = some peer) : hub.queued pid = peer.queued := by
  rw [Hub.queued, hp]
  rfl

theorem Delivered.nobody {clients : List Cli} (h : ∀ c ∈ clients, c.topics topic = false) :
    Delivered C topic msg hub hub clients clients := by
  have hwants (q : Nat) : clients.filter (Cli.wants topic q) = [] :=
    List.filter_eq_nil_iff.mpr fun c hc => by simp [Cli.wants, h c hc]
  have hhears : clients.countP (Cli.hears topic) = 0 :=
    List.countP_eq_zero.mpr fun c hc => by simp [Cli.hears, h c hc]
  refine ⟨List.Sublist.refl _, fun c hc _ => hc, fun q p hq => ⟨p, hq, ?_⟩, fun _ h => h, ?_, rfl, rfl⟩
  · rw [hwants, serve]
  · rw [hhears, List.replicate_zero, List.append_nil]

theorem Delivered.append {l₁ l₁' l₂ l₂' : List Cli} (h : Delivered C topic msg hub hub' l₁ l₁')
    (h' : Delivered C topic msg hub' hub'' l₂ l₂') :
    Delivered C topic msg hub hub'' (l₁ ++ l₂) (l₁' ++ l₂') where
  sublist := h.sublist.append h'.sublist
  others c hc ho := by
    obtain hc | hc := List.mem_append.mp hc
    · exact List.mem_append_left _ (h.others c hc ho)
    · exact List.mem_append_right _ (h'.others c hc ho)
  served pid peer hp := by
    obtain ⟨peer', hp', hs⟩ := h.served pid peer hp
    obtain ⟨peer'', hp'', hs'⟩ := h'.served pid peer' hp'
    refine ⟨peer'', hp'', ?_⟩
    rw [List.filter_append, List.filter_append, serve_append, hs, hs']
  absent pid hp := h'.absent pid (h.absent pid hp)
  printed := by rw [h'.printed, h.printed, List.append_assoc, ← List.replicate_add, List.countP_append]
  waiting := ⟨h'.waiting.1.trans h.waiting.1, h'.waiting.2.trans h.waiting.2⟩

end

/-- What sending a message to one client comes to. -/
inductive Sends (C : Conditions) (topic : Topic) (msg : Value) (hub : Hub) (cli : Cli) : Hub → Prop
  | skip : cli.topics topic = false → Sends C topic msg hub cli hub
  | print : cli.topics topic = true → cli.kind = .cb → Sends C topic msg hub cli
      { hub with printed := hub.printed ++ [msg] }
  | push (pid cid : Nat) (peer : Peer) (tx : Sb) : cli.topics topic = true →
      cli.kind = .sock pid cid → hub.peers pid = some peer →
      C.pollSet pid = true → peer.tx.pushLen C.realloc C.strerror (C.serialize msg) = .ok tx →
      Sends C topic msg hub cli (hub.setPeer pid (some { peer with tx, queued := peer.queued ++ [msg] }))
  | drop (pid cid : Nat) (peer : Peer) : cli.topics topic = true → cli.kind = .sock pid cid →
      hub.peers pid = some peer →
      Refuses C msg pid peer → Sends C topic msg hub cli (deallocClient cli
        (hub.setPeer pid (some { peer with cbs := peer.cbs.eraseP (·.id = cid) })))

section

variable {leaving : Option Nat} {C : Conditions} {topic : Topic} {msg : Value} {hub hub' : Hub}
    {pid cid : Nat} {peer : Peer} {cli : Cli}

theorem client?_eq (hn : hub.clientIds.Nodup) (hm : cli ∈ hub.clients) : hub.client? cli.id = some cli := by
  cases h : hub.client? cli.id with
  | none => exact absurd (List.find?_eq_none.mp h cli hm) (by simp)
  | some d =>
    unfold Hub.client? at h
    have hd : d.id = cli.id := by simpa using List.find?_some h
    rw [List.inj_on_of_nodup_map hn (List.mem_of_find?_eq_some h) hm hd]

theorem Tidy.sock (ht : Tidy leaving hub) (hm : cli ∈ hub.clients) (hk : cli.kind = .sock pid cid) :
    ∃ peer, hub.peers pid = some peer ∧ ⟨cid, .client cli.id⟩ ∈ peer.cbs ∧ peer.debug = false := by
  have hh : hub.Holds pid cid (.client cli.id) := ⟨cli, hm, rfl, hk⟩
  obtain ⟨peer, hp⟩ := ht.there _ _ _ hh
  have hreg := ht.peers pid peer hp
  exact ⟨peer, hp, hreg.held _ _ hh, hreg.debug _ _ hh⟩

theorem peerDelCbs_eq (hp : hub.peers pid = some peer) {owner : Owner} (he : ⟨cid, owner⟩ ∈ peer.cbs) :
    peerDelCbs pid cid hub = .ok (hub.setPeer pid (some { peer with cbs := peer.cbs.eraseP (·.id = cid) })) := by
  have hmem : cid ∈ peer.cbs.map Cbs.id := List.mem_map_of_mem he
  simp only [peerDelCbs, hp, if_pos hmem]

theorem unsubscribe_sock (hk : cli.kind = .sock pid cid) (hp : hub.peers pid = some peer)
    (he : ⟨cid, .client cli.id⟩ ∈ peer.cbs) :
    unsubscribe cli hub = .ok (deallocClient cli
      (hub.setPeer pid (some { peer with cbs := peer.cbs.eraseP (·.id = cid) }))) := by
  simp only [unsubscribe, hk, peerDelCbs_eq hp he]
  rfl

theorem sendOne_sends (C : Conditions) (topic : Topic) (msg : Value) (ht : Tidy leaving hub)
    (hm : cli ∈ hub.clients) :
    ∃ hub', sendOne C topic msg cli.id hub = .ok hub' ∧ Sends C topic msg hub cli hub' := by
  rw [sendOne, client?_eq ht.clients hm]
  dsimp only
  cases htopic : cli.topics topic with
  | false => exact ⟨hub, rfl, .skip htopic⟩
  | true =>
    cases hk : cli.kind with
    | blank => exact absurd hk (ht.kinds cli hm)
    | cb => exact ⟨_, rfl, .print htopic hk⟩
    | sock pid cid =>
      obtain ⟨peer, hp, he, -⟩ := ht.sock hm hk
      have hdrop := unsubscribe_sock hk hp he
      simp only [peerNq, hp]
      cases hset : C.pollSet pid with
      | false => exact ⟨_, hdrop, .drop pid cid peer htopic hk hp (.inl hset)⟩
      | true =>
        cases hpush : peer.tx.pushLen C.realloc C.strerror (C.serialize msg) with
        | error e => exact ⟨_, hdrop, .drop pid cid peer htopic hk hp (.inr ⟨e, hpush⟩)⟩
        | ok tx => exact ⟨_, rfl, .push pid cid peer tx htopic hk hp hset hpush⟩

theorem Sends.tidy (h : Sends C topic msg hub cli hub') (ht : Tidy leaving hub)
    (hm : cli ∈ hub.clients) : Tidy leaving hub' := by
  cases h with
  | skip => exact ht
  | print =>
    have hholds : ∀ q r o, ({ hub with printed := hub.printed ++ [msg] } : Hub).Holds q r o ↔ hub.Holds q r o :=
      holds_congr rfl rfl rfl
    exact
      { ht.toRolls with
        peers := fun q p hq => (ht.peers q p hq).congr (Nat.le_refl _) (hholds q)
        there := fun q r o h => ht.there q r o ((hholds q r o).mp h) }
  | push pid cid peer tx _ _ hp _ _ => exact ht.setPeer hp rfl id
  | drop pid cid peer _ hk hp _ => exact ht.drop hm hk hp

theorem Tidy.eraseP_owner (ht : Tidy leaving hub) (hm : cli ∈ hub.clients)
    (hk : cli.kind = .sock pid cid) (hp : hub.peers pid = some peer) :
    peer.cbs.eraseP (·.owner = .client cli.id) = peer.cbs.eraseP (·.id = cid) := by
  have hreg := ht.peers pid peer hp
  have hh : hub.Holds pid cid (.client cli.id) := ⟨cli, hm, rfl, hk⟩
  have he := hreg.held _ _ hh
  refine eraseP_congr fun e hmem => decide_eq_decide.mpr ⟨fun ho => ?_, fun hid => ?_⟩
  · have hown : hub.Holds pid e.id (.client cli.id) := by
      obtain h | ⟨-, h⟩ := hreg.owned e hmem (by simp [ho])
      · exact ho ▸ h
      · rw [ho] at h
        cases h
    exact (ht.unique hown hh).2
  · rw [List.inj_on_of_nodup_map hreg.nodup hmem he hid]

theorem Sends.sheds (h : Sends C topic msg hub cli hub') (ht : Tidy leaving hub)
    (hm : cli ∈ hub.clients) : Sheds hub hub' := by
  cases h with
  | skip => exact .refl hub
  | print => exact { Sheds.refl hub with }
  | push pid cid peer tx _ _ hp _ _ =>
    refine ⟨rfl, rfl, rfl, .refl _, fun q hq => ?_, fun q p hq => ?_⟩
    · have h : q ≠ pid := by rintro rfl; cases hq.symm.trans hp
      exact (hub.setPeer_of_ne _ h).trans hq
    · by_cases h : q = pid
      · subst h
        cases hp.symm.trans hq
        exact ⟨_, hub.setPeer_self q _, .refl _, fun _ he hne => absurd he hne, rfl⟩
      · exact ⟨p, (hub.setPeer_of_ne _ h).trans hq, .refl _, fun _ he hne => absurd he hne, rfl⟩
  | drop pid cid peer _ hk hp _ =>
    have hreg := ht.peers pid peer hp
    obtain ⟨p, hp', he, -⟩ := ht.sock hm hk
    cases hp.symm.trans hp'
    refine ⟨rfl, rfl, rfl, List.eraseP_sublist, fun q hq => ?_, fun q p hq => ?_⟩
    · have h : q ≠ pid := by rintro rfl; cases hq.symm.trans hp
      exact (hub.setPeer_of_ne _ h).trans hq
    · by_cases h : q = pid
      · subst h
        cases hp.symm.trans hq
        refine ⟨_, hub.setPeer_self q _, List.eraseP_sublist, fun e hmem hne => ⟨cli.id, ?_⟩, rfl⟩
        have hid : e.id = cid := by
          by_contra hid
          exact hne ((mem_eraseP hreg.nodup).mpr ⟨hmem, hid⟩)
        rw [List.inj_on_of_nodup_map hreg.nodup hmem he hid]
      · exact ⟨p, (hub.setPeer_of_ne _ h).trans hq, .refl _, fun _ he hne => absurd he hne, rfl⟩

theorem eraseP_middle {pre post : List Cli} (hn : ((pre ++ cli :: post).map Cli.id).Nodup) :
    (pre ++ cli :: post).eraseP (·.id = cli.id) = pre ++ post := by
  rw [List.map_append, List.nodup_append] at hn
  rw [List.eraseP_append_right, List.eraseP_cons_of_pos (by simp)]
  intro c hc
  simpa using hn.2.2 c.id (List.mem_map_of_mem hc) cli.id (by simp)

theorem wants_sock {q : Nat} (ht : cli.topics topic = true) (hk : cli.kind = .sock q cid) :
    cli.wants topic pid = decide (q = pid) := by
  simp only [Cli.wants, Cli.on, ht, hk, Bool.true_and]

theorem Sends.delivered (h : Sends C topic msg hub cli hub') (htidy : Tidy leaving hub)
    {pre post : List Cli} (hc : hub.clients = pre ++ cli :: post) :
    ∃ kept, hub'.clients = pre ++ (kept ++ post) ∧ Delivered C topic msg hub hub' [cli] kept := by
  have hm : cli ∈ hub.clients := by simp [hc]
  have hsheds := h.sheds htidy hm
  cases h with
  | skip ht => exact ⟨[cli], hc, .nobody (by simpa using ht)⟩
  | print ht hk =>
    have hwants (q : Nat) : cli.wants topic q = false := by simp only [Cli.wants, Cli.on, hk, Bool.and_false]
    refine ⟨[cli], hc, .refl _, fun c hc _ => hc, fun q p hq => ⟨p, hq, ?_⟩, fun _ h => h, ?_, rfl, rfl⟩
    · rw [List.filter_cons_of_neg (by simp [hwants]), List.filter_nil, serve]
    · simp [Cli.hears, ht, hk]
  | push pid cid peer tx ht hk hp hset hpush =>
    refine ⟨[cli], hc, .refl _, fun c hc _ => hc, fun q p hq => ?_, hsheds.absent, ?_, rfl, rfl⟩
    · by_cases h : pid = q
      · subst h
        cases hp.symm.trans hq
        refine ⟨_, hub.setPeer_self pid _, ?_⟩
        rw [List.filter_cons_of_pos (by simp [wants_sock ht hk]), List.filter_nil, serve_take hset hpush, serve]
      · refine ⟨p, (hub.setPeer_of_ne _ (Ne.symm h)).trans hq, ?_⟩
        rw [List.filter_cons_of_neg (by simp [wants_sock ht hk, h]), List.filter_nil, serve]
    · simp [Cli.hears, hk, Hub.setPeer]
  | drop pid cid peer ht hk hp hr =>
    refine ⟨[], ?_, List.nil_sublist _, fun c hc ho => ?_, fun q p hq => ?_, hsheds.absent,
      (List.append_nil _).symm, rfl, rfl⟩
    · have hn := htidy.clients
      rw [Hub.clientIds, hc] at hn
      simp only [deallocClient, Hub.setPeer, hc, List.nil_append]
      exact eraseP_middle hn
    · rw [List.mem_singleton.mp hc, ht, hk] at ho
      simp at ho
    · by_cases h : pid = q
      · subst h
        cases hp.symm.trans hq
        refine ⟨_, hub.setPeer_self pid _, ?_⟩
        rw [List.filter_cons_of_pos (by simp [wants_sock ht hk]), List.filter_nil, serve_refuse hr,
          htidy.eraseP_owner hm hk hp, serve]
      · refine ⟨p, (hub.setPeer_of_ne _ (Ne.symm h)).trans hq, ?_⟩
        rw [List.filter_cons_of_neg (by simp [wants_sock ht hk, h]), List.filter_nil, serve]

theorem sendOne_local (C : Conditions) (topic : Topic) (msg : Value) :
    Local (Tidy leaving) Hub.clientIds (sendOne C topic msg) := by
  intro id hub hub' ht hm h
  obtain ⟨cli, hcli, rfl⟩ := List.mem_map.mp hm
  obtain ⟨hub'', hsend, hsends⟩ := sendOne_sends C topic msg ht hcli
  cases hsend.symm.trans h
  refine ⟨hsends.tidy ht hcli, ?_⟩
  cases hsends with
  | skip => exact .inl rfl
  | print => exact .inl rfl
  | push => exact .inl rfl
  | drop => exact .inr (map_eraseP hub.clients Cli.id cli.id)

theorem sends_delivered (C : Conditions) (topic : Topic) (msg : Value) {pre post : List Cli}
    {hub : Hub} (ht : Tidy leaving hub) (hc : hub.clients = pre ++ post) :
    ∃ hub' post', (post.map Cli.id).foldlM (fun hub id => sendOne C topic msg id hub) hub = .ok
      hub' ∧ Tidy leaving hub' ∧
      Sheds hub hub' ∧ hub'.clients = pre ++ post' ∧ Delivered C topic msg hub hub' post post' := by
  induction post generalizing pre hub with
  | nil => exact ⟨hub, [], rfl, ht, .refl hub, hc, .nobody fun _ h => absurd h List.not_mem_nil⟩
  | cons cli post ih =>
    have hm : cli ∈ hub.clients := by simp [hc]
    obtain ⟨hub₁, hsend, hsends⟩ := sendOne_sends C topic msg ht hm
    obtain ⟨kept, hc₁, hd₁⟩ := hsends.delivered ht hc
    rw [← List.append_assoc] at hc₁
    obtain ⟨hub₂, post', hfold, ht₂, hk₂, hc₂, hd₂⟩ := ih (hsends.tidy ht hm) hc₁
    refine ⟨hub₂, kept ++ post', ?_, ht₂, (hsends.sheds ht hm).trans hk₂, by
      rw [hc₂, List.append_assoc], hd₁.append hd₂⟩
    rw [List.map_cons, List.foldlM_cons, hsend]
    exact hfold

theorem monSend_delivers (C : Conditions) (topic : Topic) (method : String) (params : Value)
    (ht : Tidy leaving hub) :
    ∃ hub', monSend C topic method params hub = .ok hub' ∧ Tidy leaving hub' ∧ Sheds hub hub' ∧
      Delivered C topic (notification C method params) hub hub' hub.clients hub'.clients := by
  obtain ⟨hub', post', hfold, ht', hk, hc, hd⟩ := sends_delivered C topic
    (notification C method params) ht (List.nil_append hub.clients).symm
  rw [List.nil_append] at hc
  subst hc
  exact ⟨hub', (forEachSafe_eq (sendOne_local C topic _) ht ht.clients).trans hfold, ht', hk, hd⟩

theorem Delivered.refused (hd : Delivered C topic msg hub hub' hub.clients hub'.clients)
    (hp : hub.peers pid = some peer) (hr : Refuses C msg pid peer) :
    ∀ c ∈ hub'.clients, c.wants topic pid = false := by
  obtain ⟨peer', -, hs⟩ := hd.served pid peer hp
  have hnil : hub'.clients.filter (Cli.wants topic pid) = [] := by
    rw [← serve_refused (C := C) hr (hub.clients.filter (Cli.wants topic pid)), hs]
  exact fun c hc => Bool.not_eq_true _ ▸ List.filter_eq_nil_iff.mp hnil c hc

theorem monSendActive_eq (C : Conditions) (topic : Topic) (method : String) (params : Value)
    (ht : Tidy leaving hub) :
    monSendActive C topic method params hub = monSend C topic method params hub := by
  rw [monSendActive]
  split_ifs with h
  · have hzero : hub.clients.countP (·.topics topic) = 0 := by
      rw [← ht.active]
      simp only [topicActive, Bool.not_eq_true', Bool.or_eq_false_iff, decide_eq_false_iff_not] at h
      omega
    refine (walk_still (List.nil_append _).symm ht.clients (fun id hid => ?_) _).symm
    obtain ⟨cli, hm, rfl⟩ := List.mem_map.mp hid
    simp [sendOne, client?_eq ht.clients hm, List.countP_eq_zero.mp hzero cli hm]
  · rfl

end

end Bbdd.Monitor
