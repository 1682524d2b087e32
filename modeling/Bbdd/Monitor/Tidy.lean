import Bbdd.Monitor.Hub

namespace Bbdd.Monitor

/-- Whoever has a pointer to a registration of a connection. -/
def Hub.Holds (hub : Hub) (pid cid : Nat) : Owner → Prop
  | .tokener => False
  | .client id => ∃ cli ∈ hub.clients, cli.id = id ∧ cli.kind = .sock pid cid
  | .echo id => ∃ epeer ∈ hub.echoPeers, epeer.id = id ∧ epeer.peer = pid ∧ epeer.cbs = cid
  | .stats => ∃ stats ∈ hub.stats, stats.peer = some pid ∧ stats.cbs = cid

theorem holds_congr {hub hub' : Hub} (hc : hub'.clients = hub.clients)
    (he : hub'.echoPeers = hub.echoPeers) (hs : hub'.stats = hub.stats) (pid cid : Nat)
    (owner : Owner) : hub'.Holds pid cid owner ↔ hub.Holds pid cid owner := by
  cases owner with
  | tokener => exact Iff.rfl
  | client id => rw [Hub.Holds, Hub.Holds, hc]
  | echo id => rw [Hub.Holds, Hub.Holds, he]
  | stats => rw [Hub.Holds, Hub.Holds, hs]

structure Rolls (hub : Hub) : Prop where
  clients : hub.clientIds.Nodup
  echoes : hub.echoIds.Nodup
  active : ∀ t, hub.active t = hub.clients.countP (·.topics t)
  kinds : ∀ cli ∈ hub.clients, cli.kind ≠ .blank
  cliFresh : ∀ cli ∈ hub.clients, cli.id < hub.fresh
  echoFresh : ∀ epeer ∈ hub.echoPeers, epeer.id < hub.fresh

/-- The registrations of a connection are the tokener's, which is the first,
and those that somebody has a pointer to. A connection on its way out may have
lost the tokener's, and may have one of a request for counters that was told. -/
structure Registered (leaving : Option Nat) (hub : Hub) (pid : Nat) (peer : Peer) : Prop where
  nodup : (peer.cbs.map Cbs.id).Nodup
  front : leaving = some pid ∨ ∃ tkn subs, peer.cbs = ⟨tkn, .tokener⟩ :: subs ∧ ∀ e ∈ subs, e.owner ≠ .tokener
  held : ∀ cid owner, hub.Holds pid cid owner → ⟨cid, owner⟩ ∈ peer.cbs
  owned : ∀ e ∈ peer.cbs, e.owner ≠ .tokener → hub.Holds pid e.id e.owner ∨ leaving = some pid ∧ e.owner = .stats
  debug : ∀ cid id, hub.Holds pid cid (.client id) → peer.debug = false
  fresh : pid < hub.fresh ∧ ∀ e ∈ peer.cbs, e.id < hub.fresh

structure Tidy (leaving : Option Nat) (hub : Hub) : Prop extends Rolls hub where
  peers : ∀ pid peer, hub.peers pid = some peer → Registered leaving hub pid peer
  there : ∀ pid cid owner, hub.Holds pid cid owner → ∃ peer, hub.peers pid = some peer

theorem tidy_empty (eager : Bool) : Tidy none (.empty eager) where
  clients := List.nodup_nil
  echoes := List.nodup_nil
  active _ := rfl
  kinds _ h := absurd h List.not_mem_nil
  cliFresh _ h := absurd h List.not_mem_nil
  echoFresh _ h := absurd h List.not_mem_nil
  peers _ _ h := by cases h
  there pid cid owner h := by cases owner <;> simp [Hub.Holds, Hub.empty] at h

section

variable {α : Type} {l : List α} {f : α → Nat} {n : Nat}

theorem eraseP_eq_filter (hn : (l.map f).Nodup) :
    l.eraseP (f · = n) = l.filter (f · ≠ n) := by
  induction l with
  | nil => rfl
  | cons b l ih =>
    rw [List.map_cons, List.nodup_cons] at hn
    by_cases hb : f b = n
    · have hrest : l.filter (f · ≠ n) = l := by
        refine List.filter_eq_self.mpr fun a ha => decide_eq_true fun hf => hn.1 ?_
        rw [hb, ← hf]
        exact List.mem_map_of_mem ha
      rw [List.eraseP_cons_of_pos (by simpa using hb), List.filter_cons_of_neg (by simpa using hb), hrest]
    · rw [List.eraseP_cons_of_neg (by simpa using hb), List.filter_cons_of_pos (by simpa using hb), ih hn.2]

theorem mem_eraseP (hn : (l.map f).Nodup) {a : α} :
    a ∈ l.eraseP (f · = n) ↔ a ∈ l ∧ f a ≠ n := by
  rw [eraseP_eq_filter hn, List.mem_filter, decide_eq_true_iff]

theorem nodup_eraseP (hn : (l.map f).Nodup) : ((l.eraseP (f · = n)).map f).Nodup :=
  hn.sublist (List.eraseP_sublist.map f)

theorem map_eraseP (l : List α) (f : α → Nat) (n : Nat) :
    (l.eraseP (f · = n)).map f = (l.map f).erase n := by
  induction l with
  | nil => rfl
  | cons a l ih =>
    by_cases h : f a = n
    · rw [List.eraseP_cons_of_pos (by simpa using h), List.map_cons, h, List.erase_cons_head]
    · rw [List.eraseP_cons_of_neg (by simpa using h), List.map_cons, List.map_cons,
        List.erase_cons_tail (by simpa using h), ih]

theorem eraseP_congr {p q : α → Bool} (h : ∀ a ∈ l, p a = q a) : l.eraseP p = l.eraseP q := by
  induction l with
  | nil => rfl
  | cons a l ih =>
    rw [List.eraseP_cons, List.eraseP_cons, h a List.mem_cons_self, ih fun b hb =>
      h b (List.mem_cons_of_mem a hb)]

theorem nodup_append_fresh (hn : (l.map f).Nodup) {a : α} (h : ∀ b ∈ l, f b < f a) :
    ((l ++ [a]).map f).Nodup := by
  rw [List.map_append, List.map_singleton, List.nodup_append]
  refine ⟨hn, List.nodup_singleton _, fun x hx y hy => ?_⟩
  obtain ⟨b, hb, rfl⟩ := List.mem_map.mp hx
  rw [List.mem_singleton.mp hy]
  exact (h b hb).ne

end

section

variable {leaving : Option Nat} {hub hub' : Hub} {pid cid : Nat} {peer peer' : Peer} {cli : Cli} {owner : Owner}

theorem Hub.setPeer_self (hub : Hub) (pid : Nat) (peer : Option Peer) :
    (hub.setPeer pid peer).peers pid = peer := by
  simp only [Hub.setPeer, Function.update_self]

theorem Hub.setPeer_of_ne (hub : Hub) (peer : Option Peer) {q : Nat} (h : q ≠ pid) :
    (hub.setPeer pid peer).peers q = hub.peers q := by
  simp only [Hub.setPeer, Function.update_of_ne h]

theorem Rolls.unique (hr : Rolls hub) {p q r s : Nat} (h : hub.Holds p r owner)
    (h' : hub.Holds q s owner) : p = q ∧ r = s := by
  cases owner with
  | tokener => exact h.elim
  | client id =>
    obtain ⟨c, hc, rfl, hk⟩ := h
    obtain ⟨d, hd, hid, hk'⟩ := h'
    rw [List.inj_on_of_nodup_map hr.clients hd hc hid, hk] at hk'
    cases hk'
    exact ⟨rfl, rfl⟩
  | echo id =>
    obtain ⟨c, hc, rfl, rfl, rfl⟩ := h
    obtain ⟨d, hd, hid, rfl, rfl⟩ := h'
    rw [List.inj_on_of_nodup_map hr.echoes hd hc hid]
    exact ⟨rfl, rfl⟩
  | stats =>
    obtain ⟨c, hc, hp, rfl⟩ := h
    obtain ⟨d, hd, hp', rfl⟩ := h'
    cases Option.some.inj (hc.symm.trans hd)
    exact ⟨Option.some.inj (hp.symm.trans hp'), rfl⟩

theorem Registered.congr (hr : Registered leaving hub pid peer) (hf : hub.fresh ≤ hub'.fresh)
    (hh : ∀ cid owner, hub'.Holds pid cid owner ↔ hub.Holds pid cid owner) :
    Registered leaving hub' pid peer where
  nodup := hr.nodup
  front := hr.front
  held cid owner h := hr.held cid owner ((hh cid owner).mp h)
  owned e he ho := (hr.owned e he ho).imp_left (hh e.id e.owner).mpr
  debug cid id h := hr.debug cid id ((hh cid _).mp h)
  fresh := ⟨hr.fresh.1.trans_le hf, fun e he => (hr.fresh.2 e he).trans_le hf⟩

theorem Tidy.edit (ht : Tidy leaving hub) (hr : Rolls hub') (hf : hub.fresh ≤ hub'.fresh)
    (hp : hub'.peers = Function.update hub.peers pid (some peer'))
    (hother : ∀ q, q ≠ pid → ∀ cid owner, hub'.Holds q cid owner ↔ hub.Holds q cid owner)
    (hreg : Registered leaving hub' pid peer') :
    Tidy leaving hub' where
  toRolls := hr
  peers q p hq := by
    rw [hp] at hq
    by_cases h : q = pid
    · subst h
      rw [Function.update_self] at hq
      cases hq
      exact hreg
    · rw [Function.update_of_ne h] at hq
      exact (ht.peers q p hq).congr hf (hother q h)
  there q r o h := by
    rw [hp]
    by_cases hq : q = pid
    · subst hq
      exact ⟨peer', Function.update_self _ _ _⟩
    · rw [Function.update_of_ne hq]
      exact ht.there q r o ((hother q hq r o).mp h)

theorem Tidy.setPeer (ht : Tidy leaving hub) (hp : hub.peers pid = some peer) (hc : peer'.cbs = peer.cbs)
    (hd : peer.debug = false → peer'.debug = false) : Tidy leaving (hub.setPeer pid (some peer')) := by
  have hreg := ht.peers pid peer hp
  have hholds : ∀ q r o, (hub.setPeer pid (some peer')).Holds q r o ↔ hub.Holds q r o := holds_congr rfl rfl rfl
  refine ht.edit { ht.toRolls with } (Nat.le_refl _) rfl (fun q _ => hholds q) ?_
  constructor
  case nodup => exact hc ▸ hreg.nodup
  case front => exact hc ▸ hreg.front
  case held => exact fun cid o h => hc ▸ hreg.held cid o ((hholds pid cid o).mp h)
  case owned => exact fun e he ho => (hreg.owned e (hc ▸ he) ho).imp_left (hholds pid e.id e.owner).mpr
  case debug => exact fun cid id h => hd (hreg.debug cid id h)
  case fresh => exact hc ▸ hreg.fresh

theorem Tidy.release (ht : Tidy leaving hub) (hp : hub.peers pid = some peer)
    (hh : hub.Holds pid cid owner) (hr : Rolls hub')
    (hf : hub'.fresh = hub.fresh) (hp' : hub'.peers = Function.update hub.peers pid
      (some { peer with cbs := peer.cbs.eraseP (·.id = cid) }))
    (hholds : ∀ q r o, hub'.Holds q r o ↔ hub.Holds q r o ∧ o ≠ owner) : Tidy leaving hub' := by
  have hreg := ht.peers pid peer hp
  have he := hreg.held cid owner hh
  refine ht.edit hr hf.ge hp' (fun q hq r o => ?_) ?_
  · rw [hholds]
    refine and_iff_left_of_imp fun h ho => hq ?_
    exact (ht.unique (ho ▸ h) hh).1
  · constructor
    case nodup => exact nodup_eraseP hreg.nodup
    case front =>
      refine hreg.front.imp_right ?_
      rintro ⟨tkn, subs, hcbs, hsubs⟩
      have htkn : tkn ≠ cid := by
        rintro rfl
        have htok : (⟨tkn, .tokener⟩ : Cbs) ∈ peer.cbs := by simp [hcbs]
        obtain rfl : owner = .tokener := congrArg Cbs.owner (List.inj_on_of_nodup_map hreg.nodup he htok rfl)
        exact hh
      refine ⟨tkn, subs.eraseP (·.id = cid), ?_, fun e he => hsubs e (List.mem_of_mem_eraseP he)⟩
      simp only [hcbs]
      exact List.eraseP_cons_of_neg (by simpa using htkn)
    case held =>
      intro r o h
      obtain ⟨h, ho⟩ := (hholds pid r o).mp h
      refine (mem_eraseP hreg.nodup).mpr ⟨hreg.held r o h, fun hid => ho ?_⟩
      exact congrArg Cbs.owner (List.inj_on_of_nodup_map hreg.nodup (hreg.held r o h) he hid)
    case owned =>
      intro e hmem ho
      obtain ⟨hmem, hid⟩ := (mem_eraseP hreg.nodup).mp hmem
      refine (hreg.owned e hmem ho).imp_left fun h => (hholds pid e.id e.owner).mpr ⟨h, fun heq => ?_⟩
      exact hid (ht.unique (heq ▸ h) hh).2
    case debug => exact fun r id h => hreg.debug r id ((hholds pid r _).mp h).1
    case fresh => exact ⟨hf ▸ hreg.fresh.1, fun e he => hf ▸ hreg.fresh.2 e (List.mem_of_mem_eraseP he)⟩

theorem Tidy.register (ht : Tidy leaving hub) (hp : hub.peers pid = some peer) (hr : Rolls hub')
    (hf : hub.fresh ≤ cid) (hf' : cid < hub'.fresh)
    (hto : owner ≠ .tokener) {debug : Bool} (hd : peer.debug = false → debug = false)
    (hcli : ∀ id, owner = .client id → debug = false)
    (hp' : hub'.peers = Function.update hub.peers pid
      (some { peer with cbs := peer.cbs ++ [⟨cid, owner⟩], debug := debug }))
    (hholds : ∀ q r o, hub'.Holds q r o ↔ hub.Holds q r o ∨ q = pid ∧ r = cid ∧ o = owner) :
    Tidy leaving hub' := by
  have hreg := ht.peers pid peer hp
  have hle := hf.trans hf'.le
  refine ht.edit hr hle hp' (fun q hq r o => ?_) ?_
  · rw [hholds]
    exact or_iff_left fun h => hq h.1
  · constructor
    case nodup => exact nodup_append_fresh hreg.nodup fun e he => (hreg.fresh.2 e he).trans_le hf
    case front =>
      refine hreg.front.imp_right ?_
      rintro ⟨tkn, subs, hcbs, hsubs⟩
      refine ⟨tkn, subs ++ [⟨cid, owner⟩], by simp only [hcbs, List.cons_append], fun e he => ?_⟩
      obtain he | rfl := List.mem_append.mp he |>.imp_right List.mem_singleton.mp
      · exact hsubs e he
      · exact hto
    case held =>
      intro r o h
      obtain h | ⟨-, rfl, rfl⟩ := (hholds pid r o).mp h
      · exact List.mem_append_left _ (hreg.held r o h)
      · exact List.mem_append_right _ (List.mem_singleton_self _)
    case owned =>
      intro e he ho
      obtain he | rfl := List.mem_append.mp he |>.imp_right List.mem_singleton.mp
      · exact (hreg.owned e he ho).imp_left fun h => (hholds pid e.id e.owner).mpr (.inl h)
      · exact .inl ((hholds pid cid owner).mpr (.inr ⟨rfl, rfl, rfl⟩))
    case debug =>
      intro r id h
      obtain h | ⟨-, -, ho⟩ := (hholds pid r _).mp h
      · exact hd (hreg.debug r id h)
      · exact hcli id ho.symm
    case fresh =>
      refine ⟨hreg.fresh.1.trans_le hle, fun e he => ?_⟩
      obtain he | rfl := List.mem_append.mp he |>.imp_right List.mem_singleton.mp
      · exact (hreg.fresh.2 e he).trans_le hle
      · exact hf'

theorem countP_eraseP {l : List Cli} (hn : (l.map Cli.id).Nodup) (hm : cli ∈ l) (p : Cli → Bool) :
    l.countP p = (l.eraseP (·.id = cli.id)).countP p + if p cli then 1 else 0 := by
  obtain ⟨d, l₁, l₂, -, hd, hl, he⟩ := List.exists_of_eraseP hm (p := (·.id = cli.id)) (by simp)
  have hdm : d ∈ l := by simp [hl]
  have hdc : d = cli := List.inj_on_of_nodup_map hn hdm hm (of_decide_eq_true hd)
  rw [he, hl, hdc, List.countP_append, List.countP_append, List.countP_cons]
  omega

theorem Rolls.dealloc (hr : Rolls hub) (hm : cli ∈ hub.clients) : Rolls (deallocClient cli hub) where
  clients := nodup_eraseP hr.clients
  echoes := hr.echoes
  active t := by
    have hcount := countP_eraseP hr.clients hm (·.topics t)
    have hactive := hr.active t
    simp only [deallocClient]
    split_ifs with h
    · rw [if_pos h] at hcount
      omega
    · rw [if_neg h] at hcount
      omega
  kinds c hc := hr.kinds c (List.mem_of_mem_eraseP hc)
  cliFresh c hc := hr.cliFresh c (List.mem_of_mem_eraseP hc)
  echoFresh := hr.echoFresh

theorem holds_dealloc (hr : Rolls hub) (cli : Cli) (q r : Nat) (o : Owner) :
    (deallocClient cli hub).Holds q r o ↔ hub.Holds q r o ∧ o ≠ .client cli.id := by
  cases o with
  | tokener => exact ⟨False.elim, fun h => h.1⟩
  | client id =>
    constructor
    · rintro ⟨c, hc, rfl, hk⟩
      obtain ⟨hc, hne⟩ := (mem_eraseP hr.clients).mp hc
      exact ⟨⟨c, hc, rfl, hk⟩, fun h => hne (Owner.client.inj h)⟩
    · rintro ⟨⟨c, hc, rfl, hk⟩, hne⟩
      exact ⟨c, (mem_eraseP hr.clients).mpr ⟨hc, fun h => hne (congrArg _ h)⟩, rfl, hk⟩
  | echo id => exact (and_iff_left (by simp)).symm
  | stats => exact (and_iff_left (by simp)).symm

theorem Tidy.drop (ht : Tidy leaving hub) (hm : cli ∈ hub.clients) (hk : cli.kind = .sock pid cid)
    (hp : hub.peers pid = some peer) :
    Tidy leaving (deallocClient cli
      (hub.setPeer pid (some { peer with cbs := peer.cbs.eraseP (·.id = cid) }))) := by
  have hr : Rolls (hub.setPeer pid (some { peer with cbs := peer.cbs.eraseP (·.id = cid) })) :=
    { ht.toRolls with }
  have hh : hub.Holds pid cid (.client cli.id) := ⟨cli, hm, rfl, hk⟩
  refine ht.release hp hh (hr.dealloc hm) rfl rfl fun q r o => ?_
  rw [holds_dealloc hr cli]
  exact and_congr_left fun _ => holds_congr rfl rfl rfl q r o

theorem Rolls.alloc (hr : Rolls hub) (cli : Cli) (hid : cli.id = hub.fresh)
    (hk : cli.kind ≠ .blank) {fresh : Nat} (hf : hub.fresh < fresh) :
    Rolls { allocClient cli hub with fresh := fresh } where
  clients := nodup_append_fresh hr.clients fun c hc => hid ▸ hr.cliFresh c hc
  echoes := hr.echoes
  active t := by
    simp only [allocClient, List.countP_append, List.countP_singleton, hr.active t]
    split <;> rfl
  kinds c hc := by
    obtain hc | rfl := List.mem_append.mp hc |>.imp_right List.mem_singleton.mp
    · exact hr.kinds c hc
    · exact hk
  cliFresh c hc := by
    obtain hc | rfl := List.mem_append.mp hc |>.imp_right List.mem_singleton.mp
    · exact (hr.cliFresh c hc).trans hf
    · exact hid ▸ hf
  echoFresh e he := (hr.echoFresh e he).trans hf

theorem holds_alloc (cli : Cli) (fresh : Nat) (q r : Nat) (o : Owner) :
    ({ allocClient cli hub with fresh := fresh } : Hub).Holds q r o ↔ hub.Holds q r o ∨
      o = .client cli.id ∧ cli.kind = .sock q r := by
  cases o with
  | client id =>
    constructor
    · rintro ⟨c, hc, rfl, hk⟩
      obtain hc | rfl := List.mem_append.mp hc |>.imp_right List.mem_singleton.mp
      · exact .inl ⟨c, hc, rfl, hk⟩
      · exact .inr ⟨rfl, hk⟩
    · rintro (⟨c, hc, rfl, hk⟩ | ⟨h, hk⟩)
      · exact ⟨c, List.mem_append_left _ hc, rfl, hk⟩
      · exact ⟨cli, List.mem_append_right _ (List.mem_singleton_self _), (Owner.client.inj h).symm, hk⟩
  | tokener | echo | stats => exact (or_iff_left fun h => by cases h.1).symm

theorem tidy_subscribeCb (ht : Tidy leaving hub) (alloc : Bool) (topics : Topics) :
    Tidy leaving (subscribeCb alloc topics hub).2 := by
  cases alloc
  · exact ht
  have hholds : ∀ q r o, (subscribeCb true topics hub).2.Holds q r o ↔ hub.Holds q r o := fun q r o =>
    (holds_alloc ⟨hub.fresh, topics, .cb⟩ _ q r o).trans (or_iff_left fun h => by cases h.2)
  exact
    { ht.toRolls.alloc _ rfl (by simp) (Nat.lt_succ_self _) with
      peers := fun q p hq => (ht.peers q p hq).congr (Nat.le_succ _) (hholds q)
      there := fun q r o h => ht.there q r o ((hholds q r o).mp h) }

theorem Rolls.addEcho (hr : Rolls hub) (epeer : EchoPeer) (hid : epeer.id = hub.fresh)
    {fresh : Nat} (hf : hub.fresh < fresh) :
    Rolls { hub with echoPeers := hub.echoPeers ++ [epeer], fresh := fresh } where
  clients := hr.clients
  echoes := nodup_append_fresh hr.echoes fun e he => hid ▸ hr.echoFresh e he
  active := hr.active
  kinds := hr.kinds
  cliFresh c hc := (hr.cliFresh c hc).trans hf
  echoFresh e he := by
    obtain he | rfl := List.mem_append.mp he |>.imp_right List.mem_singleton.mp
    · exact (hr.echoFresh e he).trans hf
    · exact hid ▸ hf

theorem holds_addEcho (epeer : EchoPeer) (fresh : Nat) (q r : Nat) (o : Owner) :
    ({ hub with echoPeers := hub.echoPeers ++ [epeer], fresh := fresh } : Hub).Holds q r o ↔
      hub.Holds q r o ∨ q = epeer.peer ∧ r = epeer.cbs ∧ o = .echo epeer.id := by
  cases o with
  | echo id =>
    constructor
    · rintro ⟨c, hc, rfl, rfl, rfl⟩
      obtain hc | rfl := List.mem_append.mp hc |>.imp_right List.mem_singleton.mp
      · exact .inl ⟨c, hc, rfl, rfl, rfl⟩
      · exact .inr ⟨rfl, rfl, rfl⟩
    · rintro (⟨c, hc, rfl, rfl, rfl⟩ | ⟨rfl, rfl, h⟩)
      · exact ⟨c, List.mem_append_left _ hc, rfl, rfl, rfl⟩
      · exact ⟨epeer, List.mem_append_right _ (List.mem_singleton_self _), (Owner.echo.inj h).symm, rfl, rfl⟩
  | tokener | client | stats => exact (or_iff_left fun h => by cases h.2.2).symm

theorem holds_eraseEcho (hr : Rolls hub) (id : Nat) (q r : Nat) (o : Owner) :
    ({ hub with echoPeers := hub.echoPeers.eraseP (·.id = id) } : Hub).Holds q r o ↔
      hub.Holds q r o ∧ o ≠ .echo id := by
  cases o with
  | tokener => exact ⟨False.elim, fun h => h.1⟩
  | echo i =>
    constructor
    · rintro ⟨e, he, rfl, rfl, rfl⟩
      obtain ⟨he, hne⟩ := (mem_eraseP hr.echoes).mp he
      exact ⟨⟨e, he, rfl, rfl, rfl⟩, fun h => hne (Owner.echo.inj h)⟩
    · rintro ⟨⟨e, he, rfl, rfl, rfl⟩, hne⟩
      exact ⟨e, (mem_eraseP hr.echoes).mpr ⟨he, fun h => hne (congrArg _ h)⟩, rfl, rfl, rfl⟩
  | client id => exact (and_iff_left (by simp)).symm
  | stats => exact (and_iff_left (by simp)).symm

theorem Rolls.eraseEcho (hr : Rolls hub) (id : Nat) :
    Rolls { hub with echoPeers := hub.echoPeers.eraseP (·.id = id) } where
  clients := hr.clients
  echoes := nodup_eraseP hr.echoes
  active := hr.active
  kinds := hr.kinds
  cliFresh := hr.cliFresh
  echoFresh e he := hr.echoFresh e (List.mem_of_mem_eraseP he)

theorem Tidy.leave (ht : Tidy none hub) (pid : Nat) : Tidy (some pid) hub :=
  { ht.toRolls with
    peers := fun q p hq =>
      have hreg := ht.peers q p hq
      { hreg with
        front := hreg.front.elim (fun h => by cases h) .inr
        owned := fun e he ho => (hreg.owned e he ho).imp_right fun h => by cases h.1 }
    there := ht.there }

theorem Tidy.remove (ht : Tidy (some pid) hub) (hnone : ∀ cid owner, ¬ hub.Holds pid cid owner) :
    Tidy none (hub.setPeer pid none) := by
  have hholds : ∀ q r o, (hub.setPeer pid none).Holds q r o ↔ hub.Holds q r o := holds_congr rfl rfl rfl
  have hr : Rolls (hub.setPeer pid none) := { ht.toRolls with }
  refine { hr with peers := fun q p hq => ?_, there := fun q r o h => ?_ }
  · have h : q ≠ pid := by
      rintro rfl
      rw [hub.setPeer_self] at hq
      cases hq
    rw [hub.setPeer_of_ne _ h] at hq
    have hreg := (ht.peers q p hq).congr (Nat.le_refl _) (hholds q)
    have hne : (some pid : Option Nat) ≠ some q := fun he => h (Option.some.inj he).symm
    exact
      { hreg with
        front := hreg.front.elim (fun he => absurd he hne) .inr
        owned := fun e he ho => (hreg.owned e he ho).imp_right fun he => absurd he.1 hne }
  · have hold := (hholds q r o).mp h
    have hne : q ≠ pid := fun he => hnone r o (he ▸ hold)
    rw [hub.setPeer_of_ne _ hne]
    exact ht.there q r o hold

theorem tidy_accept (ht : Tidy leaving hub) (fd maxbuf : Nat) : Tidy leaving (accept fd maxbuf hub) := by
  have hholds : ∀ q r o, (accept fd maxbuf hub).Holds q r o ↔ hub.Holds q r o := holds_congr rfl rfl rfl
  have hlt : hub.fresh < hub.fresh + 2 := Nat.lt_add_of_pos_right Nat.two_pos
  have hr : Rolls (accept fd maxbuf hub) :=
    { clients := ht.clients
      echoes := ht.echoes
      active := ht.active
      kinds := ht.kinds
      cliFresh := fun c hc => (ht.cliFresh c hc).trans hlt
      echoFresh := fun e he => (ht.echoFresh e he).trans hlt }
  have hnobody : ∀ r o, ¬ hub.Holds hub.fresh r o := by
    intro r o h
    obtain ⟨p, hp⟩ := ht.there _ _ _ h
    exact absurd (ht.peers _ p hp).fresh.1 (Nat.lt_irrefl _)
  refine ht.edit hr hlt.le rfl (fun q _ r o => hholds q r o) ?_
  constructor
  case nodup => exact List.nodup_singleton _
  case front => exact .inr ⟨_, [], rfl, fun _ h => absurd h List.not_mem_nil⟩
  case held => exact fun r o h => absurd ((hholds _ r o).mp h) (hnobody r o)
  case owned =>
    intro e he ho
    rw [List.mem_singleton.mp he] at ho
    exact absurd rfl ho
  case debug => exact fun r id h => absurd ((hholds _ r _).mp h) (hnobody r _)
  case fresh =>
    refine ⟨hlt, fun e he => ?_⟩
    rw [List.mem_singleton.mp he]
    exact Nat.lt_succ_self _

end

end Bbdd.Monitor
