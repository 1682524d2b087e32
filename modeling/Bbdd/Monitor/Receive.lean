import Bbdd.Monitor.Requests

namespace Bbdd.Monitor

open Lib.SafeLoop

section

variable {leaving : Option Nat} {C : Conditions} {hub hub' : Hub} {pid cid : Nat} {peer : Peer}

theorem cbsOwner_eq (ht : Tidy leaving hub) (hp : hub.peers pid = some peer) {e : Cbs} (he : e ∈ peer.cbs) :
    cbsOwner pid e.id hub = some e.owner := by
  have hfind : peer.cbs.find? (·.id = e.id) = some e := by
    cases h : peer.cbs.find? (·.id = e.id) with
    | none => exact absurd (List.find?_eq_none.mp h e he) (by simp)
    | some d =>
      have hd : d.id = e.id := by simpa using List.find?_some h
      rw [List.inj_on_of_nodup_map (ht.peers pid peer hp).nodup (List.mem_of_find?_eq_some h) he hd]
  rw [cbsOwner, hp, Option.bind_some, hfind, Option.map_some]

def Slips (pid : Nat) (hub hub' : Hub) : Prop := ∃ s, (cbsIds pid hub)[1]? = some s ∧ s ∉ cbsIds pid hub'

theorem front_of_tidy (ht : Tidy none hub) (hp : hub.peers pid = some peer) :
    ∃ tkn subs, peer.cbs = ⟨tkn, .tokener⟩ :: subs ∧ (∀ e ∈ subs, e.owner ≠ .tokener) ∧
      cbsIds pid hub = tkn :: subs.map Cbs.id ∧
      cbsOwner pid tkn hub = some .tokener := by
  obtain h | ⟨tkn, subs, hcbs, hsubs⟩ := (ht.peers pid peer hp).front
  · cases h
  · have hmem : ⟨tkn, .tokener⟩ ∈ peer.cbs := by simp [hcbs]
    exact ⟨tkn, subs, hcbs, hsubs, by rw [cbsIds_eq hp, hcbs, List.map_cons], cbsOwner_eq ht hp hmem⟩

theorem rxCb_other {actions : List Action} {failed : Option String} {owner : Owner}
    (h : cbsOwner pid cid hub = some owner) (hto : owner ≠ .tokener) :
    rxCb C pid actions failed cid hub = .ok hub := by
  unfold rxCb
  rw [h]
  cases owner with
  | tokener => exact absurd rfl hto
  | client | echo | stats => rfl

theorem rxCb_tokener {actions : List Action} (failed : Option String)
    (h : cbsOwner pid cid hub = some .tokener) (hrun : runActions C pid actions hub = .ok hub') :
    rxCb C pid actions failed cid hub = (failed.map fun e => Exit.failed e hub').elim (.ok hub') .error := by
  unfold rxCb
  rw [h, hrun]
  cases failed <;> rfl

theorem walk_rest {C : Conditions} {actions : List Action} {failed : Option String} {s : Nat}
    (n : Nat) (ht : Tidy none hub') (hp : hub'.peers pid = some peer) (hs : s ∈ cbsIds pid hub')
    (hnot : ⟨s, .tokener⟩ ∉ peer.cbs) :
    walk (cbsIds pid) (.crash .dangling) (rxCb C pid actions failed) n (some s) hub' = .ok hub' := by
  obtain ⟨tkn, subs, hcbs, hsubs, hids, -⟩ := front_of_tidy ht hp
  have hmem : s ∈ subs.map Cbs.id := by
    rw [hids] at hs
    refine (List.mem_cons.mp hs).resolve_left ?_
    rintro rfl
    exact hnot (by simp [hcbs])
  obtain ⟨pre, post, hsplit⟩ := List.append_of_mem hmem
  have hstill : ∀ a ∈ s :: post, rxCb C pid actions failed a hub' = .ok hub' := by
    intro a ha
    obtain ⟨e, he, rfl⟩ : ∃ e ∈ subs, e.id = a := List.mem_map.mp (hsplit ▸ List.mem_append_right pre ha)
    exact rxCb_other (cbsOwner_eq ht hp (hcbs ▸ List.mem_cons_of_mem _ he : e ∈ peer.cbs)) (hsubs e he)
  have hview : cbsIds pid hub' = (tkn :: pre) ++ s :: post := hids.trans (congrArg (tkn :: ·) hsplit)
  exact walk_still hview ((cbsIds_eq hp).symm ▸ (ht.peers pid peer hp).nodup) hstill n

theorem Kept.not_tokener {e : Cbs} {peer' : Peer} (hk : Kept hub hub') (ht : Tidy none hub)
    (hp : hub.peers pid = some peer) (hp' : hub'.peers pid = some peer') (he : e ∈ peer.cbs)
    (ho : e.owner ≠ .tokener) : ⟨e.id, .tokener⟩ ∉ peer'.cbs := by
  intro h
  obtain h | h := (hk.cbs pid peer peer' hp hp').1 _ h
  · have heq := List.inj_on_of_nodup_map (ht.peers pid peer hp).nodup he h rfl
    exact ho (congrArg Cbs.owner heq)
  · exact absurd h (Nat.not_le.mpr ((ht.peers pid peer hp).fresh.2 e he))

theorem rxCbs_eq {actions : List Action} (failed : Option String) (ht : Tidy none hub)
    (hp : hub.peers pid = some peer) (hrun : runActions C pid actions hub = .ok hub')
    (ht' : Tidy none hub') (hk : Kept hub hub') :
    (∀ e, failed = some e → rxCbs C pid actions failed hub = .ok (some e, hub')) ∧
      (failed = none → Slips pid hub hub' → rxCbs C pid actions failed hub = .error .dangling) ∧
      (failed = none → ¬ Slips pid hub hub' → rxCbs C pid actions failed hub = .ok (none, hub')) := by
  obtain ⟨tkn, subs, hcbs, hsubs, hids, hcli⟩ := front_of_tidy ht hp
  have hloop : forEachSafe (cbsIds pid) (.crash .dangling) (rxCb C pid actions failed) hub =
      match failed with
      | some e => .error (.failed e hub')
      | none => walk (cbsIds pid) (.crash .dangling) (rxCb C pid actions none) subs.length
          (subs.map Cbs.id).head? hub' := by
    rw [forEachSafe, hids, List.length_cons, List.head?_cons, walk, if_pos
      (hids ▸ List.mem_cons_self), rxCb_tokener failed hcli hrun,
      hids, List.length_map]
    cases failed with
    | none =>
      simp only [after, if_true]
      rfl
    | some e => rfl
  refine ⟨fun e he => ?_, fun hf hslip => ?_, fun hf hslip => ?_⟩
  · subst he
    rw [rxCbs, hloop]
  · subst hf
    obtain ⟨s, hs, hnot⟩ := hslip
    rw [hids, List.getElem?_cons_succ] at hs
    cases subs with
    | nil => cases hs
    | cons e subs =>
      cases Option.some.inj hs
      rw [rxCbs, hloop]
      simp only [List.length_cons, List.map_cons, List.head?_cons, walk, if_neg hnot]
  · subst hf
    rw [rxCbs, hloop]
    cases subs with
    | nil => rfl
    | cons e subs =>
      have hmem : e.id ∈ cbsIds pid hub' := by
        by_contra hnot
        exact hslip ⟨e.id, by simp [hids], hnot⟩
      obtain ⟨peer', hp'⟩ := hk.peer hp
      have hnot := hk.not_tokener ht hp hp' (by simp [hcbs]) (hsubs e List.mem_cons_self)
      rw [List.map_cons, List.head?_cons]
      simp only [walk_rest (e :: subs).length ht' hp' hmem hnot]

end

/-- Handling some requests costs the connection the registration after the
tokener's, and the loop over the registrations goes on. -/
def Upset (C : Conditions) (pid : Nat) (actions : List Action) (failed : Option String)
    (hub : Hub) : Prop :=
  failed = none ∧ ∃ hub', runActions C pid actions hub = .ok hub' ∧ Slips pid hub hub'

/-- This happens somewhere on the way. -/
inductive Slipped (pid : Nat) : Hub → List Chunk → Ending → Prop
  | chunk {hub hub' : Hub} {chunk : Chunk} {chunks : List Chunk} {ending : Ending} :
      reportDebug chunk.C pid (fun peer => s!"fd {peer.fd}: received {chunk.len} bytes") hub = .ok hub' →
      Upset chunk.C pid chunk.actions chunk.failed hub' → Slipped pid hub (chunk :: chunks) ending
  | later {hub hub' : Hub} {chunk : Chunk} {chunks : List Chunk} {ending : Ending} :
      rxChunk pid chunk hub = .ok (none, hub') → Slipped pid hub' chunks ending → Slipped pid hub
        (chunk :: chunks) ending
  | eof {hub : Hub} {C : Conditions} {actions : List Action} : Upset C pid actions none hub →
      Slipped pid hub [] (.eof C actions)

def Ending.actions : Ending → List Action
  | .eof _ actions => actions
  | _ => []

def Fails (hub : Hub) (r : Except Crash (Option String × Hub)) : Prop :=
  ∃ failed hub', r = .ok (failed, hub') ∧ Tidy none hub' ∧ Kept hub hub'

section

variable {C : Conditions} {hub hub' : Hub} {pid cid : Nat} {peer : Peer}

theorem reportDebug_goes (C : Conditions) (text : Peer → String) (ht : Tidy none hub)
    (hp : hub.peers pid = some peer) :
    Goes none hub (reportDebug C pid text hub) := by
  simp only [reportDebug, hp]
  split_ifs
  · exact (monSendDebug_spares C _ ht).goes
  · exact .ok ht

theorem rxCbs_null {actions : List Action} (failed : Option String) (ht : Tidy none hub)
    (hp : hub.peers pid = some peer) (hrun : runActions C pid actions hub = .error .null) :
    rxCbs C pid actions failed hub = .error .null := by
  obtain ⟨tkn, subs, -, -, hids, hcli⟩ := front_of_tidy ht hp
  have hcb : rxCb C pid actions failed tkn hub = .error (.crash .null) := by
    unfold rxCb
    rw [hcli, hrun]
  rw [rxCbs, forEachSafe, hids, List.length_cons, List.head?_cons, walk, if_pos (hids ▸ List.mem_cons_self), hcb]

theorem rxCbs_cases (C : Conditions) (actions : List Action) (failed : Option String)
    (ht : Tidy none hub) (hp : hub.peers pid = some peer) :
    Fails hub (rxCbs C pid actions failed hub) ∨
      rxCbs C pid actions failed hub = .error .dangling ∧ Upset C pid actions failed hub ∨
      rxCbs C pid actions failed hub = .error .null ∧ ∃ a ∈ actions, a.Sound = false := by
  obtain ⟨hub', hrun, ht', hk⟩ | ⟨hrun, hs⟩ := runActions_goes C actions ht hp
  · obtain ⟨hfailed, hdangling, hok⟩ := rxCbs_eq failed ht hp hrun ht' hk
    cases failed with
    | some e => exact .inl ⟨some e, hub', hfailed e rfl, ht', hk⟩
    | none =>
      by_cases hslip : Slips pid hub hub'
      · exact .inr (.inl ⟨hdangling rfl hslip, rfl, hub', hrun, hslip⟩)
      · exact .inl ⟨none, hub', hok rfl hslip, ht', hk⟩
  · exact .inr (.inr ⟨rxCbs_null failed ht hp hrun, hs⟩)

theorem rxCbs_upset {actions : List Action} {failed : Option String} (ht : Tidy none hub)
    (hp : hub.peers pid = some peer) (h : Upset C pid actions failed hub) :
    rxCbs C pid actions failed hub = .error .dangling := by
  obtain ⟨hf, hub', hrun, hslip⟩ := h
  obtain ⟨hub'', hrun', ht', hk⟩ | ⟨hrun', -⟩ := runActions_goes C actions ht hp
  · cases hrun.symm.trans hrun'
    exact (rxCbs_eq failed ht hp hrun ht' hk).2.1 hf hslip
  · cases hrun.symm.trans hrun'

theorem rxChunk_eq (chunk : Chunk) (ht : Tidy none hub) (hp : hub.peers pid = some peer) :
    ∃ hub' peer', reportDebug chunk.C pid (fun peer => s!"fd {peer.fd}: received {chunk.len} bytes")
      hub = .ok hub' ∧ Tidy none hub' ∧
      Kept hub hub' ∧ hub'.peers pid = some peer' ∧ rxChunk pid chunk hub = rxCbs chunk.C pid
        chunk.actions chunk.failed hub' := by
  obtain ⟨hub', h, ht', hk⟩ := reportDebug_goes chunk.C
    (fun peer => s!"fd {peer.fd}: received {chunk.len} bytes") ht hp
  obtain ⟨peer', hp'⟩ := hk.peer hp
  refine ⟨hub', peer', h, ht', hk, hp', ?_⟩
  rw [rxChunk, h]
  rfl

theorem peerRx_cases (chunks : List Chunk) (ending : Ending) (ht : Tidy none hub)
    (hp : hub.peers pid = some peer) :
    Fails hub (peerRx pid chunks ending hub) ∨
      peerRx pid chunks ending hub = .error .dangling ∧ Slipped pid hub chunks ending ∨
      peerRx pid chunks ending hub = .error .null ∧ ∃ a ∈ chunks.flatMap Chunk.actions ++
        ending.actions, a.Sound = false := by
  induction chunks generalizing hub peer with
  | nil =>
    cases ending with
    | again => exact .inl ⟨none, hub, rfl, ht, Kept.refl hub⟩
    | failed e => exact .inl ⟨_, hub, rfl, ht, Kept.refl hub⟩
    | eof C actions => exact (rxCbs_cases C actions none ht hp).imp id (Or.imp (fun h => ⟨h.1, .eof h.2⟩) id)
  | cons chunk chunks ih =>
    obtain ⟨hub₁, peer₁, h₁, ht₁, hk₁, hp₁, hrx⟩ := rxChunk_eq chunk ht hp
    obtain ⟨failed, hub₂, h₂, ht₂, hk₂⟩ | ⟨h₂, hupset⟩ | ⟨h₂, a, ha, hs⟩ :=
      rxCbs_cases chunk.C chunk.actions chunk.failed ht₁ hp₁
    · rw [← hrx] at h₂
      have hk := hk₁.trans hk₂
      cases failed with
      | some e => exact .inl ⟨some e, hub₂, by rw [peerRx, h₂], ht₂, hk⟩
      | none =>
        have hrest : peerRx pid (chunk :: chunks) ending hub = peerRx pid chunks ending hub₂ := by
          rw [peerRx, h₂]
        obtain ⟨peer₂, hp₂⟩ := hk.peer hp
        rw [hrest]
        obtain ⟨f, hub₃, h₃, ht₃, hk₃⟩ | ⟨h₃, hslip⟩ | ⟨h₃, b, hb, hs⟩ := ih ht₂ hp₂
        · exact .inl ⟨f, hub₃, h₃, ht₃, hk.trans hk₃⟩
        · exact .inr (.inl ⟨h₃, .later h₂ hslip⟩)
        · refine .inr (.inr ⟨h₃, b, ?_, hs⟩)
          rw [List.flatMap_cons, List.append_assoc]
          exact List.mem_append_right _ hb
    · exact .inr (.inl ⟨by rw [peerRx, hrx, h₂], .chunk h₁ hupset⟩)
    · refine .inr (.inr ⟨by rw [peerRx, hrx, h₂], a, ?_, hs⟩)
      rw [List.flatMap_cons, List.append_assoc]
      exact List.mem_append_left _ ha

theorem peerRx_tidy {chunks : List Chunk} {ending : Ending} {failed : Option String}
    (ht : Tidy none hub) (hp : hub.peers pid = some peer)
    (h : peerRx pid chunks ending hub = .ok (failed, hub')) : Tidy none hub' ∧ Kept hub hub' := by
  obtain ⟨failed', hub'', h', ht', hk⟩ | ⟨h', -⟩ | ⟨h', -⟩ := peerRx_cases chunks ending ht hp
  · cases h.symm.trans h'
    exact ⟨ht', hk⟩
  · cases h.symm.trans h'
  · cases h.symm.trans h'

theorem peerRx_slipped {chunks : List Chunk} {ending : Ending} (h : Slipped pid hub chunks ending)
    (ht : Tidy none hub) (hp : hub.peers pid = some peer) :
    peerRx pid chunks ending hub = .error .dangling := by
  induction h generalizing peer with
  | @chunk hub hub' chunk chunks ending h₁ hupset =>
    obtain ⟨hub₁, peer₁, h₁', ht₁, -, hp₁, hrx⟩ := rxChunk_eq chunk ht hp
    cases h₁.symm.trans h₁'
    rw [peerRx, hrx, rxCbs_upset ht₁ hp₁ hupset]
  | @later hub hub' chunk chunks ending h₁ _ ih =>
    rw [peerRx, h₁]
    obtain ⟨hub₁, peer₁, -, ht₁, hk₁, hp₁, hrx⟩ := rxChunk_eq chunk ht hp
    rw [hrx] at h₁
    obtain ⟨failed, hub₂, h₂, ht₂, hk₂⟩ | ⟨h₂, -⟩ | ⟨h₂, -⟩ := rxCbs_cases chunk.C chunk.actions
      chunk.failed ht₁ hp₁
    · cases h₁.symm.trans h₂
      obtain ⟨peer₂, hp₂⟩ := (hk₁.trans hk₂).peer hp
      exact ih ht₂ hp₂
    · cases h₁.symm.trans h₂
    · cases h₁.symm.trans h₂
  | eof hupset => exact rxCbs_upset ht hp hupset

end

end Bbdd.Monitor
