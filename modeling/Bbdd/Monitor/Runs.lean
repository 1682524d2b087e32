import Bbdd.Lib.Transition
import Bbdd.Monitor.Destroy

namespace Bbdd.Monitor

open Lib.Json Lib.SafeLoop Lib.Transition Buffer

def Settles (r : Except Crash Hub) : Prop := ∃ hub', r = .ok hub' ∧ Tidy none hub'

def Serves (hub : Hub) (r : Except Crash (Bool × Hub)) : Prop :=
  ∃ b hub', r = .ok (b, hub') ∧ Tidy none hub' ∧ Kept hub hub'

section

variable {hub : Hub} {pid : Nat} {peer : Peer}

theorem Goes.settles {r : Except Crash Hub} (h : Goes none hub r) : Settles r := by
  obtain ⟨hub', h, ht, -⟩ := h
  exact ⟨hub', h, ht⟩

theorem Serves.after {hub' : Hub} {r : Except Crash (Bool × Hub)} (hk : Kept hub hub')
    (h : Serves hub' r) : Serves hub r := by
  obtain ⟨b, hub₂, h₂, ht₂, hk₂⟩ := h
  exact ⟨b, hub₂, h₂, ht₂, hk.trans hk₂⟩

theorem giveUp_serves (ev : Poll) (text : String) (ht : Tidy none hub) :
    Serves hub (giveUp ev text hub) := by
  obtain ⟨hub₁, h₁, ht₁, hs₁⟩ := monSenderr_spares ev.C text ht
  exact ⟨true, hub₁, by rw [giveUp, h₁]; rfl, ht₁, hs₁.kept⟩

theorem afterTx_serves (ev : Poll) (ht : Tidy none hub) (hp : hub.peers pid = some peer) :
    Serves hub (afterTx ev pid hub) := by
  simp only [afterTx, hp]
  split_ifs
  · exact ⟨true, hub, rfl, ht, .refl hub⟩
  · cases ev.reset with
    | none => exact ⟨false, hub, rfl, ht, .refl hub⟩
    | some e => exact giveUp_serves ev _ ht

theorem afterRx_serves (ev : Poll) (ht : Tidy none hub) (hp : hub.peers pid = some peer) :
    Serves hub (afterRx ev pid hub) := by
  have htx : Fails hub (if ev.pollout then peerTx ev.C pid ev.sent hub else .ok (none, hub)) := by
    split_ifs
    · exact peerTx_fails ev.C ev.sent ht hp
    · exact ⟨none, hub, rfl, ht, Kept.refl hub⟩
  obtain ⟨failed, hub₁, h₁, ht₁, hk₁⟩ := htx
  obtain ⟨peer₁, hp₁⟩ := hk₁.peer hp
  rw [afterRx, h₁]
  by_cases hhup : ev.pollhup = true
  · rw [if_pos hhup]
    exact ⟨true, hub, rfl, ht, .refl hub⟩
  · rw [if_neg hhup]
    cases failed with
    | some e => exact (giveUp_serves ev _ ht₁).after hk₁
    | none => exact (afterTx_serves ev ht₁ hp₁).after hk₁

theorem peerServe_cases (ev : Poll) (ht : Tidy none hub) (hp : hub.peers pid = some peer) :
    Serves hub (peerServe ev pid hub) ∨
      peerServe ev pid hub = .error .dangling ∧ ev.pollin = true ∧ Slipped pid hub ev.chunks ev.ending ∨
      peerServe ev pid hub = .error .null ∧ ∃ a ∈ ev.chunks.flatMap Chunk.actions ++
        ev.ending.actions, a.Sound = false := by
  cases hin : ev.pollin with
  | false =>
    rw [peerServe, hin]
    exact .inl (afterRx_serves ev ht hp)
  | true =>
    rw [peerServe, hin, if_pos rfl]
    obtain ⟨failed, hub₁, h₁, ht₁, hk₁⟩ | ⟨h₁, hslip⟩ | ⟨h₁, hs⟩ := peerRx_cases ev.chunks ev.ending ht hp
    · obtain ⟨peer₁, hp₁⟩ := hk₁.peer hp
      rw [h₁]
      cases failed with
      | some e => exact .inl ((giveUp_serves ev _ ht₁).after hk₁)
      | none => exact .inl ((afterRx_serves ev ht₁ hp₁).after hk₁)
    · rw [h₁]
      exact .inr (.inl ⟨rfl, rfl, hslip⟩)
    · rw [h₁]
      exact .inr (.inr ⟨rfl, hs⟩)

theorem peerServe_slipped {ev : Poll} (ht : Tidy none hub) (hp : hub.peers pid = some peer)
    (hin : ev.pollin = true) (h : Slipped pid hub ev.chunks ev.ending) :
    peerServe ev pid hub = .error .dangling := by
  rw [peerServe, hin, if_pos rfl, peerRx_slipped h ht hp]

end

/-- A connection loses the registration after the tokener's as it is served, or
is cut off as it is destroyed. -/
def Event.Slips (hub : Hub) : Event → Prop
  | .poll ev pid => hub.peers pid ≠ none ∧ (ev.pollin = true ∧ Slipped pid hub ev.chunks ev.ending ∨
      ∃ hub', peerServe ev pid hub = .ok (true, hub') ∧ Cut ev.C pid ev.sends hub')
  | .close C pid sends _ => hub.peers pid ≠ none ∧ Cut C pid sends hub
  | _ => False

/-- An event on a connection that asks for a subscription there is no memory for. -/
def Event.Unsound : Event → Prop
  | .poll ev _ => ∃ a ∈ ev.chunks.flatMap Chunk.actions ++ ev.ending.actions, a.Sound = false
  | _ => False

section

variable {hub : Hub} {pid : Nat} {peer : Peer}

theorem not_cut_of_error {ev : Poll} {k : Crash} (h : peerServe ev pid hub = .error k) :
    ¬ ∃ hub', peerServe ev pid hub = .ok (true, hub') ∧ Cut ev.C pid ev.sends hub' := by
  rintro ⟨hub', h', -⟩
  cases h.symm.trans h'

theorem poll_cases (ev : Poll) (ht : Tidy none hub) (hp : hub.peers pid = some peer) :
    Settles (peerEvent ev pid hub) ∧ ¬ Event.Slips hub (.poll ev pid) ∨
      peerEvent ev pid hub = .error .dangling ∧ Event.Slips hub (.poll ev pid) ∨
      peerEvent ev pid hub = .error .null ∧ Event.Unsound (.poll ev pid) ∧ ¬ Event.Slips hub (.poll ev pid) := by
  have hne : hub.peers pid ≠ none := hp ▸ Option.some_ne_none peer
  obtain ⟨b, hub₁, h₁, ht₁, hk₁⟩ | ⟨h₁, hslip⟩ | ⟨h₁, hs⟩ := peerServe_cases ev ht hp
  · have hnot : ¬ (ev.pollin = true ∧ Slipped pid hub ev.chunks ev.ending) := fun h => by
      cases h₁.symm.trans (peerServe_slipped ht hp h.1 h.2)
    obtain ⟨peer₁, hp₁⟩ := hk₁.peer hp
    rw [peerEvent, h₁]
    cases b with
    | false =>
      refine .inl ⟨⟨hub₁, rfl, ht₁⟩, fun h => h.2.elim hnot ?_⟩
      rintro ⟨hub', h', -⟩
      cases h₁.symm.trans h'
    | true =>
      obtain ⟨hcut, herr⟩ | ⟨hcut, hub₂, h₂, ht₂, -⟩ := peerDestroy_cases ev.C ev.sends ev.unset ht₁ hp₁
      · exact .inr (.inl ⟨herr, hne, .inr ⟨hub₁, h₁, hcut⟩⟩)
      · refine .inl ⟨⟨hub₂, h₂, ht₂⟩, fun h => h.2.elim hnot ?_⟩
        rintro ⟨hub', h', hcut'⟩
        cases h₁.symm.trans h'
        exact hcut hcut'
  · exact .inr (.inl ⟨by rw [peerEvent, h₁]; rfl, hne, .inl hslip⟩)
  · refine .inr (.inr ⟨by rw [peerEvent, h₁]; rfl, hs, fun h => h.2.elim (fun h => ?_) (not_cut_of_error h₁)⟩)
    cases h₁.symm.trans (peerServe_slipped ht hp h.1 h.2)

theorem step_cases (ev : Event) (ht : Tidy none hub) :
    Settles (hub.step ev) ∧ ¬ ev.Slips hub ∨ hub.step ev = .error .dangling ∧ ev.Slips hub ∨
      hub.step ev = .error .null ∧ ev.Unsound ∧ ¬ ev.Slips hub := by
  cases ev with
  | accept fd maxbuf => exact .inl ⟨⟨_, rfl, tidy_accept ht fd maxbuf⟩, id⟩
  | subscribeCb alloc topics => exact .inl ⟨⟨_, rfl, tidy_subscribeCb ht alloc topics⟩, id⟩
  | publish C topic method params =>
    exact .inl ⟨(monSendActive_spares C topic method params ht).goes.settles, id⟩
  | echoReply C answer => exact .inl ⟨(echoPeersEnd_goes C answer _ ht).settles, id⟩
  | bfddClosed C answer => exact .inl ⟨(echoPeersEnd_goes C answer none ht).settles, id⟩
  | counters C answer => exact .inl ⟨(statsClose_goes C answer ht).settles, id⟩
  | poll ev pid =>
    cases hp : hub.peers pid with
    | none =>
      rw [Hub.step, hp]
      exact .inl ⟨⟨hub, rfl, ht⟩, fun h => h.1 hp⟩
    | some peer =>
      rw [Hub.step, hp, Option.isSome_some, if_pos rfl]
      exact poll_cases ev ht hp
  | close C pid sends unset =>
    cases hp : hub.peers pid with
    | none =>
      rw [Hub.step, hp]
      exact .inl ⟨⟨hub, rfl, ht⟩, fun h => h.1 hp⟩
    | some peer =>
      rw [Hub.step, hp, Option.isSome_some, if_pos rfl]
      obtain ⟨hcut, herr⟩ | ⟨hcut, hub', h', ht', -⟩ := peerDestroy_cases C sends unset ht hp
      · exact .inr (.inl ⟨herr, hp ▸ Option.some_ne_none peer, hcut⟩)
      · exact .inl ⟨⟨hub', h', ht'⟩, fun h => hcut h.2⟩

end

def monitor (eager : Bool) : System Hub Event :=
  .ofStep (.empty eager) (fun hub ev => (hub.step ev).toOption)

section

variable {eager : Bool} {hub : Hub}

theorem reachable_tidy (h : Reachable (monitor eager) hub) : Tidy none hub := by
  refine Reachable.invariant ?_ ?_ h
  · rintro _ rfl
    exact tidy_empty eager
  · intro hub ev hub' ht hstep
    change (hub.step ev).toOption = some hub' at hstep
    obtain ⟨⟨hub'', hok, ht'⟩, -⟩ | ⟨herr, -⟩ | ⟨herr, -⟩ := step_cases ev ht
    · rw [hok] at hstep
      cases hstep
      exact ht'
    · rw [herr] at hstep
      cases hstep
    · rw [herr] at hstep
      cases hstep

/-- The counters count, the registrations of a connection are the tokener's,
which is the first, and one for each client, request for an echo and request for
counters that is its, and a connection that has a client does not report on
itself. -/
theorem monitor_consistent (h : Reachable (monitor eager) hub) :
    (∀ t, hub.active t = hub.clients.countP (·.topics t)) ∧
      (∀ pid cid owner, owner ≠ .tokener →
        ((∃ peer, hub.peers pid = some peer ∧ ⟨cid, owner⟩ ∈ peer.cbs) ↔ hub.Holds pid cid owner)) ∧
      ∀ pid peer, hub.peers pid = some peer → (peer.cbs.map Cbs.id).Nodup ∧
        (∃ tkn subs, peer.cbs = ⟨tkn, .tokener⟩ :: subs ∧ ∀ e ∈ subs, e.owner ≠ .tokener) ∧
        (hub.clients.any (Cli.on pid) = true → peer.debug = false) := by
  have ht := reachable_tidy h
  refine ⟨ht.active, fun pid cid owner ho => ⟨?_, fun hh => ?_⟩, fun pid peer hp =>
    ⟨(ht.peers pid peer hp).nodup, ?_, fun hany => ?_⟩⟩
  · rintro ⟨peer, hp, he⟩
    exact ((ht.peers pid peer hp).owned _ he ho).resolve_right fun h => by cases h.1
  · obtain ⟨peer, hp⟩ := ht.there _ _ _ hh
    exact ⟨peer, hp, (ht.peers pid peer hp).held cid owner hh⟩
  · exact (ht.peers pid peer hp).front.resolve_left fun h => by cases h
  · obtain ⟨cli, hm, hon⟩ := List.any_eq_true.mp hany
    cases hk : cli.kind with
    | cb | blank => simp [Cli.on, hk] at hon
    | sock q cid =>
      obtain rfl : q = pid := by simpa [Cli.on, hk] using hon
      exact (ht.peers q peer hp).debug cid cli.id ⟨cli, hm, rfl, hk⟩

/-- What is published every connection serves to the clients of its that have
asked for it. Those that remain have got a copy each, those for which there was
no room are gone, and nobody else is touched. To ask first whether anybody
listens makes no difference. -/
theorem publish_delivered (h : Reachable (monitor eager) hub) (C : Conditions) (topic : Topic)
    (method : String) (params : Value) :
    ∃ hub', hub.step (.publish C topic method params) = .ok hub' ∧ monSend C topic method params hub = .ok hub' ∧
      Delivered C topic (notification C method params) hub hub' hub.clients hub'.clients ∧
      ∀ pid, hub'.queued pid = hub.queued pid ++ List.replicate
        (hub'.clients.countP (Cli.wants topic pid)) (notification C method params) := by
  have ht := reachable_tidy h
  obtain ⟨hub', hsend, ht', -, hd⟩ := monSend_delivers C topic method params ht
  refine ⟨hub', (monSendActive_eq C topic method params ht).trans hsend, hsend, hd, fun pid => ?_⟩
  cases hp : hub.peers pid with
  | none =>
    have hnone : hub'.clients.countP (Cli.wants topic pid) = 0 := by
      refine List.countP_eq_zero.mpr fun c hc hw => ?_
      obtain ⟨cid, hk⟩ := Cli.sock_of_wants hw
      obtain ⟨peer', hp', -⟩ := ht'.sock hc hk
      cases (hd.absent pid hp).symm.trans hp'
    rw [hnone, Hub.queued, Hub.queued, hp, hd.absent pid hp]
    rfl
  | some peer =>
    obtain ⟨peer', hp', hs⟩ := hd.served pid peer hp
    have hq : (serve C (notification C method params) pid peer
      (hub.clients.filter (Cli.wants topic pid))).1.queued = _ :=
      serve_queued peer _
    rw [hs] at hq
    rw [Hub.queued_eq hp, Hub.queued_eq hp', List.countP_eq_length_filter]
    exact hq

/-- There are two ways to crash. One is to lose the registration that a loop over
those of the same connection was to go on with. -/
theorem crash_cases (h : Reachable (monitor eager) hub) (ev : Event) :
    (hub.step ev = .error .dangling ↔ ev.Slips hub) ∧ (hub.step ev = .error .null → ev.Unsound) := by
  obtain ⟨⟨hub', hok, -⟩, hnot⟩ | ⟨herr, hslip⟩ | ⟨herr, hs, hnot⟩ := step_cases ev (reachable_tidy h)
  · rw [hok]
    exact ⟨iff_of_false (by simp) hnot, by simp⟩
  · rw [herr]
    exact ⟨iff_of_true rfl hslip, by simp⟩
  · rw [herr]
    exact ⟨iff_of_false (by simp) hnot, fun _ => hs⟩

theorem Slipped.append {pid : Nat} {before chunks : List Chunk} {ending : Ending} {hub hub' : Hub}
    (h : peerRx pid before .again hub = .ok (none, hub')) (hs : Slipped pid hub' chunks ending) :
    Slipped pid hub (before ++ chunks) ending := by
  induction before generalizing hub with
  | nil =>
    cases h
    exact hs
  | cons chunk before ih =>
    rw [peerRx] at h
    cases hrx : rxChunk pid chunk hub with
    | error k =>
      rw [hrx] at h
      cases h
    | ok r =>
      obtain ⟨_ | e, hub₁⟩ := r
      · rw [hrx] at h
        exact .later hrx (ih h)
      · rw [hrx] at h
        cases h

theorem lost_stays {hub' : Hub} {pid cid : Nat} {peer : Peer} (hp : hub.peers pid = some peer)
    (hk : Kept hub hub') (hlt : cid < hub.fresh) (hlost : cid ∉ cbsIds pid hub) :
    cid ∉ cbsIds pid hub' := by
  intro hmem
  obtain ⟨peer', hp', e, he, rfl⟩ := mem_cbsIds hmem
  obtain hold | hnew := (hk.cbs pid peer peer' hp hp').1 e he
  · exact hlost (cbsIds_eq hp ▸ List.mem_map_of_mem hold)
  · exact absurd hnew (Nat.not_le.mpr hlt)

theorem lost_of_refused {C : Conditions} {topic : Topic} {msg : Value} {hub₁ hub₂ hub₃ : Hub}
    {pid cid : Nat} {peer₁ peer₂ : Peer} {cli : Cli} (ht₁ : Tidy none hub₁) (ht₂ : Tidy none hub₂)
    (ht₃ : Tidy none hub₃) (hk : Kept hub₁ hub₂) (hs : Sheds hub₂ hub₃)
    (hd : Delivered C topic msg hub₂ hub₃ hub₂.clients hub₃.clients)
    (hp₁ : hub₁.peers pid = some peer₁) (hp₂ : hub₂.peers pid = some peer₂)
    (he : ⟨cid, .client cli.id⟩ ∈ peer₁.cbs) (hm : cli ∈ hub₂.clients)
    (htopic : cli.topics topic = true) (hr : Refuses C msg pid peer₂) : cid ∉ cbsIds pid hub₃ := by
  intro hmem
  obtain ⟨peer₃, hp₃, e, hin, rfl⟩ := mem_cbsIds hmem
  have hreg := ht₁.peers pid peer₁ hp₁
  have hlt : e.id < hub₁.fresh := hreg.fresh.2 ⟨e.id, .client cli.id⟩ he
  have hold := (((hk.trans hs.kept).cbs pid peer₁ peer₃ hp₁ hp₃).1 e hin).resolve_right (Nat.not_le.mpr hlt)
  have ho : e.owner = .client cli.id := congrArg Cbs.owner (List.inj_on_of_nodup_map hreg.nodup hold he rfl)
  obtain ⟨c, hc, hid, hkind⟩ : hub₃.Holds pid e.id (.client cli.id) :=
    ho ▸ ((ht₃.peers pid peer₃ hp₃).owned e hin (by simp [ho])).resolve_right fun h => by cases h.1
  obtain rfl := List.inj_on_of_nodup_map ht₂.clients (hs.clients.subset hc) hm hid
  have hwants := hd.refused hp₂ hr c hc
  simp [Cli.wants, Cli.on, htopic, hkind] at hwants

/-- The first registration of a connection after the tokener's gets lost if it is
a client's, and a request is announced to it on the way that it cannot take. -/
theorem no_room_crashes (h : Reachable (monitor eager) hub) {pid cid : Nat} {hub₁ hub₂ : Hub}
    {peer₁ peer₂ : Peer} {cli : Cli} {topic : Topic} {method : String} {params : Value}
    {ev : Poll} {chunk : Chunk} {before after : List Chunk} {pre rest : List Action}
    (hp : hub.peers pid ≠ none) (hin : ev.pollin = true)
    (hchunks : ev.chunks = before ++ chunk :: after)
    (hbefore : peerRx pid before .again hub = .ok (none, hub₁))
    (hp₁ : hub₁.peers pid = some peer₁) (hfirst : peer₁.cbs[1]? = some ⟨cid, .client cli.id⟩)
    (hfailed : chunk.failed = none)
    (hactions : chunk.actions = pre ++ .publish topic method params :: rest)
    (hpre : runActions chunk.C pid pre hub₁ = .ok hub₂) (hp₂ : hub₂.peers pid = some peer₂)
    (hm : cli ∈ hub₂.clients) (htopic : cli.topics topic = true)
    (hr : Refuses chunk.C (notification chunk.C method params) pid peer₂)
    (hsound : ∀ a ∈ rest, a.Sound = true) :
    hub.step (.poll ev pid) = .error .dangling := by
  have ht := reachable_tidy h
  obtain ⟨peer, hpeer⟩ := Option.ne_none_iff_exists'.mp hp
  obtain ⟨ht₁, hk₁⟩ := peerRx_tidy ht hpeer hbefore
  have he : ⟨cid, .client cli.id⟩ ∈ peer₁.cbs := List.mem_of_getElem? hfirst
  have hreg := ht₁.peers pid peer₁ hp₁
  have hlt : cid < hub₁.fresh := hreg.fresh.2 _ he
  have hdebug : peer₁.debug = false := hreg.debug cid cli.id
    ((hreg.owned _ he (by simp)).resolve_right fun h => by cases h.1)
  have hreport : reportDebug chunk.C pid (fun peer => s!"fd {peer.fd}: received {chunk.len} bytes")
    hub₁ = .ok hub₁ := by
    simp [reportDebug, hp₁, hdebug]
  obtain ⟨ht₂, hk₂⟩ := runActions_tidy ht₁ hp₁ hpre
  obtain ⟨hub₃, h₃, ht₃, hs₃, hd₃⟩ := monSend_delivers chunk.C topic method params ht₂
  obtain ⟨peer₃, hp₃⟩ := hs₃.kept.peer hp₂
  have hlost := lost_of_refused ht₁ ht₂ ht₃ hk₂ hs₃ hd₃ hp₁ hp₂ he hm htopic hr
  obtain ⟨hub₄, h₄, -, hk₄⟩ | ⟨-, a, ha, hs⟩ := runActions_goes chunk.C rest ht₃ hp₃
  · have hrun : runActions chunk.C pid chunk.actions hub₁ = .ok hub₄ := by
      rw [hactions, runActions_append, hpre]
      change runActions chunk.C pid (.publish topic method params :: rest) hub₂ = _
      rw [runActions, List.foldlM_cons, runAction, monSendActive_eq chunk.C topic method params ht₂, h₃]
      exact h₄
    have hslips : Slips pid hub₁ hub₄ := by
      refine ⟨cid, ?_, lost_stays hp₃ hk₄ (hlt.trans_le (hk₂.trans hs₃.kept).fresh) hlost⟩
      rw [cbsIds_eq hp₁, List.getElem?_map, hfirst]
      rfl
    have hslipped : Slipped pid hub ev.chunks ev.ending := hchunks ▸ .append hbefore
      (.chunk hreport ⟨hfailed, hub₄, hrun, hslips⟩)
    have hstep : hub.step (.poll ev pid) = peerEvent ev pid hub := by
      rw [Hub.step, hpeer]
      rfl
    rw [hstep, peerEvent, peerServe_slipped ht hpeer hin hslipped]
    rfl
  · rw [hsound a ha] at hs
    cases hs

end

def deaf : Conditions := ⟨fun _ => [], fun _ _ => none, "", fun _ => false, 0⟩

def attentive : Conditions := ⟨fun _ => [], ample, "", fun _ => true, 0⟩

def request (actions : List Action) : Poll :=
  ⟨deaf, true, false, false, [⟨deaf, 1, actions, none⟩], .again, .again, none, fun _ => .again, true⟩

def snoop (topic : Topic) : Action := .subscribe (fun t => t = topic) true true .null .null

def announce : Action := .publish .jrpc "jrpc:request" .null

def news : Action := .publish .session "session:new" .null

def asked (actions : List Action) : Hub :=
  ((accept 3 16 (.empty false)).step (.poll (request actions) 0)).toOption.getD (.empty false)

theorem reachable_asked {actions : List Action} {hub : Hub}
    (h : (accept 3 16 (.empty false)).step (.poll (request actions) 0) = .ok hub) :
    Reachable (monitor false) (asked actions) := by
  have haccept : Reachable (monitor false) (accept 3 16 (.empty false)) := Reachable.next
    (.start rfl) (l := .accept 3 16) rfl
  refine Reachable.next haccept (l := .poll (request actions) 0) ?_
  change ((accept 3 16 (.empty false)).step (.poll (request actions) 0)).toOption = _
  rw [asked, h]
  rfl

def snooped : Hub := asked [snoop .jrpc]

def waiting : Hub := asked [.echo true true true .null .null (.error ""), snoop .debug]

theorem reachable_snooped : Reachable (monitor false) snooped := reachable_asked rfl

theorem reachable_waiting : Reachable (monitor false) waiting := reachable_asked rfl

theorem monitor_consistent_waiting : waiting.active .debug = waiting.clients.countP
    (·.topics .debug) ∧ waiting.Holds 0 3 (.echo 2) ∧
    waiting.Holds 0 5 (.client 4) := by
  obtain ⟨hactive, hregistered, -⟩ := monitor_consistent reachable_waiting
  exact ⟨hactive .debug, (hregistered 0 3 (.echo 2) (by simp)).mp ⟨_, rfl, by decide⟩,
    (hregistered 0 5 (.client 4) (by simp)).mp ⟨_, rfl, by decide⟩⟩

theorem publish_delivered_snooped : ∃ hub', snooped.step
    (.publish attentive .jrpc "jrpc:request" .null) = .ok hub' ∧
    hub'.queued 0 = [notification attentive "jrpc:request" .null] := by
  obtain ⟨hub', h, -, hd, hqueued⟩ := publish_delivered reachable_snooped attentive .jrpc "jrpc:request" .null
  obtain ⟨peer', -, hserve⟩ := hd.served 0 _ rfl
  obtain ⟨tx, hpush⟩ : ∃ tx, (Sb.new 16).pushLen ample "" [] = .ok tx := by
    have hroom : (Sb.new 16).Room (([] : Lib.Wire.Bytes).length + 1) := .inr (by decide)
    exact (pushLen_ok ample_lawful (fun _ _ => rfl) (new_ok 16) hroom).imp fun _ h => h.1
  have hfilter : snooped.clients.filter (Cli.wants .jrpc 0) = [⟨2, fun t => t = .jrpc, .sock 0 3⟩] := rfl
  rw [hfilter, serve_take rfl hpush] at hserve
  have hfilter' : hub'.clients.filter (Cli.wants .jrpc 0) = [_] := (congrArg Prod.snd hserve).symm
  refine ⟨hub', h, (hqueued 0).trans ?_⟩
  rw [List.countP_eq_length_filter, hfilter']
  rfl

theorem crash_cases_waiting : Event.Slips snooped (.poll (request [announce]) 0) ∧
    Event.Slips waiting (.poll (request [.disconnect id]) 0) ∧
    Event.Slips waiting (.close deaf 0 (fun _ => .again) true) :=
  ⟨(crash_cases reachable_snooped _).1.mp rfl, (crash_cases reachable_waiting _).1.mp rfl,
    (crash_cases reachable_waiting _).1.mp rfl⟩

theorem no_room_crashes_jrpc : snooped.step (.poll (request [news, announce]) 0) = .error .dangling :=
  no_room_crashes reachable_snooped (Option.some_ne_none _) rfl
    (show (request [news, announce]).chunks = [] ++ ⟨deaf, 1, [news, announce], none⟩ ::
      [] from rfl) rfl rfl rfl rfl
    (show [news, announce] = [news] ++ announce :: [] from rfl) rfl rfl List.mem_cons_self rfl (.inl rfl)
    (fun _ h => absurd h List.not_mem_nil)

end Bbdd.Monitor
