import Bbdd.Bfddp.Message
import Bbdd.Control.Peer
import Bbdd.Lib.Requests
import Bbdd.Lib.Transition

namespace Bbdd.Bridge

open Lib.Json Lib.Requests Lib.Transition Packet Jrpc Control Bfddp

def dpRequestSessionCounters : UInt16 := 5
def bfdSessionCounters : UInt16 := 6

structure RequestCounters where
  lid : Be32
  deriving DecidableEq, Repr

structure SessionCounters where
  lid : Be32
  controlInputBytes : Be64
  controlInputPackets : Be64
  controlOutputBytes : Be64
  controlOutputPackets : Be64
  echoInputBytes : Be64
  echoInputPackets : Be64
  echoOutputBytes : Be64
  echoOutputPackets : Be64
  deriving DecidableEq, Repr

def requestCounters (msgId : UInt16) (discr : UInt32) : Header × RequestCounters :=
  (⟨bfdDpVersion, 0, hton16 dpRequestSessionCounters, hton16 msgId, hton16
    (.ofNat (header.size + word.size))⟩, ⟨hton32 discr⟩)

def replyCounters (msgId : UInt16) (discr : UInt32) (rxBytes rxPackets txBytes txPackets : UInt64) :
    Header × SessionCounters :=
  (⟨bfdDpVersion, 0, hton16 bfdSessionCounters, hton16 msgId, hton16
    (.ofNat (header.size + (word.size + 8 * quad.size)))⟩,
    ⟨hton32 discr, hton64 rxBytes, hton64 rxPackets, hton64 txBytes, hton64 txPackets, hton64 0,
      hton64 0, hton64 0, hton64 0⟩)

def uint64 (x : Be64) : Option Value := some (.int (ntoh64 x).toNat)

def statsObj (cnt : SessionCounters) : Value :=
  .obj (build [("rx_bytes", uint64 cnt.controlInputBytes), ("rx_packets", uint64 cnt.controlInputPackets),
    ("tx_bytes", uint64 cnt.controlOutputBytes), ("tx_packets", uint64 cnt.controlOutputPackets),
    ("rx_echo_bytes", uint64 cnt.echoInputBytes), ("rx_echo_packets", uint64 cnt.echoInputPackets),
    ("tx_echo_bytes", uint64 cnt.echoOutputBytes), ("tx_echo_packets", uint64 cnt.echoOutputPackets)])

def sessionCounters (discr : UInt32) (cnt : SessionCounters) : Reply :=
  .result (.obj (build [("sessions", some (.array
    [.obj (build [("discr", some (.int discr.toNat)), ("stats", some (statsObj cnt))])]))]))

def selectDiscrPolicy : List Policy := [{ key := "discr", kind := .int, required := true }]

def dissectSelectDiscr (select : Value) : Except String UInt32 := do
  let values ← dissect selectDiscrPolicy select
  getUint32 ((values.lookup "discr").getD .null)

def paramsStatsPolicy : List Policy := [{ key := "select", kind := .object, required := true }]

def dissectParamsStats (params : Value) : Except String UInt32 := do
  let values ← dissect paramsStatsPolicy params
  dissectSelectDiscr ((values.lookup "select").getD .null)

/-- The request that waits for counters, and its number. There is no peer any
more once the client has left. -/
structure BrStats where
  peer : Option Nat
  id : Value
  discr : UInt32
  no : Nat

structure Asked where
  discr : UInt32
  since : Nat
  deriving DecidableEq, Repr

structure StatsCall where
  peer : Nat
  id : Value
  asked : Option Asked

structure StatsAnswer where
  peer : Nat
  id : Value
  reply : Reply
  queued : Bool

structure Br where
  bfdd : Bool
  stats : Option BrStats
  requested : List (Header × RequestCounters)
  heard : List SessionCounters
  desk : Desk StatsCall StatsAnswer

def Br.refuse (br : Br) (peer : Nat) (id : Value) (reply : Reply) (room : Bool) : Br :=
  { br with desk := (br.desk.issue ⟨peer, id, none⟩).answer [(br.desk.next, ⟨peer, id, reply, room⟩)] }

/-- Ask for the counters of a session. If the message cannot be queued, the slot
that was taken for the answer is given up again. -/
def Br.handleSessionStats (br : Br) (peer : Nat) (params id : Value) (sent : Except String Unit)
    (room : Bool) : Br :=
  if br.bfdd = false then br.refuse peer id (interr "No BFDD client connected") room
  else if br.stats.isSome then br.refuse peer id (interr "Session stats already pending") room
  else
    match dissectParamsStats params with
    | .error e => br.refuse peer id (invParams e) room
    | .ok discr =>
      match sent with
      | .error e => br.refuse peer id (interr e) room
      | .ok () =>
        { br with
          stats := some ⟨some peer, id, discr, br.desk.next⟩
          requested := br.requested ++ [requestCounters 1 discr]
          desk := br.desk.issue ⟨peer, id, some ⟨discr, br.heard.length⟩⟩ }

def Br.statsClose (br : Br) (stats : BrStats) (reply : Reply) (room : Bool) : Br :=
  match stats.peer with
  | none => { br with stats := none }
  | some peer => { br with stats := none, desk := br.desk.answer [(stats.no, ⟨peer, stats.id, reply, room⟩)] }

def Br.handleSessionCounters (br : Br) (cnt : SessionCounters) (room : Bool) : Br :=
  match br.stats with
  | none => br
  | some stats => br.statsClose stats (sessionCounters stats.discr cnt) room

def Br.messageCb (br : Br) (h : Header) (cnt : SessionCounters) (room : Bool) : Br :=
  if h.version ≠ 1 then br
  else if ntoh16 h.type = bfdSessionCounters
    then { br with heard := br.heard ++ [cnt] }.handleSessionCounters cnt room
  else br

def Br.clientClose (br : Br) (room : Bool) : Br :=
  if br.bfdd = false then br
  else
    match br.stats with
    | none => { br with bfdd := false }
    | some stats => { br.statsClose stats (interr "BFDD client disconnect") room with bfdd := false }

def Br.clientAccept (br : Br) (attached room : Bool) : Br := { br.clientClose room with bfdd := attached }

def BrStats.peerDone (stats : BrStats) (peer : Nat) : BrStats :=
  if stats.peer = some peer then { stats with peer := none } else stats

inductive BridgeEvent
  | join
  | leave (peer : Nat)
  | sessionStats (peer : Nat) (params id : Value) (sent : Except String Unit) (room : Bool)
  | message (h : Header) (cnt : SessionCounters) (room : Bool)
  | disconnect (room : Bool)
  | accept (attached room : Bool)

def Br.step (br : Br) : BridgeEvent → Option Br
  | .join => some { br with desk := br.desk.join }
  | .leave peer => some { br with stats := br.stats.map (·.peerDone peer), desk := br.desk.leave peer }
  | .sessionStats peer params id sent room =>
    if peer ∈ br.desk.clients then some (br.handleSessionStats peer params id sent room) else none
  | .message h cnt room => if br.bfdd then some (br.messageCb h cnt room) else none
  | .disconnect room => some (br.clientClose room)
  | .accept attached room => some (br.clientAccept attached room)

def Br.start : Br := ⟨false, none, [], [], .empty⟩

def bridge : System Br BridgeEvent := .ofStep .start Br.step

/-- The request in the slot has been waiting since the last counters came, and
its client is there or has left the slot without a peer. -/
def Holds (br : Br) (stats : BrStats) : Prop :=
  ∃ peer, br.desk.issued[stats.no]? = some ⟨peer, stats.id, some ⟨stats.discr, br.heard.length⟩⟩ ∧
    (stats.peer = some peer ∨ stats.peer = none ∧ peer ∉ br.desk.clients)

/-- A request gets an error or the first counters that come after it. -/
def Admits (heard : List SessionCounters) (r : StatsCall) (a : StatsAnswer) : Prop :=
  a.peer = r.peer ∧ a.id = r.id ∧ (a.reply.isError = true ∨
    ∃ s ∈ r.asked, ∃ cnt ∈ heard[s.since]?, a.reply = sessionCounters s.discr cnt)

structure Br.Ok (br : Br) : Prop where
  owes : Owes StatsCall.peer br.desk (br.stats.toList.map (·.no))
  holds : ∀ stats ∈ br.stats, Holds br stats
  answers : Answers (Admits br.heard) br.desk

section

variable {br br' : Br} {stats : BrStats} {peer no : Nat} {id params : Value} {reply : Reply}
    {sent : Except String Unit}
  {room : Bool}

theorem Br.Ok.start : Br.start.Ok where
  owes := .empty
  holds := by
    intro stats hs
    cases hs
  answers := by
    intro a ha
    cases ha

theorem Br.Ok.refuse (h : br.Ok) (hp : peer ∈ br.desk.clients) (he : reply.isError = true) :
    (br.refuse peer id reply room).Ok where
  owes := (h.owes.issue hp).answer
  holds := by
    intro stats hs
    obtain ⟨p, hr, hpeer⟩ := h.holds stats hs
    exact ⟨p, getElem?_issue hr, hpeer⟩
  answers := by
    refine (h.answers.issue _).answer (fun a ha => ?_)
    cases List.mem_singleton.mp ha
    exact ⟨_, getElem?_next _ _, rfl, rfl, .inl he⟩

theorem Br.Ok.sessionStats (h : br.Ok) (hp : peer ∈ br.desk.clients) :
    (br.handleSessionStats peer params id sent room).Ok := by
  unfold Br.handleSessionStats
  split
  · exact h.refuse hp rfl
  split
  · exact h.refuse hp rfl
  rename_i hnone
  cases dissectParamsStats params with
  | error e => exact h.refuse hp rfl
  | ok discr =>
    cases sent with
    | error e => exact h.refuse hp rfl
    | ok _ =>
      have hs : br.stats = none := by simpa using hnone
      refine ⟨?_, ?_, h.answers.issue _⟩
      · have howes := h.owes.issue (r := ⟨peer, id, some ⟨discr, br.heard.length⟩⟩) hp
        simpa [hs] using howes
      · rintro stats ⟨⟩
        exact ⟨peer, getElem?_next _ _, .inl rfl⟩

theorem Admits.heard {heard heard' : List SessionCounters} {r : StatsCall} {a : StatsAnswer}
    (h : Admits heard r a) (hh : heard <+: heard') : Admits heard' r a := by
  obtain ⟨hp, hi, h⟩ := h
  obtain ⟨more, rfl⟩ := hh
  refine ⟨hp, hi, h.imp_right ?_⟩
  rintro ⟨s, hs, cnt, hcnt, hreply⟩
  refine ⟨s, hs, cnt, ?_, hreply⟩
  rwa [List.getElem?_append_left (List.getElem?_eq_some_iff.mp hcnt).1]

theorem Br.Ok.statsClose (h : br.Ok) (hs : br.stats = some stats) {heard : List SessionCounters}
    (hh : br.heard <+: heard)
    (hreply : ∀ peer, Admits heard ⟨peer, stats.id, some ⟨stats.discr, br.heard.length⟩⟩
      ⟨peer, stats.id, reply, room⟩) :
    ({ br with heard := heard }.statsClose stats reply room).Ok := by
  obtain ⟨peer, hr, hpeer⟩ := h.holds stats hs
  have howes := h.owes
  have hans : Answers (Admits heard) br.desk := h.answers.mono (fun _ _ ha => ha.heard hh)
  have hempty : ∀ st ∈ (none : Option BrStats), ∀ br : Br, Holds br st := by
    intro st hst
    cases hst
  rw [hs] at howes
  rcases hpeer with hpeer | ⟨hpeer, hgone⟩
  · simp only [Br.statsClose, hpeer]
    have hdone : Owes StatsCall.peer (br.desk.answer [(stats.no, ⟨peer, stats.id, reply, room⟩)])
      [] := howes.answer
    refine ⟨hdone, fun st hst => hempty st hst _, hans.answer (fun a ha => ?_)⟩
    cases List.mem_singleton.mp ha
    exact ⟨_, hr, hreply peer⟩
  · simp only [Br.statsClose, hpeer]
    refine ⟨howes.drop (List.nil_sublist _) (fun no r hm _ hr' => ?_), fun st hst => hempty st hst _, hans⟩
    cases List.mem_singleton.mp hm
    cases hr.symm.trans hr'
    exact hgone

theorem Br.Ok.message (h : br.Ok) (hd : Header) (cnt : SessionCounters) (room : Bool) :
    (br.messageCb hd cnt room).Ok := by
  have hh : br.heard <+: br.heard ++ [cnt] := List.prefix_append _ _
  have hfirst : (br.heard ++ [cnt])[br.heard.length]? = some cnt := by simp
  unfold Br.messageCb
  split
  · exact h
  split
  · unfold Br.handleSessionCounters
    split
    · rename_i hs
      refine ⟨h.owes, ?_, h.answers.mono (fun _ _ ha => ha.heard hh)⟩
      intro stats hst
      cases hs.symm.trans hst
    · rename_i stats hs
      exact h.statsClose hs hh (fun _ => ⟨rfl, rfl, .inr ⟨_, rfl, cnt, hfirst, rfl⟩⟩)
  · exact h

theorem Br.Ok.withBfdd (h : br.Ok) (bfdd : Bool) : Br.Ok { br with bfdd := bfdd } :=
  ⟨h.owes, h.holds, h.answers⟩

theorem Br.Ok.close (h : br.Ok) (room : Bool) : (br.clientClose room).Ok := by
  unfold Br.clientClose
  split
  · exact h
  split
  · exact h.withBfdd false
  · rename_i stats hs
    exact (h.statsClose hs List.prefix_rfl (fun _ => ⟨rfl, rfl, .inl rfl⟩)).withBfdd false

theorem Br.Ok.leave (h : br.Ok) (peer : Nat) :
    Br.Ok { br with stats := br.stats.map (·.peerDone peer), desk := br.desk.leave peer } where
  owes := by
    have hno : ∀ stats : BrStats, (stats.peerDone peer).no = stats.no := by
      intro stats
      unfold BrStats.peerDone
      split <;> rfl
    have howes := h.owes.leave peer
    cases hs : br.stats with
    | none => simpa [hs] using howes
    | some stats => simpa [hs, hno] using howes
  holds := by
    intro stats' hs'
    obtain ⟨stats, hs, rfl⟩ := Option.mem_map.mp hs'
    obtain ⟨p, hr, hpeer⟩ := h.holds stats hs
    unfold BrStats.peerDone
    split
    · rename_i heq
      -- It is its client that leaves.
      refine ⟨p, hr, .inr ⟨rfl, ?_⟩⟩
      rcases hpeer with hpeer | ⟨hpeer, -⟩
      · cases hpeer.symm.trans heq
        simp [Desk.leave]
      · cases hpeer.symm.trans heq
    · exact ⟨p, hr, hpeer.imp_right (fun ⟨hn, hgone⟩ => ⟨hn, fun hm => hgone (List.mem_of_mem_filter hm)⟩)⟩
  answers := h.answers

theorem Br.Ok.join (h : br.Ok) : Br.Ok { br with desk := br.desk.join } where
  owes := h.owes.join
  holds := by
    intro stats hs
    obtain ⟨p, hr, hpeer⟩ := h.holds stats hs
    refine ⟨p, hr, hpeer.imp_right (fun ⟨hn, hgone⟩ => ⟨hn, fun hm => ?_⟩)⟩
    have hlt := h.owes.joined _ (List.mem_of_getElem? hr)
    rcases List.mem_append.mp hm with hm | hm
    · exact hgone hm
    · exact Nat.ne_of_lt hlt (List.mem_singleton.mp hm)
  answers := h.answers

theorem Br.Ok.step (h : br.Ok) {e : BridgeEvent} (hs : br.step e = some br') : br'.Ok := by
  cases e with
  | join =>
    cases hs
    exact h.join
  | leave peer =>
    cases hs
    exact h.leave peer
  | sessionStats peer params id sent room =>
    obtain ⟨hp, hs⟩ := Option.ite_none_right_eq_some.mp hs
    cases hs
    exact h.sessionStats hp
  | message hd cnt room =>
    obtain ⟨-, hs⟩ := Option.ite_none_right_eq_some.mp hs
    cases hs
    exact h.message hd cnt room
  | disconnect room =>
    cases hs
    exact h.close room
  | accept attached room =>
    cases hs
    exact (h.close room).withBfdd attached

theorem bridge_ok (h : Reachable bridge br) : br.Ok := by
  refine Reachable.invariant ?_ (fun br e br' hbr hs => hbr.step hs) h
  rintro br rfl
  exact .start

end

def Br.received (br : Br) (no : Nat) : List StatsAnswer := (br.desk.answersTo no).filter (·.queued)

/-- An error, or counters that came after the request in a message about the
session whose label they bear. -/
def Sourced (heard : List SessionCounters) (r : StatsCall) (a : StatsAnswer) : Prop :=
  a.peer = r.peer ∧ a.id = r.id ∧ (a.reply.isError = true ∨
    ∃ s ∈ r.asked, ∃ k ≥ s.since, ∃ cnt ∈ heard[k]?, ntoh32 cnt.lid = s.discr ∧
      a.reply = sessionCounters s.discr cnt)

/-- A request gets at most one response, and it is as it should be if the first
counters that come after the request are of the session it is about. -/
theorem stats_correlated {br : Br} (h : Reachable bridge br) {no : Nat} {r : StatsCall}
    (hr : br.desk.issued[no]? = some r) :
    (br.received no).length ≤ 1 ∧
      ((∀ s ∈ r.asked, ∀ cnt ∈ br.heard[s.since]?, ntoh32 cnt.lid = s.discr) → ∀ a ∈ br.received no,
        Sourced br.heard r a) := by
  have hok := bridge_ok h
  refine ⟨(List.length_filter_le _ _).trans (hok.owes.once no), fun hlid a ha => ?_⟩
  obtain ⟨hp, hi, hadm⟩ := hok.answers.of_mem hr (List.mem_of_mem_filter ha)
  refine ⟨hp, hi, hadm.imp_right ?_⟩
  rintro ⟨s, hs, cnt, hcnt, hreply⟩
  exact ⟨s, hs, s.since, Nat.le_refl _, cnt, hcnt, hlid s hs cnt hcnt, hreply⟩

def countersOf (lid : UInt32) : Header × SessionCounters := replyCounters 1 lid 52 1 104 2

def selectDiscr (discr : UInt32) : Value := .obj [("select", .obj [("discr", .int discr.toNat)])]

theorem stats_correlated_late : ∃ br, Reachable bridge br ∧ ∃ r a, br.desk.issued[0]? = some r ∧
    br.received 0 = [a] ∧
    a.reply = sessionCounters 5 (countersOf 5).2 ∧ Sourced br.heard r a := by
  obtain ⟨br, hbr, r, a, hr, ha, hreply, hs, hheard⟩ : ∃ br, Reachable bridge br ∧
    ∃ r a, br.desk.issued[0]? = some r ∧
      br.received 0 = [a] ∧ a.reply = sessionCounters 5 (countersOf 5).2 ∧ r.asked = some ⟨5, 1⟩ ∧
      br.heard[1]? = some (countersOf 5).2 :=
    exists_replay (fun _ _ => True)
      [.join, .accept true true, .message (countersOf 6).1 (countersOf 6).2 true,
        .sessionStats 0 (selectDiscr 5) (.int 1) (.ok ()) true, .message (countersOf 5).1 (countersOf 5).2 true]
      ⟨_, rfl, _, _, rfl, rfl, rfl, rfl, rfl⟩
  refine ⟨br, hbr, r, a, hr, ha, hreply, (stats_correlated hbr hr).2 ?_ a (by simp [ha])⟩
  intro s hasked cnt hcnt
  cases hs.symm.trans hasked
  cases hheard.symm.trans hcnt
  decide

/-- A client asks for the counters of session 5, and counters of session 6 come
that nobody has asked for. -/
theorem stats_mislabelled : ∃ br, Reachable bridge br ∧ ∃ r a, br.desk.issued[0]? = some r ∧
    r.peer ∈ br.desk.clients ∧
    br.received 0 = [a] ∧ a.reply = sessionCounters 5 (countersOf 6).2 ∧ ¬ Sourced br.heard r a := by
  obtain ⟨br, hbr, r, a, hr, hc, ha, hreply, hs, hheard⟩ : ∃ br, Reachable bridge br ∧
    ∃ r a, br.desk.issued[0]? = some r ∧
      r.peer ∈ br.desk.clients ∧ br.received 0 = [a] ∧ a.reply = sessionCounters 5 (countersOf 6).2 ∧
      r.asked = some ⟨5, 0⟩ ∧ br.heard = [(countersOf 6).2] :=
    exists_replay (fun _ _ => True)
      [.join, .accept true true, .sessionStats 0 (selectDiscr 5) (.int 1) (.ok ()) true,
        .message (countersOf 6).1 (countersOf 6).2 true]
      ⟨_, rfl, _, _, rfl, by decide, rfl, rfl, rfl, rfl⟩
  refine ⟨br, hbr, r, a, hr, hc, ha, hreply, ?_⟩
  rintro ⟨-, -, herr | ⟨s, hasked, k, -, cnt, hcnt, hlid, -⟩⟩
  · rw [hreply] at herr
    cases herr
  · cases hs.symm.trans hasked
    rw [hheard] at hcnt
    cases List.mem_singleton.mp (List.mem_of_getElem? hcnt)
    exact absurd hlid (by decide)

end Bbdd.Bridge
