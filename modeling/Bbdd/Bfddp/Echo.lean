import Bbdd.Bfddp.Message
import Bbdd.Control.Peer
import Bbdd.Lib.Requests
import Bbdd.Lib.Transition

namespace Bbdd.Bfddp

open Lib.Json Lib.Wire Lib.Requests Lib.Transition Control

def echoRequest : UInt16 := 0
def echoReply : UInt16 := 1

structure BfddpEcho where
  dpTime : Be64
  bfddTime : Be64
  deriving DecidableEq, Repr

structure EchoMessage where
  header : Header
  echo : BfddpEcho
  deriving DecidableEq, Repr

def echo : Layout BfddpEcho :=
  (quad.seq quad).as (fun (dpTime, bfddTime) => ⟨dpTime, bfddTime⟩)
    (fun e => (e.dpTime, e.bfddTime)) (fun _ => rfl)

def echoHeader (type msgId : UInt16) : Header where
  version := bfdDpVersion
  zero := 0
  type := hton16 type
  id := hton16 msgId
  length := hton16 (.ofNat (header.size + echo.size))

def sendEcho (msgId : UInt16) (timeUs : UInt64) (isDp : Bool) : EchoMessage where
  header := echoHeader echoRequest msgId
  echo := ⟨if isDp then hton64 timeUs else hton64 0, if isDp then hton64 0 else hton64 timeUs⟩

def replyEcho (msgId : UInt16) (inEcho : BfddpEcho) (now : UInt64) (isDp : Bool) : EchoMessage where
  header := echoHeader echoReply msgId
  echo := ⟨if isDp then hton64 now else inEcho.dpTime, if isDp then inEcho.bfddTime else hton64 now⟩

def BfddpEcho.time (e : BfddpEcho) (isDp : Bool) : UInt64 :=
  if isDp then ntoh64 e.dpTime else ntoh64 e.bfddTime

@[simp] theorem time_sendEcho (msgId : UInt16) (timeUs : UInt64) (isDp : Bool) :
    (sendEcho msgId timeUs isDp).echo.time isDp = timeUs := by
  cases isDp <;> simp [sendEcho, BfddpEcho.time]

def EchoMessage.Echoes (isDp : Bool) (request reply : EchoMessage) : Prop :=
  ntoh16 reply.header.type = echoReply ∧ reply.echo.time isDp = request.echo.time isDp

instance (isDp : Bool) (request reply : EchoMessage) : Decidable (EchoMessage.Echoes isDp request reply) :=
  inferInstanceAs (Decidable (_ ∧ _))

structure EchoPeer where
  peer : Nat
  id : Value
  isDp : Bool
  no : Nat

/-- The connection. The messages on their way are listed with the numbers of the
requests they go back to, which they do not carry. -/
structure Bfdd where
  link : Nat
  echoPeers : List EchoPeer
  toRemote : List (Nat × EchoMessage)
  fromRemote : List (Nat × EchoMessage)

structure EchoSent where
  link : Nat
  ts : UInt64
  ahead : Nat
  deriving DecidableEq, Repr

structure EchoCall where
  peer : Nat
  id : Value
  sent : Option EchoSent

/-- A response, the connection there was when it was given, and whether the
client's buffer had room for it. -/
structure EchoAnswer where
  peer : Nat
  id : Value
  reply : Reply
  link : Option Nat
  queued : Bool

structure Exchange where
  bfdd : Option Bfdd
  opened : Nat
  desk : Desk EchoCall EchoAnswer

def respondEcho (ts replyTs : UInt64) : Reply :=
  .result (.obj (build [("ts", some (.int ts.toNat)), ("reply_ts", some (.int replyTs.toNat))]))

def Exchange.respond (x : Exchange) (room : Nat → Bool) (peers : List EchoPeer)
    (reply : EchoPeer → Reply) : Exchange :=
  { x with desk := x.desk.answer (peers.map
    (fun p => (p.no, ⟨p.peer, p.id, reply p, x.bfdd.map (·.link), room p.no⟩))) }

def echoPeerInit (b : Bfdd) (epeer : EchoPeer) (init : Except String Unit) : Except String Bfdd :=
  match init with
  | .error e => .error e
  | .ok () => .ok { b with echoPeers := b.echoPeers ++ [epeer] }

def echoPeerFini (b : Bfdd) (epeer : EchoPeer) : Bfdd :=
  { b with echoPeers := b.echoPeers.filter (·.no ≠ epeer.no) }

/-- Ask the remote for an echo on behalf of a client. The list entry may fail to
be made and the message may fail to be queued. -/
def Exchange.echoHandleStart (x : Exchange) (isDp : Bool) (peer : Nat) (id : Value) (now : UInt64)
    (init sent : Except String Unit) (room : Nat → Bool) : Exchange :=
  let epeer := ⟨peer, id, isDp, x.desk.next⟩
  let unsent := { x with desk := x.desk.issue ⟨peer, id, none⟩ }
  match x.bfdd with
  | none => unsent.respond room [epeer] (fun _ => interr "No BFDD client connected")
  | some b =>
    match echoPeerInit b epeer init with
    | .error e => unsent.respond room [epeer] (fun _ => interr e)
    | .ok b =>
      match sent with
      | .error e => { unsent with bfdd := some (echoPeerFini b epeer) }.respond room [epeer] (fun _ => interr e)
      | .ok () =>
        { x with
          bfdd := some { b with toRemote := b.toRemote ++ [(epeer.no, sendEcho 1 now isDp)] }
          desk := x.desk.issue ⟨peer, id, some ⟨b.link, now, (b.fromRemote ++ b.toRemote).length⟩⟩ }

def Exchange.echoHandleReply (x : Exchange) (b : Bfdd) (msg : EchoMessage) (room : Nat → Bool) : Exchange :=
  let bfddTime := ntoh64 msg.echo.bfddTime
  let dpTime := ntoh64 msg.echo.dpTime
  let x := x.respond room b.echoPeers
    (fun p => if p.isDp then respondEcho dpTime bfddTime else respondEcho bfddTime dpTime)
  { x with bfdd := some { b with echoPeers := [] } }

def Exchange.bfddClose (x : Exchange) (b : Bfdd) (room : Nat → Bool) : Exchange :=
  { x with bfdd := none }.respond room b.echoPeers (fun _ => interr "BFDD client disconnect")

def Bfdd.peerDone (b : Bfdd) (peer : Nat) : Bfdd :=
  { b with echoPeers := b.echoPeers.filter (·.peer ≠ peer) }

/-- What happens: clients come, leave and ask; the connection is made and lost;
the remote answers the next request; a reply arrives. -/
inductive EchoEvent
  | join
  | leave (peer : Nat)
  | start (peer : Nat) (id : Value) (now : UInt64) (init sent : Except String Unit) (room : Nat → Bool)
  | connect
  | close (room : Nat → Bool)
  | remote (reply : EchoMessage)
  | reply (room : Nat → Bool)

def Exchange.step (isDp : Bool) (x : Exchange) : EchoEvent → Option Exchange
  | .join => some { x with desk := x.desk.join }
  | .leave peer => some { x with bfdd := x.bfdd.map (·.peerDone peer), desk := x.desk.leave peer }
  | .start peer id now init sent room =>
    if peer ∈ x.desk.clients then some (x.echoHandleStart isDp peer id now init sent room) else none
  | .connect => if x.bfdd.isNone then some { x with bfdd := some ⟨x.opened, [], [], []⟩, opened :=
      x.opened + 1 } else none
  | .close room => x.bfdd.map (fun b => x.bfddClose b room)
  | .remote reply => x.bfdd.bind fun b =>
    match b.toRemote with
    | (no, request) :: rest =>
      if request.Echoes isDp reply then
        some { x with bfdd := some { b with toRemote := rest, fromRemote := b.fromRemote ++ [(no, reply)] } }
      else none
    | [] => none
  | .reply room => x.bfdd.bind fun b =>
    match b.fromRemote with
    | (_, msg) :: rest => some (x.echoHandleReply { b with fromRemote := rest } msg room)
    | [] => none

def exchange (isDp : Bool) : System Exchange EchoEvent := .ofStep ⟨none, 0, .empty⟩ (Exchange.step isDp)

def Exchange.refused (x : Exchange) (peer : Nat) (id : Value) (message : String)
    (room : Nat → Bool) : Exchange :=
  { x with desk := x.desk.issue ⟨peer, id, none⟩ }.respond room [⟨peer, id, false, x.desk.next⟩]
    (fun _ => interr message)

def Exchange.asked (x : Exchange) (b : Bfdd) (isDp : Bool) (peer : Nat) (id : Value)
    (now : UInt64) : Exchange :=
  { x with
    bfdd := some { b with
      echoPeers := b.echoPeers ++ [⟨peer, id, isDp, x.desk.next⟩]
      toRemote := b.toRemote ++ [(x.desk.next, sendEcho 1 now isDp)] }
    desk := x.desk.issue ⟨peer, id, some ⟨b.link, now, (b.fromRemote ++ b.toRemote).length⟩⟩ }

def Exchange.waiting (x : Exchange) : List Nat := (x.bfdd.map (·.echoPeers.map (·.no))).getD []

def Exchange.underWay (x : Exchange) : List Nat :=
  (x.bfdd.map (fun b => (b.fromRemote ++ b.toRemote).map Prod.fst)).getD []

section

variable {isDp : Bool} {x x' : Exchange} {b : Bfdd} {peer no : Nat} {id : Value} {now : UInt64}
    {init sent : Except String Unit}
  {room : Nat → Bool}

theorem echoPeerFini_added {epeer : EchoPeer} (h : ∀ p ∈ b.echoPeers, p.no ≠ epeer.no) :
    echoPeerFini { b with echoPeers := b.echoPeers ++ [epeer] } epeer = b := by
  have hkept : b.echoPeers.filter (·.no ≠ epeer.no) = b.echoPeers :=
    List.filter_eq_self.mpr (fun p hp => decide_eq_true (h p hp))
  rw [echoPeerFini, List.filter_append, hkept]
  simp

theorem echoHandleStart_cases (h : ∀ no ∈ x.waiting, no < x.desk.next) :
    (∃ message, x.echoHandleStart isDp peer id now init sent room = x.refused peer id message room) ∨
      ∃ b, x.bfdd = some b ∧ x.echoHandleStart isDp peer id now init sent room = x.asked b isDp peer id now := by
  cases hb : x.bfdd with
  | none => exact .inl ⟨"No BFDD client connected", by
      simp [Exchange.echoHandleStart, Exchange.refused, Exchange.respond, hb]⟩
  | some b =>
    cases init with
    | error e => exact .inl ⟨e, by
        simp [Exchange.echoHandleStart, Exchange.refused, Exchange.respond, echoPeerInit, hb]⟩
    | ok _ =>
      cases sent with
      | ok _ => exact .inr ⟨b, rfl, by simp [Exchange.echoHandleStart, Exchange.asked, echoPeerInit, hb]⟩
      | error e =>
        have hnew : ∀ p ∈ b.echoPeers, p.no ≠ x.desk.next := fun p hp =>
          Nat.ne_of_lt (h p.no (by simpa [Exchange.waiting, hb] using ⟨p, hp, rfl⟩))
        have hfini : echoPeerFini { b with echoPeers := b.echoPeers ++ [⟨peer, id, isDp, x.desk.next⟩] }
            ⟨peer, id, isDp, x.desk.next⟩ = b := echoPeerFini_added hnew
        refine .inl ⟨e, ?_⟩
        simp [Exchange.echoHandleStart, Exchange.refused, Exchange.respond, echoPeerInit, hb, hfini]

def Bfdd.wire (isDp : Bool) (b : Bfdd) : List (Nat × UInt64) :=
  (b.fromRemote ++ b.toRemote).map (fun m => (m.1, m.2.echo.time isDp))

/-- Somebody waits for a message that is still under way, and no reply has come
since it was sent. -/
def Waits (isDp : Bool) (x : Exchange) (b : Bfdd) (p : EchoPeer) : Prop :=
  ∃ s : EchoSent, x.desk.issued[p.no]? = some ⟨p.peer, p.id, some s⟩ ∧ s.link = b.link ∧ p.isDp = isDp ∧
    (b.wire isDp)[s.ahead]? = some (p.no, s.ts)

/-- The answers that a request may get. -/
def Admits (r : EchoCall) (a : EchoAnswer) : Prop :=
  a.peer = r.peer ∧ a.id = r.id ∧
    match r.sent with
    | none => a.reply.isError = true
    | some s =>
      if a.link = some s.link then ∃ ts replyTs, a.reply = respondEcho ts replyTs ∧
        (s.ahead = 0 → ts = s.ts) else a.reply.isError = true

structure Exchange.Ok (isDp : Bool) (x : Exchange) : Prop where
  owes : Owes EchoCall.peer x.desk x.waiting
  waits : ∀ b ∈ x.bfdd, ∀ p ∈ b.echoPeers, Waits isDp x b p
  answers : Answers Admits x.desk

theorem Exchange.Ok.start : Exchange.Ok isDp ⟨none, 0, .empty⟩ where
  owes := .empty
  waits := by
    intro b hb
    cases hb
  answers := by
    intro a ha
    cases ha

theorem Waits.issue {p : EchoPeer} (h : Waits isDp x b p) (r : EchoCall) :
    Waits isDp { x with desk := x.desk.issue r } b p := by
  obtain ⟨s, hr, hl⟩ := h
  exact ⟨s, getElem?_issue hr, hl⟩

theorem Exchange.Ok.refused (h : x.Ok isDp) (hp : peer ∈ x.desk.clients) (message : String)
    (room : Nat → Bool) :
    (x.refused peer id message room).Ok isDp where
  owes := (h.owes.issue hp).answer
  waits := fun b hb p hm => (h.waits b hb p hm).issue _
  answers := by
    refine (h.answers.issue _).answer (fun a ha => ?_)
    cases List.mem_singleton.mp ha
    exact ⟨_, getElem?_next _ _, rfl, rfl, rfl⟩

theorem Exchange.Ok.asked (h : x.Ok isDp) (hb : x.bfdd = some b) (hp : peer ∈ x.desk.clients) :
    (x.asked b isDp peer id now).Ok isDp where
  owes := by
    have howes := h.owes.issue (r := ⟨peer, id, some ⟨b.link, now, (b.fromRemote ++ b.toRemote).length⟩⟩) hp
    simpa [Exchange.waiting, Exchange.asked, hb] using howes
  waits := by
    rintro b' ⟨⟩ p hm
    have hwire : Bfdd.wire isDp { b with
        echoPeers := b.echoPeers ++ [⟨peer, id, isDp, x.desk.next⟩]
        toRemote := b.toRemote ++ [(x.desk.next, sendEcho 1 now isDp)] } = b.wire isDp ++
          [(x.desk.next, now)] := by
      simp [Bfdd.wire]
    rcases List.mem_append.mp hm with hm | hm
    · obtain ⟨s, hr, hl, hd, hw⟩ := h.waits b hb p hm
      refine ⟨s, getElem?_issue hr, hl, hd, ?_⟩
      rw [hwire, List.getElem?_append_left (List.getElem?_eq_some_iff.mp hw).1, hw]
    · cases List.mem_singleton.mp hm
      refine ⟨_, getElem?_next _ _, rfl, rfl, ?_⟩
      simp [Bfdd.wire]
  answers := h.answers.issue _

theorem Exchange.Ok.join (h : x.Ok isDp) : Exchange.Ok isDp { x with desk := x.desk.join } :=
  ⟨h.owes.join, h.waits, h.answers⟩

theorem Exchange.Ok.leave (h : x.Ok isDp) (peer : Nat) :
    Exchange.Ok isDp { x with bfdd := x.bfdd.map (·.peerDone peer), desk := x.desk.leave peer } where
  owes := by
    refine (h.owes.leave peer).drop ?_ ?_
    · cases hb : x.bfdd with
      | none => simp [Exchange.waiting, hb]
      | some b => simpa [Exchange.waiting, hb, Bfdd.peerDone]
          using (List.filter_sublist (p := fun p : EchoPeer => p.peer ≠ peer)).map _
    · intro no r ho hl hr hc
      cases hb : x.bfdd with
      | none => simp [Exchange.waiting, hb] at ho
      | some b =>
        simp only [Exchange.waiting, hb, Option.map_some, Option.getD_some, Bfdd.peerDone] at ho hl
        obtain ⟨p, hp, rfl⟩ := List.mem_map.mp ho
        obtain ⟨s, hs, -⟩ := h.waits b hb p hp
        cases hs.symm.trans hr
        have hne : p.peer ≠ peer := by simpa using (List.mem_filter.mp hc).2
        exact hl (List.mem_map_of_mem (List.mem_filter.mpr ⟨hp, decide_eq_true hne⟩))
  waits := by
    intro b' hb' p hp
    obtain ⟨b, hb, rfl⟩ := Option.mem_map.mp hb'
    exact h.waits b hb p (List.mem_of_mem_filter hp)
  answers := h.answers

theorem Exchange.Ok.connect (h : x.Ok isDp) (hb : x.bfdd = none) (link opened : Nat) :
    Exchange.Ok isDp { x with bfdd := some ⟨link, [], [], []⟩, opened := opened } where
  owes := by
    have howes := h.owes
    rw [Exchange.waiting, hb] at howes
    exact howes
  waits := by
    rintro b' ⟨⟩ p hp
    cases hp
  answers := h.answers

theorem Exchange.Ok.respond (h : x.Ok isDp) (hb : x.bfdd = some b) {bfdd : Option Bfdd}
    (hnone : ∀ b ∈ bfdd, b.echoPeers = [])
    {reply : EchoPeer → Reply} {link : Option Nat} (room : Nat → Bool)
    (hreply : ∀ p ∈ b.echoPeers, ∀ s : EchoSent, (b.wire isDp)[s.ahead]? = some (p.no, s.ts) →
      s.link = b.link → p.isDp = isDp →
      Admits ⟨p.peer, p.id, some s⟩ ⟨p.peer, p.id, reply p, link, room p.no⟩) :
    Exchange.Ok isDp { x with
      bfdd := bfdd
      desk := x.desk.answer (b.echoPeers.map (fun p => (p.no, ⟨p.peer, p.id, reply p, link, room p.no⟩))) } where
  owes := by
    have hw : ∀ {desk : Desk EchoCall EchoAnswer}, Exchange.waiting ⟨bfdd, x.opened, desk⟩ = [] := by
      intro desk
      cases bfdd with
      | none => rfl
      | some b => simp [Exchange.waiting, hnone b rfl]
    have howes := h.owes
    rw [Exchange.waiting, hb] at howes
    rw [hw]
    apply Owes.answer
    simpa [Function.comp_def] using howes
  waits := by
    intro b' hb' p hp
    rw [hnone b' hb'] at hp
    cases hp
  answers := by
    refine h.answers.answer (fun a ha => ?_)
    obtain ⟨p, hp, rfl⟩ := List.mem_map.mp ha
    obtain ⟨s, hr, hl, hd, hw⟩ := h.waits b hb p hp
    exact ⟨_, hr, hreply p hp s hw hl hd⟩

theorem Exchange.Ok.close (h : x.Ok isDp) (hb : x.bfdd = some b) (room : Nat → Bool) :
    (x.bfddClose b room).Ok isDp := by
  refine h.respond hb (by rintro b ⟨⟩) room (fun p hp s hw hl hd => ?_)
  exact ⟨rfl, rfl, rfl⟩

theorem Exchange.Ok.remote (h : x.Ok isDp) (hb : x.bfdd = some b) {request reply : EchoMessage}
    {rest : List (Nat × EchoMessage)} (hto : b.toRemote = (no, request) :: rest)
    (he : request.Echoes isDp reply) :
    Exchange.Ok isDp { x with bfdd := some { b with toRemote := rest, fromRemote := b.fromRemote ++
      [(no, reply)] } } where
  owes := by
    have howes := h.owes
    rw [Exchange.waiting, hb] at howes
    exact howes
  waits := by
    rintro b' ⟨⟩ p hp
    -- The reply takes the place of the request.
    have hwire : Bfdd.wire isDp
      { b with toRemote := rest, fromRemote := b.fromRemote ++ [(no, reply)] } = b.wire isDp := by
      simp [Bfdd.wire, hto, he.2]
    obtain ⟨s, hr, hl, hd, hw⟩ := h.waits b hb p hp
    exact ⟨s, hr, hl, hd, by rw [hwire, hw]⟩
  answers := h.answers

theorem Exchange.Ok.reply (h : x.Ok isDp) (hb : x.bfdd = some b) {msg : EchoMessage}
    {rest : List (Nat × EchoMessage)} (hfrom : b.fromRemote = (no, msg) :: rest)
    (room : Nat → Bool) :
    (x.echoHandleReply { b with fromRemote := rest } msg room).Ok isDp := by
  refine h.respond hb ?_ room (fun p hp s hw hl hd => ?_)
  · rintro b' ⟨⟩
    rfl
  · have hlink : x.bfdd.map (·.link) = some s.link := by rw [hb, hl, Option.map_some]
    refine ⟨rfl, rfl, ?_⟩
    simp only [hlink, if_true]
    refine ⟨msg.echo.time isDp, msg.echo.time !isDp, ?_, fun hahead => ?_⟩
    · cases isDp <;> simp [hd, BfddpEcho.time]
    · simp only [hahead, Bfdd.wire, hfrom, List.cons_append, List.map_cons, List.getElem?_cons_zero,
        Option.some.injEq,
        Prod.mk.injEq] at hw
      exact hw.2

theorem Exchange.Ok.step (h : x.Ok isDp) {e : EchoEvent} (hs : x.step isDp e = some x') : x'.Ok isDp := by
  cases e with
  | join =>
    cases hs
    exact h.join
  | leave peer =>
    cases hs
    exact h.leave peer
  | start peer id now init sent room =>
    obtain ⟨hp, hs⟩ := Option.ite_none_right_eq_some.mp hs
    cases hs
    have hlt : ∀ no ∈ x.waiting, no < x.desk.next := fun no hm => h.owes.issued no (List.mem_append_left _ hm)
    obtain ⟨message, heq⟩ | ⟨b, hb, heq⟩ := echoHandleStart_cases hlt
    · rw [heq]
      exact h.refused hp message room
    · rw [heq]
      exact h.asked hb hp
  | connect =>
    obtain ⟨hb, hs⟩ := Option.ite_none_right_eq_some.mp hs
    cases hs
    exact h.connect (Option.isNone_iff_eq_none.mp hb) _ _
  | close room =>
    obtain ⟨b, hb, rfl⟩ := Option.map_eq_some_iff.mp hs
    exact h.close hb room
  | remote reply =>
    obtain ⟨b, hb, hs⟩ := Option.bind_eq_some_iff.mp hs
    split at hs
    · rename_i no request rest hto
      obtain ⟨he, hs⟩ := Option.ite_none_right_eq_some.mp hs
      cases hs
      exact h.remote hb hto he
    · cases hs
  | reply room =>
    obtain ⟨b, hb, hs⟩ := Option.bind_eq_some_iff.mp hs
    split at hs
    · rename_i no msg rest hfrom
      cases hs
      exact h.reply hb hfrom room
    · cases hs

theorem exchange_ok (h : Reachable (exchange isDp) x) : x.Ok isDp := by
  refine Reachable.invariant ?_ (fun x e x' hx hs => hx.step hs) h
  rintro x rfl
  exact .start

theorem Exchange.Ok.underWay (h : x.Ok isDp) (hw : no ∈ x.waiting) : no ∈ x.underWay := by
  cases hb : x.bfdd with
  | none => simp [Exchange.waiting, hb] at hw
  | some b =>
    simp only [Exchange.waiting, hb, Option.map_some, Option.getD_some] at hw
    obtain ⟨p, hp, rfl⟩ := List.mem_map.mp hw
    obtain ⟨s, -, -, -, hwire⟩ := h.waits b hb p hp
    obtain ⟨m, hm, hmk⟩ := List.mem_map.mp (List.mem_of_getElem? hwire)
    have hno : m.1 = p.no := congrArg Prod.fst hmk
    rw [Exchange.underWay, hb, ← hno]
    exact List.mem_map_of_mem hm

end

def Exchange.received (x : Exchange) (no : Nat) : List EchoAnswer := (x.desk.answersTo no).filter (·.queued)

/-- The answer that a request is meant to get: over the connection that was used
for it, the timestamp that was sent; an error if it is gone or was not used. -/
def Meant (r : EchoCall) (a : EchoAnswer) : Prop :=
  a.peer = r.peer ∧ a.id = r.id ∧
    match r.sent with
    | none => a.reply.isError = true
    | some s => if a.link = some s.link then ∃ replyTs, a.reply = respondEcho s.ts replyTs
        else a.reply.isError = true

theorem Admits.meant {r : EchoCall} {a : EchoAnswer} (h : Admits r a)
    (hs : ∀ s ∈ r.sent, s.ahead = 0) : Meant r a := by
  obtain ⟨hp, hi, h⟩ := h
  refine ⟨hp, hi, ?_⟩
  cases hsent : r.sent with
  | none => simpa [hsent] using h
  | some s =>
    simp only [hsent] at h ⊢
    split at h
    · rename_i hl
      obtain ⟨ts, replyTs, hreply, hts⟩ := h
      rw [if_pos hl]
      exact ⟨replyTs, by rw [hreply, hts (hs s hsent)]⟩
    · rename_i hl
      rwa [if_neg hl]

/-- A request gets at most one response. It has got one, given room, once nothing
is under way for it and its client is still there, and that is the one it is meant
to get if every message sent before its own had been answered by then. -/
theorem echo_correlated (isDp : Bool) {x : Exchange} (h : Reachable (exchange isDp) x) {no : Nat}
    {r : EchoCall} (hr : x.desk.issued[no]? = some r) :
    (x.received no).length ≤ 1 ∧
      (r.peer ∈ x.desk.clients → no ∉ x.underWay → (∀ a ∈ x.desk.answersTo no, a.queued = true) →
        (x.received no).length = 1) ∧
      ((∀ s ∈ r.sent, s.ahead = 0) → ∀ a ∈ x.received no, Meant r a) := by
  have hok := exchange_ok h
  refine ⟨?_, fun hc hu hroom => ?_, fun hs a ha => ?_⟩
  · exact (List.length_filter_le _ _).trans (hok.owes.once no)
  · rw [Exchange.received, List.filter_eq_self.mpr hroom]
    exact hok.owes.settled hr hc (fun hw => hu (hok.underWay hw))
  · exact (hok.answers.of_mem hr (List.mem_of_mem_filter ha)).meant hs

theorem echo_correlated_turns : ∃ x, Reachable (exchange true) x ∧
    ∃ r a, x.desk.issued[1]? = some r ∧ x.received 1 = [a] ∧
    r.sent = some ⟨0, 20, 0⟩ ∧ Meant r a := by
  obtain ⟨x, hx, r, a, hr, ha, hs⟩ : ∃ x, Reachable (exchange true) x ∧ ∃ r a, x.desk.issued[1]? = some r ∧
      x.received 1 = [a] ∧ r.sent = some ⟨0, 20, 0⟩ :=
    exists_replay (fun _ _ => True)
      [.join, .join, .connect, .start 0 (.int 1) 10 (.ok ()) (.ok ()) (fun _ => true),
        .remote (replyEcho 1 (sendEcho 1 10 true).echo 11 false), .reply (fun _ => true),
        .start 1 (.int 1) 20 (.ok ()) (.ok ()) (fun _ => true),
        .remote (replyEcho 1 (sendEcho 1 20 true).echo 21 false), .reply (fun _ => true)]
      ⟨_, rfl, _, _, rfl, rfl, rfl⟩
  refine ⟨x, hx, r, a, hr, ha, hs, (echo_correlated true hx hr).2.2 ?_ a (by simp [ha])⟩
  intro s hsent
  cases hs.symm.trans hsent
  rfl

theorem respondEcho_ts {ts ts' replyTs replyTs' : UInt64}
    (h : respondEcho ts replyTs = respondEcho ts' replyTs') : ts = ts' := by
  have hval : ∀ a b : UInt64, respondEcho a b = .result
    (.obj [("ts", .int a.toNat), ("reply_ts", .int b.toNat)]) := by
    intro a b
    rfl
  rw [hval, hval] at h
  injection h with h
  injection h with h
  injection h with h
  injection h with _ h
  injection h with h
  exact UInt64.toNat_inj.mp (Int.ofNat_inj.mp h)

theorem echo_crossed : ∃ x, Reachable (exchange true) x ∧ ∃ r a, x.desk.issued[1]? = some r ∧
    r.peer ∈ x.desk.clients ∧
    x.received 1 = [a] ∧ r.sent = some ⟨0, 20, 1⟩ ∧ a.link = some 0 ∧ a.reply = respondEcho 10 11 ∧
      ¬ Meant r a := by
  obtain ⟨x, hx, r, a, hr, hc, ha, hs, hl, hreply⟩ : ∃ x, Reachable (exchange true) x ∧
    ∃ r a, x.desk.issued[1]? = some r ∧
      r.peer ∈ x.desk.clients ∧ x.received 1 = [a] ∧ r.sent = some ⟨0, 20, 1⟩ ∧ a.link = some 0 ∧
      a.reply = respondEcho 10 11 :=
    exists_replay (fun _ _ => True)
      [.join, .join, .connect, .start 0 (.int 1) 10 (.ok ()) (.ok ()) (fun _ => true),
        .start 1 (.int 1) 20 (.ok ()) (.ok ()) (fun _ => true),
        .remote (replyEcho 1 (sendEcho 1 10 true).echo 11 false), .reply (fun _ => true)]
      ⟨_, rfl, _, _, rfl, by decide, rfl, rfl, rfl, rfl⟩
  refine ⟨x, hx, r, a, hr, hc, ha, hs, hl, hreply, ?_⟩
  rintro ⟨-, -, hm⟩
  simp only [hs, hl, if_true, hreply] at hm
  obtain ⟨replyTs, heq⟩ := hm
  exact absurd (respondEcho_ts heq) (by decide)

end Bbdd.Bfddp
