import Bbdd.Buffer
import Bbdd.Lib.Json
import Bbdd.Lib.SafeLoop

namespace Bbdd.Monitor

open Lib.Wire Lib.Json Lib.SafeLoop Buffer

inductive Topic
  | ringbuf
  | bfddi
  | bfddo
  | jrpc
  | session
  | error
  | debug
  deriving DecidableEq, Repr

abbrev Topics := Topic → Bool

/-- A use of memory that was freed, or of no memory at all. -/
inductive Crash
  | dangling
  | null
  deriving DecidableEq, Repr

/-- What callbacks are registered with a connection for. Only the tokener's
receive. -/
inductive Owner
  | tokener
  | client (id : Nat)
  | echo (id : Nat)
  | stats
  deriving DecidableEq, Repr

structure Cbs where
  id : Nat
  owner : Owner
  deriving DecidableEq, Repr

/-- A connection. What was ever queued on it is recorded for the sake of the argument. -/
structure Peer where
  fd : Nat
  tx : Sb
  cbs : List Cbs
  done : Bool
  debug : Bool
  queued : List Value

/-- As allocated, a client has a socket but no pointer to one. -/
inductive Kind
  | sock (peer cbs : Nat)
  | cb
  | blank
  deriving DecidableEq, Repr

structure Cli where
  id : Nat
  topics : Topics
  kind : Kind

structure EchoPeer where
  id : Nat
  peer : Nat
  cbs : Nat
  request : Value

structure Stats where
  peer : Option Nat
  cbs : Nat
  request : Value

/-- The monitor and the connections of the control socket. An object is named by
a number that is not used again; printed is what clients within the process got. -/
structure Hub where
  peers : Nat → Option Peer
  clients : List Cli
  echoPeers : List EchoPeer
  stats : Option Stats
  active : Topic → Nat
  eager : Bool
  fresh : Nat
  printed : List Value

def Hub.empty (eager : Bool) : Hub := ⟨fun _ => none, [], [], none, fun _ => 0, eager, 0, []⟩

/-- What an operation depends on besides the state: the C and the JSON library,
whether the poller takes a descriptor, and the time. -/
structure Conditions where
  serialize : Value → Bytes
  realloc : Realloc
  strerror : String
  pollSet : Nat → Bool
  nowMs : Nat

def Hub.setPeer (hub : Hub) (pid : Nat) (peer : Option Peer) : Hub :=
  { hub with peers := Function.update hub.peers pid peer }

section

variable (C : Conditions)

def peerNq (pid : Nat) (msg : Value) (hub : Hub) : Except Crash (Bool × Hub) :=
  match hub.peers pid with
  | none => .error .dangling
  | some peer =>
    if !C.pollSet pid then .ok (false, hub)
    else
      match peer.tx.pushLen C.realloc C.strerror (C.serialize msg) with
      | .error _ => .ok (false, hub)
      | .ok tx => .ok (true, hub.setPeer pid (some { peer with tx, queued := peer.queued ++ [msg] }))

def peerAddCbs (pid cid : Nat) (owner : Owner) (hub : Hub) : Except Crash Hub :=
  match hub.peers pid with
  | none => .error .dangling
  | some peer => .ok (hub.setPeer pid (some { peer with cbs := peer.cbs ++ [⟨cid, owner⟩] }))

def peerDelCbs (pid cid : Nat) (hub : Hub) : Except Crash Hub :=
  match hub.peers pid with
  | none => .error .dangling
  | some peer =>
    if cid ∈ peer.cbs.map Cbs.id then .ok
      (hub.setPeer pid (some { peer with cbs := peer.cbs.eraseP (·.id = cid) }))
    else .error .dangling

def allocClient (cli : Cli) (hub : Hub) : Hub :=
  { hub with clients := hub.clients ++ [cli], active := fun t => if cli.topics t then hub.active t +
    1 else hub.active t }

def deallocClient (cli : Cli) (hub : Hub) : Hub :=
  { hub with clients := hub.clients.eraseP (·.id = cli.id),
             active := fun t => if cli.topics t then hub.active t - 1 else hub.active t }

def unsubscribe (cli : Cli) (hub : Hub) : Except Crash Hub :=
  match cli.kind with
  | .sock pid cid => (peerDelCbs pid cid hub).map (deallocClient cli)
  | .cb => .ok (deallocClient cli hub)
  | .blank => .error .null

def subscribeSock (alloc addCbs : Bool) (pid : Nat) (topics : Topics) (hub : Hub) :
    Except Crash (Bool × Hub) :=
  if !alloc then .ok (false, hub)
  else if !addCbs then
    let cli : Cli := ⟨hub.fresh, topics, .blank⟩
    (unsubscribe cli (allocClient cli hub)).map (false, ·)
  else
    let subscribed := allocClient ⟨hub.fresh, topics, .sock pid (hub.fresh + 1)⟩
      { hub with fresh := hub.fresh + 2 }
    (peerAddCbs pid (hub.fresh + 1) (.client hub.fresh) subscribed).map (true, ·)

def subscribeCb (alloc : Bool) (topics : Topics) (hub : Hub) : Bool × Hub :=
  if !alloc then (false, hub)
  else (true, { allocClient ⟨hub.fresh, topics, .cb⟩ hub with fresh := hub.fresh + 1 })

def topicActive (topic : Topic) (hub : Hub) : Bool := hub.eager || hub.active topic > 0

def Hub.client? (hub : Hub) (id : Nat) : Option Cli := hub.clients.find? (·.id = id)

def sendOne (topic : Topic) (msg : Value) (id : Nat) (hub : Hub) : Except Crash Hub :=
  match hub.client? id with
  | none => .error .dangling
  | some cli =>
    if !cli.topics topic then .ok hub
    else
      match cli.kind with
      | .sock pid _ => do
        let queued ← peerNq C pid msg hub
        if queued.1 then .ok queued.2 else unsubscribe cli queued.2
      | .cb => .ok { hub with printed := hub.printed ++ [msg] }
      | .blank => .error .null

def Hub.clientIds (hub : Hub) : List Nat := hub.clients.map Cli.id

def notification (method : String) (params : Value) : Value :=
  .obj (build [("jsonrpc", some (.str "2.0")), ("method", some (.str method)),
    ("params", some (.obj (build [("ts", some (.int C.nowMs)), ("params", some params)])))])

def monSend (topic : Topic) (method : String) (params : Value) : Hub → Except Crash Hub :=
  forEachSafe Hub.clientIds .dangling (sendOne C topic (notification C method params))

def monSendActive (topic : Topic) (method : String) (params : Value) (hub : Hub) : Except Crash Hub :=
  if !topicActive topic hub then .ok hub else monSend C topic method params hub

def monSendDebug (text : String) : Hub → Except Crash Hub :=
  monSendActive C .debug "debug" (.obj (build [("msg", some (.str text))]))

def monSenderr (text : String) : Hub → Except Crash Hub :=
  monSendActive C .error "error" (.obj (build [("msg", some (.str text))]))

def onPeer (pid : Nat) (f : Peer → Peer) (hub : Hub) : Hub := hub.setPeer pid ((hub.peers pid).map f)

def markDone (pid : Nat) : Hub → Hub := onPeer pid fun peer => { peer with done := true }

def disableDebug (pid : Nat) : Hub → Hub := onPeer pid fun peer => { peer with debug := false }

def jrpcSendKeep (pid : Nat) (msg : Value) (report : Option String) (hub : Hub) : Except Crash Hub := do
  let queued ← peerNq C pid msg hub
  match queued.1, report with
  | false, some text => monSenderr C text queued.2
  | _, _ => .ok queued.2

def jrpcSendDone (pid : Nat) (msg : Value) (report : Option String) (hub : Hub) : Except Crash Hub :=
  jrpcSendKeep C pid msg report (markDone pid hub)

def handleSubscribe (pid : Nat) (topics : Topics) (alloc addCbs : Bool) (granted refused : Value)
    (hub : Hub) : Except Crash Hub := do
  let subscribed ← subscribeSock alloc addCbs pid topics hub
  if subscribed.1 then jrpcSendKeep C pid granted none (disableDebug pid subscribed.2)
  else jrpcSendDone C pid refused none subscribed.2

def bfddMonSendO (out : Except String (String × Value)) (hub : Hub) : Except Crash Hub :=
  if !topicActive .bfddo hub then .ok hub
  else
    match out with
    | .ok msg => monSend C .bfddo msg.1 msg.2 hub
    | .error text => monSenderr C text hub

def Hub.echoPeer? (hub : Hub) (id : Nat) : Option EchoPeer := hub.echoPeers.find? (·.id = id)

def echoPeerInit (alloc addCbs : Bool) (pid : Nat) (request : Value) (hub : Hub) :
    Except Crash (Option Nat × Hub) := do
  let hub ← monSendDebug C "echo peer init" hub
  if !alloc || !addCbs then .ok (none, hub)
  else
    let epeer : EchoPeer := ⟨hub.fresh, pid, hub.fresh + 1, request⟩
    let waiting : Hub := { hub with echoPeers := hub.echoPeers ++ [epeer], fresh := hub.fresh + 2 }
    (peerAddCbs pid epeer.cbs (.echo epeer.id) waiting).map (some epeer.id, ·)

def echoPeerFini (id : Nat) (hub : Hub) : Except Crash Hub :=
  match hub.echoPeer? id with
  | none => .error .dangling
  | some epeer => do
    let hub ← monSendDebug C "echo peer fini" hub
    peerDelCbs epeer.peer epeer.cbs { hub with echoPeers := hub.echoPeers.eraseP (·.id = id) }

def echoPeerDone (id : Nat) (hub : Hub) : Except Crash Hub := do
  let hub ← monSendDebug C "echo peer gone" hub
  echoPeerFini C id hub

def Hub.echoIds (hub : Hub) : List Nat := hub.echoPeers.map EchoPeer.id

def echoPeersFree : Hub → Except Crash Hub := forEachSafe Hub.echoIds .dangling (echoPeerFini C)

/-- Ask the BFD daemon for an echo. The request waits unless it could not be
sent on. -/
def echoHandleStart (pid : Nat) (alloc addCbs sent : Bool) (request refused : Value)
    (out : Except String (String × Value)) (hub : Hub) :
    Except Crash Hub := do
  let started ← echoPeerInit C alloc addCbs pid request hub
  match started.1 with
  | none => jrpcSendDone C pid refused none started.2
  | some id =>
    if sent then bfddMonSendO C out started.2
    else
      let hub ← echoPeerFini C id started.2
      jrpcSendDone C pid refused none hub

def echoPeersEnd (answer : Value → Value) (report : Option String) (hub : Hub) : Except Crash Hub := do
  let hub ← hub.echoPeers.foldlM
    (fun hub epeer => jrpcSendDone C epeer.peer (answer epeer.request) report hub) hub
  echoPeersFree C hub

def echoHandleReply (answer : Value → Value) : Hub → Except Crash Hub :=
  echoPeersEnd C answer (some "Failed to send echo response")

def bfddCloseB (answer : Value → Value) : Hub → Except Crash Hub := echoPeersEnd C answer none

def statsFree (stats : Stats) (hub : Hub) : Except Crash Hub := do
  let hub ← match stats.peer with
    | none => .ok hub
    | some pid => peerDelCbs pid stats.cbs hub
  .ok { hub with stats := none }

def handleSessionStats (pid : Nat) (alloc addCbs sent : Bool) (request pending refused : Value)
    (out : Except String (String × Value)) (hub : Hub) : Except Crash Hub :=
  match hub.stats with
  | some _ => jrpcSendDone C pid pending none hub
  | none =>
    if !alloc || !addCbs then jrpcSendDone C pid refused none hub
    else do
      let stats : Stats := ⟨some pid, hub.fresh, request⟩
      let hub ← peerAddCbs pid stats.cbs .stats { hub with stats := some stats, fresh := hub.fresh + 1 }
      if sent then bfddMonSendO C out hub
      else
        let hub ← statsFree stats hub
        jrpcSendDone C pid refused none hub

/-- The request for counters is answered, if its connection is still there, and
forgotten. -/
def statsClose (answer : Value → Value) (hub : Hub) : Except Crash Hub :=
  match hub.stats with
  | none => .ok hub
  | some stats => do
    let hub ← match stats.peer with
      | none => .ok hub
      | some pid => jrpcSendDone C pid (answer stats.request) none hub
    statsFree stats hub

/-- What the handler of a request does to the monitor and the connection. A
response is the last thing on a connection unless it grants a subscription. If
it cannot be queued it is lost, which may be reported. -/
inductive Action
  | publish (topic : Topic) (method : String) (params : Value)
  | respond (msg : Value) (report : Option String)
  | subscribe (topics : Topics) (alloc addCbs : Bool) (granted refused : Value)
  | echo (alloc addCbs sent : Bool) (request refused : Value) (out : Except String (String × Value))
  | stats (alloc addCbs sent : Bool) (request pending refused : Value) (out : Except String (String × Value))
  | disconnect (answer : Value → Value)

def runAction (pid : Nat) (hub : Hub) : Action → Except Crash Hub
  | .publish topic method params => monSendActive C topic method params hub
  | .respond msg report => jrpcSendDone C pid msg report hub
  | .subscribe topics alloc addCbs granted refused => handleSubscribe C pid topics alloc addCbs
      granted refused hub
  | .echo alloc addCbs sent request refused out => echoHandleStart C pid alloc addCbs sent request
      refused out hub
  | .stats alloc addCbs sent request pending refused out => handleSessionStats C pid alloc addCbs
      sent request pending refused out hub
  | .disconnect answer => bfddCloseB C answer hub

def runActions (pid : Nat) (actions : List Action) (hub : Hub) : Except Crash Hub :=
  actions.foldlM (runAction C pid) hub

end

structure Chunk where
  C : Conditions
  len : Nat
  actions : List Action
  failed : Option String

inductive Ending
  | again
  | failed (error : String)
  | eof (C : Conditions) (actions : List Action)

/-- How a loop over the registrations is left early. -/
inductive Exit
  | crash (k : Crash)
  | failed (error : String) (hub : Hub)

def cbsIds (pid : Nat) (hub : Hub) : List Nat :=
  ((hub.peers pid).map (fun peer => peer.cbs.map Cbs.id)).getD []

def cbsOwner (pid cid : Nat) (hub : Hub) : Option Owner :=
  (hub.peers pid).bind fun peer => (peer.cbs.find? (·.id = cid)).map Cbs.owner

/-- What a registration does with received bytes. Only the tokener's does
anything. -/
def rxCb (C : Conditions) (pid : Nat) (actions : List Action) (failed : Option String) (cid : Nat)
    (hub : Hub) : Except Exit Hub :=
  match cbsOwner pid cid hub with
  | some .tokener =>
    match runActions C pid actions hub, failed with
    | .error k, _ => .error (.crash k)
    | .ok hub, none => .ok hub
    | .ok hub, some e => .error (.failed e hub)
  | _ => .ok hub

/-- A registration that is added meanwhile does not receive, so that it makes no
difference that the loop is left before it. -/
def rxCbs (C : Conditions) (pid : Nat) (actions : List Action) (failed : Option String)
    (hub : Hub) : Except Crash (Option String × Hub) :=
  match forEachSafe (cbsIds pid) (.crash .dangling) (rxCb C pid actions failed) hub with
  | .ok hub => .ok (none, hub)
  | .error (.crash k) => .error k
  | .error (.failed e hub) => .ok (some e, hub)

def reportDebug (C : Conditions) (pid : Nat) (text : Peer → String) (hub : Hub) : Except Crash Hub :=
  match hub.peers pid with
  | none => .error .dangling
  | some peer => if peer.debug then monSendDebug C (text peer) hub else .ok hub

def rxChunk (pid : Nat) (chunk : Chunk) (hub : Hub) : Except Crash (Option String × Hub) := do
  let hub ← reportDebug chunk.C pid (fun peer => s!"fd {peer.fd}: received {chunk.len} bytes") hub
  rxCbs chunk.C pid chunk.actions chunk.failed hub

def peerRx (pid : Nat) : List Chunk → Ending → Hub → Except Crash (Option String × Hub)
  | [], .again, hub => .ok (none, hub)
  | [], .failed e, hub => .ok (some s!"recv: {e}", hub)
  | [], .eof C actions, hub => rxCbs C pid actions none hub
  | chunk :: chunks, ending, hub =>
    match rxChunk pid chunk hub with
    | .error k => .error k
    | .ok (some e, hub) => .ok (some e, hub)
    | .ok (none, hub) => peerRx pid chunks ending hub

inductive Sent
  | again
  | failed (error : String)
  | took (len : Nat)

section

variable (C : Conditions)

def peerTx (pid : Nat) (sent : Sent) (hub : Hub) : Except Crash (Option String × Hub) :=
  match sent with
  | .again => .ok (none, hub)
  | .failed e => .ok (some s!"send: {e}", hub)
  | .took len => do
    let hub ← reportDebug C pid (fun peer => s!"fd {peer.fd}: sent {len} bytes") hub
    .ok (none, onPeer pid (fun peer => { peer with tx := (peer.tx.pull len).toOption.getD peer.tx }) hub)

def flush (pid : Nat) (sends : Nat → Sent) : Nat → Hub → Except Crash Hub
  | 0, hub => .ok hub
  | left + 1, hub =>
    match hub.peers pid with
    | none => .error .dangling
    | some peer =>
      if peer.tx.len = 0 then .ok hub
      else
        match peerTx C pid (sends left) hub with
        | .error k => .error k
        | .ok (some _, hub) => .ok hub
        | .ok (none, hub) =>
          if left = 0 then monSendDebug C s!"fd {peer.fd}: giving up attempting to flush" hub
            else flush pid sends left hub

/-- A registration is told that the connection is done. A client of the monitor
and a request that waits for an echo go, a request for counters stays. -/
def doneCb (pid cid : Nat) (hub : Hub) : Except Crash Hub :=
  match cbsOwner pid cid hub with
  | some (.client id) =>
    match hub.client? id with
    | none => .error .dangling
    | some cli => unsubscribe cli hub
  | some (.echo id) => echoPeerDone C id hub
  | some .stats =>
    match hub.stats with
    | none => .error .dangling
    | some stats => .ok { hub with stats := some { stats with peer := none } }
  | _ => .ok hub

def unsetFd (fd : Nat) (unset : Bool) (hub : Hub) : Except Crash Hub :=
  if unset then .ok hub else monSenderr C s!"client_destroy: FD {fd} not found" hub

def peerDestroy (pid : Nat) (sends : Nat → Sent) (unset : Bool) (hub : Hub) : Except Crash Hub :=
  match hub.peers pid with
  | none => .error .dangling
  | some peer => do
    let hub ← flush C pid sends 101 hub
    let hub ← forEachSafe (cbsIds pid) .dangling (doneCb C pid) hub
    let hub ← forEachSafe (cbsIds pid) .dangling (peerDelCbs pid) hub
    let hub ← unsetFd C peer.fd unset hub
    .ok (hub.setPeer pid none)

end

/-- What the poller reports of a connection, and what the system calls say that follow. -/
structure Poll where
  C : Conditions
  pollin : Bool
  pollhup : Bool
  pollout : Bool
  chunks : List Chunk
  ending : Ending
  sent : Sent
  reset : Option String
  sends : Nat → Sent
  unset : Bool

def giveUp (ev : Poll) (text : String) (hub : Hub) : Except Crash (Bool × Hub) :=
  (monSenderr ev.C text hub).map (true, ·)

def afterTx (ev : Poll) (pid : Nat) (hub : Hub) : Except Crash (Bool × Hub) :=
  match hub.peers pid with
  | none => .error .dangling
  | some peer =>
    if peer.tx.len = 0 && peer.done then .ok (true, hub)
    else
      match ev.reset with
      | none => .ok (false, hub)
      | some e => giveUp ev s!"Failed to reset SSK poll FD: {e}" hub

def afterRx (ev : Poll) (pid : Nat) (hub : Hub) : Except Crash (Bool × Hub) :=
  if ev.pollhup then .ok (true, hub)
  else
    match if ev.pollout then peerTx ev.C pid ev.sent hub else .ok (none, hub) with
    | .error k => .error k
    | .ok (some e, hub) => giveUp ev s!"client_tx: {e}" hub
    | .ok (none, hub) => afterTx ev pid hub

def peerServe (ev : Poll) (pid : Nat) (hub : Hub) : Except Crash (Bool × Hub) :=
  match if ev.pollin then peerRx pid ev.chunks ev.ending hub else .ok (none, hub) with
  | .error k => .error k
  | .ok (some e, hub) => giveUp ev s!"client_rx: {e}" hub
  | .ok (none, hub) => afterRx ev pid hub

def peerEvent (ev : Poll) (pid : Nat) (hub : Hub) : Except Crash Hub := do
  let served ← peerServe ev pid hub
  if served.1 then peerDestroy ev.C pid ev.sends ev.unset served.2 else .ok served.2

def accept (fd maxbuf : Nat) (hub : Hub) : Hub :=
  let peer : Peer := ⟨fd, .new maxbuf, [⟨hub.fresh + 1, .tokener⟩], false, true, []⟩
  { hub.setPeer hub.fresh (some peer) with fresh := hub.fresh + 2 }

inductive Event
  | accept (fd maxbuf : Nat)
  | subscribeCb (alloc : Bool) (topics : Topics)
  | publish (C : Conditions) (topic : Topic) (method : String) (params : Value)
  | poll (ev : Poll) (pid : Nat)
  | close (C : Conditions) (pid : Nat) (sends : Nat → Sent) (unset : Bool)
  | echoReply (C : Conditions) (answer : Value → Value)
  | bfddClosed (C : Conditions) (answer : Value → Value)
  | counters (C : Conditions) (answer : Value → Value)

def Hub.step (hub : Hub) : Event → Except Crash Hub
  | .accept fd maxbuf => .ok (Monitor.accept fd maxbuf hub)
  | .subscribeCb alloc topics => .ok (Monitor.subscribeCb alloc topics hub).2
  | .publish C topic method params => monSendActive C topic method params hub
  | .poll ev pid => if (hub.peers pid).isSome then peerEvent ev pid hub else .ok hub
  | .close C pid sends unset => if (hub.peers pid).isSome then peerDestroy C pid sends unset hub else .ok hub
  | .echoReply C answer => echoHandleReply C answer hub
  | .bfddClosed C answer => bfddCloseB C answer hub
  | .counters C answer => statsClose C answer hub

end Bbdd.Monitor
