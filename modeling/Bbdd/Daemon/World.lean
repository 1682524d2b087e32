import Bbdd.Daemon.Config
import Bbdd.Daemon.Ports
import Bbdd.Datapath.Lifecycle
import Bbdd.Lib.Directory
import Bbdd.Lib.Transition

namespace Bbdd.Daemon

open Lib.Program Lib.Directory Packet Session Prog Datapath

/-- The daemon: its sessions, their data path objects, the ports in use and
everything it shares with the kernel. -/
structure World where
  sdir : Dir UInt32 DSession
  bsdir : Dir UInt32 BSession
  bpf : Bpf
  sports : SportAlloc
  nextPtr : Nat

abbrev Cmd := Prog World Crash

def World.setBpf (w : World) (bpf : Bpf) : World := { w with bpf := bpf }

def askWorld : Cmd Answer := fun w => .ok (w.bpf.ask.1, w.setBpf w.bpf.ask.2)

def outputWorld (o : Output) : Cmd Unit := update (fun w => w.setBpf (w.bpf.output o))

def onSession {α : Type} (discr : UInt32) (dsess : DSession) (bsess : BSession) (p : Act α) :
    Cmd α := fun w =>
  match p ⟨w.bpf, dsess, bsess⟩ with
  | .error k => .error k
  | .ok (a, c) =>
    .ok (a, { w with bpf := c.bpf, sdir := w.sdir.insert discr c.dsess, bsdir := w.bsdir.insert discr c.bsess })

def sportPut (port : UInt16) : Cmd Unit := do
  if port < sportLo then crash .badPort
  else update (fun w => { w with sports := w.sports.put port })

def defaultTiming : Timing := ⟨1, slowIntervalUs, slowIntervalUs⟩

def newSession (discr : UInt32) (sport : UInt16) : DSession where
  src := { Sockaddr.zero with port := sport }
  dst := .zero
  name := ""
  holdTimeUs := 0
  ttl := 255
  ifindex := 0
  vrfIfindex := 0
  userRemoteDiscr := 0
  vrfTable := 0
  localData := ⟨.none, discr, defaultTiming, ⟨.down, .down⟩⟩
  remoteData := ⟨.none, 0, defaultTiming, ⟨.down, .nothing⟩⟩

def sessionAddNew (nl : Nl) (csess : CSession) (discr : UInt32) : Cmd (Except String Unit) := do
  let w ← read
  match sportGet w.sports with
  | none => pure (.error "Failed to allocate a unique source port for the new session")
  | some (sport, sports) =>
    update (fun w => { w with sports := sports })
    let a ← askWorld
    if !a.malloc then
      sportPut sport
      pure (.error a.strerror)
    else
      match sessionApplyC nl (newSession discr sport) { csess with discr := some discr } with
      | .error e =>
        sportPut sport
        pure (.error e)
      | .ok (dsess, _) =>
        let w ← read
        match sessionAdd w.bsdir.count ⟨w.bpf, dsess, freshBsess discr w.nextPtr⟩ with
        | .error k => crash k
        | .ok (.error e, c) =>
          update (fun w => { w with bpf := c.bpf, nextPtr := w.nextPtr + 1 })
          sportPut sport
          pure (.error e)
        | .ok (.ok (), c) =>
          update (fun w => { w with
            bpf := c.bpf, nextPtr := w.nextPtr + 1
            sdir := w.sdir.insert discr c.dsess, bsdir := w.bsdir.insert discr c.bsess })
          pure (.ok ())

def uniqueDiscr (sdir : Dir UInt32 DSession) : List UInt32 → Option UInt32
  | [] => none
  | d :: ds => if d ≠ 0 ∧ (sdir.find d).isSome then uniqueDiscr sdir ds else some d

def validateJrpc (nl : Nl) (csess : CSession) : Except String CSession :=
  match sessionValidateNetif nl csess.netif with
  | .error e => .error e
  | .ok netif =>
    if csess.vrf.netif.name.isSome then
      (sessionValidateVrf nl csess.vrf).map (fun vrf => { csess with netif := netif, vrf := vrf })
    else .ok { csess with netif := netif }

def validateBfdd (nl : Nl) (csess : CSession) : Except String CSession :=
  match sessionValidateNetif nl csess.netif with
  | .error e => .error e
  | .ok netif =>
    if csess.vrf.table.isSome ∨ csess.vrf.netif.ifindex.isSome ∨ csess.vrf.netif.name.isSome then
      (sessionValidateVrf nl csess.vrf).map (fun vrf => { csess with netif := netif, vrf := vrf })
    else .ok { csess with netif := netif }

/-- Nothing is returned while the draws so far have not produced a free
discriminator. -/
def handleSessionAdd (nl : Nl) (csess : CSession) (draws : List UInt32) :
    Cmd (Option (Except String Unit)) := do
  match validateJrpc nl csess with
  | .error e => pure (some (.error e))
  | .ok csess =>
    let w ← read
    match csess.discr with
    | none =>
      match uniqueDiscr w.sdir draws with
      | none => pure none
      | some discr => some <$> sessionAddNew nl csess discr
    | some discr =>
      if (w.sdir.find discr).isSome then pure (some (.error "Duplicate session"))
      else some <$> sessionAddNew nl csess discr

def sessionIsOnHold (w : World) (discr : UInt32) : Bool :=
  match w.bsdir.find discr with
  | none => false
  | some bsess => bsess.bstate = .onHold

def sessionChange (discr : UInt32) (applied : DSession) (changed : Bool) : Cmd (Except String Unit) := do
  update (fun w => { w with sdir := w.sdir.insert discr applied })
  let w ← read
  match w.bsdir.find discr with
  | none => pure (.error s!"No BPF session found for discr {discr}")
  | some bsess =>
    attempt (onSession discr applied bsess sessionUpdate) fun _ => do
      let w ← read
      whenever (changed && !sessionIsOnHold w discr)
        (outputWorld (.stateChanged ((w.sdir.find discr).getD applied)))
      pure (.ok ())

/-- The sessions a request selected, one after the other up to the first
failure; the flag tells whether one was found so far. -/
def sessionSetLoop (nl : Nl) (change : CSession) : Bool → List UInt32 → Cmd (Except String Unit)
  | set, [] => pure (if set then .ok () else .error "All matching sessions went away mid request")
  | set, discr :: discrs => do
    let w ← read
    match w.sdir.find discr with
    | none => sessionSetLoop nl change set discrs
    | some dsess =>
      match sessionApplyC nl dsess change with
      | .error e => pure (.error s!"Session {discr}: {e}")
      | .ok (applied, changed) =>
        attempt (sessionChange discr applied changed) fun _ => sessionSetLoop nl change true discrs

def sessionCheckBulk (bulk : Bool) (discrs : List UInt32) : Except String Unit :=
  if discrs.length = 0 then .error "The request matches no session"
  else if discrs.length > 1 ∧ bulk = false then .error "Non-bulk request matches more than one session"
  else .ok ()

def parseSelectSessions (nl : Nl) (sdir : Dir UInt32 DSession) (select : CSession) (bulk : Bool) :
    Except String (List UInt32) := do
  let discrs ← selectSessions nl select sdir.values
  sessionCheckBulk bulk discrs
  pure discrs

def handleSessionSet (nl : Nl) (select change : CSession) (bulk : Bool) : Cmd (Except String Unit) := do
  match validateJrpc nl select, validateJrpc nl change with
  | .error e, _ => pure (.error e)
  | _, .error e => pure (.error e)
  | .ok select, .ok change =>
    let w ← read
    match parseSelectSessions nl w.sdir select bulk with
    | .error e => pure (.error e)
    | .ok discrs => sessionSetLoop nl change false discrs

def bpfSessionDel (dsess : DSession) : Cmd Unit := do
  let discr := dsess.localData.discr
  let w ← read
  match w.bsdir.find discr with
  | none => pure ()
  | some bsess =>
    onSession discr dsess bsess (sessionDel (w.bsdir.erase discr).count)
    update (fun w => { w with bsdir := w.bsdir.erase discr })

def handleSessionDelOne (discr : UInt32) : Cmd (Except String Unit) := do
  let w ← read
  match w.sdir.find discr with
  | none => pure (.error s!"Failed to look up session {discr}")
  | some dsess =>
    bpfSessionDel dsess
    sportPut dsess.src.port
    update (fun w => { w with sdir := w.sdir.erase discr })
    pure (.ok ())

def sessionDelLoop : Nat → String → List UInt32 → Cmd (Nat × String)
  | errors, last, [] => pure (errors, last)
  | errors, last, discr :: discrs => do
    match ← handleSessionDelOne discr with
    | .error e => sessionDelLoop (errors + 1) e discrs
    | .ok () => sessionDelLoop errors last discrs

def handleSessionDel (nl : Nl) (select : CSession) (bulk : Bool) : Cmd (Except String Unit) := do
  match validateJrpc nl select with
  | .error e => pure (.error e)
  | .ok select =>
    let w ← read
    match parseSelectSessions nl w.sdir select bulk with
    | .error e => pure (.error e)
    | .ok discrs =>
      let (errors, last) ← sessionDelLoop 0 "(unknown error)" discrs
      let total := discrs.length
      if errors ≠ 0 then
        pure (.error s!"{errors}/{total} sessions failed to delete. Last recorded error: `{last}'")
      else pure (.ok ())

def bfddHandleAddSession (nl : Nl) (csess : CSession) : Cmd (Except String Unit) := do
  match csess.discr with
  | none => pure (.error "missing local discriminator")
  | some discr =>
    match validateBfdd nl csess with
    | .error e => pure (.error e)
    | .ok csess =>
      let w ← read
      match w.sdir.find discr with
      | none => sessionAddNew nl csess discr
      | some dsess =>
        match sessionApplyC nl dsess csess with
        | .error e => pure (.error e)
        | .ok (applied, changed) => sessionChange discr applied changed

end Bbdd.Daemon
