import Bbdd.Lib.Program
import Bbdd.Prog
import Bbdd.TxQueue

namespace Bbdd.Datapath

open Lib.Program Session Prog TxQueue

/-- Why the daemon dies: a failed assertion or the use of a pointer that is
null or names a freed session. -/
inductive Crash
  | onHold
  | noSession
  | detectMult
  | exclusive
  | nullPointer
  | dangling
  | badPort
  deriving DecidableEq, Repr

/-- What the system answers to one fallible call of the daemon, with the
kernel events that take place just before it. -/
structure Answer where
  malloc : Bool
  timerfd : Bool
  mapUpdate : Bool
  mapDelete : Bool
  setsockopt : Bool
  pollSet : Bool
  netlink : Bool
  tx : TxHelpers
  timer : TimerHelpers
  errno : Nat
  strerror : String
  meanwhile : List KernelEvent

inductive TimerFn
  | hold
  | shwait
  deriving DecidableEq, Repr

/-- A pending timer. Its callback data points to one session object, given by
the object's identity and the discriminator it was created with. -/
structure Timer where
  id : Nat
  fn : TimerFn
  discr : UInt32
  owner : Nat
  deriving DecidableEq, Repr

structure Send where
  veth : Veth
  skb : Skb
  config : Option SessionConfig
  hasData : Bool
  tx : TxHelpers

structure Handoff where
  dsess : DSession
  bstate : BState

inductive Output
  | stateChanged (dsess : DSession)
  | senderr (context error : String)
  deriving DecidableEq, Repr

/-- The state all sessions share. Two fields are not the source's: sends and
handoffs list what was sent so far, newest first. -/
structure Bpf where
  vethRxIfindex : UInt32
  vethTxIfindex : UInt32
  envTxCapacity : UInt32
  tx : Tx
  txCapacity : UInt32
  txPolloutRegistered : Bool
  diagStats : GlobalDiagStat → Nat
  timers : List Timer
  nextTimer : Nat
  kernel : Kernel
  answers : Nat → Answer
  tick : Nat
  sends : List Send
  handoffs : List Handoff
  outputs : List Output

structure Ctx where
  bpf : Bpf
  dsess : DSession
  bsess : BSession

abbrev Act := Prog Ctx Crash

def Bpf.bump (b : Bpf) (st : GlobalDiagStat) : Bpf :=
  { b with diagStats := Function.update b.diagStats st (b.diagStats st + 1) }

def Bpf.output (b : Bpf) (o : Output) : Bpf := { b with outputs := b.outputs ++ [o] }

def Bpf.ask (b : Bpf) : Answer × Bpf :=
  let a := b.answers b.tick
  (a, { b with tick := b.tick + 1, kernel := b.kernel.steps b.vethTxIfindex a.meanwhile })

def onBpf (f : Bpf → Bpf) : Act Unit := update (fun c => { c with bpf := f c.bpf })

def onBsess (f : BSession → BSession) : Act Unit := update (fun c => { c with bsess := f c.bsess })

def onDsess (f : DSession → DSession) : Act Unit := update (fun c => { c with dsess := f c.dsess })

def ask : Act Answer := fun c => .ok (c.bpf.ask.1, { c with bpf := c.bpf.ask.2 })

def monSenderr (error context : String) : Act Unit := onBpf (·.output (.senderr context error))

def reported (p : Act (Except String Unit)) (context : String) : Act Unit :=
  p >>= fun r => match r with
    | .error e => monSenderr e context
    | .ok () => pure ()

/-- The packets in flight, as the two counters tell; the difference is
truncated to 32 bits. -/
def Bpf.txPinned (b : Bpf) : UInt32 :=
  (UInt64.ofNat (b.diagStats .skSentCount) - UInt64.ofNat (b.kernel.diagStats .skReleasedCount)).toUInt32

def txHaveCapacity : Act Bool := do
  let _ ← ask
  let c ← read
  pure (decide (c.bpf.txPinned < c.bpf.txCapacity))

def txPolloutArm : Act Unit := do
  let c ← read
  if c.bpf.txPolloutRegistered then pure ()
  else
    let a ← ask
    if a.pollSet then onBpf (fun b => { b with txPolloutRegistered := true })
    else monSenderr a.strerror "arm tx POLLOUT"

def txEnqueue (kind : SlotKind) (isFinal : Bool) (bfdFlags : UInt8) : Act Unit := do
  let c ← read
  let (queued, tx, slot) :=
    enqueue c.bpf.tx ⟨c.bsess.discr, kind⟩ (slotOf c.bsess kind) isFinal c.dsess.localData.discr .tx bfdFlags
  onBpf (fun b => { b with tx := tx })
  onBsess (fun s => setSlot s slot kind)
  whenever queued (onBpf (·.bump .skEnqCount))
  txPolloutArm

/-- Set a timer for the current session. Arming the shared descriptor is
fallible only when the new timer is the earliest, which the answer decides. -/
def timerSet (fn : TimerFn) : Act (Except String Nat) := do
  let a ← ask
  if !a.malloc then pure (.error s!"Failed to allocate timer: {a.strerror}")
  else
    let a ← ask
    if !a.timerfd then pure (.error s!"Failed to arm timer: {a.strerror}")
    else
      let c ← read
      let id := c.bpf.nextTimer
      onBpf (fun b => { b with
        timers := b.timers ++ [⟨id, fn, c.bsess.discr, c.bsess.ptr⟩], nextTimer := b.nextTimer + 1 })
      pure (.ok id)

def Bpf.timerDrop (b : Bpf) (id : Nat) : Bpf := { b with timers := b.timers.filter (·.id ≠ id) }

def timerCancel (id : Nat) : Act Unit := do
  let c ← read
  if ∃ t ∈ c.bpf.timers, t.id = id then
    onBpf (·.timerDrop id)
    let a ← ask
    if a.timerfd then pure ()
    else monSenderr s!"Failed to arm timer: {a.strerror}" "Failed to rearm timer"
  else crash .dangling

end Bbdd.Datapath
