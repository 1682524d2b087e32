import Bbdd.Daemon.Events
import Bbdd.Datapath.Timers

namespace Bbdd.Daemon

open Lib.Program Lib.Transition Prog TxQueue Datapath

structure Env where
  nl : Nl
  answers : Nat → Answer

/-- Everything that can happen: requests of clients and of bfdd, the daemon's
own timers and queues, and what the kernel does by itself. -/
inductive Event
  | add (csess : Decoded) (draws : List UInt32)
  | set (select change : Decoded) (bulk : Bool)
  | del (select : Decoded) (bulk : Bool)
  | bfddAdd (csess : Decoded)
  | bfddDel (discr : UInt32)
  | timer (id : Nat) (next : Option Nat)
  | pollout (bound : Nat)
  | ringbuf
  | kernel (ev : KernelEvent)

/-- The callback of a timer, on the session object it points to. The timer is
freed after its callback, whether or not that cancelled it. -/
def timerFire (t : Timer) : Cmd Unit := do
  let w ← read
  match w.sdir.find t.discr, w.bsdir.find t.discr with
  | some dsess, some bsess =>
    if bsess.ptr ≠ t.owner then crash .dangling
    else
      onSession t.discr dsess bsess (match t.fn with | .hold => holdTimerCb | .shwait => shwaitTimerCb)
      update (fun w => w.setBpf (w.bpf.timerDrop t.id))
  | _, _ => crash .dangling

def Freed (before after : List Timer) (id : Nat) (next : Option Nat) : Prop :=
  ∃ n ∈ next, n ≠ id ∧ Pending before n ∧ ¬ Pending after n

instance (before after : List Timer) (id : Nat) (next : Option Nat) :
    Decidable (Freed before after id next) :=
  inferInstanceAs (Decidable (∃ n ∈ next, n ≠ id ∧ Pending before n ∧ ¬ Pending after n))

/-- One turn of the walk over the timers that are due. The timer after this one
was saved before the callback, and is read whatever the callback did. -/
def timerEvent (id : Nat) (next : Option Nat) : Cmd Unit := do
  let w ← read
  match w.bpf.timers.find? (·.id = id) with
  | none => pure ()
  | some t =>
    timerFire t
    let w' ← read
    if Freed w.bpf.timers w'.bpf.timers id next then crash .dangling else pure ()

def ringbufEvent (nl : Nl) : Cmd Unit := do
  let w ← read
  match w.bpf.kernel.ring with
  | [] => pure ()
  | elem :: rest =>
    update (fun w => w.setBpf { w.bpf with kernel := { w.bpf.kernel with ring := rest } })
    rbHandle nl elem

def handle (nl : Nl) : Event → Cmd (Option Unit)
  | .add csess draws => (fun r => r.map fun _ => ()) <$> handleSessionAdd nl csess.val draws
  | .set select change bulk => (fun _ => some ()) <$> handleSessionSet nl select.val change.val bulk
  | .del select bulk => (fun _ => some ()) <$> handleSessionDel nl select.val bulk
  | .bfddAdd csess => (fun _ => some ()) <$> bfddHandleAddSession nl csess.val
  | .bfddDel discr => (fun _ => some ()) <$> handleSessionDelOne discr
  | .timer id next => some <$> timerEvent id next
  | .pollout bound => txDrain bound
  | .ringbuf => some <$> ringbufEvent nl
  | .kernel ev =>
    some <$> update (fun w => w.setBpf { w.bpf with kernel := w.bpf.kernel.step w.bpf.vethTxIfindex ev })

def World.enter (w : World) (env : Env) : World := w.setBpf { w.bpf with answers := env.answers, tick := 0 }

def run (w : World) (env : Env) (e : Event) : Except Crash (Option Unit × World) :=
  handle env.nl e (w.enter env)

/-- The daemon just started. A capacity given on the command line is applied
at once, and one the socket cannot have keeps the daemon from starting. -/
def World.start (vethRx vethTx envTxCapacity : UInt32) (answers : Nat → Answer) : World where
  sdir := .empty
  bsdir := .empty
  bpf :=
    { vethRxIfindex := vethRx, vethTxIfindex := vethTx, envTxCapacity := envTxCapacity
      tx := create, txCapacity := envTxCapacity, txPolloutRegistered := false, diagStats := fun _ => 0
      timers := [], nextTimer := 0, kernel := .empty, answers := answers, tick := 0, sends := [], handoffs := []
      outputs := [] }
  sports := .empty
  nextPtr := 0

def daemon : System World (Env × Event) where
  init w := ∃ rx tx cap answers, cap.toNat * txSkbTrueSize ≤ int32Max / 2 ∧ w = World.start rx tx cap answers
  step w l w' := run w l.1 l.2 = .ok (some (), w')

end Bbdd.Daemon
