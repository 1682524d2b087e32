import Bbdd.Lib.Transition
import Mathlib.Logic.Function.Basic

namespace Bbdd.EventLoop

open Lib.Transition

variable {φ δ : Type}

structure PollCb (φ δ : Type) where
  fd : Nat
  events : UInt16
  fn : φ
  data : δ
  deriving DecidableEq

/-- The table of the records by descriptor, with the two things outside the
program that it relies on: the memory the records are allocated in, and the
kernel's interest list, which returns the address that was given with a
descriptor. -/
structure PollCtx (φ δ : Type) where
  heap : Nat → Option (PollCb φ δ)
  cbs : Nat → Option Nat
  epoll : Nat → Option Nat
  shouldQuit : Bool

def PollCtx.empty : PollCtx φ δ := ⟨fun _ => none, fun _ => none, fun _ => none, false⟩

inductive CtlOp
  | add
  | mod
  deriving DecidableEq

def epollCtl (epoll : Nat → Option Nat) (op : CtlOp) (fd ptr : Nat) (accept : Bool) :
    Option (Nat → Option Nat) :=
  if accept = true ∧ (epoll fd).isNone = decide
    (op = .add) then some (Function.update epoll fd (some ptr)) else none

/-- The memory at `mem` is what the allocator returns, if it has any. -/
def pollSetFd (ctx : PollCtx φ δ) (fd : Nat) (events : UInt16) (fn : φ) (data : δ)
    (mem : Option Nat) (accept : Bool) :
    Int × PollCtx φ δ :=
  match ctx.cbs fd with
  | none =>
    match mem with
    | none => (-1, ctx)
    | some ptr =>
      match epollCtl ctx.epoll .add fd ptr accept with
      | none => (-1, ctx)
      | some epoll =>
        (0, { ctx with
              heap := Function.update ctx.heap ptr (some ⟨fd, events, fn, data⟩)
              cbs := Function.update ctx.cbs fd (some ptr)
              epoll := epoll })
  | some ptr =>
    -- The record is written before the kernel is asked, and stays as
    -- written if the kernel refuses.
    let heap := Function.update ctx.heap ptr ((ctx.heap ptr).map (fun cb => ⟨cb.fd, events, fn, data⟩))
    match epollCtl ctx.epoll .mod fd ptr accept with
    | none => (-1, { ctx with heap := heap })
    | some epoll => (0, { ctx with heap := heap, epoll := epoll })

def pollUnsetFd (ctx : PollCtx φ δ) (fd : Nat) : Int × PollCtx φ δ :=
  match ctx.cbs fd with
  | none => (-3, ctx)
  | some ptr =>
    (0, { ctx with
          heap := Function.update ctx.heap ptr none
          cbs := Function.update ctx.cbs fd none
          epoll := Function.update ctx.epoll fd none })

/-- An event of a batch. The loop sees the address and the flags; which
descriptor the kernel reported, and under which registration, is kept beside. -/
structure PollEvent where
  ptr : Nat
  events : UInt32
  fd : Nat
  id : Option Nat
  deriving DecidableEq

def PollEvent.revents (ev : PollEvent) : UInt16 := ev.events.toUInt16

def epollErrHup : UInt16 := 0x18

/-- What the loop does about one event. -/
inductive Dispatch (φ δ : Type)
  | invoke (fn : φ) (revents : UInt16) (data : δ)
  | problem (fd : Nat)
  | ignore
  | freed
  deriving DecidableEq

def PollCb.dispatch (cb : PollCb φ δ) (revents : UInt16) : Dispatch φ δ :=
  if revents &&& cb.events ≠ 0 then .invoke cb.fn revents cb.data
  else if revents &&& epollErrHup ≠ 0 then .problem cb.fd
  else .ignore

/-- One turn of the loop over a batch reads the record behind the event's
address, whatever is there by then. -/
def pollDispatch (ctx : PollCtx φ δ) (ev : PollEvent) : Dispatch φ δ :=
  match ctx.heap ev.ptr with
  | none => .freed
  | some cb => cb.dispatch ev.revents

/-- A registration lasts from the call that made it to the one that removed it,
and calls in between change what it holds. -/
structure Entry (φ δ : Type) where
  id : Nat
  events : UInt16
  fn : φ
  data : δ
  deriving DecidableEq

def Entry.record (r : Entry φ δ) (fd : Nat) : PollCb φ δ := ⟨fd, r.events, r.fn, r.data⟩

structure Registry (φ δ : Type) where
  entry : Nat → Option (Entry φ δ)
  next : Nat

def Registry.set (reg : Registry φ δ) (fd : Nat) (events : UInt16) (fn : φ) (data : δ) (rc : Int) :
    Registry φ δ :=
  if rc = 0 then
    match reg.entry fd with
    | none => ⟨Function.update reg.entry fd (some ⟨reg.next, events, fn, data⟩), reg.next + 1⟩
    | some r => { reg with entry := Function.update reg.entry fd (some ⟨r.id, events, fn, data⟩) }
  else reg

def Registry.unset (reg : Registry φ δ) (fd : Nat) : Registry φ δ :=
  { reg with entry := Function.update reg.entry fd none }

/-- The loop with the events of the batch that are still to be handled, and
the registrations as the callers know them. -/
structure State (φ δ : Type) where
  ctx : PollCtx φ δ
  reg : Registry φ δ
  pending : List PollEvent
  inside : Bool
  stopped : Bool

def State.initial : State φ δ := ⟨.empty, ⟨fun _ => none, 0⟩, [], false, false⟩

/-- The calls a callback makes, or the program while no batch is handled; what
the kernel returns; and the steps of the loop itself. -/
inductive Label (φ δ : Type)
  | set (fd : Nat) (events : UInt16) (fn : φ) (data : δ) (mem : Option Nat) (accept : Bool)
  | unset (fd : Nat)
  | close (fd : Nat)
  | requestQuit
  | wait (ready : List (Nat × UInt32))
  | waitFailed
  | next
  | return

def State.open (s : State φ δ) : Bool := s.inside || s.pending.isEmpty

def State.report (s : State φ δ) (ready : Nat × UInt32) : Option PollEvent :=
  (s.ctx.epoll ready.1).map (fun ptr => ⟨ptr, ready.2, ready.1, (s.reg.entry ready.1).map (·.id)⟩)

def State.waiting (s : State φ δ) : Bool :=
  !s.inside && s.pending.isEmpty && !s.stopped && !s.ctx.shouldQuit

def State.next (s : State φ δ) (ev : PollEvent) (rest : List PollEvent) : State φ δ :=
  match pollDispatch s.ctx ev with
  | .invoke _ _ _ => { s with pending := rest, inside := true }
  | .ignore => { s with pending := rest }
  | .problem _ | .freed => { s with pending := [], stopped := true }

def State.step (s : State φ δ) : Label φ δ → Option (State φ δ)
  | .set fd events fn data mem accept =>
    if s.open = true ∧ (mem.bind s.ctx.heap).isNone = true then
      let r := pollSetFd s.ctx fd events fn data mem accept
      some { s with ctx := r.2, reg := s.reg.set fd events fn data r.1 }
    else none
  | .unset fd =>
    if s.open = true then some { s with ctx := (pollUnsetFd s.ctx fd).2, reg := s.reg.unset fd } else none
  | .close fd =>
    if s.open = true then some { s with ctx :=
      { s.ctx with epoll := Function.update s.ctx.epoll fd none } } else none
  | .requestQuit => if s.open = true then some { s with ctx := { s.ctx with shouldQuit := true } } else none
  | .wait ready =>
    if s.waiting = true ∧ ready.length ≤ 64 ∧ ready.all (fun r => (s.report r).isSome) = true then
      some { s with pending := ready.filterMap s.report }
    else none
  | .waitFailed => if s.waiting = true then some { s with stopped := true } else none
  | .next =>
    match s.pending with
    | ev :: rest => if s.inside = false then some (s.next ev rest) else none
    | [] => none
  | .return => if s.inside = true then some { s with inside := false } else none

def loop (φ δ : Type) : System (State φ δ) (Label φ δ) := .ofStep .initial State.step

end Bbdd.EventLoop
