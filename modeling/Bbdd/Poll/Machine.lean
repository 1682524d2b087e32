import Bbdd.Datapath.Timers

namespace Bbdd.Poll

open Packet Session Datapath

/-- What a session is for the user: the configuration asked for, the one in
force and the one being announced, the state of both ends, and the timers
that are to move it on. Of the pending timers it has its own only. -/
structure Machine where
  user : BData
  eff : BData
  dfr : BData
  loc : PktState
  rem : PktState
  remMult : UInt8
  bstate : BState
  qd : Bool
  shwait : Option Nat
  hold : Option Nat
  discr : UInt32
  ptr : Nat
  mine : List Timer
  deriving DecidableEq

def view (c : Ctx) : Machine where
  user := userBdata c.dsess
  eff := c.bsess.effData
  dfr := c.bsess.dfrData
  loc := c.dsess.localData.state.state
  rem := c.dsess.remoteData.state.state
  remMult := c.dsess.remoteData.timing.detectMult
  bstate := c.bsess.bstate
  qd := c.bsess.qdChange
  shwait := c.bsess.shwait
  hold := c.bsess.hold
  discr := c.bsess.discr
  ptr := c.bsess.ptr
  mine := timersOf c.bpf.timers c.bsess.ptr

theorem view_frame {c c' : Ctx} (h : Frame c c') : view c' = view c := by
  simp only [view, h.dsess, h.discr, h.bstate, h.effData, h.dfrData, h.qdChange, h.shwait, h.hold,
    h.ptr, h.timers]

namespace Machine

variable (m : Machine)

def bdata : BData :=
  match m.bstate with
  | .onHold | .stable => m.eff
  | .awaitFinal | .awaitNonFinal | .shuttingDown => m.dfr

def setBdata (data : BData) : Machine :=
  match m.bstate with
  | .onHold => m
  | .stable => { m with eff := data }
  | .awaitFinal | .awaitNonFinal | .shuttingDown => { m with dfr := data }

def stop : Machine :=
  match m.shwait with
  | none => m
  | some id => { m with mine := without m.mine id, shwait := none }

def start (id : Nat) : Machine :=
  { m with mine := m.mine ++ [⟨id, .shwait, m.discr, m.ptr⟩], shwait := some id }

def decision : Decision := updateDecision m.loc m.user m.bdata

def shutDown (id : Nat) : Machine :=
  { m.start id with dfr := m.user, bstate := .shuttingDown, loc := .adminDown, rem := .down }

def enable (b : Bool) : Machine := if b then { m with loc := .down } else m

/-- Start a poll sequence or a shutdown wait. A wait needs a timer, and there
is none when it could not be allocated. -/
def begin (fresh : Option Nat) (d : Decision) : Machine :=
  if d.needPoll then { m with dfr := m.user, bstate := .awaitFinal }
  else
    match d.needShwait, fresh with
    | true, some id => m.shutDown id
    | _, _ => m

def settle (fresh : Option Nat) (d : Decision) : Machine := (m.enable d.stopShwait).begin fresh d

def applied : Machine := if m.decision.applyImm then m.setBdata m.user else m

def update (fresh : Option Nat) : Machine :=
  match m.bstate with
  | .onHold => m
  | .stable => m.applied.settle fresh m.decision
  | .shuttingDown =>
    if m.decision.stopShwait then { m.applied.stop with bstate := .awaitFinal }.settle fresh m.decision
    else m.applied.settle fresh m.decision
  | .awaitFinal | .awaitNonFinal =>
    if m.decision.needPoll || m.decision.needShwait || m.decision.stopShwait then { m.applied with qd := true }
    else m.applied

variable {m}

theorem update_onHold (h : m.bstate = .onHold) (fresh : Option Nat) : m.update fresh = m := by
  simp only [update, h]

theorem update_stable (h : m.bstate = .stable) (fresh : Option Nat) :
    m.update fresh = m.applied.settle fresh m.decision := by
  simp only [update, h]

theorem update_await (h : m.bstate = .awaitFinal ∨ m.bstate = .awaitNonFinal) (fresh : Option Nat) :
    m.update fresh =
      if m.decision.needPoll || m.decision.needShwait || m.decision.stopShwait then { m.applied with qd := true }
      else m.applied := by
  obtain h | h := h <;> simp only [update, h]

theorem update_shuttingDown (h : m.bstate = .shuttingDown) (fresh : Option Nat) :
    m.update fresh =
      if m.decision.stopShwait then { m.applied.stop with bstate := .awaitFinal }.settle fresh m.decision
      else m.applied.settle fresh m.decision := by
  simp only [update, h]

variable (m)

def conclude (fresh : Option Nat) : Machine :=
  if m.qd then { m with eff := m.dfr, bstate := .stable, qd := false }.update fresh
  else { m with eff := m.dfr, bstate := .stable }

def heard (rem : PktState) (mult : UInt8) : Machine :=
  { m with loc := (fsmNext ⟨m.loc, .nothing⟩ rem).state, rem := rem, remMult := mult }

def answered (final : Bool) (fresh : Option Nat) : Machine :=
  match m.bstate, final with
  | .awaitFinal, true => { m with bstate := .awaitNonFinal }
  | .awaitNonFinal, false => m.conclude fresh
  | _, _ => m

def packet (rem : PktState) (mult : UInt8) (final : Bool) (fresh : Option Nat) : Machine :=
  (m.heard rem mult).answered final fresh

def silenced : Machine :=
  if m.loc = .init ∨ m.loc = .up then { m with loc := .down, rem := .down } else m

def timeout (fresh : Option Nat) : Machine :=
  match m.bstate with
  | .onHold => m
  | .stable => m.silenced
  | .awaitFinal | .awaitNonFinal => (m.conclude fresh).silenced
  | .shuttingDown => (m.stop.conclude fresh).silenced

def configure (user : BData) (fresh : Option Nat) : Machine :=
  if m.bstate = .onHold then { m with user := user } else { m with user := user }.update fresh

def release (id : Nat) : Machine :=
  { m with eff := m.user, bstate := .stable, hold := none, mine := without m.mine id }

def shwaitExpire (id : Nat) (fresh : Option Nat) : Machine :=
  let m := m.stop.conclude fresh
  { m with mine := without m.mine id }

end Machine

/-- What can happen to a session. -/
inductive Cause
  | configure (user : BData)
  | hold (id : Nat)
  | shwait (id : Nat)
  | packet (rem : PktState) (mult : UInt8) (final : Bool)
  | timeout
  deriving DecidableEq

def Machine.stir (m : Machine) (fresh : Option Nat) : Cause → Machine
  | .configure user => m.configure user fresh
  | .hold id => m.release id
  | .shwait id => m.shwaitExpire id fresh
  | .packet rem mult final => m.packet rem mult final fresh
  | .timeout => m.timeout fresh

end Bbdd.Poll
