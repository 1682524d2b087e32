import Bbdd.Lib.Transition
import Mathlib.Data.List.Sort

namespace Bbdd.TimerService

open Lib.Transition

structure Timer where
  id : Nat
  deadlineNs : UInt64
  deriving DecidableEq, Repr

inductive Happening
  | invoked (timer : Timer) (time : UInt64)
  | cancelled (timer : Timer) (own : Bool)
  deriving DecidableEq, Repr

def Happening.timer : Happening → Timer
  | .invoked timer _ => timer
  | .cancelled timer _ => timer

def Happening.isInvoked : Happening → Bool
  | .invoked _ _ => true
  | .cancelled _ _ => false

/-- Where the service is. In the handler's walk `timer` is the element the loop
looks at next, and in a callback `tmp` the one it saved to go on with. -/
inductive Phase
  | idle
  | walk (timer : Option Timer) (now : UInt64)
  | callback (timer : Timer) (tmp : Option Timer) (now : UInt64) (touched : Bool)
  | aborted
  deriving DecidableEq, Repr

/-- The list from its head, the descriptor's pending expiration and the clock;
beside them every timer there was and what happened to them, the last first. -/
structure Timers where
  head : List Timer
  armed : Option UInt64
  clock : UInt64
  phase : Phase
  made : List Timer
  log : List Happening

def Timers.initial : Timers := ⟨[], none, 0, .idle, [], []⟩

def itValue : List Timer → Option UInt64
  | [] => none
  | timer :: _ => if timer.deadlineNs = 0 then none else some timer.deadlineNs

def Timers.rearm (s : Timers) : Timers := { s with armed := itValue s.head }

def timerLe (a b : Timer) : Prop := a.deadlineNs ≤ b.deadlineNs

instance : DecidableRel timerLe := fun a b => inferInstanceAs (Decidable (a.deadlineNs ≤ b.deadlineNs))

instance : Std.Total timerLe := ⟨fun a b => UInt64.le_total a.deadlineNs b.deadlineNs⟩

instance : IsTrans Timer timerLe := ⟨fun _ _ _ h h' => UInt64.le_trans h h'⟩

def Timers.fresh (s : Timers) (delayUs : UInt64) : Timer := ⟨s.made.length, s.clock + delayUs * 1000⟩

def timerSet (s : Timers) (delayUs : UInt64) : Timers :=
  let timer := s.fresh delayUs
  let s : Timers := { s with head := s.head.orderedInsert timerLe timer, made := timer :: s.made }
  if s.head.head? = some timer then s.rearm else s

def timerCancel (s : Timers) (timer : Timer) (own : Bool) : Timers :=
  let wasEarliest := s.head.head? = some timer
  let s : Timers := { s with head := s.head.erase timer, log := .cancelled timer own :: s.log }
  if wasEarliest then s.rearm else s

def sweep (now : UInt64) (failed : Option Timer) : List Timer → List Timer × Option Timer
  | [] => ([], failed)
  | due :: rest =>
    if due.deadlineNs ≤ now then
      if failed = some due then (rest, none) else sweep now failed rest
    else (due :: rest, failed)

/-- The handler after its walk. When a callback failed it returns before it
arms the descriptor again. -/
def Timers.finish (s : Timers) (now : UInt64) (failed : Option Timer) : Timers :=
  let r := sweep now failed s.head
  let s : Timers := { s with head := r.1 }
  if r.2.isSome = true then { s with phase := .aborted }
  else if failed.isSome = true then { s with phase := .idle }
  else { s.rearm with phase := .idle }

def nextOf (timer : Timer) : List Timer → Option Timer
  | [] => none
  | t :: rest => if t = timer then rest.head? else nextOf timer rest

inductive Label
  | tick (time : UInt64)
  | set (delayUs : UInt64)
  | cancel (timer : Timer)
  | event (now : UInt64)
  | walk
  | return (ok : Bool)
  deriving DecidableEq, Repr

/-- The calls, the handler's steps and the clock. A callback sets timers with a
positive delay and cancels its own timer, or fails without having done
either. The descriptor is read before the clock is. -/
def Timers.step (s : Timers) : Label → Option Timers
  | .tick time => if s.clock ≤ time then some { s with clock := time } else none
  | .set delayUs =>
    match s.phase with
    | .idle => some (timerSet s delayUs)
    | .callback timer tmp now _ =>
      if 0 < delayUs then some { timerSet s delayUs with phase := .callback timer tmp now true } else none
    | _ => none
  | .cancel timer =>
    if timer ∈ s.head then
      match s.phase with
      | .idle => some (timerCancel s timer false)
      | .callback cur tmp now _ =>
        if timer = cur then some { timerCancel s timer true with phase := .callback cur tmp now true } else none
      | _ => none
    else none
  | .event now =>
    if s.phase = .idle ∧ s.clock ≤ now then
      some { s with
        armed := s.armed.filter (fun d => decide (s.clock < d))
        clock := now
        phase := .walk s.head.head? now }
    else none
  | .walk =>
    match s.phase with
    | .walk none now => some (s.finish now none)
    | .walk (some timer) now =>
      if timer ∉ s.head then some { s with phase := .aborted }
      else if timer.deadlineNs ≤ now then
        some { s with
          log := .invoked timer s.clock :: s.log
          phase := .callback timer (nextOf timer s.head) now false }
      else some (s.finish now none)
    | _ => none
  | .return ok =>
    match s.phase with
    | .callback timer tmp now touched =>
      if ok = true then some { s with phase := .walk tmp now }
      else if touched = true then none
      else some (s.finish now (some timer))
    | _ => none

def service : System Timers Label := .ofStep .initial Timers.step

end Bbdd.TimerService
