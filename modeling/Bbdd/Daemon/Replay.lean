import Bbdd.Daemon.Reach

namespace Bbdd.Daemon

open Lib.Transition Packet Session Prog Datapath Poll

/-- Handle events one after the other, as long as each passes a test and none
of them kills the daemon or keeps it busy. -/
def replayIf (ok : World → Env × Event → Bool) (w : World) : List (Env × Event) → Option World
  | [] => some w
  | (env, e) :: rest =>
    if ok w (env, e) then
      match run w env e with
      | .ok (some (), w') => replayIf ok w' rest
      | _ => none
    else none

def replay : World → List (Env × Event) → Option World := replayIf fun _ _ => true

theorem replayIf_run {ok : World → Env × Event → Bool} {G : World → Env × Event → Prop}
    {w w' : World} {events : List (Env × Event)} (hok : ∀ w, ∀ l ∈ events, ok w l = true → G w l)
    (hw : Run daemon G w) (h : replayIf ok w events = some w') : Run daemon G w' := by
  induction events generalizing w with
  | nil => cases h; exact hw
  | cons ev rest ih =>
    obtain ⟨env, e⟩ := ev
    simp only [replayIf] at h
    split at h
    · rename_i hg
      split at h
      · rename_i w₁ hr
        have hs : daemon.step w (env, e) w₁ := hr
        refine ih (fun v l hl => hok v l (List.mem_cons_of_mem _ hl)) (hw.next ?_ hs) h
        exact hok w (env, e) List.mem_cons_self hg
      · cases h
    · cases h

theorem replay_step {env : Env} {e : Event} {w w' : World} (h : replay w [(env, e)] = some w') :
    daemon.step w (env, e) w' := by
  simp only [replay, replayIf, if_true] at h
  split at h
  · rename_i w₁ hr
    cases h
    exact hr
  · cases h

def routed : TxHelpers := ⟨.success, 9, .zero, true, true, true, 0, 0⟩

def obliging : Answer where
  malloc := true
  timerfd := true
  mapUpdate := true
  mapDelete := true
  setsockopt := true
  pollSet := true
  netlink := true
  tx := routed
  timer := ⟨.ok, true, true⟩
  errno := 0
  strerror := ""
  meanwhile := []

def Nl.plain : Nl := ⟨fun _ => none, fun _ => none, fun _ => .ok 0, fun _ _ => some ⟨1, 0, 0, 0⟩⟩

def Env.plain : Env := ⟨.plain, fun _ => obliging⟩

def World.plain : World := .start 2 3 0 (fun _ => obliging)

theorem plain_run (G : World → Env × Event → Prop) : Run daemon G .plain :=
  .start ⟨2, 3, 0, _, by decide, rfl⟩

def CSession.blank : CSession where
  flags := ⟨none, none, none, none⟩
  discr := none
  remoteDiscr := none
  minTxUs := none
  minRxUs := none
  holdTimeUs := none
  ttl := none
  detectMult := none
  src := ⟨false, 0, ""⟩
  dst := ⟨false, 0, ""⟩
  netif := ⟨false, none, none⟩
  vrf := ⟨⟨false, none, none⟩, none⟩
  name := ⟨false, none⟩

def Event.addFive (remoteDiscr : Option UInt32) (shutdown : Option Bool) : Event :=
  .add ⟨{ CSession.blank with
    dst := ⟨false, afInet, "10.0.0.1"⟩, discr := some 5, remoteDiscr := remoteDiscr
    flags := ⟨none, none, none, shutdown⟩ }, ⟨rfl, rfl, rfl, rfl⟩⟩ []

def Event.addSix : Event :=
  .add ⟨{ CSession.blank with dst := ⟨false, afInet6, "2001:db8::1"⟩, discr := some 6 }, ⟨rfl, rfl, rfl, rfl⟩⟩ []

def selectFive : Decoded := ⟨{ CSession.blank with discr := some 5 }, ⟨rfl, rfl, rfl, rfl⟩⟩

def Event.setFive (shutdown : Option Bool) (minTxUs : Option UInt32) : Event :=
  .set selectFive
    ⟨{ CSession.blank with flags := ⟨none, none, none, shutdown⟩, minTxUs := minTxUs },
      ⟨rfl, rfl, rfl, rfl⟩⟩ false

def peerPacket (state : PktState) (flags : UInt8) : BfdPkt :=
  makePacket 7 defaultTiming ⟨state, .nothing⟩ 5 flags

def peerFrame (packet : BfdPkt) : RxFrame :=
  ⟨4, ethPIp, .zero, .zero, 255, bfdSingleHopPort, 66, some packet⟩

def arrival (packet : BfdPkt) : List Event :=
  [.kernel (.recv ⟨.ok, true, true⟩ true (peerFrame packet)), .ringbuf]

def expiry : List Event := [.kernel (.expired true 5), .ringbuf]

def bringUp : List Event :=
  [.addFive none none, .timer 0 none] ++ arrival (peerPacket .down 0) ++ arrival (peerPacket .up 0)

def settledUp : List Event := bringUp ++ [.kernel (.pass 0 routed), .pollout 3, .kernel (.pass 0 routed)]

def inPlain (events : List Event) : List (Env × Event) := events.map (Env.plain, ·)

theorem exists_run {ok : World → Env × Event → Bool} {G : World → Env × Event → Prop}
    (events : List (Env × Event))
    (hok : ∀ w, ∀ l ∈ events, ok w l = true → G w l) {P : World → Ctx → Prop} [∀ w c, Decidable (P w c)]
    (h : (replayIf ok .plain events).any (fun w => (w.session 5).any fun c => decide (P w c)) = true) :
    ∃ w c, Run daemon G w ∧ w.session 5 = some c ∧ P w c := by
  obtain ⟨w, hw, h⟩ := (Option.any_eq_true _ _).mp h
  obtain ⟨c, hc, h⟩ := (Option.any_eq_true _ _).mp h
  exact ⟨w, c, replayIf_run hok (plain_run G) hw, hc, of_decide_eq_true h⟩

theorem exists_replayed (events : List (Env × Event)) {P : World → Ctx → Prop} [∀ w c, Decidable (P w c)]
    (h : (replay .plain events).any (fun w => (w.session 5).any fun c => decide (P w c)) = true) :
    ∃ w c, Reachable daemon w ∧ w.session 5 = some c ∧ P w c :=
  exists_run events (fun _ _ _ _ => trivial) h

theorem mem_inPlain {events : List Event} {l : Env × Event} (h : l ∈ inPlain events) : l.1 = .plain := by
  obtain ⟨e, -, rfl⟩ := List.mem_map.mp h
  rfl

theorem exists_plain {G : World → Env × Event → Prop} (hG : ∀ w e, G w (.plain, e)) (events : List Event)
    {P : World → Ctx → Prop} [∀ w c, Decidable (P w c)]
    (h : (replay .plain (inPlain events)).any (fun w => (w.session 5).any fun c => decide (P w c)) = true) :
    ∃ w c, Run daemon G w ∧ w.session 5 = some c ∧ P w c := by
  refine exists_run (inPlain events) (fun w l hl _ => ?_) h
  obtain ⟨env, e⟩ := l
  rw [show env = .plain from mem_inPlain hl]
  exact hG w e

theorem plain_supplied : Env.plain.Supplied := fun _ => ⟨rfl, rfl⟩

def World.machines (w : World) : List Machine := w.sdir.keys.filterMap w.machine

theorem mem_machines {w : World} {d : UInt32} {m : Machine} (h : w.machine d = some m) :
    m ∈ w.machines := by
  refine List.mem_filterMap.mpr ⟨d, (w.sdir.sound d).mpr ?_, h⟩
  obtain ⟨c, hc, -⟩ := Option.map_eq_some_iff.mp h
  rw [(session_eq_some.mp hc).1]
  rfl

/-- A test for events that come at a quiet moment: requests while no session
is changing, the end of a hold of sessions that are not shut down, and the
end of a wait that is still on. -/
def calm (w : World) : Event → Bool
  | .set .. | .bfddAdd .. => w.machines.all (fun m => m.bstate = .stable ∨ m.bstate = .onHold)
  | .timer id _ => w.bpf.timers.all (fun t => t.id ≠ id || match t.fn with
    | .hold => w.machines.all (fun m => !m.user.shutdown)
    | .shwait => w.machines.all (fun m => m.bstate = .shuttingDown))
  | _ => true

/-- What can happen to a session at such a moment. -/
def Calm (m : Machine) : Cause → Prop
  | .configure _ => m.bstate = .stable ∨ m.bstate = .onHold
  | .hold _ => m.user.shutdown = false
  | .shwait _ => m.bstate = .shuttingDown
  | .packet .. | .timeout => True

theorem calm_causes {w : World} {nl : Nl} {e : Event} {d : UInt32} {m : Machine} {s : Cause}
    (h : calm w e = true) (hm : w.machine d = some m) (hc : Causes nl w e d s) : Calm m s := by
  have hmem := mem_machines hm
  obtain ⟨c, hd, -, hcall, hcause⟩ := hc
  cases hcall with
  | set hs =>
    cases hcause
    have hall : w.machines.all (fun m => m.bstate = .stable ∨ m.bstate = .onHold) = true := by
      cases e <;> first | exact h | exact hs.elim
    simpa [Calm] using List.all_eq_true.mp hall m hmem
  | @timer t _ ht =>
    have hall := List.all_eq_true.mp h t ht
    obtain ⟨id, fn, discr, owner⟩ := t
    simp only [ne_eq, not_true_eq_false, decide_false, Bool.false_or] at hall
    cases fn with
    | hold => cases hcause; simpa [Calm] using List.all_eq_true.mp hall m hmem
    | shwait => cases hcause; simpa [Calm] using List.all_eq_true.mp hall m hmem
  | ring _ hr =>
    obtain ⟨-, rfl⟩ | ⟨_, _, _, rfl, -⟩ := ringCall_handler hr
    · cases hcause
      trivial
    · obtain ⟨p, -, rfl⟩ := Option.map_eq_some_iff.mp hcause
      trivial

theorem exists_calm {allowed : Machine → Cause → Prop} (hcalm : ∀ m s, Calm m s → allowed m s)
    (events : List Event)
    {P : World → Ctx → Prop} [∀ w c, Decidable (P w c)]
    (h : (replayIf (fun w l => calm w l.2) .plain (inPlain events)).any
      (fun w => (w.session 5).any fun c => decide (P w c)) = true) :
    ∃ w c, Run daemon (Guarded fun env m s => env.Supplied ∧ allowed m s) w ∧ w.session 5 = some c ∧ P w c := by
  refine exists_run (inPlain events) (fun w l hl hok d m s hm hc => ?_) h
  rw [mem_inPlain hl] at hc ⊢
  exact ⟨plain_supplied, hcalm m s (calm_causes hok hm hc)⟩

end Bbdd.Daemon
