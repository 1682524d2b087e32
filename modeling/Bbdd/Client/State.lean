import Bbdd.Client.Session

namespace Bbdd.Client

open Lib.Json Jrpc Packet Session Daemon

def strtabValToStr (value : Nat) (tab : List String) : String := tab.getD value "unknown"

def strtabStrToVal (str : String) (tab : List String) : Option Nat := tab.findIdx? (· = str)

def sessionStateStr : List String := ["admindown", "down", "init", "up"]

def bfdStateToStr (sv : UInt8) : String := strtabValToStr sv.toNat sessionStateStr

def bfdStateFromStr (str : String) : Option PktState :=
  (strtabStrToVal str sessionStateStr).map (fun v => .ofUInt8 (UInt8.ofNat v))

def sessionDiagStr : List String :=
  ["nothing", "time_expired", "echo_failed", "down", "fp_reset", "path_down", "concat_path_down", "admin_down",
    "rev_concat_path_down"]

def bfdDiagToStr (dv : Nat) : String := strtabValToStr dv sessionDiagStr

def bfdDiagFromStr (str : String) : Option Diag := (strtabStrToVal str sessionDiagStr).map Diag.ofNat

def stateEndFields (state : StateEnd) : Fields :=
  [("state", some (.str (bfdStateToStr state.state.toUInt8))),
    ("diag", some (.str (bfdDiagToStr state.diag.val)))]

def jrpcSessionStateLocal (state : StateEnd) : Value := .obj (build (stateEndFields state))

def remoteFields (remote : SessionData) : Fields :=
  stateEndFields remote.state ++
    [("discr", some (ofUint32 remote.discr)), ("detect_mult", some (ofUint8 remote.timing.detectMult)),
      ("min_tx_us", some (ofUint32 remote.timing.minTxUs)), ("min_rx_us", some (ofUint32 remote.timing.minRxUs)),
      ("cpi", some (.bool remote.flags.cpi))]

def jrpcSessionStateRemote (remote : SessionData) : Value := .obj (build (remoteFields remote))

def timingFields (timing : Timing) : Fields :=
  [("detect_mult", some (ofUint8 timing.detectMult)), ("min_tx_us", some (ofUint32 timing.minTxUs)),
    ("min_rx_us", some (ofUint32 timing.minRxUs))]

def bpfTimingJson (timing : Timing) : Value := .obj (build (timingFields timing))

def bpfSessionStateStr : BState → String
  | .onHold => "on-hold"
  | .stable => "stable"
  | .awaitFinal => "await-final"
  | .awaitNonFinal => "await-non-final"
  | .shuttingDown => "shutting-down"

structure CSessionStateBpf where
  bstate : Option String
  effTiming : Option Timing
  pollTiming : Option Timing
  qdTiming : Option Bool
  deriving DecidableEq, Repr

/-- A stable session shows its timing and, falling through, that of the last
poll sequence; one on hold shows neither. -/
def bpfShown (bsess : BSession) : CSessionStateBpf where
  bstate := some (bpfSessionStateStr bsess.bstate)
  effTiming := match bsess.bstate with
    | .stable => some bsess.effData.timing
    | _ => none
  pollTiming := match bsess.bstate with
    | .onHold => none
    | _ => some bsess.dfrData.timing
  qdTiming := match bsess.bstate with
    | .onHold => none
    | _ => if bsess.qdChange then some true else none

def bpfFields (shown : CSessionStateBpf) : Fields :=
  [("bstate", shown.bstate.map .str), ("eff_timing", shown.effTiming.map bpfTimingJson),
    ("poll_timing", shown.pollTiming.map bpfTimingJson), ("qd_timing", shown.qdTiming.map .bool)]

def bpfSessionStateJson (bsess : BSession) : Value := .obj (build (bpfFields (bpfShown bsess)))

def stateFields (dsess : DSession) (bsess : BSession) : Fields :=
  [("remote", some (jrpcSessionStateRemote dsess.remoteData)),
    ("local", some (jrpcSessionStateLocal dsess.localData.state)), ("bpf", some (bpfSessionStateJson bsess))]

def jrpcSessionStateObj (dsess : DSession) (bsess : BSession) : Value :=
  .obj (build (stateFields dsess bsess))

def sessionElem (data state : Value) : Value := .obj (build [("data", some data), ("state", some state)])

/-- A message of the data plane about a session; its other fields are not
passed on. -/
structure BfddpStateChange where
  lid : Be32
  rid : Be32
  desiredTx : Be32
  requiredRx : Be32
  state : UInt8
  diagnostics : UInt8
  detectionMultiplier : UInt8
  deriving DecidableEq, Repr

def stateChangeRemote (sc : BfddpStateChange) : Fields :=
  [("state", some (.str (bfdStateToStr sc.state))), ("diag", some (.str (bfdDiagToStr sc.diagnostics.toNat))),
    ("discr", some (ofUint32 (ntoh32 sc.rid))), ("detect_mult", some (ofUint8 sc.detectionMultiplier)),
    ("min_tx_us", some (ofUint32 (ntoh32 sc.desiredTx))), ("min_rx_us", some (ofUint32 (ntoh32 sc.requiredRx)))]

def stateChangeSession (sc : BfddpStateChange) : Value :=
  .obj (build
    [("state", some (.obj (build [("remote", some (.obj (build (stateChangeRemote sc))))]))),
      ("data", some (.obj (build [("discr", some (ofUint32 (ntoh32 sc.lid)))])))])

def bfddFormatStateChange (sc : BfddpStateChange) : Value :=
  .obj (build [("session", some (stateChangeSession sc))])

def dataPolicy (stateOnly : Bool) : List Policy :=
  [{ key := "state", kind := .string, required := true }, { key := "diag", kind := .string, required := true },
    { key := "discr", kind := .int, required := true, ignored := stateOnly },
    { key := "detect_mult", kind := .int, required := true, ignored := stateOnly },
    { key := "min_tx_us", kind := .int, required := true, ignored := stateOnly },
    { key := "min_rx_us", kind := .int, required := true, ignored := stateOnly },
    { key := "cpi", kind := .boolean, required := true, ignored := stateOnly }]

def dissectSessionData (stateOnly : Bool) (obj : Value) : Except String SessionData := do
  let values ← dissect (dataPolicy stateOnly) obj
  let stateStr := getString ((values.lookup "state").getD .null)
  match bfdStateFromStr stateStr with
  | none => .error s!"Invalid session state `{stateStr}'"
  | some state =>
    let diagStr := getString ((values.lookup "diag").getD .null)
    match bfdDiagFromStr diagStr with
    | none => .error s!"Invalid session diag `{diagStr}'"
    | some diag =>
      let discr ← ifSeen values "discr" 0 getUint32
      let detectMult ← ifSeen values "detect_mult" 0 getUint8
      let minTxUs ← ifSeen values "min_tx_us" 0 getUint32
      let minRxUs ← ifSeen values "min_rx_us" 0 getUint32
      let cpi := getBoolean ((values.lookup "cpi").getD .null)
      pure ⟨{ Flags.none with cpi := cpi }, discr, ⟨detectMult, minTxUs, minRxUs⟩, ⟨state, diag⟩⟩

def timingPolicy : List Policy :=
  [{ key := "detect_mult", kind := .int, required := true },
    { key := "min_tx_us", kind := .int, required := true },
    { key := "min_rx_us", kind := .int, required := true }]

def dissectTiming (obj : Value) : Except String Timing := do
  let values ← dissect timingPolicy obj
  let detectMult ← getUint8 ((values.lookup "detect_mult").getD .null)
  let minTxUs ← getUint32 ((values.lookup "min_tx_us").getD .null)
  let minRxUs ← getUint32 ((values.lookup "min_rx_us").getD .null)
  pure ⟨detectMult, minTxUs, minRxUs⟩

def bpfPolicy : List Policy :=
  [{ key := "bstate", kind := .string }, { key := "eff_timing", kind := .object },
    { key := "poll_timing", kind := .object }, { key := "qd_timing", kind := .boolean }]

def dissectSessionStateBpf (obj : Value) : Except String CSessionStateBpf := do
  let values ← dissect bpfPolicy obj
  let timing := fun key => ifSeen values key none (fun val => (dissectTiming val).map some)
  let effTiming ← timing "eff_timing"
  let pollTiming ← timing "poll_timing"
  pure ⟨(values.lookup "bstate").map getString, effTiming, pollTiming,
    (values.lookup "qd_timing").map getBoolean⟩

structure CSessionState where
  localEnd : Option StateEnd
  remote : SessionData
  bpf : Option CSessionStateBpf
  deriving DecidableEq, Repr

def statePolicy : List Policy :=
  [{ key := "local", kind := .object }, { key := "remote", kind := .object, required := true },
    { key := "bpf", kind := .object }]

def dissectSessionState (obj : Value) : Except String CSessionState := do
  let values ← dissect statePolicy obj
  let localEnd ← ifSeen values "local" none
    (fun val => (dissectSessionData true val).map (fun data => some data.state))
  let remote ← dissectSessionData false ((values.lookup "remote").getD .null)
  let bpf ← ifSeen values "bpf" none (fun val => (dissectSessionStateBpf val).map some)
  pure ⟨localEnd, remote, bpf⟩

def elemPolicy : List Policy :=
  [{ key := "data", kind := .object, required := true }, { key := "state", kind := .object, required := true }]

def dissectSessionElem (obj : Value) : Except String (CSession × CSessionState) := do
  let values ← dissect elemPolicy obj
  let csess ← jrpcDissectSessionOne ((values.lookup "data").getD .null)
  let state ← dissectSessionState ((values.lookup "state").getD .null)
  pure (csess, state)

def sessionChangePolicy : List Policy :=
  [{ key := "discr", kind := .int }, { key := "session", kind := .object }]

def monitorHandleSessionChange (params : Value) :
    Except String (Option (Except String (CSession × CSessionState))) := do
  let values ← dissect sessionChangePolicy params
  pure ((values.lookup "session").map dissectSessionElem)

section

theorem bfdStateFromStr_toStr (state : PktState) :
    bfdStateFromStr (bfdStateToStr state.toUInt8) = some state := by
  cases state <;> rfl

theorem bfdDiagFromStr_toStr (diag : Diag) :
    bfdDiagFromStr (bfdDiagToStr diag.val) = if diag.val < 9 then some diag else none := by
  revert diag
  decide +kernel

theorem bfdDiagToStr_unknown {dv : Nat} (h : ¬ dv < 9) : bfdDiagToStr dv = "unknown" := by
  rw [bfdDiagToStr, strtabValToStr, List.getD_eq_getElem?_getD, List.getElem?_eq_none
    (by simpa [sessionDiagStr] using h)]
  rfl

theorem dissected_remote (remote : SessionData) :
    dissect (dataPolicy false) (jrpcSessionStateRemote remote) = .ok (present (remoteFields remote)) := rfl

theorem dissected_local (state : StateEnd) :
    dissect (dataPolicy true) (jrpcSessionStateLocal state) = .ok (present (stateEndFields state)) := rfl

theorem dissected_timing (timing : Timing) :
    dissect timingPolicy (bpfTimingJson timing) = .ok (present (timingFields timing)) := rfl

theorem dissected_state (dsess : DSession) (bsess : BSession) :
    dissect statePolicy (jrpcSessionStateObj dsess bsess) = .ok (present (stateFields dsess bsess)) := rfl

theorem dissectSessionData_remote (remote : SessionData) :
    dissectSessionData false (jrpcSessionStateRemote remote) =
      if remote.state.diag.val < 9 then .ok { remote with flags := { Flags.none with cpi := remote.flags.cpi } }
      else .error "Invalid session diag `unknown'" := by
  simp only [dissectSessionData, dissected_remote, bind, Except.bind]
  have hstate : getString (((present (remoteFields remote)).lookup "state").getD .null) =
      bfdStateToStr remote.state.state.toUInt8 := rfl
  have hdiag : getString (((present (remoteFields remote)).lookup "diag").getD .null) =
      bfdDiagToStr remote.state.diag.val := rfl
  simp only [hstate, hdiag, bfdStateFromStr_toStr, bfdDiagFromStr_toStr]
  by_cases h : remote.state.diag.val < 9
  · simp only [h, if_true]
    have hdiscr : ifSeen (present (remoteFields remote)) "discr" 0 getUint32 = .ok remote.discr :=
      getUint32_ofUint32 _
    have hmult : ifSeen (present (remoteFields remote)) "detect_mult" 0 getUint8 = .ok
      remote.timing.detectMult :=
      getUint8_ofUint8 _
    have htx : ifSeen (present (remoteFields remote)) "min_tx_us" 0 getUint32 = .ok remote.timing.minTxUs :=
      getUint32_ofUint32 _
    have hrx : ifSeen (present (remoteFields remote)) "min_rx_us" 0 getUint32 = .ok remote.timing.minRxUs :=
      getUint32_ofUint32 _
    simp only [hdiscr, hmult, htx, hrx]
    rfl
  · simp only [h, if_false, bfdDiagToStr_unknown h]
    rfl

theorem dissectSessionData_local {state : StateEnd} (h : state.diag.val < 9) :
    (dissectSessionData true (jrpcSessionStateLocal state)).map (fun data => some data.state) = .ok
    (some state) := by
  simp only [dissectSessionData, dissected_local, bind, Except.bind]
  have hstate : getString (((present (stateEndFields state)).lookup "state").getD .null) =
      bfdStateToStr state.state.toUInt8 := rfl
  have hdiag : getString (((present (stateEndFields state)).lookup "diag").getD .null) =
    bfdDiagToStr state.diag.val := rfl
  simp only [hstate, hdiag, bfdStateFromStr_toStr, bfdDiagFromStr_toStr, h, if_true]
  rfl

theorem dissectTiming_json (timing : Timing) : dissectTiming (bpfTimingJson timing) = .ok timing := by
  simp [dissectTiming, dissected_timing, bind, Except.bind, present, timingFields, List.lookup_cons,
    pure, Except.pure]

theorem dissectSessionStateBpf_json (shown : CSessionStateBpf) :
    dissectSessionStateBpf (.obj (build (bpfFields shown))) = .ok shown := by
  have hn : ((bpfFields shown).map Prod.fst).Nodup := by
    simp only [bpfFields, List.map_cons, List.map_nil]
    decide +kernel
  have hd : dissect bpfPolicy (.obj (build (bpfFields shown))) = .ok (present (bpfFields shown)) := by
    refine dissect_build hn ?_ (fun pol hpol _ hreq => ?_)
    · simp only [Allowed, bpfFields, List.forall_mem_cons]
      exact ⟨allows_map rfl (fun _ => rfl), allows_map rfl (fun _ => rfl), allows_map rfl (fun _ => rfl),
        allows_map rfl (fun _ => rfl), fun f hf => by cases hf⟩
    · have hnone : ∀ pol ∈ bpfPolicy, pol.required = false := by
        simp only [bpfPolicy, List.forall_mem_cons]
        simp
      rw [hnone pol hpol] at hreq
      cases hreq
  have hv : ∀ (key : String) {field}, (bpfFields shown).lookup key = some field →
      (present (bpfFields shown)).lookup key = field := by
    intro key field hf
    rw [lookup_present hn, hf]
    rfl
  have htiming : ∀ (key : String) (x : Option Timing), (present (bpfFields shown)).lookup key =
    x.map bpfTimingJson →
      ifSeen (present (bpfFields shown)) key none (fun val => (dissectTiming val).map some) = .ok x := by
    intro key x hx
    rw [ifSeen, hx]
    cases x with
    | none => rfl
    | some timing => simp [dissectTiming_json, Except.map]
  have hstr : (shown.bstate.map Value.str).map getString = shown.bstate := by
    cases shown.bstate <;> rfl
  simp only [dissectSessionStateBpf, hd, bind, Except.bind, htiming "eff_timing" _ (hv "eff_timing" rfl),
    htiming "poll_timing" _ (hv "poll_timing" rfl), hv "bstate" rfl, map_getBoolean (hv "qd_timing" rfl), hstr,
    pure, Except.pure]

def stateShown (dsess : DSession) (bsess : BSession) : CSessionState where
  localEnd := some dsess.localData.state
  remote := { dsess.remoteData with flags := { Flags.none with cpi := dsess.remoteData.flags.cpi } }
  bpf := some (bpfShown bsess)

theorem dissectSessionState_obj {dsess : DSession} {bsess : BSession}
    (h : dsess.localData.state.diag.val < 9) :
    dissectSessionState (jrpcSessionStateObj dsess bsess) =
      if dsess.remoteData.state.diag.val < 9 then .ok (stateShown dsess bsess)
      else .error "Invalid session diag `unknown'" := by
  have hl : ifSeen (present (stateFields dsess bsess)) "local" none
      (fun val => (dissectSessionData true val).map (fun data => some data.state)) = .ok
        (some dsess.localData.state) :=
    dissectSessionData_local h
  have hr : ((present (stateFields dsess bsess)).lookup "remote").getD .null =
    jrpcSessionStateRemote dsess.remoteData := rfl
  have hb : ifSeen (present (stateFields dsess bsess)) "bpf" none
    (fun val => (dissectSessionStateBpf val).map some) =
      .ok (some (bpfShown bsess)) := by
    change (dissectSessionStateBpf (bpfSessionStateJson bsess)).map some = _
    rw [bpfSessionStateJson, dissectSessionStateBpf_json]
    rfl
  simp only [dissectSessionState, dissected_state, bind, Except.bind, hl, hr, hb, dissectSessionData_remote]
  by_cases hd : dsess.remoteData.state.diag.val < 9 <;> simp only [hd, if_true, if_false]
  rfl

theorem dissectSessionElem_elem {members members' : Members} :
    dissectSessionElem (sessionElem (.obj members) (.obj members')) =
      (jrpcDissectSessionOne (.obj members) >>= fun csess =>
        (dissectSessionState (.obj members')).map (fun state => (csess, state))) := by
  have hd : dissect elemPolicy (sessionElem (.obj members) (.obj members')) =
      .ok [("data", .obj members), ("state", .obj members')] := rfl
  simp only [dissectSessionElem, hd, bind, Except.bind]
  rfl

theorem dissectSessionElem_stateChange (sc : BfddpStateChange) :
    ∃ error, dissectSessionElem (stateChangeSession sc) = .error error := by
  have hd : dissect elemPolicy (stateChangeSession sc) =
      .ok [("state", .obj (build [("remote", some (.obj (build (stateChangeRemote sc))))])),
        ("data", .obj (build [("discr", some (ofUint32 (ntoh32 sc.lid)))]))] := rfl
  have hs : dissectSessionState (.obj (build [("remote", some (.obj (build (stateChangeRemote sc))))])) =
      .error "Required member cpi not present" := rfl
  cases h : dissectSessionElem (stateChangeSession sc) with
  | error error => exact ⟨error, rfl⟩
  | ok result =>
    rw [dissectSessionElem, hd] at h
    obtain ⟨values, hv, h⟩ := Lib.Program.bind_eq_ok.mp h
    cases hv
    obtain ⟨csess, -, h⟩ := Lib.Program.bind_eq_ok.mp h
    obtain ⟨state, h, -⟩ := Lib.Program.bind_eq_ok.mp h
    have he : dissectSessionState
      (.obj (build [("remote", some (.obj (build (stateChangeRemote sc))))])) = .ok state := h
    rw [hs] at he
    cases he

theorem monitorHandleSessionChange_stateChange (sc : BfddpStateChange) :
    ∃ error, monitorHandleSessionChange (bfddFormatStateChange sc) = .ok (some (.error error)) := by
  obtain ⟨error, he⟩ := dissectSessionElem_stateChange sc
  have hread : monitorHandleSessionChange (bfddFormatStateChange sc) = .ok
    (some (dissectSessionElem (stateChangeSession sc))) := rfl
  exact ⟨error, by rw [hread, he]⟩

end

end Bbdd.Client
