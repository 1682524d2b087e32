import Bbdd.Client.Lines
import Bbdd.Control.Responses
import Bbdd.Daemon.Decoders

namespace Bbdd.Client

open Lib.Json Jrpc Daemon Control

structure Takes where
  select : Bool
  change : Bool
  bulk : Bool

def sessionMethod (method : String) : Option Takes :=
  if method = "session-show" then some ⟨true, false, false⟩
  else if method = "session-add" then some ⟨false, true, false⟩
  else if method = "session-set" then some ⟨true, true, true⟩
  else if method = "session-del" then some ⟨true, false, true⟩
  else if method = "session-stats-diag" then some ⟨true, false, false⟩
  else if method = "session-stats" then some ⟨true, false, false⟩
  else none

def paramsPolicy (takes : Takes) : List Policy :=
  [{ key := "select", kind := .object, required := takes.select, ignored := !takes.select },
    { key := "change", kind := .object, required := takes.change, ignored := !takes.change },
    { key := "bulk", kind := .boolean }]

structure SessionParams where
  select : Option CSession
  change : Option CSession
  bulk : Bool

def dissectValidateSession (nl : Nl) (what : String) : Value → Except String CSession
  | .null => .error s!"RPC method doesn't allow session {what}"
  | obj =>
    match jrpcDissectSessionOne obj with
    | .error e => .error e
    | .ok csess => validateJrpc nl csess

def dissectWhat (nl : Nl) (values : Members) (what : String) : Except String (Option CSession) :=
  match values.lookup what with
  | none => .ok none
  | some obj => (dissectValidateSession nl what obj).map some

def dissectBulk (values : Members) (takes : Bool) : Except String Bool :=
  match values.lookup "bulk" with
  | none => .ok false
  | some val => if takes then .ok (getBoolean val) else .error "RPC method doesn't allow bulk operations"

def dissectParamsSession (nl : Nl) (takes : Takes) (obj : Value) : Except String SessionParams := do
  let values ← dissect (paramsPolicy takes) obj
  let select ← dissectWhat nl values "select"
  let change ← dissectWhat nl values "change"
  let bulk ← dissectBulk values takes.bulk
  pure ⟨select, change, bulk⟩

structure Terminal where
  otherInt64 : Value → Int
  jsonString : Value → String
  verbosity : Int

def Terminal.getInt64 (term : Terminal) : Value → Int
  | .int n => n
  | val => term.otherInt64 val

def responsePolicy : List Policy :=
  [{ key := "jsonrpc", kind := .string, required := true },
    { key := "id", kind := .null, anyType := true, required := true },
    { key := "result", kind := .null, anyType := true }, { key := "error", kind := .object }]

structure Response where
  id : Value
  result : Value
  isError : Bool

def dissectResponse (obj : Value) : Except String Response :=
  match dissect responsePolicy obj with
  | .error e => .error e
  | .ok values =>
    let ver := getString ((values.lookup "jsonrpc").getD .null)
    let id := (values.lookup "id").getD .null
    if ver ≠ "2.0" then .error s!"Unsupported jsonrpc version: {ver}"
    else
      match values.lookup "error", values.lookup "result" with
      | some _, some _ => .error "Both error and result present in jsonrpc response"
      | none, none => .error "Neither error nor result present in jsonrpc response"
      | some error, none => .ok ⟨id, error, true⟩
      | none, some result => .ok ⟨id, result, false⟩

def errorPolicy : List Policy :=
  [{ key := "code", kind := .int, required := true }, { key := "message", kind := .string, required := true },
    { key := "data", kind := .null, anyType := true }]

def errorText (term : Terminal) (code : Int) (message : String) : Value → String
  | .null => s!"Error {code}: {message}"
  | data =>
    let text := term.jsonString data
    s!"Error {code}: {message} ({text})"

def responseHandleError (term : Terminal) (obj : Value) : Option String :=
  match dissect errorPolicy obj with
  | .error e => if term.verbosity < 0 then none else some s!"Invalid error object: {e}"
  | .ok values =>
    let code := term.getInt64 ((values.lookup "code").getD .null)
    let message := getString ((values.lookup "message").getD .null)
    if term.verbosity < 0 then none else some (errorText term code message ((values.lookup "data").getD .null))

inductive Received
  | fail (error : String)
  | refused (printed : Option String)
  | result (value : Value)

def responseExtractResult (term : Terminal) (expectId : Int) (resultType : Kind) (obj : Value) : Received :=
  match dissectResponse obj with
  | .error e => .fail s!"Invalid response object: {e}"
  | .ok resp =>
    let expected := resultType.name
    let actual := resp.result.kind.name
    let id := term.jsonString resp.id
    if term.getInt64 resp.id ≠ expectId then .fail s!"Unknown response ID: {id}"
    else if resp.isError then .refused (responseHandleError term resp.result)
    else if resp.result.kind ≠ resultType then .fail
      s!"Unexpected result type: {expected} expected, got {actual}"
    else .result resp.result

/-- What the daemon refuses of what a client can say. -/
structure Sendable (csess : CSession) : Prop where
  discr : csess.discr ≠ some 0
  netifIndex : csess.netif.ifindex ≠ some 0
  vrfIndex : csess.vrf.netif.ifindex ≠ some 0
  dst : csess.dst.unset = false

/-- A description of a session arrives as it was sent, and its interfaces are
looked up. -/
def Passed (nl : Nl) (allowed : Bool) (csess : CSession) (got : Option CSession) : Prop :=
  if allowed then Sendable csess ∧ ∃ cs, validateJrpc nl csess = .ok cs ∧ got = some cs else got = none

section

variable {nl : Nl} {csess csess' : CSession} {asked : Asked} {values : Members}

theorem Params.Neat.plain {p : Params} (h : p.Neat) (hs : Sendable p.csess) : Plain p.csess :=
  ⟨hs.discr, hs.netifIndex, hs.vrfIndex, h .name, (h .netif).1, (h .vrf).1, h .src, h .dst, hs.dst⟩

theorem dissect_obj_eq {policy : List Policy} {fields : Fields} (hn : (fields.map Prod.fst).Nodup)
    (h : dissect policy (.obj (build fields)) = .ok values) : values = present fields := by
  rw [build_eq hn] at h
  simp only [dissect] at h
  split at h
  · cases h
  · rename_i vals hvals
    split at h
    · cases h
    · cases h
      exact (dissected_members hvals).1

theorem not_zero {key name : String} {x y : Option UInt32} (hv : values.lookup key = x.map ofUint32)
    (h : dissectField values key name getUint32Non0 = .ok y) : x ≠ some 0 := by
  rintro rfl
  rw [dissectField, hv] at h
  cases h

theorem jrpcDissectSessionOne_sent {p : Params} (hp : p.Neat) :
    jrpcDissectSessionOne (jrpcSessionObj p.csess) = .ok csess' ↔ Sendable p.csess ∧ csess' = p.csess := by
  constructor
  · intro h
    obtain ⟨values, hd, hi⟩ := jrpcDissectSessionOne_inv h
    have hnodup := sessionFields_nodup p.csess
    obtain rfl := dissect_obj_eq hnodup hd
    have hv : ∀ (key : String) {field}, (sessionFields p.csess).lookup key = some field →
        (present (sessionFields p.csess)).lookup key = field := by
      intro key field hf
      rw [lookup_present hnodup, hf]
      rfl
    have hs : Sendable p.csess :=
      { discr := not_zero (hv "discr" rfl) hi.discr
        netifIndex := not_zero (hv "netif_index" rfl) hi.netifIndex
        vrfIndex := not_zero (hv "vrf_index" rfl) hi.vrfIndex
        dst := by
          rw [← Bool.not_eq_true]
          intro hu
          refine dst_not_null hd ((hv "dst" rfl).trans ?_)
          rw [appendAddr, if_pos hu] }
    rw [jrpcDissectSessionOne_obj (hp.plain hs)] at h
    exact ⟨hs, (Except.ok.inj h).symm⟩
  · rintro ⟨hs, rfl⟩
    exact jrpcDissectSessionOne_obj (hp.plain hs)

theorem dissectWhat_sent {p : Params} (hp : p.Neat) {allowed : Bool} {what : String} {got : Option CSession}
    (hv : values.lookup what = if allowed then some (jrpcSessionObj p.csess) else none) :
    dissectWhat nl values what = .ok got ↔ Passed nl allowed p.csess got := by
  rw [dissectWhat, hv, Passed]
  cases allowed with
  | false => exact ⟨fun h => (Except.ok.inj h).symm, fun h => congrArg _ h.symm⟩
  | true =>
    simp only [if_true]
    rw [dissectValidateSession]
    · cases hd : jrpcDissectSessionOne (jrpcSessionObj p.csess) with
      | error e =>
        refine iff_of_false (fun h => (by cases h)) fun hs => ?_
        rw [(jrpcDissectSessionOne_sent hp).mpr ⟨hs.1, rfl⟩] at hd
        cases hd
      | ok csess' =>
        obtain ⟨hs, rfl⟩ := (jrpcDissectSessionOne_sent hp).mp hd
        simp only
        cases validateJrpc nl p.csess with
        | error e =>
          refine iff_of_false (fun h => (by cases h)) ?_
          rintro ⟨-, cs, hcs, -⟩
          cases hcs
        | ok cs =>
          constructor
          · intro h
            exact ⟨hs, cs, rfl, (Except.ok.inj h).symm⟩
          · rintro ⟨-, cs', hcs, rfl⟩
            rw [Except.ok.inj hcs]
            rfl
    · exact fun h => (by cases h)

theorem method_takes {method : String} (h : asked.method = some method) :
    sessionMethod method = some ⟨asked.command.allowQuery, asked.command.allowChange,
      asked.command.allowBulk⟩ := by
  rw [Asked.method] at h
  split at h
  · cases hc : asked.command <;> rw [hc] at h <;> cases h
    rfl
  · cases h
    cases asked.command <;> rfl

theorem paramsFields_nodup (asked : Asked) : ((paramsFields asked).map Prod.fst).Nodup := by
  simp only [paramsFields, List.map_cons, List.map_nil]
  decide

theorem paramsFields_dissected (asked : Asked) :
    dissect (paramsPolicy ⟨asked.command.allowQuery, asked.command.allowChange,
      asked.command.allowBulk⟩) (requestParams asked) =
      .ok (present (paramsFields asked)) := by
  apply dissect_build (paramsFields_nodup asked)
  · simp only [Allowed, paramsFields, List.forall_mem_cons]
    refine ⟨?_, ?_, ?_, fun f hf => absurd hf List.not_mem_nil⟩
    · cases asked.command with
      | add => exact fun v hv => by cases hv
      | _ => exact allows_some rfl rfl
    · cases asked.command with
      | add | set => exact allows_some rfl rfl
      | _ => exact fun v hv => by cases hv
    · split
      · cases asked.command <;> exact allows_some rfl rfl
      · exact fun v hv => by cases hv
  · intro pol hpol _ hreq
    simp only [paramsPolicy, List.mem_cons, List.not_mem_nil, or_false] at hpol
    obtain rfl | rfl | rfl := hpol
    · refine ⟨jrpcSessionObj asked.select, ?_⟩
      rw [paramsFields, show asked.command.allowQuery = true from hreq]
      rfl
    · refine ⟨jrpcSessionObj asked.change, ?_⟩
      rw [paramsFields, show asked.command.allowChange = true from hreq]
      rfl
    · cases hreq

theorem dissectBulk_sent (hb : asked.bulk.isSome = true → asked.command.allowBulk = true)
    (hv : values.lookup "bulk" = if asked.bulk = some true then some (.bool true) else none) :
    dissectBulk values asked.command.allowBulk = .ok (decide (asked.bulk = some true)) := by
  rw [dissectBulk, hv]
  by_cases h : asked.bulk = some true
  · rw [if_pos h, hb (by rw [h]; rfl), decide_eq_true h]
    rfl
  · rw [if_neg h, decide_eq_false h]

theorem dissectRequest_new (method : String) (params : Value) :
    dissectRequest (newRequest 1 method (some params)) = .ok ⟨.int 1, method, params⟩ := rfl

/-- Whatever is typed, the daemon takes the request for what it is: the handler
of the right method gets the descriptions that were typed, unless they are ones
that it refuses. What is not sent was not typed. -/
theorem request_understood {L : Libc} {words : List String} (h : parseSession L words = .ok (some asked)) :
    (asked.command.allowQuery = false → asked.select = .blank) ∧
    (asked.command.allowChange = false → asked.change = .blank) ∧
      ∃ method request takes, asked.method = some method ∧ sessionRequest asked = some request ∧
        dissectRequest request = .ok ⟨.int 1, method, requestParams asked⟩ ∧ sessionMethod method = some takes ∧
        ∀ nl params, dissectParamsSession nl takes (requestParams asked) = .ok params ↔
          Passed nl asked.command.allowQuery asked.select params.select ∧
            Passed nl asked.command.allowChange asked.change params.change ∧ params.bulk = decide
              (asked.bulk = some true) := by
  have hfits := parseSession_fits h
  obtain ⟨method, hmethod⟩ := Option.isSome_iff_exists.mp (method_isSome hfits.diag)
  refine ⟨hfits.query, hfits.unchanged, method, newRequest 1 method (some (requestParams asked)), _,
    hmethod, by rw [sessionRequest, hmethod]; rfl,
    dissectRequest_new method _, method_takes hmethod, fun nl params => ?_⟩
  have hn := paramsFields_nodup asked
  have hselect : (present (paramsFields asked)).lookup "select" =
      if asked.command.allowQuery then some (jrpcSessionObj asked.select) else none := by
    rw [lookup_present hn]
    rfl
  have hchange : (present (paramsFields asked)).lookup "change" =
      if asked.command.allowChange then some (jrpcSessionObj asked.change) else none := by
    rw [lookup_present hn]
    rfl
  have hbulk : (present (paramsFields asked)).lookup "bulk" = if asked.bulk = some true
    then some (.bool true) else none := by
    rw [lookup_present hn]
    rfl
  have hq := @dissectWhat_sent nl _ _ hfits.select _ "select" params.select hselect
  have hc := @dissectWhat_sent nl _ _ hfits.change _ "change" params.change hchange
  rw [← hq, ← hc, dissectParamsSession, paramsFields_dissected]
  constructor
  · intro hok
    obtain ⟨values, hvalues, hok⟩ := Lib.Program.bind_eq_ok.mp hok
    cases hvalues
    obtain ⟨select, hs, hok⟩ := Lib.Program.bind_eq_ok.mp hok
    obtain ⟨change, hch, hok⟩ := Lib.Program.bind_eq_ok.mp hok
    obtain ⟨bulk, hb, hok⟩ := Lib.Program.bind_eq_ok.mp hok
    cases hok
    rw [dissectBulk_sent hfits.bulk hbulk] at hb
    exact ⟨hs, hch, (Except.ok.inj hb).symm⟩
  · rintro ⟨hs, hch, hb⟩
    obtain ⟨select, change, bulk⟩ := params
    refine Lib.Program.bind_eq_ok.mpr ⟨_, rfl, Lib.Program.bind_eq_ok.mpr ⟨select, hs, ?_⟩⟩
    refine Lib.Program.bind_eq_ok.mpr ⟨change, hch, Lib.Program.bind_eq_ok.mpr ⟨bulk, ?_, rfl⟩⟩
    exact (dissectBulk_sent hfits.bulk hbulk).trans (congrArg _ hb.symm)

def slower : Asked where
  command := .set
  select := { CSession.blank with discr := some 5 }
  change := { CSession.blank with minTxUs := some 50000, netif := ⟨true, none, none⟩ }
  bulk := some true
  diag := none

theorem slower_accepted : parseSession ⟨false, fun _ _ => none⟩
    ["discr", "5", "bulk", "set", "min-tx", "50ms", "no", "netif"] =
    .ok (some slower) := rfl

theorem slower_understood : ∃ takes, sessionMethod "session-set" = some takes ∧
    ∀ nl params, dissectParamsSession nl takes (requestParams slower) = .ok params ↔
      Passed nl true slower.select params.select ∧ Passed nl true slower.change params.change ∧
        params.bulk = true := by
  obtain ⟨-, -, method, request, takes, hmethod, -, -, htakes, hparams⟩ := request_understood slower_accepted
  cases hmethod
  exact ⟨takes, htakes, hparams⟩

def Received.of (term : Terminal) (resultType : Kind) : Reply → Received
  | .result value =>
    let expected := resultType.name
    let actual := value.kind.name
    if value.kind = resultType then .result value else .fail
      s!"Unexpected result type: {expected} expected, got {actual}"
  | .error code message data =>
    .refused (if term.verbosity < 0 then none else some (errorText term code message data))

theorem dissectResponse_response (reply : Reply) : dissectResponse (response (.int 1) reply) =
    .ok ⟨.int 1, (replyField reply).2.getD .null, reply.isError⟩ := by
  cases reply <;> rfl

theorem responseHandleError_sent (term : Terminal) (code : Int) (message : String) (data : Value) :
    responseHandleError term
      (.obj (build [("code", some (.int code)), ("message", some (.str message)), ("data", nonNull data)])) =
      if term.verbosity < 0 then none else some (errorText term code message data) := by
  -- null data is left out of the message, and is null again when it is read
  cases data <;> rfl

theorem responseExtractResult_response (term : Terminal) (resultType : Kind) (reply : Reply) :
    responseExtractResult term 1 resultType (response (.int 1) reply) = .of term resultType reply := by
  rw [responseExtractResult, dissectResponse_response]
  cases reply with
  | result value =>
    simp only [Terminal.getInt64, Reply.isError, Received.of, replyField, Option.getD_some, ne_eq,
      not_true_eq_false, if_false,
      Bool.false_eq_true]
    exact ite_not _ _ _
  | error code message data =>
    simp only [Terminal.getInt64, Reply.isError, Received.of, replyField, Option.getD_some, ne_eq,
      not_true_eq_false, if_false,
      if_true, responseHandleError_sent]

/-- Whatever is typed and whatever the daemon has to say to it, that is what the
client ends with: it never finds fault with the response itself, unless a result
is of another type than the command's. -/
theorem exchange_outcome {L : Libc} {words : List String}
    (h : parseSession L words = .ok (some asked)) {τ δ : Type} (S : Setup τ δ) (daemon : δ)
    (term : Terminal) :
    ∃ method request, asked.method = some method ∧ sessionRequest asked = some request ∧
      responseExtractResult term 1 asked.command.expectedResultType (answer S daemon request).2.1 =
        .of term asked.command.expectedResultType (S.handle daemon method (requestParams asked)).2.1 := by
  have hfits := parseSession_fits h
  obtain ⟨method, hmethod⟩ := Option.isSome_iff_exists.mp (method_isSome hfits.diag)
  refine ⟨method, newRequest 1 method (some (requestParams asked)), hmethod, by
    rw [sessionRequest, hmethod]; rfl, ?_⟩
  have hanswer : (answer S daemon (newRequest 1 method (some (requestParams asked)))).2.1 =
      response (.int 1) (S.handle daemon method (requestParams asked)).2.1 := by
    have hd := dissectRequest_new method (requestParams asked)
    unfold answer
    split
    · rename_i hnull
      cases hnull
    · rw [hd]
  rw [hanswer, responseExtractResult_response]

theorem slower_done : ∃ method request, slower.method = some method ∧ sessionRequest slower = some request ∧
    responseExtractResult ⟨fun _ => 0, fun _ => "", 0⟩ 1 .null
      (answer { counting with handle := fun n _ _ => (n + 1, .result .null, false) } 3 request).2.1
        = .result .null :=
  exchange_outcome slower_accepted { counting with handle := fun n _ _ =>
    (n + 1, .result .null, false) } 3 ⟨fun _ => 0, fun _ => "", 0⟩

end

end Bbdd.Client
