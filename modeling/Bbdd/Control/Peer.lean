import Bbdd.Buffer
import Bbdd.Jrpc

namespace Bbdd.Control

open Lib.Program Lib.Wire Lib.Json Buffer Jrpc

def messagePolicy : List Policy :=
  [{ key := "jsonrpc", kind := .string, required := true },
    { key := "id", kind := .null, anyType := true, required := true },
    { key := "method", kind := .string, required := true }, { key := "params", kind := .null, anyType := true }]

structure Request where
  id : Value
  method : String
  params : Value

def dissectRequest (obj : Value) : Except String Request :=
  match dissect messagePolicy obj with
  | .error e => .error e
  | .ok values =>
    let ver := getString ((values.lookup "jsonrpc").getD .null)
    if ver ≠ "2.0" then .error s!"Unsupported jsonrpc version: {ver}"
    else .ok ⟨(values.lookup "id").getD .null, getString ((values.lookup "method").getD .null),
      (values.lookup "params").getD .null⟩

/-- What a handler has to say to a request. -/
inductive Reply
  | result (value : Value)
  | error (code : Int) (message : String) (data : Value)

def nonNull : Value → Option Value
  | .null => none
  | value => some value

def replyField : Reply → String × Option Value
  | .result value => ("result", some value)
  | .error code message data =>
    ("error", some (.obj (build [("code", some (.int code)), ("message", some (.str message)),
      ("data", nonNull data)])))

def response (id : Value) (reply : Reply) : Value :=
  .obj (build [("jsonrpc", some (.str "2.0")), ("id", nonNull id), replyField reply])

def interr (data : String) : Reply := .error (-32603) "Internal error" (.str data)

def invParams (data : String) : Reply := .error (-32602) "Invalid params" (.str data)

def Reply.isError : Reply → Bool
  | .result _ => false
  | .error .. => true

def newErrorInvRequest (data : String) : Value :=
  response .null (.error (-32600) "Invalid Request" (.str data))

inductive Report
  | value (obj : Value)
  | more
  | error (desc : String)

/-- The tokener of the JSON library. Its state is none right after a reset. A
call reports how many bytes it has taken; it takes no more than it is given, and
a value has at least one byte. -/
structure Tokener (τ : Type) where
  parse : Option τ → Bytes → Option τ × Report × Nat
  le : ∀ tok bytes, (parse tok bytes).2.2 ≤ bytes.length
  fresh : ∀ bytes obj, (parse none bytes).2.1 = .value obj → 0 < (parse none bytes).2.2

/-- What the daemon runs with. Its handlers answer at once, and say whether the
connection is to be kept. -/
structure Setup (τ δ : Type) where
  tokener : Tokener τ
  streamMaxbuf : Nat
  realloc : Realloc
  strerror : String
  serialize : Value → Bytes
  handle : δ → String → Value → δ × Reply × Bool

/-- The daemon's end of a connection. What was queued on it, and whether a
buffer had no room, is recorded for the sake of the argument. -/
structure Peer (τ δ : Type) where
  tok : Option τ
  buffered : Nat
  tx : Sb
  daemon : δ
  done : Bool
  eof : Bool
  pollin : Bool
  pollout : Bool
  queued : List Value
  hit : Bool

section

variable {τ δ : Type} (S : Setup τ δ)

def sendKeep (peer : Peer τ δ) (obj : Value) : Peer τ δ :=
  match peer.tx.pushLen S.realloc S.strerror (S.serialize obj) with
  | .error _ => { peer with pollin := true, pollout := true, hit := true }
  | .ok tx => { peer with pollin := true, pollout := true, tx := tx, queued := peer.queued ++ [obj] }

def sendDone (peer : Peer τ δ) (obj : Value) : Peer τ δ := sendKeep S { peer with done := true } obj

def answer (daemon : δ) (obj : Value) : δ × Value × Bool :=
  match obj with
  | .null => (daemon, newErrorInvRequest "null", false)
  | obj =>
    match dissectRequest obj with
    | .error e => (daemon, newErrorInvRequest e, false)
    | .ok req =>
      let r := S.handle daemon req.method req.params
      (r.1, response req.id r.2.1, r.2.2)

def recvObj (peer : Peer τ δ) (obj : Value) : Peer τ δ :=
  let r := answer S peer.daemon obj
  let peer := { peer with daemon := r.1 }
  if r.2.2 then sendKeep S peer r.2.1 else sendDone S peer r.2.1

/-- One call of the tokener: what is left of the bytes and what it reports. The
bytes taken count towards the value they are part of. -/
def tokenize (peer : Peer τ δ) (buf : Bytes) : Peer τ δ × Bytes × Report :=
  match S.tokener.parse peer.tok buf with
  | (_, .value obj, consumed) => ({ peer with tok := none, buffered := 0 }, buf.drop consumed, .value obj)
  | (tok, report, consumed) =>
    ({ peer with tok := tok, buffered := peer.buffered + consumed }, buf.drop consumed, report)

/-- One turn of the loop over received bytes: what is left of them, and what
is returned unless it goes on. -/
def rxStep (peer : Peer τ δ) (buf : Bytes) : Peer τ δ × Bytes × Option (Except Failure Unit) :=
  let needed := peer.buffered + buf.length
  let allowed := S.streamMaxbuf
  if buf = [] then (peer, [], some (.ok ()))
  else if allowed ≠ 0 ∧ needed > allowed then
    ({ peer with hit := true }, buf,
      some (.error (.error s!"JSON buffer overflow: bytes needed {needed}, allowed {allowed}")))
  else
    match tokenize S peer buf with
    | (peer, left, .value obj) => (recvObj S peer obj, left, none)
    | (peer, left, .more) => (peer, left, some (if left = [] then .ok () else .error .assert))
    | (peer, left, .error desc) => (peer, left, some (.error (.error s!"JSON parse error: {desc}")))

section

variable {S}

@[simp] theorem sendKeep_tok (peer : Peer τ δ) (obj : Value) : (sendKeep S peer obj).tok = peer.tok := by
  unfold sendKeep
  split <;> rfl

@[simp] theorem recvObj_tok (peer : Peer τ δ) (obj : Value) : (recvObj S peer obj).tok = peer.tok := by
  simp only [recvObj, sendDone]
  split <;> simp

theorem rxStep_none {peer peer' : Peer τ δ} {buf left : Bytes}
    (h : rxStep S peer buf = (peer', left, none)) :
    buf ≠ [] ∧ ∃ tok obj consumed, S.tokener.parse peer.tok buf = (tok, .value obj, consumed) ∧
      left = buf.drop consumed ∧
      peer' = recvObj S { peer with tok := none, buffered := 0 } obj := by
  simp only [rxStep] at h
  split at h
  · cases h
  split at h
  · cases h
  rename_i hne _
  refine ⟨hne, ?_⟩
  rcases hp : S.tokener.parse peer.tok buf with ⟨tok, obj | _ | desc, consumed⟩ <;> simp only [tokenize, hp] at h
  · cases h
    exact ⟨tok, obj, consumed, rfl, rfl, rfl⟩
  · cases h
  · cases h

theorem rxStep_lt {peer peer' : Peer τ δ} {buf left : Bytes} (h : rxStep S peer buf = (peer', left, none)) :
    2 * left.length + peer'.tok.isSome.toNat < 2 * buf.length + peer.tok.isSome.toNat := by
  obtain ⟨hne, tok, obj, consumed, hp, rfl, rfl⟩ := rxStep_none h
  have hle := S.tokener.le peer.tok buf
  have hpos := List.length_pos_of_ne_nil hne
  rw [recvObj_tok, List.length_drop]
  cases ht : peer.tok with
  | none =>
    rw [ht] at hp hle
    have hfresh := S.tokener.fresh buf obj (by rw [hp])
    simp only [hp, Option.isSome_none, Bool.toNat_false] at hle hfresh ⊢
    omega
  | some tok =>
    simp only [Option.isSome_none, Bool.toNat_false, Option.isSome_some, Bool.toNat_true]
    omega

end

def rxCb (peer : Peer τ δ) (buf : Bytes) : Peer τ δ × Except Failure Unit :=
  match _h : rxStep S peer buf with
  | (peer', _, some rc) => (peer', rc)
  | (peer', left, none) => rxCb peer' left
termination_by 2 * buf.length + peer.tok.isSome.toNat
decreasing_by exact rxStep_lt _h

def eofCb (peer : Peer τ δ) : Peer τ δ :=
  if peer.buffered = 0 then peer else sendDone S peer (newErrorInvRequest "Unexpected end of stream")

def peerRx (peer : Peer τ δ) : List Bytes → Bool → Peer τ δ × Except Failure Unit
  | [], eof => (if eof then eofCb S { peer with eof := true } else peer, .ok ())
  | chunk :: chunks, eof =>
    match rxCb S peer chunk with
    | (peer, .error e) => (peer, .error e)
    | (peer, .ok ()) => peerRx peer chunks eof

def peerTx (peer : Peer τ δ) (room : Nat) : Peer τ δ × Except Failure Unit :=
  match peer.tx.pull (min room peer.tx.len) with
  | .error e => (peer, .error e)
  | .ok tx => ({ peer with tx := tx }, .ok ())

/-- What the poll loop wakes a connection for: chunks that are there to be
received, with the end of the stream after them or not; room for output; the
other side gone. -/
structure Wake where
  input : Option (Nat × Bool)
  output : Option Nat
  hup : Bool

structure Conn (τ δ : Type) where
  peer : Peer τ δ
  inbox : List Bytes
  gone : Bool

def Wake.enabled (wake : Wake) (conn : Conn τ δ) : Bool :=
  !conn.gone && (wake.output.isNone || conn.peer.pollout) &&
    wake.input.all (fun (n, eof) => conn.peer.pollin && n ≤ conn.inbox.length && (!eof || n = conn.inbox.length))

def settle (peer : Peer τ δ) (inbox : List Bytes) : Conn τ δ :=
  if peer.tx.len > 0 then ⟨{ peer with pollin := !peer.eof, pollout := true }, inbox, false⟩
  else if peer.done then ⟨peer, inbox, true⟩
  else ⟨{ peer with pollin := !peer.eof, pollout := false }, inbox, false⟩

def peerEvent (conn : Conn τ δ) (wake : Wake) : Conn τ δ :=
  let input := wake.input.getD (0, false)
  let inbox := conn.inbox.drop input.1
  match peerRx S conn.peer (conn.inbox.take input.1) input.2 with
  | (peer, .error _) => ⟨peer, inbox, true⟩
  | (peer, .ok ()) =>
    if wake.hup then ⟨peer, inbox, true⟩
    else
      match wake.output with
      | none => settle peer inbox
      | some room =>
        match peerTx peer room with
        | (peer, .error _) => ⟨peer, inbox, true⟩
        | (peer, .ok ()) => settle peer inbox

def accept (daemon : δ) (chunks : List Bytes) : Conn τ δ :=
  ⟨⟨none, 0, .new S.streamMaxbuf, daemon, false, false, true, false, [], false⟩, chunks, false⟩

def run (conn : Conn τ δ) : List Wake → Option (Conn τ δ)
  | [] => some conn
  | wake :: wakes => if wake.enabled conn then run (peerEvent S conn wake) wakes else none

end

end Bbdd.Control
