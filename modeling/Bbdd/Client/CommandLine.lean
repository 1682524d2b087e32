import Bbdd.Lib.Reading
import Bbdd.Client.Session
import Bbdd.Client.Time
import Bbdd.Daemon.Replay

namespace Bbdd.Client

open Lib.Json Lib.Numeral Lib.Reading Daemon Session Jrpc

structure Libc where
  einval : Bool
  inetPton : UInt16 → String → Option Addr

/-- Why a command line is given up on. -/
inductive Stop
  | usage (message : String)
  | abort
  deriving DecidableEq, Repr

/-- What `strtoll` makes of a text: the value, whether it was out of range, and
what comes after it. -/
structure Converted where
  value : Int
  erange : Bool
  rest : List Char

def toLongLong (sign : Sign) (n : Nat) : Int × Bool :=
  let value : Int := if sign = .minus then -n else n
  if value > 2 ^ 63 - 1 then (2 ^ 63 - 1, true)
  else if value < -2 ^ 63 then (-2 ^ 63, true)
  else (value, false)

def strtoll (str : List Char) : Option Converted :=
  match subject (takeSign (str.dropWhile isSpace)).2 with
  | none => none
  | some found =>
    let converted := toLongLong (takeSign (str.dropWhile isSpace)).1 found.1
    some ⟨converted.1, converted.2, found.2⟩

def parseRange (L : Libc) (min max : Int) (str what : String) : Except String Int :=
  let invalid := s!"Invalid {what} `{str}'. Expected integer [{min},{max}] (decimal or 0x-hex)"
  if (strtoll str.toList).isNone && L.einval then .error invalid
  else
    -- with no number the value is zero, and all of the text comes after it
    let converted := (strtoll str.toList).getD ⟨0, false, str.toList⟩
    let rv := converted.value
    if rv < min ∨ rv > max ∨ converted.erange = true then .error invalid
    else if converted.rest ≠ [] then .error s!"Invalid {what}: value `{rv}' followed by garbage"
    else .ok rv

def parseU8 (L : Libc) (str what : String) : Except String UInt8 :=
  (parseRange L 0 (2 ^ 8 - 1) str what).map fun v => UInt8.ofNat v.toNat

def parseU32 (L : Libc) (str what : String) : Except String UInt32 :=
  (parseRange L 0 (2 ^ 32 - 1) str what).map fun v => UInt32.ofNat v.toNat

def parseIfname (str what : String) : Except String String :=
  if str.utf8ByteSize ≥ ifNameSize then .error s!"Can't parse {what} `{str}': too long." else .ok str

def parseAddr (L : Libc) (str what : String) : Except String (UInt16 × String) :=
  if str.utf8ByteSize ≥ inet6AddrstrLen then .error s!"Can't parse {what} `{str}': address too long."
  else if (L.inetPton afInet str).isSome then .ok (afInet, str)
  else if (L.inetPton afInet6 str).isSome then .ok (afInet6, str)
  else .error s!"Can't parse {what} `{str}' as either IPv4 or IPv6 address."

def parseTime (str what : String) : Except String UInt32 :=
  match parseTimeUs str.toList with
  | .error e => .error s!"Can't parse {what} `{str}': {e}"
  | .ok us => .ok us

def incomplete : Stop := .usage "Command line is not complete. Try option \"help\""

/-- A keyword with a value after it. It is a duplicate before the value is even
looked at. -/
def parseKw {α : Type} (kw : String) (seen : Bool) (parser : String → String → Except String α) :
    List String → Except Stop (Option (α × List String))
  | [] => .ok none
  | word :: rest =>
    if word ≠ kw then .ok none
    else if seen then .error (.usage s!"Duplicate keyword `{kw}'.")
    else
      match rest with
      | [] => .error incomplete
      | arg :: rest =>
        match parser arg kw with
        | .error e => .error (.usage e)
        | .ok value => .ok (some (value, rest))

def kwFlagHere (kw : String) (seen value : Bool) (word : String) (rest : List String) :
    Except Stop (Option (Bool × List String)) :=
  let no := if value then "" else "no "
  if word ≠ kw then .ok none
  else if seen then .error (.usage s!"Duplicate keyword `{no}{kw}'.")
  else .ok (some (value, rest))

/-- A keyword that stands alone or after a `no`. A `no` with nothing after it is
an error to whoever looks at it first. -/
def parseKwFlag (kw : String) (seen : Bool) : List String → Except Stop (Option (Bool × List String))
  | [] => .ok none
  | word :: rest =>
    if word = "no" then
      match rest with
      | [] => .error incomplete
      | word :: rest => kwFlagHere kw seen false word rest
    else kwFlagHere kw seen true word rest

def thenCheck {α τ : Type} (found : Except Stop (Option (α × List String))) (next : α → Except Stop τ) :
    Except Stop (Option (τ × List String)) :=
  match found with
  | .error e => .error e
  | .ok none => .ok none
  | .ok (some r) =>
    match next r.1 with
    | .error e => .error e
    | .ok t => .ok (some (t, r.2))

def kwValue {α : Type} (kw : String) (parser : String → String → Except String α) :
    Reader (Option α) Stop :=
  fun field ws => thenCheck (parseKw kw field.isSome parser ws) fun value => .ok (some value)

def kwFlag (kw : String) : Reader (Option Bool) Stop := fun flag ws =>
  thenCheck (parseKwFlag kw flag.isSome ws) fun value => .ok (some value)

def parseKwU8 (L : Libc) (kw : String) : Reader (Option UInt8) Stop := kwValue kw (parseU8 L)

def parseKwU32 (L : Libc) (kw : String) : Reader (Option UInt32) Stop := kwValue kw (parseU32 L)

def parseKwTimeUs (kw : String) : Reader (Option UInt32) Stop := kwValue kw parseTime

/-- `no KW` is another way to say zero. -/
def parseKwU32No (L : Libc) (kw : String) : Reader (Option UInt32) Stop :=
  orElse (parseKwU32 L kw) fun field ws =>
    thenCheck (parseKwFlag kw field.isSome ws) fun value => if value then .error .abort else .ok (some 0)

def alreadyUnset (kw flagKw : String) : Stop :=
  .usage s!"Duplicate keyword `{kw}', `no {flagKw}' already given."

def alreadyGiven (flagKw kw : String) : Stop :=
  .usage s!"Duplicate keyword `no {flagKw}', `{kw}' already given."

def sessionParseStr (kw : String) : Reader CStr Stop :=
  orElse
    (fun str ws => thenCheck (parseKw kw str.val.isSome parseIfname ws) fun val =>
      if str.unset then .error (alreadyUnset kw kw) else .ok { str with val := some val })
    (fun str ws => thenCheck (parseKwFlag kw str.val.isSome ws) fun value =>
      if value then .error .abort else .ok { str with unset := true })

def indexKw (kw : String) : String := kw ++ "-index"

def sessionParseNetifIfindex (L : Libc) (flagKw ixKw : String) : Reader CNetif Stop := fun netif ws =>
  thenCheck (parseKw ixKw netif.ifindex.isSome (parseU32 L) ws) fun ifindex =>
    if netif.unset then .error (alreadyUnset ixKw flagKw) else .ok { netif with ifindex := some ifindex }

def sessionParseNetifKw (kw : String) : Reader CNetif Stop := fun netif ws =>
  thenCheck (parseKw kw netif.name.isSome parseIfname ws) fun name =>
    if netif.unset then .error (alreadyUnset kw kw) else .ok { netif with name := some name }

def sessionParseNetifFlag (kw ixKw : String) : Reader CNetif Stop := fun netif ws =>
  thenCheck (parseKwFlag kw netif.unset ws) fun _ =>
    if netif.name.isSome then .error (alreadyGiven kw kw)
    else if netif.ifindex.isSome then .error (alreadyGiven kw ixKw)
    else .ok { netif with unset := true }

def sessionParseNetif (L : Libc) (kw : String) : Reader CNetif Stop :=
  orElse (sessionParseNetifIfindex L kw (indexKw kw))
    (orElse (sessionParseNetifKw kw) (sessionParseNetifFlag kw (indexKw kw)))

def sessionParseAddrKw (L : Libc) (kw : String) : Reader CAddr Stop := fun addr ws =>
  thenCheck (parseKw kw (addr.af != 0) (parseAddr L) ws) fun found =>
    if addr.unset then .error (alreadyUnset kw kw) else .ok { addr with af := found.1, str := found.2 }

def sessionParseAddrFlag (kw : String) : Reader CAddr Stop := fun addr ws =>
  thenCheck (parseKwFlag kw addr.unset ws) fun _ =>
    if addr.af ≠ 0 then .error (alreadyGiven kw kw) else .ok { addr with unset := true }

def sessionParseAddr (L : Libc) (kw : String) : Reader CAddr Stop :=
  orElse (sessionParseAddrKw L kw) (sessionParseAddrFlag kw)

/-- The parameters there are keywords for, in the order they are tried in. -/
inductive Key
  | multihop | cpi | passive | shutdown
  | discr | remoteDiscr | name | minTx | minRx | holdTime | ttl | detectMult
  | src | dst | netif | vrf | vrfTable
  | bulk | diag
  deriving DecidableEq, Repr

abbrev Key.Slot : Key → Type
  | multihop | cpi | passive | shutdown | bulk | diag => Option Bool
  | discr | remoteDiscr | minTx | minRx | holdTime | vrfTable => Option UInt32
  | ttl | detectMult => Option UInt8
  | name => CStr
  | src | dst => CAddr
  | netif | vrf => CNetif

structure Params where
  csess : CSession
  bulk : Option Bool
  diag : Option Bool
  deriving DecidableEq, Repr

def Params.blank : Params := ⟨.blank, none, none⟩

def Params.get (p : Params) : (k : Key) → k.Slot
  | .multihop => p.csess.flags.multihop
  | .cpi => p.csess.flags.cpi
  | .passive => p.csess.flags.passive
  | .shutdown => p.csess.flags.shutdown
  | .discr => p.csess.discr
  | .remoteDiscr => p.csess.remoteDiscr
  | .name => p.csess.name
  | .minTx => p.csess.minTxUs
  | .minRx => p.csess.minRxUs
  | .holdTime => p.csess.holdTimeUs
  | .ttl => p.csess.ttl
  | .detectMult => p.csess.detectMult
  | .src => p.csess.src
  | .dst => p.csess.dst
  | .netif => p.csess.netif
  | .vrf => p.csess.vrf.netif
  | .vrfTable => p.csess.vrf.table
  | .bulk => p.bulk
  | .diag => p.diag

def Params.put (p : Params) : (k : Key) → k.Slot → Params
  | .multihop, x => { p with csess := { p.csess with flags := { p.csess.flags with multihop := x } } }
  | .cpi, x => { p with csess := { p.csess with flags := { p.csess.flags with cpi := x } } }
  | .passive, x => { p with csess := { p.csess with flags := { p.csess.flags with passive := x } } }
  | .shutdown, x => { p with csess := { p.csess with flags := { p.csess.flags with shutdown := x } } }
  | .discr, x => { p with csess := { p.csess with discr := x } }
  | .remoteDiscr, x => { p with csess := { p.csess with remoteDiscr := x } }
  | .name, x => { p with csess := { p.csess with name := x } }
  | .minTx, x => { p with csess := { p.csess with minTxUs := x } }
  | .minRx, x => { p with csess := { p.csess with minRxUs := x } }
  | .holdTime, x => { p with csess := { p.csess with holdTimeUs := x } }
  | .ttl, x => { p with csess := { p.csess with ttl := x } }
  | .detectMult, x => { p with csess := { p.csess with detectMult := x } }
  | .src, x => { p with csess := { p.csess with src := x } }
  | .dst, x => { p with csess := { p.csess with dst := x } }
  | .netif, x => { p with csess := { p.csess with netif := x } }
  | .vrf, x => { p with csess := { p.csess with vrf := { p.csess.vrf with netif := x } } }
  | .vrfTable, x => { p with csess := { p.csess with vrf := { p.csess.vrf with table := x } } }
  | .bulk, x => { p with bulk := x }
  | .diag, x => { p with diag := x }

def Key.reader (L : Libc) : (k : Key) → Reader k.Slot Stop
  | .multihop => kwFlag "multihop"
  | .cpi => kwFlag "cpi"
  | .passive => kwFlag "passive"
  | .shutdown => kwFlag "shutdown"
  | .discr => parseKwU32 L "discr"
  | .remoteDiscr => parseKwU32No L "remote-discr"
  | .name => sessionParseStr "name"
  | .minTx => parseKwTimeUs "min-tx"
  | .minRx => parseKwTimeUs "min-rx"
  | .holdTime => parseKwTimeUs "hold-time"
  | .ttl => parseKwU8 L "ttl"
  | .detectMult => parseKwU8 L "detect-mult"
  | .src => sessionParseAddr L "src"
  | .dst => sessionParseAddr L "dst"
  | .netif => sessionParseNetif L "netif"
  | .vrf => sessionParseNetif L "vrf"
  | .vrfTable => parseKwU32 L "vrf-table"
  | .bulk => kwFlag "bulk"
  | .diag => kwFlag "diag"

def Key.tried (early : Bool) : List Key :=
  [.multihop, .cpi, .passive, .shutdown, .discr, .remoteDiscr, .name, .minTx, .minRx, .holdTime,
    .ttl, .detectMult,
    .src, .dst, .netif, .vrf, .vrfTable] ++ if early then [.bulk, .diag] else []

def parseParam (L : Libc) (early : Bool) : Reader Params Stop :=
  firstOf ((Key.tried early).map fun k => on (Params.get · k) (fun x p => p.put k x) (k.reader L))

inductive Command
  | add
  | set
  | del
  | show
  | stats
  deriving DecidableEq, Repr

namespace Command

def all : List Command := [.add, .set, .del, .show, .stats]

def name : Command → String
  | add => "add"
  | set => "set"
  | del => "del"
  | «show» => "show"
  | stats => "stats"

def allowBulk : Command → Bool
  | set | del => true
  | _ => false

def allowDiag : Command → Bool
  | stats => true
  | _ => false

def allowQuery : Command → Bool
  | add => false
  | _ => true

def allowChange : Command → Bool
  | add | set => true
  | _ => false

def rpc : Command → String
  | add => "session-add"
  | set => "session-set"
  | del => "session-del"
  | «show» => "session-show"
  | stats => "session-stats"

def rpcDiag : Command → Option String
  | stats => some "session-stats-diag"
  | _ => none

def expectedResultType : Command → Kind
  | add | set | del => .null
  | «show» | stats => .object

def find (word : String) : Option Command := all.find? fun command => word = command.name

end Command

structure Line where
  select : Params
  change : CSession
  command : Option Command
  seenArg : Bool

def Line.start : Line := ⟨.blank, .blank, none, false⟩

def sessionWords (L : Libc) : Nat → Line → List String → Except Stop (Option Line)
  | _, line, [] => .ok (some line)
  | 0, _, _ :: _ => .error .abort
  | n + 1, line, word :: rest =>
    match Command.find word, line.command with
    | some _, some given =>
      let name := given.name
      .error (.usage s!"`{word}' seen when a command `{name}' was already given")
    | some command, none =>
      if !command.allowQuery && line.seenArg then .error (.usage s!"`{word}' used with session query parameters")
      else sessionWords L n { line with command := some command } rest
    | none, command =>
      if word = "help" then .ok none
      else
        match command with
        | none =>
          match parseParam L true line.select (word :: rest) with
          | .error e => .error e
          | .ok none => .error (.usage s!"What is \"{word}\"?")
          | .ok (some r) => sessionWords L n { line with select := r.1, seenArg := true } r.2
        | some given =>
          if !given.allowChange then
            let name := given.name
            .error (.usage s!"`{name}' used with session change parameters")
          else
            match parseParam L false ⟨line.change, none, none⟩ (word :: rest) with
            | .error e => .error e
            | .ok none => .error (.usage s!"What is \"{word}\"?")
            | .ok (some r) => sessionWords L n { line with change := r.1.csess, seenArg := true } r.2

/-- What a client is asked to do. -/
structure Asked where
  command : Command
  select : CSession
  change : CSession
  bulk : Option Bool
  diag : Option Bool
  deriving DecidableEq, Repr

def checkParamsNetif (netif : CNetif) : Bool := !netif.unset || (netif.name.isNone && netif.ifindex.isNone)

def sessionCheckParams (csess : CSession) : Bool :=
  checkParamsNetif csess.netif && checkParamsNetif csess.vrf.netif

def Asked.method (asked : Asked) : Option String :=
  if asked.diag = some true then asked.command.rpcDiag else some asked.command.rpc

/-- What is asked for by the words after `session`, or nothing if that is help. -/
def parseSession (L : Libc) (words : List String) : Except Stop (Option Asked) :=
  match sessionWords L words.length .start words with
  | .error e => .error e
  | .ok none => .ok none
  | .ok (some line) =>
    match line.command with
    | none => .error (.usage "No command given.")
    | some command =>
      let name := command.name
      if line.select.bulk.isSome && !command.allowBulk then .error
        (.usage s!"`bulk' not supported for `{name}'.")
      else if line.select.diag.isSome && !command.allowDiag then .error
        (.usage s!"`diag' not supported for `{name}'.")
      else if !(sessionCheckParams line.select.csess && sessionCheckParams line.change) then .error .abort
      else
        let asked : Asked := ⟨command, line.select.csess, line.change, line.select.bulk, line.select.diag⟩
        if asked.method.isNone then .error .abort else .ok (some asked)

def paramsFields (asked : Asked) : Fields :=
  [("select", if asked.command.allowQuery then some (jrpcSessionObj asked.select) else none),
    ("change", if asked.command.allowChange then some (jrpcSessionObj asked.change) else none),
    ("bulk", if asked.bulk = some true then some (.bool true) else none)]

def requestParams (asked : Asked) : Value := .obj (build (paramsFields asked))

def newRequest (id : Int) (method : String) (params : Option Value) : Value :=
  .obj (build [("jsonrpc", some (.str "2.0")), ("id", some (.int id)),
    ("method", some (.str method)), ("params", params)])

def sessionRequest (asked : Asked) : Option Value :=
  asked.method.map fun method => newRequest 1 method (some (requestParams asked))

end Bbdd.Client
