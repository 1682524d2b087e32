import Bbdd.Daemon.Config
import Bbdd.Jrpc

namespace Bbdd.Client

open Lib.Json Jrpc Session Daemon

def inet6AddrstrLen : Nat := 46

def jrpcAddrObj (addr : String) (af : UInt16) : Value :=
  .obj (build [("addr", some (.str addr)), ("family", some (.str (afToStr af)))])

def appendAddr (addr : CAddr) : Option Value :=
  if addr.unset then some .null else if addr.af = 0 then none else some (jrpcAddrObj addr.str addr.af)

/-- A string, or a null if it is unset. The string is added last, and would
replace the null. -/
def appendName (unset : Bool) (val : Option String) : Option Value :=
  (val.map .str).or (if unset then some .null else none)

def sessionFields (csess : CSession) : Fields :=
  [("multihop", csess.flags.multihop.map .bool), ("cpi", csess.flags.cpi.map .bool),
    ("passive", csess.flags.passive.map .bool), ("shutdown", csess.flags.shutdown.map .bool),
    ("discr", csess.discr.map ofUint32), ("remote_discr", csess.remoteDiscr.map ofUint32),
    ("name", appendName csess.name.unset csess.name.val),
    ("min_tx_us", csess.minTxUs.map ofUint32), ("min_rx_us", csess.minRxUs.map ofUint32),
    ("hold_time_us", csess.holdTimeUs.map ofUint32), ("ttl", csess.ttl.map ofUint8),
    ("detect_mult", csess.detectMult.map ofUint8),
    ("src", appendAddr csess.src), ("dst", appendAddr csess.dst),
    ("netif_name", appendName csess.netif.unset csess.netif.name),
    ("netif_index", csess.netif.ifindex.map ofUint32),
    ("vrf_name", appendName csess.vrf.netif.unset csess.vrf.netif.name),
    ("vrf_index", csess.vrf.netif.ifindex.map ofUint32), ("vrf_table", csess.vrf.table.map ofUint32)]

def jrpcSessionObj (csess : CSession) : Value := .obj (build (sessionFields csess))

def sessionPolicy : List Policy :=
  [{ key := "multihop", kind := .boolean }, { key := "cpi", kind := .boolean },
    { key := "passive", kind := .boolean }, { key := "shutdown", kind := .boolean },
    { key := "discr", kind := .int }, { key := "remote_discr", kind := .int },
    { key := "name", kind := .string, nullable := true },
    { key := "src", kind := .object, nullable := true }, { key := "dst", kind := .object },
    { key := "min_tx_us", kind := .int }, { key := "min_rx_us", kind := .int },
    { key := "hold_time_us", kind := .int }, { key := "ttl", kind := .int },
    { key := "detect_mult", kind := .int },
    { key := "netif_name", kind := .string, nullable := true }, { key := "netif_index", kind := .int },
    { key := "vrf_name", kind := .string, nullable := true }, { key := "vrf_index", kind := .int },
    { key := "vrf_table", kind := .int }]

def dissectStr : Value → Except String CStr
  | .null => .ok ⟨true, none⟩
  | val => (strcpy ifNameSize val).map (fun str => ⟨false, some str⟩)

def addrPolicy : List Policy :=
  [{ key := "addr", kind := .string, required := true }, { key := "family", kind := .string, required := true }]

def afOfFamily (family : String) : Option UInt16 :=
  if family = "ipv4" then some afInet else if family = "ipv6" then some afInet6 else none

def dissectAddrObj (val : Value) : Except String CAddr := do
  let values ← dissect addrPolicy val
  let family := getString ((values.lookup "family").getD .null)
  match afOfFamily family with
  | none => .error s!"Unknown address family `{family}'"
  | some af =>
    let str ← strcpy inet6AddrstrLen ((values.lookup "addr").getD .null)
    pure ⟨false, af, str⟩

def dissectAddr : Value → Except String CAddr
  | .null => .ok ⟨true, 0, ""⟩
  | val => dissectAddrObj val

def ifSeen {α : Type} (values : Members) (key : String) (unseen : α)
    (cb : Value → Except String α) : Except String α :=
  match values.lookup key with
  | none => .ok unseen
  | some val => cb val

def dissectField {α : Type} (values : Members) (key name : String) (cb : Value → Except String α) :
    Except String (Option α) :=
  match values.lookup key with
  | none => .ok none
  | some val =>
    match cb val with
    | .error e => .error s!"{name}: {e}"
    | .ok x => .ok (some x)

def jrpcDissectSessionOne (obj : Value) : Except String CSession := do
  let values ← dissect sessionPolicy obj
  let flag := fun key => (values.lookup key).map getBoolean
  let name ← ifSeen values "name" ⟨false, none⟩ dissectStr
  let src ← ifSeen values "src" ⟨false, 0, ""⟩ dissectAddr
  let dst ← ifSeen values "dst" ⟨false, 0, ""⟩ dissectAddr
  let netif ← ifSeen values "netif_name" ⟨false, none⟩ dissectStr
  let vrf ← ifSeen values "vrf_name" ⟨false, none⟩ dissectStr
  let table ← ifSeen values "vrf_table" none (fun val => (getUint32 val).map some)
  let discr ← dissectField values "discr" "discr" getUint32Non0
  let remoteDiscr ← dissectField values "remote_discr" "remote_discr" getUint32
  let minTxUs ← dissectField values "min_tx_us" "min_tx_us" getUint32
  let minRxUs ← dissectField values "min_rx_us" "min_rx_us" getUint32
  let holdTimeUs ← dissectField values "hold_time_us" "hold_time_us" getUint32
  let ttl ← dissectField values "ttl" "ttl" getUint8
  let detectMult ← dissectField values "detect_mult" "detect_mult" getUint8
  let netifIndex ← dissectField values "netif_index" "netif.ifindex" getUint32Non0
  let vrfIndex ← dissectField values "vrf_index" "vrf.netif.ifindex" getUint32Non0
  pure
    { flags := ⟨flag "multihop", flag "cpi", flag "passive", flag "shutdown"⟩
      discr := discr, remoteDiscr := remoteDiscr, minTxUs := minTxUs, minRxUs := minRxUs
      holdTimeUs := holdTimeUs, ttl := ttl, detectMult := detectMult, src := src, dst := dst
      netif := ⟨netif.unset, netif.val, netifIndex⟩
      vrf := ⟨⟨vrf.unset, vrf.val, vrfIndex⟩, table⟩
      name := name }

def PlainName (unset : Bool) (val : Option String) : Prop :=
  (unset = true → val = none) ∧ ∀ str, val = some str → str.utf8ByteSize < ifNameSize

/-- An address that is not both set and unset, of a known family and with
a string that fits its buffer. -/
def PlainAddr (addr : CAddr) : Prop :=
  (addr.unset = true → addr.af = 0) ∧ (addr.af = 0 → addr.str = "") ∧ addr.decoded = true ∧
    addr.str.utf8ByteSize < inet6AddrstrLen

/-- A description of a session that can be written down and read back. -/
structure Plain (csess : CSession) : Prop where
  discr : csess.discr ≠ some 0
  netifIndex : csess.netif.ifindex ≠ some 0
  vrfIndex : csess.vrf.netif.ifindex ≠ some 0
  name : PlainName csess.name.unset csess.name.val
  netif : PlainName csess.netif.unset csess.netif.name
  vrf : PlainName csess.vrf.netif.unset csess.vrf.netif.name
  src : PlainAddr csess.src
  dst : PlainAddr csess.dst
  dstSet : csess.dst.unset = false

section

variable {csess : CSession} {values : Members} {key : String}

theorem sessionFields_nodup (csess : CSession) : ((sessionFields csess).map Prod.fst).Nodup := by
  simp only [sessionFields, List.map_cons, List.map_nil]
  decide +kernel

theorem dissectAddr_obj {addr : CAddr} (h : PlainAddr addr) (hu : addr.unset = false) (haf : addr.af ≠ 0) :
    dissectAddrObj (jrpcAddrObj addr.str addr.af) = .ok addr := by
  obtain ⟨-, -, hdec, hlen⟩ := h
  have hfam : afOfFamily (afToStr addr.af) = some addr.af := by
    simp only [CAddr.decoded, decide_eq_true_eq] at hdec
    obtain h0 | h4 | h6 := hdec
    · exact absurd h0 haf
    · rw [h4]; rfl
    · rw [h6]; rfl
  have hd : dissect addrPolicy (jrpcAddrObj addr.str addr.af) =
      .ok [("addr", .str addr.str), ("family", .str (afToStr addr.af))] := by
    refine dissect_build (by simp only [List.map_cons, List.map_nil]; decide +kernel) ?_ ?_
    · intro f hf v hv
      simp only [List.mem_cons, List.not_mem_nil, or_false] at hf
      obtain rfl | rfl := hf <;> cases hv <;> exact ⟨_, rfl, rfl⟩
    · intro pol hpol _ _
      simp only [addrPolicy, List.mem_cons, List.not_mem_nil, or_false] at hpol
      obtain rfl | rfl := hpol <;> exact ⟨_, rfl⟩
  have hall : dissectAddrObj (jrpcAddrObj addr.str addr.af) = .ok ⟨false, addr.af, addr.str⟩ := by
    simp [dissectAddrObj, hd, bind, Except.bind, List.lookup_cons, getString, hfam, strcpy_str hlen,
      pure, Except.pure]
  rw [hall, ← hu]

theorem ifSeen_name {unset : Bool} {val : Option String} (hv : values.lookup key = appendName unset val)
    (h : PlainName unset val) : ifSeen values key ⟨false, none⟩ dissectStr = .ok ⟨unset, val⟩ := by
  obtain ⟨hu, hlen⟩ := h
  rw [ifSeen, hv]
  cases val with
  | none => cases unset <;> rfl
  | some str =>
    cases unset with
    | true => cases hu rfl
    | false =>
      change (strcpy ifNameSize (.str str)).map _ = _
      rw [strcpy_str (hlen str rfl)]
      rfl

theorem ifSeen_addr {addr : CAddr} (hv : values.lookup key = appendAddr addr) (h : PlainAddr addr) :
    ifSeen values key ⟨false, 0, ""⟩ dissectAddr = .ok addr := by
  rw [ifSeen, hv]
  obtain ⟨unset, af, str⟩ := addr
  cases unset with
  | true =>
    obtain rfl : af = 0 := h.1 rfl
    obtain rfl : str = "" := h.2.1 rfl
    rfl
  | false =>
    by_cases h0 : af = 0
    · subst h0
      obtain rfl : str = "" := h.2.1 rfl
      rfl
    · simp only [appendAddr, Bool.false_eq_true, if_false, h0]
      exact dissectAddr_obj h rfl h0

theorem ifSeen_map {x : Option UInt32} (hv : values.lookup key = x.map ofUint32) :
    ifSeen values key none (fun val => (getUint32 val).map some) = .ok x := by
  rw [ifSeen, hv]
  cases x with
  | none => rfl
  | some a => simp [Except.map]

theorem dissectField_map {α : Type} {enc : α → Value} {cb : Value → Except String α} {x : Option α}
    (hv : values.lookup key = x.map enc) (name : String) (h : ∀ a, x = some a → cb (enc a) = .ok a) :
    dissectField values key name cb = .ok x := by
  rw [dissectField, hv]
  cases x with
  | none => rfl
  | some a => simp [h a rfl]

theorem map_getBoolean {x : Option Bool} (hv : values.lookup key = x.map .bool) :
    (values.lookup key).map getBoolean = x := by
  rw [hv]
  cases x <;> rfl

theorem allows_name {key : String} {pol : Policy} {unset : Bool} {val : Option String}
    (hp : entryOf sessionPolicy key = some pol) (hk : pol.kind = .string) (hn : pol.nullable = true) :
    Allows sessionPolicy key (appendName unset val) := by
  cases val with
  | some str => exact allows_some hp hk
  | none =>
    cases unset with
    | true => exact allows_null hp hn
    | false => exact fun v hv => by cases hv

theorem allows_addr {key : String} {pol : Policy} {addr : CAddr} (hp : entryOf sessionPolicy key = some pol)
    (hk : pol.kind = .object) (hn : addr.unset = true → pol.nullable = true) :
    Allows sessionPolicy key (appendAddr addr) := by
  unfold appendAddr
  split_ifs with hu
  · exact allows_null hp (hn hu)
  · exact fun v hv => by cases hv
  · exact allows_some hp hk

theorem sessionFields_allowed (h : csess.dst.unset = false) :
    Allowed sessionPolicy (sessionFields csess) := by
  have hdst : csess.dst.unset = true → false = true := by simp [h]
  simp only [Allowed, sessionFields, List.forall_mem_cons]
  refine ⟨allows_map rfl (fun _ => rfl), allows_map rfl (fun _ => rfl), allows_map rfl (fun _ => rfl),
    allows_map rfl (fun _ => rfl), allows_map rfl (fun _ => rfl), allows_map rfl (fun _ => rfl),
      allows_name rfl rfl rfl,
    allows_map rfl (fun _ => rfl), allows_map rfl (fun _ => rfl), allows_map rfl (fun _ => rfl),
    allows_map rfl (fun _ => rfl), allows_map rfl (fun _ => rfl), allows_addr rfl rfl (fun _ => rfl),
    allows_addr rfl rfl hdst, allows_name rfl rfl rfl, allows_map rfl (fun _ => rfl), allows_name rfl rfl rfl,
    allows_map rfl (fun _ => rfl), allows_map rfl (fun _ => rfl), fun f hf => by cases hf⟩

theorem sessionFields_dissected (h : csess.dst.unset = false) :
    dissect sessionPolicy (jrpcSessionObj csess) = .ok (present (sessionFields csess)) := by
  refine dissect_build (sessionFields_nodup csess) (sessionFields_allowed h) (fun pol hpol _ hreq => ?_)
  have hnone : ∀ pol ∈ sessionPolicy, pol.required = false := by
    simp only [sessionPolicy, List.forall_mem_cons]
    simp
  rw [hnone pol hpol] at hreq
  cases hreq

theorem jrpcDissectSessionOne_obj (h : Plain csess) :
    jrpcDissectSessionOne (jrpcSessionObj csess) = .ok csess := by
  have hv : ∀ (key : String) {field}, (sessionFields csess).lookup key = some field →
      (present (sessionFields csess)).lookup key = field := by
    intro key field hf
    rw [lookup_present (sessionFields_nodup csess), hf]
    rfl
  have hu32 : ∀ x : Option UInt32, ∀ a, x = some a → getUint32 (ofUint32 a) = .ok a := fun _ a _ =>
    getUint32_ofUint32 a
  have hu8 : ∀ x : Option UInt8, ∀ a, x = some a → getUint8 (ofUint8 a) = .ok a := fun _ a _ =>
    getUint8_ofUint8 a
  have hnon0 : ∀ {x : Option UInt32}, x ≠ some 0 → ∀ a, x = some a → getUint32Non0 (ofUint32 a) = .ok a :=
    fun hx a ha => getUint32Non0_ofUint32 (fun h0 => hx (by rw [ha, h0]))
  simp only [jrpcDissectSessionOne, sessionFields_dissected h.dstSet, bind, Except.bind, pure, Except.pure,
    ifSeen_name (hv "name" rfl) h.name, ifSeen_addr (hv "src" rfl) h.src, ifSeen_addr (hv "dst" rfl) h.dst,
    ifSeen_name (hv "netif_name" rfl) h.netif, ifSeen_name (hv "vrf_name" rfl) h.vrf, ifSeen_map
      (hv "vrf_table" rfl),
    dissectField_map (hv "discr" rfl) "discr" (hnon0 h.discr),
    dissectField_map (hv "remote_discr" rfl) "remote_discr" (hu32 _),
    dissectField_map (hv "min_tx_us" rfl) "min_tx_us" (hu32 _),
    dissectField_map (hv "min_rx_us" rfl) "min_rx_us" (hu32 _),
    dissectField_map (hv "hold_time_us" rfl) "hold_time_us" (hu32 _),
    dissectField_map (hv "ttl" rfl) "ttl" (hu8 _), dissectField_map (hv "detect_mult" rfl) "detect_mult" (hu8 _),
    dissectField_map (hv "netif_index" rfl) "netif.ifindex" (hnon0 h.netifIndex),
    dissectField_map (hv "vrf_index" rfl) "vrf.netif.ifindex" (hnon0 h.vrfIndex),
    map_getBoolean (hv "multihop" rfl), map_getBoolean (hv "cpi" rfl), map_getBoolean (hv "passive" rfl),
    map_getBoolean (hv "shutdown" rfl)]

def CAddr.given (addr : CAddr) : CAddr := if addr.af = 0 then { addr with str := "" } else addr

theorem appendAddr_given (addr : CAddr) : appendAddr (CAddr.given addr) = appendAddr addr := by
  unfold CAddr.given
  split
  · rename_i h
    simp [appendAddr, h]
  · rfl

/-- A request as a client makes it: nothing is both given and unset, numbers
that identify something are not zero, and strings fit their buffers. -/
structure WellFormed (csess : CSession) : Prop where
  discr : csess.discr ≠ some 0
  netifIndex : csess.netif.ifindex ≠ some 0
  vrfIndex : csess.vrf.netif.ifindex ≠ some 0
  name : PlainName csess.name.unset csess.name.val
  netif : PlainName csess.netif.unset csess.netif.name
  vrf : PlainName csess.vrf.netif.unset csess.vrf.netif.name
  srcUnset : csess.src.unset = true → csess.src.af = 0
  dstSet : csess.dst.unset = false
  families : csess.src.decoded = true ∧ csess.dst.decoded = true
  addrs : csess.src.str.utf8ByteSize < inet6AddrstrLen ∧ csess.dst.str.utf8ByteSize < inet6AddrstrLen

theorem given_plain {addr : CAddr} (hu : addr.unset = true → addr.af = 0) (hd : addr.decoded = true)
    (hs : addr.str.utf8ByteSize < inet6AddrstrLen) : PlainAddr (CAddr.given addr) := by
  unfold CAddr.given
  split
  · rename_i h
    exact ⟨fun _ => h, fun _ => rfl, hd, (by decide : "".utf8ByteSize < inet6AddrstrLen)⟩
  · rename_i h
    exact ⟨hu, fun h0 => absurd h0 h, hd, hs⟩

structure SameAddr (addr addr' : CAddr) : Prop where
  unset : addr'.unset = addr.unset
  af : addr'.af = addr.af
  str : addr.af ≠ 0 → addr'.str = addr.str

theorem sameAddr_given (addr : CAddr) : SameAddr addr (CAddr.given addr) := by
  unfold CAddr.given
  split
  · rename_i h
    exact ⟨rfl, rfl, fun hne => absurd h hne⟩
  · exact ⟨rfl, rfl, fun _ => rfl⟩

/-- The daemon takes out of a request what the client put into it: the same
markers, and the same value wherever there is one. -/
theorem request_roundTrip (h : WellFormed csess) :
    ∃ csess', jrpcDissectSessionOne (jrpcSessionObj csess) = .ok csess' ∧
    SameAddr csess.src csess'.src ∧ SameAddr csess.dst csess'.dst ∧
    csess' = { csess with src := csess'.src, dst := csess'.dst } := by
  have hobj : jrpcSessionObj csess =
      jrpcSessionObj { csess with src := CAddr.given csess.src, dst := CAddr.given csess.dst } := by
    simp only [jrpcSessionObj, sessionFields, appendAddr_given]
  have hdst : (CAddr.given csess.dst).unset = false := by
    rw [(sameAddr_given csess.dst).unset]
    exact h.dstSet
  refine ⟨{ csess with src := CAddr.given csess.src, dst := CAddr.given csess.dst }, ?_,
    sameAddr_given _, sameAddr_given _, rfl⟩
  rw [hobj]
  refine jrpcDissectSessionOne_obj ⟨h.discr, h.netifIndex, h.vrfIndex, h.name, h.netif, h.vrf, ?_, ?_, hdst⟩
  · exact given_plain h.srcUnset h.families.1 h.addrs.1
  · refine given_plain (fun hu => ?_) h.families.2 h.addrs.2
    rw [h.dstSet] at hu
    cases hu

def sampleRequest : CSession where
  flags := ⟨some true, none, some false, none⟩
  discr := some 5
  remoteDiscr := some 0
  minTxUs := some 0xffffffff
  minRxUs := none
  holdTimeUs := some 250000
  ttl := some 255
  detectMult := some 3
  src := ⟨true, 0, "left over"⟩
  dst := ⟨false, afInet6, "2001:db8::1"⟩
  netif := ⟨false, some "veth1", some 7⟩
  vrf := ⟨⟨true, none, none⟩, some 1000⟩
  name := ⟨false, some "uplink"⟩

theorem request_roundTrip_sample : ∃ csess', jrpcDissectSessionOne (jrpcSessionObj sampleRequest) = .ok csess' ∧
    SameAddr sampleRequest.src csess'.src ∧ SameAddr sampleRequest.dst csess'.dst ∧
    csess' = { sampleRequest with src := csess'.src, dst := csess'.dst } := by
  apply request_roundTrip
  have hfit : ∀ {str s : String}, str.utf8ByteSize < ifNameSize → some str = some s →
    s.utf8ByteSize < ifNameSize :=
    fun hs he => Option.some.inj he ▸ hs
  exact
    { discr := by decide
      netifIndex := by decide
      vrfIndex := by decide
      name := ⟨nofun, fun _ => hfit (by decide)⟩
      netif := ⟨nofun, fun _ => hfit (by decide)⟩
      vrf := ⟨fun _ => rfl, nofun⟩
      srcUnset := fun _ => rfl
      dstSet := rfl
      families := ⟨rfl, rfl⟩
      addrs := ⟨by decide, by decide⟩ }

theorem dissectStr_fits {val : Value} {str : CStr} (h : dissectStr val = .ok str) : str.fits = true := by
  unfold dissectStr at h
  split at h
  · cases h
    rfl
  · cases hs : strcpy ifNameSize val with
    | error e => simp [hs, Except.map] at h
    | ok s =>
      simp only [hs, Except.map, Except.ok.injEq] at h
      simp only [strcpy] at hs
      split_ifs at hs with hlen
      cases hs
      rw [← h]
      simpa [CStr.fits] using hlen

theorem dissectAddrObj_decoded {val : Value} {addr : CAddr} (h : dissectAddrObj val = .ok addr) :
    addr.unset = false ∧ addr.decoded = true := by
  simp only [dissectAddrObj] at h
  obtain ⟨values, -, h⟩ := Lib.Program.bind_eq_ok.mp h
  split at h
  · cases h
  · rename_i af haf
    obtain ⟨str, -, h⟩ := Lib.Program.bind_eq_ok.mp h
    cases h
    refine ⟨rfl, ?_⟩
    unfold afOfFamily at haf
    split_ifs at haf <;> cases haf <;> rfl

theorem dissectAddr_decoded {val : Value} {addr : CAddr} (h : dissectAddr val = .ok addr) :
    addr.decoded = true ∧ (val.kind ≠ .null → addr.unset = false) := by
  cases val with
  | null =>
    cases h
    exact ⟨rfl, fun hk => absurd rfl hk⟩
  | bool | double | int | str | array | obj =>
    have hd := dissectAddrObj_decoded h
    exact ⟨hd.2, fun _ => hd.1⟩

/-- How the members of a request make up the parts of a description that have
markers, and those that may not be zero. -/
structure Dissected (values : Members) (csess : CSession) : Prop where
  name : ifSeen values "name" ⟨false, none⟩ dissectStr = .ok csess.name
  src : ifSeen values "src" ⟨false, 0, ""⟩ dissectAddr = .ok csess.src
  dst : ifSeen values "dst" ⟨false, 0, ""⟩ dissectAddr = .ok csess.dst
  netif : ifSeen values "netif_name" ⟨false, none⟩ dissectStr = .ok ⟨csess.netif.unset, csess.netif.name⟩
  vrf : ifSeen values "vrf_name" ⟨false, none⟩ dissectStr = .ok ⟨csess.vrf.netif.unset, csess.vrf.netif.name⟩
  discr : dissectField values "discr" "discr" getUint32Non0 = .ok csess.discr
  netifIndex : dissectField values "netif_index" "netif.ifindex" getUint32Non0 = .ok csess.netif.ifindex
  vrfIndex : dissectField values "vrf_index" "vrf.netif.ifindex" getUint32Non0 = .ok csess.vrf.netif.ifindex

theorem jrpcDissectSessionOne_inv {obj : Value} (h : jrpcDissectSessionOne obj = .ok csess) :
    ∃ values, dissect sessionPolicy obj = .ok values ∧ Dissected values csess := by
  simp only [jrpcDissectSessionOne] at h
  obtain ⟨values, hd, h⟩ := Lib.Program.bind_eq_ok.mp h
  obtain ⟨name, hname, h⟩ := Lib.Program.bind_eq_ok.mp h
  obtain ⟨src, hsrc, h⟩ := Lib.Program.bind_eq_ok.mp h
  obtain ⟨dst, hdst, h⟩ := Lib.Program.bind_eq_ok.mp h
  obtain ⟨netif, hnetif, h⟩ := Lib.Program.bind_eq_ok.mp h
  obtain ⟨vrf, hvrf, h⟩ := Lib.Program.bind_eq_ok.mp h
  obtain ⟨table, -, h⟩ := Lib.Program.bind_eq_ok.mp h
  obtain ⟨discr, hdiscr, h⟩ := Lib.Program.bind_eq_ok.mp h
  obtain ⟨remoteDiscr, -, h⟩ := Lib.Program.bind_eq_ok.mp h
  obtain ⟨minTxUs, -, h⟩ := Lib.Program.bind_eq_ok.mp h
  obtain ⟨minRxUs, -, h⟩ := Lib.Program.bind_eq_ok.mp h
  obtain ⟨holdTimeUs, -, h⟩ := Lib.Program.bind_eq_ok.mp h
  obtain ⟨ttl, -, h⟩ := Lib.Program.bind_eq_ok.mp h
  obtain ⟨detectMult, -, h⟩ := Lib.Program.bind_eq_ok.mp h
  obtain ⟨netifIndex, hnetifIndex, h⟩ := Lib.Program.bind_eq_ok.mp h
  obtain ⟨vrfIndex, hvrfIndex, h⟩ := Lib.Program.bind_eq_ok.mp h
  cases h
  exact ⟨values, hd, hname, hsrc, hdst, hnetif, hvrf, hdiscr, hnetifIndex, hvrfIndex⟩

theorem ifSeen_decoded {addr : CAddr} (h : ifSeen values key ⟨false, 0, ""⟩ dissectAddr = .ok addr) :
    addr.decoded = true ∧ (values.lookup key ≠ some .null → addr.unset = false) := by
  unfold ifSeen at h
  split at h
  · cases h
    exact ⟨rfl, fun _ => rfl⟩
  · rename_i v hv
    obtain ⟨hdec, hset⟩ := dissectAddr_decoded h
    refine ⟨hdec, fun hne => hset (fun hk => hne ?_)⟩
    cases v <;> first | exact hv | cases hk

theorem dst_not_null {obj : Value} (h : dissect sessionPolicy obj = .ok values) :
    values.lookup "dst" ≠ some .null := by
  intro hnull
  obtain ⟨pol, hpol, hacc⟩ := (dissect_allows h : Allows sessionPolicy "dst" _) _ hnull
  cases (hpol : some _ = some pol)
  cases hacc

theorem jrpcDissectSessionOne_decoded {obj : Value} (h : jrpcDissectSessionOne obj = .ok csess) :
    csess.dst.unset = false ∧ csess.src.decoded = true ∧ csess.dst.decoded = true ∧ csess.name.fits = true := by
  obtain ⟨values, hd, hi⟩ := jrpcDissectSessionOne_inv h
  have hfits : csess.name.fits = true := by
    have hname := hi.name
    unfold ifSeen at hname
    split at hname
    · rw [← Except.ok.inj hname]
      rfl
    · exact dissectStr_fits hname
  exact ⟨(ifSeen_decoded hi.dst).2 (dst_not_null hd), (ifSeen_decoded hi.src).1,
    (ifSeen_decoded hi.dst).1, hfits⟩

end

end Bbdd.Client
