import Bbdd.Client.Session
import Bbdd.Bfddp.Message

namespace Bbdd.Daemon

open Lib.Json Lib.Wire Jrpc Client Bfddp Session

/-- What is said beside the fields of a description of a session, and counted on
where one is applied or matched. -/
structure Documented (csess : CSession) : Prop where
  netif : csess.netif.unset = true → csess.netif.name = none ∧ csess.netif.ifindex = none
  vrf : csess.vrf.netif.unset = true → csess.vrf.netif.name = none ∧ csess.vrf.netif.ifindex = none
  src : csess.src.unset = true → csess.src.af = 0
  name : csess.name.unset = true → csess.name.val = none
  dst : csess.dst.unset = false
  discr : csess.discr ≠ some 0
  netifIndex : csess.netif.ifindex ≠ some 0
  vrfIndex : csess.vrf.netif.ifindex ≠ some 0

/-- An object that takes an interface away under one key and gives its index
under another. -/
def Torn (obj : Value) (nameKey indexKey : String) : Prop :=
  ∃ members, obj = .obj members ∧ members.lookup nameKey = some .null ∧ (members.lookup indexKey).isSome = true

section

variable {csess : CSession} {values : Members} {key : String}

theorem dissectStr_unset {val : Value} {str : CStr} (h : dissectStr val = .ok str) :
    (str.unset = true ↔ val = .null) ∧ (str.unset = true → str.val = none) := by
  unfold dissectStr at h
  split at h
  · cases h
    exact ⟨⟨fun _ => rfl, fun _ => rfl⟩, fun _ => rfl⟩
  · rename_i hne
    cases hs : strcpy ifNameSize val with
    | error e => simp [hs, Except.map] at h
    | ok s =>
      simp only [hs, Except.map, Except.ok.injEq] at h
      subst h
      exact ⟨⟨nofun, fun he => absurd he hne⟩, nofun⟩

theorem ifSeen_unset {str : CStr} (h : ifSeen values key ⟨false, none⟩ dissectStr = .ok str) :
    (str.unset = true ↔ values.lookup key = some .null) ∧ (str.unset = true → str.val = none) := by
  cases hv : values.lookup key with
  | none =>
    simp only [ifSeen, hv, Except.ok.injEq] at h
    subst h
    exact ⟨iff_of_false Bool.false_ne_true (Option.some_ne_none _).symm, fun _ => rfl⟩
  | some val =>
    simp only [ifSeen, hv] at h
    obtain ⟨hiff, hnone⟩ := dissectStr_unset h
    rw [hiff, Option.some.injEq]
    exact ⟨Iff.rfl, fun he => hnone (hiff.mpr he)⟩

theorem ifSeen_addr_unset {addr : CAddr} (h : ifSeen values key ⟨false, 0, ""⟩ dissectAddr = .ok addr)
    (hu : addr.unset = true) : addr.af = 0 := by
  by_cases hnull : values.lookup key = some .null
  · simp only [ifSeen, hnull, dissectAddr, Except.ok.injEq] at h
    rw [← h]
  · rw [(ifSeen_decoded h).2 hnull] at hu
    cases hu

theorem getUint32Non0_ne {val : Value} {x : UInt32} (h : getUint32Non0 val = .ok x) : x ≠ 0 := by
  unfold getUint32Non0 at h
  split at h
  · cases h
  · split_ifs at h with h0
    cases h
    exact h0

theorem dissectField_isSome {α : Type} {name : String} {cb : Value → Except String α} {x : Option α}
    (h : dissectField values key name cb = .ok x) : x.isSome = (values.lookup key).isSome := by
  cases hv : values.lookup key with
  | none =>
    simp only [dissectField, hv, Except.ok.injEq] at h
    subst h
    rfl
  | some val =>
    simp only [dissectField, hv] at h
    split at h
    · cases h
    · cases h
      rfl

theorem dissectField_ne_zero {name : String} {x : Option UInt32}
    (h : dissectField values key name getUint32Non0 = .ok x) : x ≠ some 0 := by
  cases hv : values.lookup key with
  | none =>
    simp only [dissectField, hv, Except.ok.injEq] at h
    rw [← h]
    exact (Option.some_ne_none 0).symm
  | some val =>
    simp only [dissectField, hv] at h
    split at h
    · cases h
    · rename_i y hy
      cases h
      exact fun he => getUint32Non0_ne hy (Option.some.inj he)

theorem unset_iff {nameKey indexKey what : String} {unset : Bool} {name : Option String}
    {ifindex : Option UInt32}
    (hname : ifSeen values nameKey ⟨false, none⟩ dissectStr = .ok ⟨unset, name⟩)
    (hindex : dissectField values indexKey what getUint32Non0 = .ok ifindex) :
    (unset = true → name = none ∧ ifindex = none) ↔
      ¬ (values.lookup nameKey = some .null ∧ (values.lookup indexKey).isSome = true) := by
  obtain ⟨hnull, hval⟩ := ifSeen_unset hname
  rw [← hnull, ← dissectField_isSome hindex, not_and, Bool.not_eq_true, Option.isSome_eq_false_iff,
    Option.isNone_iff_eq_none]
  exact ⟨fun h hu => (h hu).2, fun h hu => ⟨hval hu, h hu⟩⟩

theorem documented_dissected {obj : Value} (hd : dissect sessionPolicy obj = .ok values)
    (h : Dissected values csess) :
    Documented csess ↔ (csess.netif.unset = true → csess.netif.name = none ∧ csess.netif.ifindex = none) ∧
      (csess.vrf.netif.unset = true → csess.vrf.netif.name = none ∧ csess.vrf.netif.ifindex = none) := by
  constructor
  · exact fun hc => ⟨hc.netif, hc.vrf⟩
  · rintro ⟨hnetif, hvrf⟩
    exact
      { netif := hnetif
        vrf := hvrf
        src := ifSeen_addr_unset h.src
        name := (ifSeen_unset h.name).2
        dst := (ifSeen_decoded h.dst).2 (dst_not_null hd)
        discr := dissectField_ne_zero h.discr
        netifIndex := dissectField_ne_zero h.netifIndex
        vrfIndex := dissectField_ne_zero h.vrfIndex }

theorem dissect_obj {policy : List Policy} {obj : Value} (h : dissect policy obj = .ok values) :
    obj = .obj values := by
  cases obj with
  | obj members =>
    simp only [dissect] at h
    split at h
    · cases h
    · rename_i kept hkept
      obtain ⟨rfl, -⟩ := dissected_members hkept
      split at h
      · cases h
      · cases h
        rfl
  | null | bool | double | int | str | array => cases h

theorem torn_iff (nameKey indexKey : String) : Torn (.obj values) nameKey indexKey ↔
    values.lookup nameKey = some .null ∧ (values.lookup indexKey).isSome = true := by
  constructor
  · rintro ⟨members, he, h⟩
    cases he
    exact h
  · exact fun h => ⟨values, rfl, h⟩

theorem readNetif_documented (session : BfddpSession) :
    ((readNetif session).unset = true → (readNetif session).name = none ∧ (readNetif session).ifindex = none) ∧
      (readNetif session).ifindex ≠ some 0 := by
  unfold readNetif
  split_ifs with h0
  · exact ⟨fun _ => ⟨rfl, rfl⟩, nofun⟩
  · exact ⟨nofun, fun he => h0 (Option.some.inj he)⟩

theorem readVrf_documented (cmsess : BfddpSessionCumulus) :
    ((readVrf cmsess).netif.unset = true → (readVrf cmsess).netif.name = none) ∧
    (readVrf cmsess).netif.ifindex = none := by
  unfold readVrf
  split_ifs
  · exact ⟨fun _ => rfl, rfl⟩
  · exact ⟨nofun, rfl⟩

theorem readSrc_unset {ntop : Ntop} {ipv6 : Bool} {src : Addr} (h : (readSrc ntop ipv6 src).unset = true) :
    (readSrc ntop ipv6 src).af = 0 := by
  by_cases hz : (if ipv6 then src = .zero else src.w0 = 0)
  · rw [readSrc, if_pos hz]
  · rw [readSrc, if_neg hz] at h
    cases h

theorem bfddSessionToC_documented {ntop : Ntop} {cmsess : BfddpSessionCumulus}
    (h : bfddSessionToC ntop cmsess = .ok csess) :
    Documented csess := by
  simp only [bfddSessionToC] at h
  split_ifs at h <;> cases h
  all_goals
    exact
      { netif := (readNetif_documented cmsess.session).1
        vrf := fun hu => ⟨(readVrf_documented cmsess).1 hu, (readVrf_documented cmsess).2⟩
        src := readSrc_unset
        name := nofun
        dst := rfl
        discr := by simp_all
        netifIndex := (readNetif_documented cmsess.session).2
        vrfIndex := by rw [(readVrf_documented cmsess).2]; exact nofun }

theorem bfddSessionMsgToC_documented {ntop : Ntop} {msg : Bytes}
    (h : bfddSessionMsgToC ntop msg = .ok csess) :
    Documented csess := by
  simp only [bfddSessionMsgToC] at h
  split_ifs at h
  · exact bfddSessionToC_documented h
  · exact bfddSessionToC_documented h

end

/-- What either decoder accepts keeps to what is said beside the fields, but for
an object that takes an interface or a VRF away and gives an index for it. -/
theorem decoded_documented (obj : Value) (ntop : Ntop) (msg : Bytes) (csess : CSession) :
    (jrpcDissectSessionOne obj = .ok csess →
      (Documented csess ↔ ¬ Torn obj "netif_name" "netif_index" ∧ ¬ Torn obj "vrf_name" "vrf_index")) ∧
    (bfddSessionMsgToC ntop msg = .ok csess → Documented csess) := by
  refine ⟨fun h => ?_, bfddSessionMsgToC_documented⟩
  obtain ⟨values, hd, hi⟩ := jrpcDissectSessionOne_inv h
  obtain rfl := dissect_obj hd
  rw [torn_iff, torn_iff]
  apply (documented_dissected hd hi).trans
  exact and_congr (unset_iff hi.netif hi.netifIndex) (unset_iff hi.vrf hi.vrfIndex)

theorem exists_decoded {α : Type} {obj : Value} {f : CSession → α} {a : α}
    (h : (jrpcDissectSessionOne obj).toOption.map f = some a) :
    ∃ csess, jrpcDissectSessionOne obj = .ok csess ∧ f csess = a := by
  obtain ⟨csess, hok, hval⟩ := Option.map_eq_some_iff.mp h
  cases hd : jrpcDissectSessionOne obj with
  | error e => simp [hd, Except.toOption] at hok
  | ok csess' =>
    simp only [hd, Except.toOption, Option.some.injEq] at hok
    subst hok
    exact ⟨csess', rfl, hval⟩

theorem decoded_documented_vrf : ∃ csess,
    jrpcDissectSessionOne (.obj [("vrf_name", .str "red"), ("vrf_index", .int 7)]) = .ok csess ∧
      Documented csess := by
  obtain ⟨csess, hd, -⟩ := @exists_decoded _
    (.obj [("vrf_name", .str "red"), ("vrf_index", .int 7)]) (·.vrf.netif.unset) false
    (by decide +kernel)
  refine ⟨csess, hd, ((decoded_documented _ (fun _ _ => "") [] csess).1 hd).mpr ⟨?_, ?_⟩⟩
  · rw [torn_iff]
    exact fun h => absurd h.2 (by decide)
  · rw [torn_iff]
    exact fun h => absurd h.1 (by simp)

theorem decoded_torn : ∃ csess,
    jrpcDissectSessionOne (.obj [("netif_name", .null), ("netif_index", .int 7)]) = .ok csess ∧
      csess.netif.unset = true ∧ csess.netif.ifindex = some 7 := by
  obtain ⟨csess, hd, hval⟩ := @exists_decoded _ (.obj [("netif_name", .null), ("netif_index", .int 7)])
    (fun csess => (csess.netif.unset, csess.netif.ifindex)) (true, some 7) (by decide +kernel)
  exact ⟨csess, hd, Prod.mk.inj hval⟩

end Bbdd.Daemon
