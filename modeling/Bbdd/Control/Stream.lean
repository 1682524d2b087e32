import Bbdd.Control.Peer

namespace Bbdd.Control

open Lib.Program Lib.Wire Lib.Json

def isSpace (b : UInt8) : Bool := b = 0x20 || b = 0x09 || b = 0x0a || b = 0x0d

def closed (text : Bytes) : Bool :=
  text.head? = some 0x7b || text.head? = some 0x5b || text.head? = some 0x22

structure Item where
  text : Bytes
  obj : Value
  space : Bytes

def Item.bytes (i : Item) : Bytes := i.text ++ i.space

def Item.need (i : Item) : Nat := if closed i.text then i.text.length else i.text.length + 1

def stream (items : List Item) : Bytes := items.flatMap Item.bytes

def completed : List Item → Nat → Nat
  | [], _ => 0
  | i :: items, n => if i.need ≤ n then completed items (n - i.bytes.length) + 1 else 0

/-- The values are written as the tokener reads them, with white space after
each of them, and some between two that would otherwise run together. -/
structure Wellformed (Text : Bytes → Value → Prop) (items : List Item) : Prop where
  text : ∀ i ∈ items, Text i.text i.obj
  space : ∀ i ∈ items, i.space.all isSpace = true
  separated : ∀ i ∈ items.dropLast, closed i.text = true ∨ i.space ≠ []

section

variable {τ δ : Type}

/-- The tokener has taken these bytes since its reset, and no value is complete. -/
inductive Reading (T : Tokener τ) : Bytes → Option τ → Prop
  | start : Reading T [] none
  | more {taken bytes : Bytes} {tok tok' : Option τ} (h : Reading T taken tok) (hne : bytes ≠ [])
      (hp : T.parse tok bytes = (tok', .more, bytes.length)) : Reading T (taken ++ bytes) tok'

/-- What the JSON library says of its tokener: it waits for more on white space
and on the beginning of a value, and takes a complete value with the white space
after it. -/
structure Documented (T : Tokener τ) (Text : Bytes → Value → Prop) : Prop where
  starts : ∀ text obj, Text text obj → ∃ b rest, text = b :: rest ∧ isSpace b = false
  braced : ∀ text members, Text text (.obj members) → closed text = true
  blank : ∀ taken tok bytes, Reading T taken tok → bytes ≠ [] → (taken ++ bytes).all isSpace = true →
    ∃ tok', T.parse tok bytes = (tok', .more, bytes.length)
  more : ∀ taken tok bytes lead text obj, Reading T taken tok → bytes ≠ [] →
    lead.all isSpace = true → Text text obj →
    taken ++ bytes <+: lead ++ text → (closed text = true → taken ++ bytes ≠ lead ++ text) →
    ∃ tok', T.parse tok bytes = (tok', .more, bytes.length)
  value : ∀ taken tok bytes lead text obj space rest, Reading T taken tok → bytes ≠ [] →
    lead.all isSpace = true →
    Text text obj → space.all isSpace = true → taken ++ bytes = lead ++ text ++ space ++ rest →
    (∀ b ∈ rest.head?, isSpace b = false) → closed text = true ∨ space ≠ [] →
    ∃ tok', T.parse tok bytes = (tok', .value obj, bytes.length - rest.length)

variable {S : Setup τ δ} {Text : Bytes → Value → Prop} {items : List Item} {i : Item}

@[simp] theorem stream_nil : stream [] = [] := rfl

@[simp] theorem stream_cons (i : Item) (items : List Item) : stream (i :: items) = i.bytes ++ stream
    items := List.flatMap_cons

@[simp] theorem stream_append (items more : List Item) : stream (items ++ more) = stream items ++
    stream more := List.flatMap_append

@[simp] theorem Item.length_bytes (i : Item) : i.bytes.length = i.text.length + i.space.length :=
  List.length_append

theorem Item.text_le (i : Item) : i.text.length ≤ i.need := by
  unfold Item.need
  split <;> omega

theorem Wellformed.tail (h : Wellformed Text (i :: items)) : Wellformed Text items where
  text j hj := h.text j (List.mem_cons_of_mem i hj)
  space j hj := h.space j (List.mem_cons_of_mem i hj)
  separated j hj := by
    cases items with
    | nil => cases hj
    | cons k items => exact h.separated j (List.mem_cons_of_mem i hj)

theorem Wellformed.right {done : List Item} (h : Wellformed Text (done ++ items)) :
    Wellformed Text items := by
  induction done with
  | nil => exact h
  | cons i done ih => exact ih h.tail

theorem Wellformed.apart (h : Wellformed Text (i :: items)) (hne : items ≠ []) :
    closed i.text = true ∨ i.space ≠ [] :=
  h.separated i (by cases items with | nil => exact absurd rfl hne | cons => exact List.mem_cons_self)

theorem Item.need_le {i : Item} (h : closed i.text = true ∨ i.space ≠ []) : i.need ≤ i.bytes.length := by
  rw [Item.length_bytes]
  unfold Item.need
  rcases h with hc | hs
  · rw [if_pos hc]
    omega
  · have hpos := List.length_pos_of_ne_nil hs
    split <;> omega

theorem need_pos (hdoc : Documented S.tokener Text) (hw : Wellformed Text (i :: items)) : 0 < i.need := by
  obtain ⟨b, rest, ht, -⟩ := hdoc.starts _ _ (hw.text i List.mem_cons_self)
  have hle := i.text_le
  rw [ht, List.length_cons] at hle
  omega

theorem stream_head (hdoc : Documented S.tokener Text) (hw : Wellformed Text items)
    {left rest : Bytes} (hl : stream items = left ++ rest) :
    ∀ b ∈ left.head?, isSpace b = false := by
  intro b hb
  cases items with
  | nil =>
    rw [stream_nil] at hl
    rw [(List.append_eq_nil_iff.mp hl.symm).1] at hb
    cases hb
  | cons i items =>
    obtain ⟨c, text, ht, hc⟩ := hdoc.starts _ _ (hw.text i List.mem_cons_self)
    cases left with
    | nil => cases hb
    | cons d left =>
      rw [stream_cons, Item.bytes, ht] at hl
      cases hb
      rw [← (List.cons.inj hl).1]
      exact hc

/-- Where the tokener is in the stream: what it has taken since its reset, and
the white space before the next value. -/
structure At (S : Setup τ δ) (items : List Item) (peer : Peer τ δ) (rest taken lead : Bytes) : Prop where
  reading : Reading S.tokener taken peer.tok
  buffered : peer.buffered = taken.length
  space : lead.all isSpace = true
  whole : taken ++ rest = lead ++ stream items
  short : ∀ i ∈ items.head?, taken.length < lead.length + i.need

variable {peer : Peer τ δ} {bytes rest taken lead : Bytes}

theorem parse_more (hdoc : Documented S.tokener Text) (hw : Wellformed Text items)
    (hat : At S items peer (bytes ++ rest) taken lead) (hne : bytes ≠ [])
    (hshort : ∀ i ∈ items.head?, (taken ++ bytes).length < lead.length + i.need) :
    ∃ tok, S.tokener.parse peer.tok bytes = (tok, .more, bytes.length) := by
  have hwhole := hat.whole
  rw [← List.append_assoc] at hwhole
  cases items with
  | nil =>
    rw [stream_nil, List.append_nil] at hwhole
    have hspace := hat.space
    rw [← hwhole, List.all_append, Bool.and_eq_true] at hspace
    exact hdoc.blank _ _ _ hat.reading hne hspace.1
  | cons i items =>
    have hlen := hshort i rfl
    have hle : (taken ++ bytes).length ≤ (lead ++ i.text).length := by
      rw [@List.length_append _ lead]
      unfold Item.need at hlen
      split at hlen <;> omega
    have hpre : taken ++ bytes <+: lead ++ i.text := by
      have htext : lead ++ i.text <+: lead ++ stream (i :: items) :=
        ⟨i.space ++ stream items, by simp [Item.bytes]⟩
      exact List.prefix_of_prefix_length_le ⟨rest, hwhole⟩ htext hle
    refine hdoc.more _ _ _ lead i.text i.obj hat.reading hne hat.space
      (hw.text i List.mem_cons_self) hpre (fun hc heq => ?_)
    rw [heq, List.length_append, Item.need, if_pos hc] at hlen
    omega

theorem parse_value (hdoc : Documented S.tokener Text) (hw : Wellformed Text (i :: items))
    (hat : At S (i :: items) peer (bytes ++ rest) taken lead) (hne : bytes ≠ [])
    (hlong : lead.length + i.need ≤ (taken ++ bytes).length) :
    ∃ tok left lead', S.tokener.parse peer.tok bytes = (tok, .value i.obj, bytes.length - left.length) ∧
      bytes.drop (bytes.length - left.length) = left ∧ left.length < bytes.length ∧
        left ++ rest = lead' ++ stream items ∧
      lead'.all isSpace = true ∧ lead'.length + i.need ≤ i.bytes.length ∧ (items = [] → left = []) := by
  have hshort := hat.short i rfl
  have hwhole : taken ++ bytes ++ rest = lead ++ i.text ++ (i.space ++ stream items) := by
    simpa [Item.bytes] using hat.whole
  -- the bytes up to here are the value and some more
  obtain ⟨tail, htail⟩ : lead ++ i.text <+: taken ++ bytes := by
    refine List.prefix_of_prefix_length_le ⟨_, hwhole.symm⟩ (List.prefix_append _ rest) ?_
    have hle := i.text_le
    rw [@List.length_append _ lead]
    omega
  rw [← htail, List.append_assoc, List.append_cancel_left_eq] at hwhole
  have hlen := congrArg List.length htail
  simp only [List.length_append] at hlen hlong
  have hend : closed i.text = true ∨ tail ≠ [] := by
    by_cases hc : closed i.text = true
    · exact .inl hc
    · rw [Item.need, if_neg hc] at hlong
      exact .inr (List.ne_nil_of_length_pos (by omega))
  have hread (space left : Bytes) (hsplit : tail = space ++ left) (hspace : space.all isSpace = true)
      (hleft : ∀ b ∈ left.head?, isSpace b = false) (hopen : closed i.text = true ∨ space ≠ []) :
      ∃ tok, S.tokener.parse peer.tok bytes = (tok, .value i.obj, bytes.length - left.length) := by
    have heq : taken ++ bytes = lead ++ i.text ++ space ++ left := by
      rw [← htail, hsplit, ← List.append_assoc]
    exact hdoc.value _ _ _ lead i.text i.obj space left hat.reading hne hat.space
      (hw.text i List.mem_cons_self) hspace heq hleft hopen
  have hspace := hw.space i List.mem_cons_self
  obtain ⟨lead', hs, hr⟩ | ⟨left, hsplit, hr⟩ := List.append_eq_append_iff.mp hwhole
  · -- the chunk ends in the white space
    rw [hs, List.all_append, Bool.and_eq_true] at hspace
    obtain ⟨tok, hp⟩ := hread tail [] (List.append_nil _).symm hspace.1 (by simp) hend
    refine ⟨tok, [], lead', hp, by simp, List.length_pos_of_ne_nil hne, hr, hspace.2, ?_, fun _ => rfl⟩
    have hs := congrArg List.length hs
    rw [List.length_append] at hs
    rw [Item.length_bytes]
    omega
  · -- it goes on into the next value
    have hopen : closed i.text = true ∨ i.space ≠ [] := by
      by_cases hi : items = []
      · rw [hi, stream_nil] at hr
        rwa [hsplit, (List.append_eq_nil_iff.mp hr.symm).1, List.append_nil] at hend
      · exact hw.apart hi
    have hneed := Item.need_le hopen
    obtain ⟨tok, hp⟩ := hread i.space left hsplit hspace (stream_head hdoc hw.tail hr) hopen
    have ht := congrArg List.length hsplit
    rw [List.length_append] at ht
    rw [Item.length_bytes] at hneed
    refine ⟨tok, left, [], hp, ?_, by
      omega, hr.symm, rfl, by rwa [Item.length_bytes, List.length_nil, Nat.zero_add], fun hi => ?_⟩
    · have hleft : left <:+ taken ++ bytes :=
        ⟨lead ++ i.text ++ i.space, by rw [← htail, hsplit, ← List.append_assoc]⟩
      have hsuffix := List.suffix_of_suffix_length_le hleft (List.suffix_append taken bytes) (by omega)
      exact (List.suffix_iff_eq_drop.mp hsuffix).symm
    · rw [hi, stream_nil] at hr
      exact (List.append_eq_nil_iff.mp hr.symm).1

theorem completed_done (hdoc : Documented S.tokener Text) {done : List Item}
    (hw : Wellformed Text (done ++ items))
    (hshort : ∀ i ∈ items.head?, taken.length < lead.length + i.need)
    (hfirst : done = [] → lead = [])
    (hlead : ∀ i ∈ done.getLast?, lead.length + i.need ≤ i.bytes.length) {n : Nat}
    (hn : n + lead.length = (stream done).length + taken.length) :
    completed (done ++ items) n = done.length := by
  have hnone (n : Nat) (hn : n ≤ taken.length - lead.length) (hw : Wellformed Text items) :
    completed items n = 0 := by
    cases items with
    | nil => rfl
    | cons i items =>
      have hpos := need_pos hdoc hw
      have hlt := hshort i rfl
      rw [completed, if_neg (by omega)]
  induction done generalizing n with
  | nil =>
    rw [hfirst rfl] at hn hnone
    exact hnone n (by simpa using hn.le) hw
  | cons i done ih =>
    rw [stream_cons, List.length_append] at hn
    rw [List.cons_append, completed]
    by_cases hd : done = []
    · subst hd
      have hle := hlead i rfl
      simp only [stream_nil, List.length_nil, Nat.add_zero] at hn
      rw [if_pos (by omega), List.nil_append, hnone _ (by omega) hw.tail]
      rfl
    · rw [List.getLast?_cons_of_ne_nil hd] at hlead
      have hneed := Item.need_le (hw.apart (by simp [hd]))
      have hle : lead.length ≤ (stream done).length := by
        have hj := hlead _ (List.getLast?_eq_getLast_of_ne_nil hd)
        rw [← List.dropLast_append_getLast hd, stream_append, List.length_append, stream_cons,
          stream_nil, List.append_nil]
        omega
      rw [if_pos (by omega), ih hw.tail (fun h => absurd h hd) hlead (by omega)]
      rfl

def serve (S : Setup τ δ) : δ → List Value → δ × List Value
  | daemon, [] => (daemon, [])
  | daemon, obj :: objs =>
    let r := answer S daemon obj
    let rs := serve S r.1 objs
    (rs.1, r.2.1 :: rs.2)

theorem serve_append (daemon : δ) (objs more : List Value) :
    serve S daemon (objs ++ more) =
      ((serve S (serve S daemon objs).1 more).1, (serve S daemon objs).2 ++
        (serve S (serve S daemon objs).1 more).2) := by
  induction objs generalizing daemon with
  | nil => rfl
  | cons obj objs ih => simp [serve, ih]

section

variable (peer) (obj : Value) (objs : List Value)

@[simp] theorem sendKeep_buffered : (sendKeep S peer obj).buffered = peer.buffered := by
  unfold sendKeep
  split <;> rfl

@[simp] theorem sendKeep_daemon : (sendKeep S peer obj).daemon = peer.daemon := by
  unfold sendKeep
  split <;> rfl

@[simp] theorem sendKeep_eof : (sendKeep S peer obj).eof = peer.eof := by
  unfold sendKeep
  split <;> rfl

theorem sendKeep_queued (h : (sendKeep S peer obj).hit = false) :
    peer.hit = false ∧ (sendKeep S peer obj).queued = peer.queued ++ [obj] := by
  unfold sendKeep at h ⊢
  split at h
  · cases h
  · exact ⟨h, rfl⟩

end

structure Answered (S : Setup τ δ) (objs : List Value) (peer peer' : Peer τ δ) : Prop where
  daemon : peer'.daemon = (serve S peer.daemon objs).1
  queued : peer'.queued = peer.queued ++ (serve S peer.daemon objs).2
  eof : peer'.eof = peer.eof

theorem Answered.trans {objs more : List Value} {p₁ p₂ p₃ : Peer τ δ} (h : Answered S objs p₁ p₂)
    (h' : Answered S more p₂ p₃) :
    Answered S (objs ++ more) p₁ p₃ where
  daemon := by rw [h'.daemon, h.daemon, serve_append]
  queued := by rw [h'.queued, h.queued, h.daemon, serve_append, List.append_assoc]
  eof := h'.eof.trans h.eof

theorem recvObj_answered {obj : Value} (h : (recvObj S peer obj).hit = false) :
    peer.hit = false ∧ (recvObj S peer obj).buffered = peer.buffered ∧ Answered S [obj] peer
      (recvObj S peer obj) := by
  simp only [recvObj, sendDone] at h ⊢
  split <;> rename_i hkeep
  · rw [if_pos hkeep] at h
    obtain ⟨hhit, hq⟩ := sendKeep_queued _ _ h
    exact ⟨hhit, sendKeep_buffered _ _, ⟨sendKeep_daemon _ _, hq, sendKeep_eof _ _⟩⟩
  · rw [if_neg hkeep] at h
    obtain ⟨hhit, hq⟩ := sendKeep_queued _ _ h
    exact ⟨hhit, sendKeep_buffered _ _, ⟨sendKeep_daemon _ _, hq, sendKeep_eof _ _⟩⟩

theorem rxStep_hit {left : Bytes} {rc : Option (Except Failure Unit)} {peer' : Peer τ δ}
    (h : rxStep S peer bytes = (peer', left, rc)) (hhit : peer'.hit = false) : peer.hit = false := by
  simp only [rxStep] at h
  split at h
  · cases h
    exact hhit
  split at h
  · cases h
    cases hhit
  rcases hp : S.tokener.parse peer.tok bytes with ⟨tok, obj | _ | desc, consumed⟩ <;>
    simp only [tokenize, hp] at h <;> cases h
  · exact (recvObj_answered hhit).1
  · exact hhit
  · exact hhit

theorem rxCb_hit (h : (rxCb S peer bytes).1.hit = false) : peer.hit = false := by
  fun_induction rxCb S peer bytes with
  | case1 peer bytes peer' left rc hstep => exact rxStep_hit hstep h
  | case2 peer bytes peer' left hstep ih => exact rxStep_hit hstep (ih h)

theorem rxCb_of_done {peer' : Peer τ δ} {left : Bytes} {rc : Except Failure Unit}
    (h : rxStep S peer bytes = (peer', left, some rc)) :
    rxCb S peer bytes = (peer', rc) := by
  rw [rxCb]
  split <;> simp_all

theorem rxCb_of_next {peer' : Peer τ δ} {left : Bytes} (h : rxStep S peer bytes = (peer', left, none)) :
    rxCb S peer bytes = rxCb S peer' left := by
  rw [rxCb]
  split <;> simp_all

theorem rxCb_room (hne : bytes ≠ []) (hhit : (rxCb S peer bytes).1.hit = false) :
    ¬ (S.streamMaxbuf ≠ 0 ∧ peer.buffered + bytes.length > S.streamMaxbuf) := by
  intro hfull
  rw [rxCb_of_done (by simp only [rxStep]; rw [if_neg hne, if_pos hfull])] at hhit
  cases hhit

theorem rxCb_more {tok : Option τ} (hne : bytes ≠ []) (hhit : (rxCb S peer bytes).1.hit = false)
    (hp : S.tokener.parse peer.tok bytes = (tok, .more, bytes.length)) :
    rxCb S peer bytes = ({ peer with tok := tok, buffered := peer.buffered + bytes.length }, .ok ()) := by
  have hstep : rxStep S peer bytes =
    ({ peer with tok := tok, buffered := peer.buffered + bytes.length }, [], some (.ok ())) := by
    simp only [rxStep]
    rw [if_neg hne, if_neg (rxCb_room hne hhit)]
    simp [tokenize, hp]
  exact rxCb_of_done hstep

theorem rxCb_value {tok : Option τ} {obj : Value} {consumed : Nat} (hne : bytes ≠ [])
    (hhit : (rxCb S peer bytes).1.hit = false)
    (hp : S.tokener.parse peer.tok bytes = (tok, .value obj, consumed)) :
    rxCb S peer bytes = rxCb S (recvObj S { peer with tok := none, buffered := 0 } obj)
      (bytes.drop consumed) := by
  apply rxCb_of_next
  simp only [rxStep]
  rw [if_neg hne, if_neg (rxCb_room hne hhit)]
  simp only [tokenize, hp]

/-- What becomes of a chunk: so many values are complete with it and answered,
and the tokener is at the next. -/
structure Taken (S : Setup τ δ) (items : List Item) (peer peer' : Peer τ δ) (bytes rest taken lead : Bytes)
    (done items' : List Item) (taken' lead' : Bytes) : Prop where
  items : items = done ++ items'
  here : At S items' peer' rest taken' lead'
  answered : Answered S (done.map Item.obj) peer peer'
  waiting : done = [] → taken' = taken ++ bytes ∧ lead' = lead
  clean : done ≠ [] → items' = [] → taken' = []
  lead : ∀ i ∈ done.getLast?, lead'.length + i.need ≤ i.bytes.length

theorem Taken.wait {peer' : Peer τ δ} (hanswered : Answered S [] peer peer')
    (hat : At S items peer' rest (taken ++ bytes) lead) :
    Taken S items peer peer' bytes rest taken lead [] items (taken ++ bytes) lead :=
  ⟨rfl, hat, hanswered, fun _ => ⟨rfl, rfl⟩, fun h => absurd rfl h, by simp⟩

theorem Taken.cons {peer₁ peer' : Peer τ δ} {left lead₁ taken' lead' : Bytes}
    {done items' : List Item} (hanswered : Answered S [i.obj] peer peer₁)
    (hlead : lead₁.length + i.need ≤ i.bytes.length) (hlast : items = [] → left = [])
    (h : Taken S items peer₁ peer' left rest [] lead₁ done items' taken' lead') :
    Taken S (i :: items) peer peer' bytes rest taken lead (i :: done) items' taken' lead' where
  items := by rw [h.items, List.cons_append]
  here := h.here
  answered := hanswered.trans h.answered
  waiting hnil := absurd hnil (List.cons_ne_nil _ _)
  clean _ hnil := by
    by_cases hd : done = []
    · have hitems := h.items
      rw [hd, hnil] at hitems
      rw [(h.waiting hd).1, hlast hitems, List.append_nil]
    · exact h.clean hd hnil
  lead j hj := by
    by_cases hd : done = []
    · subst hd
      cases hj
      rw [(h.waiting rfl).2]
      exact hlead
    · rw [List.getLast?_cons_of_ne_nil hd] at hj
      exact h.lead j hj

theorem rxCb_taken (hdoc : Documented S.tokener Text) (hw : Wellformed Text items)
    (hat : At S items peer (bytes ++ rest) taken lead) (hhit : (rxCb S peer bytes).1.hit = false) :
    (rxCb S peer bytes).2 = .ok () ∧
      ∃ done items' taken' lead', Taken S items peer (rxCb S peer bytes).1 bytes rest taken lead
        done items' taken' lead' := by
  -- each value leaves fewer bytes for the next turn of the loop
  induction hn : bytes.length using Nat.strong_induction_on generalizing bytes peer items taken lead with
  | _ n ih =>
    by_cases hne : bytes = []
    · have hstep : rxStep S peer bytes = (peer, [], some (.ok ())) := by
        simp only [rxStep]
        rw [if_pos hne]
      rw [rxCb_of_done hstep]
      refine ⟨rfl, [], items, _, _, .wait ⟨rfl, (List.append_nil _).symm, rfl⟩ ?_⟩
      rw [hne, List.nil_append] at hat
      rwa [hne, List.append_nil]
    by_cases hshort : ∀ i ∈ items.head?, (taken ++ bytes).length < lead.length + i.need
    · obtain ⟨tok, hp⟩ := parse_more hdoc hw hat hne hshort
      rw [rxCb_more hne hhit hp]
      refine ⟨rfl, [], items, _, _, .wait ⟨rfl, (List.append_nil _).symm, rfl⟩
        ⟨.more hat.reading hne hp, ?_, hat.space, ?_, hshort⟩⟩
      · simp [hat.buffered]
      · rw [List.append_assoc, hat.whole]
    · cases items with
      | nil => exact absurd (by simp) hshort
      | cons i items =>
        have hlong : lead.length + i.need ≤ (taken ++ bytes).length := by simpa using hshort
        obtain ⟨tok, left, lead₁, hp, hdrop, hlt, hwhole, hspace, hlead, hlast⟩ :=
          parse_value hdoc hw hat hne hlong
        have heq := rxCb_value hne hhit hp
        rw [hdrop] at heq
        rw [heq] at hhit ⊢
        obtain ⟨-, hbuf, hanswered⟩ := recvObj_answered (rxCb_hit hhit)
        have hat₁ : At S items (recvObj S { peer with tok := none, buffered := 0 } i.obj)
          (left ++ rest) [] lead₁ := by
          refine ⟨?_, hbuf, hspace, hwhole, fun j hj => ?_⟩
          · rw [recvObj_tok]
            exact .start
          · cases items with
            | nil => cases hj
            | cons k items =>
              cases hj
              exact Nat.add_pos_right _ (need_pos hdoc hw.tail)
        obtain ⟨hrc, done, items', taken', lead', h⟩ := ih left.length (hn ▸ hlt) hw.tail hat₁ hhit rfl
        exact ⟨hrc, i :: done, items', taken', lead', .cons
          ⟨hanswered.daemon, hanswered.queued, hanswered.eof⟩ hlead hlast h⟩

end

end Bbdd.Control
