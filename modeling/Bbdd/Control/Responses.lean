import Bbdd.Control.Stream

namespace Bbdd.Control

open Lib.Program Lib.Wire Lib.Json Buffer Jrpc

def member (key : String) : Value → Option Value
  | .obj members => members.lookup key
  | _ => none

/-- A response to a request has its identifier, unless that is null. Anything
else is an invalid request. -/
def Answers (obj resp : Value) : Prop :=
  match dissectRequest obj with
  | .ok req => member "jsonrpc" resp = some (.str "2.0") ∧ member "id" resp = nonNull req.id
  | .error _ => ∃ data, resp = newErrorInvRequest data

def endOfStream : Value := newErrorInvRequest "Unexpected end of stream"

section

variable {τ δ : Type} {S : Setup τ δ} {Text : Bytes → Value → Prop}

theorem member_response (id : Value) (reply : Reply) :
    member "jsonrpc" (response id reply) = some (.str "2.0") ∧ member "id" (response id reply) = nonNull id := by
  have hn : (([("jsonrpc", some (.str "2.0")), ("id", nonNull id), replyField reply] : Fields).map
    Prod.fst).Nodup := by
    cases reply <;> simp [replyField]
  simp only [response, member, build_eq hn, lookup_present hn]
  exact ⟨rfl, by cases nonNull id <;> rfl⟩

theorem dissectRequest_of_not_obj {obj : Value} (h : ∀ members, obj ≠ .obj members) :
    ∃ e, dissectRequest obj = .error e := by
  cases obj with
  | obj members => exact absurd rfl (h members)
  | null | bool | double | int | str | array => exact ⟨_, rfl⟩

theorem answers_of_not_obj {obj : Value} (h : ∀ members, obj ≠ .obj members) (data : String) :
    Answers obj (newErrorInvRequest data) := by
  obtain ⟨e, he⟩ := dissectRequest_of_not_obj h
  rw [Answers, he]
  exact ⟨data, rfl⟩

theorem answer_answers (daemon : δ) (obj : Value) : Answers obj (answer S daemon obj).2.1 := by
  unfold answer
  split
  · exact answers_of_not_obj (by simp) _
  · unfold Answers
    split <;> rename_i heq <;> rw [heq]
    · exact member_response _ _
    · exact ⟨_, rfl⟩

theorem serve_answers (daemon : δ) (objs : List Value) :
    List.Forall₂ Answers objs (serve S daemon objs).2 := by
  induction objs generalizing daemon with
  | nil => exact .nil
  | cons obj objs ih => exact .cons (answer_answers daemon obj) (ih _)

/-- What has been received and what came of it: the values complete so far are
answered. A chunk that only adds to the white space after the last of them
leaves something behind. -/
structure Heard (S : Setup τ δ) (items : List Item) (daemon : δ) (received : List Bytes)
    (peer : Peer τ δ) (rest : Bytes) (done next : List Item) (taken lead : Bytes) : Prop where
  split : items = done ++ next
  here : At S next peer rest taken lead
  state : peer.daemon = (serve S daemon (done.map Item.obj)).1
  answered : peer.queued = (serve S daemon (done.map Item.obj)).2
  length : received.flatten.length + lead.length = (stream done).length + taken.length
  first : done = [] → lead = []
  lead : ∀ i ∈ done.getLast?, lead.length + i.need ≤ i.bytes.length
  late : completed items received.dropLast.flatten.length = items.length ↔ next = [] ∧ taken ≠ []

variable {items done next : List Item} {daemon : δ} {received chunks : List Bytes}
    {peer peer' : Peer τ δ} {chunk rest taken lead : Bytes}

theorem Heard.count (hdoc : Documented S.tokener Text) (hw : Wellformed Text items)
    (h : Heard S items daemon received peer rest done next taken lead) :
    completed items received.flatten.length = done.length := by
  have hsplit := h.split
  subst hsplit
  exact completed_done hdoc hw h.here.short h.first h.lead h.length

theorem Heard.congr (h : Heard S items daemon received peer rest done next taken lead)
    (ht : peer'.tok = peer.tok) (hb : peer'.buffered = peer.buffered)
    (hd : peer'.daemon = peer.daemon) (hq : peer'.queued = peer.queued) :
    Heard S items daemon received peer' rest done next taken lead :=
  { h with
    here := { h.here with reading := ht ▸ h.here.reading, buffered := hb.trans h.here.buffered }
    state := hd.trans h.state
    answered := hq.trans h.answered }

theorem accept_heard (hdoc : Documented S.tokener Text) (hw : Wellformed Text items)
    (hne : items ≠ []) (hcut : chunks.flatten = stream items) :
    Heard S items daemon [] (accept S daemon chunks).peer chunks.flatten [] items [] [] := by
  obtain ⟨i, rest, rfl⟩ := List.exists_cons_of_ne_nil hne
  have hpos := need_pos hdoc hw
  refine ⟨rfl, ⟨.start, rfl, rfl, hcut, fun j hj => ?_⟩, rfl, rfl, rfl, fun _ => rfl, by simp, ?_⟩
  · cases hj
    simpa using hpos
  · simp [completed, Nat.ne_of_gt hpos]

theorem Heard.more (hdoc : Documented S.tokener Text) (hw : Wellformed Text items)
    (h : Heard S items daemon received peer (chunk ++ rest) done next taken lead) (hne : chunk ≠ [])
    (hhit : (rxCb S peer chunk).1.hit = false) :
    (rxCb S peer chunk).2 = .ok () ∧ (rxCb S peer chunk).1.eof = peer.eof ∧
      ∃ done next taken lead, Heard S items daemon (received ++ [chunk]) (rxCb S peer chunk).1 rest
        done next taken lead := by
  have hcount := h.count hdoc hw
  have hwnext : Wellformed Text next := by
    have hsplit := h.split
    subst hsplit
    exact hw.right
  obtain ⟨hrc, more, next', taken', lead', ht⟩ := rxCb_taken hdoc hwnext h.here hhit
  refine ⟨hrc, ht.answered.eof, done ++ more, next', taken', lead', ?_, ht.here, ?_, ?_, ?_, ?_, ?_, ?_⟩
  · rw [List.append_assoc, ← ht.items, h.split]
  · rw [ht.answered.daemon, h.state, List.map_append, serve_append]
  · rw [ht.answered.queued, h.state, h.answered, List.map_append, serve_append]
  · have hlen := h.length
    have hbefore := congrArg List.length h.here.whole
    have hafter := congrArg List.length ht.here.whole
    rw [ht.items] at hbefore
    simp only [stream_append, List.flatten_append, List.flatten_singleton, List.length_append]
      at hbefore hafter ⊢
    omega
  · intro hnil
    obtain ⟨hd, hm⟩ := List.append_eq_nil_iff.mp hnil
    rw [(ht.waiting hm).2, h.first hd]
  · intro i hi
    by_cases hm : more = []
    · rw [hm, List.append_nil] at hi
      rw [(ht.waiting hm).2]
      exact h.lead i hi
    · rw [List.getLast?_append_of_ne_nil _ hm] at hi
      exact ht.lead i hi
  · -- the values were complete before this chunk if it completes none
    have hitems := h.split
    rw [ht.items] at hitems
    rw [List.dropLast_concat, hcount]
    constructor
    · intro heq
      have hlen := congrArg List.length hitems
      simp only [List.length_append] at hlen
      obtain ⟨hm, hn⟩ : more = [] ∧ next' = [] :=
        ⟨List.length_eq_zero_iff.mp (by omega), List.length_eq_zero_iff.mp (by omega)⟩
      refine ⟨hn, ?_⟩
      rw [(ht.waiting hm).1]
      simp [hne]
    · rintro ⟨hn, htaken⟩
      have hm : more = [] := by
        by_contra hm
        exact htaken (ht.clean hm hn)
      rw [hitems, hm, hn, List.append_nil, List.append_nil]

theorem eofCb_eof (peer : Peer τ δ) : (eofCb S peer).eof = peer.eof := by
  unfold eofCb sendDone
  split
  · rfl
  · exact sendKeep_eof _ _

theorem eofCb_hit (h : (eofCb S peer).hit = false) : peer.hit = false := by
  unfold eofCb at h
  split at h
  · exact h
  · exact (sendKeep_queued _ _ h).1

theorem peerRx_hit {eof : Bool} (h : (peerRx S peer chunks eof).1.hit = false) : peer.hit = false := by
  induction chunks generalizing peer with
  | nil =>
    cases eof with
    | false => exact h
    | true => exact @eofCb_hit _ _ S { peer with eof := true } h
  | cons chunk chunks ih =>
    have hhit : (rxCb S peer chunk).1.hit = false := by
      rcases hrx : rxCb S peer chunk with ⟨peer', e | _⟩ <;> rw [peerRx, hrx] at h
      · exact h
      · exact ih h
    exact rxCb_hit hhit

theorem peerRx_heard (hdoc : Documented S.tokener Text) (hw : Wellformed Text items)
    (h : Heard S items daemon received peer (chunks.flatten ++ rest) done next taken lead)
    (hne : ∀ chunk ∈ chunks, chunk ≠ []) {eof : Bool}
    (hhit : (peerRx S peer chunks eof).1.hit = false) :
    ∃ peer', peerRx S peer chunks eof =
      (if eof then eofCb S { peer' with eof := true } else peer', .ok ()) ∧ peer'.eof = peer.eof ∧
      ∃ done next taken lead, Heard S items daemon (received ++ chunks) peer' rest done next taken lead := by
  induction chunks generalizing received peer done next taken lead with
  | nil => exact ⟨peer, rfl, rfl, done, next, taken, lead, by rwa [List.append_nil]⟩
  | cons chunk chunks ih =>
    rw [List.flatten_cons, List.append_assoc] at h
    obtain ⟨hchunk, hchunks⟩ := List.forall_mem_cons.mp hne
    have hhit₁ : (rxCb S peer chunk).1.hit = false := by
      rcases hrx : rxCb S peer chunk with ⟨peer', e | _⟩ <;> rw [peerRx, hrx] at hhit
      · exact hhit
      · exact peerRx_hit hhit
    obtain ⟨hrc, heof, done₁, next₁, taken₁, lead₁, h₁⟩ := h.more hdoc hw hchunk hhit₁
    rcases hrx : rxCb S peer chunk with ⟨peer₁, rc⟩
    rw [hrx] at hrc heof h₁
    cases hrc
    rw [peerRx, hrx] at hhit
    obtain ⟨peer', heq, heof', done', next', taken', lead', h'⟩ := ih h₁ hchunks hhit
    refine ⟨peer', by rw [peerRx, hrx]; exact heq, heof'.trans heof, done', next', taken', lead', ?_⟩
    rwa [List.append_assoc] at h'

theorem At.leftover (hdoc : Documented S.tokener Text) (hw : Wellformed Text next)
    (h : At S next peer [] taken lead) (hne : next ≠ []) :
    ∃ i, next = [i] ∧ taken ≠ [] ∧ ∀ members, i.obj ≠ .obj members := by
  obtain ⟨i, next, rfl⟩ := List.exists_cons_of_ne_nil hne
  have hlen := congrArg List.length h.whole
  have hshort := h.short i rfl
  simp only [List.append_nil, stream_cons, List.length_append] at hlen
  have hopen : ¬ (closed i.text = true ∨ i.space ≠ []) := by
    intro hc
    have hle := Item.need_le hc
    omega
  have hlast : next = [] := by
    by_contra hn
    exact hopen (hw.apart hn)
  subst hlast
  obtain ⟨b, text, ht, -⟩ := hdoc.starts _ _ (hw.text i List.mem_cons_self)
  refine ⟨i, rfl, ?_, fun members hobj => hopen (.inl ?_)⟩
  · rw [Item.length_bytes, ht, List.length_cons] at hlen
    exact List.ne_nil_of_length_pos (by omega)
  · apply hdoc.braced _ members
    rw [← hobj]
    exact hw.text i List.mem_cons_self

/-- What has been queued once the end of the stream was read: the responses to
all the values, and an error more if the last chunk was not needed for them. -/
def Complete (items : List Item) (chunks : List Bytes) (queued : List Value) : Prop :=
  ∃ resps, List.Forall₂ Answers (items.map Item.obj) resps ∧
    queued = resps ++ if completed items chunks.dropLast.flatten.length = items.length then [endOfStream] else []

theorem eofCb_complete (hdoc : Documented S.tokener Text) (hw : Wellformed Text items)
    (h : Heard S items daemon received peer [] done next taken lead)
    (hhit : (eofCb S { peer with eof := true }).hit = false) :
    Complete items received (eofCb S { peer with eof := true }).queued := by
  have hserved := serve_answers (S := S) daemon (done.map Item.obj)
  rw [← h.answered] at hserved
  have hitems := h.split
  have hbuf := h.here.buffered
  by_cases ht : taken = []
  · have hn : next = [] := by
      by_contra hn
      subst hitems
      obtain ⟨i, -, htaken, -⟩ := h.here.leftover hdoc hw.right hn
      exact htaken ht
    rw [hn, List.append_nil] at hitems
    subst hitems
    refine ⟨_, hserved, ?_⟩
    rw [if_neg (fun hlate => (h.late.mp hlate).2 ht), List.append_nil, eofCb, if_pos (by simp [hbuf, ht])]
  · have hbuf : peer.buffered ≠ 0 := by simp [hbuf, ht]
    rw [eofCb, if_neg hbuf] at hhit ⊢
    rw [sendDone, (sendKeep_queued _ _ hhit).2]
    by_cases hn : next = []
    · rw [hn, List.append_nil] at hitems
      refine ⟨_, hitems ▸ hserved, ?_⟩
      rw [if_pos (h.late.mpr ⟨hn, ht⟩)]
      rfl
    · -- the end of the stream is the answer to the last value
      refine ⟨peer.queued ++ [endOfStream], ?_, ?_⟩
      · subst hitems
        obtain ⟨i, rfl, -, hobj⟩ := h.here.leftover hdoc hw.right hn
        rw [List.map_append]
        exact List.rel_append hserved (.cons (answers_of_not_obj hobj _) .nil)
      · rw [if_neg (fun hlate => hn (h.late.mp hlate).1), List.append_nil]
        rfl

/-- The stream is being read, or has been. -/
inductive Stage (S : Setup τ δ) (items : List Item) (daemon : δ) (chunks : List Bytes)
    (peer : Peer τ δ) (inbox : List Bytes) : Prop
  | reading (received : List Bytes) (hr : received ++ inbox = chunks) (he : peer.eof = false)
      (h : ∃ done next taken lead, Heard S items daemon received peer inbox.flatten done next taken lead)
  | ended (hi : inbox = []) (he : peer.eof = true) (h : Complete items chunks peer.queued)

theorem Stage.flush {inbox : List Bytes} (h : Stage S items daemon chunks peer inbox) (tx : Sb)
    (pollin pollout : Bool) :
    Stage S items daemon chunks { peer with tx := tx, pollin := pollin, pollout := pollout } inbox := by
  cases h with
  | reading received hr he h =>
    obtain ⟨done, next, taken, lead, h⟩ := h
    exact .reading received hr he ⟨done, next, taken, lead, h.congr rfl rfl rfl rfl⟩
  | ended hi he h => exact .ended hi he h

variable {conn conn' : Conn τ δ} {wake : Wake}

theorem peerTx_ok (peer : Peer τ δ) (room : Nat) :
    ∃ tx, peerTx peer room = ({ peer with tx := tx }, .ok ()) := by
  unfold peerTx Sb.pull
  rw [if_pos (Nat.min_le_right _ _)]
  exact ⟨_, rfl⟩

theorem settle_eq (peer : Peer τ δ) (inbox : List Bytes) :
    ∃ pollin pollout gone, settle peer inbox =
      ⟨{ peer with pollin := pollin, pollout := pollout }, inbox, gone⟩ ∧
      (gone = true → peer.tx.len = 0) ∧ (gone = false → pollin = !peer.eof) := by
  unfold settle
  split_ifs with hlen hdone
  · exact ⟨_, _, _, rfl, by simp, fun _ => rfl⟩
  · exact ⟨_, _, _, rfl, fun _ => by omega, by simp⟩
  · exact ⟨_, _, _, rfl, by simp, fun _ => rfl⟩

/-- After it has read what it was woken for, a connection sends what it can. It
is closed only if the other side is gone or all of it is sent, and until it has
read the end of the stream it waits for more. -/
theorem peerEvent_ok {peer : Peer τ δ}
    (h : peerRx S conn.peer (conn.inbox.take (wake.input.getD (0, false)).1)
      (wake.input.getD (0, false)).2 = (peer, .ok ())) :
    ∃ tx pollin pollout gone,
      peerEvent S conn wake =
        ⟨{ peer with tx := tx, pollin := pollin, pollout := pollout }, conn.inbox.drop
          (wake.input.getD (0, false)).1, gone⟩ ∧
      (gone = true → wake.hup = true ∨ tx.len = 0) ∧ (gone = false → pollin = !peer.eof) := by
  simp only [peerEvent, h]
  split_ifs with hhup
  · exact ⟨_, _, _, _, rfl, fun _ => .inl hhup, by simp⟩
  cases wake.output with
  | none =>
    obtain ⟨pollin, pollout, gone, heq, hgone, hpollin⟩ := settle_eq peer
      (conn.inbox.drop (wake.input.getD (0, false)).1)
    exact ⟨_, _, _, _, heq, fun hg => .inr (hgone hg), hpollin⟩
  | some room =>
    obtain ⟨tx, htx⟩ := peerTx_ok peer room
    obtain ⟨pollin, pollout, gone, heq, hgone, hpollin⟩ := settle_eq { peer with tx := tx }
      (conn.inbox.drop (wake.input.getD (0, false)).1)
    simp only [htx]
    exact ⟨_, _, _, _, heq, fun hg => .inr (hgone hg), hpollin⟩

theorem peerEvent_hit (S : Setup τ δ) (conn : Conn τ δ) (wake : Wake) :
    (peerEvent S conn wake).peer.hit =
      (peerRx S conn.peer (conn.inbox.take (wake.input.getD (0, false)).1)
        (wake.input.getD (0, false)).2).1.hit := by
  rcases hrx : peerRx S conn.peer (conn.inbox.take (wake.input.getD (0, false)).1)
    (wake.input.getD (0, false)).2 with ⟨peer, e | _⟩
  · simp only [peerEvent, hrx]
  · obtain ⟨_, _, _, _, heq, -⟩ := peerEvent_ok hrx
    rw [heq]

theorem run_hit {wakes : List Wake} (hrun : run S conn wakes = some conn')
    (h : conn'.peer.hit = false) : conn.peer.hit = false := by
  induction wakes generalizing conn with
  | nil =>
    cases hrun
    exact h
  | cons wake wakes ih =>
    rw [run] at hrun
    split at hrun
    · exact peerRx_hit (peerEvent_hit S conn wake ▸ ih hrun)
    · cases hrun

theorem enabled_ok (h : wake.enabled conn = true) :
    conn.gone = false ∧ (wake.input = none ∨ ∃ n eof, wake.input = some (n, eof) ∧
      conn.peer.pollin = true ∧ n ≤ conn.inbox.length ∧
      (eof = true → n = conn.inbox.length)) := by
  unfold Wake.enabled at h
  cases hin : wake.input with
  | none =>
    simp only [Bool.and_eq_true, Bool.not_eq_true'] at h
    exact ⟨h.1.1, .inl rfl⟩
  | some input =>
    obtain ⟨n, eof⟩ := input
    simp only [hin, Option.all_some, Bool.and_eq_true, Bool.not_eq_true', Bool.or_eq_true,
      decide_eq_true_eq] at h
    obtain ⟨⟨hgone, -⟩, ⟨hpollin, hn⟩, heof⟩ := h
    exact ⟨hgone, .inr ⟨n, eof, rfl, hpollin, hn, fun he => heof.resolve_left (by simp [he])⟩⟩

theorem peerRx_stage (hdoc : Documented S.tokener Text) (hw : Wellformed Text items)
    (hne : ∀ chunk ∈ chunks, chunk ≠ [])
    (h : Stage S items daemon chunks conn.peer conn.inbox)
    (hpolls : conn.gone = false → conn.peer.pollin = !conn.peer.eof)
    (hen : wake.enabled conn = true)
    (hhit : (peerRx S conn.peer (conn.inbox.take (wake.input.getD (0, false)).1)
      (wake.input.getD (0, false)).2).1.hit = false) :
    ∃ peer, peerRx S conn.peer (conn.inbox.take (wake.input.getD (0, false)).1)
      (wake.input.getD (0, false)).2 = (peer, .ok ()) ∧
      Stage S items daemon chunks peer (conn.inbox.drop (wake.input.getD (0, false)).1) := by
  obtain ⟨hgone, hin | ⟨n, eof, hin, hpollin, hn, heof⟩⟩ := enabled_ok hen
  · rw [hin]
    exact ⟨conn.peer, rfl, h⟩
  · rw [hin, Option.getD_some] at hhit ⊢
    have hreading : conn.peer.eof = false := by simpa [hpollin] using hpolls hgone
    cases h with
    | ended _ he _ => exact absurd (hreading.symm.trans he) (by simp)
    | reading received hr he h =>
      obtain ⟨done, next, taken, lead, h⟩ := h
      have hcut : conn.inbox.flatten = (conn.inbox.take n).flatten ++ (conn.inbox.drop n).flatten := by
        rw [← List.flatten_append, List.take_append_drop]
      rw [hcut] at h
      have hchunks : ∀ chunk ∈ conn.inbox.take n, chunk ≠ [] := by
        intro chunk hc
        apply hne
        rw [← hr]
        exact List.mem_append_right _ (List.mem_of_mem_take hc)
      obtain ⟨peer, heq, he', hheard⟩ := peerRx_heard hdoc hw h hchunks hhit
      refine ⟨_, heq, ?_⟩
      cases eof with
      | false =>
        refine .reading (received ++ conn.inbox.take n) ?_ (he'.trans he) hheard
        rw [List.append_assoc, List.take_append_drop, hr]
      | true =>
        obtain ⟨done, next, taken, lead, hheard⟩ := hheard
        obtain rfl := heof rfl
        rw [List.take_length, List.drop_length, hr] at hheard
        rw [heq] at hhit
        exact .ended List.drop_length (eofCb_eof _) (eofCb_complete hdoc hw hheard hhit)

theorem run_stage (hdoc : Documented S.tokener Text) (hw : Wellformed Text items)
    (hne : ∀ chunk ∈ chunks, chunk ≠ []) {wakes : List Wake}
    (h : Stage S items daemon chunks conn.peer conn.inbox)
    (hpolls : conn.gone = false → conn.peer.pollin = !conn.peer.eof)
    (hrun : run S conn wakes = some conn') (hhit : conn'.peer.hit = false) :
    Stage S items daemon chunks conn'.peer conn'.inbox ∧
      (conn'.gone = false → conn'.peer.pollin = !conn'.peer.eof) ∧
      ((conn.gone = true → conn.peer.tx.len = 0) → (∀ wake ∈ wakes, wake.hup = false) →
        conn'.gone = true → conn'.peer.tx.len = 0) := by
  induction wakes generalizing conn with
  | nil =>
    cases hrun
    exact ⟨h, hpolls, fun hg _ => hg⟩
  | cons wake wakes ih =>
    rw [run] at hrun
    split at hrun
    · rename_i hen
      have hhit₁ := run_hit hrun hhit
      rw [peerEvent_hit] at hhit₁
      obtain ⟨peer, hrx, hstage⟩ := peerRx_stage hdoc hw hne h hpolls hen hhit₁
      obtain ⟨tx, pollin, pollout, gone, heq, hgone, hpollin⟩ := peerEvent_ok hrx
      rw [heq] at hrun
      obtain ⟨h', hpolls', hflushed⟩ := ih (hstage.flush tx pollin pollout) hpollin hrun
      refine ⟨h', hpolls', fun _ hhup => ?_⟩
      obtain ⟨hw, hws⟩ := List.forall_mem_cons.mp hhup
      exact hflushed (fun hg => (hgone hg).resolve_left (by simp [hw])) hws
    · cases hrun

end

def soleParse (text : Bytes) (obj : Value) (tok : Option Bytes) (bytes : Bytes) :
    Option Bytes × Report × Nat :=
  let all := tok.getD [] ++ bytes
  let word := all.dropWhile isSpace
  if text <+: word then (none, .value obj, bytes.length - ((word.drop text.length).dropWhile isSpace).length)
  else if word <+: text then (some all, .more, bytes.length)
  else (some all, .error "unexpected character", 0)

def sole (text : Bytes) (obj : Value) (h : text.head? = some 0x7b) : Tokener Bytes where
  parse := soleParse text obj
  le tok bytes := by
    simp only [soleParse]
    split_ifs
    · exact Nat.sub_le _ _
    · exact Nat.le_refl _
    · exact Nat.zero_le _
  fresh bytes obj' hv := by
    simp only [soleParse, Option.getD_none, List.nil_append] at hv ⊢
    split_ifs at hv ⊢ with hpre hword
    · have hpos : 0 < text.length := by
        cases text with
        | nil => cases h
        | cons => simp
      have hle := hpre.length_le
      have hword := (List.dropWhile_suffix isSpace (l := bytes)).length_le
      have hrest := (List.dropWhile_suffix isSpace (l := (bytes.dropWhile isSpace).drop text.length)).length_le
      rw [List.length_drop] at hrest
      simp only
      omega

section

variable {text : Bytes} {obj : Value} (h : text.head? = some 0x7b)

theorem sole_reading {taken : Bytes} {tok : Option Bytes}
    (hr : Reading (sole text obj h) taken tok) : tok.getD [] = taken := by
  induction hr with
  | start => rfl
  | more hr hne hp ih =>
    simp only [sole, soleParse] at hp
    split_ifs at hp with h₁ h₂ <;> cases hp
    rw [Option.getD_some, ih]

theorem dropWhile_space {lead rest : Bytes} (hl : lead.all isSpace = true)
    (hr : ∀ b ∈ rest.head?, isSpace b = false) :
    (lead ++ rest).dropWhile isSpace = rest := by
  rw [List.dropWhile_append_of_pos (List.all_eq_true.mp hl)]
  cases rest with
  | nil => rfl
  | cons b rest => exact List.dropWhile_cons_of_neg (by simp [hr b rfl])

theorem sole_more {taken bytes word : Bytes} {tok : Option Bytes} (hr : Reading (sole text obj h) taken tok)
    (hw : (taken ++ bytes).dropWhile isSpace = word) (hpre : word <+: text) (hne : word ≠ text) :
    ∃ tok', (sole text obj h).parse tok bytes = (tok', .more, bytes.length) := by
  simp only [sole, soleParse, sole_reading h hr, hw]
  rw [if_neg (fun hp => hne (hpre.eq_of_length_le hp.length_le)), if_pos hpre]
  exact ⟨_, rfl⟩

theorem sole_documented : Documented (sole text obj h) (fun t v => t = text ∧ v = obj) := by
  have hhead (rest : Bytes) : ∀ b ∈ (text ++ rest).head?, isSpace b = false := by
    intro b hb
    cases text with
    | nil => cases h
    | cons c tail =>
      cases h
      cases hb
      decide
  have htext : text ≠ [] := by
    rintro rfl
    cases h
  refine ⟨?_, ?_, ?_, ?_, ?_⟩
  · rintro t v ⟨rfl, rfl⟩
    obtain ⟨b, rest, rfl⟩ := List.exists_cons_of_ne_nil htext
    exact ⟨b, rest, rfl, hhead [] b rfl⟩
  · rintro t members ⟨rfl, -⟩
    simp [closed, h]
  · intro taken tok bytes hr hne hs
    refine sole_more h hr ?_ List.nil_prefix htext.symm
    simpa using List.all_eq_true.mp hs
  · rintro taken tok bytes lead t v hr hne hlead ⟨rfl, rfl⟩ hpre hopen
    have hne' := hopen (by simp [closed, h])
    obtain ⟨rest, hrest⟩ := hpre
    obtain ⟨space, hl, -⟩ | ⟨word, hw, ht⟩ := List.append_eq_append_iff.mp hrest
    · rw [hl, List.all_append, Bool.and_eq_true] at hlead
      refine sole_more h hr ?_ List.nil_prefix htext.symm
      simpa using List.all_eq_true.mp hlead.1
    · refine sole_more h hr ?_ ⟨rest, ht.symm⟩ (fun heq => hne' (by rw [hw, heq]))
      rw [hw]
      refine dropWhile_space hlead (fun b hb => hhead [] b ?_)
      cases word with
      | nil => cases hb
      | cons c word =>
        rw [List.append_nil, ht]
        exact hb
  · rintro taken tok bytes lead t v space rest hr hne hlead ⟨rfl, rfl⟩ hspace heq hrest -
    refine ⟨none, ?_⟩
    rw [List.append_assoc, List.append_assoc] at heq
    simp only [sole, soleParse, sole_reading h hr, heq, dropWhile_space hlead (hhead _), List.drop_left]
    rw [if_pos (List.prefix_append _ _), dropWhile_space hspace hrest]

end

def pingText : Bytes := bytesOf "\x7b\"jsonrpc\":\"2.0\",\"id\":7,\"method\":\"ping\"\x7d"

def ping : Value := .obj [("jsonrpc", .str "2.0"), ("id", .int 7), ("method", .str "ping")]

theorem pingText_head : pingText.head? = some 0x7b := by decide +kernel

def counting : Setup Bytes Nat where
  tokener := sole pingText ping pingText_head
  streamMaxbuf := 0
  realloc := ample
  strerror := ""
  serialize := fun _ => [0x7b, 0x7d]
  handle n _ _ := (n + 1, .result (.int n), false)

def IsPing (text : Bytes) (obj : Value) : Prop := text = pingText ∧ obj = ping

theorem pings_wellformed {items : List Item}
    (h : ∀ i ∈ items, IsPing i.text i.obj ∧ i.space.all isSpace = true) :
    Wellformed IsPing items := by
  refine ⟨fun i hi => (h i hi).1, fun i hi => (h i hi).2, fun i hi => .inl ?_⟩
  rw [(h i (List.mem_of_mem_dropLast hi)).1.1]
  decide +kernel

section

variable {τ δ : Type} {S : Setup τ δ} {Text : Bytes → Value → Prop} {items : List Item} {daemon : δ}
    {chunks : List Bytes} {conn : Conn τ δ}

/-- On a connection that no limit gets in the way of, the daemon queues one
response to each value of a stream, in order, however the stream is cut and
whenever the daemon is woken. It queues an error more if the last chunk was not
needed for any of the values. Until it has read the end of the stream it has
answered the values that are complete, and waits for more unless the connection
is closed; and it closes a connection whose other side is not gone only when all
it has queued is sent. -/
theorem responses_in_order (hdoc : Documented S.tokener Text) (hw : Wellformed Text items) (hn : items ≠ [])
    (hne : ∀ chunk ∈ chunks, chunk ≠ []) (hcut : chunks.flatten = stream items) {wakes : List Wake}
    (hrun : run S (accept S daemon chunks) wakes = some conn) (hhit : conn.peer.hit = false) :
    (conn.peer.eof = true → conn.inbox = [] ∧ Complete items chunks conn.peer.queued) ∧
      (conn.peer.eof = false → ∃ received, received ++ conn.inbox = chunks ∧
        List.Forall₂ Answers ((items.take (completed items received.flatten.length)).map Item.obj)
          conn.peer.queued) ∧
      (conn.gone = false → conn.peer.pollin = !conn.peer.eof) ∧
      ((∀ wake ∈ wakes, wake.hup = false) → conn.gone = true → conn.peer.tx.len = 0) := by
  have hstart : Stage S items daemon chunks (accept S daemon chunks).peer chunks :=
    .reading [] rfl rfl ⟨_, _, _, _, accept_heard hdoc hw hn hcut⟩
  obtain ⟨hstage, hpolls, hflushed⟩ := run_stage hdoc hw hne hstart (fun _ => rfl) hrun hhit
  refine ⟨fun he => ?_, fun he => ?_, hpolls, hflushed (fun h => by cases h)⟩
  · cases hstage with
    | reading _ _ he' _ => exact absurd (he.symm.trans he') (by simp)
    | ended hi _ h => exact ⟨hi, h⟩
  · cases hstage with
    | ended _ he' _ => exact absurd (he.symm.trans he') (by simp)
    | reading received hr _ h =>
      obtain ⟨done, next, taken, lead, h⟩ := h
      refine ⟨received, hr, ?_⟩
      rw [h.count hdoc hw, h.split, List.take_left, h.answered]
      exact serve_answers daemon _

end

theorem responses_in_order_cut : ∃ conn,
    run counting (accept counting 0 [pingText ++ pingText.take 5, pingText.drop 5 ++ [0x0a]])
        [⟨some (1, false), none, false⟩, ⟨some (1, true), none, false⟩] = some conn ∧
      Complete [⟨pingText, ping, []⟩, ⟨pingText, ping, [0x0a]⟩]
        [pingText ++ pingText.take 5, pingText.drop 5 ++ [0x0a]] conn.peer.queued := by
  obtain ⟨conn, hrun⟩ := Option.isSome_iff_exists.mp (show (run counting
    (accept counting 0 [pingText ++ pingText.take 5, pingText.drop 5 ++ [0x0a]])
    [⟨some (1, false), none, false⟩, ⟨some (1, true), none, false⟩]).isSome = true by decide +kernel)
  have hend : (run counting (accept counting 0 [pingText ++ pingText.take 5, pingText.drop 5 ++ [0x0a]])
      [⟨some (1, false), none, false⟩, ⟨some (1, true), none, false⟩]).all
        (fun conn => !conn.peer.hit && conn.peer.eof) = true := by
    decide +kernel
  rw [hrun, Option.all_some, Bool.and_eq_true, Bool.not_eq_true'] at hend
  have hw : Wellformed IsPing [⟨pingText, ping, []⟩, ⟨pingText, ping, [0x0a]⟩] := pings_wellformed
    (by simp [IsPing, isSpace])
  exact ⟨conn, hrun, ((responses_in_order (sole_documented pingText_head) hw
    (by simp) (by decide +kernel) (by decide +kernel) hrun hend.1).1 hend.2).2⟩

/-- White space of its own after the only request is answered too. Of two
requests the second is not answered if the response to the first is sent before
it arrives. And a response to a request with a null identifier has none. -/
theorem responses_miscounted :
    (Documented counting.tokener IsPing ∧ Wellformed IsPing [⟨pingText, ping, [0x0a]⟩] ∧
      [pingText, [0x0a]].flatten = stream [⟨pingText, ping, [0x0a]⟩] ∧
      (run counting (accept counting 0 [pingText, [0x0a]]) [⟨some (2, true), none, false⟩]).map
        (fun conn => (conn.peer.queued.length, conn.peer.eof, conn.peer.hit)) = some (2, true, false)) ∧
      (Wellformed IsPing [⟨pingText, ping, []⟩, ⟨pingText, ping, []⟩] ∧
        [pingText, pingText].flatten = stream [⟨pingText, ping, []⟩, ⟨pingText, ping, []⟩] ∧
        (run counting (accept counting 0 [pingText, pingText])
          [⟨some (1, false), none, false⟩, ⟨none, some 2, false⟩]).map
          (fun conn => (conn.peer.queued.length, conn.gone, conn.peer.hit)) = some (1, true, false)) ∧
      member "id" (answer counting 0
        (.obj [("jsonrpc", .str "2.0"), ("id", .null), ("method", .str "ping")])).2.1 = none := by
  refine ⟨⟨sole_documented pingText_head, pings_wellformed (by simp [IsPing, isSpace]), by
    decide +kernel, by decide +kernel⟩,
    ⟨pings_wellformed (by simp [IsPing]), by decide +kernel, by decide +kernel⟩, rfl⟩

end Bbdd.Control
