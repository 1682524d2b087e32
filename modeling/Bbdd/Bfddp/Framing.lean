import Bbdd.Bfddp.Message
import Bbdd.Buffer
import Bbdd.Lib.Framing

namespace Bbdd.Bfddp

open Lib.Program Lib.Wire Lib.Framing Buffer

abbrev ObjCb (σ : Type) := σ → Bytes → σ × Option String

/-- The receiving end of a connection. What was passed to the callback is
recorded for the sake of the argument. -/
structure Tkn (σ : Type) where
  sb : Sb
  data : σ
  passed : List Bytes

def msgLen (msg : Bytes) : Nat := (ntoh16 (header.get msg).length).toNat

def tooShort (msg : Bytes) : Failure :=
  let len := msgLen msg
  .error s!"BFDDP message length {len} too short"

section

variable {σ : Type}

def Tkn.front (tkn : Tkn σ) : Bytes := tkn.sb.content.take (msgLen tkn.sb.content)

def Tkn.pass (tkn : Tkn σ) (objCb : ObjCb σ) (sb : Sb) : Tkn σ :=
  ⟨sb, (objCb tkn.data tkn.front).1, tkn.passed ++ [tkn.front]⟩

/-- One turn of the loop, and what it returns unless it goes on. The message
is discarded even if the callback fails. -/
def rxStep (objCb : ObjCb σ) (tkn : Tkn σ) : Tkn σ × Option (Except Failure Unit) :=
  if tkn.sb.len < header.size then (tkn, some (.ok ()))
  else if msgLen tkn.sb.content < header.size then (tkn, some (.error (tooShort tkn.sb.content)))
  else if tkn.sb.len < msgLen tkn.sb.content then (tkn, some (.ok ()))
  else
    match tkn.sb.pull (msgLen tkn.sb.content) with
    | .error e => (tkn.pass objCb tkn.sb, some (.error e))
    | .ok sb => (tkn.pass objCb sb, (objCb tkn.data tkn.front).2.map (.error ∘ .error))

theorem rxStep_lt {objCb : ObjCb σ} {tkn tkn' : Tkn σ} (h : rxStep objCb tkn = (tkn', none)) :
    tkn'.sb.len < tkn.sb.len := by
  have hpos : 0 < header.size := Nat.succ_pos 7
  unfold rxStep at h
  split_ifs at h with h₁ h₂ h₃
  · cases h
  · cases h
  · cases h
  · unfold Sb.pull at h
    split_ifs at h
    · rw [← congrArg (·.1.sb.len) h]
      change tkn.sb.len - msgLen tkn.sb.content < tkn.sb.len
      omega
    · cases h

def rxLoop (objCb : ObjCb σ) (tkn : Tkn σ) : Tkn σ × Except Failure Unit :=
  match _h : rxStep objCb tkn with
  | (tkn', some rc) => (tkn', rc)
  | (tkn', none) => rxLoop objCb tkn'
termination_by tkn.sb.len
decreasing_by exact rxStep_lt _h

def rxCb (realloc : Realloc) (strerror : String) (objCb : ObjCb σ) (tkn : Tkn σ) (buf : Bytes) :
    Tkn σ × Except Failure Unit :=
  match tkn.sb.pushLen realloc strerror buf with
  | .error e => (tkn, .error e)
  | .ok sb => rxLoop objCb { tkn with sb := sb }

def receive (realloc : Realloc) (strerror : String) (objCb : ObjCb σ) :
    Tkn σ → List Bytes → Tkn σ × Except Failure Unit
  | tkn, [] => (tkn, .ok ())
  | tkn, chunk :: chunks =>
    match rxCb realloc strerror objCb tkn chunk with
    | (tkn, .error e) => (tkn, .error e)
    | (tkn, .ok ()) => receive realloc strerror objCb tkn chunks

def IsFrame (msg : Bytes) : Prop := header.size ≤ msg.length ∧ msgLen msg = msg.length

def Short (bytes : Bytes) : Prop := header.size ≤ bytes.length ∧ msgLen bytes < header.size

instance (bytes : Bytes) : Decidable (Short bytes) := inferInstanceAs (Decidable (_ ∧ _))

/-- Messages handled in order up to the first that fails: the state after
them, the messages, and the error. -/
def deliver (objCb : ObjCb σ) : σ → List Bytes → σ × List Bytes × Option String
  | s, [] => (s, [], none)
  | s, msg :: msgs =>
    match objCb s msg with
    | (s, some e) => (s, [msg], some e)
    | (s, none) => ((deliver objCb s msgs).1, msg :: (deliver objCb s msgs).2.1, (deliver objCb s msgs).2.2)

def verdict (failed : Option String) (rest : Bytes) : Except Failure Unit :=
  match failed with
  | some e => .error (.error e)
  | none => if Short rest then .error (tooShort rest) else .ok ()

theorem msgLen_append {bytes : Bytes} (h : header.size ≤ bytes.length) (more : Bytes) :
    msgLen (bytes ++ more) = msgLen bytes := by
  rw [msgLen, header.get_append h]
  rfl

theorem isFrame_prefixFree : PrefixFree IsFrame where
  nonempty f hf := by
    rintro rfl
    exact absurd hf.1 (by decide)
  eq f g hf hg hpre := by
    obtain ⟨more, rfl⟩ := hpre
    have hlen := hg.2
    rw [msgLen_append hf.1, hf.2, List.length_append] at hlen
    have hnil : more = [] := List.length_eq_zero_iff.mp (by omega)
    rw [hnil, List.append_nil]

theorem Short.append {bytes : Bytes} (h : Short bytes) (more : Bytes) :
    Short (bytes ++ more) ∧ Split IsFrame (bytes ++ more) [] (bytes ++ more) ∧
      tooShort (bytes ++ more) = tooShort bytes := by
  have hlen := msgLen_append h.1 more
  have hsize : header.size ≤ (bytes ++ more).length := h.1.trans (by simp)
  refine ⟨⟨hsize, hlen.trans_lt h.2⟩, split_stop ?_, by simp only [tooShort, hlen]⟩
  rintro f hf ⟨tail, htail⟩
  have hfl := msgLen_append hf.1 tail
  rw [htail, hlen, hf.2] at hfl
  have := h.2
  have := hf.1
  omega

theorem deliver_append (objCb : ObjCb σ) (s : σ) (msgs more : List Bytes) :
    deliver objCb s (msgs ++ more) =
      match deliver objCb s msgs with
      | (s, ps, some e) => (s, ps, some e)
      | (s, ps, none) => ((deliver objCb s more).1, ps ++ (deliver objCb s more).2.1,
          (deliver objCb s more).2.2) := by
  induction msgs generalizing s with
  | nil => rfl
  | cons msg msgs ih =>
    simp only [List.cons_append, deliver]
    rcases objCb s msg with ⟨s', _ | e⟩
    · simp only [ih s']
      rcases deliver objCb s' msgs with ⟨s'', ps, _ | e⟩ <;> rfl
    · rfl

theorem deliver_none {objCb : ObjCb σ} {s : σ} {msgs : List Bytes} (h : (deliver objCb s msgs).2.2 = none) :
    (deliver objCb s msgs).2.1 = msgs := by
  induction msgs generalizing s with
  | nil => rfl
  | cons msg msgs ih =>
    rw [deliver] at h ⊢
    rcases hcb : objCb s msg with ⟨s', _ | e⟩ <;> rw [hcb] at h
    · exact congrArg (msg :: ·) (ih h)
    · cases h

theorem rxLoop_stop {objCb : ObjCb σ} {tkn tkn' : Tkn σ} {rc : Except Failure Unit}
    (h : rxStep objCb tkn = (tkn', some rc)) :
    rxLoop objCb tkn = (tkn', rc) := by
  rw [rxLoop]
  split
  · rename_i heq
    cases heq.symm.trans h
    rfl
  · rename_i heq
    cases heq.symm.trans h

theorem rxLoop_next {objCb : ObjCb σ} {tkn tkn' : Tkn σ} (h : rxStep objCb tkn = (tkn', none)) :
    rxLoop objCb tkn = rxLoop objCb tkn' := by
  rw [rxLoop]
  split
  · rename_i heq
    cases heq.symm.trans h
  · rename_i heq
    cases heq.symm.trans h
    rfl

theorem rxStep_stop (objCb : ObjCb σ) {tkn : Tkn σ} (h : tkn.sb.Ok)
    (hs : Split IsFrame tkn.sb.content [] tkn.sb.content) :
    rxStep objCb tkn = (tkn, some (verdict none tkn.sb.content)) := by
  have hlen := h.content_length
  unfold rxStep verdict
  by_cases h₁ : tkn.sb.len < header.size
  · rw [if_pos h₁, if_neg (fun hshort : Short _ => absurd hshort.1 (by omega))]
  by_cases h₂ : msgLen tkn.sb.content < header.size
  · rw [if_neg h₁, if_pos h₂, if_pos ⟨by omega, h₂⟩]
  by_cases h₃ : tkn.sb.len < msgLen tkn.sb.content
  · rw [if_neg h₁, if_neg h₂, if_pos h₃, if_neg (fun hshort : Short _ => h₂ hshort.2)]
  · have hfront : tkn.front.length = msgLen tkn.sb.content := by
      rw [Tkn.front, List.length_take]
      omega
    have hsame : msgLen (tkn.front ++ tkn.sb.content.drop (msgLen tkn.sb.content)) = msgLen tkn.front :=
      msgLen_append (by omega) _
    rw [Tkn.front, List.take_append_drop] at hsame
    exact absurd (List.take_prefix _ _) (hs.ends tkn.front ⟨by omega, by rw [hfront]; exact hsame.symm⟩)

theorem rxStep_frame (objCb : ObjCb σ) {tkn : Tkn σ} {msg tail : Bytes} (h : tkn.sb.Ok) (hf : IsFrame msg)
    (hc : tkn.sb.content = msg ++ tail) : ∃ sb, sb.Ok ∧ sb.content = tail ∧ sb.maxsize = tkn.sb.maxsize ∧
      rxStep objCb tkn = (⟨sb, (objCb tkn.data msg).1, tkn.passed ++ [msg]⟩,
        (objCb tkn.data msg).2.map (.error ∘ .error)) := by
  have hmsg : msgLen tkn.sb.content = msg.length := by rw [hc, msgLen_append hf.1, hf.2]
  have hlen : msg.length + tail.length = tkn.sb.len := by rw [← h.content_length, hc, List.length_append]
  have hfront : tkn.front = msg := by rw [Tkn.front, hmsg, hc, List.take_left]
  have hsize := hf.1
  obtain ⟨sb, hpull, hok, hcontent, hmax⟩ := pull_ok h (show msg.length ≤ tkn.sb.len by omega)
  refine ⟨sb, hok, by rw [hcontent, hc, List.drop_left], hmax, ?_⟩
  rw [rxStep, hmsg, if_neg (by omega), if_neg (by omega), if_neg (by omega), hpull]
  simp only [Tkn.pass, hfront]

/-- What the loop leaves when the buffer starts with these frames. -/
structure Delivered (objCb : ObjCb σ) (tkn : Tkn σ) (frames : List Bytes) (rest : Bytes)
    (r : Tkn σ × Except Failure Unit) :
    Prop where
  ok : r.1.sb.Ok
  maxsize : r.1.sb.maxsize = tkn.sb.maxsize
  data : r.1.data = (deliver objCb tkn.data frames).1
  passed : r.1.passed = tkn.passed ++ (deliver objCb tkn.data frames).2.1
  rc : r.2 = verdict (deliver objCb tkn.data frames).2.2 rest

theorem rxLoop_delivers {objCb : ObjCb σ} {tkn : Tkn σ} {frames : List Bytes} {rest : Bytes} (h : tkn.sb.Ok)
    (hs : Split IsFrame tkn.sb.content frames rest) :
    Delivered objCb tkn frames rest (rxLoop objCb tkn) ∧
      (deliver objCb tkn.data frames).2.1.flatten ++ (rxLoop objCb tkn).1.sb.content = tkn.sb.content := by
  induction frames generalizing tkn with
  | nil =>
    have hrest := hs.nil_eq
    subst hrest
    rw [rxLoop_stop (rxStep_stop objCb h hs)]
    exact ⟨⟨h, rfl, rfl, (List.append_nil _).symm, rfl⟩, rfl⟩
  | cons msg frames ih =>
    obtain ⟨hf, tail, hc, htail⟩ := hs.uncons
    obtain ⟨sb, hok, rfl, hmax, hstep⟩ := rxStep_frame objCb h hf hc
    rcases hcb : objCb tkn.data msg with ⟨data, _ | e⟩ <;> rw [hcb] at hstep
    · obtain ⟨hd, hcontent⟩ := @ih ⟨sb, data, tkn.passed ++ [msg]⟩ hok htail
      rw [rxLoop_next hstep]
      refine ⟨⟨hd.ok, hd.maxsize.trans hmax, ?_, ?_, ?_⟩, ?_⟩
      · rw [hd.data, deliver, hcb]
      · rw [hd.passed, deliver, hcb, List.append_assoc]
        rfl
      · rw [hd.rc, deliver, hcb]
      · rw [deliver, hcb, hc, ← hcontent]
        simp
    · rw [rxLoop_stop hstep]
      refine ⟨⟨hok, hmax, ?_, ?_, ?_⟩, ?_⟩ <;> simp [deliver, hcb, verdict, hc]

section

variable {realloc : Realloc} {strerror : String} {objCb : ObjCb σ} {tkn : Tkn σ}
    {frames : List Bytes} {rest : Bytes}

theorem rxCb_delivers (hl : Lawful realloc) (hg : ∀ mem n, (realloc mem n).isSome = true)
    (h : tkn.sb.Ok) {chunk : Bytes} (hr : tkn.sb.Room (chunk.length + 1))
    (hs : Split IsFrame (tkn.sb.content ++ chunk) frames rest) :
    Delivered objCb tkn frames rest (rxCb realloc strerror objCb tkn chunk) ∧
      (deliver objCb tkn.data frames).2.1.flatten ++ (rxCb realloc strerror objCb tkn chunk).1.sb.content =
        tkn.sb.content ++ chunk := by
  obtain ⟨sb, hpush, hok, hcontent, hmax⟩ := @pushLen_ok realloc strerror tkn.sb chunk hl hg h hr
  have hcb : rxCb realloc strerror objCb tkn chunk = rxLoop objCb { tkn with sb := sb } := by rw [rxCb, hpush]
  obtain ⟨hd, heq⟩ := @rxLoop_delivers σ objCb { tkn with sb := sb } frames rest hok (by rw [hcontent]; exact hs)
  rw [hcb]
  exact ⟨⟨hd.ok, hd.maxsize.trans hmax, hd.data, hd.passed, hd.rc⟩, heq.trans hcontent⟩

/-- Between two chunks nothing is left that could be passed on, and nothing
that is known to be wrong. -/
structure Waiting (tkn : Tkn σ) : Prop where
  ok : tkn.sb.Ok
  ends : Split IsFrame tkn.sb.content [] tkn.sb.content
  sane : ¬ Short tkn.sb.content

theorem split_nil : Split IsFrame [] [] [] :=
  split_stop fun f hf hpre => isFrame_prefixFree.nonempty f hf (List.prefix_nil.mp hpre)

theorem waiting_new (maxsize : Nat) (data : σ) : Waiting (⟨.new maxsize, data, []⟩ : Tkn σ) :=
  ⟨new_ok maxsize, split_nil, fun hshort => absurd hshort.1 (by rw [new_content]; decide)⟩

/-- With each chunk that comes, the bytes in the buffer and one more are within
the limit, if there is one. -/
def Fits (realloc : Realloc) (strerror : String) (objCb : ObjCb σ) (maxsize : Nat) (tkn : Tkn σ)
    (chunks : List Bytes) : Prop :=
  ∀ before chunk after tkn', chunks = before ++ chunk :: after → receive realloc strerror objCb tkn
    before = (tkn', .ok ()) →
    maxsize = 0 ∨ tkn'.sb.len + chunk.length + 1 ≤ maxsize

theorem Fits.tail {maxsize : Nat} {tkn' : Tkn σ} {chunk : Bytes} {chunks : List Bytes}
    (h : Fits realloc strerror objCb maxsize tkn (chunk :: chunks))
    (hcb : rxCb realloc strerror objCb tkn chunk = (tkn', .ok ())) :
    Fits realloc strerror objCb maxsize tkn' chunks := by
  intro before c after tkn'' hchunks hrec
  exact h (chunk :: before) c after tkn'' (by rw [hchunks]; rfl) (by rw [receive, hcb]; exact hrec)

structure Receipt (objCb : ObjCb σ) (tkn : Tkn σ) (chunks : List Bytes) (frames : List Bytes) (rest : Bytes)
    (r : Tkn σ × Except Failure Unit) : Prop extends Delivered objCb tkn frames rest r where
  buffered : ∃ received, received <+: chunks ∧ (r.2 = .ok () → received = chunks) ∧
    (deliver objCb tkn.data frames).2.1.flatten ++ r.1.sb.content = tkn.sb.content ++ received.flatten

theorem receipt_stop {chunk : Bytes} {chunks fs : List Bytes} {r : Bytes} {tkn' : Tkn σ}
    {e : Failure} (hcb : rxCb realloc strerror objCb tkn chunk = (tkn', .error e))
    (hd : Delivered objCb tkn fs r (tkn', .error e))
    (heq : (deliver objCb tkn.data fs).2.1.flatten ++ tkn'.sb.content = tkn.sb.content ++ chunk)
    (hall : deliver objCb tkn.data frames = deliver objCb tkn.data fs)
    (hrc : verdict (deliver objCb tkn.data frames).2.2 rest = .error e) :
    Receipt objCb tkn (chunk :: chunks) frames rest (receive realloc strerror objCb tkn (chunk :: chunks)) := by
  rw [receive, hcb]
  refine ⟨⟨hd.ok, hd.maxsize, ?_, ?_, hrc.symm⟩, [chunk], ⟨chunks, rfl⟩, nofun, ?_⟩
  · rw [hall, hd.data]
  · rw [hall, hd.passed]
  · rw [hall, List.flatten_singleton]
    exact heq

theorem receipt_next {chunk : Bytes} {chunks fs gs : List Bytes} {tkn' : Tkn σ}
    (hcb : rxCb realloc strerror objCb tkn chunk = (tkn', .ok ()))
    (hd : Delivered objCb tkn fs tkn'.sb.content (tkn', .ok ()))
    (hnone : (deliver objCb tkn.data fs).2.2 = none)
    (hwhole : fs.flatten ++ tkn'.sb.content = tkn.sb.content ++ chunk)
    (hrec : Receipt objCb tkn' chunks gs rest (receive realloc strerror objCb tkn' chunks)) :
    Receipt objCb tkn (chunk :: chunks) (fs ++ gs) rest
      (receive realloc strerror objCb tkn (chunk :: chunks)) := by
  obtain ⟨received, hpre, hall, hbuf⟩ := hrec.buffered
  have hps := deliver_none hnone
  have happ : deliver objCb tkn.data (fs ++ gs) =
    ((deliver objCb tkn'.data gs).1, fs ++ (deliver objCb tkn'.data gs).2.1,
      (deliver objCb tkn'.data gs).2.2) := by
    rw [deliver_append, hd.data]
    rcases hdel : deliver objCb tkn.data fs with ⟨data, ps, _ | e⟩
    · rw [hdel] at hps
      rw [← hps]
    · rw [hdel] at hnone
      cases hnone
  rw [receive, hcb]
  refine ⟨⟨hrec.ok, hrec.maxsize.trans hd.maxsize, ?_, ?_, ?_⟩, chunk :: received, ?_, fun hok => ?_, ?_⟩
  · rw [hrec.data, happ]
  · rw [hrec.passed, hd.passed, hps, happ, List.append_assoc]
  · rw [hrec.rc, happ]
  · exact (List.prefix_cons_inj chunk).mpr hpre
  · rw [hall hok]
  · rw [happ, List.flatten_append, List.append_assoc, hbuf, List.flatten_cons, ← List.append_assoc,
      hwhole, List.append_assoc]

theorem receive_delivers (hl : Lawful realloc) (hg : ∀ mem n, (realloc mem n).isSome = true)
    {chunks : List Bytes} (hw : Waiting tkn)
    (hfit : Fits realloc strerror objCb tkn.sb.maxsize tkn chunks)
    (hs : Split IsFrame (tkn.sb.content ++ chunks.flatten) frames rest) :
    Receipt objCb tkn chunks frames rest (receive realloc strerror objCb tkn chunks) := by
  induction chunks generalizing tkn frames with
  | nil =>
    rw [List.flatten_nil, List.append_nil] at hs
    obtain ⟨rfl, rfl⟩ := hw.ends.unique isFrame_prefixFree hs
    have hok : verdict none tkn.sb.content = .ok () := if_neg hw.sane
    exact ⟨⟨hw.ok, rfl, rfl, (List.append_nil _).symm, hok.symm⟩, [], List.prefix_rfl, fun _ =>
      rfl, by simp [deliver, receive]⟩
  | cons chunk chunks ih =>
    obtain ⟨fs, r, hfs⟩ := exists_split isFrame_prefixFree (tkn.sb.content ++ chunk)
    obtain ⟨gs, r', hgs⟩ := exists_split isFrame_prefixFree (r ++ chunks.flatten)
    rw [List.flatten_cons, ← List.append_assoc] at hs
    obtain ⟨rfl, rfl⟩ := (hfs.append hgs).unique isFrame_prefixFree hs
    obtain ⟨hd, heq⟩ := @rxCb_delivers σ realloc strerror objCb tkn fs r hl hg hw.ok chunk
      (hfit [] chunk chunks tkn rfl rfl) hfs
    rcases hcb : rxCb realloc strerror objCb tkn chunk with ⟨tkn₁, rc⟩
    rw [hcb] at hd heq
    have happ := deliver_append objCb tkn.data fs gs
    rcases hdel : deliver objCb tkn.data fs with ⟨data, ps, _ | e⟩
    · have hnone : (deliver objCb tkn.data fs).2.2 = none := by rw [hdel]
      have hrc : rc = verdict none r := hd.rc.trans (by rw [hnone])
      by_cases hshort : Short r
      · -- the rest starts with a header that nothing can follow
        obtain ⟨hshort', hstop, htext⟩ := hshort.append chunks.flatten
        obtain ⟨rfl, rfl⟩ := hstop.unique isFrame_prefixFree hgs
        obtain rfl : rc = .error (tooShort r) := hrc.trans (if_pos hshort)
        refine receipt_stop hcb hd heq (by rw [List.append_nil]) ?_
        rw [List.append_nil, hnone, ← htext]
        exact if_pos hshort'
      · obtain rfl : rc = .ok () := hrc.trans (if_neg hshort)
        rw [deliver_none hnone] at heq
        obtain rfl : tkn₁.sb.content = r := List.append_cancel_left (heq.trans hfs.whole.symm)
        have hw₁ : Waiting tkn₁ := ⟨hd.ok, split_stop hfs.ends, hshort⟩
        exact receipt_next hcb hd hnone heq (ih hw₁ (by rw [hd.maxsize]; exact hfit.tail hcb) hgs)
    · -- a message failed, and the rest of the chunks is not looked at
      obtain rfl : rc = .error (.error e) := hd.rc.trans (by rw [hdel]; rfl)
      rw [hdel] at happ
      refine receipt_stop hcb hd heq (happ.trans hdel.symm) ?_
      rw [happ]
      rfl

end

end

/-- However a stream is cut into chunks, its frames are passed on one after
another, up to a message that fails or a header that is too short. What is not
passed on of the chunks received stays in the buffer. -/
theorem framing {σ : Type} {realloc : Realloc} (hl : Lawful realloc)
    (hg : ∀ mem n, (realloc mem n).isSome = true) (strerror : String) (objCb : ObjCb σ) (data : σ)
    (maxsize : Nat) (chunks : List Bytes)
    (hfit : Fits realloc strerror objCb maxsize ⟨.new maxsize, data, []⟩ chunks) :
    ∃ frames rest, Split IsFrame chunks.flatten frames rest ∧
      (∀ fs r, Split IsFrame chunks.flatten fs r → fs = frames ∧ r = rest) ∧
      let d := deliver objCb data frames
      let r := receive realloc strerror objCb ⟨.new maxsize, data, []⟩ chunks
      r.1.passed = d.2.1 ∧ r.1.data = d.1 ∧ r.2 = verdict d.2.2 rest ∧
      (r.2 = .ok () → r.1.passed = frames ∧ r.1.sb.content = rest) ∧
      ∃ received, received <+: chunks ∧ r.1.passed.flatten ++ r.1.sb.content = received.flatten := by
  obtain ⟨frames, rest, hs⟩ := exists_split isFrame_prefixFree chunks.flatten
  have hrec := receive_delivers hl hg (waiting_new maxsize data) hfit hs
  obtain ⟨received, hpre, hall, hbuf⟩ := hrec.buffered
  rw [new_content, List.nil_append] at hbuf
  have hpassed := hrec.passed
  rw [List.nil_append] at hpassed
  refine ⟨frames, rest, hs, fun fs r h => hs.unique isFrame_prefixFree h, hpassed, hrec.data,
    hrec.rc, fun hok => ?_,
    received, hpre, by rw [hpassed, hbuf]⟩
  have hnone : (deliver objCb data frames).2.2 = none := by
    have hrc := hrec.rc
    rw [hok] at hrc
    cases hd : (deliver objCb data frames).2.2 with
    | none => rfl
    | some e => rw [hd] at hrc; cases hrc
  have hframes := deliver_none hnone
  refine ⟨hpassed.trans hframes, ?_⟩
  rw [hframes, hall hok, ← hs.whole] at hbuf
  exact List.append_cancel_left hbuf

theorem framing_three : (receive ample "" (fun msgs msg => (msgs ++ [msg], none)) ⟨.new 0, [], []⟩
    [[1, 0, 0], [0, 0, 7, 0, 8, 1, 0, 0, 2, 0, 1, 0], [9, 42]]).1.data =
    [[1, 0, 0, 0, 0, 7, 0, 8], [1, 0, 0, 2, 0, 1, 0, 9, 42]] := by
  obtain ⟨frames, rest, hs, huniq, -, hdata, -⟩ := framing ample_lawful (fun _ _ => rfl) ""
    (fun msgs msg => (msgs ++ [msg], none)) [] 0
    [[1, 0, 0], [0, 0, 7, 0, 8, 1, 0, 0, 2, 0, 1, 0], [9, 42]] (fun _ _ _ _ _ _ => .inl rfl)
  have hcut : Split IsFrame [[1, 0, 0], [0, 0, 7, 0, 8, 1, 0, 0, 2, 0, 1, 0], [9, 42]].flatten
      [[1, 0, 0, 0, 0, 7, 0, 8], [1, 0, 0, 2, 0, 1, 0, 9, 42]] [] := by
    refine ⟨rfl, ?_, split_nil.ends⟩
    simp only [List.mem_cons, List.not_mem_nil, or_false, forall_eq_or_imp, forall_eq, IsFrame]
    decide
  obtain ⟨rfl, rfl⟩ := huniq _ _ hcut
  exact hdata

end Bbdd.Bfddp
