import Sederial.Proofs.CookieRetry

/-!
# `Sederial.Proofs.ReplyEncode`: generated replies are well formed

`makeReply` writes a header, at most one question, at most one answer whose owner points at
the question, and at most one OPT record. `makeReply_repliesAs` shows that the parser reads
back what was written: the bytes have a derivation with exactly these items. The header,
the presence of an OPT and the COOKIE of the parsed reply are those that were asked for.
-/

set_option autoImplicit false

namespace Sederial.Dns

open Sederial.Lib

/-! ### The parts of a reply -/

/-- The uncompressed encoding of a valid name derives it wherever it stands. -/
theorem DomainName.Valid.nameAt {name : DomainName} (h : name.Valid) {w : List UInt8} {i : Nat}
    (hstands : Stands w i name.encode) : NameAt w i name.labels 0 (i + name.encode.length) := by
  obtain ⟨post, hpost⟩ := hstands
  have hlength : (w.take i).length = i := by
    have hle : i + name.encode.length ≤ w.length :=
      Stands.le ⟨post, hpost⟩ (by rw [encode_eq]; simp)
    rw [List.length_take]
    omega
  have hwire : w = w.take i ++ (encodeLabels name.labels ++ 0 :: post) := by
    have happend : w.take i ++ w.drop i = w := List.take_append_drop i w
    rw [← hpost, encode_eq] at happend
    simpa using happend.symm
  have hname := NameAt.encode (w.take i) post name.labels h.labels
  rw [← hwire, hlength] at hname
  rw [encode_eq, List.length_append]
  exact hname

/-- The bytes of the optional question. -/
def questionBytes (question : Option Question) : List UInt8 :=
  match question with
  | some question => question.encode
  | none => []

/-- A question after its type and class went over the wire. -/
def Question.reread (question : Question) : Question where
  name := question.name
  kind := RecordType.fromWire question.kind.wire
  class_ := RecordClass.fromWire question.class_.wire

/-- The question as the parser reads it back. -/
def questionViews (question : Option Question) : List QuestionView :=
  question.toList.map fun q => {
    start := 12
    fixedAt := 12 + q.name.encode.length
    question := q.reread }

/-- The question of a reply is a question there. -/
theorem tiles_questionViews {question : Option Question} {w : List UInt8}
    (hvalid : ∀ q ∈ question, q.name.Valid) (hstands : Stands w 12 (questionBytes question)) :
    Tiles (QuestionAt w) 12 (questionViews question) (12 + (questionBytes question).length) := by
  cases question with
  | none => exact tiles_nil_iff.mpr rfl
  | some q =>
    have hstands :
        Stands w 12 (q.name.encode ++ wordBytes q.kind.wire ++ wordBytes q.class_.wire) :=
      hstands
    obtain ⟨hstands, hclass⟩ := stands_append_iff.mp hstands
    obtain ⟨hname, hkind⟩ := stands_append_iff.mp hstands
    rw [List.length_append, length_wordBytes, ← Nat.add_assoc] at hclass
    have hvalid := hvalid q rfl
    refine tiles_cons_iff.mpr ⟨rfl, ⟨⟨0, by omega, hvalid.nameAt hname, hvalid.length⟩, ?_, ?_⟩,
      tiles_nil_iff.mpr ?_⟩
    · dsimp only
      rw [hkind.wordAt]
      rfl
    · dsimp only
      rw [hclass.wordAt]
      rfl
    · show 12 + q.name.encode.length + 4 = 12 + (q.name.encode ++ _ ++ _).length
      simp only [List.length_append, length_wordBytes]
      omega

/-- The bytes of the optional answer. -/
def answerBytes (answer : Option (Ipv4Addr × UInt32)) : List UInt8 :=
  match answer with
  | some (address, ttl) => encodeAnswer address ttl
  | none => []

/-- The answer as the parser reads it back, when it stands at `m`. -/
def answerViews (m : Nat) (answer : Option (Ipv4Addr × UInt32)) : List RecordView :=
  answer.toList.map fun a => {
    section_ := .answer
    start := m
    fixedAt := m + 2
    kind := .a
    classWire := 1
    ttl := a.2
    length := 4
    fields := [⟨m + 12, m + 16, .bytes 4⟩] }

/-- The envelope of an answer. Its owner is a pointer to the question, whose name has no pointer
of its own. -/
theorem answer_envelopeAt {address : Ipv4Addr} {ttl : UInt32} {w : List UInt8} {m : Nat}
    {name : DomainName} (hvalid : name.Valid) (hname : Stands w 12 name.encode) (hm : 12 < m)
    (hstands : Stands w m (encodeAnswer address ttl)) :
    EnvelopeAt w m (m + 2) name.labels 1 1 ttl 4 ∧ Stands w (m + 12) address.octets := by
  have hstands : Stands w m ([0xc0, 0x0c] ++ wordBytes 1 ++ wordBytes 1 ++ doubleWordBytes ttl ++
      wordBytes 4 ++ address.octets) := hstands
  obtain ⟨hstands, hoctets⟩ := stands_append_iff.mp hstands
  obtain ⟨hstands, hlength⟩ := stands_append_iff.mp hstands
  obtain ⟨hstands, httl⟩ := stands_append_iff.mp hstands
  obtain ⟨hstands, hclass⟩ := stands_append_iff.mp hstands
  obtain ⟨hpointer, hkind⟩ := stands_append_iff.mp hstands
  simp only [List.length_append, length_wordBytes, length_doubleWordBytes, List.length_cons,
    List.length_nil, Nat.zero_add, Nat.reduceAdd] at hoctets hlength httl hclass hkind
  refine ⟨⟨?_, hkind.wordAt, hclass.wordAt, httl.doubleWordAt, hlength.wordAt⟩, hoctets⟩
  have hhigh := hpointer.getElem? (j := 0) (by simp)
  have hlow := hpointer.getElem? (j := 1) (by simp)
  refine ⟨1, by omega, ?_, hvalid.length⟩
  exact .pointer hhigh hlow (by decide) rfl (Nat.le_refl 12) hm (hvalid.nameAt hname)

/-- The answer of a reply is a record there. -/
theorem tiles_answerViews {answer : Option (Ipv4Addr × UInt32)} {w : List UInt8} {m : Nat}
    (howner : answer.isSome → 12 < m ∧ ∃ name : DomainName, name.Valid ∧ Stands w 12 name.encode)
    (hstands : Stands w m (answerBytes answer)) :
    Tiles (RecordAt w) m (answerViews m answer) (m + (answerBytes answer).length) := by
  cases answer with
  | none => exact tiles_nil_iff.mpr rfl
  | some a =>
    obtain ⟨address, ttl⟩ := a
    obtain ⟨hm, name, hvalid, hname⟩ := howner rfl
    have hinside := hstands.le (by simp [answerBytes, encodeAnswer])
    obtain ⟨henvelope, -⟩ := answer_envelopeAt hvalid hname hm hstands
    have hsize : (answerBytes (some (address, ttl))).length = 16 := rfl
    rw [hsize] at hinside ⊢
    refine tiles_cons_iff.mpr ⟨rfl, ?_, tiles_nil_iff.mpr rfl⟩
    exact {
      owner := ⟨name.labels, henvelope.owner, fun h => nomatch h⟩
      kind := by
        dsimp only
        rw [henvelope.kind]
        rfl
      classWire := henvelope.class_
      ttl := henvelope.ttl
      length := henvelope.length
      inside := hinside
      layout := rfl
      data := tiles_cons_iff.mpr ⟨rfl, rfl, tiles_nil_iff.mpr rfl⟩
      section_ := fun h => nomatch h }

/-- The bytes of the optional OPT record. -/
def optBytes (code : ResponseCode) (edns : GeneratedOpt) : List UInt8 :=
  match edns with
  | .present dnssecOk cookie => encodeOpt code dnssecOk cookie
  | .absent => []

/-- The COOKIE data of a generated OPT record. -/
def GeneratedOpt.cookie : GeneratedOpt → Option (List UInt8)
  | .present _ cookie => cookie
  | .absent => none

/-- The option the COOKIE data makes, when the OPT record stands at `n`. -/
def cookieViews (n : Nat) (cookie : Option (List UInt8)) : List FieldView :=
  cookie.toList.map fun c =>
    ⟨n + 11, n + 15 + c.length, .option cookieOption (UInt16.ofNat c.length)⟩

/-- The TTL field of a generated OPT record: the upper bits of the code, version zero and the
DO bit. -/
def optTtl (code : ResponseCode) (dnssecOk : Bool) : UInt32 :=
  ((code.wire >>> 4).toUInt8.toUInt32 <<< extendedRcodeShift) ||| (if dnssecOk then doMask else 0)

/-- The OPT fields of a generated reply. -/
def GeneratedOpt.edns (code : ResponseCode) : GeneratedOpt → Option Edns
  | .present dnssecOk _ => some ⟨1232, 0, (code.wire >>> 4).toUInt8, dnssecOk⟩
  | .absent => none

/-- The OPT record that the TTL stands for. -/
theorem ofRecord_optTtl (code : ResponseCode) (dnssecOk : Bool) :
    Edns.ofRecord (UInt16.ofNat serverUdpLength) (optTtl code dnssecOk)
      = ⟨1232, 0, (code.wire >>> 4).toUInt8, dnssecOk⟩ := by
  have hbits : ∀ (i : Fin 256) (b : Bool), Edns.ofRecord (UInt16.ofNat serverUdpLength)
      (((UInt8.ofFin i).toUInt32 <<< extendedRcodeShift) ||| (if b then doMask else 0))
        = ⟨1232, 0, UInt8.ofFin i, b⟩ := by
    decide +kernel
  exact hbits (code.wire >>> 4).toUInt8.toFin dnssecOk

/-- The OPT record as the parser reads it back, when it stands at `n`. -/
def optView (n : Nat) (ttl : UInt32) (cookie : Option (List UInt8)) : RecordView where
  section_ := .additional
  start := n
  fixedAt := n + 1
  kind := .opt
  classWire := UInt16.ofNat serverUdpLength
  ttl := ttl
  length := UInt16.ofNat ((cookie.map fun c => 4 + c.length).getD 0)
  fields := cookieViews n cookie

/-- The bytes of the COOKIE option. -/
def cookieBytes (cookie : Option (List UInt8)) : List UInt8 :=
  match cookie with
  | none => []
  | some cookie => wordBytes 10 ++ wordBytes (UInt16.ofNat cookie.length) ++ cookie

/-- The length of the cookie option. -/
theorem length_cookieBytes (cookie : Option (List UInt8)) :
    (cookieBytes cookie).length = (cookie.map fun c => 4 + c.length).getD 0 := by
  cases cookie with
  | none => rfl
  | some c =>
    simp only [cookieBytes, List.length_append, length_wordBytes, Option.map_some,
      Option.getD_some]

/-- The cookie option of a reply is a field there. -/
theorem tiles_cookieViews {cookie : Option (List UInt8)} {w : List UInt8} {n : Nat}
    (hcookie : ∀ c ∈ cookie, c.length ≤ 40) (hstands : Stands w (n + 11) (cookieBytes cookie)) :
    Tiles (FieldAt w) (n + 11) (cookieViews n cookie) (n + 11 + (cookieBytes cookie).length) := by
  cases cookie with
  | none => exact tiles_nil_iff.mpr rfl
  | some c =>
    have hshort := hcookie c rfl
    have hstands : Stands w (n + 11) (wordBytes 10 ++ wordBytes (UInt16.ofNat c.length) ++ c) :=
      hstands
    obtain ⟨hstands, -⟩ := stands_append_iff.mp hstands
    obtain ⟨hcode, hlength⟩ := stands_append_iff.mp hstands
    refine tiles_cons_iff.mpr ⟨rfl, ⟨hcode.wordAt, hlength.wordAt, ?_⟩, tiles_nil_iff.mpr ?_⟩
    · dsimp only
      rw [UInt16.toNat_ofNat', Nat.mod_eq_of_lt (by omega)]
    · rw [length_cookieBytes]
      show n + 15 + c.length = n + 11 + (4 + c.length)
      omega

/-- The OPT record of a reply is read back with its COOKIE. -/
theorem tiles_optView {code : ResponseCode} {dnssecOk : Bool} {cookie : Option (List UInt8)}
    {w : List UInt8} {n : Nat} (hcookie : ∀ c ∈ cookie, c.length ≤ 40)
    (hstands : Stands w n (encodeOpt code dnssecOk cookie)) :
    Tiles (RecordAt w) n [optView n (optTtl code dnssecOk) cookie]
      (n + (encodeOpt code dnssecOk cookie).length) ∧ Stands w (n + 11) (cookieBytes cookie) := by
  have hinside := hstands.le (by simp [encodeOpt])
  -- The encoding is taken apart field by field, and each field is found in its place.
  have hencode : encodeOpt code dnssecOk cookie = [0] ++ wordBytes 41 ++
      wordBytes (UInt16.ofNat serverUdpLength) ++ doubleWordBytes (optTtl code dnssecOk) ++
      wordBytes (UInt16.ofNat ((cookie.map fun c => 4 + c.length).getD 0)) ++
        cookieBytes cookie := by
    cases cookie with
    | none => rfl
    | some c => rfl
  rw [hencode] at hstands hinside ⊢
  obtain ⟨hstands, hdata⟩ := stands_append_iff.mp hstands
  obtain ⟨hstands, hlength⟩ := stands_append_iff.mp hstands
  obtain ⟨hstands, httl⟩ := stands_append_iff.mp hstands
  obtain ⟨hstands, hclass⟩ := stands_append_iff.mp hstands
  obtain ⟨hroot, hkind⟩ := stands_append_iff.mp hstands
  simp only [List.length_append, length_wordBytes, length_doubleWordBytes, List.length_singleton,
    Nat.reduceAdd] at hdata hlength httl hclass hkind hinside ⊢
  -- The length word does not wrap, since a cookie has at most 40 bytes.
  have hsize : (UInt16.ofNat ((cookie.map fun c => 4 + c.length).getD 0)).toNat
      = (cookieBytes cookie).length := by
    rw [length_cookieBytes, UInt16.toNat_ofNat', Nat.mod_eq_of_lt]
    cases cookie with
    | none => decide
    | some c =>
      have := hcookie c rfl
      show 4 + c.length < _
      omega
  have hstop :
      (optView n (optTtl code dnssecOk) cookie).stop = n + 11 + (cookieBytes cookie).length := by
    show n + 1 + 10 + (UInt16.ofNat ((cookie.map fun c => 4 + c.length).getD 0)).toNat = _
    rw [hsize]
  refine ⟨tiles_cons_iff.mpr ⟨rfl, ?_, tiles_nil_iff.mpr ?_⟩, hdata⟩
  · exact {
      owner := ⟨[], ⟨0, by omega, .root (hroot.getElem? (j := 0) (by simp)), by decide⟩,
        fun _ => rfl⟩
      kind := by
        show (wordAt w (n + 1)).map RecordType.fromWire = _
        rw [hkind.wordAt]
        rfl
      classWire := hclass.wordAt
      ttl := httl.doubleWordAt
      length := hlength.wordAt
      inside := by rw [hstop]; omega
      layout := by
        intro field hfield
        obtain ⟨v, hv, rfl⟩ := List.mem_map.mp hfield
        obtain ⟨c, -, rfl⟩ := List.mem_map.mp hv
        exact ⟨_, _, rfl⟩
      data := by
        rw [hstop]
        exact tiles_cookieViews hcookie hdata
      section_ := fun _ => rfl }
  · show (optView n (optTtl code dnssecOk) cookie).stop = _
    rw [hstop, Nat.add_assoc]

/-- The COOKIE slot of a generated OPT record holds the COOKIE it was made from. -/
theorem optView_cookie {w : List UInt8} {n : Nat} {ttl : UInt32} {cookie : Option (List UInt8)}
    (hcookie : ∀ c ∈ cookie, 16 ≤ c.length ∧ c.length ≤ 40)
    (hstands : Stands w (n + 11) (cookieBytes cookie)) :
    (cookie = none ∧ (optView n ttl cookie).cookie = none) ∨
      ∃ slot, (optView n ttl cookie).cookie = some (.present slot) ∧
        cookie = some (slot.data w) := by
  cases cookie with
  | none => exact .inl ⟨rfl, rfl⟩
  | some c =>
    obtain ⟨hlong, hshort⟩ := hcookie c rfl
    have hlength : (UInt16.ofNat c.length).toNat = c.length := by
      rw [UInt16.toNat_ofNat', Nat.mod_eq_of_lt (by omega)]
    have hvalid : Cookie.validLength c.length = true :=
      Cookie.validLength_iff.mpr (.inr ⟨hlong, hshort⟩)
    refine .inr ⟨⟨n + 13, n + 15, c.length, n + 9⟩, ?_, ?_⟩
    · simp [RecordView.cookie, RecordView.fieldCookie, optView, cookieViews, hlength, hvalid]
    · have hstands : Stands w (n + 11)
          (wordBytes 10 ++ wordBytes (UInt16.ofNat c.length) ++ c) := hstands
      obtain ⟨-, hdata⟩ := stands_append_iff.mp hstands
      have hslice := hdata.slice (List.ne_nil_of_length_pos (by omega))
      rw [List.length_append, length_wordBytes, length_wordBytes, Nat.add_assoc n] at hslice
      exact congrArg some (@CookieSlot.data_of_slice ⟨n + 13, n + 15, c.length, n + 9⟩ w c
        hslice).symm

/-! ### The whole reply -/

/-- A header that stands in front of a message is its header. -/
theorem headerAt_of_stands {w : List UInt8} {header : Header} (h : Stands w 0 header.encode) :
    HeaderAt w header := by
  obtain ⟨h, hadditionals⟩ := stands_append_iff.mp h
  obtain ⟨h, hauthorities⟩ := stands_append_iff.mp h
  obtain ⟨h, hanswers⟩ := stands_append_iff.mp h
  obtain ⟨h, hquestions⟩ := stands_append_iff.mp h
  obtain ⟨hid, hflags⟩ := stands_append_iff.mp h
  simp only [List.length_append, length_wordBytes, Nat.reduceAdd]
    at hadditionals hauthorities hanswers hquestions hflags
  exact ⟨hid.wordAt, hflags.wordAt, hquestions.wordAt, hanswers.wordAt, hauthorities.wordAt,
    hadditionals.wordAt⟩

/-- A question has 259 bytes at most. -/
theorem length_questionBytes_le {question : Option Question}
    (hvalid : ∀ q ∈ question, q.name.Valid) : (questionBytes question).length ≤ 259 := by
  cases question with
  | none => exact Nat.zero_le _
  | some q =>
    have hlength := (hvalid q rfl).length
    rw [← length_encode] at hlength
    show (q.name.encode ++ wordBytes _ ++ wordBytes _).length ≤ 259
    simp only [List.length_append, length_wordBytes]
    omega

/-- An OPT record with a cookie has 55 bytes at most. -/
theorem length_optBytes_le {code : ResponseCode} {opt : GeneratedOpt}
    (hcookie : ∀ c ∈ opt.cookie, 16 ≤ c.length ∧ c.length ≤ 40) :
    (optBytes code opt).length ≤ 55 := by
  cases opt with
  | absent => exact Nat.zero_le _
  | present dnssecOk cookie =>
    cases cookie with
    | none => simp [optBytes, encodeOpt]
    | some c =>
      have hshort := (hcookie c rfl).2
      simp only [optBytes, encodeOpt, List.length_append, length_wordBytes, length_doubleWordBytes,
        List.length_singleton]
      omega

/-- What the parser reads back from a generated reply. -/
structure RepliesAs (wire : List UInt8) (header : Header) (question : Option Question)
    (code : ResponseCode) (truncated : Bool) (opt : GeneratedOpt)
    (answer : Option (Ipv4Addr × UInt32)) (p : Packet) : Prop where
  parse : Packet.parse wire = .ok p
  length : wire.length ≤ 512
  id : p.header.id = header.id
  flags : p.header.flags = replyFlags header code truncated
  counts : p.header.counts = ⟨if question.isSome then 1 else 0, if answer.isSome then 1 else 0, 0,
    if opt = .absent then 0 else 1⟩
  questions : p.questions = question.toList.map Question.reread
  edns : p.edns = opt.edns code
  cookie : Cookie.responseCookie p = opt.cookie
  unsigned : opt.cookie = none → p.cookie = none

/-- The OPT records of a reply: at most one, with the generated fields and the COOKIE. -/
theorem exists_optViews {code : ResponseCode} {opt : GeneratedOpt} {w : List UInt8} {n : Nat}
    (hcookie : ∀ c ∈ opt.cookie, 16 ≤ c.length ∧ c.length ≤ 40)
    (hstands : Stands w n (optBytes code opt)) :
    ∃ views : List RecordView, Tiles (RecordAt w) n views (n + (optBytes code opt).length) ∧
      views.map RecordView.section_
        = List.replicate (if opt = .absent then 0 else 1) .additional ∧
      (∀ v ∈ views, v.kind = .opt) ∧ (views.filter RecordView.isOpt).length ≤ 1 ∧
      (views.find? RecordView.isOpt).map RecordView.edns = opt.edns code ∧
      ((opt.cookie = none ∧ (views.find? RecordView.isOpt).bind RecordView.cookie = none) ∨
        ∃ slot, (views.find? RecordView.isOpt).bind RecordView.cookie = some (.present slot) ∧
          opt.cookie = some (slot.data w)) := by
  cases opt with
  | absent =>
    exact ⟨[], tiles_nil_iff.mpr rfl, rfl, by simp, Nat.zero_le _, rfl, .inl ⟨rfl, rfl⟩⟩
  | present dnssecOk cookie =>
    obtain ⟨htiles, hdata⟩ := tiles_optView (fun c hc => (hcookie c hc).2) hstands
    exact ⟨_, htiles, rfl, by simp [optView], Nat.le_refl _,
      congrArg some (ofRecord_optTtl code dnssecOk), optView_cookie hcookie hdata⟩

/-- The items of a generated reply: its question, its answer, and the `views` of its OPT. -/
structure ReplyItems (w : List UInt8) (header : Header) (question : Option Question)
    (code : ResponseCode) (truncated : Bool) (opt : GeneratedOpt)
    (answer : Option (Ipv4Addr × UInt32)) (d : Derivation) (views : List RecordView) : Prop where
  derives : Derives w d
  header : d.header = ⟨header.id, replyFlags header code truncated,
    ⟨if question.isSome then 1 else 0, if answer.isSome then 1 else 0, 0,
      if opt = .absent then 0 else 1⟩⟩
  questions : d.questions = questionViews question
  records : ∃ m, d.records = answerViews m answer ++ views
  kinds : ∀ v ∈ views, v.kind = .opt
  edns : (views.find? RecordView.isOpt).map RecordView.edns = opt.edns code
  cookie : (opt.cookie = none ∧ (views.find? RecordView.isOpt).bind RecordView.cookie = none) ∨
    ∃ slot, (views.find? RecordView.isOpt).bind RecordView.cookie = some (.present slot) ∧
      opt.cookie = some (slot.data w)

/-- The OPT record of a generated reply is the first among its `views`. -/
theorem ReplyItems.opt_eq {w : List UInt8} {header : Header} {question : Option Question}
    {code : ResponseCode} {truncated : Bool} {opt : GeneratedOpt}
    {answer : Option (Ipv4Addr × UInt32)} {d : Derivation} {views : List RecordView}
    (h : ReplyItems w header question code truncated opt answer d views) :
    d.opt = views.find? RecordView.isOpt := by
  obtain ⟨m, hrecords⟩ := h.records
  rw [Derivation.opt, hrecords, List.find?_append]
  cases answer <;> rfl

/-- No record of a generated reply authenticates a transaction. -/
theorem ReplyItems.unauthenticated {w : List UInt8} {header : Header}
    {question : Option Question} {code : ResponseCode} {truncated : Bool} {opt : GeneratedOpt}
    {answer : Option (Ipv4Addr × UInt32)} {d : Derivation} {views : List RecordView}
    (h : ReplyItems w header question code truncated opt answer d views) :
    (d.packet w).authenticated = false := by
  obtain ⟨m, hrecords⟩ := h.records
  show d.records.any _ = false
  rw [hrecords, List.any_eq_false]
  intro v hv
  rcases List.mem_append.mp hv with hv | hv
  · cases answer with
    | none => cases hv
    | some a =>
      rw [List.mem_singleton.mp hv]
      simp [authenticates]
  · simp [authenticates, h.kinds v hv]

/-- A generated reply has the items it was made from. -/
theorem makeReply_items (header : Header) {question : Option Question} (code : ResponseCode)
    (truncated : Bool) {opt : GeneratedOpt} {answer : Option (Ipv4Addr × UInt32)}
    (hvalid : ∀ q ∈ question, q.name.Valid) (hanswer : answer.isSome → question.isSome)
    (hcookie : ∀ c ∈ opt.cookie, 16 ≤ c.length ∧ c.length ≤ 40) :
    (makeReply header question code truncated opt answer).length ≤ 512 ∧
      ∃ d views, ReplyItems (makeReply header question code truncated opt answer) header question
        code truncated opt answer d views := by
  generalize hw : makeReply header question code truncated opt answer = w
  obtain ⟨hdr, hhdr⟩ : ∃ hdr : Header, hdr = ⟨header.id, replyFlags header code truncated,
    ⟨if question.isSome then 1 else 0, if answer.isSome then 1 else 0, 0,
      if opt = .absent then 0 else 1⟩⟩ := ⟨_, rfl⟩
  have hbytes : hdr.encode ++ questionBytes question ++ answerBytes answer ++ optBytes code opt
      = w := by
    rw [← hw, hhdr]
    rfl
  have hself : Stands w 0
      (hdr.encode ++ questionBytes question ++ answerBytes answer ++ optBytes code opt) := by
    rw [hbytes]
    exact stands_self w
  -- The four parts of the reply stand one behind the other.
  obtain ⟨hself, hoptAt⟩ := stands_append_iff.mp hself
  obtain ⟨hself, hanswerAt⟩ := stands_append_iff.mp hself
  obtain ⟨hheaderAt, hquestionAt⟩ := stands_append_iff.mp hself
  have hheaderLength : hdr.encode.length = 12 := rfl
  have hlength := congrArg List.length hbytes
  simp only [List.length_append, hheaderLength, Nat.zero_add]
    at hoptAt hanswerAt hquestionAt hlength
  have hquestionLength := length_questionBytes_le hvalid
  have hanswerLength : (answerBytes answer).length ≤ 16 := by
    cases answer with
    | none => exact Nat.zero_le _
    | some a => exact Nat.le_refl _
  have hoptLength := @length_optBytes_le code opt hcookie
  obtain ⟨views, hviews, hsections, hkinds, hone, hedns, hview⟩ := exists_optViews hcookie hoptAt
  -- An answer is an A record, so the OPT record of the reply is the only one.
  have hnoOpt : (answerViews (12 + (questionBytes question).length) answer).filter RecordView.isOpt
      = [] := by
    cases answer <;> rfl
  have hderives : Derives w ⟨hdr, questionViews question,
      answerViews (12 + (questionBytes question).length) answer ++ views⟩ := {
    long := by simp only [headerLength]; omega
    short := by simp only [maxMessageLength]; omega
    header := headerAt_of_stands hheaderAt
    single := fun _ => by
      rw [hhdr]
      cases question with
      | none => exact Nat.zero_le _
      | some q => exact Nat.le_refl _
    questionCount := by
      rw [hhdr]
      cases question <;> rfl
    sections := by
      rw [hhdr, List.map_append, hsections]
      cases answer <;> cases opt <;> rfl
    tiles := by
      refine ⟨_, tiles_questionViews hvalid hquestionAt, tiles_append_iff.mpr ⟨_,
        tiles_answerViews (fun h => ?_) hanswerAt, ?_⟩⟩
      -- The name of the answer is a pointer to the question, which is there.
      · obtain ⟨q, rfl⟩ := Option.isSome_iff_exists.mp (hanswer h)
        have hstands : Stands w 12 (q.name.encode ++ wordBytes _ ++ wordBytes _) := hquestionAt
        refine ⟨?_, q.name, hvalid q rfl,
          (stands_append_iff.mp (stands_append_iff.mp hstands).1).1⟩
        show 12 < 12 + (q.name.encode ++ wordBytes _ ++ wordBytes _).length
        simp only [List.length_append, length_wordBytes]
        omega
      · rw [← hlength]
        exact hviews
    oneOpt := by
      rw [List.filter_append, hnoOpt, List.nil_append]
      exact hone }
  exact ⟨by omega, _, views, hderives, hhdr, rfl, ⟨_, rfl⟩, hkinds, hedns, hview⟩

/-- A generated reply parses, to the items it was made from. -/
theorem makeReply_repliesAs (header : Header) {question : Option Question} (code : ResponseCode)
    (truncated : Bool) {opt : GeneratedOpt} {answer : Option (Ipv4Addr × UInt32)}
    (hvalid : ∀ q ∈ question, q.name.Valid) (hanswer : answer.isSome → question.isSome)
    (hcookie : ∀ c ∈ opt.cookie, 16 ≤ c.length ∧ c.length ≤ 40) :
    ∃ p, RepliesAs (makeReply header question code truncated opt answer) header question code
      truncated opt answer p := by
  obtain ⟨hlength, d, views, h⟩ := makeReply_items header code truncated hvalid hanswer hcookie
  refine ⟨_, Packet.parse_eq_ok_iff.mpr ⟨d, h.derives, rfl⟩, hlength, ?_, ?_, ?_, ?_, ?_, ?_,
    fun hnone => ?_⟩
  · show d.header.id = _
    rw [h.header]
  · show d.header.flags = _
    rw [h.header]
  · show d.header.counts = _
    rw [h.header]
  · show d.questions.map _ = _
    rw [h.questions]
    cases question <;> rfl
  · show d.opt.map _ = _
    rw [h.opt_eq]
    exact h.edns
  · rcases h.cookie with ⟨hnone, hnoCookie⟩ | ⟨slot, hslot, hdata⟩
    · rw [hnone, Cookie.responseCookie, Derivation.packet, h.opt_eq, hnoCookie]
    · rw [hdata, Cookie.responseCookie, Derivation.packet, h.opt_eq, hslot]
  · rcases h.cookie with ⟨-, hnoCookie⟩ | ⟨slot, -, hdata⟩
    · rw [Derivation.packet, h.opt_eq, hnoCookie]
    · rw [hnone] at hdata
      cases hdata

/-- A reply that the handler makes is not authenticated. -/
theorem makeReply_unauthenticated {header : Header} {question : Option Question}
    {code : ResponseCode} {truncated : Bool} {opt : GeneratedOpt}
    {answer : Option (Ipv4Addr × UInt32)} {p : Packet}
    (hvalid : ∀ q ∈ question, q.name.Valid) (hanswer : answer.isSome → question.isSome)
    (hcookie : ∀ c ∈ opt.cookie, 16 ≤ c.length ∧ c.length ≤ 40)
    (hp : Packet.parse (makeReply header question code truncated opt answer) = .ok p) :
    p.authenticated = false := by
  obtain ⟨-, d, views, h⟩ := makeReply_items header code truncated hvalid hanswer hcookie
  rw [Packet.parse_eq_ok_iff.mpr ⟨d, h.derives, rfl⟩] at hp
  cases hp
  exact h.unauthenticated

end Sederial.Dns
