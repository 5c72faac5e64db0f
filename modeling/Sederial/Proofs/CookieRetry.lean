import Sederial.Proofs.CookieRewrite

/-!
# `Sederial.Proofs.CookieRetry`: when a retry changes the cookie and nothing else

`ChangesOnlyCookie` states what a retried query owes its original: the same header,
question, OPT fields and verdict, the new server cookie as its first COOKIE option, and all
other bytes in place. `retry_rewrite_iff` shows that a rewrite meets it exactly when the
names of the query survive the new cookie bytes.

The guard of `retry` only looks at the bytes behind the option. It does not look at
compression pointers that lead into the middle of a label and run forward from there.
`misalignedQuery` is a query whose name runs through its own RDLENGTH and option length
that way.
-/

set_option autoImplicit false

namespace Sederial.Dns

open Sederial.Lib

/-! ### The data of the new cookie -/

/-- The COOKIE data of a slot is the slice at its place. -/
theorem CookieSlot.data_of_slice {slot : CookieSlot} {wire bs : List UInt8}
    (h : slice wire slot.dataAt (slot.dataAt + slot.dataLen) = some bs) :
    slot.data wire = bs := by
  obtain ⟨-, -, hbs⟩ := slice_eq_some_iff.mp h
  rwa [Nat.add_sub_cancel_left] at hbs

/-- The response cookie is the data of the slot. -/
theorem Cookie.responseCookie_of_slice {p : Packet} {slot : CookieSlot} {bytes : List UInt8}
    (hslot : p.cookie = some (.present slot))
    (hdata : slice p.wire slot.dataAt (slot.dataAt + slot.dataLen) = some bytes) :
    responseCookie p = some bytes := by
  rw [responseCookie, hslot]
  exact congrArg some (CookieSlot.data_of_slice hdata)

/-- The patched slot holds the client cookie of the query and the new server cookie. -/
theorem PutsCookie.slice_data {wire w client server rest : List UInt8} {slot : CookieSlot}
    (hslot : slot.InPlace wire) (hputs : PutsCookie wire slot server w)
    (hdata : slice wire slot.dataAt (slot.dataAt + slot.dataLen) = some (client ++ rest))
    (hclient : client.length = 8) :
    slice w slot.dataAt (slot.dataAt + (8 + server.length)) = some (client ++ server) := by
  have hlength := hputs.length
  have hinside := hslot.inside
  have hlengths := hslot.lengths
  have hdataAt := hslot.data
  refine slice_eq_some_of_getElem? (by rw [List.length_append]; omega) (by omega) fun i hi => ?_
  rw [List.length_append] at hi
  by_cases hc : i < 8
  · rw [hputs.before _ (by omega) (by simp only [CookieSlot.LengthField]; omega),
      ← getElem?_of_slice hdata (by rw [List.length_append]; omega),
      List.getElem?_append_left (by omega), List.getElem?_append_left (by omega)]
  · obtain ⟨j, rfl⟩ := Nat.exists_eq_add_of_le (Nat.not_lt.mp hc)
    rw [← Nat.add_assoc, hputs.cookie j (by omega), List.getElem?_append_right (by omega),
      hclient, Nat.add_sub_cancel_left]

/-! ### The exact condition -/

/-- With the server cookie of `r` in its slot, the query `p` still has all its names, and
its question still has the same labels. -/
def NamesSurvive (p r : Packet) : Prop :=
  ∀ slot received patched, p.cookie = some (.present slot) →
    Cookie.responseCookie r = some received →
    PutsCookie p.wire slot (received.drop 8) patched →
      (∀ n, p.NameOffset n → Decodes patched n) ∧
        ∀ question ∈ p.questions, ∃ e, DecodesTo patched 12 question.name.labels e

/-- The retried query `p'` with bytes `w` differs from `p` in its cookie and in nothing
else, and the cookie is the one the response `r` asked for. -/
structure ChangesOnlyCookie (p r : Packet) (w : List UInt8) (p' : Packet) (slot : CookieSlot) :
    Prop where
  parse : Packet.parse w = .ok p'
  header : p'.header = p.header
  questions : p'.questions = p.questions
  edns : p'.edns = p.edns
  authenticated : p'.authenticated = p.authenticated
  forward : ∃ q, p'.validateQuery = .forward q
  place : p.cookie = some (.present slot)
  cookie : ∃ own received, Cookie.responseCookie p = some own ∧
    Cookie.responseCookie r = some received ∧
    Cookie.responseCookie p' = some (own.take 8 ++ received.drop 8) ∧
    p'.cookie = some (.present { slot with dataLen := 8 + (received.drop 8).length }) ∧
    w.length + slot.dataLen = p.wire.length + (8 + (received.drop 8).length)
  before : ∀ i, i < slot.dataAt → ¬ slot.LengthField i → w[i]? = p.wire[i]?
  after : ∀ i, slot.dataAt + slot.dataLen ≤ i → i < p.wire.length → w[i]? = p.wire[i]?
  current : Cookie.retry p' r = .current

section

variable {p r : Packet} {w : List UInt8} {slot rslot : CookieSlot} {client server : List UInt8}

/-- The slot of a parsed packet is laid out in its bytes. -/
theorem Packet.Parsed.inPlace (hp : p.Parsed) (hcookie : p.cookie = some (.present slot)) :
    slot.InPlace p.wire := by
  obtain ⟨d, hd, hpd⟩ := Packet.parsed_iff.mp hp
  rw [hpd] at hcookie
  obtain ⟨site⟩ := CookieSite.exists_of_cookie hcookie
  obtain ⟨m, hm⟩ := site.laidOut hd
  exact hm.inPlace

/-- What a rewriting retry knows about the bytes. -/
theorem Cookie.Rewrites.putsCookie (h : Cookie.Rewrites p r w slot rslot client server)
    (hp : p.Parsed) :
    slot.InPlace p.wire ∧ server.length ≤ 32 ∧ w.length ≤ 65535 ∧
      PutsCookie p.wire slot server w := by
  have hslot := hp.inPlace h.query
  obtain ⟨rest, hdata⟩ := h.queryData
  obtain ⟨-, -, hbytes⟩ := slice_eq_some_iff.mp hdata
  have hclient : client = (p.wire.drop slot.dataAt).take 8 := by
    have hle : 8 ≤ slot.dataAt + slot.dataLen - slot.dataAt := by
      have := hslot.client
      omega
    have htake := congrArg (List.take 8) hbytes
    rw [List.take_take, Nat.min_eq_left hle, List.take_left' h.client_length] at htake
    exact htake.symm
  obtain ⟨-, hshort, hsize, hputs⟩ := Cookie.rewrite_eq_some hslot hclient h.rewritten
  exact ⟨hslot, hshort, hsize, hputs⟩

/-- Replacing the cookie does not change the verdict on a query. -/
theorem Packet.Forwardable.patched {question : Question} (h : p.Forwardable question) :
    (p.patched w question question.name.labels slot server).Forwardable question :=
  ⟨h.query, h.opcode, rfl, h.complete, h.code, h.answers, h.authorities, by simp [Packet.patched],
    h.version, h.unauthenticated, h.kind⟩

/-- Once the server cookie is in place, the same response asks for nothing new. -/
theorem Cookie.Rewrites.current (h : Cookie.Rewrites p r w slot rslot client server)
    (hp : p.Parsed) {question : Question} {labels : List (List UInt8)} :
    Cookie.retry (p.patched w question labels slot server) r = .current := by
  obtain ⟨hslot, -, -, hputs⟩ := h.putsCookie hp
  obtain ⟨rest, hdata⟩ := h.queryData
  have hnew := hputs.slice_data hslot hdata h.client_length
  have hserver := h.server_length
  have hclient := h.client_length
  unfold Cookie.retry
  simp only [Packet.patched, h.response, hnew, h.responseData]
  rw [if_neg, if_pos]
  · rw [List.length_append]
    exact ⟨by omega, trivial⟩
  · rw [List.length_append]
    simp only [ne_eq, not_true_eq_false, or_false, not_or]
    omega

/-- A new cookie keeps every byte but the two lengths and the old server cookie. -/
theorem PutsCookie.keeps {wire server w : List UInt8} (h : PutsCookie wire slot server w)
    (hplace : 8 + server.length = slot.dataLen ∨ slot.dataAt + slot.dataLen = wire.length)
    {i : Nat} (hi : i < wire.length) (hfield : ¬ slot.LengthField i)
    (hout : i < slot.dataAt + 8 ∨ slot.dataAt + slot.dataLen ≤ i) : w[i]? = wire[i]? := by
  rcases hout with hbefore | hbehind
  · exact h.before i hbefore hfield
  · -- Bytes behind the cookie exist only when the cookie keeps its length.
    rcases hplace with hplace | hplace
    · obtain ⟨j, rfl⟩ := Nat.exists_eq_add_of_le hbehind
      rw [← h.after j, Nat.add_assoc slot.dataAt 8, hplace]
    · omega

/-- A rewriting retry changes the cookie and nothing else exactly when the names of the
query survive the new cookie bytes. -/
theorem retry_rewrite_iff (hp : Packet.parse p.wire = .ok p)
    (hq : ∃ q, p.validateQuery = .forward q) (hw : Cookie.retry p r = .rewrite w) :
    (∃ p' slot, ChangesOnlyCookie p r w p' slot) ↔ NamesSurvive p r := by
  obtain ⟨q, hq⟩ := hq
  obtain ⟨-, hforward⟩ := Packet.validateQuery_eq_forward_iff.mp hq
  obtain ⟨slot, rslot, client, server, h⟩ := Cookie.rewrites_of_retry hw
  obtain ⟨hslot, hshort, hsize, hputs⟩ := h.putsCookie hp
  obtain ⟨rest, hdata⟩ := h.queryData
  have hown : Cookie.responseCookie p = some (client ++ rest) :=
    Cookie.responseCookie_of_slice h.query hdata
  have hreceived : Cookie.responseCookie r = some (client ++ server) :=
    Cookie.responseCookie_of_slice h.response h.responseData
  have hdrop : (client ++ server).drop 8 = server := List.drop_left' h.client_length
  have htake : (client ++ rest).take 8 = client := List.take_left' h.client_length
  have hiff : ∀ p', Packet.parse w = .ok p' ↔ (∀ n, p.NameOffset n → Decodes w n) ∧
      ∃ labels e, DecodesTo w 12 labels e ∧ p' = p.patched w q.question labels slot server :=
    fun p' => parse_patched_iff hp hforward.questions h.query hputs h.server_length hshort h.place
      hsize
  constructor
  · rintro ⟨p', slot', hc⟩ slot'' received patched hquery hresponse hpatched
    rw [h.query] at hquery
    cases hquery
    rw [hreceived] at hresponse
    cases hresponse
    rw [hdrop] at hpatched
    obtain rfl := hputs.unique hpatched
    obtain ⟨hnames, labels, e, hdecodes, rfl⟩ := (hiff p').mp hc.parse
    refine ⟨hnames, fun question hquestion => ?_⟩
    -- The retried query has the old question, so its labels are the decoded ones.
    have hsame := hc.questions
    rw [hforward.questions] at hsame hquestion
    obtain rfl := List.mem_singleton.mp hquestion
    rw [← (List.cons.inj hsame).1]
    exact ⟨e, hdecodes⟩
  · intro hsurvive
    obtain ⟨hnames, hquestion⟩ := hsurvive slot (client ++ server) w h.query hreceived
      (by rw [hdrop]; exact hputs)
    obtain ⟨e, hdecodes⟩ := hquestion q.question (by simp [hforward.questions])
    have hparse := (hiff _).mpr ⟨hnames, _, e, hdecodes, rfl⟩
    refine ⟨_, slot, {
      parse := hparse
      header := rfl
      questions := hforward.questions.symm
      edns := rfl
      authenticated := rfl
      forward := ⟨⟨_, q.question⟩,
        Packet.validateQuery_eq_forward_iff.mpr ⟨rfl, hforward.patched⟩⟩
      place := h.query
      cookie := ⟨_, _, hown, hreceived, ?_, ?_, ?_⟩
      before := fun i hi hfield => hputs.before i (by omega) hfield
      after := fun i hi hlt => ?_
      current := h.current hp }⟩
    · rw [htake, hdrop]
      have hnew := hputs.slice_data hslot hdata h.client_length
      exact congrArg some
        (@CookieSlot.data_of_slice { slot with dataLen := 8 + server.length } w _ hnew)
    · rw [hdrop]
      rfl
    · rw [hdrop]
      exact hputs.length
    · have hfield : ¬ slot.LengthField i := by
        have h₁ := hslot.lengths
        have h₂ := hslot.data
        simp only [CookieSlot.LengthField]
        omega
      exact hputs.keeps h.place hlt hfield (.inr hi)

/-! ### Names that look elsewhere -/

/-- The name of the only question stands behind the header. -/
theorem Packet.Parsed.decodes_question {question : Question} (hp : p.Parsed)
    (hquestions : p.questions = [question]) :
    p.NameOffset 12 ∧ ∃ e, DecodesTo p.wire 12 question.name.labels e := by
  obtain ⟨d, hd, hpd⟩ := Packet.parsed_iff.mp hp
  obtain ⟨m, htiles, -⟩ := hd.tiles
  rw [hpd] at hquestions
  obtain ⟨v, hv, hat, hstart, -, rfl⟩ := exists_questionView hquestions htiles
  have hname := hat.name
  rw [hstart] at hname
  refine ⟨⟨d, hd, List.mem_append_left _ ?_⟩, _, hname⟩
  rw [hv, List.map_singleton, hstart]
  exact List.mem_singleton.mpr rfl

/-- All names survive when decoding them looks at no byte that the new cookie replaces. -/
theorem namesSurvive_of_reads (hp : Packet.parse p.wire = .ok p)
    (hq : ∃ q, p.validateQuery = .forward q) (hw : Cookie.retry p r = .rewrite w)
    (hreads : ∀ slot n i, p.cookie = some (.present slot) → p.NameOffset n →
      NameReads p.wire n i → ¬ slot.LengthField i ∧
        (i < slot.dataAt + 8 ∨ slot.dataAt + slot.dataLen ≤ i)) : NamesSurvive p r := by
  obtain ⟨q, hq⟩ := hq
  obtain ⟨-, hforward⟩ := Packet.validateQuery_eq_forward_iff.mp hq
  obtain ⟨slot, rslot, client, server, h⟩ := Cookie.rewrites_of_retry hw
  intro slot' received patched hslot hreceived hputs
  obtain rfl : slot = slot' := CookieField.present.inj (Option.some.inj (h.query.symm.trans hslot))
  rw [Cookie.responseCookie_of_slice h.response h.responseData] at hreceived
  cases hreceived
  rw [List.drop_left' h.client_length] at hputs
  -- A name that decodes in the query decodes to the same labels in the patched bytes.
  have hkeep : ∀ {n labels e}, p.NameOffset n → DecodesTo p.wire n labels e →
      DecodesTo patched n labels e := by
    rintro n labels e hn ⟨k, hk, hname, hlen⟩
    have hdecodes : DecodesTo p.wire n labels e := ⟨k, hk, hname, hlen⟩
    refine hdecodes.congr fun i hi => ?_
    obtain ⟨hfield, hout⟩ := hreads slot n i h.query hn hi
    exact (hputs.keeps h.place (hi.lt_length hname) hfield hout).symm
  refine ⟨fun n hn => ?_, fun question hmem => ?_⟩
  · obtain ⟨labels, e, hname⟩ := hn.decodes
    exact ⟨labels, e, hkeep hn hname⟩
  · rw [hforward.questions] at hmem
    obtain rfl := List.mem_singleton.mp hmem
    obtain ⟨hat, e, hname⟩ := Packet.Parsed.decodes_question hp hforward.questions
    exact ⟨e, hkeep hat hname⟩

end

/-! ### An ordinary query, and one whose name runs through its own cookie -/

/-- A query for the root with an eight-byte client cookie. -/
def plainQuery : Packet where
  wire := [0x12, 0x34, 1, 0, 0, 1, 0, 0, 0, 0, 0, 1, 0, 0, 1, 0, 1,
    0, 0, 41, 4, 208, 0, 0, 0, 0, 0, 12, 0, 10, 0, 8, 1, 2, 3, 4, 5, 6, 7, 8]
  header := ⟨⟨0x1234⟩, 0x0100, ⟨1, 0, 0, 1⟩⟩
  questions := [⟨⟨[]⟩, .a, .in⟩]
  edns := some ⟨1232, 0, 0, false⟩
  authenticated := false
  cookie := some (.present ⟨30, 32, 8, 26⟩)

/-- The BADCOOKIE response to `plainQuery`. -/
def plainChallenge : Packet where
  wire := [0x12, 0x34, 0x81, 0x87, 0, 1, 0, 0, 0, 0, 0, 1, 0, 0, 1, 0, 1,
    0, 0, 41, 4, 208, 1, 0, 0, 0, 0, 20, 0, 10, 0, 16, 1, 2, 3, 4, 5, 6, 7, 8,
    9, 9, 9, 9, 9, 9, 9, 9]
  header := ⟨⟨0x1234⟩, 0x8187, ⟨1, 0, 0, 1⟩⟩
  questions := [⟨⟨[]⟩, .a, .in⟩]
  edns := some ⟨1232, 0, 1, false⟩
  authenticated := false
  cookie := some (.present ⟨30, 32, 16, 26⟩)

/-- `plainQuery` with the server cookie of `plainChallenge`. -/
def plainRetry : Packet :=
  { plainQuery with
    wire := [0x12, 0x34, 1, 0, 0, 1, 0, 0, 0, 0, 0, 1, 0, 0, 1, 0, 1,
      0, 0, 41, 4, 208, 0, 0, 0, 0, 0, 20, 0, 10, 0, 16, 1, 2, 3, 4, 5, 6, 7, 8,
      9, 9, 9, 9, 9, 9, 9, 9]
    cookie := some (.present ⟨30, 32, 16, 26⟩) }

/-- The ordinary retry meets its contract, so the names of the query survive. -/
theorem retry_rewrite_plainQuery :
    Cookie.retry plainQuery plainChallenge = .rewrite plainRetry.wire ∧
      NamesSurvive plainQuery plainChallenge := by
  have hw : Cookie.retry plainQuery plainChallenge = .rewrite plainRetry.wire := by
    decide +kernel
  have hforward : plainQuery.validateQuery = .forward ⟨plainQuery, ⟨⟨[]⟩, .a, .in⟩⟩ := by
    decide +kernel
  refine ⟨hw, (retry_rewrite_iff (by decide +kernel) ⟨_, hforward⟩ hw).mp
    ⟨plainRetry, ⟨30, 32, 8, 26⟩, {
      parse := by decide +kernel
      header := rfl
      questions := rfl
      edns := rfl
      authenticated := rfl
      forward := ⟨⟨plainRetry, ⟨⟨[]⟩, .a, .in⟩⟩, by decide +kernel⟩
      place := rfl
      cookie := ⟨[1, 2, 3, 4, 5, 6, 7, 8], [1, 2, 3, 4, 5, 6, 7, 8, 9, 9, 9, 9, 9, 9, 9, 9],
        by decide +kernel, by decide +kernel, by decide +kernel, by decide +kernel, rfl⟩
      before := ?_
      after := fun i hi hlt => absurd (Nat.lt_of_le_of_lt hi hlt) (by decide)
      current := by decide +kernel }⟩⟩
  have hbytes : ∀ i, i < 32 → ¬ (i = 26 ∨ i = 27 ∨ i = 30 ∨ i = 31) →
      plainRetry.wire[i]? = plainQuery.wire[i]? := by
    decide +kernel
  exact hbytes

/-- A query whose name is the label `\x15` followed by a pointer to offset 13, the only
byte of that label. Read as a length, it makes a second label of 21 bytes that covers the
OPT record up to its option length. -/
def misalignedQuery : Packet where
  wire := [0x12, 0x34, 1, 0, 0, 1, 0, 0, 0, 0, 0, 1, 1, 21, 0xc0, 13, 0, 1, 0, 1,
    0, 0, 41, 4, 208, 0, 0, 0, 0, 0, 12, 0, 10, 0, 8, 0, 2, 3, 4, 5, 6, 7, 8]
  header := ⟨⟨0x1234⟩, 0x0100, ⟨1, 0, 0, 1⟩⟩
  questions := [⟨⟨[[21], [192, 13, 0, 1, 0, 1, 0, 0, 41, 4, 208, 0, 0, 0, 0, 0, 12, 0, 10, 0, 8]]⟩,
    .a, .in⟩]
  edns := some ⟨1232, 0, 0, false⟩
  authenticated := false
  cookie := some (.present ⟨33, 35, 8, 29⟩)

/-- The BADCOOKIE response to `misalignedQuery`. -/
def misalignedChallenge : Packet where
  wire := [0x12, 0x34, 0x81, 0x87, 0, 1, 0, 0, 0, 0, 0, 1,
    1, 21, 21, 192, 13, 0, 1, 0, 1, 0, 0, 41, 4, 208, 0, 0, 0, 0, 0, 12, 0, 10, 0, 8, 0,
    0, 1, 0, 1, 0, 0, 41, 4, 208, 1, 0, 0, 0, 0, 20, 0, 10, 0, 16, 0, 2, 3, 4, 5, 6, 7, 8,
    9, 9, 9, 9, 9, 9, 9, 9]
  header := ⟨⟨0x1234⟩, 0x8187, ⟨1, 0, 0, 1⟩⟩
  questions := misalignedQuery.questions
  edns := some ⟨1232, 0, 1, false⟩
  authenticated := false
  cookie := some (.present ⟨54, 56, 16, 50⟩)

/-- The rewrite of `misalignedQuery` asks another question: the new lengths are part of its
name. -/
def misalignedRetry : Packet :=
  { misalignedQuery with
    wire := [0x12, 0x34, 1, 0, 0, 1, 0, 0, 0, 0, 0, 1, 1, 21, 0xc0, 13, 0, 1, 0, 1,
      0, 0, 41, 4, 208, 0, 0, 0, 0, 0, 20, 0, 10, 0, 16, 0, 2, 3, 4, 5, 6, 7, 8,
      9, 9, 9, 9, 9, 9, 9, 9]
    questions := [⟨⟨[[21],
      [192, 13, 0, 1, 0, 1, 0, 0, 41, 4, 208, 0, 0, 0, 0, 0, 20, 0, 10, 0, 16]]⟩, .a, .in⟩]
    cookie := some (.present ⟨33, 35, 16, 29⟩) }

/-- A rewrite that does not keep the question. -/
theorem retry_rewrite_misaligned :
    Packet.parse misalignedQuery.wire = .ok misalignedQuery ∧
      (∃ q, misalignedQuery.validateQuery = .forward q) ∧
      Packet.parse misalignedChallenge.wire = .ok misalignedChallenge ∧
      Cookie.retry misalignedQuery misalignedChallenge = .rewrite misalignedRetry.wire ∧
      ¬ ∃ p' slot,
        ChangesOnlyCookie misalignedQuery misalignedChallenge misalignedRetry.wire p' slot := by
  have hforward : misalignedQuery.validateQuery
      = .forward ⟨misalignedQuery, misalignedQuery.questions.headD ⟨⟨[]⟩, .a, .in⟩⟩ := by
    decide +kernel
  refine ⟨by decide +kernel, ⟨_, hforward⟩, by decide +kernel, by decide +kernel, ?_⟩
  rintro ⟨p', slot, hc⟩
  have hparse : Packet.parse misalignedRetry.wire = .ok misalignedRetry := by decide +kernel
  have hp' : p' = misalignedRetry := Except.ok.inj (hc.parse.symm.trans hparse)
  have hquestions := hc.questions
  rw [hp'] at hquestions
  exact absurd hquestions (by decide +kernel)

end Sederial.Dns
