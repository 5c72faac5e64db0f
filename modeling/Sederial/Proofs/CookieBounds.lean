import Sederial.Dns.CookieIndexed
import Sederial.Proofs.CookieRetry

/-!
# `Sederial.Proofs.CookieBounds`: COOKIE slots and the indexing that relies on them

The parser walks the options of an OPT record twice: once to check that they fill the data,
and once to find the first COOKIE. `DescribesCookie` says what the second walk may claim,
given the options the first one saw. The offsets it records are used later without a check, on
other packets and on patched copies. `Packet.CookieDescribed` is the property that makes this
safe, and it holds of every packet the service keeps.

`Packet.cookieSlots_described` states both: the functions with their panics agree with the total
ones on such packets.
-/

set_option autoImplicit false

namespace Sederial.Dns

open Sederial.Lib

/-! ### What a cookie field says about the options -/

/-- The field is the first option of the OPT record with the COOKIE code. -/
def RecordView.FirstCookie (opt : RecordView) (f : FieldView) (length : UInt16) : Prop :=
  f.field = .option cookieOption length ∧ ∃ before after, opt.fields = before ++ f :: after ∧
    ∀ g ∈ before, ∀ n, g.field ≠ .option cookieOption n

/-- What a cookie field says about the OPT record it was located in: there is no COOKIE option,
or the first one has no legal length, or the slot is in place. -/
structure DescribesCookie (wire : List UInt8) (opt : RecordView)
    (cookie : Option CookieField) : Prop where
  absent : cookie = none ↔ ∀ f ∈ opt.fields, ∀ n, f.field ≠ .option cookieOption n
  malformed : cookie = some .malformed ↔ ∃ f length, opt.FirstCookie f length ∧
    ¬ (length.toNat = 8 ∨ 16 ≤ length.toNat ∧ length.toNat ≤ 40)
  present : ∀ slot, cookie = some (.present slot) →
    (∃ f length, opt.FirstCookie f length ∧
      (length.toNat = 8 ∨ 16 ≤ length.toNat ∧ length.toNat ≤ 40) ∧
      slot.dataLen = length.toNat ∧ slot.lengthAt = f.start + 2) ∧
    slot.lengthAt + 2 = slot.dataAt ∧ slot.rdlengthAt + 2 ≤ slot.lengthAt ∧
    slot.dataAt + slot.dataLen ≤ wire.length ∧
    (wordAt wire slot.lengthAt).map UInt16.toNat = some slot.dataLen ∧
    wordAt wire slot.rdlengthAt = some opt.length

/-- The packet was read from its bytes, and its cookie field describes its OPT record. -/
def Packet.CookieDescribed (p : Packet) : Prop :=
  ∃ d, Derives p.wire d ∧ p = d.packet p.wire ∧ (d.opt = none → p.cookie = none) ∧
    ∀ opt, d.opt = some opt → DescribesCookie p.wire opt p.cookie

/-- A field gives no cookie exactly when it is no COOKIE option. -/
theorem RecordView.fieldCookie_eq_none_iff {opt : RecordView} {f : FieldView} :
    opt.fieldCookie f = none ↔ ∀ n, f.field ≠ .option cookieOption n := by
  unfold fieldCookie
  cases hfield : f.field with
  | option code length =>
    by_cases hcode : code = cookieOption
    · subst hcode
      simp only [if_true]
      split
      · simp
      · simp
    · simp [hcode]
  | bytes n => simp
  | name => simp
  | string => simp

/-- A COOKIE option gives a slot when its length is legal. -/
theorem RecordView.fieldCookie_of_option {opt : RecordView} {f : FieldView} {length : UInt16}
    (h : f.field = .option cookieOption length) :
    opt.fieldCookie f = if Cookie.validLength length.toNat then
      some (.present ⟨f.start + 2, f.start + 4, length.toNat, opt.fixedAt + 8⟩)
      else some .malformed := by
  unfold fieldCookie
  rw [h]
  simp only [if_true]

/-- The cookie of a record is that of its first COOKIE option. -/
theorem RecordView.cookie_eq_some_iff {opt : RecordView} {c : CookieField} :
    opt.cookie = some c ↔
      ∃ f length, opt.FirstCookie f length ∧ opt.fieldCookie f = some c := by
  unfold cookie
  rw [List.findSome?_eq_some_iff]
  constructor
  · rintro ⟨before, f, after, hfields, hf, hbefore⟩
    -- `findSome?` stops at the first field with a value, and only COOKIE options have one.
    have hoption : ∃ n, f.field = .option cookieOption n := by
      by_contra hnone
      rw [fieldCookie_eq_none_iff.mpr (by simpa using hnone)] at hf
      cases hf
    obtain ⟨length, hlength⟩ := hoption
    exact ⟨f, length, ⟨hlength, before, after, hfields,
      fun g hg => fieldCookie_eq_none_iff.mp (hbefore g hg)⟩, hf⟩
  · rintro ⟨f, length, ⟨-, before, after, hfields, hbefore⟩, hf⟩
    exact ⟨before, f, after, hfields, hf,
      fun g hg => fieldCookie_eq_none_iff.mpr (hbefore g hg)⟩

/-- In a derivation the cookie of the OPT record describes it. -/
theorem RecordAt.describesCookie {wire : List UInt8} {opt : RecordView} (h : RecordAt wire opt) :
    DescribesCookie wire opt opt.cookie := by
  refine ⟨?_, ?_, fun slot hslot => ?_⟩
  · show opt.fields.findSome? opt.fieldCookie = none ↔ _
    rw [List.findSome?_eq_none_iff]
    exact forall₂_congr fun f _ => RecordView.fieldCookie_eq_none_iff
  · have hmalformed : ∀ f length, opt.FirstCookie f length →
        (opt.fieldCookie f = some .malformed ↔
          ¬ (length.toNat = 8 ∨ 16 ≤ length.toNat ∧ length.toNat ≤ 40)) := by
      intro f length h
      rw [RecordView.fieldCookie_of_option h.1, ← Cookie.validLength_iff]
      by_cases hvalid : Cookie.validLength length.toNat = true
      · simp [hvalid]
      · simp [hvalid]
    rw [RecordView.cookie_eq_some_iff]
    exact exists₂_congr fun f length => and_congr_right (hmalformed f length)
  · obtain ⟨f, length, hfirst, hf⟩ := RecordView.cookie_eq_some_iff.mp hslot
    rw [RecordView.fieldCookie_of_option hfirst.1] at hf
    by_cases hvalid : Cookie.validLength length.toNat = true
    · rw [if_pos hvalid] at hf
      cases hf
      have hlegal := Cookie.validLength_iff.mp hvalid
      -- The option is one of the fields that tile the data of the record.
      obtain ⟨hoption, before, after, hfields, -⟩ := id hfirst
      have hmem : f ∈ opt.fields := by simp [hfields]
      have hat := h.data.forall_mem f hmem
      simp only [FieldAt, hoption] at hat
      have hspan : opt.dataStart ≤ f.start ∧ f.stop ≤ opt.stop :=
        h.data.bounds (fun _ => FieldAt.start_le_stop) f hmem
      have hinside := h.inside
      have hstart : opt.dataStart = opt.fixedAt + 10 := rfl
      refine ⟨⟨f, length, hfirst, hlegal, rfl, rfl⟩, rfl, ?_, ?_, ?_, h.length⟩
      · show opt.fixedAt + 8 + 2 ≤ f.start + 2
        omega
      · show f.start + 4 + length.toNat ≤ wire.length
        omega
      · show (wordAt wire (f.start + 2)).map UInt16.toNat = some length.toNat
        rw [hat.2.1]
        rfl
    · rw [if_neg hvalid] at hf
      cases hf

/-- Every packet that is the parse of its bytes is described by its cookie field. -/
theorem Packet.Parsed.cookieDescribed {p : Packet} (h : p.Parsed) : p.CookieDescribed := by
  obtain ⟨d, hd, hp⟩ := Packet.parsed_iff.mp h
  have hcookie : p.cookie = d.opt.bind RecordView.cookie := by rw [hp]; rfl
  refine ⟨d, hd, hp, fun hnone => ?_, fun opt hopt => ?_⟩
  · rw [hcookie, hnone]
    rfl
  · rw [hcookie, hopt]
    obtain ⟨m, -, hrecords⟩ := hd.tiles
    exact (hrecords.forall_mem opt (List.mem_of_find?_eq_some hopt)).describesCookie

/-- What the functions of the COOKIE option rely on. -/
theorem Packet.CookieDescribed.inBounds {p : Packet} (h : p.CookieDescribed) {slot : CookieSlot}
    (hslot : p.cookie = some (.present slot)) :
    (slot.dataLen = 8 ∨ 16 ≤ slot.dataLen ∧ slot.dataLen ≤ 40) ∧
      slot.lengthAt + 2 = slot.dataAt ∧ slot.rdlengthAt + 2 ≤ slot.lengthAt ∧
      slot.dataAt + slot.dataLen ≤ p.wire.length := by
  obtain ⟨d, -, -, hnone, hsome⟩ := h
  -- Without an OPT record there is no cookie, so the slot comes from one.
  cases hopt : d.opt with
  | none =>
    rw [hnone hopt] at hslot
    cases hslot
  | some opt =>
    obtain ⟨⟨f, length, -, hlegal, hlength, -⟩, hdata, hrdlength, hinside, -⟩ :=
      (hsome opt hopt).present slot hslot
    exact ⟨by rw [hlength]; exact hlegal, hdata, hrdlength, hinside⟩

/-! ### The functions with their panics -/

namespace Cookie

/-- The bytes in front of an offset inside the message. -/
theorem slice_take {w : List UInt8} {n : Nat} (h : n ≤ w.length) :
    slice w 0 n = some (w.take n) := by
  simp [slice, h]

/-- The bytes from an offset inside the message on. -/
theorem slice_drop {w : List UInt8} {n : Nat} (h : n ≤ w.length) :
    slice w n w.length = some (w.drop n) := by
  have hall : (w.drop n).take (w.length - n) = w.drop n :=
    List.take_of_length_le (by rw [List.length_drop])
  simp [slice, h, hall]

/-- Bytes are written in place when they end inside the message. -/
theorem Indexed.writeAt_eq {out bytes : List UInt8} {offset : Nat}
    (h : offset + bytes.length ≤ out.length) :
    Indexed.writeAt out offset bytes = some (overwrite out offset bytes) :=
  if_pos h

variable {p r : Packet}

/-- `response_cookie` stays in bounds on a described cookie. -/
theorem indexed_responseCookie (h : p.CookieDescribed) :
    Indexed.responseCookie p = some (responseCookie p) := by
  unfold Indexed.responseCookie responseCookie
  cases hcookie : p.cookie with
  | none => rfl
  | some field =>
    cases field with
    | malformed => rfl
    | present slot =>
      obtain ⟨-, -, -, hinside⟩ := h.inBounds hcookie
      simp [slice, hinside, CookieSlot.data]

/-- A COOKIE has at least the eight bytes of a client cookie. -/
theorem length_responseCookie (h : p.CookieDescribed) {bytes : List UInt8}
    (hbytes : responseCookie p = some bytes) : 8 ≤ bytes.length := by
  unfold responseCookie at hbytes
  split at hbytes
  · rename_i slot hslot
    obtain ⟨hlegal, -, -, hinside⟩ := h.inBounds hslot
    cases hbytes
    rw [CookieSlot.data, List.length_take, List.length_drop]
    omega
  · cases hbytes

/-- `valid_response` stays in bounds on described cookies. -/
theorem indexed_validResponse (hp : p.CookieDescribed) (hr : r.CookieDescribed)
    (required : Bool) :
    Indexed.validResponse p r required = some (validResponse p r required) := by
  unfold Indexed.validResponse validResponse
  rw [indexed_responseCookie hr, indexed_responseCookie hp]
  cases hreceived : responseCookie r with
  | none => rfl
  | some received =>
    cases hclient : responseCookie p with
    | none => rfl
    | some client =>
      have hlong := length_responseCookie hp hclient
      have hlong' := length_responseCookie hr hreceived
      by_cases hlegal : 16 ≤ received.length ∧ received.length ≤ 40
      · simp [hlegal, slice_take hlong, slice_take hlong']
      · simp [hlegal]

/-- A rewrite in a message that holds the slot stays in bounds. -/
theorem indexed_rewrite {query client server : List UInt8} {slot : CookieSlot}
    (hdata : slot.lengthAt + 2 = slot.dataAt) (hrdlength : slot.rdlengthAt + 2 ≤ slot.lengthAt)
    (hinside : slot.dataAt + slot.dataLen ≤ query.length) :
    Indexed.rewrite query slot client server = some (rewrite query slot client server) := by
  unfold Indexed.rewrite rewrite
  -- Both versions refuse on the same guards, before they touch a byte.
  by_cases hguard : server.length < 8 ∨ server.length > 32 ∨ slot.rdlengthAt + 2 > slot.dataAt
  · rw [if_pos hguard, if_pos hguard]
  rw [if_neg hguard, if_neg hguard]
  simp only [if_neg (Nat.not_lt.mpr hinside), slice_take (Nat.le_of_add_right_le hinside),
    slice_drop hinside, Option.bind_eq_bind, Option.bind_some]
  generalize hout : query.take slot.dataAt ++ client ++ server
    ++ query.drop (slot.dataAt + slot.dataLen) = out
  -- Both length fields stand in front of the data, which is copied as it is.
  have hlength : slot.dataAt ≤ out.length := by
    rw [← hout]
    simp only [List.length_append, List.length_take]
    omega
  by_cases hlong : out.length > maxMessageLength
  · rw [if_pos hlong, if_pos hlong]
    rfl
  rw [if_neg hlong, if_neg hlong]
  have hwrite : ∀ n : UInt16, Indexed.writeAt out slot.lengthAt (wordBytes n)
      = some (overwrite out slot.lengthAt (wordBytes n)) := fun n =>
    Indexed.writeAt_eq (by rw [length_wordBytes]; omega)
  rw [hwrite, Option.bind_some]
  generalize hpatched : overwrite out slot.lengthAt (wordBytes (UInt16.ofNat (8 + server.length)))
    = patched
  -- The first write keeps the length, so the second one is in bounds as well.
  have hsame : patched.length = out.length := by
    rw [← hpatched, length_overwrite (by rw [length_wordBytes]; omega)]
  obtain ⟨old, hold⟩ := @wordAt_eq_some_of_lt patched slot.rdlengthAt (by omega)
  rw [hold, Option.bind_some, Option.getD_some]
  split
  · rw [Indexed.writeAt_eq (by rw [length_wordBytes]; omega)]
    rfl
  · rfl

/-- From the comparison of the client cookies on, every slice of a retry exists. -/
theorem indexed_retryWith {sent own data : List UInt8} {slot : CookieSlot}
    (hdata : slot.lengthAt + 2 = slot.dataAt) (hrdlength : slot.rdlengthAt + 2 ≤ slot.lengthAt)
    (hinside : slot.dataAt + slot.dataLen ≤ sent.length) :
    Indexed.retryWith sent slot own data = some
      (if own.length < 8 ∨ data.length < 16 ∨ own.take 8 ≠ data.take 8 then .discard
        else
          let server := data.drop 8
          if own.length > 8 ∧ own.drop 8 = server then .current
          else
            let dataEnd := slot.dataAt + slot.dataLen
            let newLen := 8 + server.length
            if newLen ≠ slot.dataLen ∧ dataEnd ≠ sent.length then .tcp
            else (rewrite sent slot (own.take 8) server).elim .discard .rewrite) := by
  unfold Indexed.retryWith
  -- The lengths are compared before the halves are sliced.
  by_cases hshort : own.length < 8 ∨ data.length < 16
  · have hdiscard : own.length < 8 ∨ data.length < 16 ∨ own.take 8 ≠ data.take 8 :=
      hshort.imp_right Or.inl
    rw [if_pos hshort, if_pos hdiscard]
  rw [if_neg hshort]
  have hown : 8 ≤ own.length := by omega
  have hreceived : 8 ≤ data.length := by omega
  simp only [slice_take hown, slice_take hreceived, slice_drop hown, slice_drop hreceived,
    Option.bind_eq_bind, Option.bind_some, Option.map_some]
  by_cases hclient : own.take 8 ≠ data.take 8
  · rw [if_pos hclient, if_pos (Or.inr (Or.inr hclient))]
    rfl
  have hkeep : ¬ (own.length < 8 ∨ data.length < 16 ∨ own.take 8 ≠ data.take 8) := by
    intro h
    rcases h with h | h | h
    · exact hshort (Or.inl h)
    · exact hshort (Or.inr h)
    · exact hclient h
  rw [if_neg hclient, if_neg hkeep]
  rw [indexed_rewrite hdata hrdlength hinside, Option.bind_some]
  -- The own server cookie is compared only where there is one.
  by_cases hlong : own.length > 8
  · by_cases hsame : own.drop 8 = data.drop 8
    · simp [hlong, hsame]
    · simp only [hlong, hsame, if_true, decide_false, Bool.false_eq_true, if_false, and_false]
      split
      · rfl
      · split <;> simp_all
  · simp only [hlong, if_false, Bool.false_eq_true, false_and]
    split
    · rfl
    · split <;> simp_all

/-- Retrying a query stays in bounds, whatever response came back. -/
theorem indexed_retry (hp : p.CookieDescribed) : Indexed.retry p r = some (retry p r) := by
  unfold Indexed.retry retry
  cases hquery : p.cookie with
  | none => rfl
  | some field =>
    cases field with
    | malformed => rfl
    | present slot =>
      obtain ⟨-, hdata, hrdlength, hinside⟩ := hp.inBounds hquery
      cases hresponse : r.cookie with
      | none => rfl
      | some field =>
        cases field with
        | malformed => rfl
        | present rslot =>
          dsimp only
          cases hsent : slice p.wire slot.dataAt (slot.dataAt + slot.dataLen) with
          | none => rfl
          | some own =>
            cases hreceived : slice r.wire rslot.dataAt (rslot.dataAt + rslot.dataLen) with
            | none => rfl
            | some data =>
              refine (indexed_retryWith hdata hrdlength hinside).trans ?_
              dsimp only
              cases rewrite p.wire slot (own.take 8) (data.drop 8) <;> rfl

end Cookie

/-! ### The packets of the service -/

/-- A packet that its cookie field describes is the parse of its bytes. -/
theorem Packet.CookieDescribed.parsed {p : Packet} (h : p.CookieDescribed) : p.Parsed := by
  obtain ⟨d, hd, hp, -, -⟩ := h
  exact Packet.parsed_iff.mpr ⟨d, hd, hp⟩

/-- The cookie field of every parsed packet describes the first COOKIE option of its OPT
record. Sending a query under a new ID and parsing a retried query keep this, so the COOKIE
functions never index out of bounds, whatever query and response meet. -/
theorem Packet.cookieSlots_described :
    (∀ (wire : List UInt8) (p : Packet), Packet.parse wire = .ok p → p.CookieDescribed) ∧
    (∀ (q : Query) (id : TransactionId), q.packet.CookieDescribed →
      (q.sent id).packet.CookieDescribed) ∧
    (∀ (s s' : SentQuery) (wire : List UInt8) (id : TransactionId), s.retry wire id = .ok s' →
      s'.packet.CookieDescribed) ∧
    (∀ p r : Packet, p.CookieDescribed → r.CookieDescribed →
      Cookie.Indexed.responseCookie p = some (Cookie.responseCookie p) ∧
      (∀ required, Cookie.Indexed.validResponse p r required
        = some (Cookie.validResponse p r required)) ∧
      Cookie.Indexed.retry p r = some (Cookie.retry p r) ∧
      ∀ slot client server, p.cookie = some (.present slot) →
        Cookie.Indexed.rewrite p.wire slot client server
          = some (Cookie.rewrite p.wire slot client server)) := by
  refine ⟨fun wire p h => (parsed_of_parse h).cookieDescribed, fun q id h => ?_,
    fun s s' wire id h => ?_, fun p r hp hr => ?_⟩
  · exact (h.parsed.renumber id).cookieDescribed
  · exact (parsed_of_parse (SentQuery.retry_eq_ok_iff.mp h).1).cookieDescribed
  · refine ⟨Cookie.indexed_responseCookie hp, Cookie.indexed_validResponse hp hr,
      Cookie.indexed_retry hp, fun slot client server hslot => ?_⟩
    obtain ⟨-, hdata, hrdlength, hinside⟩ := hp.inBounds hslot
    exact Cookie.indexed_rewrite hdata hrdlength hinside

/-- A query with a client cookie, sent under ID 7, and the challenge to it. -/
theorem Packet.cookieSlots_described_plainQuery :
    plainQuery.CookieDescribed ∧
      (Query.sent ⟨plainQuery, ⟨⟨[]⟩, .a, .in⟩⟩ ⟨7⟩).packet.CookieDescribed ∧
      plainRetry.CookieDescribed ∧
      Cookie.Indexed.retry plainQuery plainChallenge
        = some (Cookie.retry plainQuery plainChallenge) := by
  obtain ⟨hparse, hsent, hretry, hindexed⟩ := Packet.cookieSlots_described
  have hquery := hparse plainQuery.wire plainQuery (by decide +kernel)
  have hchallenge := hparse plainChallenge.wire plainChallenge (by decide +kernel)
  have hretried : (Query.sent ⟨plainQuery, ⟨⟨[]⟩, .a, .in⟩⟩ ⟨7⟩).retry plainRetry.wire
      plainRetry.header.id = .ok ⟨plainRetry, true⟩ := by decide +kernel
  exact ⟨hquery, hsent _ ⟨7⟩ hquery, hretry _ _ _ _ hretried,
    (hindexed plainQuery plainChallenge hquery hchallenge).2.2.1⟩

end Sederial.Dns
