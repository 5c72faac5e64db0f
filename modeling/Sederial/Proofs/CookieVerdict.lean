import Sederial.Proofs.Exchange
import Sederial.Proofs.Resend

/-!
# `Sederial.Proofs.CookieVerdict`: the exact verdict on a BADCOOKIE response

`valid_response` and `retry` look at the same two COOKIE options, but each repeats the checks it
needs. `CookieChallenge` is what the first one leaves of a BADCOOKIE response, and
`CookieChallenge.retry_cases` shows that no check of the second one can fail on it: the verdict
depends on the server cookies, on the place of the option and on the size of the rewritten
message, and on nothing else.
-/

set_option autoImplicit false

namespace Sederial.Dns

open Sederial.Lib

/-! ### What an accepted BADCOOKIE response carries -/

/-- The query `p` and the response `r` both carry a COOKIE, with the client part of the query in
both and a server part in the response. -/
structure CookieChallenge (p r : Packet) (slot rslot : CookieSlot) (own received : List UInt8) :
    Prop where
  query : p.cookie = some (.present slot)
  response : r.cookie = some (.present rslot)
  queryData : slice p.wire slot.dataAt (slot.dataAt + slot.dataLen) = some own
  responseData : slice r.wire rslot.dataAt (rslot.dataAt + rslot.dataLen) = some received
  length : own.length = slot.dataLen
  client_le : 8 ≤ own.length
  client : own.take 8 = received.take 8
  long : 16 ≤ received.length
  short : received.length ≤ 40

/-- Without a COOKIE no BADCOOKIE is accepted. -/
theorem Cookie.of_validResponse_badCookie {sent response : Packet} {required : Bool}
    (h : validResponse sent response required = true)
    (hbad : response.responseCode = .badCookie) :
    ∃ received client, responseCookie response = some received ∧
      responseCookie sent = some client ∧ received.take 8 = client.take 8 ∧
      16 ≤ received.length ∧ received.length ≤ 40 := by
  -- `validResponse` lets a response without COOKIE pass only under another code.
  have hsome : response.cookie ≠ none := by
    intro hnone
    simp [validResponse, responseCookie, hnone, hbad] at h
  rcases of_validResponse h with ⟨hnone, -⟩ | hcookie
  · exact absurd hnone hsome
  · exact hcookie

/-- The COOKIE data of a parsed packet is the slice at its slot. -/
theorem Packet.Parsed.slice_cookie {p : Packet} {slot : CookieSlot} {bytes : List UInt8}
    (hp : p.Parsed) (hslot : p.cookie = some (.present slot)) (hdata : slot.data p.wire = bytes) :
    slice p.wire slot.dataAt (slot.dataAt + slot.dataLen) = some bytes ∧
      bytes.length = slot.dataLen := by
  have hinside := (hp.inPlace hslot).inside
  rw [CookieSlot.data] at hdata
  constructor
  · simp [slice, hinside, hdata]
  · rw [← hdata, List.length_take, List.length_drop]
    omega

/-- An accepted BADCOOKIE response returns the client cookie with a server cookie. -/
theorem SentQuery.Accepts.challenge {s : SentQuery} {r : Packet} (h : s.Accepts r)
    (hs : s.packet.Parsed) (hr : r.Parsed) (hbad : r.responseCode = .badCookie) :
    ∃ slot rslot own received, CookieChallenge s.packet r slot rslot own received := by
  obtain ⟨received, own, hreceived, hown, hclient, hlong, hshort⟩ :=
    Cookie.of_validResponse_badCookie h.cookie hbad
  obtain ⟨rslot, hrslot, hrdata⟩ := Cookie.responseCookie_eq_some_iff.mp hreceived
  obtain ⟨slot, hslot, hdata⟩ := Cookie.responseCookie_eq_some_iff.mp hown
  obtain ⟨hquery, hlength⟩ := hs.slice_cookie hslot hdata
  obtain ⟨hresponse, -⟩ := hr.slice_cookie hrslot hrdata
  -- A slot of a parsed query holds at least a client cookie.
  have hown8 : 8 ≤ own.length := by
    rw [hlength]
    exact (hs.inPlace hslot).client
  exact ⟨slot, rslot, own, received, hslot, hrslot, hquery, hresponse, hlength, hown8,
    hclient.symm, hlong, hshort⟩

/-! ### When a rewrite fails -/

/-- The RDLENGTH in front of a slot covers the option and stays inside the message. -/
theorem Packet.Parsed.rdlength {p : Packet} {slot : CookieSlot} (hp : p.Parsed)
    (hslot : p.cookie = some (.present slot)) :
    ∃ old, wordAt p.wire slot.rdlengthAt = some old ∧ slot.dataLen ≤ old.toNat ∧
      slot.rdlengthAt + 2 + old.toNat ≤ p.wire.length := by
  obtain ⟨d, hd, hpd⟩ := Packet.parsed_iff.mp hp
  rw [hpd] at hslot
  obtain ⟨site⟩ := CookieSite.exists_of_cookie hslot
  obtain ⟨m, hm⟩ := site.laidOut hd
  have hoffsets := hm.offsets
  have hbefore := hoffsets.fieldsBefore
  have hfield := hoffsets.field
  have hafter := hoffsets.fieldsAfter
  have hstop := hoffsets.stop
  have hinside := hoffsets.after
  rw [site.slot_eq]
  refine ⟨site.opt.length, hm.opt.length, ?_, ?_⟩
  · show site.length.toNat ≤ site.opt.length.toNat
    omega
  · show site.opt.fixedAt + 8 + 2 + site.opt.length.toNat ≤ p.wire.length
    omega

/-- A rewrite with cookies of legal length fails only when the message gets too long. -/
theorem Cookie.rewrite_eq_none_iff {p : Packet} {slot : CookieSlot} {client server : List UInt8}
    (hp : p.Parsed) (hslot : p.cookie = some (.present slot)) (hclient : client.length = 8)
    (hlong : 8 ≤ server.length) (hshort : server.length ≤ 32) :
    rewrite p.wire slot client server = none ↔
      65535 < p.wire.length - slot.dataLen + (8 + server.length) := by
  obtain ⟨old, hold, hcovers, hold_inside⟩ := hp.rdlength hslot
  have hplace := hp.inPlace hslot
  have hlengths := hplace.lengths
  have hdata := hplace.data
  have hinside := hplace.inside
  -- The three refusals in front of the splice do not apply.
  have hguard : ¬ (server.length < 8 ∨ server.length > 32 ∨ slot.rdlengthAt + 2 > slot.dataAt) := by
    omega
  unfold rewrite
  rw [if_neg hguard]
  simp only [if_neg (Nat.not_lt.mpr hinside)]
  generalize hout : p.wire.take slot.dataAt ++ client ++ server
    ++ p.wire.drop (slot.dataAt + slot.dataLen) = out
  have hlength : out.length = p.wire.length - slot.dataLen + (8 + server.length) := by
    rw [← hout]
    simp only [List.length_append, List.length_take, List.length_drop, hclient]
    omega
  by_cases hsize : out.length > maxMessageLength
  · rw [if_pos hsize]
    simp only [maxMessageLength] at hsize
    simp only [true_iff]
    omega
  rw [if_neg hsize]
  simp only [maxMessageLength] at hsize
  -- The RDLENGTH stands in front of the data, so the splice has not moved it.
  have hsame : wordAt (overwrite out slot.lengthAt
      (wordBytes (UInt16.ofNat (8 + server.length)))) slot.rdlengthAt = some old := by
    rw [← hold]
    refine wordAt_congr fun i hi => ?_
    rw [getElem?_overwrite_of_outside (by simp only [length_wordBytes]; omega) (by omega), ← hout,
      List.append_assoc, List.append_assoc, List.getElem?_append_left
        (by rw [List.length_take]; omega), List.getElem?_take_of_lt (by omega)]
  rw [hsame, Option.getD_some]
  -- The new RDLENGTH fits, since the record stays inside a message that is not too long.
  have hrange : 0 ≤ (old.toNat : Int) + (((8 + server.length : Nat) : Int) - (slot.dataLen : Int)) ∧
      (old.toNat : Int) + (((8 + server.length : Nat) : Int) - (slot.dataLen : Int)) ≤ 65535 := by
    omega
  rw [if_pos hrange]
  simp only [reduceCtorEq, false_iff]
  omega

/-! ### The verdict -/

namespace CookieChallenge

variable {p r : Packet} {slot rslot : CookieSlot} {own received : List UInt8}

/-- Putting the received cookie in place would move the bytes behind the option. -/
def Shifts (p : Packet) (slot : CookieSlot) (own received : List UInt8) : Prop :=
  received.length ≠ own.length ∧ slot.dataAt + slot.dataLen ≠ p.wire.length

/-- The length of the message with the received cookie in place. -/
def rewrittenLength (p : Packet) (own received : List UInt8) : Nat :=
  p.wire.length - own.length + received.length

/-- Only the comparisons of `retry` that concern the server cookies are left. -/
theorem retry_eq (h : CookieChallenge p r slot rslot own received) :
    Cookie.retry p r =
      if own.drop 8 = received.drop 8 then .current
      else if 8 + (received.drop 8).length ≠ slot.dataLen ∧
          slot.dataAt + slot.dataLen ≠ p.wire.length then .tcp
      else (Cookie.rewrite p.wire slot (own.take 8) (received.drop 8)).elim .discard .rewrite := by
  have hkeep : ¬ (own.length < 8 ∨ received.length < 16 ∨ own.take 8 ≠ received.take 8) := by
    intro hguard
    have hown := h.client_le
    have hlong := h.long
    rcases hguard with hguard | hguard | hguard
    · omega
    · omega
    · exact hguard h.client
  unfold Cookie.retry
  simp only [h.query, h.response, h.queryData, h.responseData, if_neg hkeep]
  -- Where the server cookies agree, the query has one.
  have hserver : (own.length > 8 ∧ own.drop 8 = received.drop 8) ↔
      own.drop 8 = received.drop 8 := by
    refine and_iff_right_of_imp fun hsame => ?_
    have hlength := congrArg List.length hsame
    have hlong := h.long
    simp only [List.length_drop] at hlength
    omega
  simp only [hserver]
  cases Cookie.rewrite p.wire slot (own.take 8) (received.drop 8) <;> rfl

/-- The four verdicts, one for each case. -/
theorem retry_cases (h : CookieChallenge p r slot rslot own received) (hp : p.Parsed) :
    (own.drop 8 = received.drop 8 → Cookie.retry p r = .current) ∧
    (own.drop 8 ≠ received.drop 8 → Shifts p slot own received → Cookie.retry p r = .tcp) ∧
    (own.drop 8 ≠ received.drop 8 → ¬ Shifts p slot own received →
      rewrittenLength p own received ≤ 65535 → ∃ w, Cookie.retry p r = .rewrite w) ∧
    (own.drop 8 ≠ received.drop 8 → ¬ Shifts p slot own received →
      65535 < rewrittenLength p own received → Cookie.retry p r = .discard) := by
  have hlong := h.long
  have hshort := h.short
  have hown := h.client_le
  have hlength := h.length
  have hserver : 8 + (received.drop 8).length = received.length := by
    rw [List.length_drop]
    omega
  -- `retry` compares with the length in the slot, which is that of the own cookie.
  have hmoves : (8 + (received.drop 8).length ≠ slot.dataLen ∧
      slot.dataAt + slot.dataLen ≠ p.wire.length) ↔ Shifts p slot own received := by
    rw [Shifts, hserver, hlength]
  have hnone : Cookie.rewrite p.wire slot (own.take 8) (received.drop 8) = none ↔
      65535 < rewrittenLength p own received := by
    rw [Cookie.rewrite_eq_none_iff hp h.query (by rw [List.length_take]; omega) (by omega)
      (by omega), rewrittenLength, hserver, hlength]
  have hretry := h.retry_eq
  refine ⟨fun hsame => ?_, fun hsame hmove => ?_, fun hsame hmove hsize => ?_,
    fun hsame hmove hsize => ?_⟩
  · rw [hretry, if_pos hsame]
  · rw [hretry, if_neg hsame, if_pos (hmoves.mpr hmove)]
  · rw [if_neg hsame, if_neg (hmoves.not.mpr hmove)] at hretry
    cases hrewrite : Cookie.rewrite p.wire slot (own.take 8) (received.drop 8) with
    | none =>
      have hover := hnone.mp hrewrite
      omega
    | some w =>
      rw [hrewrite] at hretry
      exact ⟨w, hretry⟩
  · rw [hretry, if_neg hsame, if_neg (hmoves.not.mpr hmove), hnone.mpr hsize]
    rfl

end CookieChallenge

/-- The exact verdict of `s` on the BADCOOKIE response `x`, with the COOKIE data of both. -/
structure SentQuery.Classifies (s : SentQuery) (x : Response) (slot : CookieSlot)
    (own received : List UInt8) : Prop where
  place : s.packet.cookie = some (.present slot)
  query : Cookie.responseCookie s.packet = some own
  response : Cookie.responseCookie x.packet = some received
  client : own.take 8 = received.take 8
  absent : s.serverCookieRetry x ≠ .absent
  current : s.serverCookieRetry x = .current ↔ own.drop 8 = received.drop 8
  tcp : s.serverCookieRetry x = .tcp ↔ own.drop 8 ≠ received.drop 8 ∧
    received.length ≠ own.length ∧ slot.dataAt + slot.dataLen ≠ s.wire.length
  rewrite : (∃ w, s.serverCookieRetry x = .rewrite w) ↔ own.drop 8 ≠ received.drop 8 ∧
    (received.length = own.length ∨ slot.dataAt + slot.dataLen = s.wire.length) ∧
    s.wire.length - own.length + received.length ≤ 65535
  discard : s.serverCookieRetry x = .discard ↔ own.drop 8 ≠ received.drop 8 ∧
    (received.length = own.length ∨ slot.dataAt + slot.dataLen = s.wire.length) ∧
    65535 < s.wire.length - own.length + received.length

/-- A challenge classifies the response by the two cookies that it names. -/
theorem CookieChallenge.classifies {s : SentQuery} {x : Response} {slot rslot : CookieSlot}
    {own received : List UInt8} (h : CookieChallenge s.packet x.packet slot rslot own received)
    (hs : s.packet.Parsed) : s.Classifies x slot own received := by
  obtain ⟨hcurrent, htcp, hrewrite, hdiscard⟩ := h.retry_cases hs
  have hown := Cookie.responseCookie_of_slice h.query h.queryData
  have hreceived := Cookie.responseCookie_of_slice h.response h.responseData
  have hstays : (received.length = own.length ∨ slot.dataAt + slot.dataLen = s.wire.length) ↔
      ¬ Shifts s.packet slot own received := by
    rw [Shifts, not_and_or, not_not, not_not]
    rfl
  have hmoves : (received.length ≠ own.length ∧ slot.dataAt + slot.dataLen ≠ s.wire.length) ↔
      Shifts s.packet slot own received := Iff.rfl
  have hsize : s.wire.length - own.length + received.length
      = rewrittenLength s.packet own received := rfl
  have hverdict : s.serverCookieRetry x = Cookie.retry s.packet x.packet := rfl
  -- The cases exclude each other, so each verdict names its own.
  by_cases hsame : own.drop 8 = received.drop 8
  · have hvalue := hcurrent hsame
    refine ⟨h.query, hown, hreceived, h.client, ?_, ?_, ?_, ?_, ?_⟩ <;>
      simp [hverdict, hvalue, hsame]
  by_cases hmove : Shifts s.packet slot own received
  · have hvalue := htcp hsame hmove
    refine ⟨h.query, hown, hreceived, h.client, ?_, ?_, ?_, ?_, ?_⟩ <;>
      simp [hverdict, hvalue, hsame, hmoves, hstays, hmove]
  by_cases hlong : 65535 < rewrittenLength s.packet own received
  · have hvalue := hdiscard hsame hmove hlong
    refine ⟨h.query, hown, hreceived, h.client, ?_, ?_, ?_, ?_, ?_⟩ <;>
      simp [hverdict, hvalue, hsame, hmoves, hstays, hmove, hsize, hlong]
  · obtain ⟨w, hvalue⟩ := hrewrite hsame hmove (Nat.not_lt.mp hlong)
    refine ⟨h.query, hown, hreceived, h.client, ?_, ?_, ?_, ?_, ?_⟩ <;>
      simp [hverdict, hvalue, hsame, hmoves, hstays, hmove, hsize, Nat.not_lt.mp hlong]

end Sederial.Dns

namespace Sederial

open Sederial.Lib
open Sederial.Dns

namespace Forwarder

/-- The two checks of a BADCOOKIE response never disagree. Whatever query is sent for a client,
first or again, an accepted BADCOOKIE response is classified by its server cookie, by the place
of the COOKIE option and by the size of the rewritten message. Both calls of
`server_cookie_retry` in `finish_badcookie` get a response of an exchange of their own query, and
the exchange has accepted it, so the arms for a missing and for a foreign client cookie are not
reached. -/
theorem badcookie_exact :
    (∀ (wire : List UInt8) (p : Packet) (q : Query) (s : SentQuery) (w : List UInt8) (r : Packet)
      (x : Response), Packet.parse wire = .ok p → p.validateQuery = .forward q → SentFrom q s →
        Packet.parse w = .ok r → s.validateResponse r = some x → x.responseCode = .badCookie →
          ∃ slot own received, s.Classifies x slot own received) ∧
    (∀ (transport : Transport) (address : UpstreamAddress) (exchange : Exchange)
      (f f' : Forwarder) (x : Response),
        (exchangeOver transport address exchange).exec f = (.ok x, f') →
          Packet.parse x.wire = .ok x.packet ∧
            exchange.sent.validateResponse x.packet = some x) := by
  constructor
  · intro wire p q s w r x hp hq hs hr hx hbad
    obtain ⟨rfl, -⟩ := Packet.validateQuery_eq_forward_iff.mp hq
    obtain ⟨rfl, haccepts⟩ := SentQuery.validateResponse_eq_some_iff.mp hx
    -- Every query that goes out is the parse of its bytes, so its slot is in place.
    have hsent : s.packet.Parsed := hs.parsed (Packet.parsed_of_parse hp)
    obtain ⟨slot, rslot, own, received, hchallenge⟩ :=
      haccepts.challenge hsent (Packet.parsed_of_parse hr) hbad
    exact ⟨slot, own, received, hchallenge.classifies hsent⟩
  · intro transport address exchange f f' x hexec
    -- Every peer will do, since only the value of the exchange matters here.
    obtain ⟨-, new, -, hlog⟩ := @exchangeOver_traced (fun _ _ => True) (fun _ => trivial) address
      exchange transport f (fun _ _ => trivial)
    rw [hexec] at hlog
    obtain ⟨haccepts, hparsed⟩ := hlog.value x rfl
    exact ⟨hparsed, SentQuery.validateResponse_eq_some_iff.mpr ⟨rfl, haccepts⟩⟩

/-- The query with a client cookie is challenged, and challenged again after its retry. -/
theorem badcookie_exact_plainQuery :
    (∃ slot own received,
      (Query.sent ⟨plainQuery, ⟨⟨[]⟩, .a, .in⟩⟩ ⟨0x1234⟩).Classifies ⟨plainChallenge⟩ slot own
        received) ∧
    ∃ slot own received,
      SentQuery.Classifies ⟨plainRetry, true⟩ ⟨plainChallenge⟩ slot own received := by
  obtain ⟨hexact, -⟩ := badcookie_exact
  have hquery : Packet.parse plainQuery.wire = .ok plainQuery := by decide +kernel
  have hchallenge : Packet.parse plainChallenge.wire = .ok plainChallenge := by decide +kernel
  have hforward : plainQuery.validateQuery = .forward ⟨plainQuery, ⟨⟨[]⟩, .a, .in⟩⟩ := by
    decide +kernel
  have hretry : (Query.sent ⟨plainQuery, ⟨⟨[]⟩, .a, .in⟩⟩ ⟨0x1234⟩).retry plainRetry.wire
      ⟨0x1234⟩ = .ok ⟨plainRetry, true⟩ := by decide +kernel
  exact ⟨hexact _ _ _ _ _ _ _ hquery hforward (.sent ⟨0x1234⟩) hchallenge (by decide +kernel)
      (by decide +kernel),
    hexact _ _ _ _ _ _ _ hquery hforward (.retry _ _ (.sent ⟨0x1234⟩) hretry) hchallenge
      (by decide +kernel) (by decide +kernel)⟩

end Forwarder

end Sederial
