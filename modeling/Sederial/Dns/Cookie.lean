import Sederial.Dns.Message

/-!
# `Sederial.Dns.Cookie`: the COOKIE option and the BADCOOKIE retry query

The model of `src/dns/cookie.rs`. Offsets are natural numbers, so the source's
`checked_add` and `saturating_add` are plain additions: a message has at most 65535 bytes
and no offset into it can reach the limit of `usize`.

The source takes the slice `&packet.wire[data_at..data_at + data_len]` by indexing, which
panics out of bounds. `CookieSlot.data` stands for it and returns the bytes that exist.
The slots `locate` returns are in bounds, so the two agree on every parsed packet.
-/

set_option autoImplicit false

namespace Sederial.Dns

open Sederial.Lib

/-- The option code of COOKIE. -/
def cookieOption : UInt16 := 10

/-- How a BADCOOKIE response relates to the COOKIE option that was sent. -/
inductive ServerCookieRetry where
  | absent
  | discard
  | current
  | rewrite (wire : List UInt8)
  | tcp
  deriving DecidableEq, Repr

/-- The data of a slot in the message it was located in. -/
def CookieSlot.data (slot : CookieSlot) (wire : List UInt8) : List UInt8 :=
  (wire.drop slot.dataAt).take slot.dataLen

namespace Cookie

/-- A COOKIE option of this length is well formed. -/
def validLength (len : Nat) : Bool := len == 8 || (16 ≤ len && len ≤ 40)

/-- The loop of `locate`, entered at `cursor`. -/
def locateFrom (wire : List UInt8) (rdataAt stop cursor : Nat) : Option CookieField :=
  if _h : cursor + 4 ≤ stop ∧ cursor + 4 ≤ wire.length then
    let code := (wordAt wire cursor).getD 0
    let len := ((wordAt wire (cursor + 2)).getD 0).toNat
    let dataAt := cursor + 4
    let dataEnd := dataAt + len
    if dataEnd > stop ∨ dataEnd > wire.length then some .malformed
    else if code = cookieOption then
      if validLength len then
        some (.present {
          lengthAt := cursor + 2
          dataAt := dataAt
          dataLen := len
          rdlengthAt := rdataAt - 2 })
      else some .malformed
    else locateFrom wire rdataAt stop dataEnd
  else none
termination_by wire.length - cursor
decreasing_by omega

/-- Finds the first COOKIE option in the OPT data at `rdataAt`. -/
def locate (wire : List UInt8) (rdataAt rdataLen : Nat) : Option CookieField :=
  locateFrom wire rdataAt (rdataAt + rdataLen) rdataAt

/-- The COOKIE data of a packet. -/
def responseCookie (p : Packet) : Option (List UInt8) :=
  match p.cookie with
  | some (.present slot) => some (slot.data p.wire)
  | _ => none

/-- Whether the cookie of a response fits the query that was sent. -/
def validResponse (sent response : Packet) (required : Bool) : Bool :=
  match responseCookie response with
  | none => response.cookie.isNone && !required && decide (response.responseCode ≠ .badCookie)
  | some received =>
    match responseCookie sent with
    | none => false
    | some client =>
      (16 ≤ received.length && received.length ≤ 40) && client.take 8 == received.take 8

/-- `query` with the COOKIE data of `slot` replaced by `client ++ server` and both length
fields adjusted. -/
def rewrite (query : List UInt8) (slot : CookieSlot) (client server : List UInt8) :
    Option (List UInt8) :=
  if server.length < 8 ∨ server.length > 32 ∨ slot.rdlengthAt + 2 > slot.dataAt then none
  else
    let dataEnd := slot.dataAt + slot.dataLen
    if dataEnd > query.length then none
    else
      let newLen := 8 + server.length
      let delta : Int := (newLen : Int) - (slot.dataLen : Int)
      let out := query.take slot.dataAt ++ client ++ server ++ query.drop dataEnd
      if out.length > maxMessageLength then none
      else
        let out := overwrite out slot.lengthAt (wordBytes (UInt16.ofNat newLen))
        let rdlength : Int := (((wordAt out slot.rdlengthAt).getD 0).toNat : Int) + delta
        if 0 ≤ rdlength ∧ rdlength ≤ 65535 then
          some (overwrite out slot.rdlengthAt (wordBytes (UInt16.ofNat rdlength.toNat)))
        else none

/-- Decides how to retry `query` after the BADCOOKIE `response`. -/
def retry (query response : Packet) : ServerCookieRetry :=
  let sent := query.wire
  match query.cookie with
  | none => .absent
  | some .malformed => .discard
  | some (.present queryCookie) =>
    match response.cookie with
    | some (.present responseCookie) =>
      match slice sent queryCookie.dataAt (queryCookie.dataAt + queryCookie.dataLen),
          slice response.wire responseCookie.dataAt
            (responseCookie.dataAt + responseCookie.dataLen) with
      | some queryData, some responseData =>
        if queryData.length < 8 ∨ responseData.length < 16 ∨
            queryData.take 8 ≠ responseData.take 8 then .discard
        else
          let server := responseData.drop 8
          if queryData.length > 8 ∧ queryData.drop 8 = server then .current
          else
            let dataEnd := queryCookie.dataAt + queryCookie.dataLen
            let newLen := 8 + server.length
            -- Moving later bytes would break the offsets compression pointers hold.
            if newLen ≠ queryCookie.dataLen ∧ dataEnd ≠ sent.length then .tcp
            else
              match rewrite sent queryCookie (queryData.take 8) server with
              | none => .discard
              | some wire => .rewrite wire
      | _, _ => .discard
    | _ => .discard

end Cookie

end Sederial.Dns
