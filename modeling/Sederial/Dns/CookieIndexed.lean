import Sederial.Dns.Cookie

/-!
# `Sederial.Dns.CookieIndexed`: the COOKIE functions with their panics

`Sederial.Dns.Cookie` reads a cookie as the bytes that exist. The source indexes, and an index
out of bounds panics. Here are the functions of `src/dns/cookie.rs` once more, statement by
statement, with every slice taken by `slice` and every write by `writeAt`: the result is
`none` where the source would panic.

`Vec::with_capacity` gets the length of the query plus the growth of the option. The growth is
negative at most by the length of the data it replaces, so the sum is not.
-/

set_option autoImplicit false

namespace Sederial.Dns.Cookie.Indexed

open Sederial.Lib

/-- `out[at..at + bytes.len()].copy_from_slice(bytes)`. -/
def writeAt (out : List UInt8) (offset : Nat) (bytes : List UInt8) : Option (List UInt8) :=
  if offset + bytes.length ≤ out.length then some (overwrite out offset bytes) else none

/-- `response_cookie`, where every index may be out of bounds. -/
def responseCookie (p : Packet) : Option (Option (List UInt8)) :=
  match p.cookie with
  | some (.present slot) => (slice p.wire slot.dataAt (slot.dataAt + slot.dataLen)).map some
  | _ => some none

/-- `valid_response`, where every index may be out of bounds. -/
def validResponse (sent response : Packet) (required : Bool) : Option Bool := do
  match ← responseCookie response with
  | none =>
    return response.cookie.isNone && !required && decide (response.responseCode ≠ .badCookie)
  | some received =>
    match ← responseCookie sent with
    | none => return false
    | some client =>
      if 16 ≤ received.length ∧ received.length ≤ 40 then
        return (← slice client 0 8) == (← slice received 0 8)
      else return false

/-- `rewrite`, where every index may be out of bounds. -/
def rewrite (query : List UInt8) (slot : CookieSlot) (client server : List UInt8) :
    Option (Option (List UInt8)) :=
  if server.length < 8 ∨ server.length > 32 ∨ slot.rdlengthAt + 2 > slot.dataAt then some none
  else
    let dataEnd := slot.dataAt + slot.dataLen
    if dataEnd > query.length then some none
    else do
      let newLen := 8 + server.length
      let delta : Int := (newLen : Int) - (slot.dataLen : Int)
      let before ← slice query 0 slot.dataAt
      let after ← slice query dataEnd query.length
      let out := before ++ client ++ server ++ after
      if out.length > maxMessageLength then return none
      else
        let out ← writeAt out slot.lengthAt (wordBytes (UInt16.ofNat newLen))
        let old ← wordAt out slot.rdlengthAt
        let rdlength : Int := (old.toNat : Int) + delta
        if 0 ≤ rdlength ∧ rdlength ≤ 65535 then
          let out ← writeAt out slot.rdlengthAt (wordBytes (UInt16.ofNat rdlength.toNat))
          return some out
        else return none

/-- The tail of `retry`, from the comparison of the client cookies on. -/
def retryWith (sent : List UInt8) (slot : CookieSlot) (queryData responseData : List UInt8) :
    Option ServerCookieRetry :=
  if queryData.length < 8 ∨ responseData.length < 16 then some .discard
  else do
    let client ← slice queryData 0 8
    if client ≠ (← slice responseData 0 8) then return .discard
    else
      let server ← slice responseData 8 responseData.length
      let current ←
        if queryData.length > 8 then
          (slice queryData 8 queryData.length).map fun own => decide (own = server)
        else some false
      if current then return .current
      else
        let dataEnd := slot.dataAt + slot.dataLen
        let newLen := 8 + server.length
        if newLen ≠ slot.dataLen ∧ dataEnd ≠ sent.length then return .tcp
        else
          match ← rewrite sent slot client server with
          | none => return .discard
          | some wire => return .rewrite wire

/-- `retry`, where every index may be out of bounds. -/
def retry (query response : Packet) : Option ServerCookieRetry :=
  let sent := query.wire
  match query.cookie with
  | none => some .absent
  | some .malformed => some .discard
  | some (.present queryCookie) =>
    match response.cookie with
    | some (.present responseCookie) =>
      -- These two slices are taken with `get`, which does not panic.
      match slice sent queryCookie.dataAt (queryCookie.dataAt + queryCookie.dataLen),
          slice response.wire responseCookie.dataAt
            (responseCookie.dataAt + responseCookie.dataLen) with
      | some queryData, some responseData => retryWith sent queryCookie queryData responseData
      | _, _ => some .discard
    | _ => some .discard

end Sederial.Dns.Cookie.Indexed
