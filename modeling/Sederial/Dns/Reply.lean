import Sederial.Dns.Parser
import Sederial.Net

/-!
# `Sederial.Dns.Reply`: locally generated replies and sent queries

The model of `src/dns/reply.rs`, of `ParseFailure::format_reply`, and of the part of
`src/dns/message.rs` that needs the parser: `SentQuery` and the reply methods of `Query`.
-/

set_option autoImplicit false

namespace Sederial.Dns

open Sederial.Lib

/-- Clear RA on a complete reply when the service has no forwarding capability. -/
def withoutRecursion (wire : List UInt8) : List UInt8 :=
  wire.modify 3 (· &&& ~~~ raMask.toUInt8)

/-- OPT presence on a locally generated reply, including the client's DO bit. -/
inductive GeneratedOpt where
  | absent
  | present (dnssecOk : Bool) (cookie : Option (List UInt8))
  deriving DecidableEq, Repr

/-- The OPT record of a reply to a query with this OPT record. -/
def generatedOpt : Option Edns → GeneratedOpt
  | some opt => .present opt.dnssecOk none
  | none => .absent

/-- The flags word of a local response: opcode, RD and CD are echoed, QR and RA are set. -/
def replyFlags (header : Header) (code : ResponseCode) (truncated : Bool) : UInt16 :=
  (header.flags &&& (opcodeMask ||| rdMask ||| cdMask)) ||| qrMask ||| raMask |||
    (code.wire &&& rcodeMask) ||| (if truncated then tcMask else 0)

/-- The answer record of a local response. Its owner points at the question. -/
def encodeAnswer (address : Ipv4Addr) (ttl : UInt32) : List UInt8 :=
  [0xc0, 0x0c] ++ wordBytes RecordType.a.wire ++ wordBytes RecordClass.in.wire ++
    doubleWordBytes ttl ++ wordBytes 4 ++ address.octets

/-- The OPT record of a local response. -/
def encodeOpt (code : ResponseCode) (dnssecOk : Bool) (cookie : Option (List UInt8)) :
    List UInt8 :=
  let extended : UInt32 := (code.wire >>> 4).toUInt8.toUInt32
  let ttl := (extended <<< extendedRcodeShift) ||| (if dnssecOk then doMask else 0)
  let length :=
    match cookie with
    | none => 0
    | some cookie => 4 + cookie.length
  [0] ++ wordBytes RecordType.opt.wire ++ wordBytes (UInt16.ofNat serverUdpLength) ++
    doubleWordBytes ttl ++ wordBytes (UInt16.ofNat length) ++
    match cookie with
    | none => []
    | some cookie => wordBytes 10 ++ wordBytes (UInt16.ofNat cookie.length) ++ cookie

/-- Encodes a local response. -/
def makeReply (header : Header) (question : Option Question) (code : ResponseCode)
    (truncated : Bool) (edns : GeneratedOpt) (answer : Option (Ipv4Addr × UInt32)) :
    List UInt8 :=
  Header.encode {
    id := header.id
    flags := replyFlags header code truncated
    counts := {
      questions := if question.isSome then 1 else 0
      answers := if answer.isSome then 1 else 0
      authorities := 0
      additionals := if edns = .absent then 0 else 1 } } ++
  (match question with
    | some question => question.encode
    | none => []) ++
  (match answer with
    | some (address, ttl) => encodeAnswer address ttl
    | none => []) ++
  (match edns with
    | .present dnssecOk cookie => encodeOpt code dnssecOk cookie
    | .absent => [])

/-- Builds a header-only error when the rest of the request cannot be trusted. -/
def Header.errorReply (header : Header) (code : HeaderResponseCode) : List UInt8 :=
  makeReply header none code.asResponse false .absent none

/-- FORMERR for a query whose question or header could be read. -/
def ReplyContext.formatReply (context : ReplyContext) : List UInt8 :=
  if context.edns.isNone then context.header.errorReply HeaderResponseCode.formatError
  else makeReply context.header context.question .formatError false
    (generatedOpt context.edns) none

/-- The reply to a message that does not parse, if it gets one. -/
def ParseFailure.formatReply (failure : ParseFailure) : Option (List UInt8) :=
  failure.context.map ReplyContext.formatReply

namespace Packet

/-- The query supplied a Server Cookie: its COOKIE is longer than a Client Cookie. -/
def suppliesServerCookie (p : Packet) : Bool :=
  (Cookie.responseCookie p).any fun cookie => cookie.length > 8

/-- Answers a validated local IN query. -/
def localAReply (p : Packet) (address : Ipv4Addr) (ttl : UInt32) : Option (List UInt8) :=
  if p.suppliesServerCookie then none
  else
    match p.questions.head? with
    | none => none
    | some question =>
      let code := if question.class_ = .in then ResponseCode.noError else ResponseCode.refused
      let answer :=
        if question.class_ = .in ∧ (question.kind = .a ∨ question.kind = .any) then
          some (address, ttl)
        else none
      some (makeReply p.header (some question) code false (generatedOpt p.edns) answer)

/-- Builds an error preserving a parsed question and valid OPT presence and DO bit. -/
def errorReply (p : Packet) (code : ResponseCode) : List UInt8 :=
  makeReply p.header p.questions.head? code false (generatedOpt p.edns) none

/-- The error reply, suppressed when the client supplied a Server Cookie. -/
def localErrorReply (p : Packet) (code : ResponseCode) : Option (List UInt8) :=
  if p.suppliesServerCookie then none else some (p.errorReply code)

/-- A complete minimal response with TC. -/
def truncatedReply (p : Packet) (response : Response) : List UInt8 :=
  let opt :=
    match generatedOpt p.edns with
    | .present dnssecOk _ => .present dnssecOk (Cookie.responseCookie response.packet)
    | .absent => .absent
  makeReply p.header p.questions.head? response.responseCode true opt none

end Packet

/-- The exact outgoing bytes and their metadata travel together, including retries. -/
structure SentQuery where
  packet : Packet
  cookieRequired : Bool
  deriving DecidableEq, Repr

namespace SentQuery

/-- The bytes that are sent. -/
def wire (s : SentQuery) : List UInt8 := s.packet.wire

/-- Whether a truncated datagram answers this query. -/
def matchesTruncated (s : SentQuery) (wire : List UInt8) : Bool :=
  Dns.matchesTruncated s.packet wire s.packet.header.id

/-- The response, if it answers this query. -/
def validateResponse (s : SentQuery) (response : Packet) : Option Response :=
  match s.packet.validateQuery with
  | .forward query =>
    if response.isTruncated || !response.correspondsTo query s.packet.header.id ||
        !Cookie.validResponse s.packet response s.cookieRequired then none
    else some ⟨response⟩
  | _ => none

/-- What to do about the cookies of a response to this query. -/
def serverCookieRetry (s : SentQuery) (response : Response) : ServerCookieRetry :=
  Cookie.retry s.packet response.packet

/-- A retry requires COOKIE after this endpoint has demonstrated support. The modified
bytes are parsed again. -/
def retry (_s : SentQuery) (wire : List UInt8) (id : TransactionId) :
    Except ParseError SentQuery :=
  match Packet.parse (setId wire id) with
  | .error e => .error e
  | .ok packet => .ok { packet := packet, cookieRequired := true }

end SentQuery

namespace Query

/-- The reply with one A record. -/
def localAReply (q : Query) (address : Ipv4Addr) (ttl : UInt32) : Option (List UInt8) :=
  q.packet.localAReply address ttl

/-- The reply with this response code and nothing else. -/
def errorReply (q : Query) (code : ResponseCode) : Option (List UInt8) :=
  q.packet.localErrorReply code

/-- The reply that sends the client to TCP. -/
def truncatedReply (q : Query) (response : Response) : List UInt8 :=
  q.packet.truncatedReply response

/-- The query as it goes to an upstream server, under a fresh transaction ID. -/
def sent (q : Query) (id : TransactionId) : SentQuery :=
  { packet := { q.packet with
      header := { q.packet.header with id := id }
      wire := q.withId id }
    cookieRequired := false }

end Query

end Sederial.Dns
