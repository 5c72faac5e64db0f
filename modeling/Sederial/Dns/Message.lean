import Sederial.Dns.Name

/-!
# `Sederial.Dns.Message`: parsed messages and query policy

The model of `src/dns/message.rs` up to the point where a packet becomes a `Query`. The
cookie slot of `src/dns/cookie.rs` is declared here because a `Packet` holds one.

A `Query` borrows from an immutable packet in the source. Here it is the packet together
with its question, so `Query.packet` is the whole of what the source's view can reach.
-/

set_option autoImplicit false

namespace Sederial.Dns

open Sederial.Lib

/-- QR: the message is a response. -/
def qrMask : UInt16 := 0x8000

/-- The four bits of the opcode. -/
def opcodeMask : UInt16 := 0x7800

/-- Where the opcode starts. -/
def opcodeShift : UInt16 := 11

/-- TC: the message is truncated. -/
def tcMask : UInt16 := 0x0200

/-- RD: recursion is desired. -/
def rdMask : UInt16 := 0x0100

/-- RA: recursion is available. -/
def raMask : UInt16 := 0x0080

/-- CD: checking is disabled. -/
def cdMask : UInt16 := 0x0010

/-- The four low bits of the response code. -/
def rcodeMask : UInt16 := 0x000f

/-- DO, in the TTL of the OPT record. -/
def doMask : UInt32 := 0x8000

/-- Where the EDNS version starts in the TTL of the OPT record. -/
def ednsVersionShift : UInt32 := 16

/-- Where the high bits of the response code start in the TTL of the OPT record. -/
def extendedRcodeShift : UInt32 := 24

/-- Header section counts, in wire order. -/
structure SectionCounts where
  questions : UInt16
  answers : UInt16
  authorities : UInt16
  additionals : UInt16
  deriving DecidableEq, Repr

/-- Resource-record sections. -/
inductive RecordSection where
  | answer
  | authority
  | additional
  deriving DecidableEq, Repr

/-- The record sections in their physical order, each with its record count. -/
def SectionCounts.recordSections (counts : SectionCounts) : List (RecordSection × UInt16) :=
  [(.answer, counts.answers), (.authority, counts.authorities),
    (.additional, counts.additionals)]

/-- Decoded fixed header. -/
structure Header where
  id : TransactionId
  flags : UInt16
  counts : SectionCounts
  deriving DecidableEq, Repr

namespace Header

/-- Reads only the fixed header, even if the remaining message is malformed. -/
def parse (wire : List UInt8) : Except ParseError Header :=
  if wire.length < headerLength then .error .unexpectedEnd
  else
    -- The length check keeps every one of these reads in bounds.
    let word := fun i => (wordAt wire i).getD 0
    .ok {
      id := ⟨word 0⟩
      flags := word 2
      counts := {
        questions := word 4
        answers := word 6
        authorities := word 8
        additionals := word 10 } }

/-- Query or response, by QR. -/
def messageType (header : Header) : MessageType :=
  if header.flags &&& qrMask = 0 then .query else .response

/-- The operation that the flags name. -/
def opcode (header : Header) : Opcode :=
  Opcode.fromWire ((header.flags &&& opcodeMask) >>> opcodeShift).toUInt8

/-- TC. -/
def truncated (header : Header) : Bool := header.flags &&& tcMask ≠ 0

/-- The twelve bytes of the header. -/
def encode (header : Header) : List UInt8 :=
  wordBytes header.id.value ++ wordBytes header.flags ++
    wordBytes header.counts.questions ++ wordBytes header.counts.answers ++
    wordBytes header.counts.authorities ++ wordBytes header.counts.additionals

end Header

/-- Query identity: name, record type and class. -/
structure Question where
  name : DomainName
  kind : RecordType
  class_ : RecordClass
  deriving DecidableEq, Repr

namespace Question

/-- The derived `PartialEq`: the name ignores ASCII case, type and class are compared as
values. -/
instance : BEq Question where
  beq a b := a.name == b.name && decide (a.kind = b.kind) && decide (a.class_ = b.class_)

/-- The bytes of a question, with its name in full. -/
def encode (question : Question) : List UInt8 :=
  question.name.encode ++ wordBytes question.kind.wire ++ wordBytes question.class_.wire

end Question

/-- OPT metadata needed for version checks, reply sizing and generated replies. -/
structure Edns where
  udpSize : UInt16
  version : UInt8
  extendedRcode : UInt8
  dnssecOk : Bool
  deriving DecidableEq, Repr

/-- Where the COOKIE option of a message stands: the offsets of the option length, of the
option data and of the OPT RDLENGTH, and the data length. -/
structure CookieSlot where
  lengthAt : Nat
  dataAt : Nat
  dataLen : Nat
  rdlengthAt : Nat
  deriving DecidableEq, Repr

/-- The COOKIE option of a message that has one. -/
inductive CookieField where
  | present (slot : CookieSlot)
  | malformed
  deriving DecidableEq, Repr

/-- The original wire bytes and the decoded fields needed by policy. -/
structure Packet where
  wire : List UInt8
  header : Header
  questions : List Question
  edns : Option Edns
  authenticated : Bool
  cookie : Option CookieField
  deriving DecidableEq, Repr

/-- A supported single-question query, borrowed from a parsed packet. -/
structure Query where
  packet : Packet
  question : Question
  deriving DecidableEq, Repr

/-- Outcome of `Packet.validateQuery`. -/
inductive QueryDecision where
  | forward (query : Query)
  | reject (code : ResponseCode)
  | ignore
  deriving DecidableEq, Repr

/-- `wire[..2].copy_from_slice(&id.to_be_bytes())` on a message of at least two bytes. -/
def setId (wire : List UInt8) (id : TransactionId) : List UInt8 :=
  overwrite wire 0 (wordBytes id.value)

namespace Packet

/-- TC of the message. -/
def isTruncated (p : Packet) : Bool := p.header.truncated

/-- Copies the original message and rewrites only its two-byte transaction ID. -/
def withId (p : Packet) (id : TransactionId) : List UInt8 := setId p.wire id

/-- Combines the header's low four bits with an optional EDNS extended code. -/
def responseCode (p : Packet) : ResponseCode :=
  let extended : UInt16 :=
    match p.edns with
    | none => 0
    | some opt => opt.extendedRcode.toUInt16 <<< 4
  ResponseCode.fromWire (extended ||| (p.header.flags &&& rcodeMask))

/-- Applies the classic lower bound and local EDNS ceiling to client capacity. -/
def udpLimit (p : Packet) : Nat :=
  match p.edns with
  | none => classicUdpLength
  | some opt => max classicUdpLength (min opt.udpSize.toNat serverUdpLength)

/-- Record types the service refuses to be asked for. -/
def refusedQuestionType : RecordType → Bool
  | .axfr | .ixfr | .tkey | .tsig | .opt => true
  | _ => false

/-- Classifies a parsed packet as forwardable, rejectable, or silent. -/
def validateQuery (p : Packet) : QueryDecision :=
  if p.header.messageType ≠ .query then .ignore
  else if p.header.opcode ≠ .query then .reject .notImplemented
  else if p.questions.length ≠ 1 ∨ p.header.truncated ∨ p.responseCode ≠ .noError ∨
      p.header.counts.answers ≠ 0 ∨ p.header.counts.authorities ≠ 0 then
    .reject .formatError
  else if p.cookie = some .malformed then .reject .formatError
  else if p.edns.any (fun opt => opt.version ≠ 0) then .reject .badVersion
  else
    match p.questions with
    | question :: _ =>
      if p.authenticated ∨ refusedQuestionType question.kind then .reject .refused
      else .forward { packet := p, question := question }
    -- The question count was checked to be one above.
    | [] => .reject .formatError

/-- Checks response identity and supported metadata against one upstream attempt. -/
def correspondsTo (p : Packet) (query : Query) (expected : TransactionId) : Bool :=
  let query := query.packet
  decide (p.header.messageType = .response) &&
    decide (p.header.id = expected) &&
    decide (p.header.opcode = query.header.opcode) &&
    (p.questions == query.questions) &&
    p.edns.all (fun opt => opt.version == 0) &&
    (query.edns.isSome || p.edns.isNone) &&
    !p.authenticated

end Packet

/-- A complete response correlated to the actual outgoing query. -/
structure Response where
  packet : Packet
  deriving DecidableEq, Repr

namespace Response

/-- The bytes of the response. -/
def wire (r : Response) : List UInt8 := r.packet.wire

/-- The response code with its extended bits. -/
def responseCode (r : Response) : ResponseCode := r.packet.responseCode

/-- The bytes of the response under another transaction ID. -/
def withId (r : Response) (id : TransactionId) : List UInt8 := r.packet.withId id

end Response

namespace Query

/-- The name that is asked for. -/
def name (q : Query) : DomainName := q.question.name

/-- The original client ID to restore after the upstream exchange. -/
def id (q : Query) : TransactionId := q.packet.header.id

/-- The bytes of the query under another transaction ID. -/
def withId (q : Query) (id : TransactionId) : List UInt8 := q.packet.withId id

/-- How many bytes a reply over UDP may have. -/
def udpLimit (q : Query) : Nat := q.packet.udpLimit

end Query

end Sederial.Dns
