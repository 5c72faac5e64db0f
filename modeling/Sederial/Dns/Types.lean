import Sederial.Lib.Bytes

/-!
# `Sederial.Dns.Types`: DNS field values

The enumerations of `src/dns/types.rs` and the structural errors of `src/dns/error.rs`.
Each enumeration has a variant per code the service recognises and an `unknown` variant
that keeps the numeric value, so that unknown codes pass through the forwarder.

The limits of `src/dns.rs` stand at the end.
-/

set_option autoImplicit false

namespace Sederial.Dns

/-- Identifies one exchange. Client and upstream IDs have separate lifetimes. -/
structure TransactionId where
  value : UInt16
  deriving DecidableEq, Repr

/-- The header QR bit. -/
inductive MessageType where
  | query
  | response
  deriving DecidableEq, Repr

/-- Header operation code. Only standard queries are forwarded. -/
inductive Opcode where
  | query
  | iQuery
  | status
  | notify
  | update
  | unknown (n : UInt8)
  deriving DecidableEq, Repr

/-- The opcode of four bits of the flags. -/
def Opcode.fromWire (value : UInt8) : Opcode :=
  if value = 0 then .query
  else if value = 1 then .iQuery
  else if value = 2 then .status
  else if value = 4 then .notify
  else if value = 5 then .update
  else .unknown value

/-- Combined header and EDNS response code. -/
inductive ResponseCode where
  | noError
  | formatError
  | serverFailure
  | nameError
  | notImplemented
  | refused
  | badVersion
  | badCookie
  | unknown (n : UInt16)
  deriving DecidableEq, Repr

/-- The response code of its twelve bits. -/
def ResponseCode.fromWire (value : UInt16) : ResponseCode :=
  if value = 0 then .noError
  else if value = 1 then .formatError
  else if value = 2 then .serverFailure
  else if value = 3 then .nameError
  else if value = 4 then .notImplemented
  else if value = 5 then .refused
  else if value = 16 then .badVersion
  else if value = 23 then .badCookie
  else .unknown value

/-- The twelve bits of a response code. -/
def ResponseCode.wire : ResponseCode → UInt16
  | .noError => 0
  | .formatError => 1
  | .serverFailure => 2
  | .nameError => 3
  | .notImplemented => 4
  | .refused => 5
  | .badVersion => 16
  | .badCookie => 23
  | .unknown n => n

/-- A response code that fits in the header RCODE nibble. -/
structure HeaderResponseCode where
  value : UInt8
  deriving DecidableEq, Repr

namespace HeaderResponseCode

/-- FORMERR. -/
def formatError : HeaderResponseCode := ⟨1⟩

/-- A code of the header alone is a response code without extended bits. -/
def asResponse (code : HeaderResponseCode) : ResponseCode :=
  ResponseCode.fromWire code.value.toUInt16

end HeaderResponseCode

/-- Question or record type. -/
inductive RecordType where
  | a
  | ns
  | cname
  | soa
  | ptr
  | mx
  | txt
  | aaaa
  | srv
  | opt
  | sig
  | tkey
  | tsig
  | ixfr
  | axfr
  | any
  | unknown (n : UInt16)
  deriving DecidableEq, Repr

/-- The record type of its number. -/
def RecordType.fromWire (value : UInt16) : RecordType :=
  if value = 1 then .a
  else if value = 2 then .ns
  else if value = 5 then .cname
  else if value = 6 then .soa
  else if value = 12 then .ptr
  else if value = 15 then .mx
  else if value = 16 then .txt
  else if value = 24 then .sig
  else if value = 28 then .aaaa
  else if value = 33 then .srv
  else if value = 41 then .opt
  else if value = 249 then .tkey
  else if value = 250 then .tsig
  else if value = 251 then .ixfr
  else if value = 252 then .axfr
  else if value = 255 then .any
  else .unknown value

/-- The number of a record type. -/
def RecordType.wire : RecordType → UInt16
  | .a => 1
  | .ns => 2
  | .cname => 5
  | .soa => 6
  | .ptr => 12
  | .mx => 15
  | .txt => 16
  | .sig => 24
  | .aaaa => 28
  | .srv => 33
  | .opt => 41
  | .tkey => 249
  | .tsig => 250
  | .ixfr => 251
  | .axfr => 252
  | .any => 255
  | .unknown n => n

/-- Question or record class. -/
inductive RecordClass where
  | in
  | ch
  | hs
  | unknown (n : UInt16)
  deriving DecidableEq, Repr

/-- The record class of its number. -/
def RecordClass.fromWire (value : UInt16) : RecordClass :=
  if value = 1 then .in
  else if value = 3 then .ch
  else if value = 4 then .hs
  else .unknown value

/-- The number of a record class. -/
def RecordClass.wire : RecordClass → UInt16
  | .in => 1
  | .ch => 3
  | .hs => 4
  | .unknown n => n

/-- Failure to decode a bounded message or configuration name. -/
inductive ParseError where
  | unexpectedEnd
  | oversizedMessage
  | invalidLabel
  | nameTooLong
  | invalidPointer
  | compressionLoop
  | compressionDepth
  | invalidCount
  | invalidRecord
  | invalidEdns
  | trailingData
  deriving DecidableEq, Repr

/-- The message of an error, which names no byte of a packet. -/
def ParseError.message : ParseError → String
  | .unexpectedEnd => "truncated DNS field"
  | .oversizedMessage => "DNS message exceeds 65535 bytes"
  | .invalidLabel => "invalid DNS label encoding"
  | .nameTooLong => "DNS name exceeds 255 wire bytes"
  | .invalidPointer => "invalid DNS compression pointer"
  | .compressionLoop => "DNS compression pointer cycle"
  | .compressionDepth => "DNS compression chain exceeds 128 pointers"
  | .invalidCount => "DNS section count cannot fit in message"
  | .invalidRecord => "invalid DNS resource record data"
  | .invalidEdns => "invalid, misplaced or duplicate OPT record"
  | .trailingData => "trailing bytes after DNS sections"

/-- The length of the fixed header. -/
def headerLength : Nat := 12

/-- The length of the longest message. -/
def maxMessageLength : Nat := 65535

/-- The longest message over UDP for a client without EDNS. -/
def classicUdpLength : Nat := 512

/-- The UDP size that the server announces. -/
def serverUdpLength : Nat := 1232

end Sederial.Dns
