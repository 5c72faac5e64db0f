import Sederial.Dns.Cookie
import Sederial.Lib.Run

/-!
# `Sederial.Dns.Parser`: structural validation of untrusted messages

The model of `src/dns/parser.rs`. `Reader` is the checked cursor into one message: a
computation that moves a cursor or fails. The message itself is an argument, because
compression offsets use the full message.

`parseInner` fills in a reply context through a mutable reference while it runs, and the
caller reads that context after a failure. It is a `Run` over the context for this reason.
The local variables that its record loop carries are the fields of `Walk`.
-/

set_option autoImplicit false

namespace Sederial.Dns

open Sederial.Lib

/-- The reply fields a partially parsed request has established. -/
structure ReplyContext where
  header : Header
  question : Option Question
  edns : Option Edns
  deriving DecidableEq, Repr

/-- Parsing failed, but the parser may have established safe local reply fields. -/
structure ParseFailure where
  error : ParseError
  context : Option ReplyContext
  deriving DecidableEq, Repr

/-- CLASS on an ordinary record, or the UDP payload size on OPT. -/
inductive ClassField where
  | dns (class_ : RecordClass)
  | udpPayload (size : UInt16)
  deriving DecidableEq, Repr

/-- A record envelope: its data is the range from `dataStart` to `dataEnd`. -/
structure ResourceRecord where
  owner : DomainName
  kind : RecordType
  class_ : ClassField
  ttl : UInt32
  dataStart : Nat
  dataEnd : Nat
  deriving DecidableEq, Repr

/-- RDLENGTH. -/
def ResourceRecord.dataLen (r : ResourceRecord) : Nat := r.dataEnd - r.dataStart

/-- A checked cursor into one message. -/
abbrev Reader : Type → Type := StateT Nat (Except ParseError)

namespace Reader

/-- Reads this many bytes. -/
def take (wire : List UInt8) (length : Nat) : Reader (List UInt8) := fun cursor =>
  match slice wire cursor (cursor + length) with
  | none => .error .unexpectedEnd
  | some bytes => .ok (bytes, cursor + length)

/-- Reads 16 bits. -/
def word (wire : List UInt8) : Reader UInt16 := do
  let bytes ← take wire 2
  return Lib.word (bytes.getD 0 0) (bytes.getD 1 0)

/-- Reads 32 bits. -/
def doubleWord (wire : List UInt8) : Reader UInt32 := do
  let bytes ← take wire 4
  return Lib.doubleWord (bytes.getD 0 0) (bytes.getD 1 0) (bytes.getD 2 0) (bytes.getD 3 0)

/-- Reads a domain name. -/
def name (wire : List UInt8) : Reader DomainName := fun cursor => DomainName.decode wire cursor

/-- Reads a question. -/
def question (wire : List UInt8) : Reader Question := do
  let name ← name wire
  let kind ← word wire
  let class_ ← word wire
  return { name, kind := RecordType.fromWire kind, class_ := RecordClass.fromWire class_ }

/-- Reads a record envelope. Its data is not read yet and may lie outside the message. -/
def resourceRecord (wire : List UInt8) : Reader ResourceRecord := do
  let owner ← name wire
  let kind := RecordType.fromWire (← word wire)
  let classWire ← word wire
  -- OPT stores the UDP payload size in the CLASS slot.
  let class_ :=
    if kind = .opt then ClassField.udpPayload classWire
    else ClassField.dns (RecordClass.fromWire classWire)
  let ttl ← doubleWord wire
  let dataLength ← word wire
  let dataStart ← get
  return { owner, kind, class_, ttl, dataStart, dataEnd := dataStart + dataLength.toNat }

end Reader

/-- A successful `take` moves the cursor by the length and stays in the message. -/
theorem Reader.take_ok {wire bytes : List UInt8} {length cursor next : Nat}
    (h : Reader.take wire length cursor = .ok (bytes, next)) :
    slice wire cursor (cursor + length) = some bytes ∧ next = cursor + length ∧
      next ≤ wire.length := by
  unfold Reader.take at h
  split at h
  · cases h
  · rename_i hslice
    cases h
    refine ⟨hslice, rfl, ?_⟩
    unfold slice at hslice
    split at hslice
    · rename_i hle
      exact hle.2
    · cases hslice

/-- A successful `word` is a successful `take` of two bytes. -/
theorem Reader.word_ok {wire : List UInt8} {n : UInt16} {cursor next : Nat}
    (h : Reader.word wire cursor = .ok (n, next)) :
    ∃ bytes, Reader.take wire 2 cursor = .ok (bytes, next) ∧
      n = Lib.word (bytes.getD 0 0) (bytes.getD 1 0) := by
  obtain ⟨bytes, next', htake, h⟩ := stateT_bind_eq_ok.mp h
  cases h
  exact ⟨bytes, htake, rfl⟩

/-- The loop of `validate_options` over the option bytes, entered at `cursor`. -/
def validateOptionsFrom (bytes : List UInt8) (cursor : Nat) : Except ParseError Unit :=
  if cursor < bytes.length then
    match _hcode : Reader.word bytes cursor with
    | .error _ => .error .invalidEdns
    | .ok (_, afterCode) =>
      match _hlength : Reader.word bytes afterCode with
      | .error _ => .error .invalidEdns
      | .ok (length, afterLength) =>
        match _htake : Reader.take bytes length.toNat afterLength with
        | .error _ => .error .invalidEdns
        | .ok (_, next) => validateOptionsFrom bytes next
  else .ok ()
termination_by bytes.length - cursor
decreasing_by
  obtain ⟨_, hc, -⟩ := Reader.word_ok _hcode
  obtain ⟨_, hl, -⟩ := Reader.word_ok _hlength
  have hc := Reader.take_ok hc
  have hl := Reader.take_ok hl
  have ht := Reader.take_ok _htake
  omega

/-- Checks option framing without assigning semantics to unknown option codes. -/
def validateOptions (bytes : List UInt8) : Except ParseError Unit :=
  validateOptionsFrom bytes 0

/-- The TXT loop of `validate_data`: character-strings until the end of the data. -/
def characterStrings (wire : List UInt8) (dataEnd cursor : Nat) : Except ParseError Nat :=
  if cursor < dataEnd then
    match _hlength : Reader.take wire 1 cursor with
    | .error e => .error e
    | .ok (bytes, afterLength) =>
      match _htake : Reader.take wire (bytes.getD 0 0).toNat afterLength with
      | .error e => .error e
      | .ok (_, next) => characterStrings wire dataEnd next
  else .ok cursor
termination_by dataEnd - cursor
decreasing_by
  have hl := Reader.take_ok _hlength
  have ht := Reader.take_ok _htake
  omega

/-- Reads the data of a known record type from the full message, and returns the cursor
after it. Unknown layouts are opaque and end where the envelope says. -/
def readData (wire : List UInt8) (record : ResourceRecord) (class_ : RecordClass) :
    Except ParseError Nat :=
  let reader : Reader Unit :=
    match record.kind with
    | .a => if class_ = .in then discard (Reader.take wire 4) else set record.dataEnd
    | .aaaa => if class_ = .in then discard (Reader.take wire 16) else set record.dataEnd
    | .ns | .cname | .ptr => discard (Reader.name wire)
    | .mx => do
      discard (Reader.word wire)
      discard (Reader.name wire)
    | .soa => do
      discard (Reader.name wire)
      discard (Reader.name wire)
      discard (Reader.take wire 20)
    | .srv => do
      discard (Reader.take wire 6)
      discard (Reader.name wire)
    | .txt => fun cursor =>
      if record.dataStart = record.dataEnd then .error .invalidRecord
      else (characterStrings wire record.dataEnd cursor).map fun c => ((), c)
    | _ => set record.dataEnd
  (reader record.dataStart).map Prod.snd

/-- Checks known RDATA layouts and requires their encoded length to match RDLENGTH. -/
def validateData (wire : List UInt8) (record : ResourceRecord) : Except ParseError Unit :=
  match record.class_ with
  | .udpPayload _ => .error .invalidRecord
  | .dns class_ =>
    match readData wire record class_ with
    | .error e => .error e
    | .ok cursor => if cursor ≠ record.dataEnd then .error .invalidRecord else .ok ()

/-- The local variables of `parse_inner` that its record loop carries. -/
@[ext] structure Walk where
  cursor : Nat
  edns : Option Edns
  cookie : Option CookieField
  authenticated : Bool
  deriving DecidableEq, Repr

/-- The OPT view of a record's CLASS and TTL fields. -/
def Edns.ofRecord (udpSize : UInt16) (ttl : UInt32) : Edns :=
  { udpSize := udpSize
    version := (ttl >>> ednsVersionShift).toUInt8
    extendedRcode := (ttl >>> extendedRcodeShift).toUInt8
    dnssecOk := ttl &&& doMask ≠ 0 }

/-- A record that authenticates a transaction. -/
def authenticates (section_ : RecordSection) (kind : RecordType) : Bool :=
  kind = .tsig || kind = .tkey || (section_ = .additional && kind = .sig)

/-- The OPT branch of the record loop: `cursor` stands at the start of the data. -/
def parseOpt (wire : List UInt8) (section_ : RecordSection) (walk : Walk)
    (record : ResourceRecord) (cursor : Nat) : Run (Option ReplyContext) ParseError Walk :=
  if section_ ≠ .additional ∨ walk.edns.isSome ∨ record.owner.labelCount ≠ 0 then
    throw .invalidEdns
  else
    match record.class_ with
    | .dns _ => throw .invalidEdns
    | .udpPayload udpSize => do
      let edns := Edns.ofRecord udpSize record.ttl
      modify (Option.map fun context => { context with edns := some edns })
      let (data, cursor) ← Run.ofExcept
        ((Reader.take wire record.dataLen cursor).mapError fun _ => .invalidEdns)
      Run.ofExcept (validateOptions data)
      pure { walk with
        cursor := cursor
        edns := some edns
        cookie := Cookie.locate wire record.dataStart record.dataLen }

/-- The branch of the record loop for every other record. -/
def parseData (wire : List UInt8) (walk : Walk) (record : ResourceRecord) (cursor : Nat) :
    Run (Option ReplyContext) ParseError Walk := do
  let (_, cursor) ← Run.ofExcept (Reader.take wire record.dataLen cursor)
  Run.ofExcept (validateData wire record)
  pure { walk with cursor := cursor }

/-- One iteration of the record loop of `parse_inner`. -/
def parseRecord (wire : List UInt8) (section_ : RecordSection) (walk : Walk) :
    Run (Option ReplyContext) ParseError Walk := do
  let (record, cursor) ← Run.ofExcept (Reader.resourceRecord wire walk.cursor)
  let walk ← (if record.kind = .opt then parseOpt wire section_ walk record cursor
    else parseData wire walk record cursor)
  return { walk with authenticated := walk.authenticated || authenticates section_ record.kind }

/-- The inner record loop of `parse_inner`: `count` records of one section. -/
def parseSection (wire : List UInt8) (section_ : RecordSection) :
    Nat → Walk → Run (Option ReplyContext) ParseError Walk
  | 0, walk => pure walk
  | count + 1, walk => do
    let walk ← parseRecord wire section_ walk
    parseSection wire section_ count walk

/-- The outer record loop of `parse_inner`. -/
def parseSections (wire : List UInt8) :
    List (RecordSection × UInt16) → Walk → Run (Option ReplyContext) ParseError Walk
  | [], walk => pure walk
  | (section_, count) :: rest, walk => do
    let walk ← parseSection wire section_ count.toNat walk
    parseSections wire rest walk

/-- The question loop of `parse_inner`. -/
def parseQuestions (wire : List UInt8) : Nat → Reader (List Question)
  | 0 => pure []
  | count + 1 => do
    let question ← Reader.question wire
    let rest ← parseQuestions wire count
    return question :: rest

/-- The bytes of a question behind its name. -/
def questionFixedLength : Nat := 4

/-- The bytes of a record between its name and its data. -/
def recordFixedLength : Nat := 10

/-- The parser. Its state is the context for a FORMERR reply, as far as it is known. -/
def parseInner (wire : List UInt8) : Run (Option ReplyContext) ParseError Packet := do
  Run.failIf (wire.length > maxMessageLength) .oversizedMessage
  let header ← Run.ofExcept (Header.parse wire)
  modify fun context =>
    if header.messageType = .query then some { header := header, question := none, edns := none }
    else context
  let questionCount := header.counts.questions.toNat
  Run.failIf (questionCount > 1 ∧ header.opcode = .query) .invalidCount
  let recordCount := (header.counts.recordSections.map fun (_, count) => count.toNat).sum
  Run.failIf (questionCount * (questionFixedLength + 1) + recordCount * (recordFixedLength + 1)
    > wire.length - headerLength) .invalidCount
  let (questions, cursor) ← Run.ofExcept (parseQuestions wire questionCount headerLength)
  modify (Option.map fun context => { context with question := questions.head? })
  let walk ← parseSections wire header.counts.recordSections
    { cursor := cursor, edns := none, cookie := none, authenticated := false }
  Run.failIf (walk.cursor ≠ wire.length) .trailingData
  return {
    wire := wire
    header := header
    questions := questions
    edns := walk.edns
    authenticated := walk.authenticated
    cookie := walk.cookie }

/-- Checks section bounds and record structure before retaining the original packet. -/
def parse (wire : List UInt8) : Except ParseFailure Packet :=
  match (parseInner wire).exec none with
  | (.ok packet, _) => .ok packet
  | (.error error, context) =>
    -- Only an OPT processing failure permits these partial metadata to be used.
    .error {
      error := error
      context :=
        if error ≠ .invalidEdns then
          context.map fun context => { context with question := none, edns := none }
        else context }

namespace Packet

/-- `Packet::parse_for_reply`. -/
def parseForReply (wire : List UInt8) : Except ParseFailure Packet := Dns.parse wire

/-- Validates a complete message and retains its original bytes. -/
def parse (wire : List UInt8) : Except ParseError Packet :=
  match parseForReply wire with
  | .ok packet => .ok packet
  | .error failure => .error failure.error

end Packet

/-- A TC datagram may end inside a record. Only its complete header and question are used
to authorise a TCP retry. -/
def matchesTruncated (query : Packet) (wire : List UInt8) (id : TransactionId) : Bool :=
  match Header.parse wire with
  | .error _ => false
  | .ok header =>
    if !header.truncated ∨ header.id ≠ id ∨ header.messageType ≠ .response ∨
        header.opcode ≠ query.header.opcode ∨ header.counts.questions ≠ 1 then false
    else
      match Reader.question wire headerLength with
      | .error _ => false
      | .ok (question, _) => query.questions == [question]

end Sederial.Dns
