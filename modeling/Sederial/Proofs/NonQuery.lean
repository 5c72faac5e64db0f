import Sederial.Proofs.FormatReply
import Sederial.Proofs.LocalAnswer

/-!
# `Sederial.Proofs.NonQuery`: operations other than QUERY

The service implements no operation but QUERY. Its policy for the others is NOTIMP, and the
policy is consulted after the whole message has been parsed. An UPDATE carries records with
RDLENGTH 0 (prerequisites and deletions), and such a record of a type with a known layout does
not parse, so the client gets FORMERR instead.

`NonQueryMessage` describes the messages in question by their envelopes alone. `needsData` are
the types and classes whose layout has no empty form (`needsData_iff`). `respond_nonQuery` says
that NOTIMP is the answer exactly when no record with RDLENGTH 0 is of such a type.
-/

set_option autoImplicit false

namespace Sederial.Dns

open Sederial.Lib

/-! ### Messages seen as envelopes -/

/-- A record envelope with its offsets. Its data is not looked at. -/
structure Envelope where
  start : Nat
  fixedAt : Nat
  kind : RecordType
  classWire : UInt16
  ttl : UInt32
  length : UInt16
  deriving DecidableEq, Repr

namespace Envelope

/-- The class of the record. -/
def class_ (v : Envelope) : RecordClass := RecordClass.fromWire v.classWire

/-- Where the data of the record starts. -/
def dataStart (v : Envelope) : Nat := v.fixedAt + 10

/-- Where the record ends. -/
def stop (v : Envelope) : Nat := v.dataStart + v.length.toNat

/-- The envelope of a record. -/
def of (v : RecordView) : Envelope where
  start := v.start
  fixedAt := v.fixedAt
  kind := v.kind
  classWire := v.classWire
  ttl := v.ttl
  length := v.length

/-- The record with this envelope and the given fields. -/
def record (v : Envelope) (section_ : RecordSection) (fields : List FieldView) : RecordView where
  section_ := section_
  start := v.start
  fixedAt := v.fixedAt
  kind := v.kind
  classWire := v.classWire
  ttl := v.ttl
  length := v.length
  fields := fields

end Envelope

/-- An envelope covers its record. -/
instance : Span Envelope := ⟨Envelope.start, Envelope.stop⟩

/-- The envelope stands in the message where it says, with its data. -/
structure EnvelopeIn (wire : List UInt8) (v : Envelope) : Prop where
  owner : ∃ labels, DecodesTo wire v.start labels v.fixedAt
  kind : (wordAt wire v.fixedAt).map RecordType.fromWire = some v.kind
  classWire : wordAt wire (v.fixedAt + 2) = some v.classWire
  ttl : doubleWordAt wire (v.fixedAt + 4) = some v.ttl
  length : wordAt wire (v.fixedAt + 8) = some v.length
  inside : v.stop ≤ wire.length

/-- The data of the record is well formed for its type and class. -/
def Envelope.WellFormed (wire : List UInt8) (v : Envelope) : Prop :=
  ∃ fields, FieldsAt wire v.dataStart fields v.stop ∧ DataLayout v.kind v.class_ fields

/-- A client message with an operation other than QUERY and no OPT record, whose questions
and record envelopes tile it. Every record that has data is well formed for its type. -/
structure NonQueryMessage (wire : List UInt8) (header : Header) (questions : List QuestionView)
    (records : List Envelope) : Prop where
  long : headerLength ≤ wire.length
  short : wire.length ≤ maxMessageLength
  headerAt : HeaderAt wire header
  query : header.messageType = .query
  opcode : header.opcode ≠ .query
  questionCount : questions.length = header.counts.questions.toNat
  recordCount : records.length = header.counts.sections.length
  tiles : ∃ m, Tiles (QuestionAt wire) headerLength questions m ∧
    Tiles (EnvelopeIn wire) m records wire.length
  noOpt : ∀ v ∈ records, v.kind ≠ .opt
  wellFormed : ∀ v ∈ records, v.length ≠ 0 → v.WellFormed wire

/-! ### Types whose data is never empty -/

/-- The layout of this type and class has no empty form. -/
def needsData (kind : RecordType) (class_ : RecordClass) : Bool :=
  match kind with
  | .a | .aaaa => class_ = .in
  | .ns | .cname | .ptr | .mx | .soa | .srv | .txt => true
  | _ => false

/-- Data of no byte has a layout exactly for the other types and classes. -/
theorem needsData_iff {wire : List UInt8} {p : Nat} {kind : RecordType} {class_ : RecordClass}
    (hkind : kind ≠ .opt) :
    needsData kind class_ = false ↔
      ∃ fields, FieldsAt wire p fields p ∧ DataLayout kind class_ fields := by
  have hunknown := @exists_unknownLayout wire p p (Nat.le_refl p)
  have hbytes : ∀ n fs, FieldsAt wire p (.bytes (n + 1) :: fs) p → False := by
    intro n fs h
    have hle := (FieldsAt.bytes_iff.mp h).le
    omega
  have hname : ∀ fs, FieldsAt wire p (.name :: fs) p → False := by
    intro fs h
    obtain ⟨labels, m, hdecodes, hrest⟩ := FieldsAt.name_iff.mp h
    have hlt := hdecodes.lt_end
    have hle := hrest.le
    omega
  have haddress : ∀ n, (∃ fields, FieldsAt wire p fields p ∧
      (if class_ = .in then fields = [.bytes (n + 1)] else UnknownLayout fields)) ↔
        class_ ≠ .in := by
    intro n
    by_cases hin : class_ = .in
    · simp only [if_pos hin, exists_eq_right]
      exact ⟨fun h => (hbytes n [] h).elim, fun h => absurd hin h⟩
    · simp only [if_neg hin]
      exact ⟨fun _ => hin, fun _ => hunknown⟩
  -- Known layouts start with a field that takes bytes. The unknown layout may have none.
  cases kind with
  | a => simpa [needsData, DataLayout] using (haddress 3).symm
  | aaaa => simpa [needsData, DataLayout] using (haddress 15).symm
  | ns => simpa [needsData, DataLayout] using hname []
  | cname => simpa [needsData, DataLayout] using hname []
  | ptr => simpa [needsData, DataLayout] using hname []
  | mx => simpa [needsData, DataLayout] using hbytes 1 _
  | soa => simpa [needsData, DataLayout] using hname _
  | srv => simpa [needsData, DataLayout] using hbytes 5 _
  | txt =>
      simp only [needsData, DataLayout, Bool.true_eq_false, false_iff]
      rintro ⟨fields, hfields, hne, hall⟩
      cases fields with
      | nil => exact hne rfl
      | cons f fs =>
          obtain rfl := hall f (by simp)
          obtain ⟨length, -, hrest⟩ := FieldsAt.string_iff.mp hfields
          have hle := hrest.le
          omega
  | opt => exact absurd rfl hkind
  | sig => exact ⟨fun _ => hunknown, fun _ => rfl⟩
  | tkey => exact ⟨fun _ => hunknown, fun _ => rfl⟩
  | tsig => exact ⟨fun _ => hunknown, fun _ => rfl⟩
  | ixfr => exact ⟨fun _ => hunknown, fun _ => rfl⟩
  | axfr => exact ⟨fun _ => hunknown, fun _ => rfl⟩
  | any => exact ⟨fun _ => hunknown, fun _ => rfl⟩
  | unknown n => exact ⟨fun _ => hunknown, fun _ => rfl⟩

/-- A record that is no OPT has a layout exactly when it has data that is well formed, or needs
none. -/
theorem Envelope.wellFormed_of_empty {wire : List UInt8} {v : Envelope} (hkind : v.kind ≠ .opt)
    (hempty : v.length = 0) : v.WellFormed wire ↔ needsData v.kind v.class_ = false := by
  have hstop : v.stop = v.dataStart := by
    rw [Envelope.stop, hempty]
    rfl
  unfold Envelope.WellFormed
  rw [hstop, ← needsData_iff hkind]

/-! ### Which of these messages parse -/

/-- A record has an envelope. -/
theorem RecordAt.envelopeIn {wire : List UInt8} {v : RecordView} (h : RecordAt wire v) :
    EnvelopeIn wire (Envelope.of v) := by
  obtain ⟨labels, howner, -⟩ := h.owner
  exact ⟨⟨labels, howner⟩, h.kind, h.classWire, h.ttl, h.length, h.inside⟩

/-- Records that tile a stretch have envelopes that do. -/
theorem tiles_envelopes {wire : List UInt8} {p e : Nat} {rs : List RecordView}
    (h : Tiles (RecordAt wire) p rs e) : Tiles (EnvelopeIn wire) p (rs.map Envelope.of) e := by
  induction h with
  | nil p => exact .nil p
  | cons head _ ih => exact .cons head.envelopeIn ih

/-- The message determines an envelope from its start. -/
theorem EnvelopeIn.unique {wire : List UInt8} {v v' : Envelope} (h : EnvelopeIn wire v)
    (h' : EnvelopeIn wire v') (hstart : v.start = v'.start) : v = v' := by
  obtain ⟨start, fixedAt, kind, classWire, ttl, length⟩ := v
  obtain ⟨start', fixedAt', kind', classWire', ttl', length'⟩ := v'
  obtain rfl : start = start' := hstart
  obtain ⟨⟨labels, howner⟩, hkind, hclass, httl, hlength, -⟩ := h
  obtain ⟨⟨labels', howner'⟩, hkind', hclass', httl', hlength', -⟩ := h'
  obtain ⟨-, rfl⟩ : labels = labels' ∧ fixedAt = fixedAt' := howner.unique howner'
  dsimp only at hkind hkind' hclass hclass' httl httl' hlength hlength'
  rw [hkind] at hkind'
  rw [hclass] at hclass'
  rw [httl] at httl'
  rw [hlength] at hlength'
  rw [Option.some.inj hkind', Option.some.inj hclass', Option.some.inj httl',
    Option.some.inj hlength']

/-- Envelopes whose data is well formed are records, in whatever sections. -/
theorem records_of_envelopes {wire : List UInt8} {p e : Nat} {vs : List Envelope}
    (h : Tiles (EnvelopeIn wire) p vs e) (hnoOpt : ∀ v ∈ vs, v.kind ≠ .opt)
    (hdata : ∀ v ∈ vs, v.WellFormed wire) (sections : List RecordSection)
    (hlength : vs.length = sections.length) :
    ∃ rs, Tiles (RecordAt wire) p rs e ∧ rs.map RecordView.section_ = sections ∧
      ∀ v ∈ rs, v.kind ≠ .opt := by
  induction h generalizing sections with
  | nil p =>
      obtain rfl := List.eq_nil_of_length_eq_zero hlength.symm
      exact ⟨[], .nil p, rfl, by simp⟩
  | @cons v vs e head _ ih =>
      -- The section of a record is not in the message: the counts of the header assign it.
      cases sections with
      | nil => simp at hlength
      | cons section_ sections =>
          obtain ⟨rs, hrs, hsections, hkinds⟩ := ih (fun u hu => hnoOpt u (by simp [hu]))
            (fun u hu => hdata u (by simp [hu])) sections (by simpa using hlength)
          have hkind := hnoOpt v (by simp)
          obtain ⟨fs, ⟨fields, hfields, rfl⟩, hlayout⟩ := hdata v (by simp)
          obtain ⟨labels, howner⟩ := head.owner
          -- The record has the offsets of the envelope and the fields of its data.
          have hrecord : RecordAt wire (v.record section_ fields) := {
            owner := ⟨labels, howner, fun hopt => absurd hopt hkind⟩
            kind := head.kind
            classWire := head.classWire
            ttl := head.ttl
            length := head.length
            inside := head.inside
            layout := hlayout
            data := hfields
            section_ := fun hopt => absurd hopt hkind }
          refine ⟨_ :: rs, .cons hrecord hrs, congrArg (section_ :: ·) hsections, fun u hu => ?_⟩
          rcases List.mem_cons.mp hu with rfl | hu
          · exact hkind
          · exact hkinds u hu

namespace NonQueryMessage

variable {wire : List UInt8} {header : Header} {questions : List QuestionView}
  {records : List Envelope}

/-- Such a message parses when all its data is well formed. It then has no OPT. -/
theorem parse_of_wellFormed (h : NonQueryMessage wire header questions records)
    (hdata : ∀ v ∈ records, v.WellFormed wire) :
    ∃ p, Packet.parse wire = .ok p ∧ p.header = header ∧ p.cookie = none := by
  obtain ⟨m, hquestions, hrecords⟩ := h.tiles
  obtain ⟨rs, hrs, hsections, hkinds⟩ :=
    records_of_envelopes hrecords h.noOpt hdata header.counts.sections h.recordCount
  -- Without an OPT there is no cookie, and no duplicate OPT to reject.
  have hnoOpt : rs.filter RecordView.isOpt = [] := by
    rw [List.filter_eq_nil_iff]
    intro v hv
    simpa [RecordView.isOpt] using hkinds v hv
  have hderives : Derives wire ⟨header, questions, rs⟩ := {
    long := h.long
    short := h.short
    header := h.headerAt
    single := fun hquery => absurd hquery h.opcode
    questionCount := h.questionCount
    sections := hsections
    tiles := ⟨m, hquestions, hrs⟩
    oneOpt := by simp [hnoOpt] }
  refine ⟨_, Packet.parse_eq_ok_iff.mpr ⟨_, hderives, rfl⟩, rfl, ?_⟩
  have hfind : rs.find? RecordView.isOpt = none := by
    rw [← List.head?_filter, hnoOpt]
    rfl
  show (rs.find? RecordView.isOpt).bind RecordView.cookie = none
  rw [hfind]
  rfl

/-- When such a message parses, all its data is well formed. -/
theorem wellFormed_of_parse (h : NonQueryMessage wire header questions records) {p : Packet}
    (hp : Packet.parse wire = .ok p) : ∀ v ∈ records, v.WellFormed wire := by
  obtain ⟨d, hd, rfl⟩ := Packet.parse_eq_ok_iff.mp hp
  obtain ⟨m, hquestions, hrecords⟩ := h.tiles
  obtain ⟨m', hquestions', hrecords'⟩ := hd.tiles
  have hheader : d.header = header := hd.header.unique h.headerAt
  have hcount : d.questions.length = questions.length := by
    rw [hd.questionCount, h.questionCount, hheader]
  obtain ⟨rfl, -⟩ := questions_lockstep hquestions' hquestions hcount fun i _ => rfl
  have hlength : records.length = (d.records.map Envelope.of).length := by
    rw [h.recordCount, List.length_map, ← hheader, ← hd.sections, List.length_map]
  -- Both tilings start behind the questions, so they are the same envelopes.
  have hsame : records = d.records.map Envelope.of :=
    hrecords.lockstep (tiles_envelopes hrecords') hlength fun a b _ ha hb => ha.unique hb
  intro v hv
  rw [hsame] at hv
  obtain ⟨r, hr, rfl⟩ := List.mem_map.mp hv
  have hat := hrecords'.forall_mem r hr
  exact ⟨_, ⟨r.fields, hat.data, rfl⟩, hat.layout⟩

/-- All data is well formed exactly when no record that needs data is without. -/
theorem wellFormed_iff (h : NonQueryMessage wire header questions records) :
    (∀ v ∈ records, v.WellFormed wire) ↔
      ∀ v ∈ records, v.length = 0 → needsData v.kind v.class_ = false := by
  constructor
  · intro hdata v hv hempty
    exact (Envelope.wellFormed_of_empty (h.noOpt v hv) hempty).mp (hdata v hv)
  · intro hneeds v hv
    -- A record with data is well formed by assumption, so only the empty ones decide.
    by_cases hempty : v.length = 0
    · exact (Envelope.wellFormed_of_empty (h.noOpt v hv) hempty).mpr (hneeds v hv hempty)
    · exact h.wellFormed v hv hempty

end NonQueryMessage

end Sederial.Dns

namespace Sederial

open Sederial.Lib
open Sederial.Dns (Header NonQueryMessage Envelope Packet QuestionView needsData)

namespace RequestHandler

variable {routing : RoutingTable} {wire reply : List UInt8} {transport : Transport}
  {request : Deadline} {s : Forwarder}

/-- The last step of the handler keeps the code and the opcode of a reply. -/
theorem finished_decodes {p : Packet} (h : Packet.parse reply = .ok p) (routing : RoutingTable) :
    ∃ p', Packet.parse (finished routing reply) = .ok p' ∧
      p'.responseCode = p.responseCode ∧ p'.header.opcode = p.header.opcode := by
  unfold finished
  split
  · exact ⟨p, h, rfl, rfl⟩
  · have hparse := (Packet.parsed_of_parse h).withoutRecursion
    rw [Packet.wire_of_parse h] at hparse
    refine ⟨_, hparse, ?_, ?_⟩
    · unfold Packet.responseCode
      rw [Dns.and_not_raMask _ (by decide)]
    · unfold Header.opcode
      rw [Dns.and_not_raMask _ (by decide)]

/-- The reply carries the opcode and says NOTIMP. -/
def NotImplementedReply (header : Header) (reply : List UInt8) : Prop :=
  ∃ p, Packet.parse reply = .ok p ∧ p.header.opcode = header.opcode ∧
    p.responseCode = .notImplemented

/-- A query with another operation that parses, and has no COOKIE, gets NOTIMP. -/
theorem respond_notImplemented {first second : Reading} {later : List Reading} {p : Packet}
    (hp : Packet.parse wire = .ok p) (hquery : p.header.messageType = .query)
    (hopcode : p.header.opcode ≠ .query) (hcookie : p.cookie = none)
    (hclock : s.env.clock = first :: second :: later)
    (hrunning : first.stop = false ∧ second.stop = false)
    (hintime : first.now < request.instant ∧ second.now < request.instant) :
    ∃ reply, ((respond routing wire transport request).exec s).1 = .ok reply ∧
      NotImplementedReply p.header reply := by
  -- The opcode is looked at before the questions and the OPT record.
  have hreject : p.validateQuery = .reject .notImplemented := by
    unfold Packet.validateQuery
    rw [if_neg (not_not_intro hquery), if_pos hopcode]
  have hmade : p.localErrorReply .notImplemented = some (p.errorReply .notImplemented) := by
    simp [Packet.localErrorReply, Packet.suppliesServerCookie, Dns.Cookie.responseCookie, hcookie]
  have hparsed : Packet.parse p.wire = .ok p := Packet.parsed_of_parse hp
  obtain ⟨-, r, hr, herror⟩ := Dns.errorReply_decodes hparsed (.inl hreject)
  obtain ⟨r', hr', hcode, hsame⟩ := finished_decodes hr routing
  refine ⟨finished routing (p.errorReply .notImplemented), ?_, r', hr', ?_, ?_⟩
  · rw [respond_exec_of_parse hp hquery (.inl ⟨_, hreject, hmade⟩) hclock hrunning hintime]
  · rw [hsame]
    -- The opcode is among the echoed flags.
    have hmask : (Dns.opcodeMask ||| Dns.rdMask ||| Dns.cdMask) &&& Dns.opcodeMask
        = Dns.opcodeMask := by decide
    have hflags := congrArg (· &&& Dns.opcodeMask) herror.echoed
    simp only [UInt16.and_assoc, hmask] at hflags
    unfold Header.opcode
    rw [hflags]
  · rw [hcode, herror.code]

/-- A reply to a message that does not parse says FORMERR. -/
theorem code_of_malformed {e : Dns.ParseError} {p : Packet} (hwire : Packet.parse wire = .error e)
    (h : ((respond routing wire transport request).exec s).1 = .ok reply)
    (hp : Packet.parse reply = .ok p) : p.responseCode = .formatError := by
  obtain ⟨-, new, -, inner, hlog, hreply⟩ := respond_logs (T := fun _ _ => True) routing wire
    transport request (fun _ => trivial) s fun _ _ => trivial
  obtain ⟨made, rfl, rfl⟩ := hreply reply h
  -- Every other reply belongs to a message that parses.
  rcases hlog.origin with hlocal | ⟨q, group, outcome, hchosen, -, -⟩
  · cases hlocal with
    | malformed parse hmade =>
      obtain ⟨-, hformat⟩ := Dns.formatReply_context parse
      obtain ⟨r, hr, hto⟩ := hformat _ hmade
      obtain ⟨r', hr', hcode, -⟩ := finished_decodes hr routing
      rw [hr'] at hp
      cases hp
      rw [hcode, hto.code]
    | rejected parse _ _ =>
      rw [hwire] at parse
      cases parse
    | answered parse _ _ _ =>
      rw [hwire] at parse
      cases parse
    | unmatched parse _ _ _ =>
      rw [hwire] at parse
      cases parse
  · have hparse := hchosen.parse
    rw [hwire] at hparse
    cases hparse

/-- Non-QUERY operations. Before its deadline the handler answers such a message with NOTIMP
exactly when no record without data is of a type and class that needs data. -/
theorem respond_nonQuery {header : Header} {questions : List QuestionView}
    {records : List Envelope} {first second : Reading} {later : List Reading}
    (h : NonQueryMessage wire header questions records)
    (hclock : s.env.clock = first :: second :: later)
    (hrunning : first.stop = false ∧ second.stop = false)
    (hintime : first.now < request.instant ∧ second.now < request.instant) :
    (∃ reply, ((respond routing wire transport request).exec s).1 = .ok reply ∧
        NotImplementedReply header reply) ↔
      ∀ v ∈ records, v.length = 0 → needsData v.kind v.class_ = false := by
  rw [← h.wellFormed_iff]
  constructor
  · rintro ⟨reply, hreply, p, hp, -, hcode⟩
    cases hparse : Packet.parse wire with
    | ok own => exact h.wellFormed_of_parse hparse
    | error e =>
      rw [code_of_malformed hparse hreply hp] at hcode
      cases hcode
  · intro hdata
    obtain ⟨p, hp, rfl, hcookie⟩ := h.parse_of_wellFormed hdata
    exact respond_notImplemented hp h.query h.opcode hcookie hclock hrunning hintime

/-- An UPDATE of the zone `.` that deletes the RRset of the given type: one record in class ANY
with RDLENGTH 0. -/
def deletion (kind : UInt8) : List UInt8 :=
  [0, 1, 0x28, 0, 0, 1, 0, 0, 0, 1, 0, 0, 0, 0, 6, 0, 1, 0, 0, kind, 0, 255, 0, 0, 0, 0, 0, 0]

/-- The header of a deletion: one zone, and one record to delete. -/
def deletionHeader : Header := ⟨⟨1⟩, 0x2800, ⟨1, 0, 1, 0⟩⟩

/-- The zone is the root. -/
def deletionZone : QuestionView := ⟨12, 13, ⟨⟨[]⟩, .soa, .in⟩⟩

/-- It deletes the record set of this type. -/
def deletionRecord (kind : UInt8) : Envelope :=
  ⟨17, 18, Dns.RecordType.fromWire (word 0 kind), 255, 0, 0⟩

/-- The deletion has the shape of an UPDATE, whatever its type. -/
theorem deletion_message {kind : UInt8} (hkind : Dns.RecordType.fromWire (word 0 kind) ≠ .opt) :
    NonQueryMessage (deletion kind) deletionHeader [deletionZone] [deletionRecord kind] where
  long := by
    show 12 ≤ 28
    decide
  short := by
    show 28 ≤ 65535
    decide
  headerAt := ⟨rfl, rfl, rfl, rfl, rfl, rfl⟩
  query := by decide
  opcode := by decide
  questionCount := rfl
  recordCount := rfl
  tiles := by
    have hzone : Dns.DecodesTo (deletion kind) 12 [] 13 := ⟨0, by decide, .root rfl, by decide⟩
    have howner : Dns.DecodesTo (deletion kind) 17 [] 18 := ⟨0, by decide, .root rfl, by decide⟩
    have hrecord : Dns.EnvelopeIn (deletion kind) (deletionRecord kind) :=
      ⟨⟨[], howner⟩, rfl, rfl, rfl, rfl, Nat.le_refl 28⟩
    refine ⟨17, tiles_cons_iff.mpr ⟨rfl, ⟨hzone, rfl, rfl⟩, tiles_nil_iff.mpr rfl⟩,
      tiles_cons_iff.mpr ⟨rfl, hrecord, tiles_nil_iff.mpr rfl⟩⟩
  noOpt := by simpa [deletionRecord] using hkind
  wellFormed := by
    intro v hv hdata
    rw [List.mem_singleton.mp hv] at hdata
    exact absurd rfl hdata

/-- The deletion of an A RRset gets NOTIMP. -/
theorem respond_nonQuery_deletion :
    ∃ reply, ((respond defaultTable (deletion 1) .udp ⟨5⟩).exec
        ⟨none, ⟨[⟨false, 0⟩, ⟨false, 1⟩], [], [], [], []⟩⟩).1 = .ok reply ∧
      NotImplementedReply deletionHeader reply := by
  refine (respond_nonQuery (s := ⟨none, ⟨[⟨false, 0⟩, ⟨false, 1⟩], [], [], [], []⟩⟩)
    (@deletion_message 1 (by decide)) rfl (by decide) (by decide)).mpr ?_
  intro v hv _
  rw [List.mem_singleton.mp hv]
  decide

/-- The deletion of an NS RRset gets FORMERR. -/
theorem respond_deletion_formatError :
    NonQueryMessage (deletion 2) deletionHeader [deletionZone] [deletionRecord 2] ∧
      ((respond defaultTable (deletion 2) .udp ⟨5⟩).exec
        ⟨none, ⟨[⟨false, 0⟩, ⟨false, 1⟩], [], [], [], []⟩⟩).1
          = .ok [0, 1, 0xa8, 0x81, 0, 0, 0, 0, 0, 0, 0, 0] ∧
      ¬ ∃ reply, ((respond defaultTable (deletion 2) .udp ⟨5⟩).exec
          ⟨none, ⟨[⟨false, 0⟩, ⟨false, 1⟩], [], [], [], []⟩⟩).1 = .ok reply ∧
        NotImplementedReply deletionHeader reply := by
  have hrun : ((respond defaultTable (deletion 2) .udp ⟨5⟩).exec
      ⟨none, ⟨[⟨false, 0⟩, ⟨false, 1⟩], [], [], [], []⟩⟩).1
        = .ok [0, 1, 0xa8, 0x81, 0, 0, 0, 0, 0, 0, 0, 0] := by
    decide +kernel
  refine ⟨deletion_message (by decide), hrun, ?_⟩
  rintro ⟨reply, hreply, p, hp, -, hcode⟩
  rw [hrun] at hreply
  cases hreply
  have hparse : Packet.parse [0, 1, 0xa8, 0x81, 0, 0, 0, 0, 0, 0, 0, 0]
      = .ok ⟨[0, 1, 0xa8, 0x81, 0, 0, 0, 0, 0, 0, 0, 0], ⟨⟨1⟩, 0xa881, ⟨0, 0, 0, 0⟩⟩, [], none,
        false, none⟩ := by
    decide +kernel
  rw [hparse] at hp
  cases hp
  exact absurd hcode (by decide)

end RequestHandler

end Sederial
