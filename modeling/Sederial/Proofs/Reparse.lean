import Sederial.Proofs.QueryPolicy
import Sederial.Proofs.Transfer

/-!
# `Sederial.Proofs.Reparse`: stored packets are the parse of their bytes

`Query.sent` and `Response.withId` patch the transaction ID into the bytes of a parsed
message and keep the old decoded fields. `Packet.Parsed p` says that the fields of `p` are
what the parser makes of its bytes. `Packet.Parsed.renumber` shows that patching the ID
keeps this, and `SentFrom.parsed` extends it to every query that is sent or sent again.

The proof needs that nothing in a message reads the ID: names cannot point into the header
(`Derives.congr`).
-/

set_option autoImplicit false

namespace Sederial.Dns

open Sederial.Lib

/-! ### The patched bytes -/

/-- An identifier takes the place of two bytes. -/
theorem length_setId {wire : List UInt8} (id : TransactionId) (h : 2 ≤ wire.length) :
    (setId wire id).length = wire.length :=
  length_overwrite (by simpa using h)

/-- A change of the identifier leaves every byte from offset 2 on. -/
theorem setId_agree {wire : List UInt8} (id : TransactionId) (h : 2 ≤ wire.length) :
    AgreeOn (fun i => 2 ≤ i) wire (setId wire id) := by
  intro i hi
  exact (getElem?_overwrite_of_outside (by simpa using h) (by simp; omega)).symm

/-- A change of the identifier changes the identifier of the header alone. -/
theorem HeaderAt.setId {wire : List UInt8} {header : Header} (id : TransactionId)
    (h : HeaderAt wire header) : HeaderAt (setId wire id) { header with id := id } := by
  have hlen := lt_of_wordAt_eq_some h.id
  have hagree := @setId_agree wire id (by omega)
  have hword : ∀ i, 2 ≤ i → wordAt wire i = wordAt (Dns.setId wire id) i :=
    fun i hi => wordAt_congr fun j hj => hagree j (by omega)
  exact ⟨wordAt_overwrite id.value hlen, hword 2 (by omega) ▸ h.flags,
    hword 4 (by omega) ▸ h.questions, hword 6 (by omega) ▸ h.answers,
    hword 8 (by omega) ▸ h.authorities, hword 10 (by omega) ▸ h.additionals⟩

/-! ### Packets that are the parse of their bytes -/

namespace Packet

/-- The decoded fields are what the parser makes of the bytes. -/
def Parsed (p : Packet) : Prop := Packet.parse p.wire = .ok p

/-- A packet whose transaction ID is replaced in the header and in the bytes. -/
def renumbered (p : Packet) (id : TransactionId) : Packet :=
  { p with header := { p.header with id := id }, wire := p.withId id }

/-- A packet is parsed exactly when some derivation of its bytes gives its fields. -/
theorem parsed_iff {p : Packet} : p.Parsed ↔ ∃ d, Derives p.wire d ∧ p = d.packet p.wire :=
  parse_eq_ok_iff

/-- The parser keeps the bytes it was given. -/
theorem wire_of_parse {wire : List UInt8} {p : Packet} (h : Packet.parse wire = .ok p) :
    p.wire = wire := by
  obtain ⟨d, -, rfl⟩ := parse_eq_ok_iff.mp h
  rfl

/-- What the parser returns is a parsed packet. -/
theorem parsed_of_parse {wire : List UInt8} {p : Packet} (h : Packet.parse wire = .ok p) :
    p.Parsed := by
  rw [Parsed, wire_of_parse h, h]

namespace Parsed

variable {p : Packet}

/-- A parsed packet has a whole header and fits the length field of TCP. -/
theorem length_le (h : p.Parsed) : 12 ≤ p.wire.length ∧ p.wire.length ≤ 65535 := by
  obtain ⟨d, hd, -⟩ := parsed_iff.mp h
  exact ⟨hd.long, hd.short⟩

/-- The header of a parsed packet is the one its first twelve bytes hold. -/
theorem headerAt (h : p.Parsed) : HeaderAt p.wire p.header := by
  obtain ⟨d, hd, hp⟩ := parsed_iff.mp h
  rw [hp]
  exact hd.header

/-- Replacing the transaction ID commutes with parsing. -/
theorem renumber (h : p.Parsed) (id : TransactionId) : (p.renumbered id).Parsed := by
  obtain ⟨d, hd, hp⟩ := parsed_iff.mp h
  have hlong : 12 ≤ p.wire.length := hd.long
  refine parsed_iff.mpr ⟨{ d with header := { d.header with id := id } }, ?_, ?_⟩
  · refine hd.congr (hd.header.setId id) rfl rfl (length_setId id (by omega)) fun i hi => ?_
    exact setId_agree id (by omega) i (by omega)
  · rw [renumbered, hp]
    rfl

end Parsed

end Packet

/-! ### Queries that are sent -/

/-- The queries that can go out for a client query: the first one, and every retry. -/
inductive SentFrom (q : Query) : SentQuery → Prop
  | sent (id : TransactionId) : SentFrom q (q.sent id)
  | retry {s s' : SentQuery} (wire : List UInt8) (id : TransactionId) (previous : SentFrom q s)
      (h : s.retry wire id = .ok s') : SentFrom q s'

/-- A retry succeeds exactly when the new bytes parse; the query it yields asks for a cookie. -/
theorem SentQuery.retry_eq_ok_iff {s s' : SentQuery} {wire : List UInt8} {id : TransactionId} :
    s.retry wire id = .ok s' ↔
      Packet.parse (setId wire id) = .ok s'.packet ∧ s'.cookieRequired = true := by
  unfold SentQuery.retry
  obtain ⟨packet, required⟩ := s'
  cases hparse : Packet.parse (setId wire id) with
  | error e => simp
  | ok p => simp [and_comm, eq_comm]

/-- Whatever is sent, the stored packet is the parse of the sent bytes. -/
theorem SentFrom.parsed {q : Query} {s : SentQuery} (h : SentFrom q s)
    (hq : q.packet.Parsed) : s.packet.Parsed := by
  cases h with
  | sent id => exact hq.renumber id
  | retry wire id _ h => exact Packet.parsed_of_parse (SentQuery.retry_eq_ok_iff.mp h).1

/-- Decoded fields and bytes never drift apart: not when the ID of a parsed packet is
replaced, not in any query that is sent, and not on the reply path. -/
theorem Packet.withId_reparse :
    (∀ (wire : List UInt8) (p : Packet) (id : TransactionId), Packet.parse wire = .ok p →
      Packet.parse (p.withId id)
          = .ok { p with header := { p.header with id := id }, wire := p.withId id } ∧
        (p.withId id).take 2 = wordBytes id.value ∧ (p.withId id).drop 2 = wire.drop 2) ∧
    (∀ (wire : List UInt8) (p : Packet) (q : Query) (s : SentQuery),
      Packet.parse wire = .ok p → p.validateQuery = .forward q → SentFrom q s →
        Packet.parse s.wire = .ok s.packet) ∧
    (∀ (wire : List UInt8) (p : Packet) (s : SentQuery) (r : Response) (id : TransactionId),
      Packet.parse wire = .ok p → s.validateResponse p = some r →
        Packet.parse (r.withId id)
          = .ok { r.packet with
            header := { r.packet.header with id := id }, wire := r.withId id }) := by
  refine ⟨fun wire p id h => ⟨(parsed_of_parse h).renumber id, rfl, ?_⟩,
    fun wire p q s h hq hs => ?_, fun wire p s r id h hr => ?_⟩
  · rw [← wire_of_parse h]
    rfl
  · obtain ⟨rfl, -⟩ := validateQuery_eq_forward_iff.mp hq
    exact hs.parsed (parsed_of_parse h)
  · obtain ⟨rfl, -⟩ := SentQuery.validateResponse_eq_some_iff.mp hr
    exact (parsed_of_parse h).renumber id

/-- The query for the root address with ID 1, as a client sends it. -/
def rootQuery : Packet where
  wire := [0, 1, 1, 0, 0, 1, 0, 0, 0, 0, 0, 0, 0, 0, 1, 0, 1]
  header := ⟨⟨1⟩, 0x0100, ⟨1, 0, 0, 0⟩⟩
  questions := [⟨⟨[]⟩, .a, .in⟩]
  edns := none
  authenticated := false
  cookie := none

/-- The empty answer to `rootQuery` under ID 7. -/
def rootResponse : Packet where
  wire := [0, 7, 0x81, 0x80, 0, 1, 0, 0, 0, 0, 0, 0, 0, 0, 1, 0, 1]
  header := ⟨⟨7⟩, 0x8180, ⟨1, 0, 0, 0⟩⟩
  questions := [⟨⟨[]⟩, .a, .in⟩]
  edns := none
  authenticated := false
  cookie := none

/-- The three laws at a query for the root that is sent with ID 7 and answered. -/
theorem Packet.withId_reparse_rootQuery :
    Packet.parse (rootQuery.withId ⟨7⟩) = .ok (rootQuery.renumbered ⟨7⟩) ∧
      Packet.parse (Query.sent ⟨rootQuery, ⟨⟨[]⟩, .a, .in⟩⟩ ⟨7⟩).wire
        = .ok (rootQuery.renumbered ⟨7⟩) ∧
      Packet.parse (Response.withId ⟨rootResponse⟩ ⟨1⟩) = .ok (rootResponse.renumbered ⟨1⟩) := by
  obtain ⟨hid, hsent, hresponse⟩ := Packet.withId_reparse
  have hquery : Packet.parse rootQuery.wire = .ok rootQuery := by decide +kernel
  exact ⟨(hid _ _ ⟨7⟩ hquery).1,
    hsent _ _ _ _ hquery (by decide +kernel) (.sent ⟨7⟩),
    hresponse rootResponse.wire rootResponse (Query.sent ⟨rootQuery, ⟨⟨[]⟩, .a, .in⟩⟩ ⟨7⟩)
      ⟨rootResponse⟩ ⟨1⟩ (by decide +kernel) (by decide +kernel)⟩

end Sederial.Dns
