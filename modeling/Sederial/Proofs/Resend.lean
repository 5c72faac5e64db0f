import Sederial.Dns.NameOrder
import Sederial.Proofs.CookieRetry

/-!
# `Sederial.Proofs.Resend`: every query that goes out for a client query

A client query is sent under a new ID, and after a BADCOOKIE it is sent again, as it is or
with a server cookie in its COOKIE option. `Resent q` is the set of packets this can reach,
in a closed form: the client's packet with another ID, or with another ID and some server
cookie in its own slot. Repeated rewrites collapse, because a cookie replaces the one before
(`PutsCookie.trans`).

From the closed form everything later proofs need is immediate: header, type and class of
the question, OPT fields and client cookie never change. The name of the question is the
exception. `Query.NameSurvives` is the condition under which it does not change either.
-/

set_option autoImplicit false

namespace Sederial.Dns

open Sederial.Lib

/-! ### Bytes -/

/-- The last identifier written is the one that stands. -/
theorem setId_setId (wire : List UInt8) (a b : TransactionId) :
    setId (setId wire a) b = setId wire b := by
  unfold setId overwrite
  simp only [List.take_zero, List.nil_append, Nat.zero_add, length_wordBytes]
  rw [List.drop_left' (length_wordBytes _)]

/-- An identifier leaves a cookie in its place. -/
theorem CookieSlot.InPlace.setId {slot : CookieSlot} {wire : List UInt8}
    (h : slot.InPlace wire) (id : TransactionId) : slot.InPlace (setId wire id) := by
  have hlength : (Dns.setId wire id).length = wire.length := by
    refine length_setId id ?_
    have h₁ := h.afterHeader
    have h₂ := h.lengths
    have h₃ := h.data
    have h₄ := h.inside
    omega
  exact ⟨h.afterHeader, h.lengths, h.data, h.client, hlength ▸ h.inside⟩

/-- Putting a cookie in place and replacing the ID commute. -/
theorem PutsCookie.setId {wire server w : List UInt8} {slot : CookieSlot}
    (hslot : slot.InPlace wire) (h : PutsCookie wire slot server w) (id : TransactionId) :
    PutsCookie (setId wire id) slot server (setId w id) := by
  obtain ⟨h₁, h₂, h₃, h₄, h₅⟩ := hslot
  have hlength := h.length
  have hwire : 2 ≤ wire.length := by omega
  have hw : 2 ≤ w.length := by omega
  have hkeep : ∀ i, 2 ≤ i → (Dns.setId wire id)[i]? = wire[i]? :=
    fun i hi => (setId_agree id hwire i hi).symm
  have hkeep' : ∀ i, 2 ≤ i → (Dns.setId w id)[i]? = w[i]? :=
    fun i hi => (setId_agree id hw i hi).symm
  have hword : ∀ i, 2 ≤ i → wordAt (Dns.setId wire id) i = wordAt wire i :=
    fun i hi => wordAt_congr fun j hj => hkeep j (by omega)
  have hword' : ∀ i, 2 ≤ i → wordAt (Dns.setId w id) i = wordAt w i :=
    fun i hi => wordAt_congr fun j hj => hkeep' j (by omega)
  refine ⟨?_, ?_, ?_, fun i hi hfield => ?_, fun i hi => ?_, fun i => ?_⟩
  · rw [length_setId id hw, length_setId id hwire, hlength]
  · rw [hword' _ (by omega), h.optionLength]
  · rw [hword' _ (by omega), hword _ (by omega)]
    exact h.rdlength
  · by_cases htwo : 2 ≤ i
    · rw [hkeep' i htwo, hkeep i htwo, h.before i hi hfield]
    · -- The two bytes of the ID are the new ones on both sides.
      have hi : i < (wordBytes id.value).length := by rw [length_wordBytes]; omega
      have hleft := @getElem?_overwrite_of_inside w (wordBytes id.value) 0 i (by omega) hi
      have hright := @getElem?_overwrite_of_inside wire (wordBytes id.value) 0 i (by omega) hi
      rw [Nat.zero_add] at hleft hright
      exact hleft.trans hright.symm
  · rw [hkeep' _ (by omega), h.cookie i hi]
  · rw [hkeep' _ (by omega), hkeep _ (by omega), h.after i]

/-- A cookie put in place replaces the one put there before. -/
theorem PutsCookie.trans {wire server server' w w' : List UInt8} {slot : CookieSlot}
    (h : PutsCookie wire slot server w)
    (h' : PutsCookie w { slot with dataLen := 8 + server.length } server' w') :
    PutsCookie wire slot server' w' := by
  obtain ⟨old, mid, hold, hmid, hsum⟩ := h.rdlength
  obtain ⟨mid', new, hmid', hnew, hsum'⟩ := h'.rdlength
  obtain rfl : mid = mid' := Option.some.inj (hmid.symm.trans hmid')
  have hlength := h.length
  have hlength' := h'.length
  dsimp only at hlength' hsum'
  refine ⟨by omega, h'.optionLength, ⟨old, new, hold, hnew, by omega⟩, fun i hi hfield => ?_,
    h'.cookie, fun i => ?_⟩
  · rw [h'.before i hi hfield, h.before i hi hfield]
  · rw [h'.after i, ← h.after i]
    dsimp only
    rw [← Nat.add_assoc slot.dataAt]

/-- A packet has a response cookie exactly when a cookie slot holds it. -/
theorem Cookie.responseCookie_eq_some_iff {p : Packet} {bytes : List UInt8} :
    responseCookie p = some bytes ↔
      ∃ slot, p.cookie = some (.present slot) ∧ slot.data p.wire = bytes := by
  unfold responseCookie
  split
  · rename_i slot hslot
    simp [hslot]
  · rename_i hnone
    constructor
    · intro h
      cases h
    · rintro ⟨slot, hslot, -⟩
      exact (hnone slot hslot).elim

/-- The client part of two slots at one place is the same when the bytes there are. -/
theorem CookieSlot.take_data_congr {slot slot' : CookieSlot} {w w' : List UInt8}
    (hlen : 8 ≤ slot.dataLen) (hlen' : 8 ≤ slot'.dataLen) (hat : slot.dataAt = slot'.dataAt)
    (h : ∀ i, slot'.dataAt ≤ i → i < slot'.dataAt + 8 → w[i]? = w'[i]?) :
    (slot.data w).take 8 = (slot'.data w').take 8 := by
  unfold data
  rw [List.take_take, List.take_take, Nat.min_eq_left hlen, Nat.min_eq_left hlen', hat]
  apply List.ext_getElem?
  intro i
  by_cases hi : i < 8
  · rw [List.getElem?_take_of_lt hi, List.getElem?_take_of_lt hi, List.getElem?_drop,
      List.getElem?_drop, h _ (by omega) (by omega)]
  · rw [List.getElem?_take_eq_none (by omega), List.getElem?_take_eq_none (by omega)]

/-! ### The packets that go out -/

/-- The server cookies that fit into a slot without moving other bytes. -/
structure CookieSlot.Fits (slot : CookieSlot) (wire server : List UInt8) : Prop where
  long : 8 ≤ server.length
  short : server.length ≤ 32
  place : 8 + server.length = slot.dataLen ∨ slot.dataAt + slot.dataLen = wire.length

/-- The packets that can go out for a client query. -/
inductive Resent (q : Query) : Packet → Prop
  | renumbered (id : TransactionId) : Resent q (q.packet.renumbered id)
  | patched {slot : CookieSlot} {server w : List UInt8} {labels : List (List UInt8)} {e : Nat}
      (id : TransactionId) (cookie : q.packet.cookie = some (.present slot))
      (fits : slot.Fits q.packet.wire server)
      (puts : PutsCookie (q.packet.withId id) slot server w) (name : DecodesTo w 12 labels e)
      (parsed : ((q.packet.renumbered id).patched w q.question labels slot server).Parsed) :
      Resent q ((q.packet.renumbered id).patched w q.question labels slot server)

namespace Resent

variable {q : Query} {p p' r : Packet} {w : List UInt8}

/-- A query that was sent again is a parsed packet. -/
theorem parsed (h : Resent q p) (hq : q.packet.Parsed) : p.Parsed := by
  cases h with
  | renumbered id => exact hq.renumber id
  | patched id _ _ _ _ hparsed => exact hparsed

/-- Sending the same bytes under another ID. -/
theorem resend (h : Resent q p) (hq : q.packet.Parsed) (id : TransactionId) :
    Resent q (p.renumbered id) := by
  cases h with
  | renumbered id' =>
    have hwire := setId_setId q.packet.wire id' id
    have hsame : (q.packet.renumbered id').renumbered id = q.packet.renumbered id := by
      simp only [Packet.renumbered, Packet.withId, hwire]
    rw [hsame]
    exact .renumbered id
  | @patched slot server w labels e id' hcookie hfits hputs hname hparsed =>
    have hwire := setId_setId q.packet.wire id' id
    have hslot := ((hq.inPlace hcookie).setId id')
    have hputs' := hputs.setId hslot id
    have hlong := hparsed.length_le.1
    have hname' : DecodesTo (setId w id) 12 labels e :=
      hname.congr_afterHeader (Nat.le_refl _) fun i hi => setId_agree id (by
        have : 12 ≤ w.length := hlong
        omega) i (by omega)
    have hparsed' := hparsed.renumber id
    have hsame : ((q.packet.renumbered id').patched w q.question labels slot server).renumbered id
        = (q.packet.renumbered id).patched (setId w id) q.question labels slot server := rfl
    rw [hsame] at hparsed' ⊢
    refine .patched id hcookie hfits ?_ hname' hparsed'
    rw [Packet.withId, ← hwire]
    exact hputs'

/-- A query that was sent again may be sent once more under another identifier. -/
theorem reparse (h : Resent q p) (hq : q.packet.Parsed) (id : TransactionId)
    (hparse : Packet.parse (setId p.wire id) = .ok p') : Resent q p' := by
  have hrenumber : Packet.parse (setId p.wire id) = .ok (p.renumbered id) :=
    (h.parsed hq).renumber id
  rw [hparse] at hrenumber
  cases hrenumber
  exact h.resend hq id

/-- A rewritten query has its new cookie in the slot of the client's own packet. -/
theorem puts_of_rewrites {slot rslot : CookieSlot} {client server : List UInt8} (h : Resent q p)
    (hq : q.packet.Parsed) (hr : Cookie.Rewrites p r w slot rslot client server)
    (id : TransactionId) :
    ∃ slot, q.packet.cookie = some (.present slot) ∧ slot.Fits q.packet.wire server ∧
      PutsCookie (q.packet.withId id) slot server (setId w id) := by
  obtain ⟨hslot, hshort, -, hputs⟩ := hr.putsCookie (h.parsed hq)
  have hlong := hr.server_length
  have hplace := hr.place
  have hquery := hr.query
  have hsetId : ∀ id, (setId q.packet.wire id).length = q.packet.wire.length :=
    fun id => length_setId id (by have := hq.length_le.1; omega)
  cases h with
  | renumbered id' =>
    refine ⟨slot, hquery, ⟨hlong, hshort, ?_⟩, ?_⟩
    · rw [← hsetId id']
      exact hplace
    · have hputs' := hputs.setId hslot id
      dsimp only [Packet.renumbered, Packet.withId] at hputs'
      rwa [setId_setId] at hputs'
  | @patched slot₀ server₀ w₀ labels e id' hcookie hfits hputs₀ hname hparsed =>
    -- The slot of the packet is the client's slot with another length.
    obtain rfl : { slot₀ with dataLen := 8 + server₀.length } = slot :=
      CookieField.present.inj (Option.some.inj hquery)
    refine ⟨slot₀, hcookie, ⟨hlong, hshort, ?_⟩, ?_⟩
    · have hlength := hputs₀.length
      rw [Packet.withId, hsetId] at hlength
      dsimp only [Packet.patched] at hplace
      rcases hfits.place with hsame | hend
      · rcases hplace with hplace | hplace
        · omega
        · omega
      · exact .inr hend
    · have htrans := (hputs₀.trans hputs).setId ((hq.inPlace hcookie).setId id') id
      rw [Packet.withId, ← setId_setId _ id' id]
      exact htrans

/-- Sending the rewritten bytes under another ID. -/
theorem rewrite (h : Resent q p) (hq : q.packet.Parsed)
    (hquestions : q.packet.questions = [q.question]) (hw : Cookie.retry p r = .rewrite w)
    (id : TransactionId) (hparse : Packet.parse (setId w id) = .ok p') : Resent q p' := by
  obtain ⟨slot', rslot, client, server, hr⟩ := Cookie.rewrites_of_retry hw
  obtain ⟨-, -, hsize, hputs'⟩ := hr.putsCookie (h.parsed hq)
  obtain ⟨slot, hcookie, hfits, hputs⟩ := h.puts_of_rewrites hq hr id
  have hplace : 8 + server.length = slot.dataLen ∨
      slot.dataAt + slot.dataLen = (q.packet.withId id).length := by
    rw [Packet.withId, length_setId id (by have := hq.length_le.1; omega)]
    exact hfits.place
  have hsize' : (setId w id).length ≤ 65535 := by
    have hlength := hputs'.length
    have hlong := hr.server_length
    have hinside := ((h.parsed hq).inPlace hr.query).inside
    rw [length_setId id (by omega)]
    exact hsize
  obtain ⟨-, labels, e, hname, rfl⟩ := (parse_patched_iff (hq.renumber id) hquestions hcookie hputs
    hfits.long hfits.short hplace hsize').mp hparse
  exact .patched id hcookie hfits hputs hname (Packet.parsed_of_parse hparse)

/-! ### What all of them share -/

/-- The header of a query that was sent again differs in its identifier alone. -/
theorem header (h : Resent q p) : p.header = { q.packet.header with id := p.header.id } := by
  cases h <;> rfl

/-- The OPT record of a query that was sent again is the first one's, the cookie apart. -/
theorem edns (h : Resent q p) : p.edns = q.packet.edns := by
  cases h <;> rfl

/-- The client cookie goes out as the client sent it. -/
theorem clientCookie (h : Resent q p) (hq : q.packet.Parsed) {own : List UInt8}
    (hown : Cookie.responseCookie p = some own) :
    ∃ client, Cookie.responseCookie q.packet = some client ∧ own.take 8 = client.take 8 := by
  have hlong := hq.length_le.1
  cases h with
  | renumbered id =>
    obtain ⟨slot, hslot, rfl⟩ := Cookie.responseCookie_eq_some_iff.mp hown
    have hplace := hq.inPlace hslot
    refine ⟨_, Cookie.responseCookie_eq_some_iff.mpr ⟨slot, hslot, rfl⟩, ?_⟩
    refine CookieSlot.take_data_congr hplace.client hplace.client rfl fun i hi _ => ?_
    have h₁ := hplace.afterHeader
    have h₂ := hplace.lengths
    have h₃ := hplace.data
    exact (setId_agree id (by omega) i (by omega)).symm
  | @patched slot server w labels e id hcookie hfits hputs hname hparsed =>
    obtain ⟨slot', hslot', rfl⟩ := Cookie.responseCookie_eq_some_iff.mp hown
    obtain rfl : { slot with dataLen := 8 + server.length } = slot' :=
      CookieField.present.inj (Option.some.inj hslot')
    have hplace := hq.inPlace hcookie
    refine ⟨_, Cookie.responseCookie_eq_some_iff.mpr ⟨slot, hcookie, rfl⟩, ?_⟩
    refine CookieSlot.take_data_congr (Nat.le_add_right _ _) hplace.client rfl fun i hi hlt => ?_
    have h₁ := hplace.afterHeader
    have h₂ := hplace.lengths
    have h₃ := hplace.data
    have hbefore := hputs.before i hlt (by simp only [CookieSlot.LengthField]; omega)
    exact hbefore.trans (setId_agree id (by omega) i (by omega)).symm

end Resent

/-! ### When the question survives -/

/-- No server cookie that fits into the query changes the name it asks for: whenever the
patched bytes still parse, they ask for the client's name, up to ASCII case. -/
def Query.NameSurvives (q : Query) : Prop :=
  ∀ (slot : CookieSlot) (server patched : List UInt8) (packet : Packet),
    q.packet.cookie = some (.present slot) → slot.Fits q.packet.wire server →
    PutsCookie q.packet.wire slot server patched → Packet.parse patched = .ok packet →
      ∀ question ∈ packet.questions, question.name == q.name

/-- The ID of a parsed packet is the one in its bytes. -/
theorem Packet.Parsed.setId_self {p : Packet} (hp : p.Parsed) :
    setId p.wire p.header.id = p.wire := by
  have hlong := hp.length_le.1
  obtain ⟨hfirst, hsecond⟩ :=
    getElem?_eq_of_wordAt_eq (hp.headerAt.setId p.header.id).id hp.headerAt.id
  apply List.ext_getElem?
  intro i
  match i with
  | 0 => exact hfirst
  | 1 => exact hsecond
  | i + 2 => exact (setId_agree _ (by omega) _ (by omega)).symm

/-- A name survives when decoding it looks at no byte that a new cookie replaces. -/
theorem Query.nameSurvives_of_reads {q : Query} (hq : q.packet.Parsed)
    (hquestions : q.packet.questions = [q.question])
    (hreads : ∀ slot i, q.packet.cookie = some (.present slot) → NameReads q.packet.wire 12 i →
      i < slot.dataAt + 8 ∧ ¬ slot.LengthField i) : q.NameSurvives := by
  intro slot server patched packet hcookie hfits hputs hparse question hmem
  have hsize : patched.length ≤ 65535 := by
    rw [← Packet.wire_of_parse hparse]
    exact (Packet.parsed_of_parse hparse).length_le.2
  obtain ⟨-, labels, e, hdecodes, rfl⟩ := (parse_patched_iff hq hquestions hcookie hputs
    hfits.long hfits.short hfits.place hsize).mp hparse
  obtain ⟨-, e', hname⟩ := hq.decodes_question hquestions
  have hpatched : DecodesTo patched 12 q.question.name.labels e' := by
    refine hname.congr fun i hi => ?_
    obtain ⟨hbefore, hfield⟩ := hreads slot i hcookie hi
    exact (hputs.before i hbefore hfield).symm
  obtain ⟨rfl, -⟩ := hdecodes.unique hpatched
  obtain rfl := List.mem_singleton.mp hmem
  exact DomainName.beq_self _

/-- Everything that goes out asks the client's question, when its name survives. -/
theorem Resent.questions {q : Query} {p : Packet} (h : Resent q p) (hq : q.packet.Parsed)
    (hquestions : q.packet.questions = [q.question]) (hname : q.NameSurvives) :
    ∃ name, p.questions = [{ q.question with name := name }] ∧ name == q.name := by
  cases h with
  | renumbered id => exact ⟨q.name, hquestions, DomainName.beq_self _⟩
  | @patched slot server w labels e id hcookie hfits hputs hdecodes hparsed =>
    refine ⟨⟨labels⟩, rfl, ?_⟩
    -- Undo the ID, so that the patch is one of the client's own bytes.
    have hputs' : PutsCookie (setId (setId q.packet.wire id) q.packet.header.id) slot server
        (setId w q.packet.header.id) :=
      hputs.setId ((hq.inPlace hcookie).setId id) q.packet.header.id
    rw [setId_setId, hq.setId_self] at hputs'
    exact hname slot server _ _ hcookie hfits hputs' (hparsed.renumber q.packet.header.id)
      { q.question with name := ⟨labels⟩ } (List.mem_singleton.mpr rfl)

end Sederial.Dns
