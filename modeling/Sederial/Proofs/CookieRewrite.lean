import Sederial.Proofs.Reparse

/-!
# `Sederial.Proofs.CookieRewrite`: what a COOKIE rewrite changes

After a BADCOOKIE response the service writes the server cookie it received into the query
and sends it again. `PutsCookie wire slot server patched` says what that does to the bytes:
the COOKIE data of `slot` keeps its client cookie and gets the new server cookie, both
length fields are adjusted, and all other bytes stay.

The items of the query keep their places. Whether the patched bytes still parse, and to
which question, depends on the names alone: a compression pointer may lead into the middle
of a label, from where the walk runs forward over the patched bytes. This is the content of
`parse_patched_iff`. `retry_rewrite_iff` is the resulting exact condition under which a
rewrite changes the cookie and nothing else.
-/

set_option autoImplicit false

namespace Sederial.Dns

open Sederial.Lib

/-! ### The patched bytes -/

/-- An offset of one of the two length fields of a slot. -/
def CookieSlot.LengthField (slot : CookieSlot) (i : Nat) : Prop :=
  i = slot.rdlengthAt ∨ i = slot.rdlengthAt + 1 ∨ i = slot.lengthAt ∨ i = slot.lengthAt + 1

/-- The slot is laid out in the message as an option of an OPT record is. -/
structure CookieSlot.InPlace (slot : CookieSlot) (wire : List UInt8) : Prop where
  afterHeader : 12 ≤ slot.rdlengthAt
  lengths : slot.rdlengthAt + 2 ≤ slot.lengthAt
  data : slot.lengthAt + 2 = slot.dataAt
  client : 8 ≤ slot.dataLen
  inside : slot.dataAt + slot.dataLen ≤ wire.length

/-- `patched` is `wire` with a new server cookie in the slot. -/
structure PutsCookie (wire : List UInt8) (slot : CookieSlot) (server patched : List UInt8) :
    Prop where
  length : patched.length + slot.dataLen = wire.length + (8 + server.length)
  optionLength : wordAt patched slot.lengthAt = some (UInt16.ofNat (8 + server.length))
  rdlength : ∃ old new, wordAt wire slot.rdlengthAt = some old ∧
    wordAt patched slot.rdlengthAt = some new ∧
    new.toNat + slot.dataLen = old.toNat + (8 + server.length)
  before : ∀ i, i < slot.dataAt + 8 → ¬ slot.LengthField i → patched[i]? = wire[i]?
  cookie : ∀ i, i < server.length → patched[slot.dataAt + 8 + i]? = server[i]?
  after : ∀ i,
    patched[slot.dataAt + 8 + server.length + i]? = wire[slot.dataAt + slot.dataLen + i]?

/-- The patched bytes are determined by the query, the slot and the server cookie. -/
theorem PutsCookie.unique {wire server w w' : List UInt8} {slot : CookieSlot}
    (h : PutsCookie wire slot server w) (h' : PutsCookie wire slot server w') : w = w' := by
  obtain ⟨old, new, hold, hnew, hsum⟩ := h.rdlength
  obtain ⟨old', new', hold', hnew', hsum'⟩ := h'.rdlength
  rw [hold] at hold'
  cases hold'
  obtain rfl : new = new' := UInt16.toNat_inj.mp (by omega)
  have hrd := getElem?_eq_of_wordAt_eq hnew hnew'
  have hopt := getElem?_eq_of_wordAt_eq h.optionLength h'.optionLength
  apply List.ext_getElem?
  intro i
  by_cases hfield : slot.LengthField i
  · rcases hfield with rfl | rfl | rfl | rfl
    · exact hrd.1
    · exact hrd.2
    · exact hopt.1
    · exact hopt.2
  · by_cases hbefore : i < slot.dataAt + 8
    · rw [h.before i hbefore hfield, h'.before i hbefore hfield]
    · obtain ⟨j, rfl⟩ := Nat.exists_eq_add_of_le (Nat.not_lt.mp hbefore)
      by_cases hserver : j < server.length
      · rw [h.cookie j hserver, h'.cookie j hserver]
      · obtain ⟨k, rfl⟩ := Nat.exists_eq_add_of_le (Nat.not_lt.mp hserver)
        rw [← Nat.add_assoc, h.after k, h'.after k]

/-- Splicing a server cookie between the client cookie and the rest of the message. -/
theorem getElem?_splice {wire server : List UInt8} {a e : Nat} (ha : a ≤ wire.length) :
    (∀ i, i < a → (wire.take a ++ (server ++ wire.drop e))[i]? = wire[i]?) ∧
    (∀ i, i < server.length → (wire.take a ++ (server ++ wire.drop e))[a + i]? = server[i]?) ∧
    (∀ i, (wire.take a ++ (server ++ wire.drop e))[a + server.length + i]? = wire[e + i]?) := by
  have htake : (wire.take a).length = a := by
    rw [List.length_take]
    omega
  refine ⟨fun i hi => ?_, fun i hi => ?_, fun i => ?_⟩
  · rw [List.getElem?_append_left (by omega), List.getElem?_take_of_lt hi]
  · rw [List.getElem?_append_right (by omega), List.getElem?_append_left (by omega), htake,
      Nat.add_sub_cancel_left]
  · rw [List.getElem?_append_right (by omega), List.getElem?_append_right (by omega),
      List.getElem?_drop, htake]
    congr 1
    omega

/-- Writing the two lengths into the spliced bytes completes the patch. -/
theorem PutsCookie.of_splice {wire server out : List UInt8} {slot : CookieSlot}
    {old new : UInt16} (hslot : slot.InPlace wire)
    (hout : out = wire.take (slot.dataAt + 8) ++ (server ++ wire.drop (slot.dataAt + slot.dataLen)))
    (hold : wordAt wire slot.rdlengthAt = some old)
    (hnew : new.toNat + slot.dataLen = old.toNat + (8 + server.length)) :
    PutsCookie wire slot server
      (overwrite (overwrite out slot.lengthAt (wordBytes (UInt16.ofNat (8 + server.length))))
        slot.rdlengthAt (wordBytes new)) := by
  obtain ⟨-, hlengths, hdata, hclient, hinside⟩ := hslot
  obtain ⟨hbefore, hserver, hafter⟩ :=
    @getElem?_splice wire server (slot.dataAt + 8) (slot.dataAt + slot.dataLen) (by omega)
  rw [← hout] at hbefore hserver hafter
  have hlength : out.length + slot.dataLen = wire.length + (8 + server.length) := by
    rw [hout]
    simp only [List.length_append, List.length_take, List.length_drop]
    omega
  have hlen₁ : (overwrite out slot.lengthAt
      (wordBytes (UInt16.ofNat (8 + server.length)))).length = out.length :=
    length_overwrite (by simp only [length_wordBytes]; omega)
  -- Away from the two fields the overwrites do not show.
  have hkeep : ∀ i, ¬ slot.LengthField i →
      (overwrite (overwrite out slot.lengthAt (wordBytes (UInt16.ofNat (8 + server.length))))
        slot.rdlengthAt (wordBytes new))[i]? = out[i]? := by
    intro i hi
    simp only [CookieSlot.LengthField, not_or] at hi
    rw [getElem?_overwrite_of_outside (by simp only [length_wordBytes]; omega)
      (by simp only [length_wordBytes]; omega),
      getElem?_overwrite_of_outside (by simp only [length_wordBytes]; omega)
      (by simp only [length_wordBytes]; omega)]
  refine ⟨?_, ?_, ⟨old, new, hold, wordAt_overwrite new (by omega), hnew⟩, fun i hi hfield => ?_,
    fun i hi => ?_, fun i => ?_⟩
  · rw [length_overwrite (by simp only [length_wordBytes]; omega), hlen₁, hlength]
  · rw [← wordAt_overwrite (w := out) (i := slot.lengthAt) (UInt16.ofNat (8 + server.length))
      (by omega)]
    refine wordAt_congr fun i hi => ?_
    exact getElem?_overwrite_of_outside (by simp only [length_wordBytes]; omega)
      (by simp only [length_wordBytes]; omega)
  · rw [hkeep i hfield, hbefore i hi]
  · rw [hkeep _ (by simp only [CookieSlot.LengthField]; omega), hserver i hi]
  · rw [hkeep _ (by simp only [CookieSlot.LengthField]; omega), hafter i]

namespace Cookie

/-- A successful rewrite puts the server cookie in place. -/
theorem rewrite_eq_some {wire client server w : List UInt8} {slot : CookieSlot}
    (hslot : slot.InPlace wire) (hclient : client = (wire.drop slot.dataAt).take 8)
    (h : rewrite wire slot client server = some w) :
    8 ≤ server.length ∧ server.length ≤ 32 ∧ w.length ≤ 65535 ∧
      PutsCookie wire slot server w := by
  obtain ⟨-, hlengths, hdata, hlen8, hinside⟩ := id hslot
  unfold rewrite at h
  split at h
  · cases h
  · rename_i hguard
    simp only at h
    split at h
    · cases h
    · split at h
      · cases h
      · rename_i hout
        -- The client cookie is copied from its own place, so only the server part is new.
        have hjoin : wire.take slot.dataAt ++ client ++ server
            ++ wire.drop (slot.dataAt + slot.dataLen)
            = wire.take (slot.dataAt + 8) ++
                (server ++ wire.drop (slot.dataAt + slot.dataLen)) := by
          rw [hclient, ← List.take_add, List.append_assoc]
        rw [hjoin] at h hout
        have hbefore := (@getElem?_splice wire server (slot.dataAt + 8)
          (slot.dataAt + slot.dataLen) (by omega)).1
        have hlength : (wire.take (slot.dataAt + 8)
            ++ (server ++ wire.drop (slot.dataAt + slot.dataLen))).length + slot.dataLen
            = wire.length + (8 + server.length) := by
          simp only [List.length_append, List.length_take, List.length_drop]
          omega
        obtain ⟨old, hold⟩ := @wordAt_eq_some_of_lt wire slot.rdlengthAt (by omega)
        have holdOut : wordAt (overwrite (wire.take (slot.dataAt + 8)
            ++ (server ++ wire.drop (slot.dataAt + slot.dataLen))) slot.lengthAt
            (wordBytes (UInt16.ofNat (8 + server.length)))) slot.rdlengthAt = some old := by
          rw [← hold]
          refine wordAt_congr fun i hi => ?_
          rw [getElem?_overwrite_of_outside (by simp only [length_wordBytes]; omega) (by omega),
            hbefore i (by omega)]
        rw [holdOut, Option.getD_some] at h
        split at h
        · rename_i hrange
          cases h
          have hold16 := old.toNat_lt
          have hputs := @PutsCookie.of_splice wire server _ slot old
            (UInt16.ofNat (((old.toNat : Int) + (((8 + server.length : Nat) : Int)
              - (slot.dataLen : Int))).toNat)) hslot rfl hold (by rw [UInt16.toNat_ofNat']; omega)
          have hlen := hputs.length
          simp only [maxMessageLength] at hout
          exact ⟨by omega, by omega, by omega, hputs⟩
        · cases h

/-- The situation in which `retry` rewrites the query: both messages carry a COOKIE, the
client cookies agree, the server cookie is a new one, and it fits without moving bytes. -/
structure Rewrites (p r : Packet) (w : List UInt8) (slot rslot : CookieSlot)
    (client server : List UInt8) : Prop where
  query : p.cookie = some (.present slot)
  response : r.cookie = some (.present rslot)
  queryData : ∃ rest, slice p.wire slot.dataAt (slot.dataAt + slot.dataLen)
    = some (client ++ rest)
  responseData : slice r.wire rslot.dataAt (rslot.dataAt + rslot.dataLen) = some (client ++ server)
  client_length : client.length = 8
  server_length : 8 ≤ server.length
  place : 8 + server.length = slot.dataLen ∨ slot.dataAt + slot.dataLen = p.wire.length
  rewritten : rewrite p.wire slot client server = some w

/-- A retry that rewrites puts the server's cookie behind the client's own. -/
theorem rewrites_of_retry {p r : Packet} {w : List UInt8} (h : retry p r = .rewrite w) :
    ∃ slot rslot client server, Rewrites p r w slot rslot client server := by
  unfold retry at h
  simp only at h
  -- The nesting is that of the source: every arm but the last one leaves the query as it is.
  split at h
  · cases h
  · cases h
  · rename_i slot hquery
    split at h
    · rename_i rslot hresponse
      split at h
      · rename_i queryData responseData hq hr
        split at h
        · cases h
        · rename_i hguard
          split at h
          · cases h
          · split at h
            · cases h
            · rename_i hplace
              split at h
              · cases h
              · rename_i wire hrewrite
                cases h
                -- The two cookies agree in their first eight bytes, and there is room for the rest.
                simp only [not_or, not_not] at hguard
                obtain ⟨hlong, hlong', hclient⟩ := hguard
                refine ⟨slot, rslot, queryData.take 8, responseData.drop 8, hquery, hresponse,
                  ⟨queryData.drop 8, ?_⟩, ?_, ?_, ?_, ?_, hrewrite⟩
                · rw [List.take_append_drop]
                  exact hq
                · rw [hclient, List.take_append_drop]
                  exact hr
                · rw [List.length_take]
                  omega
                · rw [List.length_drop]
                  omega
                · by_contra hmoves
                  simp only [not_or] at hmoves
                  exact hplace hmoves
      · cases h
    · cases h

end Cookie

/-! ### Where the COOKIE option stands -/

/-- The place of the COOKIE option in a derivation: the OPT record among the records, and
the option among its fields. -/
structure CookieSite (d : Derivation) (slot : CookieSlot) where
  before : List RecordView
  opt : RecordView
  after : List RecordView
  records : d.records = before ++ opt :: after
  kind : opt.kind = .opt
  beforeNotOpt : ∀ v ∈ before, v.isOpt = false
  fieldsBefore : List FieldView
  field : FieldView
  fieldsAfter : List FieldView
  fields : opt.fields = fieldsBefore ++ field :: fieldsAfter
  first : ∀ f ∈ fieldsBefore, opt.fieldCookie f = none
  length : UInt16
  option : field.field = .option cookieOption length
  valid : Cookie.validLength length.toNat = true
  slot_eq : slot = ⟨field.start + 2, field.start + 4, length.toNat, opt.fixedAt + 8⟩

/-- A packet with a well-formed COOKIE has a derivation that shows its place. -/
theorem CookieSite.exists_of_cookie {d : Derivation} {wire : List UInt8} {slot : CookieSlot}
    (h : (d.packet wire).cookie = some (.present slot)) : Nonempty (CookieSite d slot) := by
  obtain ⟨opt, hopt, hcookie⟩ := Option.bind_eq_some_iff.mp h
  obtain ⟨hkind, before, after, hrecords, hbefore⟩ := List.find?_eq_some_iff_append.mp hopt
  obtain ⟨fieldsBefore, field, fieldsAfter, hfields, hfield, hfirst⟩ :=
    List.findSome?_eq_some_iff.mp hcookie
  unfold RecordView.fieldCookie at hfield
  split at hfield
  · rename_i code length hoption
    split at hfield
    · rename_i hcode
      split at hfield
      · rename_i hvalid
        cases hfield
        subst hcode
        exact ⟨{
          before := before
          opt := opt
          after := after
          records := hrecords
          kind := of_decide_eq_true hkind
          beforeNotOpt := fun v hv => by simpa using hbefore v hv
          fieldsBefore := fieldsBefore
          field := field
          fieldsAfter := fieldsAfter
          fields := hfields
          first := hfirst
          length := length
          option := hoption
          valid := hvalid
          slot_eq := rfl }⟩
      · cases hfield
    · cases hfield
  · cases hfield

namespace CookieSite

variable {d : Derivation} {slot : CookieSlot} {wire w server : List UInt8}

/-- The tilings around the COOKIE option. -/
structure LaidOut (site : CookieSite d slot) (wire : List UInt8) (m : Nat) : Prop where
  questions : Tiles (QuestionAt wire) 12 d.questions m
  before : Tiles (RecordAt wire) m site.before site.opt.start
  opt : RecordAt wire site.opt
  after : Tiles (RecordAt wire) site.opt.stop site.after wire.length
  fieldsBefore : Tiles (FieldAt wire) site.opt.dataStart site.fieldsBefore site.field.start
  field : FieldAt wire site.field
  fieldsAfter : Tiles (FieldAt wire) site.field.stop site.fieldsAfter site.opt.stop

/-- Every cookie site is laid out in its message. -/
theorem laidOut (site : CookieSite d slot) (hd : Derives wire d) : ∃ m, site.LaidOut wire m := by
  obtain ⟨m, hquestions, hrecords⟩ := hd.tiles
  rw [site.records] at hrecords
  obtain ⟨e, hbefore, hrest⟩ := tiles_append_iff.mp hrecords
  obtain ⟨rfl, hopt, hafter⟩ := tiles_cons_iff.mp hrest
  have hdata := hopt.data
  rw [site.fields] at hdata
  obtain ⟨e, hfieldsBefore, hrest⟩ := tiles_append_iff.mp hdata
  obtain ⟨rfl, hfield, hfieldsAfter⟩ := tiles_cons_iff.mp hrest
  exact ⟨m, hquestions, hbefore, hopt, hafter, hfieldsBefore, hfield, hfieldsAfter⟩

/-- The order of the offsets around the COOKIE option. -/
structure Offsets (site : CookieSite d slot) (wire : List UInt8) (m : Nat) : Prop where
  afterHeader : 12 ≤ m
  before : m ≤ site.opt.start
  owner : site.opt.start < site.opt.fixedAt
  fieldsBefore : site.opt.fixedAt + 10 ≤ site.field.start
  field : site.field.stop = site.field.start + 4 + site.length.toNat
  fieldsAfter : site.field.stop ≤ site.opt.stop
  stop : site.opt.stop = site.opt.fixedAt + 10 + site.opt.length.toNat
  after : site.opt.stop ≤ wire.length
  client : 8 ≤ site.length.toNat

/-- The offsets of a site follow from its layout. -/
theorem LaidOut.offsets {site : CookieSite d slot} {m : Nat} (h : site.LaidOut wire m) :
    site.Offsets wire m := by
  obtain ⟨labels, howner, -⟩ := h.opt.owner
  have hfield := h.field
  simp only [FieldAt, site.option] at hfield
  have hvalid := Cookie.validLength_iff.mp site.valid
  refine ⟨?_, ?_, howner.lt_end, ?_, hfield.2.2, ?_, rfl, h.opt.inside, by omega⟩
  · exact h.questions.le fun _ => QuestionAt.start_le_stop
  · exact h.before.le fun _ => RecordAt.start_le_stop
  · exact h.fieldsBefore.le fun _ => FieldAt.start_le_stop
  · exact h.fieldsAfter.le fun _ => FieldAt.start_le_stop

/-- The slot of a parsed packet is laid out as `PutsCookie` expects. -/
theorem LaidOut.inPlace {site : CookieSite d slot} {m : Nat} (h : site.LaidOut wire m) :
    slot.InPlace wire := by
  have ho := h.offsets
  obtain ⟨h₁, h₂, h₃, h₄, h₅, h₆, h₇, h₈, h₉⟩ := ho
  rw [site.slot_eq]
  refine ⟨?_, ?_, rfl, h₉, ?_⟩
  · show 12 ≤ site.opt.fixedAt + 8
    omega
  · show site.opt.fixedAt + 8 + 2 ≤ site.field.start + 2
    omega
  · show site.field.start + 4 + site.length.toNat ≤ wire.length
    omega

/-! ### The patched derivation -/

/-- What the patch does to the offsets of a site: `len` and `rdlen` are the new lengths of
the option and of the OPT data. -/
structure Patch (site : CookieSite d slot) (wire w : List UInt8) (len rdlen : UInt16) :
    Prop where
  low : AgreeOn (fun i => i < site.opt.fixedAt + 8) wire w
  middle : AgreeOn (fun i => site.opt.fixedAt + 10 ≤ i ∧ i < site.field.start + 2) wire w
  rdlength : wordAt w (site.opt.fixedAt + 8) = some rdlen
  length : wordAt w (site.field.start + 2) = some len
  inside : site.field.start + 4 + len.toNat ≤ w.length
  place : (len = site.length ∧ rdlen = site.opt.length ∧ w.length = wire.length ∧
      AgreeOn (fun i => site.field.stop ≤ i) wire w) ∨
    (site.field.stop = wire.length ∧
      site.opt.fixedAt + 10 + rdlen.toNat = site.field.start + 4 + len.toNat ∧
      w.length = site.field.start + 4 + len.toNat)

/-- A longer cookie at a site is a patch of the site's lengths and bytes, where it fits or ends the
message. -/
theorem LaidOut.patch {site : CookieSite d slot} {m : Nat} (h : site.LaidOut wire m)
    (hputs : PutsCookie wire slot server w) (hlong : 8 ≤ server.length)
    (hshort : server.length ≤ 32)
    (hplace : 8 + server.length = slot.dataLen ∨ slot.dataAt + slot.dataLen = wire.length) :
    ∃ rdlen, site.Patch wire w (UInt16.ofNat (8 + server.length)) rdlen := by
  obtain ⟨h₁, h₂, h₃, h₄, h₅, h₆, h₇, h₈, h₉⟩ := h.offsets
  obtain ⟨hlength, hoption, ⟨old, new, hold, hnew, hsum⟩, hbefore, -, hafter⟩ := hputs
  have hword : (UInt16.ofNat (8 + server.length)).toNat = 8 + server.length := by
    rw [UInt16.toNat_ofNat']
    omega
  rw [site.slot_eq] at hlength hoption hold hnew hsum hbefore hafter hplace
  simp only [CookieSlot.LengthField] at hlength hoption hold hnew hsum hbefore hafter hplace
  have holdLength : old = site.opt.length := by
    have := h.opt.length
    rw [hold] at this
    exact Option.some.inj this
  refine ⟨new, fun i hi => (hbefore i (by omega) (by omega)).symm,
    fun i hi => (hbefore i (by omega) (by omega)).symm, hnew, hoption, by omega, ?_⟩
  rw [hword]
  subst holdLength
  rcases hplace with hplace | hplace
  · refine .inl ⟨UInt16.toNat_inj.mp (by omega), UInt16.toNat_inj.mp (by omega), by omega, ?_⟩
    -- The new data has the old length, so the bytes behind it keep their offsets.
    intro i hi
    obtain ⟨j, rfl⟩ := Nat.exists_eq_add_of_le hi
    have := hafter j
    rw [show site.field.start + 4 + 8 + server.length + j = site.field.stop + j by omega,
      show site.field.start + 4 + site.length.toNat + j = site.field.stop + j by omega] at this
    exact this.symm
  · exact .inr ⟨by omega, by omega, by omega⟩

/-- The OPT record after the patch. -/
def patchedOpt (site : CookieSite d slot) (len rdlen : UInt16) : RecordView :=
  { site.opt with
    length := rdlen
    fields := site.fieldsBefore ++
      ⟨site.field.start, site.field.start + 4 + len.toNat, .option cookieOption len⟩ ::
        site.fieldsAfter }

/-- The data of the OPT record consists of options. -/
theorem LaidOut.options {site : CookieSite d slot} {m : Nat} (h : site.LaidOut wire m) :
    ∀ f ∈ site.opt.fields, ∃ code length, f.field = .option code length := by
  have hlayout := h.opt.layout
  rw [site.kind] at hlayout
  exact fun f hf => hlayout f.field (List.mem_map.mpr ⟨f, hf, rfl⟩)

/-- Options at the end of the message leave no room for further ones. -/
theorem LaidOut.fieldsAfter_eq_nil {site : CookieSite d slot} {m : Nat}
    (h : site.LaidOut wire m) (hend : site.field.stop = wire.length) : site.fieldsAfter = [] := by
  have hoptions := h.options
  have hafter := h.fieldsAfter
  have hle := h.offsets.after
  rw [site.fields] at hoptions
  cases hfields : site.fieldsAfter with
  | nil => rfl
  | cons g gs =>
      rw [hfields] at hafter hoptions
      obtain ⟨hstart, hg, hgs⟩ := tiles_cons_iff.mp hafter
      obtain ⟨code, length, hoption⟩ := hoptions g (by simp)
      rw [FieldAt, hoption] at hg
      have hstop : g.stop ≤ site.opt.stop := hgs.le fun _ => FieldAt.start_le_stop
      have hstart : site.field.stop = g.start := hstart
      have hlen := hg.2.2
      omega

/-- An OPT record at the end of the message is the last record. -/
theorem LaidOut.after_eq_nil {site : CookieSite d slot} {m : Nat} (h : site.LaidOut wire m)
    (hend : site.field.stop = wire.length) : site.after = [] := by
  have hroom := h.after.length_mul_le fun _ => RecordAt.length_le
  have hle := h.offsets.fieldsAfter
  exact List.eq_nil_of_length_eq_zero (by omega)

/-- The patched OPT record stands in the patched message. -/
theorem LaidOut.patchedOpt_at {site : CookieSite d slot} {m : Nat} {len rdlen : UInt16}
    (h : site.LaidOut wire m) (hp : site.Patch wire w len rdlen) :
    RecordAt w (site.patchedOpt len rdlen) := by
  obtain ⟨h₁, h₂, h₃, h₄, h₅, h₆, h₇, h₈, h₉⟩ := h.offsets
  obtain ⟨labels, howner, hroot⟩ := h.opt.owner
  obtain rfl := hroot site.kind
  have hoptions := h.options
  rw [site.fields] at hoptions
  have hcode := h.field
  simp only [FieldAt, site.option] at hcode
  -- Nothing in front of the RDLENGTH field changes.
  have hlow : ∀ i, i + 2 ≤ site.opt.fixedAt + 8 → wordAt wire i = wordAt w i :=
    fun i hi => wordAt_congr fun j hj => hp.low j (by omega)
  have hmiddle : wordAt wire site.field.start = wordAt w site.field.start :=
    wordAt_congr fun i hi => hp.middle i (by omega)
  refine ⟨⟨[], howner.congr_root fun i hi => hp.low i (by omega), fun _ => rfl⟩,
    hlow site.opt.fixedAt (by omega) ▸ h.opt.kind,
    hlow (site.opt.fixedAt + 2) (by omega) ▸ h.opt.classWire, ?_, hp.rdlength, ?_, ?_, ?_,
    h.opt.section_⟩
  · rw [← doubleWordAt_congr fun i hi => hp.low i ?_]
    · exact h.opt.ttl
    · have : (site.patchedOpt len rdlen).fixedAt = site.opt.fixedAt := rfl
      omega
  · show site.opt.fixedAt + 10 + rdlen.toNat ≤ w.length
    rcases hp.place with ⟨-, rfl, hlen, -⟩ | ⟨-, hrd, hlen⟩ <;> omega
  · show DataLayout site.opt.kind _ _
    rw [site.kind]
    intro f hf
    obtain ⟨g, hg, rfl⟩ := List.mem_map.mp hf
    rcases List.mem_append.mp hg with hg | hg
    · exact hoptions g (by simp [hg])
    · rcases List.mem_cons.mp hg with rfl | hg
      · exact ⟨_, _, rfl⟩
      · exact hoptions g (by simp [hg])
  · show Tiles (FieldAt w) site.opt.dataStart
      (site.fieldsBefore ++
        ⟨site.field.start, site.field.start + 4 + len.toNat, .option cookieOption len⟩ ::
          site.fieldsAfter)
      (site.opt.fixedAt + 10 + rdlen.toNat)
    refine tiles_append_iff.mpr
      ⟨site.field.start, ?_, tiles_cons_iff.mpr ⟨rfl, ⟨?_, hp.length, rfl⟩, ?_⟩⟩
    · refine h.fieldsBefore.mono fun f hf hfield => hfield.transfer (fun i hi => ?_) fun hname => ?_
      · obtain ⟨hs, he⟩ : site.opt.dataStart ≤ f.start ∧ f.stop ≤ site.field.start :=
          h.fieldsBefore.bounds (fun _ => FieldAt.start_le_stop) f hf
        have hdata : site.opt.dataStart = site.opt.fixedAt + 10 := rfl
        exact hp.middle i (by omega)
      · obtain ⟨code, length, hoption⟩ := hoptions f (by simp [hf])
        rw [hname] at hoption
        cases hoption
    · exact hmiddle.symm.trans hcode.1
    · show Tiles (FieldAt w) (site.field.start + 4 + len.toNat) site.fieldsAfter _
      rcases hp.place with ⟨rfl, rfl, hlen, hagree⟩ | ⟨hend, hrd, -⟩
      · rw [← h₅, ← h₇]
        refine h.fieldsAfter.mono fun f hf hfield =>
          hfield.transfer (fun i hi => hagree i ?_) fun hname => ?_
        · obtain ⟨hs, -⟩ : site.field.stop ≤ f.start ∧ f.stop ≤ site.opt.stop :=
            h.fieldsAfter.bounds (fun _ => FieldAt.start_le_stop) f hf
          omega
        · obtain ⟨code, length, hoption⟩ := hoptions f (by simp [hf])
          rw [hname] at hoption
          cases hoption
      · rw [h.fieldsAfter_eq_nil hend]
        exact tiles_nil_iff.mpr hrd.symm

/-- The derivation after the patch, with the questions the patched bytes have. -/
def patched (site : CookieSite d slot) (len rdlen : UInt16) (qs : List QuestionView) :
    Derivation where
  header := d.header
  questions := qs
  records := site.before ++ site.patchedOpt len rdlen :: site.after

/-- The patched message has the patched derivation, if the names of the records around the
OPT record still decode. -/
theorem LaidOut.derives_patched {site : CookieSite d slot} {m : Nat} {len rdlen : UInt16}
    {qs : List QuestionView} (h : site.LaidOut wire m) (hd : Derives wire d)
    (hp : site.Patch wire w len rdlen) (hshort : w.length ≤ 65535)
    (hquestions : Tiles (QuestionAt w) 12 qs m) (hcount : qs.length = d.questions.length)
    (hnames : ∀ v ∈ site.before ++ site.after, ∀ n ∈ v.names, Decodes w n) :
    Derives w (site.patched len rdlen qs) := by
  obtain ⟨h₁, h₂, h₃, h₄, h₅, h₆, h₇, h₈, h₉⟩ := h.offsets
  have hinside := hp.inside
  have hrecords := site.records
  refine ⟨show 12 ≤ w.length by omega, hshort, hd.header.congr fun i hi => hp.low i (by omega),
    hd.single, hcount.trans hd.questionCount, ?_, ⟨m, hquestions, ?_⟩, ?_⟩
  · have hsections := hd.sections
    rw [hrecords, List.map_append, List.map_cons] at hsections
    show (site.before ++ site.patchedOpt len rdlen :: site.after).map RecordView.section_ = _
    rw [List.map_append, List.map_cons]
    exact hsections
  · show Tiles (RecordAt w) m (site.before ++ site.patchedOpt len rdlen :: site.after) w.length
    refine tiles_append_iff.mpr
      ⟨site.opt.start, ?_, tiles_cons_iff.mpr ⟨rfl, h.patchedOpt_at hp, ?_⟩⟩
    · refine h.before.mono fun v hv hat => ?_
      obtain ⟨-, hstop⟩ : m ≤ v.start ∧ v.stop ≤ site.opt.start :=
        h.before.bounds (fun _ => RecordAt.start_le_stop) v hv
      refine hat.transfer (fun i hi => hp.low i (by omega)) (by omega)
        (hnames v (by simp [hv])) fun hkind => ?_
      -- There is no other OPT record.
      have := site.beforeNotOpt v hv
      simp [RecordView.isOpt, hkind] at this
    · show Tiles (RecordAt w) (site.opt.fixedAt + 10 + rdlen.toNat) site.after w.length
      rcases hp.place with ⟨-, rfl, hlen, hagree⟩ | ⟨hend, hrd, hlen⟩
      · rw [← h₇, hlen]
        refine h.after.mono fun v hv hat => ?_
        obtain ⟨hstart, hstop⟩ : site.opt.stop ≤ v.start ∧ v.stop ≤ wire.length :=
          h.after.bounds (fun _ => RecordAt.start_le_stop) v hv
        refine hat.transfer (fun i hi => hagree i (by omega)) (by omega)
          (hnames v (by simp [hv])) fun hkind => ?_
        have hone := hd.oneOpt
        rw [hrecords, List.filter_append,
          List.filter_cons_of_pos (by simp [RecordView.isOpt, site.kind]), List.length_append,
          List.length_cons] at hone
        have hmem : v ∈ site.after.filter RecordView.isOpt :=
          List.mem_filter.mpr ⟨hv, by simp [RecordView.isOpt, hkind]⟩
        have := List.length_pos_of_mem hmem
        omega
      · rw [h.after_eq_nil hend]
        exact tiles_nil_iff.mpr (by omega)
  · have hone := hd.oneOpt
    have hisOpt : (site.patchedOpt len rdlen).isOpt = site.opt.isOpt := rfl
    rw [hrecords, List.filter_append, List.filter_cons] at hone
    show (List.filter RecordView.isOpt
      (site.before ++ site.patchedOpt len rdlen :: site.after)).length ≤ 1
    rw [List.filter_append, List.filter_cons, hisOpt]
    by_cases hopt : site.opt.isOpt = true
    · rw [if_pos hopt] at hone ⊢
      simpa using hone
    · rw [if_neg hopt] at hone ⊢
      exact hone

/-- The decoded view of the patched derivation: only the COOKIE slot and the questions can
differ. -/
theorem patched_packet (site : CookieSite d slot) {len rdlen : UInt16}
    (hvalid : Cookie.validLength len.toNat = true) (wire w : List UInt8)
    (qs : List QuestionView) :
    (site.patched len rdlen qs).packet w = { d.packet wire with
      wire := w
      questions := qs.map QuestionView.question
      cookie := some (.present { slot with dataLen := len.toNat }) } := by
  have hfind : ∀ v : RecordView, v.isOpt = true →
      (site.before ++ v :: site.after).find? RecordView.isOpt = some v := by
    intro v hv
    rw [List.find?_append, List.find?_eq_none.mpr fun u hu => by simp [site.beforeNotOpt u hu]]
    simp [hv]
  have hopt : d.opt = some site.opt := by
    rw [Derivation.opt, site.records]
    exact hfind _ (by simp [RecordView.isOpt, site.kind])
  have hopt' : (site.patched len rdlen qs).opt = some (site.patchedOpt len rdlen) :=
    hfind _ (by simp [RecordView.isOpt, patchedOpt, site.kind])
  have hauth : (site.patched len rdlen qs).records.any (fun v => authenticates v.section_ v.kind)
      = d.records.any fun v => authenticates v.section_ v.kind := by
    rw [site.records]
    simp only [patched, List.any_append, List.any_cons, patchedOpt]
  -- The option is still the first COOKIE option of its record.
  have hcookie : (site.patchedOpt len rdlen).cookie
      = some (.present { slot with dataLen := len.toNat }) := by
    have hfirst : ∀ f ∈ site.fieldsBefore, (site.patchedOpt len rdlen).fieldCookie f = none :=
      site.first
    show (site.fieldsBefore ++ _ :: site.fieldsAfter).findSome? _ = _
    rw [List.findSome?_append, List.findSome?_eq_none_iff.mpr hfirst, List.findSome?_cons]
    simp only [RecordView.fieldCookie, if_true, hvalid, site.slot_eq, Option.none_or]
    rfl
  unfold Derivation.packet
  rw [hopt', hopt, hauth]
  simp only [Option.map_some, Option.bind_some, hcookie]
  rfl

/-- The names of the records around the OPT record are names of the message. -/
theorem decodes_around (site : CookieSite d slot) (hnames : ∀ n ∈ d.names, Decodes w n) :
    ∀ v ∈ site.before ++ site.after, ∀ n ∈ v.names, Decodes w n := by
  intro v hv n hn
  refine hnames n (List.mem_append_right _ (List.mem_flatMap.mpr ⟨v, ?_, hn⟩))
  rw [site.records]
  rcases List.mem_append.mp hv with hv | hv
  · exact List.mem_append_left _ hv
  · exact List.mem_append_right _ (List.mem_cons_of_mem _ hv)

/-- A derivation of the patched message reads the same names. -/
theorem LaidOut.decodes_of_derives {site : CookieSite d slot} {m : Nat} {len rdlen : UInt16}
    {d' : Derivation} (h : site.LaidOut wire m) (hd : Derives wire d)
    (hp : site.Patch wire w len rdlen) (hd' : Derives w d') :
    (∀ n ∈ d.names, Decodes w n) ∧ Tiles (QuestionAt w) 12 d'.questions m ∧
      d'.questions.length = d.questions.length := by
  obtain ⟨h₁, h₂, h₃, h₄, h₅, h₆, h₇, h₈, h₉⟩ := h.offsets
  have hheader : d'.header = d.header := by
    refine hd'.header.unique (hd.header.congr fun i hi => hp.low i ?_)
    omega
  obtain ⟨m', hquestions', hrecords'⟩ := hd'.tiles
  have hcount : d.questions.length = d'.questions.length := by
    rw [hd.questionCount, hd'.questionCount, hheader]
  have hrecordCount : d.records.length = d'.records.length := by
    have hs := congrArg List.length hd.sections
    have hs' := congrArg List.length hd'.sections
    rw [List.length_map] at hs hs'
    rw [hs, hs', hheader]
  obtain ⟨rfl, hquestionNames⟩ := questions_lockstep h.questions hquestions' hcount
    fun i hi => hp.low i (by omega)
  rw [site.records, List.length_append, List.length_cons] at hrecordCount
  -- Up to the OPT record both messages hold the same records.
  obtain ⟨hbefore, cs, hcs, hlen⟩ := records_lockstep h.before hrecords' (by omega)
    fun i hi => hp.low i (by omega)
  cases cs with
  | nil => simp at hlen; omega
  | cons v' cs =>
      obtain ⟨hstart, hv', hcs⟩ := tiles_cons_iff.mp hcs
      have hstart : v'.start = site.opt.start := hstart.symm
      obtain ⟨labels, howner, -⟩ := h.opt.owner
      obtain ⟨labels', howner', -⟩ := hv'.owner
      rw [hstart] at howner'
      have hoptNames : ∀ n ∈ site.opt.names, Decodes w n := by
        intro n hn
        rcases List.mem_cons.mp hn with rfl | hn
        · exact ⟨labels', _, howner'⟩
        · obtain ⟨f, hf, rfl⟩ := List.mem_map.mp hn
          obtain ⟨hmem, hname⟩ := List.mem_filter.mp hf
          obtain ⟨code, length, hoption⟩ := h.options f hmem
          rw [of_decide_eq_true hname] at hoption
          cases hoption
      have hafter : ∀ v ∈ site.after, ∀ n ∈ v.names, Decodes w n := by
        rcases hp.place with ⟨-, hrd, -, hagree⟩ | ⟨hend, -, -⟩
        · -- The OPT record ends where it did, so the records behind it are the same too.
          have hfixed : site.opt.fixedAt = v'.fixedAt :=
            howner.end_eq howner' fun i hi => hp.low i (by omega)
          have hlength : v'.length = site.opt.length := by
            have := hv'.length
            rw [← hfixed, hp.rdlength, hrd] at this
            exact (Option.some.inj this).symm
          have hstop : Span.stop v' = site.opt.stop := by
            show v'.fixedAt + 10 + v'.length.toNat = site.opt.stop
            rw [h₇, hfixed, hlength]
          rw [hstop] at hcs
          simp only [List.length_cons] at hlen
          exact (records_lockstep h.after hcs (by omega) fun i hi => hagree i (by omega)).1
        · rw [h.after_eq_nil hend]
          simp
      refine ⟨fun n hn => ?_, hquestions', hcount.symm⟩
      rcases List.mem_append.mp hn with hn | hn
      · obtain ⟨v, hv, rfl⟩ := List.mem_map.mp hn
        exact hquestionNames v hv
      · obtain ⟨v, hv, hn⟩ := List.mem_flatMap.mp hn
        rw [site.records] at hv
        rcases List.mem_append.mp hv with hv | hv
        · exact hbefore v hv n hn
        · rcases List.mem_cons.mp hv with rfl | hv
          · exact hoptNames n hn
          · exact hafter v hv n hn

end CookieSite

/-! ### Parsing the patched bytes -/

/-- A name of the message starts at `n`. -/
def Packet.NameOffset (p : Packet) (n : Nat) : Prop := ∃ d, Derives p.wire d ∧ n ∈ d.names

/-- Every name of a message decodes. -/
theorem Packet.NameOffset.decodes {p : Packet} {n : Nat} (h : p.NameOffset n) :
    Decodes p.wire n := by
  obtain ⟨d, hd, hn⟩ := h
  obtain ⟨m, hquestions, hrecords⟩ := hd.tiles
  rcases List.mem_append.mp hn with hn | hn
  · obtain ⟨v, hv, rfl⟩ := List.mem_map.mp hn
    exact ⟨_, _, (hquestions.forall_mem v hv).name⟩
  · obtain ⟨v, hv, hn⟩ := List.mem_flatMap.mp hn
    exact (hrecords.forall_mem v hv).decodes n hn

/-- The packet after the patch, when its question now has these labels. -/
def Packet.patched (p : Packet) (w : List UInt8) (question : Question)
    (labels : List (List UInt8)) (slot : CookieSlot) (server : List UInt8) : Packet :=
  { p with
    wire := w
    questions := [{ question with name := ⟨labels⟩ }]
    cookie := some (.present { slot with dataLen := 8 + server.length }) }

/-- A parsed packet has only one decoded view. -/
theorem Packet.Parsed.eq_packet {p : Packet} (hp : p.Parsed) {d : Derivation}
    (hd : Derives p.wire d) : p = d.packet p.wire := by
  have hparse := Packet.parse_eq_ok_iff.mpr ⟨d, hd, rfl⟩
  rw [hp] at hparse
  exact Except.ok.inj hparse

section

variable {p p' : Packet} {question : Question} {slot : CookieSlot} {server w : List UInt8}

/-- The question of a packet with one question, in a derivation. -/
theorem exists_questionView {d : Derivation} {wire : List UInt8} {m : Nat}
    (hquestions : d.questions.map QuestionView.question = [question])
    (htiles : Tiles (QuestionAt wire) 12 d.questions m) :
    ∃ v, d.questions = [v] ∧ QuestionAt wire v ∧ v.start = 12 ∧ v.fixedAt + 4 = m ∧
      v.question = question := by
  obtain ⟨v, vs, hv, hquestion, hvs⟩ := List.map_eq_cons_iff.mp hquestions
  obtain rfl := List.map_eq_nil_iff.mp hvs
  rw [hv] at htiles
  obtain ⟨hstart, hat, hend⟩ := tiles_cons_iff.mp htiles
  exact ⟨v, hv, hat, hstart.symm, tiles_nil_iff.mp hend, hquestion⟩

/-- The patched bytes parse exactly when every name still decodes. The packet is then the
old one with the new cookie, except that its question has the labels the patched bytes
give. -/
theorem parse_patched_iff (hp : p.Parsed) (hquestions : p.questions = [question])
    (hcookie : p.cookie = some (.present slot)) (hputs : PutsCookie p.wire slot server w)
    (hlong : 8 ≤ server.length) (hshort : server.length ≤ 32)
    (hplace : 8 + server.length = slot.dataLen ∨ slot.dataAt + slot.dataLen = p.wire.length)
    (hsize : w.length ≤ 65535) :
    Packet.parse w = .ok p' ↔
      (∀ n, p.NameOffset n → Decodes w n) ∧
        ∃ labels e, DecodesTo w 12 labels e ∧ p' = p.patched w question labels slot server := by
  have hlen : (UInt16.ofNat (8 + server.length)).toNat = 8 + server.length := by
    rw [UInt16.toNat_ofNat']
    omega
  have hvalid : Cookie.validLength (UInt16.ofNat (8 + server.length)).toNat = true := by
    rw [hlen, Cookie.validLength_iff]
    omega
  -- Every derivation of the query shows the COOKIE option at the slot.
  have hsite : ∀ d, Derives p.wire d → ∃ (site : CookieSite d slot) (m : Nat) (rdlen : UInt16),
      site.LaidOut p.wire m ∧ site.Patch p.wire w (UInt16.ofNat (8 + server.length)) rdlen := by
    intro d hd
    rw [hp.eq_packet hd] at hcookie
    obtain ⟨site⟩ := CookieSite.exists_of_cookie hcookie
    obtain ⟨m, hm⟩ := site.laidOut hd
    obtain ⟨rdlen, hpatch⟩ := hm.patch hputs hlong hshort hplace
    exact ⟨site, m, rdlen, hm, hpatch⟩
  obtain ⟨d, hd, hpd⟩ := Packet.parsed_iff.mp hp
  obtain ⟨site, m, rdlen, hm, hpatch⟩ := hsite d hd
  obtain ⟨h₁, h₂, h₃, h₄, h₅, h₆, h₇, h₈, h₉⟩ := hm.offsets
  have hview : d.questions.map QuestionView.question = [question] := by
    rw [← hquestions, hpd]
    rfl
  obtain ⟨v, hv, hat, hstart, hstop, rfl⟩ := exists_questionView hview hm.questions
  have hlow : ∀ i, i + 2 ≤ m → wordAt p.wire i = wordAt w i :=
    fun i _ => wordAt_congr fun j hj => hpatch.low j (by omega)
  have hpacket : ∀ qs, (site.patched (UInt16.ofNat (8 + server.length)) rdlen qs).packet w
      = { p with
        wire := w
        questions := qs.map QuestionView.question
        cookie := some (.present { slot with dataLen := 8 + server.length }) } := by
    intro qs
    rw [site.patched_packet hvalid p.wire w qs, ← hpd, hlen]
  constructor
  · intro h
    obtain ⟨d', hd', rfl⟩ := Packet.parse_eq_ok_iff.mp h
    refine ⟨fun n ⟨d₂, hd₂, hn⟩ => ?_, ?_⟩
    · obtain ⟨site₂, m₂, rdlen₂, hm₂, hpatch₂⟩ := hsite d₂ hd₂
      exact (hm₂.decodes_of_derives hd₂ hpatch₂ hd').1 n hn
    · obtain ⟨hnames, hquestions', hcount⟩ := hm.decodes_of_derives hd hpatch hd'
      have hderives := hm.derives_patched hd hpatch hsize hquestions' hcount
        (site.decodes_around hnames)
      have hparse := Packet.parse_eq_ok_iff.mpr ⟨_, hderives, rfl⟩
      rw [h, hpacket] at hparse
      -- The patched message has one question, with the old type and class.
      rw [hv] at hcount
      obtain ⟨v', hv'⟩ := List.length_eq_one_iff.mp hcount
      rw [hv'] at hquestions'
      obtain ⟨hstart', hat', hend'⟩ := tiles_cons_iff.mp hquestions'
      have hstart' : v'.start = 12 := hstart'.symm
      have hend' : v'.fixedAt + 4 = m := tiles_nil_iff.mp hend'
      have hfixed : v'.fixedAt = v.fixedAt := by omega
      have hname := hat'.name
      rw [hstart'] at hname
      refine ⟨v'.question.name.labels, _, hname, ?_⟩
      have hquestion : v'.question = { v.question with name := ⟨v'.question.name.labels⟩ } := by
        refine hat.question_eq hat' ?_ ?_
        · rw [hfixed, hlow v.fixedAt (by omega)]
        · rw [hfixed, hlow (v.fixedAt + 2) (by omega)]
      rw [Except.ok.inj hparse, hv', Packet.patched, List.map_singleton, ← hquestion]
  · rintro ⟨hnames, labels, e, hdecodes, rfl⟩
    have hnamesD : ∀ n ∈ d.names, Decodes w n := fun n hn => hnames n ⟨d, hd, hn⟩
    have hname := hat.name
    rw [hstart] at hname
    obtain rfl : v.fixedAt = e := hname.end_eq hdecodes fun i hi => hpatch.low i (by omega)
    have hat' : QuestionAt w ⟨12, v.fixedAt, { v.question with name := ⟨labels⟩ }⟩ :=
      ⟨hdecodes, hlow v.fixedAt (by omega) ▸ hat.kind,
        hlow (v.fixedAt + 2) (by omega) ▸ hat.class_⟩
    have hderives := hm.derives_patched hd hpatch hsize
      (tiles_cons_iff.mpr ⟨rfl, hat', tiles_nil_iff.mpr hstop⟩) (by rw [hv]; rfl)
      (site.decodes_around hnamesD)
    refine Packet.parse_eq_ok_iff.mpr ⟨_, hderives, ?_⟩
    rw [hpacket]
    rfl

end

end Sederial.Dns
