import Sederial.Proofs.ReplyShape

/-!
# `Sederial.Proofs.GeneratedReply`: generated errors decode to what was meant

`makeReply_repliesAs` says which items a generated reply has. This file adds what they mean:
a response code is split between the header and the OPT record and comes back whole, and the
question of a parsed query comes back as it was (`Packet.Parsed.map_reread`).

`errorReply_decodes` puts it together for every error the service generates for a parsed query.
Which codes can occur without an OPT record follows from the order of the checks in
`validateQuery` (`Packet.code_of_reject`).
-/

set_option autoImplicit false

namespace Sederial.Dns

open Sederial.Lib

/-! ### Wire values -/

/-- What both branches of a conditional are mapped to. -/
theorem apply_ite_eq {α β : Type} {f : α → β} {c : Prop} [Decidable c] {a b : α} {v : β}
    (hpos : c → f a = v) (hneg : f b = v) : f (if c then a else b) = v := by
  split
  · exact hpos ‹c›
  · exact hneg

/-- A response code is read and written back as it came. -/
theorem ResponseCode.wire_fromWire (value : UInt16) : (fromWire value).wire = value := by
  unfold fromWire
  repeat refine apply_ite_eq (f := wire) (fun h => h.symm) ?_
  rfl

/-- A record type is read and written back as it came. -/
theorem RecordType.wire_fromWire (value : UInt16) : (fromWire value).wire = value := by
  unfold fromWire
  repeat refine apply_ite_eq (f := wire) (fun h => h.symm) ?_
  rfl

/-- A record class is read and written back as it came. -/
theorem RecordClass.wire_fromWire (value : UInt16) : (fromWire value).wire = value := by
  unfold fromWire
  repeat refine apply_ite_eq (f := wire) (fun h => h.symm) ?_
  rfl

/-- A question that was read survives being written and read again. -/
theorem QuestionAt.reread {wire : List UInt8} {v : QuestionView} (h : QuestionAt wire v) :
    v.question.reread = v.question := by
  obtain ⟨kind, -, hkind⟩ := Option.map_eq_some_iff.mp h.kind
  obtain ⟨class_, -, hclass⟩ := Option.map_eq_some_iff.mp h.class_
  rw [Question.reread, ← hkind, ← hclass, RecordType.wire_fromWire, RecordClass.wire_fromWire,
    hkind, hclass]

/-- The question of a parsed packet survives the wire. -/
theorem Packet.Parsed.map_reread {p : Packet} (h : p.Parsed) :
    p.questions.head?.toList.map Question.reread = p.questions.take 1 := by
  have hreread : ∀ q ∈ p.questions, q.reread = q := by
    intro q hq
    obtain ⟨d, hd, hp⟩ := Packet.parsed_iff.mp h
    obtain ⟨m, htiles, -⟩ := hd.tiles
    rw [hp] at hq
    obtain ⟨v, hv, rfl⟩ := List.mem_map.mp hq
    exact (htiles.forall_mem v hv).reread
  cases hquestions : p.questions with
  | nil => rfl
  | cons q rest =>
    have hq := hreread q (by simp [hquestions])
    simp [hq]

/-! ### Response codes -/

/-- A code of twelve bits is the join of its upper eight and its lower four. -/
theorem joinCode {value : UInt16} (h : value.toNat < 4096) :
    (value >>> 4).toUInt8.toUInt16 <<< 4 ||| (value &&& rcodeMask) = value := by
  apply UInt16.toNat.inj
  rw [UInt16.toNat_or, UInt16.toNat_and, UInt16.toNat_shiftLeft, UInt8.toNat_toUInt16,
    UInt16.toNat_toUInt8, UInt16.toNat_shiftRight]
  show (value.toNat >>> 4 % 256) <<< 4 % 65536 ||| value.toNat &&& 15 = value.toNat
  have hlow : value.toNat &&& 15 = value.toNat % 16 := Nat.and_two_pow_sub_one_eq_mod _ 4
  -- The upper bits fit into the byte, so nothing is cut off.
  have hhigh : (value.toNat >>> 4 % 256) <<< 4 % 65536 = (value.toNat / 16) <<< 4 := by
    rw [Nat.shiftRight_eq_div_pow, Nat.shiftLeft_eq, Nat.shiftLeft_eq]
    omega
  rw [hlow, hhigh, ← Nat.shiftLeft_add_eq_or_of_lt (show value.toNat % 16 < 2 ^ 4 by omega),
    Nat.shiftLeft_eq]
  omega

/-- The code fits into a reply with these OPT fields. -/
def FitsReply (code : ResponseCode) (opt : GeneratedOpt) : Prop :=
  code.wire.toNat < 16 ∨ opt ≠ .absent ∧ code.wire.toNat < 4096

/-- The four low bits of the flags of a reply are those of its response code. -/
theorem replyFlags_and_rcodeMask (header : Header) (code : ResponseCode) (truncated : Bool) :
    replyFlags header code truncated &&& rcodeMask = code.wire &&& rcodeMask := by
  have hqr : qrMask &&& rcodeMask = 0 := by decide
  have hra : raMask &&& rcodeMask = 0 := by decide
  have htruncated : (if truncated then tcMask else 0) &&& rcodeMask = 0 := by
    cases truncated <;> decide
  rw [replyFlags_and_of_set header code truncated (by decide), hqr, hra, htruncated,
    UInt16.and_self, UInt16.or_zero, UInt16.zero_or, UInt16.zero_or]

/-- The code of a generated reply comes back whole. -/
theorem RepliesAs.responseCode {wire : List UInt8} {header : Header} {question : Option Question}
    {value : UInt16} {truncated : Bool} {opt : GeneratedOpt}
    {answer : Option (Ipv4Addr × UInt32)} {p : Packet}
    (h : RepliesAs wire header question (.fromWire value) truncated opt answer p)
    (hfits : FitsReply (.fromWire value) opt) : p.responseCode = .fromWire value := by
  have hflags : p.header.flags &&& rcodeMask = value &&& rcodeMask := by
    rw [h.flags, replyFlags_and_rcodeMask, ResponseCode.wire_fromWire]
  unfold FitsReply at hfits
  rw [ResponseCode.wire_fromWire] at hfits
  have hsmall : value.toNat < 4096 := by omega
  have hjoin := joinCode hsmall
  unfold Packet.responseCode
  rw [hflags, h.edns]
  cases opt with
  | present dnssecOk cookie =>
    dsimp only [GeneratedOpt.edns]
    rw [ResponseCode.wire_fromWire, hjoin]
  | absent =>
    -- Without an OPT record the upper bits are zero.
    have hlow : value.toNat < 16 := hfits.resolve_right fun h => h.1 rfl
    have hupper : value >>> 4 = 0 := by
      apply UInt16.toNat_inj.mp
      rw [UInt16.toNat_shiftRight]
      simp only [UInt16.reduceToNat, Nat.reduceMod]
      omega
    rw [hupper] at hjoin
    exact congrArg ResponseCode.fromWire hjoin

/-! ### Errors for parsed queries -/

/-- A code that needs no OPT record. -/
theorem fits_of_lt {value : UInt16} (opt : GeneratedOpt) (h : value.toNat < 16) :
    FitsReply (.fromWire value) opt := by
  left
  rwa [ResponseCode.wire_fromWire]

/-- Every code a query is rejected with fits into the error reply: BADVERS is the only one of
more than four bits, and it is only given to a query with an OPT record. -/
theorem Packet.code_of_reject {p : Packet} {code : ResponseCode}
    (h : p.validateQuery = .reject code) :
    ∃ value, code = .fromWire value ∧ FitsReply (.fromWire value) (generatedOpt p.edns) := by
  have hsmall : ∀ value : UInt16, value.toNat < 16 → code = .fromWire value →
      ∃ value, code = .fromWire value ∧ FitsReply (.fromWire value) (generatedOpt p.edns) :=
    fun value hlt hcode => ⟨value, hcode, fits_of_lt _ hlt⟩
  unfold validateQuery at h
  split at h
  · cases h
  · split at h
    · exact hsmall 4 (by decide) (QueryDecision.reject.inj h).symm
    · split at h
      · exact hsmall 1 (by decide) (QueryDecision.reject.inj h).symm
      · split at h
        · exact hsmall 1 (by decide) (QueryDecision.reject.inj h).symm
        · split at h
          · rename_i hversion
            refine ⟨16, (QueryDecision.reject.inj h).symm, .inr ⟨?_, by decide⟩⟩
            cases hedns : p.edns with
            | none => simp [hedns] at hversion
            | some opt => simp [generatedOpt]
          · split at h
            · split at h
              · exact hsmall 5 (by decide) (QueryDecision.reject.inj h).symm
              · cases h
            · exact hsmall 1 (by decide) (QueryDecision.reject.inj h).symm

/-- The bit AA of the flags. -/
def aaMask : UInt16 := 0x0400

/-- The bit Z of the flags. -/
def zMask : UInt16 := 0x0040

/-- The bit AD of the flags. -/
def adMask : UInt16 := 0x0020

/-- The packet `r` is an error with the given code for the query `p`, and nothing else. -/
structure Packet.ErrorFor (p : Packet) (code : ResponseCode) (r : Packet) : Prop where
  code : r.responseCode = code
  id : r.header.id = p.header.id
  echoed : r.header.flags &&& (opcodeMask ||| rdMask ||| cdMask)
    = p.header.flags &&& (opcodeMask ||| rdMask ||| cdMask)
  set : r.header.flags &&& (qrMask ||| raMask) = qrMask ||| raMask
  clear : r.header.flags &&& (aaMask ||| tcMask ||| zMask ||| adMask) = 0
  questions : r.questions = p.questions.take 1
  opt : r.edns.isSome ↔ p.edns.isSome
  fields : ∀ made ∈ r.edns, ∀ own ∈ p.edns,
    made.version = 0 ∧ made.udpSize = 1232 ∧ made.dnssecOk = own.dnssecOk
  cookie : r.cookie = none
  answers : r.header.counts.answers = 0
  authorities : r.header.counts.authorities = 0

/-- What the flags of a reply without TC say besides the code. -/
theorem replyFlags_complete (header : Header) (code : ResponseCode) :
    replyFlags header code false &&& (opcodeMask ||| rdMask ||| cdMask)
        = header.flags &&& (opcodeMask ||| rdMask ||| cdMask) ∧
      replyFlags header code false &&& (qrMask ||| raMask) = qrMask ||| raMask ∧
      replyFlags header code false &&& (aaMask ||| tcMask ||| zMask ||| adMask) = 0 := by
  refine ⟨?_, ?_, ?_⟩
  · rw [replyFlags_and_of_echoed header code false (by decide), UInt16.and_self]
  · have hrcode : rcodeMask &&& (qrMask ||| raMask) = 0 := by decide
    rw [replyFlags_and_of_set header code false (by decide), hrcode, UInt16.and_zero]
    decide
  · have hrcode : rcodeMask &&& (aaMask ||| tcMask ||| zMask ||| adMask) = 0 := by decide
    rw [replyFlags_and_of_set header code false (by decide), hrcode, UInt16.and_zero]
    decide

/-- Generated errors decode to what was meant: for every code a parsed query is rejected with,
and for NXDOMAIN and SERVFAIL on a query that may be forwarded. -/
theorem errorReply_decodes {p : Packet} {code : ResponseCode} (hp : Packet.parse p.wire = .ok p)
    (h : p.validateQuery = .reject code ∨
      (∃ q, p.validateQuery = .forward q) ∧ (code = .nameError ∨ code = .serverFailure)) :
    (p.errorReply code).length ≤ 512 ∧
      ∃ r, Packet.parse (p.errorReply code) = .ok r ∧ p.ErrorFor code r := by
  have hparsed : p.Parsed := hp
  have hnone := generatedOpt_cookie p.edns
  obtain ⟨value, rfl, hfits⟩ :
      ∃ value, code = .fromWire value ∧ FitsReply (.fromWire value) (generatedOpt p.edns) := by
    rcases h with hreject | ⟨-, rfl | rfl⟩
    · exact Packet.code_of_reject hreject
    · exact ⟨3, rfl, fits_of_lt _ (by decide)⟩
    · exact ⟨2, rfl, fits_of_lt _ (by decide)⟩
  obtain ⟨r, hr⟩ := @makeReply_repliesAs p.header p.questions.head? (.fromWire value) false
    (generatedOpt p.edns) none hparsed.question_valid (by simp) (by rw [hnone]; simp)
  obtain ⟨hechoed, hset, hclear⟩ := replyFlags_complete p.header (.fromWire value)
  refine ⟨hr.length, r, hr.parse, {
    code := hr.responseCode hfits
    id := hr.id
    echoed := by rw [hr.flags, hechoed]
    set := by rw [hr.flags, hset]
    clear := by rw [hr.flags, hclear]
    questions := by rw [hr.questions, hparsed.map_reread]
    opt := ?_
    fields := ?_
    cookie := hr.unsigned hnone
    answers := by rw [hr.counts]; rfl
    authorities := by rw [hr.counts] }⟩
  · rw [hr.edns]
    cases p.edns <;> simp [generatedOpt, GeneratedOpt.edns]
  · intro made hmade own hown
    rw [hr.edns, Option.mem_def.mp hown] at hmade
    cases hmade
    exact ⟨rfl, rfl, rfl⟩

/-- A query with EDNS version one, for the root and with the DO bit. -/
def badVersionQuery : Packet where
  wire := [0, 1, 1, 0x10, 0, 1, 0, 0, 0, 0, 0, 1, 0, 0, 1, 0, 1,
    0, 0, 41, 4, 208, 0, 1, 0x80, 0, 0, 0]
  header := ⟨⟨1⟩, 0x0110, ⟨1, 0, 0, 1⟩⟩
  questions := [⟨⟨[]⟩, .a, .in⟩]
  edns := some ⟨1232, 1, 0, true⟩
  authenticated := false
  cookie := none

/-- BADVERS comes back as BADVERS. -/
theorem errorReply_decodes_badVersion :
    badVersionQuery.validateQuery = .reject .badVersion ∧
      ∃ r, Packet.parse (badVersionQuery.errorReply .badVersion) = .ok r ∧
        r.responseCode = .badVersion := by
  have hreject : badVersionQuery.validateQuery = .reject .badVersion := by decide +kernel
  obtain ⟨-, r, hr, herror⟩ := errorReply_decodes (by decide +kernel) (.inl hreject)
  exact ⟨hreject, r, hr, herror.code⟩

end Sederial.Dns
