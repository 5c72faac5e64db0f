import Sederial.Proofs.Isolation
import Sederial.Proofs.ReplyContext
import Sederial.Proofs.ReplyEncode

/-!
# `Sederial.Proofs.ReplyShape`: every reply is a well-formed response to its request

The handler has seven exits with a reply: four local ones (`LocalReply`) and three after a
forwarded query (`Relays`), each with the RA flag possibly cleared at the end. `RepliesTo w r`
is what all of them owe the client: the request has QR clear, and the reply parses, has QR
set, the ID and the opcode of the request, and an OPT only when the request has one.

A reply has QR set and a request must not, so no handler answers a reply. This is the second
half of `respond_shape`.
-/

set_option autoImplicit false

namespace Sederial.Dns

open Sederial.Lib

/-! ### Flag words -/

/-- A word as the bits of its bytes. -/
theorem toBitVec_word (a b : UInt8) : (word a b).toBitVec = a.toBitVec ++ b.toBitVec := by
  apply BitVec.eq_of_toNat_eq
  have hb := b.toNat_lt
  rw [BitVec.toNat_append, UInt16.toNat_toBitVec, toNat_word,
    ← Nat.shiftLeft_add_eq_or_of_lt (by exact hb)]
  rw [Nat.shiftLeft_eq]
  rfl

/-- A mask is applied to each byte of a word. -/
theorem word_and (a b c d : UInt8) : word a b &&& word c d = word (a &&& c) (b &&& d) := by
  apply UInt16.toBitVec_inj.mp
  rw [UInt16.toBitVec_and, toBitVec_word, toBitVec_word, toBitVec_word, BitVec.and_append]
  rfl

/-- The opcode stands in the high byte of the flags. -/
theorem word_and_opcodeMask (a b : UInt8) : word a b &&& opcodeMask = word (a &&& 0x78) 0 := by
  have hmask : opcodeMask = word 0x78 0 := by decide
  rw [hmask, word_and, UInt8.and_zero]

/-- What a mask shows of the flags of a reply: the echoed bits of the request and the bits the
reply sets. -/
theorem replyFlags_and (header : Header) (code : ResponseCode) (truncated : Bool) (mask : UInt16) :
    replyFlags header code truncated &&& mask
      = header.flags &&& ((opcodeMask ||| rdMask ||| cdMask) &&& mask) ||| qrMask &&& mask |||
        raMask &&& mask ||| code.wire &&& (rcodeMask &&& mask) |||
        (if truncated then tcMask else 0) &&& mask := by
  have hdistrib : ∀ x y : UInt16, (x ||| y) &&& mask = (x &&& mask) ||| (y &&& mask) :=
    fun x y => UInt16.toBitVec_inj.mp BitVec.and_or_distrib_right
  unfold replyFlags
  rw [hdistrib, hdistrib, hdistrib, hdistrib, UInt16.and_assoc, UInt16.and_assoc]

/-- A mask that covers none of the bits a reply sets shows the bits of the request. -/
theorem replyFlags_and_of_echoed (header : Header) (code : ResponseCode) (truncated : Bool)
    {mask : UInt16} (hset : (qrMask ||| raMask ||| rcodeMask ||| tcMask) &&& mask = 0) :
    replyFlags header code truncated &&& mask
      = header.flags &&& ((opcodeMask ||| rdMask ||| cdMask) &&& mask) := by
  have hzero : ∀ bits : UInt16, (qrMask ||| raMask ||| rcodeMask ||| tcMask) &&& bits = bits →
      bits &&& mask = 0 := by
    intro bits hbits
    rw [← hbits, UInt16.and_comm _ bits, UInt16.and_assoc, hset, UInt16.and_zero]
  have htruncated : (if truncated then tcMask else 0) &&& mask = 0 := by
    cases truncated with
    | false => exact UInt16.zero_and
    | true => exact hzero tcMask (by decide)
  rw [replyFlags_and, htruncated, hzero qrMask (by decide), hzero raMask (by decide),
    hzero rcodeMask (by decide), UInt16.and_zero, UInt16.or_zero, UInt16.or_zero, UInt16.or_zero,
    UInt16.or_zero]

/-- A mask that covers none of the echoed bits shows nothing of the request. -/
theorem replyFlags_and_of_set (header : Header) (code : ResponseCode) (truncated : Bool)
    {mask : UInt16} (hechoed : (opcodeMask ||| rdMask ||| cdMask) &&& mask = 0) :
    replyFlags header code truncated &&& mask
      = qrMask &&& mask ||| raMask &&& mask ||| code.wire &&& (rcodeMask &&& mask) |||
        (if truncated then tcMask else 0) &&& mask := by
  rw [replyFlags_and, hechoed, UInt16.and_zero, UInt16.zero_or]

/-- A generated reply is a response. -/
theorem replyFlags_and_qrMask (header : Header) (code : ResponseCode) (truncated : Bool) :
    replyFlags header code truncated &&& qrMask = qrMask := by
  have hra : raMask &&& qrMask = 0 := by decide
  have hrcode : rcodeMask &&& qrMask = 0 := by decide
  have htruncated : (if truncated then tcMask else 0) &&& qrMask = 0 := by
    cases truncated <;> decide
  rw [replyFlags_and_of_set header code truncated (by decide), hra, hrcode, htruncated,
    UInt16.and_zero, UInt16.or_zero, UInt16.or_zero, UInt16.or_zero, UInt16.and_self]

/-- A generated reply echoes the opcode. -/
theorem replyFlags_and_opcodeMask (header : Header) (code : ResponseCode) (truncated : Bool) :
    replyFlags header code truncated &&& opcodeMask = header.flags &&& opcodeMask := by
  have hmask : (opcodeMask ||| rdMask ||| cdMask) &&& opcodeMask = opcodeMask := by decide
  rw [replyFlags_and_of_echoed header code truncated (by decide), hmask]

/-- A message is a response when QR is set. -/
theorem messageType_eq_response_iff {header : Header} :
    header.messageType = .response ↔ header.flags &&& qrMask ≠ 0 := by
  unfold Header.messageType
  split <;> simp [*]

/-- A header with opcode QUERY has no opcode bit set. -/
theorem opcodeBits_of_query {header : Header} (h : header.opcode = .query) :
    header.flags &&& opcodeMask = 0 := by
  have hbyte : ∀ i : Fin 256, (word (UInt8.ofFin i &&& 0x78) 0 >>> opcodeShift).toUInt8 = 0 →
      word (UInt8.ofFin i &&& 0x78) 0 = 0 := by
    decide +kernel
  have hzero : ((header.flags &&& opcodeMask) >>> opcodeShift).toUInt8 = 0 := by
    unfold Header.opcode Opcode.fromWire at h
    by_contra hne
    rw [if_neg hne] at h
    split at h
    · cases h
    · split at h
      · cases h
      · split at h
        · cases h
        · split at h <;> cases h
  rw [← word_wordBytes header.flags, word_and_opcodeMask] at hzero ⊢
  exact hbyte (UInt8.ofNat (header.flags.toNat / 256)).toFin hzero

/-! ### Clearing RA -/

/-- A mask without RA shows the same of the cleared flags. -/
theorem and_not_raMask (flags : UInt16) {mask : UInt16} (h : ~~~ raMask &&& mask = mask) :
    flags &&& ~~~ raMask &&& mask = flags &&& mask := by
  rw [UInt16.and_assoc, h]

/-- RA stands in the low byte of the flags. -/
theorem word_and_not_raMask (a b : UInt8) :
    word a (b &&& ~~~ raMask.toUInt8) = word a b &&& ~~~ raMask := by
  have hmask : ~~~ raMask = word 0xff (~~~ raMask.toUInt8) := by decide
  have hbyte : ∀ i : Fin 256, UInt8.ofFin i &&& 0xff = UInt8.ofFin i := by decide +kernel
  have ha : a &&& 0xff = a := hbyte a.toFin
  rw [hmask, word_and, ha]

/-- Only the low flag byte differs. -/
theorem withoutRecursion_agree (wire : List UInt8) :
    AgreeOn (fun i => i ≠ 3) wire (withoutRecursion wire) := by
  intro i hi
  rw [withoutRecursion, List.getElem?_modify_ne _ _ (Ne.symm hi)]

/-- Clearing RA keeps everything but the RA flag. -/
theorem Packet.Parsed.withoutRecursion {p : Packet} (h : p.Parsed) :
    Packet.parse (withoutRecursion p.wire) = .ok { p with
      wire := withoutRecursion p.wire
      header := { p.header with flags := p.header.flags &&& ~~~ raMask } } := by
  obtain ⟨d, hd, hpd⟩ := Packet.parsed_iff.mp h
  have hlong := h.length_le.1
  have hheader := h.headerAt
  obtain ⟨a, b, ha, hb, hflags⟩ := wordAt_eq_some_iff.mp hheader.flags
  have hkeep := withoutRecursion_agree p.wire
  have hword : ∀ i, 4 ≤ i → wordAt (Dns.withoutRecursion p.wire) i = wordAt p.wire i :=
    fun i hi => wordAt_congr fun j hj => (hkeep j (by omega)).symm
  have hheader' : HeaderAt (Dns.withoutRecursion p.wire)
      { p.header with flags := p.header.flags &&& ~~~ raMask } := by
    refine ⟨?_, ?_, (hword 4 (by omega)).trans hheader.questions,
      (hword 6 (by omega)).trans hheader.answers, (hword 8 (by omega)).trans hheader.authorities,
      (hword 10 (by omega)).trans hheader.additionals⟩
    · rw [← hheader.id]
      exact (wordAt_congr fun j hj => hkeep j (by omega)).symm
    · have hcleared : (Dns.withoutRecursion p.wire)[3]? = some (b &&& ~~~ raMask.toUInt8) := by
        rw [Dns.withoutRecursion, List.getElem?_modify_eq, hb]
        rfl
      refine wordAt_eq_some_iff.mpr ⟨a, _, (hkeep 2 (by omega)).symm.trans ha, hcleared, ?_⟩
      rw [hflags, word_and_not_raMask]
  refine Packet.parse_eq_ok_iff.mpr
    ⟨{ d with header := { p.header with flags := p.header.flags &&& ~~~ raMask } }, ?_, ?_⟩
  · have hdheader : d.header = p.header := by rw [hpd]; rfl
    have hopcode : Header.opcode
        { p.header with flags := p.header.flags &&& ~~~ raMask } = p.header.opcode := by
      unfold Header.opcode
      rw [and_not_raMask _ (by decide)]
    refine hd.congr hheader' (by rw [hdheader]) (by rw [hdheader]; exact hopcode) ?_
      fun i hi => hkeep i (by omega)
    rw [Dns.withoutRecursion, List.length_modify]
  · rw [congrArg Packet.questions hpd, congrArg Packet.edns hpd,
      congrArg Packet.authenticated hpd, congrArg Packet.cookie hpd]
    rfl

/-! ### The COOKIE of a reply -/

/-- The COOKIE data is the same when nothing behind the header changes. -/
theorem Packet.Parsed.responseCookie_congr {p p' : Packet} (h : p.Parsed)
    (hcookie : p'.cookie = p.cookie) (hwire : ∀ i, 12 ≤ i → p'.wire[i]? = p.wire[i]?) :
    Cookie.responseCookie p' = Cookie.responseCookie p := by
  unfold Cookie.responseCookie
  rw [hcookie]
  split
  · rename_i slot hslot
    have hplace := h.inPlace hslot
    have hstart : 12 ≤ slot.dataAt := by
      have h₁ := hplace.afterHeader
      have h₂ := hplace.lengths
      have h₃ := hplace.data
      omega
    have hdrop : p'.wire.drop slot.dataAt = p.wire.drop slot.dataAt := by
      apply List.ext_getElem?
      intro i
      rw [List.getElem?_drop, List.getElem?_drop, hwire _ (by omega)]
    rw [CookieSlot.data, CookieSlot.data, hdrop]
  · rfl

/-! ### Replies -/

/-- The bytes `r` are a response to the request `w`, and they parse to `p`. -/
structure RepliesTo (w : List UInt8) (header : Header) (r : List UInt8) (p : Packet) : Prop where
  request : HeaderAt w header
  query : header.messageType = .query
  parse : Packet.parse r = .ok p
  id : p.header.id = header.id
  response : p.header.messageType = .response
  opcode : p.header.flags &&& opcodeMask = header.flags &&& opcodeMask
  opt : p.edns.isSome → OptIdentified w

/-- A generated reply answers the request its header was taken from. -/
theorem RepliesAs.repliesTo {w r : List UInt8} {header : Header} {question : Option Question}
    {code : ResponseCode} {truncated : Bool} {opt : GeneratedOpt}
    {answer : Option (Ipv4Addr × UInt32)} {p : Packet}
    (h : RepliesAs r header question code truncated opt answer p) (hrequest : HeaderAt w header)
    (hquery : header.messageType = .query) (hopt : opt ≠ .absent → OptIdentified w) :
    RepliesTo w header r p where
  request := hrequest
  query := hquery
  parse := h.parse
  id := h.id
  response := by
    rw [messageType_eq_response_iff, h.flags, replyFlags_and_qrMask]
    decide
  opcode := by rw [h.flags, replyFlags_and_opcodeMask]
  opt := fun hsome => hopt fun habsent => by
    rw [h.edns, habsent] at hsome
    cases hsome

/-- The OPT record of a reply that the handler makes carries no cookie. -/
theorem generatedOpt_cookie (edns : Option Edns) : (generatedOpt edns).cookie = none := by
  cases edns <;> rfl

/-- Without an OPT record in the query there is none in the reply. -/
theorem generatedOpt_ne_absent {edns : Option Edns} (h : generatedOpt edns ≠ .absent) :
    edns.isSome := by
  cases edns with
  | none => exact (h rfl).elim
  | some opt => rfl

namespace Packet.Parsed

variable {p : Packet}

/-- A parsed message with an OPT record has one that can be identified. -/
theorem optIdentified (h : p.Parsed) (hsome : p.edns.isSome) : OptIdentified p.wire := by
  obtain ⟨d, hd, hp⟩ := Packet.parsed_iff.mp h
  refine hd.optIdentified ?_
  rw [hp, Derivation.packet, Option.isSome_map] at hsome
  exact hsome

/-- The question of a parsed message has a name that can be encoded. -/
theorem question_valid (h : p.Parsed) : ∀ q ∈ p.questions.head?, q.name.Valid := by
  intro q hq
  obtain ⟨d, hd, hp⟩ := Packet.parsed_iff.mp h
  obtain ⟨m, htiles, -⟩ := hd.tiles
  rw [hp] at hq
  obtain ⟨v, hv, rfl⟩ := List.mem_map.mp (List.mem_of_mem_head? hq)
  exact (htiles.forall_mem v hv).name.valid

/-- A reply made from the fields of a parsed query. -/
theorem makeReply_repliesTo (h : p.Parsed) (hquery : p.header.messageType = .query)
    (code : ResponseCode) (truncated : Bool) {opt : GeneratedOpt}
    {answer : Option (Ipv4Addr × UInt32)} (hopt : opt ≠ .absent → p.edns.isSome)
    (hanswer : answer.isSome → p.questions.head?.isSome)
    (hcookie : ∀ c ∈ opt.cookie, 16 ≤ c.length ∧ c.length ≤ 40) :
    ∃ reply, RepliesTo p.wire p.header
        (makeReply p.header p.questions.head? code truncated opt answer) reply ∧
      RepliesAs (makeReply p.header p.questions.head? code truncated opt answer) p.header
        p.questions.head? code truncated opt answer reply := by
  obtain ⟨reply, hreply⟩ := makeReply_repliesAs p.header code truncated h.question_valid hanswer
    hcookie
  exact ⟨reply, hreply.repliesTo h.headerAt hquery fun hne => h.optIdentified (hopt hne), hreply⟩

end Packet.Parsed

/-- What all local answers and errors have in common: they are small and complete, and they have
no COOKIE. -/
structure LocallyMade (r : List UInt8) (p : Packet) : Prop where
  length : r.length ≤ 512
  complete : p.header.truncated = false
  cookie : p.cookie = none

/-- TC of a reply that the handler makes is the flag it was made with. -/
theorem replyFlags_truncated {header p : Header} {code : ResponseCode} {truncated : Bool}
    (h : p.flags = replyFlags header code truncated) : p.truncated = truncated := by
  have hqr : qrMask &&& tcMask = 0 := by decide
  have hra : raMask &&& tcMask = 0 := by decide
  have hrcode : rcodeMask &&& tcMask = 0 := by decide
  unfold Header.truncated
  rw [h, replyFlags_and_of_set header code truncated (by decide), hqr, hra, hrcode,
    UInt16.and_zero, UInt16.or_zero, UInt16.or_zero, UInt16.zero_or]
  cases truncated <;> decide

/-- A reply without TC and without a COOKIE is locally made. -/
theorem RepliesAs.locallyMade {r : List UInt8} {header : Header} {question : Option Question}
    {code : ResponseCode} {opt : GeneratedOpt} {answer : Option (Ipv4Addr × UInt32)} {p : Packet}
    (h : RepliesAs r header question code false opt answer p) (hnone : opt.cookie = none) :
    LocallyMade r p :=
  ⟨h.length, replyFlags_truncated h.flags, h.unsigned hnone⟩

namespace Packet.Parsed

variable {p : Packet}

/-- A reply that the handler makes is a reply to its message, and is made locally. -/
theorem local_repliesTo (h : p.Parsed) (hquery : p.header.messageType = .query)
    (code : ResponseCode) {answer : Option (Ipv4Addr × UInt32)}
    (hanswer : answer.isSome → p.questions.head?.isSome) :
    ∃ reply, RepliesTo p.wire p.header
        (makeReply p.header p.questions.head? code false (generatedOpt p.edns) answer) reply ∧
      LocallyMade
        (makeReply p.header p.questions.head? code false (generatedOpt p.edns) answer) reply := by
  have hnone := generatedOpt_cookie p.edns
  obtain ⟨reply, hreply, has⟩ := h.makeReply_repliesTo hquery code false
    generatedOpt_ne_absent hanswer (by rw [hnone]; simp)
  exact ⟨reply, hreply, has.locallyMade hnone⟩

/-- So is an error reply. -/
theorem errorReply_repliesTo (h : p.Parsed) (hquery : p.header.messageType = .query)
    {code : ResponseCode} {r : List UInt8} (hr : p.localErrorReply code = some r) :
    ∃ reply, RepliesTo p.wire p.header r reply ∧ LocallyMade r reply := by
  unfold Packet.localErrorReply at hr
  split at hr
  · cases hr
  · cases hr
    exact h.local_repliesTo hquery code fun hsome => nomatch hsome

/-- So is a reply with a local address. -/
theorem aReply_repliesTo (h : p.Parsed) (hquery : p.header.messageType = .query)
    {address : Ipv4Addr} {ttl : UInt32} {r : List UInt8}
    (hr : p.localAReply address ttl = some r) :
    ∃ reply, RepliesTo p.wire p.header r reply ∧ LocallyMade r reply := by
  unfold Packet.localAReply at hr
  split at hr
  · cases hr
  · split at hr
    · cases hr
    · rename_i question hhead
      cases hr
      rw [← hhead]
      exact h.local_repliesTo hquery _ fun _ => by rw [hhead]; rfl

end Packet.Parsed

/-- A reply to a message that does not parse. -/
theorem formatReply_repliesTo {w r : List UInt8} {failure : ParseFailure}
    (h : Packet.parseForReply w = .error failure) (hr : failure.formatReply = some r) :
    ∃ header reply, RepliesTo w header r reply ∧ LocallyMade r reply := by
  obtain ⟨context, hcontext, rfl⟩ := Option.map_eq_some_iff.mp hr
  have hfaithful := context_faithful h hcontext
  unfold ReplyContext.formatReply
  split
  · obtain ⟨reply, hreply⟩ := @makeReply_repliesAs context.header none
      HeaderResponseCode.formatError.asResponse false .absent none (fun q hq => nomatch hq)
      (fun h => nomatch h) fun c hc => nomatch hc
    exact ⟨_, reply, hreply.repliesTo hfaithful.header hfaithful.query fun hne => (hne rfl).elim,
      hreply.locallyMade rfl⟩
  · have hnone := generatedOpt_cookie context.edns
    obtain ⟨reply, hreply⟩ :=
      @makeReply_repliesAs context.header context.question .formatError false
      (generatedOpt context.edns) none hfaithful.question (fun h => nomatch h)
      (by rw [hnone]; simp)
    exact ⟨_, reply, hreply.repliesTo hfaithful.header hfaithful.query fun hne =>
      hfaithful.opt (generatedOpt_ne_absent hne), hreply.locallyMade hnone⟩

end Sederial.Dns

namespace Sederial

open Sederial.Lib
open Sederial.Dns (GeneratedOpt Header HeaderAt LocallyMade OptIdentified Packet Query RepliesAs
  RepliesTo Response generatedOpt opcodeMask rootQuery rootResponse setId)
open Sederial.Dns.Cookie (responseCookie)

/-! ### Replies made from an upstream response -/

/-- The OPT record of the TC reply. -/
def Dns.Packet.truncatedOpt (p : Packet) (response : Response) : GeneratedOpt :=
  match generatedOpt p.edns with
  | .present dnssecOk _ => .present dnssecOk (responseCookie response.packet)
  | .absent => .absent

/-- The truncated reply has an OPT record only if the query has one. -/
theorem Dns.Packet.truncatedOpt_ne_absent (p : Packet) {response : Response}
    (h : p.truncatedOpt response ≠ .absent) : p.edns.isSome := by
  unfold truncatedOpt at h
  split at h
  · rename_i hpresent
    exact Dns.generatedOpt_ne_absent (by rw [hpresent]; simp)
  · exact (h rfl).elim

/-- The cookie of a truncated reply is that of the response. -/
theorem Dns.Packet.truncatedOpt_cookie (p : Packet) {response : Response} {c : List UInt8}
    (h : (p.truncatedOpt response).cookie = some c) : responseCookie response.packet = some c := by
  unfold truncatedOpt at h
  split at h
  · exact h
  · cases h

section

variable {q : Query} {required : Bool} {response : Response}

/-- An accepted response has no COOKIE, or one that returns the client cookie. With `required`
it has one. -/
theorem Dns.Query.Answered.cookie (h : q.Answered required response) (hq : q.packet.Parsed) :
    (response.packet.cookie = none ∧ required = false) ∨
      ∃ received client, responseCookie response.packet = some received ∧
        responseCookie q.packet = some client ∧ received.take 8 = client.take 8 ∧
        16 ≤ received.length ∧ received.length ≤ 40 := by
  obtain ⟨s, hresent, haccepts, -, hrequired⟩ := h
  rcases Dns.Cookie.of_validResponse haccepts.cookie with ⟨hnone, hnot⟩ |
    ⟨received, own, hreceived, hown, hsame, hlength⟩
  · refine .inl ⟨hnone, Bool.eq_false_iff.mpr fun h => ?_⟩
    rw [hrequired h] at hnot
    cases hnot
  · obtain ⟨client, hclient, htake⟩ := hresent.clientCookie hq hown
    exact .inr ⟨received, client, hreceived, hclient, hsame.trans htake, hlength⟩

variable (h : q.Answered required response) (hq : q.packet.Parsed)
  (hforward : q.packet.Forwardable q.question)

include h hq hforward

/-- The TC reply made from an accepted response. Its COOKIE is the one of the response. -/
theorem Dns.Query.Answered.truncated_repliesTo :
    ∃ p, RepliesTo q.packet.wire q.packet.header (q.truncatedReply response) p ∧
      RepliesAs (q.truncatedReply response) q.packet.header q.packet.questions.head?
        response.responseCode true (q.packet.truncatedOpt response) none p := by
  refine @Packet.Parsed.makeReply_repliesTo q.packet hq hforward.query response.responseCode true
    (q.packet.truncatedOpt response) none q.packet.truncatedOpt_ne_absent (by simp)
    fun c hc => ?_
  have hc := q.packet.truncatedOpt_cookie hc
  rcases h.cookie hq with ⟨hnone, -⟩ | ⟨received, -, hreceived, -, -, hlength⟩
  · rw [responseCookie, hnone] at hc
    cases hc
  · rw [hreceived] at hc
    cases hc
    exact hlength

/-- A relayed response is a reply to the query of the client. -/
theorem Dns.Query.Answered.relayed_repliesTo :
    RepliesTo q.packet.wire q.packet.header (response.withId q.id)
      (response.packet.renumbered q.id) := by
  obtain ⟨s, hresent, haccepts, hparsed, -⟩ := h
  have hcorresponds := haccepts.corresponds
  have hopcode : response.packet.header.opcode = .query := by
    rw [hcorresponds.opcode, hresent.header]
    exact hforward.opcode
  exact {
    request := hq.headerAt
    query := hforward.query
    parse := hparsed.renumber q.id
    id := rfl
    response := hcorresponds.response
    opcode := (Dns.opcodeBits_of_query hopcode).trans
      (Dns.opcodeBits_of_query hforward.opcode).symm
    opt := fun hsome => by
      have hsent := hcorresponds.edns hsome
      rw [hresent.edns] at hsent
      exact hq.optIdentified hsent }

end

/-! ### The exits of the handler -/

namespace RequestHandler

variable {routing : RoutingTable} {wire reply : List UInt8} {transport : Transport}

/-- Every local reply answers its request. -/
theorem LocalReply.repliesTo (h : LocalReply routing wire reply) :
    ∃ header p, RepliesTo wire header reply p ∧ LocallyMade reply p := by
  cases h with
  | malformed parse made => exact Dns.formatReply_repliesTo parse made
  | rejected parse reject made =>
    rw [← Packet.wire_of_parse parse]
    exact ⟨_, (Packet.parsed_of_parse parse).errorReply_repliesTo
      (Packet.query_of_reject reject) made⟩
  | answered parse forward _ made =>
    obtain ⟨-, hforward⟩ := Packet.validateQuery_eq_forward_iff.mp forward
    rw [← Packet.wire_of_parse parse]
    exact ⟨_, (Packet.parsed_of_parse parse).aReply_repliesTo hforward.query made⟩
  | unmatched parse forward _ made =>
    obtain ⟨-, hforward⟩ := Packet.validateQuery_eq_forward_iff.mp forward
    rw [← Packet.wire_of_parse parse]
    exact ⟨_, (Packet.parsed_of_parse parse).errorReply_repliesTo hforward.query made⟩

/-- Every reply to a forwarded query answers its request. It has no COOKIE, or the one of the
response it was made from. -/
theorem Relays.repliesTo {q : Query} {group : UpstreamGroup}
    {outcome : Except ForwardError Response} (h : Relays q transport outcome reply)
    (hchosen : Forwards routing wire q group)
    (hanswered : ∀ x, outcome = .ok x → q.Answered false x) :
    ∃ p, RepliesTo wire q.packet.header reply p ∧ (p.cookie = none ∨
      ∃ response c, outcome = .ok response ∧ responseCookie p = some c ∧
        responseCookie response.packet = some c) := by
  obtain ⟨-, hforward⟩ := Packet.validateQuery_eq_forward_iff.mp hchosen.forward
  have hq := Packet.parsed_of_parse hchosen.parse
  rw [← Packet.wire_of_parse hchosen.parse]
  cases h with
  -- `SERVFAIL` is a reply of the code's own.
  | failed made =>
    obtain ⟨p, hp, hlocal⟩ := hq.errorReply_repliesTo hforward.query made
    exact ⟨p, hp, .inl hlocal.cookie⟩
  -- The TC reply repeats the cookie of the response.
  | @truncated response _ =>
    obtain ⟨p, hp, has⟩ := (hanswered _ rfl).truncated_repliesTo hq hforward
    refine ⟨p, hp, ?_⟩
    cases hcookie : (q.packet.truncatedOpt response).cookie with
    | none => exact .inl (has.unsigned hcookie)
    | some c =>
      exact .inr ⟨response, c, rfl, has.cookie.trans hcookie, q.packet.truncatedOpt_cookie hcookie⟩
  | @relayed response _ =>
    have hresponse : response.packet.Parsed := by
      obtain ⟨-, -, -, hparsed, -⟩ := hanswered _ rfl
      exact hparsed
    -- The identifier is no part of the cookie.
    have hsame : responseCookie (response.packet.renumbered q.id)
        = responseCookie response.packet := by
      refine hresponse.responseCookie_congr rfl fun i hi => ?_
      have hlong := hresponse.length_le.1
      exact (Dns.setId_agree q.id (by omega) i (by omega)).symm
    refine ⟨_, (hanswered _ rfl).relayed_repliesTo hq hforward, ?_⟩
    rcases (hanswered _ rfl).cookie hq with ⟨hnone, -⟩ | ⟨c, -, hc, -⟩
    · exact .inl hnone
    · exact .inr ⟨response, c, rfl, hsame.trans hc, hc⟩

/-- Where the reply of a run comes from. -/
theorem RespondLog.origin {T : UpstreamAddress → SocketAddr → Prop} {request : Deadline}
    {new : List Event} (h : RespondLog T routing wire transport request (.ok reply) new) :
    LocalReply routing wire reply ∨
      ∃ q group outcome, Forwards routing wire q group ∧ Relays q transport outcome reply ∧
        ∀ x, outcome = .ok x → q.Answered false x ∧ x ∈ Event.accepted new := by
  cases h with
  | alone _ hreply => exact .inl (hreply reply rfl)
  | forwarded chosen _ walk _ hreply =>
    refine .inr ⟨_, _, _, chosen, hreply reply rfl, fun x hx => ?_⟩
    rcases walk.answered hx with hnone | ⟨hanswered, hmem⟩
    · cases hnone
    · rw [Event.accepted_append, Event.accepted_append]
      exact ⟨hanswered, List.mem_append_left _ (List.mem_append_right _ hmem)⟩

/-- Clearing RA keeps a reply and its COOKIE. -/
theorem finished_repliesTo {header : Header} {p : Packet} (h : RepliesTo wire header reply p)
    (routing : RoutingTable) :
    ∃ p', RepliesTo wire header (finished routing reply) p' ∧ p'.cookie = p.cookie ∧
      responseCookie p' = responseCookie p ∧ p'.header.truncated = p.header.truncated := by
  unfold finished
  split
  · exact ⟨p, h, rfl, rfl, rfl⟩
  · have hparsed := Packet.parsed_of_parse h.parse
    have hparse := hparsed.withoutRecursion
    rw [Packet.wire_of_parse h.parse] at hparse
    refine ⟨_, {
      request := h.request
      query := h.query
      parse := hparse
      id := h.id
      response := by
        rw [Dns.messageType_eq_response_iff, Dns.and_not_raMask _ (by decide)]
        exact Dns.messageType_eq_response_iff.mp h.response
      opcode := (Dns.and_not_raMask _ (by decide)).trans h.opcode
      opt := h.opt }, rfl, ?_, ?_⟩
    · refine hparsed.responseCookie_congr rfl fun i hi => ?_
      rw [← Packet.wire_of_parse h.parse]
      exact (Dns.withoutRecursion_agree _ i (by omega)).symm
    · unfold Header.truncated
      rw [Dns.and_not_raMask _ (by decide)]

/-- Every reply of a handler answers its request. -/
theorem respond_repliesTo {request : Deadline} {s : Forwarder}
    (h : ((respond routing wire transport request).exec s).1 = .ok reply) :
    ∃ header p, RepliesTo wire header reply p := by
  obtain ⟨-, new, -, inner, hlog, hreply⟩ := respond_logs (T := fun _ _ => True) routing wire
    transport request (fun _ => trivial) s fun _ _ => trivial
  obtain ⟨reply', rfl, rfl⟩ := hreply reply h
  rcases hlog.origin with hlocal | ⟨q, group, outcome, hchosen, hrelays, hanswered⟩
  · obtain ⟨header, p, hp, -⟩ := hlocal.repliesTo
    obtain ⟨p', hp', -⟩ := finished_repliesTo hp routing
    exact ⟨header, p', hp'⟩
  · obtain ⟨p, hp, -⟩ := hrelays.repliesTo hchosen fun x hx => (hanswered x hx).1
    obtain ⟨p', hp', -⟩ := finished_repliesTo hp routing
    exact ⟨_, p', hp'⟩

/-- Reply shape and no reflection. Whatever the table, the state of the handler and its peers
do, a reply goes to a request of at least twelve bytes with QR clear. It parses, starts with the
ID of the request, has QR set and the opcode of the request, fits into 65535 bytes, and has an
OPT only if one was identified in the request. No handler answers it. -/
theorem respond_shape (routing : RoutingTable) (wire : List UInt8) (transport : Transport)
    (request : Deadline) (s : Forwarder) (reply : List UInt8)
    (h : ((respond routing wire transport request).exec s).1 = .ok reply) :
    12 ≤ wire.length ∧
      (∃ header p, Header.parse wire = .ok header ∧ header.messageType = .query ∧
        Packet.parse reply = .ok p ∧ p.header.messageType = .response ∧
        p.header.flags &&& opcodeMask = header.flags &&& opcodeMask ∧
        (p.edns.isSome → OptIdentified wire)) ∧
      reply.take 2 = wire.take 2 ∧ reply.length ≤ 65535 ∧
      ∀ (routing' : RoutingTable) (transport' : Transport) (request' : Deadline)
        (s' : Forwarder),
        ((respond routing' reply transport' request').exec s').1 = .error .silent := by
  obtain ⟨header, p, hp⟩ := respond_repliesTo h
  have hparsed := Packet.parsed_of_parse hp.parse
  have hheader : HeaderAt reply p.header := by
    rw [← Packet.wire_of_parse hp.parse]
    exact hparsed.headerAt
  have hlength := hparsed.length_le
  rw [Packet.wire_of_parse hp.parse] at hlength
  refine ⟨Lib.lt_of_wordAt_eq_some hp.request.additionals, ?_, ?_, hlength.2,
    fun routing' transport' request' s' => ?_⟩
  · exact ⟨header, p, Dns.Header.parse_eq_ok_iff.mpr hp.request, hp.query, hp.parse, hp.response,
      hp.opcode, hp.opt⟩
  · have hid := hheader.id
    rw [hp.id] at hid
    obtain ⟨hfirst, hsecond⟩ := Lib.getElem?_eq_of_wordAt_eq hid hp.request.id
    apply List.ext_getElem?
    intro i
    match i with
    | 0 => rw [List.getElem?_take_of_lt (by omega), List.getElem?_take_of_lt (by omega), hfirst]
    | 1 => rw [List.getElem?_take_of_lt (by omega), List.getElem?_take_of_lt (by omega), hsecond]
    | i + 2 => rw [List.getElem?_take_eq_none (by omega), List.getElem?_take_eq_none (by omega)]
  · cases hrespond : ((respond routing' reply transport' request').exec s').1 with
    | error e => rfl
    | ok reply' =>
      -- The reply would have to be a request, but its QR is set.
      obtain ⟨header', p', hp'⟩ := respond_repliesTo hrespond
      have hsame := Dns.Header.parse_eq_ok_iff.mpr hp'.request
      rw [Dns.Header.parse_eq_ok_iff.mpr hheader] at hsame
      cases hsame
      have hquery := hp'.query
      rw [hp.response] at hquery
      cases hquery

/-- A table that sends every query to `oneServer`. -/
def defaultTable : RoutingTable where
  default := some Forwarder.oneServer
  routes := []
  localRecords := []
  distinct := .nil
  routesSorted := .nil
  localSorted := .nil

/-- The answer to a query for the root, and that no handler answers it in turn. -/
theorem respond_shape_rootQuery :
    ((respond defaultTable rootQuery.wire .udp ⟨5000000000⟩).exec
        (Forwarder.challenged (setId rootResponse.wire ⟨1⟩) [])).1
        = .ok (rootResponse.withId ⟨1⟩) ∧
      (rootResponse.withId ⟨1⟩).take 2 = rootQuery.wire.take 2 ∧
      ∀ s, ((respond defaultTable (rootResponse.withId ⟨1⟩) .udp ⟨5000000000⟩).exec s).1
        = .error .silent := by
  have hrun : ((respond defaultTable rootQuery.wire .udp ⟨5000000000⟩).exec
      (Forwarder.challenged (setId rootResponse.wire ⟨1⟩) [])).1
      = .ok (rootResponse.withId ⟨1⟩) := by
    decide +kernel
  obtain ⟨-, -, hid, -, hsilent⟩ := respond_shape _ _ _ _ _ _ hrun
  exact ⟨hrun, hid, hsilent _ _ _⟩

end RequestHandler

end Sederial
