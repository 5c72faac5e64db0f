import Sederial.Proofs.GeneratedReply
import Sederial.Proofs.LongestMatch
import Sederial.Proofs.TcpExchange

/-!
# `Sederial.Proofs.LocalAnswer`: answers from local records

A query whose longest matching suffix is a local record is answered without any server.
`Dns.Query.LocallyAnswered` says what the client can rely on. The owner of the answer is a
fixed pointer to offset 12, and the question always stands there uncompressed, so the
readers of the parser find the question name again (`AnswersWith.of_stands`).

`respond_localRecord` is the run. It looks twice at the clock and does nothing else.
-/

set_option autoImplicit false

namespace Sederial.Dns

open Sederial.Lib

/-- The question asks for addresses in class IN. -/
def Question.asksAddress (question : Question) : Bool :=
  question.class_ = .in && (question.kind = .a || question.kind = .any)

/-- The readers of the parser find the question at the start of the reply, and behind it the
address record. -/
def AnswersWith (reply : List UInt8) (question : Question) (address : Ipv4Addr)
    (ttl : UInt32) : Prop :=
  ∃ m next record, Reader.question reply headerLength = .ok (question, m) ∧
    Reader.resourceRecord reply m = .ok (record, next) ∧
    record.owner = question.name ∧ record.kind = .a ∧ record.class_ = .dns .in ∧
    record.ttl = ttl ∧ slice reply record.dataStart record.dataEnd = some address.octets

/-- It is enough that the question and the answer stand behind the header. -/
theorem AnswersWith.of_stands {reply : List UInt8} {question : Question} {address : Ipv4Addr}
    {ttl : UInt32} (hvalid : question.name.Valid) (hreread : question.reread = question)
    (h : Stands reply 12 (question.encode ++ encodeAnswer address ttl)) :
    AnswersWith reply question address ttl := by
  obtain ⟨hquestion, hanswer⟩ := stands_append_iff.mp h
  have htiles := @tiles_questionViews (some question) _
    (fun q hq => Option.some.inj hq ▸ hvalid) hquestion
  obtain ⟨-, hquestionAt, -⟩ := tiles_cons_iff.mp htiles
  have hname : Stands reply 12 question.name.encode :=
    (stands_append_iff.mp (stands_append_iff.mp hquestion).1).1
  -- The answer names its owner by a pointer to offset 12, where the question starts.
  have hlength : question.encode.length = question.name.encode.length + 4 := by
    simp [Question.encode]
  obtain ⟨henvelope, hoctets⟩ := answer_envelopeAt hvalid hname (by omega) hanswer
  refine ⟨12 + question.encode.length, _, _,
    Reader.question_eq_ok_iff.mpr ⟨_, hquestionAt, rfl, ?_, hreread⟩,
    Reader.resourceRecord_eq_ok_iff.mpr ⟨_, _, _, _, _, _, henvelope, rfl, rfl⟩,
    rfl, rfl, rfl, rfl, ?_⟩
  · show 12 + question.name.encode.length + 4 = _
    omega
  · exact hoctets.slice (by simp [Ipv4Addr.octets])

/-- What a client learns from the answer to its query. With `recursion` the RA flag is set. -/
structure Query.LocallyAnswered (q : Query) (address : Ipv4Addr) (ttl : UInt32)
    (recursion : Bool) (reply : List UInt8) : Prop where
  length : reply.length ≤ 512
  decodes : ∃ p, Packet.parse reply = .ok p ∧ p.correspondsTo q q.id = true ∧
    p.responseCode = (if q.question.class_ = .in then .noError else .refused) ∧
    p.header.counts.answers = (if q.question.asksAddress then 1 else 0) ∧
    (p.header.flags &&& raMask ≠ 0 ↔ recursion = true) ∧
    p.header.flags &&& (aaMask ||| adMask ||| tcMask) = 0
  answer : q.question.asksAddress → AnswersWith reply q.question address ttl

/-- The code of a local answer. -/
def localCode (question : Question) : ResponseCode :=
  if question.class_ = .in then .noError else .refused

/-- The answer record of a local answer. -/
def localAnswer (question : Question) (address : Ipv4Addr) (ttl : UInt32) :
    Option (Ipv4Addr × UInt32) :=
  if question.asksAddress then some (address, ttl) else none

/-- The code of a local answer fits the four bits of the header. -/
theorem localCode_eq_fromWire (question : Question) :
    ∃ value : UInt16, localCode question = .fromWire value ∧ value.toNat < 16 := by
  unfold localCode
  split
  · exact ⟨0, rfl, by decide⟩
  · exact ⟨5, rfl, by decide⟩

/-- Without a Server Cookie the answer is the generated reply. -/
theorem localAReply_eq {q : Query} (hforward : q.packet.Forwardable q.question)
    (hcookie : q.packet.suppliesServerCookie = false) (address : Ipv4Addr) (ttl : UInt32) :
    q.localAReply address ttl = some (makeReply q.packet.header (some q.question)
      (localCode q.question) false (generatedOpt q.packet.edns)
      (localAnswer q.question address ttl)) := by
  show q.packet.localAReply address ttl = _
  unfold Packet.localAReply
  rw [if_neg (by simp [hcookie]), hforward.questions]
  simp only [List.head?_cons, localCode, localAnswer, Question.asksAddress, Bool.and_eq_true,
    Bool.or_eq_true, decide_eq_true_eq]

/-- RA and the flags an answer leaves clear. -/
theorem replyFlags_local (header : Header) (code : ResponseCode) :
    replyFlags header code false &&& raMask = raMask ∧
      replyFlags header code false &&& (aaMask ||| adMask ||| tcMask) = 0 := by
  have hra : rcodeMask &&& raMask = 0 := by decide
  have hrcode : rcodeMask &&& (aaMask ||| adMask ||| tcMask) = 0 := by decide
  constructor
  · rw [replyFlags_and_of_set header code false (by decide), hra, UInt16.and_zero]
    decide
  · rw [replyFlags_and_of_set header code false (by decide), hrcode, UInt16.and_zero]
    decide

/-- A generated reply without TC to the question of a query corresponds to the query. -/
theorem RepliesAs.corresponds {q : Query} {wire : List UInt8} {code : ResponseCode}
    {answer : Option (Ipv4Addr × UInt32)} {p : Packet}
    (h : RepliesAs wire q.packet.header (some q.question) code false (generatedOpt q.packet.edns)
      answer p) (hreread : q.question.reread = q.question)
    (hquestions : q.packet.questions = [q.question]) (hauth : p.authenticated = false) :
    p.Corresponds q.packet q.id where
  response := by
    rw [messageType_eq_response_iff, h.flags, replyFlags_and_qrMask]
    decide
  id := h.id
  opcode := by
    unfold Header.opcode
    rw [h.flags, replyFlags_and_opcodeMask]
  questions := by
    rw [h.questions, hquestions]
    simp only [Option.toList_some, List.map_cons, List.map_nil, hreread]
    exact questions_beq_singleton.mpr ⟨_, rfl, DomainName.beq_self _, rfl, rfl⟩
  version := by
    intro opt hopt
    rw [h.edns] at hopt
    cases hedns : q.packet.edns with
    | none => simp [hedns, generatedOpt, GeneratedOpt.edns] at hopt
    | some own =>
      rw [hedns] at hopt
      cases hopt
      rfl
  edns := by
    intro hsome
    rw [h.edns] at hsome
    cases hedns : q.packet.edns with
    | none => simp [hedns, generatedOpt, GeneratedOpt.edns] at hsome
    | some own => rfl
  unauthenticated := hauth

/-- The answer to a query without a Server Cookie. -/
theorem localAReply_answers {q : Query} (hq : q.packet.Parsed)
    (hforward : q.packet.Forwardable q.question)
    (hcookie : q.packet.suppliesServerCookie = false) (address : Ipv4Addr) (ttl : UInt32) :
    ∃ reply, q.localAReply address ttl = some reply ∧
      q.LocallyAnswered address ttl true reply := by
  refine ⟨_, localAReply_eq hforward hcookie address ttl, ?_⟩
  have hnone := generatedOpt_cookie q.packet.edns
  have hhead : q.packet.questions.head? = some q.question := by rw [hforward.questions]; rfl
  have hvalid : ∀ x ∈ some q.question, x.name.Valid := by
    rw [← hhead]
    exact hq.question_valid
  have hreread : q.question.reread = q.question := by
    have hmap := hq.map_reread
    rw [hforward.questions] at hmap
    simpa using hmap
  have hshort : ∀ c ∈ (generatedOpt q.packet.edns).cookie, 16 ≤ c.length ∧ c.length ≤ 40 := by
    rw [hnone]
    simp
  have hquestion : (localAnswer q.question address ttl).isSome → (some q.question).isSome :=
    fun _ => rfl
  -- The code is below 16, so it needs no OPT record to carry its upper bits.
  obtain ⟨value, hvalue, hsmall⟩ := localCode_eq_fromWire q.question
  -- What the generated reply decodes to holds for any code and any answer.
  obtain ⟨p, hp⟩ := makeReply_repliesAs q.packet.header (localCode q.question) false hvalid
    hquestion hshort
  have hauth := makeReply_unauthenticated hvalid hquestion hshort hp.parse
  obtain ⟨hra, hclear⟩ := replyFlags_local q.packet.header (localCode q.question)
  have hcode : p.responseCode = localCode q.question := by
    rw [hvalue] at hp ⊢
    exact hp.responseCode (fits_of_lt _ hsmall)
  refine ⟨hp.length, ⟨p, hp.parse, ?_, hcode, ?_, ?_, ?_⟩, fun hasks => ?_⟩
  · exact Packet.correspondsTo_iff.mpr (hp.corresponds hreread hforward.questions hauth)
  · rw [hp.counts]
    by_cases hasks : q.question.asksAddress = true
    · simp [localAnswer, hasks]
    · simp [localAnswer, hasks]
  · rw [hp.flags, hra]
    simp [raMask]
  · rw [hp.flags, hclear]
  · refine .of_stands (hvalid _ rfl) hreread ?_
    rw [localAnswer, if_pos hasks]
    exact ⟨_, rfl⟩

/-- What stands behind the header stays. -/
theorem AnswersWith.withoutRecursion {reply : List UInt8} {question : Question}
    {address : Ipv4Addr} {ttl : UInt32} (h : AnswersWith reply question address ttl) :
    AnswersWith (withoutRecursion reply) question address ttl := by
  have hagree := withoutRecursion_agree reply
  obtain ⟨m, next, record, hquestion, hrecord, howner, hkind, hclass, httl, hdata⟩ := h
  obtain ⟨v, hv, hstart, hstop, hquestion⟩ := Reader.question_eq_ok_iff.mp hquestion
  obtain ⟨fixedAt, labels, kind, class_, ttl, length, henvelope, hnext, hrecord⟩ :=
    Reader.resourceRecord_eq_ok_iff.mp hrecord
  have hname := hv.name.lt_end
  have hfirst : 12 ≤ v.start := Nat.le_of_eq hstart.symm
  have hm : 12 < m := by
    rw [← hstop]
    show 12 < v.fixedAt + 4
    omega
  have hfixed := henvelope.owner.lt_end
  -- No reader looks at the header again.
  have hbehind : ∀ i, 12 ≤ i → reply[i]? = (Dns.withoutRecursion reply)[i]? :=
    fun i hi => hagree i (by show i ≠ 3; omega)
  have hword : ∀ i, 12 ≤ i → wordAt (Dns.withoutRecursion reply) i = wordAt reply i :=
    fun i hi => wordAt_congr fun j hj => (hbehind j (by omega)).symm
  refine ⟨m, next, record, Reader.question_eq_ok_iff.mpr ⟨v, ?_, hstart, hstop, hquestion⟩,
    Reader.resourceRecord_eq_ok_iff.mpr ⟨fixedAt, labels, kind, class_, ttl, length, ?_, hnext,
      hrecord⟩, howner, hkind, hclass, httl, ?_⟩
  · refine ⟨hv.name.congr_afterHeader hfirst hbehind, ?_, ?_⟩
    · rw [hword _ (by omega)]
      exact hv.kind
    · rw [hword _ (by omega)]
      exact hv.class_
  · refine ⟨henvelope.owner.congr_afterHeader (by omega) hbehind, ?_, ?_, ?_, ?_⟩
    · rw [hword _ (by omega)]
      exact henvelope.kind
    · rw [hword _ (by omega)]
      exact henvelope.class_
    · rw [doubleWordAt_congr fun j hj => (hbehind j (by omega)).symm]
      exact henvelope.ttl
    · rw [hword _ (by omega)]
      exact henvelope.length
  · have hstart : 12 ≤ record.dataStart := by
      rw [hrecord]
      show 12 ≤ fixedAt + 10
      omega
    rw [← hdata]
    refine (slice_congr (by rw [Dns.withoutRecursion, List.length_modify]) fun i hi => ?_).symm
    exact hbehind i (by omega)

/-- Clearing RA changes nothing else. -/
theorem Query.LocallyAnswered.withoutRecursion {q : Query} {address : Ipv4Addr} {ttl : UInt32}
    {reply : List UInt8} (h : q.LocallyAnswered address ttl true reply) :
    q.LocallyAnswered address ttl false (withoutRecursion reply) := by
  obtain ⟨p, hp, hcorresponds, hcode, hanswers, -, hclear⟩ := h.decodes
  have hparse := (Packet.parsed_of_parse hp).withoutRecursion
  rw [Packet.wire_of_parse hp] at hparse
  have hcorresponds := Packet.correspondsTo_iff.mp hcorresponds
  refine ⟨?_, ⟨_, hparse, Packet.correspondsTo_iff.mpr ?_, ?_, hanswers, ?_, ?_⟩,
    fun hasks => (h.answer hasks).withoutRecursion⟩
  · rw [Dns.withoutRecursion, List.length_modify]
    exact h.length
  · refine ⟨?_, hcorresponds.id, ?_, hcorresponds.questions, hcorresponds.version,
      hcorresponds.edns, hcorresponds.unauthenticated⟩
    · rw [messageType_eq_response_iff, and_not_raMask _ (by decide)]
      exact messageType_eq_response_iff.mp hcorresponds.response
    · rw [← hcorresponds.opcode]
      unfold Header.opcode
      rw [and_not_raMask _ (by decide)]
  · rw [← hcode]
    unfold Packet.responseCode
    rw [and_not_raMask _ (by decide)]
  · have hcleared : ~~~ raMask &&& raMask = 0 := by decide
    simp [UInt16.and_assoc, hcleared]
  · rw [and_not_raMask _ (by decide), hclear]

end Sederial.Dns

namespace Sederial

open Sederial.Lib
open Sederial.Dns (Header Packet Query)

namespace RequestHandler

/-- A deadline check of the handler that passes. -/
theorem checkDeadline_exec {request : Deadline} {s : Forwarder} {reading : Reading}
    {later : List Reading} (hclock : s.env.clock = reading :: later)
    (hstop : reading.stop = false) (hnow : reading.now < request.instant) :
    (checkDeadline request).exec s
      = (.ok (), { s with env := { s.env with
          clock := later, log := s.env.log ++ [.check (some reading)] } }) := by
  show (Run.mapError _ (Forwarder.checkDeadline request)).exec s = _
  rw [Run.exec_mapError, Forwarder.checkDeadline_exec, Env.checked, hclock]
  simp [Deadline.left, hstop, hnow, Except.mapError, Except.map]

variable {routing : RoutingTable} {wire : List UInt8} {q : Query} {record : LocalRecord}
  {transport : Transport} {request : Deadline} {s : Forwarder} {first second : Reading}
  {later : List Reading}

/-- A parsed query that is answered without a server. The run looks twice at the clock, before
the deadline and without a stop flag, and does nothing else. -/
theorem respond_exec_of_parse {p : Packet} {reply : List UInt8}
    (hparse : Packet.parse wire = .ok p) (hquery : p.header.messageType = .query)
    (hmade : (∃ code, p.validateQuery = .reject code ∧ p.localErrorReply code = some reply) ∨
      ∃ q, p.validateQuery = .forward q ∧
        ∀ s, (answer routing q transport request).exec s = (.ok reply, s))
    (hclock : s.env.clock = first :: second :: later)
    (hrunning : first.stop = false ∧ second.stop = false)
    (hintime : first.now < request.instant ∧ second.now < request.instant) :
    (respond routing wire transport request).exec s
      = (.ok (finished routing reply), { s with env := { s.env with
          clock := later
          log := s.env.log ++ [.check (some first), .check (some second)] } }) := by
  have hheader : Header.parse wire = .ok p.header := by
    rw [← Packet.wire_of_parse hparse]
    exact Dns.Header.parse_eq_ok_iff.mpr (Packet.parsed_of_parse hparse).headerAt
  have hreply : Packet.parseForReply wire = .ok p := Packet.parseForReply_eq_ok_iff.mpr hparse
  have hinner : (respondInner routing wire transport request).exec s
      = (.ok reply, { s with env := { s.env with
          clock := second :: later, log := s.env.log ++ [.check (some first)] } }) := by
    unfold respondInner
    rw [Run.exec_bind, checkDeadline_exec hclock hrunning.1 hintime.1]
    -- A local reply is made for a rejected query, or for an accepted one that no server is asked.
    rcases hmade with ⟨code, hreject, hmade⟩ | ⟨q, hforward, hanswer⟩
    · simp [hheader, hquery, hreply, hreject, hmade, orSilent]
    · simp [hheader, hquery, hreply, hforward, hanswer]
  -- The last check comes after the reply has been made.
  have hlast := @checkDeadline_exec request
    { s with env := { s.env with
      clock := second :: later, log := s.env.log ++ [.check (some first)] } }
    second later rfl hrunning.2 hintime.2
  unfold respond
  rw [Run.exec_bind, hinner]
  dsimp only
  rw [Run.exec_bind, hlast]
  simp [finished]

/-- Local answers. A query without a Server Cookie whose longest matching suffix is a local
record gets a complete answer on either transport. No other script of the world is touched than
the clock, so no server is contacted. -/
theorem respond_localRecord
    (hparse : Packet.parse wire = .ok q.packet) (hforward : q.packet.validateQuery = .forward q)
    (hcookie : q.packet.suppliesServerCookie = false)
    (hlongest : IsLongest routing.rules q.name (.localRecord record))
    (hclock : s.env.clock = first :: second :: later)
    (hrunning : first.stop = false ∧ second.stop = false)
    (hintime : first.now < request.instant ∧ second.now < request.instant) :
    ∃ reply, (respond routing wire transport request).exec s
        = (.ok reply, { s with env := { s.env with
            clock := later
            log := s.env.log ++ [.check (some first), .check (some second)] } }) ∧
      q.LocallyAnswered record.address record.ttl
        (routing.default.isSome || !routing.routes.isEmpty) reply := by
  have hq := Packet.parsed_of_parse hparse
  obtain ⟨-, hforwardable⟩ := Packet.validateQuery_eq_forward_iff.mp hforward
  have hselect : routing.select q.name = .localRecord record :=
    RoutingTable.select_eq_selection_iff.mpr hlongest
  obtain ⟨reply, hmade, hanswered⟩ :=
    Dns.localAReply_answers hq hforwardable hcookie record.address record.ttl
  have hanswer : ∀ s, (answer routing q transport request).exec s = (.ok reply, s) := by
    intro s
    simp [answer, hselect, hmade, orSilent]
  refine ⟨finished routing reply, respond_exec_of_parse hparse hforwardable.query
    (.inr ⟨q, hforward, hanswer⟩) hclock hrunning hintime, ?_⟩
  show q.LocallyAnswered _ _ routing.hasUpstreams _
  unfold finished
  cases routing.hasUpstreams with
  | true => exact hanswered
  | false => exact hanswered.withoutRecursion

/-- A local record for `lan`. -/
def lanRecord : LocalRecord := ⟨⟨[[0x6c, 0x61, 0x6e]]⟩, ⟨192, 0, 2, 1⟩, 60⟩

/-- No two of the records have one suffix. -/
theorem lanRecord_distinct : DistinctSuffixes [] [lanRecord] :=
  List.pairwise_singleton _ _

/-- The records stand with the longest suffix first. -/
theorem lanRecord_sorted :
    [lanRecord].Pairwise fun a b => b.suffix.labelCount ≤ a.suffix.labelCount :=
  List.pairwise_singleton _ _

/-- The routes stand with the longest suffix first. -/
theorem lanRoutes_sorted :
    ([] : List Route).Pairwise fun a b => b.suffix.labelCount ≤ a.suffix.labelCount :=
  List.Pairwise.nil

/-- A table without servers. -/
def lanTable : RoutingTable where
  default := none
  routes := []
  localRecords := [lanRecord]
  distinct := lanRecord_distinct
  routesSorted := lanRoutes_sorted
  localSorted := lanRecord_sorted

/-- The query for the address of `A.LAN`. -/
def lanQuery : Query where
  packet := {
    wire := [0, 1, 1, 0, 0, 1, 0, 0, 0, 0, 0, 0, 1, 0x41, 3, 0x4c, 0x41, 0x4e, 0, 0, 1, 0, 1]
    header := ⟨⟨1⟩, 0x0100, ⟨1, 0, 0, 0⟩⟩
    questions := [⟨⟨[[0x41], [0x4c, 0x41, 0x4e]]⟩, .a, .in⟩]
    edns := none
    authenticated := false
    cookie := none }
  question := ⟨⟨[[0x41], [0x4c, 0x41, 0x4e]]⟩, .a, .in⟩

/-- The query is answered with the address of the record, and the spelling of the client. -/
theorem respond_localRecord_lanQuery :
    ∃ reply, ((respond lanTable lanQuery.packet.wire .udp ⟨5⟩).exec
        ⟨none, ⟨[⟨false, 0⟩, ⟨false, 1⟩], [], [], [], []⟩⟩).1 = .ok reply ∧
      lanQuery.LocallyAnswered ⟨192, 0, 2, 1⟩ 60 false reply := by
  obtain ⟨reply, hrun, hanswered⟩ := @respond_localRecord lanTable lanQuery.packet.wire lanQuery
    lanRecord .udp ⟨5⟩ ⟨none, ⟨[⟨false, 0⟩, ⟨false, 1⟩], [], [], [], []⟩⟩
    ⟨false, 0⟩ ⟨false, 1⟩ [] (by decide +kernel) (by decide +kernel) (by decide +kernel)
    ⟨by simp [RoutingTable.rules, rulesOf, lanTable], ⟨[[0x61]], by decide⟩,
      fun other ho _ hne => by
        simp only [RoutingTable.rules, rulesOf, lanTable, List.map_nil, List.map_cons,
          List.nil_append, List.mem_singleton] at ho
        exact absurd ho hne⟩
    rfl (by decide) (by decide)
  exact ⟨reply, by rw [hrun], hanswered⟩

end RequestHandler

end Sederial
