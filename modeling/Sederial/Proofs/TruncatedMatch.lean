import Sederial.Proofs.Correlation

/-!
# `Sederial.Proofs.TruncatedMatch`: the truncated fast path and the full check

`matches_truncated` looks at the header and the first question of a datagram that may end in the
middle of a record. `validate_response` and `corresponds_to` look at a parsed packet.
`matchesTruncated_iff` reads the first check off a packet where the datagram parses, and with it
the two classify every datagram alike.

`SentQuery.Outgoing` are the queries for which they are asked: the first query for a client, and
every query that follows a BADCOOKIE.
-/

set_option autoImplicit false

namespace Sederial.Dns

open Sederial.Lib

/-! ### The queries that go out -/

/-- The queries that go out for a client query: under a first ID, the same bytes again under
another ID, and the bytes that a BADCOOKIE response asks for. -/
inductive SentQuery.Outgoing (q : Query) : SentQuery → Prop
  | sent (id : TransactionId) : Outgoing q (q.sent id)
  | again {s s' : SentQuery} (id : TransactionId) (previous : Outgoing q s)
      (retry : s.retry s.wire id = .ok s') : Outgoing q s'
  | rewritten {s s' : SentQuery} {x : Response} {w : List UInt8} (id : TransactionId)
      (previous : Outgoing q s) (verdict : s.serverCookieRetry x = .rewrite w)
      (retry : s.retry w id = .ok s') : Outgoing q s'

namespace SentQuery.Outgoing

variable {q : Query} {s : SentQuery}

/-- Every outgoing form of a query is the query sent again. -/
theorem resent (h : Outgoing q s) (hq : q.packet.Parsed)
    (hquestions : q.packet.questions = [q.question]) : Resent q s.packet := by
  -- Each retry reparses its bytes, and only a rewrite changes more of them than the ID.
  induction h with
  | sent id => exact .renumbered id
  | again id _ hretry ih => exact ih.reparse hq id (SentQuery.retry_eq_ok_iff.mp hretry).1
  | rewritten id _ hverdict hretry ih =>
    exact ih.rewrite hq hquestions hverdict id (SentQuery.retry_eq_ok_iff.mp hretry).1

end SentQuery.Outgoing

/-- A query that goes out for a forwardable one is forwardable. Its only question may have
another name. -/
theorem Resent.forwardable {q : Query} {p : Packet} (h : Resent q p)
    (hq : q.packet.Forwardable q.question) : ∃ own : Query, p.validateQuery = .forward own := by
  cases h with
  | renumbered id =>
    exact ⟨⟨q.packet.renumbered id, q.question⟩, Packet.validateQuery_eq_forward_iff.mpr ⟨rfl,
      hq.query, hq.opcode, hq.questions, hq.complete, hq.code, hq.answers, hq.authorities,
      hq.cookie, hq.version, hq.unauthenticated, hq.kind⟩⟩
  -- The checks of a query look at the labels of its question nowhere.
  | @patched slot server w labels e id hcookie hfits hputs hname hparsed =>
    exact ⟨⟨(q.packet.renumbered id).patched w q.question labels slot server,
      { q.question with name := ⟨labels⟩ }⟩, Packet.validateQuery_eq_forward_iff.mpr ⟨rfl,
      hq.query, hq.opcode, rfl, hq.complete, hq.code, hq.answers, hq.authorities,
      by simp [Packet.patched], hq.version, hq.unauthenticated, hq.kind⟩⟩

/-! ### The fast path on a packet -/

/-- The questions of two packets are compared alike from both sides. -/
theorem questions_beq_comm (questions : List Question) (question : Question) :
    (questions == [question]) = ([question] == questions) := by
  have hbeq : ∀ a b : Question, (a == b) = (b == a) := by
    intro a b
    show (a.name == b.name && decide (a.kind = b.kind) && decide (a.class_ = b.class_))
      = (b.name == a.name && decide (b.kind = a.kind) && decide (b.class_ = a.class_))
    rw [DomainName.beq_comm, decide_eq_decide.mpr (eq_comm (a := a.kind)),
      decide_eq_decide.mpr (eq_comm (a := a.class_))]
  match questions with
  | [] => rfl
  | [asked] =>
    show (asked == question && true) = (question == asked && true)
    rw [hbeq]
  | _ :: _ :: _ =>
    show (_ && false) = (_ && false)
    rw [Bool.and_false, Bool.and_false]

/-- On a datagram that parses the fast path is a check of the packet. -/
theorem matchesTruncated_iff {query p : Packet} {id : TransactionId} (hp : p.Parsed) :
    matchesTruncated query p.wire id = true ↔
      p.header.truncated = true ∧ p.header.id = id ∧ p.header.messageType = .response ∧
        p.header.opcode = query.header.opcode ∧
        ∃ question, p.questions = [question] ∧ query.questions == [question] := by
  have hheader : Header.parse p.wire = .ok p.header := Header.parse_eq_ok_iff.mpr hp.headerAt
  obtain ⟨d, hd, hpd⟩ := Packet.parsed_iff.mp hp
  obtain ⟨m, hquestions, -⟩ := hd.tiles
  have hlist : p.questions = d.questions.map QuestionView.question := by rw [hpd]; rfl
  have hcount : p.questions.length = p.header.counts.questions.toNat := by
    rw [hlist, List.length_map, hpd]
    exact hd.questionCount
  -- With one question the reader finds it behind the header.
  have hread : ∀ question, p.questions = [question] →
      ∃ next, Reader.question p.wire headerLength = .ok (question, next) := by
    intro question hone
    obtain ⟨v, -, hat, hstart, -, hsame⟩ := exists_questionView (hlist ▸ hone) hquestions
    exact ⟨v.stop, Reader.question_eq_ok_iff.mpr ⟨v, hat, hstart, rfl, hsame⟩⟩
  unfold matchesTruncated
  rw [hheader]
  dsimp only
  constructor
  · intro h
    -- The guard of the source collects the ways to fail, so its negation is the conjunction.
    split at h
    · cases h
    · rename_i hguard
      simp only [not_or, not_not, Bool.not_eq_true, Bool.not_eq_false'] at hguard
      obtain ⟨htruncated, hid, hresponse, hopcode, hone⟩ := hguard
      rw [hone] at hcount
      obtain ⟨question, hquestion⟩ := List.length_eq_one_iff.mp hcount
      obtain ⟨next, hnext⟩ := hread question hquestion
      rw [hnext] at h
      exact ⟨htruncated, hid, hresponse, hopcode, question, hquestion, h⟩
  · rintro ⟨htruncated, hid, hresponse, hopcode, question, hquestion, hsame⟩
    obtain ⟨next, hnext⟩ := hread question hquestion
    have hone : p.header.counts.questions = 1 := by
      rw [hquestion] at hcount
      exact UInt16.toNat_inj.mp hcount.symm
    simp [htruncated, hid, hresponse, hopcode, hone, hnext, hsame]

/-- A query that goes out is matched by the truncated packets that correspond to it. -/
theorem SentQuery.matchesTruncated_iff {s : SentQuery} {own : Query} {p : Packet}
    (hown : s.packet.validateQuery = .forward own) (hp : p.Parsed) :
    s.matchesTruncated p.wire = true ↔
      p.header.truncated = true ∧ p.header.id = s.packet.header.id ∧
        p.header.messageType = .response ∧ p.header.opcode = s.packet.header.opcode ∧
        p.questions == s.packet.questions := by
  obtain ⟨-, hforward⟩ := Packet.validateQuery_eq_forward_iff.mp hown
  have hquestions : (∃ question, p.questions = [question] ∧ s.packet.questions == [question]) ↔
      p.questions == s.packet.questions := by
    rw [hforward.questions]
    constructor
    · rintro ⟨question, hone, hsame⟩
      rw [hone, ← questions_beq_comm]
      exact hsame
    · intro hsame
      obtain ⟨asked, hasked, -⟩ := questions_beq_singleton.mp hsame
      refine ⟨asked, hasked, ?_⟩
      rw [questions_beq_comm, ← hasked]
      exact hsame
  unfold matchesTruncated
  rw [Dns.matchesTruncated_iff hp, hquestions]

/-- The two checks classify every datagram alike, for every query that goes out for a
forwardable one. A truncated packet that corresponds to the query is matched by the fast path.
What the fast path matches is never accepted, and where it parses it is a response with the ID,
the opcode and the question of the query. -/
theorem SentQuery.truncated_agrees {wire : List UInt8} {p : Packet} {q : Query} {s : SentQuery}
    (hp : Packet.parse wire = .ok p) (hq : p.validateQuery = .forward q) (hs : s.Outgoing q) :
    ∃ own, s.packet.validateQuery = .forward own ∧ ∀ w : List UInt8,
      (∀ r, Packet.parse w = .ok r → r.isTruncated = true →
        r.correspondsTo own s.packet.header.id = true → s.matchesTruncated w = true) ∧
      (s.matchesTruncated w = true → ∀ r, Packet.parse w = .ok r →
        s.validateResponse r = none) ∧
      (s.matchesTruncated w = true → ∀ r, Packet.parse w = .ok r →
        r.header.messageType = .response ∧ r.header.id = s.packet.header.id ∧
          r.header.opcode = s.packet.header.opcode ∧
          ∃ asked, r.questions = [asked] ∧ asked.name == own.question.name ∧
            asked.kind = own.question.kind ∧ asked.class_ = own.question.class_) := by
  obtain ⟨rfl, hforward⟩ := Packet.validateQuery_eq_forward_iff.mp hq
  have hparsed := Packet.parsed_of_parse hp
  have hresent := hs.resent hparsed hforward.questions
  obtain ⟨own, hown⟩ := hresent.forwardable hforward
  -- The query to compare with is the one that went out, whose name may not be the client's.
  obtain ⟨hpacket, hself⟩ := Packet.validateQuery_eq_forward_iff.mp hown
  refine ⟨own, hown, fun w => ⟨fun r hr htruncated hcorresponds => ?_, fun hmatch r hr => ?_,
    fun hmatch r hr => ?_⟩⟩
  · obtain rfl := Packet.wire_of_parse hr
    have hcorresponds := Packet.correspondsTo_iff.mp hcorresponds
    rw [hpacket] at hcorresponds
    exact (matchesTruncated_iff hown (Packet.parsed_of_parse hr)).mpr ⟨htruncated,
      hcorresponds.id, hcorresponds.response, hcorresponds.opcode, hcorresponds.questions⟩
  · obtain rfl := Packet.wire_of_parse hr
    obtain ⟨htruncated, -⟩ := (matchesTruncated_iff hown (Packet.parsed_of_parse hr)).mp hmatch
    cases hresponse : s.validateResponse r with
    | none => rfl
    | some x =>
      -- An accepted response is complete.
      obtain ⟨-, haccepts⟩ := validateResponse_eq_some_iff.mp hresponse
      rw [haccepts.complete] at htruncated
      cases htruncated
  · obtain rfl := Packet.wire_of_parse hr
    obtain ⟨-, hid, hresponse, hopcode, hquestions⟩ :=
      (matchesTruncated_iff hown (Packet.parsed_of_parse hr)).mp hmatch
    rw [hself.questions] at hquestions
    exact ⟨hresponse, hid, hopcode, questions_beq_singleton.mp hquestions⟩

/-- The answer to `rootQuery` under ID 7 with the TC flag. -/
def rootTruncated : Packet :=
  { rootResponse with
    wire := [0, 7, 0x83, 0x80, 0, 1, 0, 0, 0, 0, 0, 0, 0, 0, 1, 0, 1]
    header := ⟨⟨7⟩, 0x8380, ⟨1, 0, 0, 0⟩⟩ }

/-- The truncated answer to the query for the root is matched, and never accepted. -/
theorem SentQuery.truncated_agrees_rootQuery :
    (Query.sent ⟨rootQuery, ⟨⟨[]⟩, .a, .in⟩⟩ ⟨7⟩).matchesTruncated rootTruncated.wire = true ∧
      (Query.sent ⟨rootQuery, ⟨⟨[]⟩, .a, .in⟩⟩ ⟨7⟩).validateResponse rootTruncated = none := by
  have hparse : Packet.parse rootTruncated.wire = .ok rootTruncated := by decide +kernel
  obtain ⟨own, hown, h⟩ := @SentQuery.truncated_agrees rootQuery.wire rootQuery
    ⟨rootQuery, ⟨⟨[]⟩, .a, .in⟩⟩ _ (by decide +kernel) (by decide +kernel) (.sent ⟨7⟩)
  have hself : (rootQuery.renumbered ⟨7⟩).validateQuery
      = .forward ⟨rootQuery.renumbered ⟨7⟩, ⟨⟨[]⟩, .a, .in⟩⟩ := by decide +kernel
  obtain rfl : (⟨rootQuery.renumbered ⟨7⟩, ⟨⟨[]⟩, .a, .in⟩⟩ : Query) = own :=
    QueryDecision.forward.inj (hself.symm.trans hown)
  obtain ⟨hmatched, hrejected, -⟩ := h rootTruncated.wire
  have hmatch := hmatched rootTruncated hparse rfl (by decide +kernel)
  exact ⟨hmatch, hrejected hmatch rootTruncated hparse⟩

end Sederial.Dns
