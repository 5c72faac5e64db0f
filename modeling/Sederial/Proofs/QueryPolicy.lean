import Sederial.Dns.Reply

/-!
# `Sederial.Proofs.QueryPolicy`: what the query and response checks accept

Each check of the service is a chain of tests. The structures of this file say in one place
what passes it, so that later proofs never unfold a check: `Packet.Forwardable` for
`validateQuery`, `Packet.Corresponds` for `correspondsTo`, and `SentQuery.Accepts` for
`validateResponse`.
-/

set_option autoImplicit false

namespace Sederial.Dns

open Sederial.Lib

namespace Packet

/-- The packets `validateQuery` forwards, with the question they ask. -/
structure Forwardable (p : Packet) (question : Question) : Prop where
  query : p.header.messageType = .query
  opcode : p.header.opcode = .query
  questions : p.questions = [question]
  complete : p.header.truncated = false
  code : p.responseCode = .noError
  answers : p.header.counts.answers = 0
  authorities : p.header.counts.authorities = 0
  cookie : p.cookie ≠ some .malformed
  version : ∀ opt, p.edns = some opt → opt.version = 0
  unauthenticated : p.authenticated = false
  kind : refusedQuestionType question.kind = false

/-- A query is forwarded exactly when it passes every check of the policy. -/
theorem validateQuery_eq_forward_iff {p : Packet} {q : Query} :
    p.validateQuery = .forward q ↔ q.packet = p ∧ p.Forwardable q.question := by
  constructor
  · intro h
    -- The checks of the source, in its order: each one that fails answers with its own code.
    unfold validateQuery at h
    split at h
    · cases h
    · rename_i hquery
      split at h
      · cases h
      · rename_i hopcode
        split at h
        · cases h
        · rename_i hshape
          split at h
          · cases h
          · rename_i hcookie
            split at h
            · cases h
            · rename_i hversion
              -- One question is left, which is not refused.
              split at h
              · rename_i question rest hquestions
                split at h
                · cases h
                · rename_i hrefused
                  cases h
                  simp only [not_or, not_not] at hquery hopcode hshape hrefused
                  obtain ⟨hone, hcomplete, hcode, hanswers, hauthorities⟩ := hshape
                  obtain ⟨hauth, hkind⟩ := hrefused
                  refine ⟨rfl, hquery, hopcode, ?_, by simpa using hcomplete, hcode, hanswers,
                    hauthorities, hcookie, ?_, by simpa using hauth, by simpa using hkind⟩
                  · rw [hquestions] at hone ⊢
                    rw [List.eq_nil_of_length_eq_zero (Nat.succ.inj hone)]
                  · intro opt hopt
                    simpa [hopt] using hversion
              · cases h
  -- A query that meets all conditions falls through every check.
  · rintro ⟨rfl, h⟩
    obtain ⟨p, question⟩ := q
    dsimp only at h ⊢
    unfold validateQuery
    have hversion : p.edns.any (fun opt => opt.version ≠ 0) = false := by
      cases hedns : p.edns with
      | none => simp
      | some opt => simp [h.version opt hedns]
    rw [hversion]
    simp [h.query, h.opcode, h.questions, h.complete, h.code, h.answers, h.authorities, h.cookie,
      h.unauthenticated, h.kind]

/-- Only queries are rejected. -/
theorem query_of_reject {p : Packet} {code : ResponseCode} (h : p.validateQuery = .reject code) :
    p.header.messageType = .query := by
  unfold validateQuery at h
  split at h
  · cases h
  · exact not_not.mp ‹_›

/-- The responses `correspondsTo` accepts for a query. -/
structure Corresponds (p query : Packet) (expected : TransactionId) : Prop where
  response : p.header.messageType = .response
  id : p.header.id = expected
  opcode : p.header.opcode = query.header.opcode
  questions : p.questions == query.questions
  version : ∀ opt, p.edns = some opt → opt.version = 0
  edns : p.edns.isSome → query.edns.isSome
  unauthenticated : p.authenticated = false

/-- A response corresponds to a query exactly when every part that is compared does. -/
theorem correspondsTo_iff {p : Packet} {q : Query} {expected : TransactionId} :
    p.correspondsTo q expected = true ↔ p.Corresponds q.packet expected := by
  unfold correspondsTo
  simp only [Bool.and_eq_true, decide_eq_true_eq, Bool.or_eq_true, Bool.not_eq_true',
    Option.all_eq_true, beq_iff_eq, Option.isNone_iff_eq_none]
  constructor
  · rintro ⟨⟨⟨⟨⟨⟨h₁, h₂⟩, h₃⟩, h₄⟩, h₅⟩, h₆⟩, h₇⟩
    refine ⟨h₁, h₂, h₃, h₄, h₅, fun hsome => ?_, h₇⟩
    rcases h₆ with h₆ | h₆
    · exact h₆
    · rw [h₆] at hsome
      cases hsome
  · rintro ⟨h₁, h₂, h₃, h₄, h₅, h₆, h₇⟩
    refine ⟨⟨⟨⟨⟨⟨h₁, h₂⟩, h₃⟩, h₄⟩, h₅⟩, ?_⟩, h₇⟩
    cases hedns : p.edns with
    | none => exact .inr rfl
    | some opt => exact .inl (h₆ (by simp [hedns]))

end Packet

/-- The responses whose COOKIE option `validResponse` accepts: they have none, or they return
the client cookie that was sent and a server cookie. -/
theorem Cookie.of_validResponse {sent response : Packet} {required : Bool}
    (h : validResponse sent response required = true) :
    (response.cookie = none ∧ required = false) ∨
      ∃ received client, responseCookie response = some received ∧
        responseCookie sent = some client ∧ received.take 8 = client.take 8 ∧
        16 ≤ received.length ∧ received.length ≤ 40 := by
  unfold validResponse at h
  split at h
  · simp only [Bool.and_eq_true, Option.isNone_iff_eq_none, Bool.not_eq_true'] at h
    exact .inl h.1
  · rename_i received hreceived
    split at h
    · cases h
    · rename_i client hclient
      simp only [Bool.and_eq_true, decide_eq_true_eq, beq_iff_eq] at h
      exact .inr ⟨received, client, hreceived, hclient, h.2.symm, h.1⟩

/-- What `validateResponse` checks of a response. -/
structure SentQuery.Accepts (s : SentQuery) (p : Packet) : Prop where
  forwardable : ∃ question, s.packet.Forwardable question
  complete : p.header.truncated = false
  corresponds : p.Corresponds s.packet s.packet.header.id
  cookie : Cookie.validResponse s.packet p s.cookieRequired = true

/-- A response is validated exactly when the sent query accepts it. -/
theorem SentQuery.validateResponse_eq_some_iff {s : SentQuery} {p : Packet} {r : Response} :
    s.validateResponse p = some r ↔ r.packet = p ∧ s.Accepts p := by
  constructor
  · intro h
    unfold validateResponse at h
    split at h
    · rename_i q hq
      obtain ⟨hpacket, hforward⟩ := Packet.validateQuery_eq_forward_iff.mp hq
      split at h
      · cases h
      · rename_i hguard
        cases h
        simp only [Bool.or_eq_true, Bool.not_eq_true', not_or, Bool.not_eq_false,
          Bool.not_eq_true, Packet.correspondsTo_iff, hpacket] at hguard
        obtain ⟨⟨hcomplete, hcorresponds⟩, hcookie⟩ := hguard
        exact ⟨rfl, ⟨_, hforward⟩, hcomplete, hcorresponds, hcookie⟩
    · cases h
  · rintro ⟨rfl, ⟨question, hforward⟩, hcomplete, hcorresponds, hcookie⟩
    have hq : s.packet.validateQuery = .forward ⟨s.packet, question⟩ :=
      Packet.validateQuery_eq_forward_iff.mpr ⟨rfl, hforward⟩
    have hcorr : r.packet.correspondsTo ⟨s.packet, question⟩ s.packet.header.id = true :=
      Packet.correspondsTo_iff.mpr hcorresponds
    have hcomplete : r.packet.isTruncated = false := hcomplete
    unfold validateResponse
    rw [hq]
    simp [hcomplete, hcorr, hcookie]

end Sederial.Dns
