import Sederial.Proofs.Visit

/-!
# `Sederial.Proofs.Correlation`: a returned response answers the client

`Correlated p r` states what a response owes the query of the client: it is a parsed, complete
response to the same kind of request and the same question. `forward_correlated` proves it
for every response that `forward` returns, whatever the servers send and however often the
query is sent again, for queries whose name survives a new cookie.

The service checks a response against the query it sent last. After a BADCOOKIE this is the
parse of rewritten bytes, and the name of a query can run through the rewritten bytes.
`forward_uncorrelated` is a run in which the client gets the answer to another question.
-/

set_option autoImplicit false

namespace Sederial

open Sederial.Lib
open Sederial.Dns (DomainName NameReads Packet Query Question Resent Response SentQuery
  misalignedChallenge misalignedQuery misalignedRetry plainChallenge plainQuery setId)

/-- The response `r` is a correlated answer to the query `p`. -/
structure Correlated (p r : Packet) : Prop where
  parsed : Packet.parse r.wire = .ok r
  response : r.header.messageType = .response
  complete : r.header.truncated = false
  opcode : r.header.opcode = p.header.opcode
  question : ∃ own asked, p.questions = [own] ∧ r.questions = [asked] ∧
    asked.name == own.name ∧ asked.kind = own.kind ∧ asked.class_ = own.class_
  unauthenticated : r.authenticated = false
  edns : r.edns.isSome → p.edns.isSome
  version : ∀ opt, r.edns = some opt → opt.version = 0

/-- A list of questions equals `[question]` when it is one question that asks the same. -/
theorem questions_beq_singleton {questions : List Question} {question : Question} :
    (questions == [question]) = true ↔ ∃ asked, questions = [asked] ∧
      asked.name == question.name ∧ asked.kind = question.kind ∧
        asked.class_ = question.class_ := by
  have hbeq : ∀ a b : Question,
      (a == b) = true ↔ a.name == b.name ∧ a.kind = b.kind ∧ a.class_ = b.class_ := by
    intro a b
    show (a.name == b.name && decide (a.kind = b.kind) && decide (a.class_ = b.class_)) = true ↔ _
    simp only [Bool.and_eq_true, decide_eq_true_eq, and_assoc]
  match questions with
  | [] => simp
  | [asked] => simp [hbeq]
  | _ :: _ :: _ => simp

/-- A response accepted for a query that goes out is correlated to the client's query, when
the name of that query survives. -/
theorem Dns.Query.Answered.correlated {q : Query} {required : Bool} {response : Response}
    (h : q.Answered required response) (hq : q.packet.Parsed)
    (hquestions : q.packet.questions = [q.question]) (hname : q.NameSurvives) :
    Correlated q.packet response.packet := by
  obtain ⟨s, hresent, haccepts, hparsed, -⟩ := h
  obtain ⟨name, hasked, hsame⟩ := hresent.questions hq hquestions hname
  have hcorresponds := haccepts.corresponds
  have hopcode : s.packet.header.opcode = q.packet.header.opcode := by
    rw [hresent.header]
    rfl
  have hquestion := hcorresponds.questions
  rw [hasked] at hquestion
  obtain ⟨asked, hresponse, hresponseName, hkind, hclass⟩ := questions_beq_singleton.mp hquestion
  refine {
    parsed := hparsed
    response := hcorresponds.response
    complete := haccepts.complete
    opcode := hcorresponds.opcode.trans hopcode
    question := ⟨q.question, asked, hquestions, hresponse, ?_, hkind, hclass⟩
    unauthenticated := hcorresponds.unauthenticated
    edns := fun hsome => ?_
    version := hcorresponds.version }
  · rw [DomainName.beq_iff] at hresponseName hsame ⊢
    exact hresponseName.trans hsame
  · rw [← hresent.edns]
    exact hcorresponds.edns hsome

namespace Forwarder

/-- What the walk returns was there before, or was accepted on the way. -/
theorem ForwardLog.answered {q : Query} {T : UpstreamAddress → SocketAddr → Prop}
    {request : Deadline} {servers : List UpstreamAddress} {last : ForwardError}
    {relayed : Option Response} {r : Except ForwardError Response} {new : List Event}
    (h : ForwardLog q T request servers last relayed r new) {response : Response}
    (hr : r = .ok response) :
    relayed = some response ∨
      q.Answered false response ∧ response ∈ Event.accepted new := by
  -- The events of a turn are a part of the log.
  have hturn : ∀ {pre body post : List Event} {e : Event} (x : Response),
      x ∈ Event.accepted body → x ∈ Event.accepted (pre ++ e :: (body ++ post)) := by
    intro pre body post e x hx
    rw [List.append_cons, Event.accepted_append _ (body ++ post), Event.accepted_append body]
    exact List.mem_append_right _ (List.mem_append_left _ hx)
  have hrest : ∀ {pre body post : List Event} {e : Event} (x : Response),
      x ∈ Event.accepted post → x ∈ Event.accepted (pre ++ e :: (body ++ post)) := by
    intro pre body post e x hx
    rw [List.append_cons, Event.accepted_append _ (body ++ post), Event.accepted_append body]
    exact List.mem_append_right _ (List.mem_append_right _ hx)
  induction h with
  | expires _ => cases hr
  | relays _ =>
    cases hr
    exact .inl rfl
  | gives _ => cases hr
  | unstarted _ => cases hr
  | cancelled _ _ => cases hr
  | failed _ _ _ _ ih => exact (ih hr).imp_right fun ⟨hx, hmem⟩ => ⟨hx, hrest _ hmem⟩
  | late _ _ _ => cases hr
  | returns _ hvisit _ _ =>
    cases hr
    have hmem := hvisit.value _ rfl
    exact .inr ⟨hvisit.accepted _ hmem, hturn _ hmem⟩
  | advances _ hvisit _ _ _ ih =>
    rcases ih hr with hlast | ⟨hx, hmem⟩
    · cases hlast
      have hmem := hvisit.value _ rfl
      exact .inr ⟨hvisit.accepted _ hmem, hturn _ hmem⟩
    · exact .inr ⟨hx, hrest _ hmem⟩

/-- Every response that `forward` returns was accepted for a query that goes out. -/
theorem answered_of_forward {q : Query} (hq : q.packet.Parsed)
    (hquestions : q.packet.questions = [q.question]) {upstreams : UpstreamGroup}
    {transport : Transport} {request : Deadline} {s : Forwarder} {response : Response}
    (h : ((forward q upstreams transport request).exec s).1 = .ok response) :
    q.Answered false response := by
  obtain ⟨-, new, -, hlog⟩ := forward_logs (T := fun _ _ => True) request (fun _ => trivial) hq
    hquestions upstreams transport s fun _ _ => trivial
  rcases hlog.answered h with hnone | ⟨hanswered, -⟩
  · cases hnone
  · exact hanswered

/-- Every response that `forward` returns is correlated to the client's query, when the name
of that query survives a new cookie. -/
theorem forward_correlated {p : Packet} {q : Query} (hp : Packet.parse p.wire = .ok p)
    (hq : p.validateQuery = .forward q) (hname : q.NameSurvives) (upstreams : UpstreamGroup)
    (transport : Transport) (request : Deadline) (s : Forwarder) (response : Response)
    (h : ((forward q upstreams transport request).exec s).1 = .ok response) :
    Correlated p response.packet := by
  obtain ⟨rfl, hforward⟩ := Packet.validateQuery_eq_forward_iff.mp hq
  exact (answered_of_forward hp hforward.questions h).correlated hp hforward.questions hname

/-! ### A run that keeps the question, and one that does not -/

/-- The server at 192.0.2.1 and port 53. -/
def firstServer : UpstreamAddress where
  socket := SocketAddr.new (.v4 ⟨192, 0, 2, 1⟩) 53
  canonical := by decide
  port_ne_zero := by decide
  specified := by decide
  unicast := by decide
  not_broadcast := by decide

/-- A group of one server. -/
def oneServer : UpstreamGroup where
  servers := [firstServer]
  nonempty := by decide
  bounded := by decide
  distinct := by decide

/-- A forwarder without a cached connection, in a world where the clock stands still, the
IDs are 1 and 2, and two UDP sockets receive one datagram each. -/
def challenged (first second : List UInt8) : Forwarder where
  tcp := none
  env := {
    clock := List.replicate 24 ⟨false, 5⟩
    entropy := [.ok 1, .ok 2]
    udp := [⟨none, none, none, none, [.datagram first]⟩,
      ⟨none, none, none, none, [.datagram second]⟩]
    tcp := []
    log := [] }

/-- The answer to `plainRetry` under ID 2. -/
def plainAnswer : Packet where
  wire := [0, 2, 0x81, 0x80, 0, 1, 0, 0, 0, 0, 0, 1, 0, 0, 1, 0, 1,
    0, 0, 41, 4, 208, 0, 0, 0, 0, 0, 20, 0, 10, 0, 16, 1, 2, 3, 4, 5, 6, 7, 8,
    9, 9, 9, 9, 9, 9, 9, 9]
  header := ⟨⟨2⟩, 0x8180, ⟨1, 0, 0, 1⟩⟩
  questions := [⟨⟨[]⟩, .a, .in⟩]
  edns := some ⟨1232, 0, 0, false⟩
  authenticated := false
  cookie := some (.present ⟨30, 32, 16, 26⟩)

/-- A query for the root, a BADCOOKIE, and the answer to the retry. -/
theorem forward_correlated_plainQuery :
    ((forward ⟨plainQuery, ⟨⟨[]⟩, .a, .in⟩⟩ oneServer .udp ⟨5000000000⟩).exec
        (challenged (setId plainChallenge.wire ⟨1⟩) plainAnswer.wire)).1 = .ok ⟨plainAnswer⟩ ∧
      Correlated plainQuery plainAnswer := by
  have hrun : ((forward ⟨plainQuery, ⟨⟨[]⟩, .a, .in⟩⟩ oneServer .udp ⟨5000000000⟩).exec
      (challenged (setId plainChallenge.wire ⟨1⟩) plainAnswer.wire)).1 = .ok ⟨plainAnswer⟩ := by
    decide +kernel
  have hparse : Packet.parse plainQuery.wire = .ok plainQuery := by decide +kernel
  refine ⟨hrun, forward_correlated hparse (by decide +kernel) ?_ _ _ _ _ _ hrun⟩
  refine Query.nameSurvives_of_reads hparse rfl fun slot i hslot hreads => ?_
  cases hslot
  rw [hreads.eq_of_root (by decide)]
  unfold Dns.CookieSlot.LengthField
  decide

/-- The response to `misalignedRetry` under ID 2. Its question repeats the bytes of the
retry, so its name is not the one the client asked for. -/
def misalignedAnswer : Packet where
  wire := [0, 2, 0x81, 0x80, 0, 1, 0, 0, 0, 0, 0, 1, 1, 21, 0xc0, 13, 0, 1, 0, 1,
    0, 0, 41, 4, 208, 0, 0, 0, 0, 0, 20, 0, 10, 0, 16, 0, 2, 3, 4, 5, 6, 7, 8,
    9, 9, 9, 9, 9, 9, 9, 9]
  header := ⟨⟨2⟩, 0x8180, ⟨1, 0, 0, 1⟩⟩
  questions := misalignedRetry.questions
  edns := some ⟨1232, 0, 0, false⟩
  authenticated := false
  cookie := some (.present ⟨33, 35, 16, 29⟩)

/-- A query whose name runs through its own cookie lengths, a BADCOOKIE, and a response to
the rewritten question that is returned for the client's. -/
theorem forward_uncorrelated :
    Packet.parse misalignedQuery.wire = .ok misalignedQuery ∧
      ∃ q, misalignedQuery.validateQuery = .forward q ∧
        ((forward q oneServer .udp ⟨5000000000⟩).exec
          (challenged (setId misalignedChallenge.wire ⟨1⟩) misalignedAnswer.wire)).1
            = .ok ⟨misalignedAnswer⟩ ∧
        ¬ Correlated misalignedQuery misalignedAnswer := by
  refine ⟨by decide +kernel,
    ⟨misalignedQuery, misalignedQuery.questions.headD ⟨⟨[]⟩, .a, .in⟩⟩, by decide +kernel,
    by decide +kernel, fun h => ?_⟩
  obtain ⟨own, asked, hown, hasked, hname, -⟩ := h.question
  cases hown
  cases hasked
  exact absurd hname (by decide +kernel)

end Forwarder

end Sederial
