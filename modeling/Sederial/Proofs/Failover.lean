import Sederial.Proofs.Isolation

/-!
# `Sederial.Proofs.Failover`: which response a group returns

`forward` carries two accumulators through its loop, the last error and the last response that
asked for another server. `forward_failover` says what they amount to. In a run that is not
disturbed, the servers are visited up to the first one with a final response, and that
response is returned; without one, the last response of any server; and without any
response, the error of the last server.

`Undisturbed` is the condition on the run, read off its log: no stop flag, no look at the
clock past the request deadline, and an ID for every server that was tried.
-/

set_option autoImplicit false

namespace Sederial

open Sederial.Lib
open Sederial.Dns (Packet Query Response rootQuery)

namespace Event

/-- The outcomes of the visits among some events, in order. -/
def outcomes (events : List Event) : List (UpstreamAddress × Except ForwardError Response) :=
  events.filterMap fun
    | .outcome address result => some (address, result)
    | _ => none

/-- The outcomes of two stretches. -/
@[simp] theorem outcomes_append (es es' : List Event) :
    outcomes (es ++ es') = outcomes es ++ outcomes es' :=
  List.filterMap_append

/-- Where no visit ends there are no outcomes. -/
theorem outcomes_eq_nil {es : List Event} (h : ∀ e ∈ es, ∀ a r, e ≠ .outcome a r) :
    outcomes es = [] := by
  refine List.filterMap_eq_nil_iff.mpr fun e he => ?_
  have hne := h e he
  cases e <;> first | rfl | exact (hne _ _ rfl).elim

/-- A quiet event ends no visit. -/
theorem Quiet.ne_outcome {e : Event} (h : e.Quiet) (a : UpstreamAddress)
    (r : Except ForwardError Response) : e ≠ .outcome a r := by
  rintro rfl
  rcases h with h | ⟨_, h⟩
  · exact h
  · cases h

/-- Nor does an event within a visit. -/
theorem Visiting.ne_outcome {K : SocketAddr → Prop} {e : Event} (h : e.Visiting K)
    (a : UpstreamAddress) (r : Except ForwardError Response) : e ≠ .outcome a r := by
  rintro rfl
  rcases h with h | ⟨_, _, h, -⟩
  · exact h
  · cases h

end Event

open Event (outcomes visits)

/-- The run saw no stop flag, every look at the clock was before the request deadline, and
every server that was tried got its initial transaction ID. -/
structure Undisturbed (request : Deadline) (new : List Event) : Prop where
  running : ∀ reading, .check (some reading) ∈ new → reading.stop = false
  inTime : ∀ reading, .check reading ∈ new →
    ∃ at_, reading = some at_ ∧ at_.now < request.instant
  ids : ∀ a post, .attempt a :: post <:+ new → ∃ time reading id rest,
    post = .now time :: .check reading :: .entropy (.ok id) :: rest

namespace Undisturbed

variable {request : Deadline} {pre new : List Event}

/-- The end of an undisturbed run is undisturbed. -/
theorem of_append (h : Undisturbed request (pre ++ new)) : Undisturbed request new :=
  ⟨fun reading hmem => h.running reading (List.mem_append_right pre hmem),
    fun reading hmem => h.inTime reading (List.mem_append_right pre hmem),
    fun a post hsuffix => h.ids a post (hsuffix.trans (List.suffix_append pre new))⟩

/-- In such a run every check against the request deadline passes. -/
theorem left_ne_error (h : Undisturbed request new) {reading : Option Reading}
    (hmem : .check reading ∈ new) (e : IoError) : request.left reading ≠ .error e := by
  obtain ⟨reading, rfl, hnow⟩ := h.inTime reading hmem
  have hstop := h.running reading hmem
  simp [Deadline.left, hstop, hnow]

/-- In such a run every turn starts. -/
theorem started {q : Query} {a : UpstreamAddress} {e : ForwardError}
    (h : Undisturbed request new) : ¬ Forwarder.TurnStart q request a (.error e) new := by
  intro hstart
  cases hstart with
  | late _ =>
    obtain ⟨time, reading, id, rest, hpost⟩ := h.ids a _ (List.suffix_refl _)
    cases hpost
  | noId _ =>
    obtain ⟨time, reading, id, rest, hpost⟩ := h.ids a _ (List.suffix_refl _)
    cases hpost

/-- An undisturbed run has not seen the stop flag. -/
theorem not_stopSeen (h : Undisturbed request new) : ∀ e ∈ new, ¬ e.StopSeen := by
  intro e he hstop
  obtain ⟨reading, rfl, hset⟩ := hstop.exists_reading
  rw [h.running reading he] at hset
  cases hset

end Undisturbed

/-- The responses that end the walk: every code but SERVFAIL and REFUSED. -/
def Final (response : Response) : Prop :=
  response.responseCode ≠ .serverFailure ∧ response.responseCode ≠ .refused

/-- The validated responses among some outcomes. -/
def responses (results : List (Except ForwardError Response)) : List Response :=
  results.filterMap Except.toOption

/-- An outcome that ends the walk. -/
def EndsWalk : Except ForwardError Response → Prop
  | .error _ => False
  | .ok response => Final response

/-- The error that is left after some outcomes. -/
def lastError : ForwardError → List (Except ForwardError Response) → ForwardError
  | last, [] => last
  | _, .error e :: results => lastError e results
  | last, .ok _ :: results => lastError last results

/-- Without a response, the error that is left is that of the last server. -/
theorem getLast?_of_no_responses {results : List (Except ForwardError Response)}
    (hnone : responses results = []) (hne : results ≠ []) (last : ForwardError) :
    results.getLast? = some (.error (lastError last results)) := by
  induction results generalizing last with
  | nil => exact (hne rfl).elim
  | cons o results ih =>
    cases o with
    | ok response => cases hnone
    | error e =>
      cases results with
      | nil => rfl
      | cons o results =>
        rw [List.getLast?_cons_cons]
        exact ih hnone (List.cons_ne_nil _ _) e

/-- What a walk from an error and a relayed failure makes of the outcomes of its visits. -/
structure Concludes (servers : List UpstreamAddress) (last : ForwardError)
    (relayed : Option Response) (r : Except ForwardError Response) (new : List Event)
    (results : List (Except ForwardError Response)) : Prop where
  count : results.length ≤ servers.length
  outcomes : outcomes new = (servers.take results.length).zip results
  visits : visits new = servers.take results.length
  first : ∀ o ∈ results.dropLast, ¬ EndsWalk o
  complete : (∃ o ∈ results, EndsWalk o) ∨ results.length = servers.length
  response : ∀ x, (responses results).getLast? = some x → r = .ok x
  relays : responses results = [] → ∀ x, relayed = some x → r = .ok x
  fails : responses results = [] → relayed = none → r = .error (lastError last results)

section

variable {q : Query} {T : UpstreamAddress → SocketAddr → Prop} {request : Deadline}

/-- The events of one visit in front of others. -/
theorem outcomes_visit {a : UpstreamAddress} {exchange : Exchange} {pre body new : List Event}
    {r r' : Except ForwardError Response}
    (hstart : Forwarder.TurnStart q request a (.ok exchange) pre)
    (hvisit : VisitLog q (T a) r' body) :
    outcomes (pre ++ .visit a :: (body ++ .outcome a r :: new)) = (a, r) :: outcomes new := by
  rw [Event.outcomes_append, Event.outcomes_eq_nil fun e he => (hstart.quiet e he).ne_outcome,
    List.nil_append]
  show outcomes (body ++ .outcome a r :: new) = _
  rw [Event.outcomes_append, Event.outcomes_eq_nil fun e he => (hvisit.events e he).ne_outcome]
  rfl

/-- A turn is one visit and what follows. -/
theorem visits_visit {a : UpstreamAddress} {exchange : Exchange} {pre body new : List Event}
    {r r' : Except ForwardError Response}
    (hstart : Forwarder.TurnStart q request a (.ok exchange) pre)
    (hvisit : VisitLog q (T a) r' body) :
    visits (pre ++ .visit a :: (body ++ .outcome a r :: new)) = a :: visits new := by
  rw [Event.visits_append, Event.visits_eq_nil fun e he => (hstart.quiet e he).ne_visit,
    List.nil_append]
  show a :: visits (body ++ .outcome a r :: new) = _
  rw [Event.visits_append, Event.visits_eq_nil fun e he => (hvisit.events e he).ne_visit]
  rfl

/-- What follows a turn of an undisturbed run is undisturbed. -/
theorem Undisturbed.next {a : UpstreamAddress} {pre body new : List Event}
    {r : Except ForwardError Response}
    (h : Undisturbed request (pre ++ .visit a :: (body ++ .outcome a r :: new))) :
    Undisturbed request new := by
  have h₁ : Undisturbed request ((pre ++ .visit a :: (body ++ [.outcome a r])) ++ new) := by
    simpa using h
  exact h₁.of_append

/-- The walk without servers. -/
theorem Concludes.none {last : ForwardError} {relayed : Option Response}
    {r : Except ForwardError Response} {reading : Option Reading}
    (hrelays : ∀ x, relayed = some x → r = .ok x) (hfails : relayed = .none → r = .error last) :
    Concludes [] last relayed r [.check reading] [] := by
  refine ⟨Nat.le_refl _, rfl, rfl, by simp, .inr rfl, ?_, fun _ => hrelays, fun _ => hfails⟩
  simp [responses]

section

variable {a : UpstreamAddress} {rest : List UpstreamAddress} {last : ForwardError}
  {relayed : Option Response} {exchange : Exchange} {pre body new : List Event}
  {r : Except ForwardError Response} {results : List (Except ForwardError Response)}

/-- A visit whose outcome does not end the walk, in front of the rest of the walk. -/
theorem Concludes.cons {o : Except ForwardError Response} {last' : ForwardError}
    {relayed' : Option Response} (h : Concludes rest last' relayed' r new results)
    (hstart : Forwarder.TurnStart q request a (.ok exchange) pre)
    (hvisit : VisitLog q (T a) o body) (ho : ¬ EndsWalk o)
    (hresponse : ∀ x, (responses (o :: results)).getLast? = some x → r = .ok x)
    (hrelays : responses (o :: results) = [] → ∀ x, relayed = some x → r = .ok x)
    (hfails : responses (o :: results) = [] → relayed = .none →
      r = .error (lastError last (o :: results))) :
    Concludes (a :: rest) last relayed r (pre ++ .visit a :: (body ++ .outcome a o :: new))
      (o :: results) where
  count := Nat.succ_le_succ h.count
  outcomes := by
    rw [outcomes_visit hstart hvisit, h.outcomes]
    rfl
  visits := by
    rw [visits_visit hstart hvisit, h.visits]
    rfl
  first := by
    intro o' ho'
    cases results with
    | nil => cases ho'
    | cons o₁ results =>
      rw [List.dropLast_cons_cons] at ho'
      rcases List.mem_cons.mp ho' with rfl | ho'
      · exact ho
      · exact h.first o' ho'
  complete := by
    rcases h.complete with ⟨o', hmem, hends⟩ | hlength
    · exact .inl ⟨o', List.mem_cons_of_mem o hmem, hends⟩
    · exact .inr (congrArg (· + 1) hlength)
  response := hresponse
  relays := hrelays
  fails := hfails

/-- A deadline check in front of a walk. -/
theorem Concludes.check (h : Concludes rest last relayed r new results) (reading : Option Reading) :
    Concludes rest last relayed r (.check reading :: new) results :=
  { h with outcomes := h.outcomes, visits := h.visits }

/-- A turn that failed: its error is the last one so far. -/
theorem Concludes.error {e : ForwardError} (h : Concludes rest e relayed r new results)
    (hstart : Forwarder.TurnStart q request a (.ok exchange) pre)
    (hvisit : VisitLog q (T a) (.error e) body) :
    Concludes (a :: rest) last relayed r (pre ++ .visit a :: (body ++ .outcome a (.error e) :: new))
      (.error e :: results) := by
  exact h.cons hstart hvisit id h.response h.relays h.fails

/-- A turn with a response that is retried: it is relayed unless a later server does better. -/
theorem Concludes.retried {response : Response} {last' : ForwardError}
    (h : Concludes rest last' (some response) r new results)
    (hstart : Forwarder.TurnStart q request a (.ok exchange) pre)
    (hvisit : VisitLog q (T a) (.ok response) body) (hfinal : ¬ Final response) :
    Concludes (a :: rest) last relayed r
      (pre ++ .visit a :: (body ++ .outcome a (.ok response) :: new))
      (.ok response :: results) := by
  have hcons : responses (.ok response :: results) = response :: responses results := rfl
  refine h.cons hstart hvisit hfinal (fun x hx => ?_) (fun hnone => ?_) fun hnone => ?_
  · rw [hcons] at hx
    cases hresponses : responses results with
    | nil =>
      rw [hresponses] at hx
      cases hx
      exact h.relays hresponses _ rfl
    | cons y ys =>
      rw [hresponses, List.getLast?_cons_cons, ← hresponses] at hx
      exact h.response x hx
  · rw [hcons] at hnone
    cases hnone
  · rw [hcons] at hnone
    cases hnone

/-- A turn with a final response ends the walk. -/
theorem Concludes.final {response : Response} {reading : Option Reading}
    (hstart : Forwarder.TurnStart q request a (.ok exchange) pre)
    (hvisit : VisitLog q (T a) (.ok response) body) (hfinal : Final response) :
    Concludes (a :: rest) last relayed (.ok response)
      (pre ++ .visit a :: (body ++ .outcome a (.ok response) :: [.check reading]))
      [.ok response] where
  count := Nat.succ_le_succ (Nat.zero_le _)
  outcomes := outcomes_visit hstart hvisit
  visits := visits_visit hstart hvisit
  first := by simp
  complete := .inl ⟨_, List.mem_singleton_self _, hfinal⟩
  response := by simp [responses, Except.toOption]
  relays := fun h => nomatch h
  fails := fun h => nomatch h

end

/-- A response is final unless it is retried in the group. -/
theorem final_iff {response : Response} :
    Final response ↔ retriesInGroup response.responseCode = false := by
  simp [Final, retriesInGroup]

/-- An undisturbed walk returns what its outcomes say. -/
theorem Forwarder.ForwardLog.concludes {servers : List UpstreamAddress} {last : ForwardError}
    {relayed : Option Response} {r : Except ForwardError Response} {new : List Event}
    (h : ForwardLog q T request servers last relayed r new) (hnew : Undisturbed request new) :
    ∃ results, Concludes servers last relayed r new results := by
  induction h with
  | expires left => exact (hnew.left_ne_error List.mem_cons_self _ left).elim
  | relays _ => exact ⟨[], .none (fun x hx => by cases hx; rfl) fun h => nomatch h⟩
  | gives _ => exact ⟨[], .none (fun x hx => nomatch hx) fun _ => rfl⟩
  | unstarted start => exact (hnew.started start).elim
  | cancelled start visit =>
    rcases visit.error _ rfl with hne | ⟨ev, hev, hstop⟩
    · exact (hne rfl).elim
    · exact (hnew.not_stopSeen ev (by simp [hev]) hstop).elim
  | failed start visit _ _ ih =>
    obtain ⟨results, h⟩ := ih hnew.next
    exact ⟨_, h.error start visit⟩
  | late start visit left => exact (hnew.left_ne_error (by simp) _ left).elim
  | returns start visit _ final => exact ⟨_, .final start visit (final_iff.mpr final)⟩
  | advances start visit _ retried _ ih =>
    have hnext : Undisturbed request ([.check _] ++ _) := hnew.next
    obtain ⟨results, h⟩ := ih hnext.of_append
    refine ⟨_, (h.check _).retried start visit fun hfinal => ?_⟩
    rw [final_iff.mp hfinal] at retried
    cases retried

end

/-! ### The outcome of a group -/

/-- What a group returns, from the outcomes of its servers: one for each visited server, in
order. -/
structure FailsOver (servers : List UpstreamAddress) (r : Except ForwardError Response)
    (new : List Event) (results : List (Except ForwardError Response)) : Prop where
  nonempty : results ≠ []
  count : results.length ≤ servers.length
  visits : visits new = servers.take results.length
  outcomes : outcomes new = (servers.take results.length).zip results
  /-- No visit before the last one ended in a final response. -/
  first : ∀ o ∈ results.dropLast, ¬ EndsWalk o
  /-- Without a final response all servers are visited. -/
  complete : (∃ o ∈ results, EndsWalk o) ∨ results.length = servers.length
  /-- A final response is returned. -/
  final : ∀ x, results.getLast? = some (.ok x) → Final x → r = .ok x
  /-- Otherwise the last SERVFAIL or REFUSED is returned. -/
  relayed : (∀ o ∈ results, ¬ EndsWalk o) →
    ∀ x, (responses results).getLast? = some x → r = .ok x
  /-- Without any response the error of the last server is returned. -/
  failed : responses results = [] → ∃ e, results.getLast? = some (.error e) ∧ r = .error e

/-- A response at the end of the outcomes is the last response. -/
theorem getLast?_responses {results : List (Except ForwardError Response)} {x : Response}
    (h : results.getLast? = some (.ok x)) : (responses results).getLast? = some x := by
  obtain ⟨init, rfl⟩ := List.getLast?_eq_some_iff.mp h
  rw [responses, List.filterMap_append]
  exact List.getLast?_concat

namespace Forwarder

/-- In an undisturbed run `forward` visits the servers up to the first final response and
returns it. Without one it returns the last response, and without any the last error. -/
theorem forward_failover {p : Packet} {q : Query} (hp : Packet.parse p.wire = .ok p)
    (hq : p.validateQuery = .forward q) (group : UpstreamGroup) (transport : Transport)
    (request : Deadline) (s : Forwarder) (new : List Event)
    (hlog : ((forward q group transport request).exec s).2.env.log = s.env.log ++ new)
    (hnew : Undisturbed request new) :
    ∃ results, FailsOver group.servers ((forward q group transport request).exec s).1 new
      results := by
  obtain ⟨rfl, hforward⟩ := Packet.validateQuery_eq_forward_iff.mp hq
  obtain ⟨-, new', hlog', hwalk⟩ := forward_logs (T := fun _ _ => True) request (fun _ => trivial)
    hp hforward.questions group transport s fun _ _ => trivial
  obtain rfl : new' = new := List.append_cancel_left (hlog'.symm.trans hlog)
  obtain ⟨results, h⟩ := hwalk.concludes hnew
  have hne : results ≠ [] := by
    rintro rfl
    rcases h.complete with ⟨o, hmem, -⟩ | hlength
    · cases hmem
    · exact group.nonempty (List.eq_nil_of_length_eq_zero hlength.symm)
  exact ⟨results, {
    nonempty := hne
    count := h.count
    visits := h.visits
    outcomes := h.outcomes
    first := h.first
    complete := h.complete
    final := fun x hx _ => h.response x (getLast?_responses hx)
    relayed := fun _ x hx => h.response x hx
    failed := fun hnone =>
      ⟨_, getLast?_of_no_responses hnone hne .timeout, h.fails hnone rfl⟩ }⟩

/-- The server at 192.0.2.2 and port 53. -/
def secondServer : UpstreamAddress where
  socket := SocketAddr.new (.v4 ⟨192, 0, 2, 2⟩) 53
  canonical := by decide
  port_ne_zero := by decide
  specified := by decide
  unicast := by decide
  not_broadcast := by decide

/-- The group of the example, with two servers. -/
def twoServers : UpstreamGroup where
  servers := [firstServer, secondServer]
  nonempty := by decide
  bounded := by decide
  distinct := by decide

/-- SERVFAIL for the root query under ID 1. -/
def rootFailure : Packet where
  wire := [0, 1, 0x81, 0x82, 0, 1, 0, 0, 0, 0, 0, 0, 0, 0, 1, 0, 1]
  header := ⟨⟨1⟩, 0x8182, ⟨1, 0, 0, 0⟩⟩
  questions := [⟨⟨[]⟩, .a, .in⟩]
  edns := none
  authenticated := false
  cookie := none

/-- A world in which the first server answers SERVFAIL and the second cannot be asked. -/
def failing : Forwarder where
  tcp := none
  env := {
    clock := List.replicate 10 ⟨false, 5⟩
    entropy := [.ok 1, .ok 2]
    udp := [⟨none, none, none, none, [.datagram rootFailure.wire]⟩,
      ⟨some (.other 1), none, none, none, []⟩]
    tcp := []
    log := [] }

/-- What a run in that world logs. -/
def failingLog : List Event :=
  [.attempt firstServer, .now (some 5), .check (some ⟨false, 5⟩), .entropy (.ok 1),
    .visit firstServer, .check (some ⟨false, 5⟩),
    .udpSend firstServer.socket (rootQuery.withId ⟨1⟩), .check (some ⟨false, 5⟩),
    .check (some ⟨false, 5⟩), .accept firstServer.socket ⟨rootFailure⟩,
    .outcome firstServer (.ok ⟨rootFailure⟩), .check (some ⟨false, 5⟩),
    .attempt secondServer, .now (some 5), .check (some ⟨false, 5⟩), .entropy (.ok 2),
    .visit secondServer, .outcome secondServer (.error (.io ⟨.other 1, .os⟩)),
    .check (some ⟨false, 5⟩)]

/-- The SERVFAIL of the first server outlives the error of the second. -/
theorem forward_failover_failing :
    Undisturbed ⟨5000000000⟩ failingLog ∧
      ((forward ⟨rootQuery, ⟨⟨[]⟩, .a, .in⟩⟩ twoServers .udp ⟨5000000000⟩).exec failing).1
        = .ok ⟨rootFailure⟩ ∧
      ∃ results, FailsOver twoServers.servers (.ok ⟨rootFailure⟩) failingLog results := by
  have hundisturbed : Undisturbed ⟨5000000000⟩ failingLog := by
    refine ⟨by simp [failingLog], by simp [failingLog], fun a post h => ?_⟩
    simp only [failingLog, List.suffix_cons_iff, List.cons.injEq, reduceCtorEq, false_and,
      false_or, List.suffix_nil, or_false] at h
    rcases h with ⟨-, rfl⟩ | ⟨-, rfl⟩
    · exact ⟨_, _, _, _, rfl⟩
    · exact ⟨_, _, _, _, rfl⟩
  have hrun : ((forward ⟨rootQuery, ⟨⟨[]⟩, .a, .in⟩⟩ twoServers .udp ⟨5000000000⟩).exec failing).1
      = .ok ⟨rootFailure⟩ := by
    decide +kernel
  have hresult := @forward_failover rootQuery ⟨rootQuery, ⟨⟨[]⟩, .a, .in⟩⟩ (by decide +kernel)
    (by decide +kernel) twoServers .udp ⟨5000000000⟩ failing failingLog (by decide +kernel)
    hundisturbed
  rw [hrun] at hresult
  exact ⟨hundisturbed, hrun, hresult⟩

end Forwarder

end Sederial
