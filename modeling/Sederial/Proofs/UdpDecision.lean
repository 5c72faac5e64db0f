import Mathlib.Algebra.BigOperators.Group.List.Basic
import Mathlib.Data.List.TakeWhile
import Sederial.Proofs.Correlation
import Sederial.Proofs.TcpExchange
import Sederial.UdpBuffer

/-!
# `Sederial.Proofs.UdpDecision`: what decides a UDP exchange

`udpDecision` is the verdict on one datagram: it is accepted, it starts TCP, or it is invalid.
`udpLoop_skip` shows that invalid datagrams and transient errors only cost clock readings and,
for the datagrams, one of the 64 strikes. `udpExchange_screens` concludes that two runs take the
same decision when their events agree without them, and that the 64th invalid datagram ends a
run without a decision.

The buffer of the receive loop plays no part (`udpLoopBuffered_exec`): what is looked at is the
part of it that the last datagram has filled.
-/

set_option autoImplicit false

namespace Sederial.Lib

/-- An element that satisfies `p` and has exactly `n` such elements in front of it. -/
theorem exists_split_of_lt_countP {α : Type} {p : α → Bool} {l : List α} {n : Nat}
    (h : n < l.countP p) :
    ∃ pre x post, l = pre ++ x :: post ∧ pre.countP p = n ∧ p x = true := by
  induction l generalizing n with
  | nil => cases h
  | cons a l ih =>
    by_cases ha : p a = true
    · rw [List.countP_cons_of_pos ha] at h
      cases n with
      | zero => exact ⟨[], a, l, rfl, rfl, ha⟩
      | succ n =>
        obtain ⟨pre, x, post, rfl, hcount, hx⟩ := ih (Nat.lt_of_succ_lt_succ h)
        exact ⟨a :: pre, x, post, rfl, by rw [List.countP_cons_of_pos ha, hcount], hx⟩
    · rw [List.countP_cons_of_neg ha] at h
      obtain ⟨pre, x, post, rfl, hcount, hx⟩ := ih h
      exact ⟨a :: pre, x, post, rfl, by rw [List.countP_cons_of_neg ha, hcount], hx⟩

end Sederial.Lib

namespace Sederial

open Sederial.Lib
open Sederial.Dns (Packet Query Response SentQuery maxMessageLength rootQuery rootResponse)

/-! ### The buffer -/

/-- The filled part of the buffer is the datagram, cut at the length of the buffer. -/
theorem take_recv (buffer bytes : List UInt8) :
    (recv buffer bytes).2.take (recv buffer bytes).1 = bytes.take buffer.length := by
  show (overwrite buffer 0 (bytes.take (min bytes.length buffer.length))).take
    (min bytes.length buffer.length) = bytes.take buffer.length
  have hlength : (bytes.take (min bytes.length buffer.length)).length
      = min bytes.length buffer.length := by
    rw [List.length_take]
    omega
  have hsame : bytes.take (min bytes.length buffer.length) = bytes.take buffer.length := by
    rw [Nat.min_comm, ← List.take_take, List.take_of_length_le (Nat.le_refl bytes.length)]
  rw [overwrite, List.take_zero, List.nil_append, List.take_left' hlength, hsame]

/-- A datagram is received into the buffer in place. -/
theorem length_recv (buffer bytes : List UInt8) :
    (recv buffer bytes).2.length = buffer.length := by
  refine length_overwrite ?_
  rw [List.length_take]
  omega

namespace Forwarder

/-- The loop with its buffer does what the loop without it does. -/
theorem udpLoopBuffered_exec (address : UpstreamAddress) (exchange : Exchange) (turns : Nat)
    (incoming : List UdpEvent) (buffer : List UInt8) (invalidResponses : Nat)
    (hbuffer : buffer.length = maxMessageLength) :
    udpLoopBuffered address exchange turns incoming buffer invalidResponses
      = udpLoop address exchange turns incoming invalidResponses := by
  -- The buffer changes from turn to turn, but what is looked at is the datagram in front of it.
  induction turns generalizing incoming buffer invalidResponses with
  | zero =>
    unfold udpLoopBuffered udpLoop
    rfl
  | succ turns ih =>
    unfold udpLoopBuffered udpLoop
    refine congrArg (checkDeadline exchange.deadline >>= ·) (funext fun _ => ?_)
    dsimp only
    split
    · exact ih [] buffer _ hbuffer
    · rfl
    · rw [ih _ buffer _ hbuffer]
    · rename_i bytes rest
      have hlater := ih rest _ (invalidResponses + 1) ((length_recv buffer bytes).trans hbuffer)
      have hfilled := take_recv buffer bytes
      rw [hbuffer] at hfilled
      rw [hfilled]
      refine congrArg (checkDeadline exchange.deadline >>= ·) (funext fun _ => ?_)
      by_cases hmatch : exchange.sent.matchesTruncated (bytes.take maxMessageLength) = true
      · rw [if_pos hmatch, if_pos hmatch]
      · refine (if_neg hmatch).trans (Eq.trans ?_ (if_neg hmatch).symm)
        cases (Packet.parse (bytes.take maxMessageLength)).toOption.bind
          exchange.sent.validateResponse with
        | some response => rfl
        | none =>
          exact congrArg (fun m => if invalidResponses + 1 = maxInvalidResponses then
            throw .invalidResponse else m) hlater

/-- The exchange on a buffer, started as the code starts it, is `udpExchange`. -/
theorem udpExchangeBuffered_exec (address : UpstreamAddress) (exchange : Exchange) :
    udpExchangeBuffered address exchange = udpExchange address exchange := by
  unfold udpExchangeBuffered udpExchange
  simp only [udpLoopBuffered_exec _ _ _ _ _ _ List.length_replicate]

end Forwarder

/-! ### The verdict on one datagram -/

/-- What an acceptable datagram makes `udp_exchange` do. -/
inductive UdpDecision where
  | accept (response : Response)
  | startTcp
  deriving DecidableEq

/-- The verdict on a datagram; `none` is the verdict on an invalid one. -/
def udpDecision (sent : SentQuery) (bytes : List UInt8) : Option UdpDecision :=
  let bytes := bytes.take maxMessageLength
  if sent.matchesTruncated bytes then some .startTcp
  else ((Packet.parse bytes).toOption.bind sent.validateResponse).map .accept

namespace UdpEvent

/-- The event is a datagram that decides the exchange. -/
def acceptable (sent : SentQuery) : UdpEvent → Bool
  | .datagram bytes => (udpDecision sent bytes).isSome
  | _ => false

/-- The event is a datagram that counts as a strike. -/
def invalid (sent : SentQuery) : UdpEvent → Bool
  | .datagram bytes => (udpDecision sent bytes).isNone
  | _ => false

/-- The deadline checks that the loop makes for an event. -/
def checks : UdpEvent → Nat
  | .datagram _ => 2
  | _ => 1

/-- The event is a datagram or a transient error. -/
def Regular : UdpEvent → Prop
  | .datagram _ => True
  | .failed kind => transient kind = true
  | .timeoutRejected _ => False

end UdpEvent

/-- The invalid datagrams in front of the first acceptable one. -/
def invalidBefore (sent : SentQuery) (incoming : List UdpEvent) : Nat :=
  (incoming.takeWhile fun e => !e.acceptable sent).countP (UdpEvent.invalid sent)

/-! ### Time -/

/-- The next `n` readings come before the deadline, and none of them saw cancellation. -/
structure Timely (deadline : Deadline) (env : Env) (n : Nat) : Prop where
  enough : n ≤ env.clock.length
  intime : ∀ reading ∈ env.clock.take n, reading.stop = false ∧ reading.now < deadline.instant

/-- The outside world after `n` deadline checks. -/
def Env.checkedTimes (env : Env) : Nat → Env
  | 0 => env
  | n + 1 => env.checked.checkedTimes n

/-- Checks add up. -/
theorem Env.checkedTimes_add (env : Env) (m n : Nat) :
    env.checkedTimes (m + n) = (env.checkedTimes m).checkedTimes n := by
  induction m generalizing env with
  | zero => rw [Nat.zero_add]; rfl
  | succ m ih =>
    rw [Nat.succ_add]
    exact ih env.checked

/-- A deadline that is met for some checks is met for fewer. -/
theorem Timely.mono {deadline : Deadline} {env : Env} {m n : Nat} (h : Timely deadline env n)
    (hm : m ≤ n) : Timely deadline env m :=
  ⟨Nat.le_trans hm h.enough, fun reading hreading =>
    h.intime reading (List.take_subset_take_left _ hm hreading)⟩

/-- One check passes and leaves the rest of the readings. -/
theorem Timely.step {deadline : Deadline} {env : Env} {n : Nat}
    (h : Timely deadline env (n + 1)) :
    (∃ left, deadline.left env.clock.head? = .ok left) ∧ Timely deadline env.checked n := by
  obtain ⟨henough, hintime⟩ := h
  cases hclock : env.clock with
  | nil =>
    rw [hclock] at henough
    cases henough
  | cons reading later =>
    rw [hclock] at henough hintime
    obtain ⟨hstop, hnow⟩ := hintime reading List.mem_cons_self
    refine ⟨⟨deadline.instant - reading.now, by simp [Deadline.left, hstop, hnow]⟩, ?_, ?_⟩
    · show n ≤ env.clock.tail.length
      rw [hclock]
      exact Nat.le_of_succ_le_succ henough
    · show ∀ r ∈ env.clock.tail.take n, r.stop = false ∧ r.now < deadline.instant
      rw [hclock]
      exact fun r hr => hintime r (List.mem_cons_of_mem _ hr)

/-- A deadline that is met for `m + n` checks is met for the last `n`, behind the first `m`. -/
theorem Timely.checkedTimes {deadline : Deadline} {env : Env} {m n : Nat}
    (h : Timely deadline env (m + n)) : Timely deadline (env.checkedTimes m) n := by
  induction m generalizing env with
  | zero => rwa [Nat.zero_add] at h
  | succ m ih =>
    rw [Nat.succ_add] at h
    exact ih h.step.2

namespace Forwarder

/-- A forwarder after `n` deadline checks. -/
def waited (s : Forwarder) (n : Nat) : Forwarder := { s with env := s.env.checkedTimes n }

/-- Waits add up. -/
theorem waited_add (s : Forwarder) (m n : Nat) : s.waited (m + n) = (s.waited m).waited n := by
  rw [waited, Env.checkedTimes_add]
  rfl

/-- A check in time is passed. -/
theorem checkDeadline_bind_exec {α : Type} {deadline : Deadline} {s : Forwarder} {n : Nat}
    (h : Timely deadline s.env (n + 1)) (m : Unit → Run Forwarder ForwardError α) :
    (checkDeadline deadline >>= m).exec s = (m ()).exec (s.waited 1) := by
  obtain ⟨⟨left, hleft⟩, -⟩ := h.step
  rw [Run.exec_bind, checkDeadline_exec, hleft]
  rfl

/-! ### The receive loop -/

/-- What the exchange does on a decision: it returns the response, or starts over TCP. -/
def take (address : UpstreamAddress) (exchange : Exchange) :
    UdpDecision → Run Forwarder ForwardError Response
  | .accept response => do
    record (.accept address.socket response)
    return response
  | .startTcp => tcpExchange address exchange

section

variable {address : UpstreamAddress} {sent : SentQuery} {deadline : Deadline} {s : Forwarder}
  {bytes : List UInt8} {rest : List UdpEvent} {turns strikes n : Nat}

/-- An acceptable datagram decides. -/
theorem udpLoop_decides {decision : UdpDecision}
    (hdecision : udpDecision sent bytes = some decision)
    (htime : Timely deadline s.env (n + 2)) :
    (udpLoop address ⟨sent, deadline⟩ (turns + 1) (.datagram bytes :: rest) strikes).exec s
      = (take address ⟨sent, deadline⟩ decision).exec (s.waited 2) := by
  unfold udpLoop
  rw [checkDeadline_bind_exec htime, checkDeadline_bind_exec htime.step.2, ← waited_add]
  unfold udpDecision at hdecision
  dsimp only at hdecision ⊢
  by_cases hmatch : sent.matchesTruncated (bytes.take maxMessageLength) = true
  · rw [if_pos hmatch] at hdecision ⊢
    cases hdecision
    rfl
  · rw [if_neg hmatch] at hdecision ⊢
    obtain ⟨response, hresponse, rfl⟩ := Option.map_eq_some_iff.mp hdecision
    rw [hresponse]
    rfl

/-- An invalid datagram costs a strike, and the last strike ends the exchange. -/
theorem udpLoop_strikes (hinvalid : udpDecision sent bytes = none)
    (htime : Timely deadline s.env (n + 2)) :
    (udpLoop address ⟨sent, deadline⟩ (turns + 1) (.datagram bytes :: rest) strikes).exec s
      = if strikes + 1 = maxInvalidResponses then (.error .invalidResponse, s.waited 2)
        else (udpLoop address ⟨sent, deadline⟩ turns rest (strikes + 1)).exec (s.waited 2) := by
  conv => lhs; unfold udpLoop
  rw [checkDeadline_bind_exec htime, checkDeadline_bind_exec htime.step.2, ← waited_add]
  unfold udpDecision at hinvalid
  dsimp only at hinvalid ⊢
  by_cases hmatch : sent.matchesTruncated (bytes.take maxMessageLength) = true
  · rw [if_pos hmatch] at hinvalid
    cases hinvalid
  · rw [if_neg hmatch] at hinvalid ⊢
    rw [Option.map_eq_none_iff.mp hinvalid]
    dsimp only
    rw [Run.exec_ite]
    rfl

/-- A transient error costs a clock reading. -/
theorem udpLoop_waits {kind : ErrorKind} (htransient : transient kind = true)
    (htime : Timely deadline s.env (n + 1)) :
    (udpLoop address ⟨sent, deadline⟩ (turns + 1) (.failed kind :: rest) strikes).exec s
      = (udpLoop address ⟨sent, deadline⟩ turns rest strikes).exec (s.waited 1) := by
  conv => lhs; unfold udpLoop
  rw [checkDeadline_bind_exec htime]
  simp only [htransient, if_true]

/-- Events that do not decide are skipped, as long as the strikes suffice. -/
theorem udpLoop_skip {pre : List UdpEvent}
    (hpre : ∀ e ∈ pre, e.Regular ∧ e.acceptable sent = false)
    (hstrikes : strikes + pre.countP (UdpEvent.invalid sent) < maxInvalidResponses)
    (htime : Timely deadline s.env ((pre.map UdpEvent.checks).sum)) :
    (udpLoop address ⟨sent, deadline⟩ (pre.length + turns) (pre ++ rest) strikes).exec s
      = (udpLoop address ⟨sent, deadline⟩ turns rest
          (strikes + pre.countP (UdpEvent.invalid sent))).exec
            (s.waited (pre.map UdpEvent.checks).sum) := by
  -- Each event in front costs its checks, and an invalid datagram costs a strike as well.
  induction pre generalizing strikes s with
  | nil => simp [waited, Env.checkedTimes]
  | cons e pre ih =>
    obtain ⟨hreceived, hunacceptable⟩ := hpre e List.mem_cons_self
    have hrest : ∀ e ∈ pre, e.Regular ∧ e.acceptable sent = false :=
      fun e he => hpre e (List.mem_cons_of_mem _ he)
    rw [List.length_cons, Nat.succ_add, List.cons_append]
    rw [List.map_cons, List.sum_cons] at htime ⊢
    rw [List.countP_cons] at hstrikes ⊢
    cases e with
    | datagram bytes =>
      have hnone : udpDecision sent bytes = none := by
        simpa [UdpEvent.acceptable] using hunacceptable
      have hstrike : UdpEvent.invalid sent (.datagram bytes) = true := by
        simp [UdpEvent.invalid, hnone]
      rw [if_pos hstrike] at hstrikes ⊢
      have htime' : Timely deadline s.env ((pre.map UdpEvent.checks).sum + 2) := by
        rwa [Nat.add_comm]
      rw [udpLoop_strikes hnone htime', if_neg (by omega),
        ih hrest (by omega) (htime.checkedTimes), ← waited_add, Nat.add_assoc, Nat.add_comm 1]
      rfl
    | failed kind =>
      have hpass : UdpEvent.invalid sent (.failed kind) = false := rfl
      rw [hpass] at hstrikes ⊢
      have htime' : Timely deadline s.env ((pre.map UdpEvent.checks).sum + 1) := by
        rwa [Nat.add_comm]
      rw [udpLoop_waits hreceived htime', ih hrest hstrikes (htime.checkedTimes), ← waited_add]
      rfl
    | timeoutRejected kind => cases hreceived

/-! ### The exchange -/

/-- The next socket opens, and the loop will receive `incoming` on it: datagrams and transient
errors, all in time. -/
structure Receives (deadline : Deadline) (s : Forwarder) (incoming : List UdpEvent) : Prop where
  socket : ∃ later, s.env.udp = ⟨none, none, none, none, incoming⟩ :: later
  received : ∀ e ∈ incoming, e.Regular
  intime : Timely deadline s.env ((incoming.map UdpEvent.checks).sum + 1)

/-- The forwarder when it has sent the query and waits for an answer. -/
def listening (address : UpstreamAddress) (sent : SentQuery) (s : Forwarder) : Forwarder :=
  { s with
    env := ({ s.env with udp := s.env.udp.tail } : Env).checked.record
      (.udpSend address.socket sent.wire) }

variable {incoming : List UdpEvent}

/-- A server that is received from in time is in time for every check of the receive loop. -/
theorem Receives.timely (h : Receives deadline s incoming) :
    Timely deadline (listening address sent s).env (incoming.map UdpEvent.checks).sum := by
  obtain ⟨-, henough, hintime⟩ := h.intime.step
  exact ⟨henough, hintime⟩

/-- The exchange comes down to the receive loop. -/
theorem udpExchange_exec (h : Receives deadline s incoming) :
    (udpExchange address ⟨sent, deadline⟩).exec s
      = (udpLoop address ⟨sent, deadline⟩ (listening address sent s).env.clock.length incoming
          0).exec (listening address sent s) := by
  obtain ⟨later, hsocket⟩ := h.socket
  have hopen : (onEnv Env.openUdp : Run Forwarder ForwardError UdpScript).exec s
      = (.ok ⟨none, none, none, none, incoming⟩,
          { s with env := { s.env with udp := s.env.udp.tail } }) := by
    rw [onEnv_exec, Env.openUdp, Run.exec_step, hsocket]
    rfl
  unfold udpExchange
  rw [Run.exec_bind, hopen]
  dsimp only [checkCall]
  rw [Run.exec_bind, Run.exec_pure]
  dsimp only
  rw [Run.exec_bind, Run.exec_pure]
  dsimp only
  rw [checkDeadline_bind_exec (show Timely deadline
    { s.env with udp := s.env.udp.tail } _ from ⟨h.intime.enough, h.intime.intime⟩)]
  simp only [Run.exec_bind, Run.exec_pure, record, Run.exec_modify, Run.exec_get]
  rfl

/-- The events in front of the first acceptable datagram are skipped. -/
theorem skipped {pre : List UdpEvent} {e : UdpEvent} (h : Receives deadline s incoming)
    (hsplit : incoming = pre ++ e :: rest) (hpre : ∀ e ∈ pre, e.acceptable sent = false)
    (hfew : pre.countP (UdpEvent.invalid sent) < maxInvalidResponses) :
    ∃ turns n, (udpExchange address ⟨sent, deadline⟩).exec s
        = (udpLoop address ⟨sent, deadline⟩ (turns + 1) (e :: rest)
            (pre.countP (UdpEvent.invalid sent))).exec ((listening address sent s).waited n) ∧
      Timely deadline ((listening address sent s).waited n).env e.checks := by
  have htimely := @Receives.timely address sent _ _ _ h
  have hsum : (incoming.map UdpEvent.checks).sum = (pre.map UdpEvent.checks).sum
      + (e.checks + (rest.map UdpEvent.checks).sum) := by
    rw [hsplit, List.map_append, List.map_cons, List.sum_append, List.sum_cons]
  rw [hsum] at htimely
  -- Every event takes a reading, so the turns last.
  have hturns : pre.length + 1 ≤ (listening address sent s).env.clock.length := by
    have hpos : ∀ e : UdpEvent, 1 ≤ e.checks := by
      intro e
      cases e with
      | datagram bytes => exact Nat.le_succ 1
      | failed kind => exact Nat.le_refl 1
      | timeoutRejected kind => exact Nat.le_refl 1
    have hlength : pre.length ≤ (pre.map UdpEvent.checks).sum := by
      have hle := List.length_le_sum_of_one_le (pre.map UdpEvent.checks) fun n hn => by
        obtain ⟨e, -, rfl⟩ := List.mem_map.mp hn
        exact hpos e
      rwa [List.length_map] at hle
    have := htimely.enough
    have := hpos e
    omega
  obtain ⟨turns, hlength⟩ := Nat.exists_eq_add_of_le hturns
  refine ⟨turns, (pre.map UdpEvent.checks).sum, ?_,
    htimely.checkedTimes.mono (Nat.le_add_right _ _)⟩
  rw [udpExchange_exec h, hlength, Nat.add_assoc, Nat.add_comm 1, hsplit,
    udpLoop_skip (fun e he => ⟨h.received e (by rw [hsplit]; exact List.mem_append_left _ he),
      hpre e he⟩) (by rwa [Nat.zero_add]) (htimely.mono (Nat.le_add_right _ _)), Nat.zero_add]

/-- The part in front of the first acceptable datagram. -/
theorem takeWhile_split {pre : List UdpEvent} {e : UdpEvent}
    (hpre : ∀ e ∈ pre, e.acceptable sent = false) (he : e.acceptable sent = true) :
    (pre ++ e :: rest).takeWhile (fun e => !e.acceptable sent) = pre := by
  rw [List.takeWhile_append_of_pos (fun e h => by simp [hpre e h]),
    List.takeWhile_cons_of_neg (by simp [he]), List.append_nil]

/-- With fewer than 64 invalid datagrams in front of it the first acceptable one decides. -/
theorem udpExchange_decides {e : UdpEvent} {later : List UdpEvent}
    (h : Receives deadline s incoming)
    (hfirst : incoming.filter (UdpEvent.acceptable sent) = e :: later)
    (hfew : invalidBefore sent incoming < maxInvalidResponses) :
    ∃ bytes decision n, e = .datagram bytes ∧ udpDecision sent bytes = some decision ∧
      (udpExchange address ⟨sent, deadline⟩).exec s
        = (take address ⟨sent, deadline⟩ decision).exec ((listening address sent s).waited n) := by
  -- The first acceptable event splits the script; what stands before it is skipped.
  obtain ⟨pre, rest, hsplit, hpre, he, -⟩ := List.filter_eq_cons_iff.mp hfirst
  have hpre : ∀ e ∈ pre, e.acceptable sent = false := fun e h => by simpa using hpre e h
  rw [invalidBefore, hsplit, takeWhile_split hpre he] at hfew
  obtain ⟨turns, n, hrun, htime⟩ := @skipped address sent _ _ _ _ _ _ h hsplit hpre hfew
  cases e with
  | datagram bytes =>
    obtain ⟨decision, hdecision⟩ := Option.isSome_iff_exists.mp he
    refine ⟨bytes, decision, n + 2, rfl, hdecision, ?_⟩
    have htime' : Timely deadline ((listening address sent s).waited n).env (0 + 2) := htime
    rw [hrun, udpLoop_decides hdecision htime', ← waited_add]
  | failed kind => cases he
  | timeoutRejected kind => cases he

/-- The 64th invalid datagram in front of an acceptable one ends the exchange. -/
theorem udpExchange_struckOut (h : Receives deadline s incoming)
    (hmany : maxInvalidResponses ≤ invalidBefore sent incoming) :
    ∃ n, (udpExchange address ⟨sent, deadline⟩).exec s
      = (.error .invalidResponse, (listening address sent s).waited n) := by
  -- The 64th invalid datagram splits the script, with 63 strikes in front of it.
  obtain ⟨pre, e, post, hsplit, hcount, he⟩ :=
    exists_split_of_lt_countP (Nat.lt_of_lt_of_le (show 63 < maxInvalidResponses by decide) hmany)
  have hfront : ∀ e ∈ pre, e.acceptable sent = false := by
    intro e he
    have hmem : e ∈ incoming.takeWhile fun e => !e.acceptable sent := by
      rw [hsplit]
      exact List.mem_append_left _ he
    simpa using List.mem_takeWhile_imp hmem
  have hwhole :
      incoming = pre ++ e :: (post ++ incoming.dropWhile fun e => !e.acceptable sent) := by
    rw [← List.cons_append, ← List.append_assoc, ← hsplit, List.takeWhile_append_dropWhile]
  obtain ⟨turns, n, hrun, htime⟩ := @skipped address sent _ _ _ _ _ _ h hwhole hfront (by
    rw [hcount]
    decide)
  cases e with
  | datagram bytes =>
    have hnone : udpDecision sent bytes = none := by simpa [UdpEvent.invalid] using he
    refine ⟨n + 2, ?_⟩
    have htime' : Timely deadline ((listening address sent s).waited n).env (0 + 2) := htime
    rw [hrun, hcount, udpLoop_strikes hnone htime',
      if_pos (show 63 + 1 = maxInvalidResponses from rfl),
      ← waited_add]
  | failed kind => cases he
  | timeoutRejected kind => cases he

end

/-- Invalid datagrams do not influence a UDP exchange. Two exchanges of one query whose receive
events agree up to invalid datagrams and transient errors take the same decision on the same
datagram, if each sees fewer than 64 invalid datagrams before it: they differ only in the time
they have waited. With 64 invalid datagrams in front the exchange fails, and has done nothing
but send the query and wait. The buffer of the source changes none of this. -/
theorem udpExchange_screens {address : UpstreamAddress} {sent : SentQuery}
    {deadline deadline' : Deadline} {s s' : Forwarder} {incoming incoming' : List UdpEvent}
    (h : Receives deadline s incoming) (h' : Receives deadline' s' incoming') :
    (∀ exchange, udpExchangeBuffered address exchange = udpExchange address exchange) ∧
    (incoming.filter (UdpEvent.acceptable sent) = incoming'.filter (UdpEvent.acceptable sent) →
      (∃ e ∈ incoming, e.acceptable sent = true) →
      invalidBefore sent incoming < maxInvalidResponses →
      invalidBefore sent incoming' < maxInvalidResponses →
      ∃ bytes decision n n', udpDecision sent bytes = some decision ∧
        (incoming.filter (UdpEvent.acceptable sent)).head? = some (.datagram bytes) ∧
        (udpExchange address ⟨sent, deadline⟩).exec s
          = (take address ⟨sent, deadline⟩ decision).exec ((listening address sent s).waited n) ∧
        (udpExchange address ⟨sent, deadline'⟩).exec s'
          = (take address ⟨sent, deadline'⟩ decision).exec
              ((listening address sent s').waited n')) ∧
    (maxInvalidResponses ≤ invalidBefore sent incoming →
      ∃ n, (udpExchange address ⟨sent, deadline⟩).exec s
        = (.error .invalidResponse, (listening address sent s).waited n)) := by
  refine ⟨udpExchangeBuffered_exec address, fun hsame hsome hfew hfew' => ?_,
    udpExchange_struckOut h⟩
  cases hfirst : incoming.filter (UdpEvent.acceptable sent) with
  | nil =>
    obtain ⟨e, he, hacceptable⟩ := hsome
    exact absurd hacceptable (List.filter_eq_nil_iff.mp hfirst e he)
  | cons e later =>
    obtain ⟨bytes, decision, n, rfl, hdecision, hrun⟩ :=
      @udpExchange_decides address _ _ _ _ _ _ h hfirst hfew
    obtain ⟨bytes', decision', n', hbytes, hdecision', hrun'⟩ :=
      @udpExchange_decides address _ _ _ _ _ _ h' (hsame.symm.trans hfirst) hfew'
    cases hbytes
    rw [hdecision] at hdecision'
    cases hdecision'
    exact ⟨bytes, decision, n, n', hdecision, rfl, hrun, hrun'⟩

/-- A forwarder with time for `n` checks and one socket that delivers `incoming`. -/
def receiving (n : Nat) (incoming : List UdpEvent) : Forwarder :=
  ⟨none, ⟨List.replicate n ⟨false, 0⟩, [], [⟨none, none, none, none, incoming⟩], [], []⟩⟩

/-- A forwarder whose clock stands still receives every list of regular events. -/
theorem receives_receiving {incoming : List UdpEvent} {n : Nat}
    (hreceived : ∀ e ∈ incoming, e.Regular)
    (hn : (incoming.map UdpEvent.checks).sum + 1 ≤ n) :
    Receives ⟨5⟩ (receiving n incoming) incoming := by
  refine ⟨⟨[], rfl⟩, hreceived, ?_, fun reading h => ?_⟩
  · show _ ≤ (List.replicate n (⟨false, 0⟩ : Reading)).length
    rwa [List.length_replicate]
  · have hmem : reading ∈ List.replicate n (⟨false, 0⟩ : Reading) := List.mem_of_mem_take h
    rw [List.eq_of_mem_replicate hmem]
    decide

/-- Three bytes of noise and a timeout in front of the answer change nothing, and 64 empty
datagrams end the exchange. -/
theorem udpExchange_screens_noise :
    (∃ bytes decision n n',
      udpDecision (Query.sent ⟨rootQuery, ⟨⟨[]⟩, .a, .in⟩⟩ ⟨7⟩) bytes = some decision ∧
        (udpExchange firstServer ⟨Query.sent ⟨rootQuery, ⟨⟨[]⟩, .a, .in⟩⟩ ⟨7⟩, ⟨5⟩⟩).exec
            (receiving 6 [.datagram [1, 2, 3], .failed .timedOut, .datagram rootResponse.wire])
          = (take firstServer ⟨Query.sent ⟨rootQuery, ⟨⟨[]⟩, .a, .in⟩⟩ ⟨7⟩, ⟨5⟩⟩ decision).exec
              ((listening firstServer (Query.sent ⟨rootQuery, ⟨⟨[]⟩, .a, .in⟩⟩ ⟨7⟩) (receiving 6
                [.datagram [1, 2, 3], .failed .timedOut, .datagram rootResponse.wire])).waited n) ∧
        (udpExchange firstServer ⟨Query.sent ⟨rootQuery, ⟨⟨[]⟩, .a, .in⟩⟩ ⟨7⟩, ⟨5⟩⟩).exec
            (receiving 3 [.datagram rootResponse.wire])
          = (take firstServer ⟨Query.sent ⟨rootQuery, ⟨⟨[]⟩, .a, .in⟩⟩ ⟨7⟩, ⟨5⟩⟩ decision).exec
              ((listening firstServer (Query.sent ⟨rootQuery, ⟨⟨[]⟩, .a, .in⟩⟩ ⟨7⟩) (receiving 3
                [.datagram rootResponse.wire])).waited n')) ∧
    ((udpExchange firstServer ⟨Query.sent ⟨rootQuery, ⟨⟨[]⟩, .a, .in⟩⟩ ⟨7⟩, ⟨5⟩⟩).exec
      (receiving 129 (List.replicate 64 (.datagram [])))).1 = .error .invalidResponse := by
  constructor
  · obtain ⟨-, hsame, -⟩ := @udpExchange_screens firstServer
      (Query.sent ⟨rootQuery, ⟨⟨[]⟩, .a, .in⟩⟩ ⟨7⟩) ⟨5⟩ ⟨5⟩ _ _ _ _
      (@receives_receiving [.datagram [1, 2, 3], .failed .timedOut, .datagram rootResponse.wire] 6
        (by simp [UdpEvent.Regular, transient]) (by decide))
      (@receives_receiving [.datagram rootResponse.wire] 3 (by simp [UdpEvent.Regular])
        (by decide))
    obtain ⟨bytes, decision, n, n', hdecision, -, hrun, hrun'⟩ := hsame (by decide +kernel)
      ⟨.datagram rootResponse.wire, by simp, by decide +kernel⟩ (by decide +kernel)
      (by decide +kernel)
    exact ⟨bytes, decision, n, n', hdecision, hrun, hrun'⟩
  · have hstorm := @receives_receiving (List.replicate 64 (.datagram [])) 129
      (fun e he => List.eq_of_mem_replicate he ▸ trivial) (by decide)
    obtain ⟨-, -, hmany⟩ := @udpExchange_screens firstServer
      (Query.sent ⟨rootQuery, ⟨⟨[]⟩, .a, .in⟩⟩ ⟨7⟩) ⟨5⟩ ⟨5⟩ _ _ _ _ hstorm hstorm
    obtain ⟨n, hrun⟩ := hmany (by decide +kernel)
    rw [hrun]

end Forwarder

end Sederial
