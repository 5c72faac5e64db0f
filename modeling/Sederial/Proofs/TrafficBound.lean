import Sederial.Proofs.Correlation
import Sederial.Proofs.Transparency

/-!
# `Sederial.Proofs.TrafficBound`: how much a server is sent

A visit to a server is at most three exchanges: the first one, the retry with a new server cookie,
and the last one over TCP. An exchange sends at most one datagram, and at most two frames, because
it falls back to TCP at most once and repeats a frame only after a reused stream failed.
`Spends` keeps this account, and `visit_bounded` adds it up. The two datagrams of a visit differ
behind the transaction ID, because a query is only rewritten for a server cookie it does not hold
(`Cookie.differs_of_retry`).

`forward_traffic` is the bound for a whole run. The servers of a group are distinct, so no server
is visited twice.
-/

set_option autoImplicit false

namespace Sederial.Dns

open Sederial.Lib

/-- The two messages differ somewhere behind the transaction ID. -/
def DiffersBeyondId (wire wire' : List UInt8) : Prop := ∃ i, 2 ≤ i ∧ wire[i]? ≠ wire'[i]?

/-- A query is rewritten only for a server cookie that it does not hold. -/
theorem Cookie.rest_ne_of_retry {p r : Packet} {w client server rest : List UInt8}
    {slot rslot : CookieSlot} (h : Cookie.Rewrites p r w slot rslot client server)
    (hw : Cookie.retry p r = .rewrite w)
    (hdata : slice p.wire slot.dataAt (slot.dataAt + slot.dataLen) = some (client ++ rest)) :
    rest ≠ server := by
  rintro rfl
  have hclient := h.client_length
  have hserver := h.server_length
  -- The same cookie would be the current one.
  have hcurrent : Cookie.retry p r = .current := by
    unfold Cookie.retry
    simp only [h.query, h.response, hdata, h.responseData]
    rw [if_neg, if_pos]
    · rw [List.length_append]
      exact ⟨by omega, trivial⟩
    · rw [List.length_append]
      simp only [ne_eq, not_true_eq_false, or_false, not_or]
      omega
  rw [hcurrent] at hw
  cases hw

/-- The rewritten query differs from the query behind the ID. -/
theorem Cookie.differs_of_retry {p r : Packet} {w : List UInt8} (hp : p.Parsed)
    (hw : Cookie.retry p r = .rewrite w) : DiffersBeyondId p.wire w := by
  obtain ⟨slot, rslot, client, server, h⟩ := Cookie.rewrites_of_retry hw
  obtain ⟨hslot, -, -, hputs⟩ := h.putsCookie hp
  obtain ⟨rest, hdata⟩ := h.queryData
  have hafter := hslot.afterHeader
  have hlengths := hslot.lengths
  have hplace := hslot.data
  have hinside := hslot.inside
  have hlength := hputs.length
  by_contra hsame
  have hagree : ∀ i, 2 ≤ i → p.wire[i]? = w[i]? := by
    intro i hi
    by_contra hne
    exact hsame ⟨i, hi, hne⟩
  -- Where the messages agree, they have the same length, and the same cookie.
  -- Beyond the end of the shorter message the longer one would differ.
  have hsize : p.wire.length = w.length := by
    have hleft := hagree w.length (by omega)
    have hright := hagree p.wire.length (by omega)
    rw [List.getElem?_eq_none (Nat.le_refl w.length), List.getElem?_eq_none_iff] at hleft
    rw [List.getElem?_eq_none (Nat.le_refl p.wire.length), eq_comm,
      List.getElem?_eq_none_iff] at hright
    omega
  have hnew := hputs.slice_data hslot hdata h.client_length
  have hlen : slot.dataLen = 8 + server.length := by omega
  rw [← hlen, ← slice_congr_of_lt (by omega) fun i hi => hagree i (by omega), hdata] at hnew
  exact Cookie.rest_ne_of_retry h hw hdata (List.append_cancel_left (Option.some.inj hnew))

end Sederial.Dns

namespace Sederial

open Sederial.Lib
open Sederial.Dns (Packet Query Response SentQuery DiffersBeyondId plainChallenge plainQuery setId)

/-! ### The account -/

namespace Event

/-- The datagrams sent to a peer among some events, in order. -/
def datagramsTo (peer : SocketAddr) (events : List Event) : List (List UInt8) :=
  events.filterMap fun
    | .udpSend dest wire => if dest = peer then some wire else none
    | _ => none

/-- The request frames sent to a peer among some events, in order. -/
def framesTo (peer : SocketAddr) (events : List Event) : List (List UInt8) :=
  events.filterMap fun
    | .tcpSend dest wire => if dest = peer then some wire else none
    | _ => none

variable (peer : SocketAddr)

/-- The datagrams of two stretches. -/
@[simp] theorem datagramsTo_append (events events' : List Event) :
    datagramsTo peer (events ++ events') = datagramsTo peer events ++ datagramsTo peer events' :=
  List.filterMap_append

/-- The frames of two stretches. -/
@[simp] theorem framesTo_append (events events' : List Event) :
    framesTo peer (events ++ events') = framesTo peer events ++ framesTo peer events' :=
  List.filterMap_append

/-- Only steps send something. -/
theorem datagramsTo_steps (events : List Event) :
    datagramsTo peer (steps events) = datagramsTo peer events := by
  unfold datagramsTo steps
  rw [List.filterMap_filter]
  refine List.filterMap_congr fun e _ => ?_
  cases e <;> rfl

/-- Only steps can be frames. -/
theorem framesTo_steps (events : List Event) :
    framesTo peer (steps events) = framesTo peer events := by
  unfold framesTo steps
  rw [List.filterMap_filter]
  refine List.filterMap_congr fun e _ => ?_
  cases e <;> rfl

end Event

open Event (datagramsTo framesTo)

/-- What is the same message behind the ID differs from the same messages. -/
theorem Dns.DiffersBeyondId.congr {wire w w' : List UInt8} (h : DiffersBeyondId wire w)
    (hsame : SameMessage w w') : DiffersBeyondId wire w' := by
  obtain ⟨i, hi, hne⟩ := h
  obtain ⟨j, rfl⟩ := Nat.exists_eq_add_of_le hi
  have hkeep : w'[2 + j]? = w[2 + j]? := by
    rw [← List.getElem?_drop, hsame.2, List.getElem?_drop]
  exact ⟨2 + j, hi, by rwa [hkeep]⟩

/-- No peer is sent more than the given datagrams, in their order, and the given number of
frames. -/
structure Spends (wires : List (List UInt8)) (frames : Nat) (new : List Event) : Prop where
  datagrams : ∀ peer, (datagramsTo peer new).Sublist wires
  frames : ∀ peer, (framesTo peer new).length ≤ frames

namespace Spends

variable {wires wires' : List (List UInt8)} {n n' : Nat} {new new' : List Event}

/-- Without a step nothing is spent. -/
theorem idle (h : Event.steps new = []) : Spends wires n new := by
  constructor
  · intro peer
    rw [← Event.datagramsTo_steps, h]
    exact List.nil_sublist _
  · intro peer
    rw [← Event.framesTo_steps, h]
    exact Nat.zero_le _

/-- What two stretches spend adds up. -/
theorem append (h : Spends wires n new) (h' : Spends wires' n' new') :
    Spends (wires ++ wires') (n + n') (new ++ new') := by
  constructor
  · intro peer
    rw [Event.datagramsTo_append]
    exact (h.datagrams peer).append (h'.datagrams peer)
  · intro peer
    rw [Event.framesTo_append, List.length_append]
    exact Nat.add_le_add (h.frames peer) (h'.frames peer)

/-- A budget may be larger. -/
theorem mono (h : Spends wires n new) (hwires : wires.Sublist wires') (hn : n ≤ n') :
    Spends wires' n' new :=
  ⟨fun peer => (h.datagrams peer).trans hwires, fun peer => Nat.le_trans (h.frames peer) hn⟩

end Spends

namespace Forwarder

/-! ### One exchange -/

/-- One exchange on a stream sends one frame at most, and no datagram. -/
theorem SendSteps.framesTo_le {peer dest : SocketAddr} {wire : List UInt8} {steps : List Event}
    {r : Except ForwardError Response} (h : SendSteps peer wire r steps) :
    datagramsTo dest steps = [] ∧ (framesTo dest steps).length ≤ 1 := by
  cases h with
  | refused => exact ⟨rfl, Nat.zero_le 1⟩
  | failed =>
    refine ⟨rfl, ?_⟩
    by_cases hpeer : peer = dest <;> simp [framesTo, hpeer]
  | answered =>
    refine ⟨rfl, ?_⟩
    by_cases hpeer : peer = dest <;> simp [framesTo, hpeer]

/-- So does one exchange on a new stream. -/
theorem FreshSteps.framesTo_le {peer dest : SocketAddr} {wire : List UInt8} {steps : List Event}
    {r : Except ForwardError Response} (h : FreshSteps peer wire r steps) :
    datagramsTo dest steps = [] ∧ (framesTo dest steps).length ≤ 1 := by
  cases h with
  | late => exact ⟨rfl, Nat.zero_le 1⟩
  | unconnected => exact ⟨rfl, Nat.zero_le 1⟩
  | connected send => exact send.framesTo_le

/-- An exchange over TCP sends its frame once, or twice when a reused stream fails. -/
theorem ExchangeSteps.spends {address : UpstreamAddress} {wire : List UInt8}
    {cached : Option CachedConnection} {r : Except ForwardError Response} {new : List Event}
    (h : ExchangeSteps address wire cached r (Event.steps new)) : Spends [] 2 new := by
  have hboth : ∀ dest, datagramsTo dest (Event.steps new) = [] ∧
      (framesTo dest (Event.steps new)).length ≤ 2 := by
    intro dest
    -- Each stream that is used carries the frame once, and at most two streams are used.
    generalize Event.steps new = steps at h
    cases h with
    | fresh fresh =>
      obtain ⟨hdatagrams, hframes⟩ := @FreshSteps.framesTo_le _ dest _ _ _ fresh
      exact ⟨hdatagrams, Nat.le_succ_of_le hframes⟩
    | refused reused same => exact ⟨rfl, Nat.zero_le 2⟩
    | @answered connection response reused same =>
      refine ⟨rfl, ?_⟩
      by_cases hpeer : connection.stream.peer = dest <;> simp [framesTo, hpeer]
    | @repeated connection r steps reused same again =>
      obtain ⟨hdatagrams, hframes⟩ := @FreshSteps.framesTo_le _ dest _ _ _ again
      refine ⟨hdatagrams, ?_⟩
      show (framesTo dest ([.tcpReuse connection.stream.peer, .tcpSend connection.stream.peer wire]
        ++ steps)).length ≤ 2
      have hfirst : (framesTo dest [.tcpReuse connection.stream.peer,
          .tcpSend connection.stream.peer wire]).length ≤ 1 := by
        by_cases hpeer : connection.stream.peer = dest <;> simp [framesTo, hpeer]
      rw [Event.framesTo_append, List.length_append]
      exact Nat.add_le_add hfirst hframes
  constructor
  · intro dest
    rw [← Event.datagramsTo_steps, (hboth dest).1]
  · intro dest
    rw [← Event.framesTo_steps]
    exact (hboth dest).2

section

variable {sockets : List UdpScript}

/-- An operation without steps spends nothing. -/
theorem Spends.after {α : Type} {m : Run Forwarder ForwardError α} {A : α → Prop}
    {f : α → Run Forwarder ForwardError Response} {wires : List (List UInt8)} {n : Nat}
    (hm : Traced (Within sockets) m (Idle A))
    (hf : ∀ a, A a → Traced (Within sockets) (f a) fun _ new => Spends wires n new) :
    Traced (Within sockets) (m >>= f) fun _ new => Spends wires n new := by
  refine hm.bind (fun e new h => .idle h.1) fun a new h => ?_
  refine (hf a (h.2 a rfl)).mono fun r new' h' => ?_
  have hboth := (@Spends.idle [] 0 _ h.1).append h'
  rwa [List.nil_append, Nat.zero_add] at hboth

variable (address : UpstreamAddress) (exchange : Exchange)

/-- An exchange over TCP sends two frames at most, since it reconnects once. -/
theorem tcpExchange_spends :
    Traced (Within sockets) (tcpExchange address exchange) fun _ new => Spends [] 2 new := by
  intro s hs
  obtain ⟨-, hudp, new, hlog, hsteps, -⟩ := tcpExchange_run address exchange s
  refine ⟨fun script hscript => ?_, new, hlog, hsteps.spends⟩
  rw [hudp] at hscript
  exact hs script hscript

/-- The loop behind a datagram sends no other datagram, and two frames at most. -/
theorem udpLoop_spends (turns : Nat) (incoming : List UdpEvent) (invalidResponses : Nat) :
    Traced (Within sockets) (udpLoop address exchange turns incoming invalidResponses)
      fun _ new => Spends [] 2 new := by
  induction turns generalizing incoming invalidResponses with
  | zero =>
    unfold udpLoop
    exact Spends.after (checkDeadline_idle _) fun _ _ => .throw (.idle rfl)
  | succ turns ih =>
    unfold udpLoop
    refine Spends.after (checkDeadline_idle _) fun _ _ => ?_
    dsimp only
    split
    · exact ih _ _
    · exact .throw (.idle rfl)
    · split
      · exact ih _ _
      · exact .throw (.idle rfl)
    · refine Spends.after (checkDeadline_idle _) fun _ _ => ?_
      split
      · exact tcpExchange_spends address exchange
      · split
        · refine (record_within _).bind_ok ?_
          rintro _ new rfl
          exact .pure ⟨fun peer => List.nil_sublist _, fun peer => Nat.zero_le 2⟩
        · split
          · exact .throw (.idle rfl)
          · exact ih _ _

/-- An exchange over UDP sends one datagram before it listens. -/
theorem udpExchange_spends :
    Traced (Within sockets) (udpExchange address exchange)
      fun _ new => Spends [exchange.sent.wire] 2 new := by
  refine Spends.after openUdp_idle fun socket _ => ?_
  refine Spends.after (checkCall_idle _) fun _ _ => ?_
  refine Spends.after (checkCall_idle _) fun _ _ => ?_
  refine Spends.after (checkDeadline_idle _) fun _ _ => ?_
  refine Spends.after (checkCall_idle _) fun _ _ => ?_
  refine (record_within _).bind_ok ?_
  rintro _ _ rfl
  -- The datagram goes out before the loop, which sends at most frames.
  have hfirst : Spends [exchange.sent.wire] 0 [.udpSend address.socket exchange.sent.wire] := by
    refine ⟨fun peer => ?_, fun peer => Nat.le_refl 0⟩
    by_cases hpeer : address.socket = peer <;> simp [datagramsTo, hpeer]
  suffices hrest : Traced (Within sockets) _ fun _ new => Spends [] 2 new from
    hrest.mono fun r new h => hfirst.append h
  refine Spends.after (checkCall_idle _) fun _ _ => ?_
  refine Spends.after (A := fun _ => True) (.get fun s _ => ⟨rfl, fun _ _ => trivial⟩)
    fun s _ => ?_
  exact udpLoop_spends address exchange _ _ _

/-- The datagrams of an exchange with the given transport. -/
def datagramsOver (transport : Transport) (wire : List UInt8) : List (List UInt8) :=
  match transport with
  | .tcp => []
  | .udp => [wire]

/-- An exchange over either transport. -/
theorem exchangeOver_spends (transport : Transport) :
    Traced (Within sockets) (exchangeOver transport address exchange)
      fun _ new => Spends (datagramsOver transport exchange.sent.wire) 2 new := by
  cases transport with
  | tcp => exact tcpExchange_spends address exchange
  | udp => exact udpExchange_spends address exchange

/-! ### One visit -/

/-- The rest of a visit spends at most one datagram, and its message is not the one before. -/
def SpendsNew (transport : Transport) (previous : List UInt8) (new : List Event) : Prop :=
  ∃ wires, Spends wires 4 new ∧
    (wires = [] ∨ ∃ wire, wires = datagramsOver transport wire ∧ DiffersBeyondId previous wire)

/-- The turn behind BADCOOKIE sends one new message at most. -/
theorem finishBadcookie_spends (hparsed : exchange.sent.packet.Parsed) (response : Response)
    (transport : Transport) :
    Traced (Within sockets) (finishBadcookie address exchange response transport)
      fun _ new => SpendsNew transport exchange.sent.wire new := by
  have hnothing : SpendsNew transport exchange.sent.wire [] := ⟨[], .idle rfl, .inl rfl⟩
  -- Sending a message once more, over TCP.
  have hagain : ∀ exchange wire, Traced (Within sockets) (do
      let retry ← retryExchange exchange wire
      tcpExchange address retry) fun _ new => Spends [] 2 new :=
    fun exchange wire => Spends.after (retryExchange_idle exchange wire) fun retry _ =>
      tcpExchange_spends address retry
  have htcp : ∀ exchange wire, Traced (Within sockets) (do
      let retry ← retryExchange exchange wire
      tcpExchange address retry) fun _ new => SpendsNew transport exchange.sent.wire new := by
    intro exchange wire
    refine (hagain exchange wire).mono fun r new h => ?_
    exact ⟨[], h.mono (List.Sublist.refl _) (by decide), .inl rfl⟩
  unfold finishBadcookie
  split
  · exact .pure hnothing
  · exact .throw hnothing
  · split
    · exact .pure hnothing
    · exact htcp _ _
  · split
    · exact .pure hnothing
    · exact htcp _ _
  · rename_i wire hrewrite
    -- The third arm of the completion is the only one that sends a new message.
    have hdiffers := Dns.Cookie.differs_of_retry hparsed hrewrite
    -- The idle part sends nothing, but its value is the retry.
    refine (retryExchange_idle exchange wire).bind (fun e new h => ⟨[], .idle h.1, .inl rfl⟩)
      fun retry pre hretry => ?_
    have hsame : SameMessage wire retry.sent.wire := (hretry.2 retry rfl).same
    suffices hrest : Traced (Within sockets) _
        fun _ new => Spends (datagramsOver transport retry.sent.wire) 4 new from
      hrest.mono fun r new h => by
        have hboth := (@Spends.idle [] 0 _ hretry.1).append h
        rw [List.nil_append, Nat.zero_add] at hboth
        exact ⟨_, hboth, .inr ⟨_, rfl, hdiffers.congr hsame⟩⟩
    refine (exchangeOver_spends address retry transport).bind
      (fun e new h => h.mono (List.Sublist.refl _) (by decide)) fun retried new h => ?_
    split
    · refine .pure ?_
      rw [List.append_nil]
      exact h.mono (List.Sublist.refl _) (by decide)
    · suffices hthird : Traced (Within sockets) _ fun _ new => Spends [] 2 new from
        hthird.mono fun r new' h' => by
          have hboth := h.append h'
          rwa [List.append_nil] at hboth
      exact Spends.after (A := fun _ => True) (.ofExcept ⟨rfl, fun _ _ => trivial⟩)
        fun wire' _ => hagain retry wire'

/-- What one server may be sent during a run. -/
structure Bounded (transport : Transport) (peer : SocketAddr) (new : List Event) : Prop where
  datagrams : (datagramsTo peer new).length ≤ 2
  distinct : (datagramsTo peer new).Pairwise DiffersBeyondId
  frames : (framesTo peer new).length ≤ 6
  overTcp : transport = .tcp → datagramsTo peer new = []

/-- The account of a whole visit. -/
theorem Bounded.of_spends {transport : Transport} {wires : List (List UInt8)} {n : Nat}
    {new : List Event} (h : Spends wires n new) (hn : n ≤ 6) (hwires : wires.length ≤ 2)
    (hdistinct : wires.Pairwise DiffersBeyondId) (htcp : transport = .tcp → wires = [])
    (peer : SocketAddr) : Bounded transport peer new := by
  have hsub := h.datagrams peer
  refine ⟨Nat.le_trans hsub.length_le hwires, hdistinct.sublist hsub,
    Nat.le_trans (h.frames peer) hn, fun hover => ?_⟩
  rw [htcp hover] at hsub
  exact List.eq_nil_of_sublist_nil hsub

/-- A visit keeps within the bounds of its transport, for every peer. -/
theorem visit_bounded (hparsed : exchange.sent.packet.Parsed) (transport : Transport) :
    Traced (Within sockets) (visit address exchange transport)
      fun _ new => ∀ peer, Bounded transport peer new := by
  have hone : ∀ {n new}, Spends (datagramsOver transport exchange.sent.wire) n new → n ≤ 6 →
      ∀ peer, Bounded transport peer new := by
    intro n new h hn
    cases transport with
    | tcp => exact Bounded.of_spends h hn (Nat.zero_le 2) .nil fun _ => rfl
    | udp => exact Bounded.of_spends h hn (Nat.le_succ 1) (List.pairwise_singleton _ _) nofun
  -- The first exchange spends two frames, and the completion the other four.
  refine (exchangeOver_spends address exchange transport).bind
    (fun e new h => hone h (by decide)) fun response pre hpre => ?_
  split
  · refine (finishBadcookie_spends address exchange hparsed response transport).mono
      fun r new h => ?_
    obtain ⟨wires, hspends, hwires⟩ := h
    have hboth := hpre.append hspends
    rcases hwires with rfl | ⟨wire, rfl, hdiffers⟩
    · rw [List.append_nil] at hboth
      exact hone hboth (by decide)
    · cases transport with
      | tcp => exact Bounded.of_spends hboth (by decide) (Nat.zero_le 2) .nil fun _ => rfl
      | udp =>
        refine Bounded.of_spends hboth (by decide) (Nat.le_refl 2) ?_ nofun
        exact List.pairwise_pair.mpr hdiffers
  · refine .pure ?_
    rw [List.append_nil]
    exact hone hpre (by decide)

end

/-! ### The walk over a group -/

/-- The peer is sent nothing. -/
def Silent (peer : SocketAddr) (new : List Event) : Prop :=
  datagramsTo peer new = [] ∧ framesTo peer new = []

section

variable {transport : Transport} {peer : SocketAddr} {new new' : List Event}

/-- Only the steps matter. -/
theorem Silent.of_silent_steps (h : Silent peer (Event.steps new)) : Silent peer new := by
  constructor
  · rw [← Event.datagramsTo_steps, h.1]
  · rw [← Event.framesTo_steps, h.2]

/-- The start of an attempt says nothing to anyone. -/
theorem Silent.of_steps {address : UpstreamAddress} (h : Event.steps new = [.attempt address]) :
    Silent peer new := by
  refine .of_silent_steps ?_
  rw [h]
  exact ⟨rfl, rfl⟩

/-- Events without steps say nothing to anyone. -/
theorem Silent.of_idle (h : Event.steps new = []) : Silent peer new := by
  refine .of_silent_steps ?_
  rw [h]
  exact ⟨rfl, rfl⟩

/-- Nothing is said in two stretches. -/
theorem Silent.append (h : Silent peer new) (h' : Silent peer new') :
    Silent peer (new ++ new') := by
  constructor
  · rw [Event.datagramsTo_append, h.1, h'.1]
    rfl
  · rw [Event.framesTo_append, h.2, h'.2]
    rfl

/-- A visit sends nothing to other peers. -/
theorem Silent.of_visiting {K : SocketAddr → Prop} (h : ∀ e ∈ new, e.Visiting K)
    (hpeer : ¬ K peer) : Silent peer new := by
  have hnone : ∀ e ∈ new, ∀ wire, e ≠ .udpSend peer wire ∧ e ≠ .tcpSend peer wire := by
    intro e he wire
    rcases h e he with hchatter | ⟨from', response, rfl, -⟩
    · constructor
      · rintro rfl
        exact hpeer hchatter
      · rintro rfl
        exact hpeer hchatter
    · simp
  constructor
  · refine List.filterMap_eq_nil_iff.mpr fun e he => ?_
    cases e with
    | udpSend dest wire => simpa using fun hdest : dest = peer => (hnone _ he wire).1 (hdest ▸ rfl)
    | _ => rfl
  · refine List.filterMap_eq_nil_iff.mpr fun e he => ?_
    cases e with
    | tcpSend dest wire => simpa using fun hdest : dest = peer => (hnone _ he wire).2 (hdest ▸ rfl)
    | _ => rfl

/-- The bound is about what the peer is sent. -/
theorem Bounded.congr (h : Bounded transport peer new)
    (hdatagrams : datagramsTo peer new' = datagramsTo peer new)
    (hframes : framesTo peer new' = framesTo peer new) : Bounded transport peer new' := by
  obtain ⟨hcount, hdistinct, hlength, htcp⟩ := h
  rw [← hdatagrams] at hcount hdistinct htcp
  rw [← hframes] at hlength
  exact ⟨hcount, hdistinct, hlength, htcp⟩

/-- Silence may come after. -/
theorem Bounded.append_silent (h : Bounded transport peer new) (h' : Silent peer new') :
    Bounded transport peer (new ++ new') := by
  refine h.congr ?_ ?_
  · rw [Event.datagramsTo_append, h'.1, List.append_nil]
  · rw [Event.framesTo_append, h'.2, List.append_nil]

/-- Silence may come before. -/
theorem Bounded.silent_append (h : Silent peer new) (h' : Bounded transport peer new') :
    Bounded transport peer (new ++ new') := by
  refine h'.congr ?_ ?_
  · rw [Event.datagramsTo_append, h.1, List.nil_append]
  · rw [Event.framesTo_append, h.2, List.nil_append]

/-- Silence is within the bounds. -/
theorem Silent.bounded (h : Silent peer new) : Bounded transport peer new := by
  have hnil : Bounded transport peer [] := ⟨Nat.zero_le 2, .nil, Nat.zero_le 6, fun _ => rfl⟩
  have hboth := hnil.silent_append h
  rwa [List.append_nil] at hboth

end

/-- What a walk over the servers sends: every peer a bounded amount, and other peers nothing. -/
structure WalkBounded (transport : Transport) (servers : List UpstreamAddress)
    (new : List Event) : Prop where
  bounded : ∀ peer, Bounded transport peer new
  others : ∀ peer, (∀ a ∈ servers, a.socket ≠ peer) → Silent peer new

namespace WalkBounded

variable {transport : Transport} {servers : List UpstreamAddress} {new : List Event}

/-- A walk without steps is within the bounds. -/
theorem idle (h : Event.steps new = []) : WalkBounded transport servers new :=
  ⟨fun _ => (Silent.of_idle h).bounded, fun _ _ => .of_idle h⟩

/-- A turn and the turns behind it. -/
theorem turn {a : UpstreamAddress} {rest : List UpstreamAddress} {pre body : List Event}
    {K : SocketAddr → Prop} (hK : ∀ peer, K peer ↔ peer = a.socket)
    (hpre : ∀ peer, Silent peer pre) (hevents : ∀ e ∈ body, e.Visiting K)
    (hbody : ∀ peer, Bounded transport peer body) (hnext : WalkBounded transport rest new)
    (hfresh : ∀ b ∈ rest, b.socket ≠ a.socket) :
    WalkBounded transport (a :: rest) (pre ++ (body ++ new)) := by
  constructor
  · intro peer
    refine Bounded.silent_append (hpre peer) ?_
    by_cases hpeer : peer = a.socket
    · -- The server of this turn is not visited again.
      refine (hbody peer).append_silent (hnext.others peer fun b hb => ?_)
      rw [hpeer]
      exact hfresh b hb
    · refine Bounded.silent_append (Silent.of_visiting hevents ?_) (hnext.bounded peer)
      exact fun h => hpeer ((hK peer).mp h)
  · intro peer hothers
    -- A peer outside the group is neither this server nor a later one.
    obtain ⟨hfirst, hrest⟩ := List.forall_mem_cons.mp hothers
    refine (hpre peer).append ((Silent.of_visiting hevents ?_).append (hnext.others peer hrest))
    exact fun h => hfirst ((hK peer).mp h).symm

/-- Silence may come before a walk. -/
theorem prepend {pre : List Event} (h : WalkBounded transport servers new)
    (hpre : ∀ peer, Silent peer pre) : WalkBounded transport servers (pre ++ new) :=
  ⟨fun peer => Bounded.silent_append (hpre peer) (h.bounded peer),
    fun peer hpeer => (hpre peer).append (h.others peer hpeer)⟩

end WalkBounded

/-- The cached stream leads to the server it is cached for. -/
def CacheTrue (s : Forwarder) : Prop := CacheOk (fun address peer => peer = address.socket) s

section

variable {sockets : List UdpScript} {q : Query} (request : Deadline) (transport : Transport)

/-- The forwarder logs what it records. -/
theorem record_owned (e : Event) :
    Traced (fun s => CacheTrue s ∧ Within sockets s) (record e : Run Forwarder ForwardError Unit)
      fun r new => ∃ u, r = .ok u ∧ new = [e] :=
  .modify fun _ hs => ⟨hs, [e], rfl, (), rfl, rfl⟩

/-- A deadline check is no step. -/
theorem checkDeadline_owned (deadline : Deadline) :
    Traced (fun s => CacheTrue s ∧ Within sockets s) (checkDeadline deadline)
      fun _ new => Event.steps new = [] :=
  ((checkDeadline_logs deadline).and (checkDeadline_idle deadline)).mono fun _ _ h => h.2.1

/-- The walk visits every server once at most, so the bounds of the visits do not add up. -/
theorem forwardLoop_bounded (hq : q.packet.Parsed) (hquestions : q.packet.questions = [q.question])
    (servers : List UpstreamAddress) (hdistinct : servers.Nodup) (last : ForwardError)
    (relayed : Option Response) :
    Traced (fun s => CacheTrue s ∧ Within sockets s)
      (forwardLoop q transport request servers last relayed)
      fun _ new => WalkBounded transport servers new := by
  -- The servers that are left are distinct, so no later turn adds to the account of this one.
  induction servers generalizing last relayed with
  | nil =>
    refine (checkDeadline_owned request).bind (fun e new h => .idle h) fun _ new h => ?_
    cases relayed with
    | some response => exact .pure (by rw [List.append_nil]; exact .idle h)
    | none => exact .throw (by rw [List.append_nil]; exact .idle h)
  | cons a rest ih =>
    obtain ⟨hnotmem, hrest⟩ := List.nodup_cons.mp hdistinct
    have hfresh : ∀ b ∈ rest, b.socket ≠ a.socket := by
      intro b hb hsame
      -- An address is its socket.
      have : b = a := by
        cases a
        cases b
        cases hsame
        rfl
      exact hnotmem (this ▸ hb)
    have hstart := (startAttempt_logs (T := fun address peer => peer = address.socket) (q := q)
      request a).and (@startAttempt_steps sockets q hq request a)
    refine hstart.bind (fun e pre h => ?_) fun exchange pre h => ?_
    · refine ⟨fun peer => (Silent.of_steps h.2.1).bounded, fun peer _ => .of_steps h.2.1⟩
    obtain ⟨hready, hsteps, -⟩ := h
    have hparsed : exchange.sent.packet.Parsed := hready.resent.parsed hq
    refine (record_owned _).bind_ok ?_
    rintro _ _ rfl
    have hvisit := (visit_traced (T := fun address peer => peer = address.socket)
      (fun _ => rfl) hq hquestions a exchange hready.resent transport).and
      (@visit_bounded sockets a exchange hparsed transport)
    refine Traced.bind_ok (hvisit.attempt fun r body h => ⟨r, rfl, h⟩) fun result body h => ?_
    refine (record_owned _).bind_ok ?_
    rintro _ _ rfl
    -- Whatever follows, the turn adds its visit in front of it.
    have hturn : ∀ {post new}, Event.steps post = [] → WalkBounded transport rest new →
        WalkBounded transport (a :: rest)
          (pre ++ ([.visit a] ++ (body ++ ([.outcome a result] ++ (post ++ new))))) := by
      intro post new hpost hnext
      rw [← List.append_assoc]
      refine WalkBounded.turn (fun peer => Iff.rfl) (fun peer => ?_) h.1.events h.2 ?_ hfresh
      · exact (Silent.of_steps hsteps).append ⟨rfl, rfl⟩
      · exact (hnext.prepend fun peer => .of_idle hpost).prepend fun peer => ⟨rfl, rfl⟩
    have hlast : WalkBounded transport rest [] := .idle rfl
    split
    · exact .throw (@hturn [] [] rfl hlast)
    · exact (ih hrest _ _).mono fun r new hnext => @hturn [] new rfl hnext
    · refine (checkDeadline_owned request).bind (fun e post hpost => ?_) fun _ post hpost => ?_
      · have hdone := hturn hpost hlast
        rwa [List.append_nil] at hdone
      · dsimp only
        split
        · exact .pure (hturn hpost hlast)
        · exact (ih hrest _ _).mono fun r new hnext => hturn hpost hnext

end

/-- Bounded, non-repeating upstream traffic. During one run of `forward` no server is sent more
than two datagrams and six request frames, its datagrams differ behind the transaction ID, and a
client that came over TCP causes no datagram at all. The cached stream may be any that leads to
the server it is cached for, and the run keeps it that way. -/
theorem forward_traffic {p : Packet} {q : Query} (hp : Packet.parse p.wire = .ok p)
    (hq : p.validateQuery = .forward q) (upstreams : UpstreamGroup) (transport : Transport)
    (request : Deadline) (s : Forwarder) (hcache : CacheTrue s) :
    CacheTrue ((forward q upstreams transport request).exec s).2 ∧
    ∃ new, ((forward q upstreams transport request).exec s).2.env.log = s.env.log ++ new ∧
      ∀ peer, (datagramsTo peer new).length ≤ 2 ∧ (datagramsTo peer new).Pairwise DiffersBeyondId ∧
        (framesTo peer new).length ≤ 6 ∧ (transport = .tcp → datagramsTo peer new = []) := by
  obtain ⟨rfl, hforward⟩ := Packet.validateQuery_eq_forward_iff.mp hq
  obtain ⟨hkept, new, hlog, hbounded⟩ := @forwardLoop_bounded s.env.udp q request transport hp
    hforward.questions upstreams.servers upstreams.distinct .timeout none s
    ⟨hcache, fun _ h => h⟩
  refine ⟨hkept.1, new, hlog, fun peer => ?_⟩
  obtain ⟨hdatagrams, hdistinct, hframes, htcp⟩ := hbounded.bounded peer
  exact ⟨hdatagrams, hdistinct, hframes, htcp⟩

/-- A query that is challenged and answered takes two datagrams, as many as there can be. -/
theorem forward_traffic_plainQuery :
    ∃ new, ((forward ⟨plainQuery, ⟨⟨[]⟩, .a, .in⟩⟩ oneServer .udp ⟨5000000000⟩).exec
        (challenged (setId plainChallenge.wire ⟨1⟩) plainAnswer.wire)).2.env.log = new ∧
      (datagramsTo firstServer.socket new).length = 2 ∧
      (datagramsTo firstServer.socket new).Pairwise DiffersBeyondId := by
  obtain ⟨-, new, hlog, hbounded⟩ := @forward_traffic plainQuery ⟨plainQuery, ⟨⟨[]⟩, .a, .in⟩⟩
    (by decide +kernel) (by decide +kernel) oneServer .udp ⟨5000000000⟩
    (challenged (setId plainChallenge.wire ⟨1⟩) plainAnswer.wire) fun _ h => nomatch h
  rw [show (challenged (setId plainChallenge.wire ⟨1⟩) plainAnswer.wire).env.log = [] from rfl,
    List.nil_append] at hlog
  have htwo : (datagramsTo firstServer.socket
      ((forward ⟨plainQuery, ⟨⟨[]⟩, .a, .in⟩⟩ oneServer .udp ⟨5000000000⟩).exec
        (challenged (setId plainChallenge.wire ⟨1⟩) plainAnswer.wire)).2.env.log).length = 2 := by
    decide +kernel
  rw [hlog] at htwo
  exact ⟨new, hlog, htwo, (hbounded firstServer.socket).2.1⟩

end Forwarder

end Sederial
