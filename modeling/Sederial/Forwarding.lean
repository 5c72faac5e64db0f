import Sederial.Upstream

/-!
# `Sederial.Forwarding`: from client bytes to reply bytes

The model of `src/forwarding.rs`. `respondInner` returns `None` at many points of the
source; here it ends in the error `NoReply.silent`, so that an early return reads like one.
-/

set_option autoImplicit false

namespace Sederial

open Sederial.Lib
open Sederial.Dns (Header Packet Query)

/-- The handler decided not to answer. -/
inductive NoReply where
  | silent
  deriving DecidableEq, Repr

namespace RequestHandler

/-- `deadline.remaining(&self.stop).ok()?`. -/
def checkDeadline (deadline : Deadline) : Run Forwarder NoReply Unit :=
  Run.mapError (fun _ => .silent) (Forwarder.checkDeadline deadline)

/-- `Option` as an early return. -/
def orSilent (reply : Option (List UInt8)) : Run Forwarder NoReply (List UInt8) :=
  match reply with
  | some wire => pure wire
  | none => throw .silent

/-- Forwards a query to the selected group and turns the outcome into a reply. -/
def relay (query : Query) (upstreams : UpstreamGroup) (transport : Transport)
    (deadline : Deadline) : Run Forwarder NoReply (List UInt8) := do
  match ← Run.attempt (Forwarder.forward query upstreams transport deadline) with
  | .error .cancelled => throw .silent
  | .error _ =>
    checkDeadline deadline
    orSilent (query.errorReply .serverFailure)
  | .ok response =>
    checkDeadline deadline
    if transport = .udp ∧ response.wire.length > query.udpLimit then
      return query.truncatedReply response
    else return response.withId query.id

/-- The handling of a query that passed validation. -/
def answer (routing : RoutingTable) (query : Query) (transport : Transport)
    (deadline : Deadline) : Run Forwarder NoReply (List UInt8) :=
  match routing.select query.name with
  | .localRecord record => orSilent (query.localAReply record.address record.ttl)
  | .unmatched => orSilent (query.errorReply .nameError)
  | .default group => relay query group transport deadline
  | .routed route => relay query route.upstreams transport deadline

/-- The reply to a message, with RA as the handler would set it. -/
def respondInner (routing : RoutingTable) (wire : List UInt8) (transport : Transport)
    (deadline : Deadline) : Run Forwarder NoReply (List UInt8) := do
  checkDeadline deadline
  match Header.parse wire with
  | .error _ => throw .silent
  | .ok header =>
    -- Never respond to responses, avoiding reflection loops.
    if header.messageType ≠ .query then throw .silent
    else
      match Packet.parseForReply wire with
      | .error failure => orSilent failure.formatReply
      | .ok packet =>
        match packet.validateQuery with
        | .reject code => orSilent (packet.localErrorReply code)
        | .ignore => throw .silent
        | .forward query => answer routing query transport deadline

/-- Produces a client reply, including DNS errors for rejected queries. -/
def respond (routing : RoutingTable) (wire : List UInt8) (transport : Transport)
    (deadline : Deadline) : Run Forwarder NoReply (List UInt8) := do
  let reply ← respondInner routing wire transport deadline
  checkDeadline deadline
  return if routing.hasUpstreams then reply else Dns.withoutRecursion reply

end RequestHandler

end Sederial
