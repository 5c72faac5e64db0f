import Sederial.Upstream

/-!
# `Sederial.UdpBuffer`: the UDP receive loop with its buffer

`udp_exchange` allocates one buffer and receives every datagram into it, so behind a short
datagram the bytes of a longer one before it are still there. `Forwarder.udpLoop` leaves the
buffer out. Here is the loop of `src/upstream.rs` once more with the buffer as an argument.
-/

set_option autoImplicit false

namespace Sederial

open Sederial.Lib
open Sederial.Dns (Packet Response maxMessageLength)

/-- `socket.recv(&mut bytes)`: a datagram fills the front of the buffer. What does not fit is
cut, and the bytes behind it stay. The length is that of the received part. -/
def recv (buffer bytes : List UInt8) : Nat × List UInt8 :=
  let length := min bytes.length buffer.length
  (length, overwrite buffer 0 (bytes.take length))

namespace Forwarder

/-- The receive loop of `udp_exchange`, with the buffer. -/
def udpLoopBuffered (address : UpstreamAddress) (exchange : Exchange) :
    Nat → List UdpEvent → List UInt8 → Nat → Run Forwarder ForwardError Response
  | turns, incoming, buffer, invalidResponses => do
    checkDeadline exchange.deadline
    match turns with
    | 0 => throw .timeout
    | turns + 1 =>
      match incoming with
      | [] => udpLoopBuffered address exchange turns [] buffer invalidResponses
      | .timeoutRejected kind :: _ => throw (ForwardError.ofIo (.os kind))
      | .failed kind :: rest =>
        if transient kind then udpLoopBuffered address exchange turns rest buffer invalidResponses
        else throw (ForwardError.ofIo (.os kind))
      | .datagram bytes :: rest =>
        let received := recv buffer bytes
        let buffer := received.2
        checkDeadline exchange.deadline
        -- `&bytes[..length]`.
        let bytes := buffer.take received.1
        if exchange.sent.matchesTruncated bytes then tcpExchange address exchange
        else
          match (Packet.parse bytes).toOption.bind exchange.sent.validateResponse with
          | some response =>
            record (.accept address.socket response)
            return response
          | none =>
            if invalidResponses + 1 = maxInvalidResponses then throw .invalidResponse
            else udpLoopBuffered address exchange turns rest buffer (invalidResponses + 1)

/-- `udp_exchange` with its buffer. -/
def udpExchangeBuffered (address : UpstreamAddress) (exchange : Exchange) :
    Run Forwarder ForwardError Response := do
  let socket ← onEnv Env.openUdp
  checkCall socket.bind
  checkCall socket.connect
  checkDeadline exchange.deadline
  checkCall socket.setWriteTimeout
  record (.udpSend address.socket exchange.sent.wire)
  checkCall socket.send
  let turns := (← get).env.clock.length
  udpLoopBuffered address exchange turns socket.incoming (List.replicate maxMessageLength 0) 0

end Forwarder

end Sederial
