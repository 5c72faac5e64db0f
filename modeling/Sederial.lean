import Sederial.Proofs.Failover
import Sederial.Proofs.UdpLimit
import Sederial.Proofs.FormatReply
import Sederial.Proofs.Framing
import Sederial.Proofs.TcpSession
import Sederial.Proofs.CachedStream
import Sederial.Proofs.Transparency
import Sederial.Proofs.PoolShutdown
import Sederial.Proofs.ConfigSafe
import Sederial.Proofs.LocalAnswer
import Sederial.Proofs.NonQuery
import Sederial.Proofs.NameCodec
import Sederial.Proofs.PrefixFree
import Sederial.Proofs.CookieBounds
import Sederial.Proofs.CookieVerdict
import Sederial.Proofs.TruncatedMatch
import Sederial.Proofs.UdpDecision
import Sederial.Proofs.TrafficBound
import Sederial.Proofs.Aborts
import Sederial.Proofs.NameLocal
import Sederial.Proofs.NameDescent
import Sederial.Proofs.NameDisplay
import Sederial.Proofs.ServiceStop
import Sederial.Proofs.ServiceReplies
import Sederial.Proofs.LogLines
import Sederial.Proofs.Lifecycle
import Sederial.Proofs.ConfigOrder
