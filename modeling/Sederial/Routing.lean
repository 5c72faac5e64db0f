import Sederial.Dns.NameOrder
import Sederial.Net
import Mathlib.Data.List.Sort

/-!
# `Sederial.Routing`: upstream groups, local records and suffix selection

The model of `src/routing.rs`. The types of the source keep their invariants behind
private constructors. Here the invariants are fields: an `UpstreamAddress` is a canonical
unicast endpoint, an `UpstreamGroup` is a short list of distinct endpoints, and a
`RoutingTable` has pairwise different suffixes in most-specific-first order.

The source sorts with the stable `sort_by_key`; `List.insertionSort` is the stable sort
used here.
-/

set_option autoImplicit false

namespace Sederial

open Sederial.Dns (DomainName)

/-- How many servers a group has at most. -/
def maxUpstreams : Nat := 8

/-- Violations of endpoint, upstream-group or routing-table invariants. -/
inductive RouteError where
  | invalidAddress
  | invalidGroupSize
  | duplicateServer
  | duplicateRoute (name : DomainName)
  deriving DecidableEq, Repr

/-- The text of the error. -/
def RouteError.message : RouteError → String
  | .invalidAddress => "expected a unicast IP address with a nonzero port"
  | .invalidGroupSize => s!"each upstream group needs 1..={maxUpstreams} servers"
  | .duplicateServer => "duplicate upstream server"
  | .duplicateRoute name =>
    "duplicate route for " ++ String.ofList (name.fmt.map fun b => Char.ofNat b.toNat)

/-- A concrete unicast endpoint with a nonzero port and canonical IPv4 spelling. -/
structure UpstreamAddress where
  socket : SocketAddr
  canonical : socket.ip.toCanonical = socket.ip
  port_ne_zero : socket.port ≠ 0
  specified : socket.ip.isUnspecified = false
  unicast : socket.ip.isMulticast = false
  not_broadcast : socket.ip ≠ .v4 Ipv4Addr.broadcast
  deriving DecidableEq

namespace UpstreamAddress

/-- The endpoint `UpstreamAddress::new` normalises an address to. -/
def normalize (address : SocketAddr) : SocketAddr :=
  let ip := address.ip.toCanonical
  if ip.isIpv4 then SocketAddr.new ip address.port else address

/-- The normalized address is canonical. -/
theorem ip_normalize (address : SocketAddr) :
    (normalize address).ip = address.ip.toCanonical := by
  cases h : address.ip.toCanonical.isIpv4 with
  | true => simp [normalize, h]
  | false =>
      have hip := IpAddr.toCanonical_of_not_isIpv4 h
      rw [hip] at h
      simp [normalize, hip, h]

/-- The normalized address keeps its port. -/
theorem port_normalize (address : SocketAddr) : (normalize address).port = address.port := by
  unfold normalize
  simp only
  split <;> simp

/-- Normalises IPv4-mapped IPv6 while retaining native IPv6 scope information. -/
def new (address : SocketAddr) : Except RouteError UpstreamAddress :=
  let ip := address.ip.toCanonical
  if h : (normalize address).port = 0 ∨ ip.isUnspecified ∨ ip.isMulticast ∨
      ip = .v4 Ipv4Addr.broadcast then .error .invalidAddress
  else .ok {
    socket := normalize address
    canonical := by rw [ip_normalize, IpAddr.toCanonical_toCanonical]
    port_ne_zero := fun hp => h (Or.inl hp)
    specified := by rw [ip_normalize]; exact eq_false_of_ne_true fun hu => h (by simp [ip, hu])
    unicast := by rw [ip_normalize]; exact eq_false_of_ne_true fun hm => h (by simp [ip, hm])
    not_broadcast := by rw [ip_normalize]; exact fun hb => h (by simp [ip, hb]) }

end UpstreamAddress

/-- A nonempty, bounded list of distinct endpoints in configured failover order. -/
structure UpstreamGroup where
  servers : List UpstreamAddress
  nonempty : servers ≠ []
  bounded : servers.length ≤ maxUpstreams
  distinct : servers.Nodup
  deriving DecidableEq

/-- The first element that clashes with the elements before it, the outcome of the loops
`for (i, x) in xs.iter().enumerate()` that test `x` against `xs[..i]`. -/
def firstClash {α : Type} (clashes : List α → α → Bool) (xs : List α) : Option α :=
  (xs.zipIdx.find? fun (x, i) => clashes (xs.take i) x).map Prod.fst

/-- No element clashes with the ones before it. -/
theorem firstClash_eq_none {α : Type} (clashes : List α → α → Bool) (xs : List α) :
    firstClash clashes xs = none ↔
      ∀ i (hi : i < xs.length), clashes (xs.take i) (xs.get ⟨i, hi⟩) = false := by
  unfold firstClash
  rw [Option.map_eq_none_iff, List.find?_eq_none]
  constructor
  · intro h i hi
    have hmem : (xs.get ⟨i, hi⟩, i) ∈ xs.zipIdx := by
      rw [List.mem_zipIdx_iff_getElem?]
      exact List.getElem?_eq_getElem hi
    simpa using h _ hmem
  · rintro h ⟨x, i⟩ hmem
    rw [List.mem_zipIdx_iff_getElem?] at hmem
    obtain ⟨hi, hx⟩ := List.getElem?_eq_some_iff.mp hmem
    have := h i hi
    simp only [List.get_eq_getElem] at this
    simp only at hx
    simp [← hx, this]

/-- No element equals an earlier one exactly when the elements are pairwise different. -/
theorem firstClash_any_eq_none {α : Type} (same : α → α → Bool) (xs : List α) :
    firstClash (fun earlier x => earlier.any fun previous => same previous x) xs = none ↔
      xs.Pairwise fun a b => same a b = false := by
  rw [firstClash_eq_none, List.pairwise_iff_getElem]
  constructor
  · intro h i j hi hj hij
    have hnone := h j hj
    rw [List.any_eq_false] at hnone
    have hprev : xs[i] ∈ xs.take j := List.mem_take_iff_getElem.mpr ⟨i, by omega, rfl⟩
    simpa using hnone _ hprev
  · intro h j hj
    rw [List.any_eq_false]
    intro a ha
    obtain ⟨i, hi, rfl⟩ := List.mem_take_iff_getElem.mp ha
    simpa using h i j (by omega) hj (by omega)

/-- Validates group size and uniqueness without reordering endpoints. -/
def UpstreamGroup.new (addresses : List UpstreamAddress) : Except RouteError UpstreamGroup :=
  if hsize : addresses = [] ∨ addresses.length > maxUpstreams then .error .invalidGroupSize
  else
    match hdup : firstClash (fun earlier a => earlier.any fun b => decide (b = a))
        addresses with
    | some _ => .error .duplicateServer
    | none => .ok {
        servers := addresses
        nonempty := fun h => hsize (Or.inl h)
        bounded := by
          have := fun h => hsize (Or.inr h)
          omega
        distinct := ((firstClash_any_eq_none _ _).mp hdup).imp fun h => by simpa using h }

/-- A suffix policy covering both the suffix itself and all its subdomains. -/
structure Route where
  suffix : DomainName
  upstreams : UpstreamGroup
  deriving DecidableEq

/-- A local IN A answer for a suffix and every name below it. -/
structure LocalRecord where
  suffix : DomainName
  address : Ipv4Addr
  ttl : UInt32
  deriving DecidableEq

/-- Stable sort by descending key. -/
def sortByKeyDesc {α : Type} (key : α → Nat) (xs : List α) : List α :=
  xs.insertionSort fun a b => key b ≤ key a

/-- To sort is to permute. -/
theorem sortByKeyDesc_perm {α : Type} (key : α → Nat) (xs : List α) :
    (sortByKeyDesc key xs).Perm xs := List.perm_insertionSort _ _

/-- The sorted list is in descending key order. -/
theorem sortByKeyDesc_pairwise {α : Type} (key : α → Nat) (xs : List α) :
    (sortByKeyDesc key xs).Pairwise fun a b => key b ≤ key a := by
  have : Std.Total (fun a b : α => key b ≤ key a) := ⟨fun a b => Nat.le_total _ _⟩
  have : IsTrans α (fun a b : α => key b ≤ key a) := ⟨fun _ _ _ hab hbc => Nat.le_trans hbc hab⟩
  exact List.pairwise_insertionSort _ _

/-- Two different rules never share a suffix. -/
def DistinctSuffixes (routes : List Route) (localRecords : List LocalRecord) : Prop :=
  (routes.map Route.suffix ++ localRecords.map LocalRecord.suffix).Pairwise
    fun a b => (a == b) = false

/-- Distinctness does not depend on the order of the rules. -/
theorem DistinctSuffixes.perm {routes routes' : List Route}
    {localRecords localRecords' : List LocalRecord}
    (hr : routes.Perm routes') (hl : localRecords.Perm localRecords')
    (h : DistinctSuffixes routes localRecords) : DistinctSuffixes routes' localRecords' := by
  have hperm := (hr.map Route.suffix).append (hl.map LocalRecord.suffix)
  exact (hperm.pairwise_iff fun hab => by rwa [DomainName.beq_comm]).mp h

/-- A route clashes with an earlier route of the same suffix. -/
def routeClashes (earlier : List Route) (route : Route) : Bool :=
  earlier.any fun previous => previous.suffix == route.suffix

/-- A local record clashes with an earlier record or with any route of the same suffix. -/
def localClashes (routes : List Route) (earlier : List LocalRecord) (record : LocalRecord) :
    Bool :=
  (earlier.any fun previous => previous.suffix == record.suffix) ||
    routes.any fun route => route.suffix == record.suffix

/-- The two duplicate checks pass exactly when all suffixes differ. -/
theorem firstClash_eq_none_iff_distinct (routes : List Route)
    (localRecords : List LocalRecord) :
    (firstClash routeClashes routes = none ∧
        firstClash (localClashes routes) localRecords = none) ↔
      DistinctSuffixes routes localRecords := by
  have hroutes : firstClash routeClashes routes = none ↔
      routes.Pairwise fun a b => (a.suffix == b.suffix) = false :=
    firstClash_any_eq_none (fun a b : Route => a.suffix == b.suffix) routes
  have hearlier := firstClash_any_eq_none
    (fun a b : LocalRecord => a.suffix == b.suffix) localRecords
  unfold DistinctSuffixes
  rw [List.pairwise_append, List.pairwise_map, List.pairwise_map, hroutes, ← hearlier]
  refine and_congr_right fun _ => ?_
  rw [firstClash_eq_none, firstClash_eq_none]
  simp only [localClashes, Bool.or_eq_false_iff, forall_and]
  refine and_congr_right fun _ => ?_
  simp only [List.any_eq_false, List.mem_map, forall_exists_index, and_imp,
    forall_apply_eq_imp_iff₂, Bool.not_eq_true]
  constructor
  · intro h route hroute record hrecord
    obtain ⟨i, hi, rfl⟩ := List.getElem_of_mem hrecord
    exact h i hi route hroute
  · intro h i hi route hroute
    exact h route hroute _ (List.getElem_mem hi)

/-- Immutable policy with unique suffixes ordered from most to least specific. -/
structure RoutingTable where
  default : Option UpstreamGroup
  routes : List Route
  localRecords : List LocalRecord
  distinct : DistinctSuffixes routes localRecords
  routesSorted : routes.Pairwise fun a b => b.suffix.labelCount ≤ a.suffix.labelCount
  localSorted : localRecords.Pairwise fun a b => b.suffix.labelCount ≤ a.suffix.labelCount

/-- A route decision, retaining whether an explicit suffix matched. -/
inductive Selection where
  | default (group : UpstreamGroup)
  | routed (route : Route)
  | localRecord (record : LocalRecord)
  | unmatched
  deriving DecidableEq

namespace RoutingTable

/-- Rejects duplicate suffixes and prepares longest-suffix lookup order. -/
def new (default : Option UpstreamGroup) (routes : List Route)
    (localRecords : List LocalRecord) : Except RouteError RoutingTable :=
  match hroutes : firstClash routeClashes routes with
  | some route => .error (.duplicateRoute route.suffix)
  | none =>
    match hlocal : firstClash (localClashes routes) localRecords with
    | some record => .error (.duplicateRoute record.suffix)
    | none => .ok {
        default := default
        routes := sortByKeyDesc (fun route => route.suffix.labelCount) routes
        localRecords := sortByKeyDesc (fun record => record.suffix.labelCount) localRecords
        distinct := ((firstClash_eq_none_iff_distinct _ _).mp ⟨hroutes, hlocal⟩).perm
          (sortByKeyDesc_perm _ _).symm (sortByKeyDesc_perm _ _).symm
        routesSorted := sortByKeyDesc_pairwise _ _
        localSorted := sortByKeyDesc_pairwise _ _ }

/-- Selects the longest suffix, or the default only when no suffix matches. -/
def select (table : RoutingTable) (name : DomainName) : Selection :=
  let route := table.routes.find? fun route => name.isSubdomainOf route.suffix
  let record := table.localRecords.find? fun record => name.isSubdomainOf record.suffix
  match route, record with
  | some route, some record =>
    if route.suffix.labelCount > record.suffix.labelCount then .routed route
    else .localRecord record
  | none, some record => .localRecord record
  | some route, none => .routed route
  | none, none =>
    match table.default with
    | none => .unmatched
    | some group => .default group

/-- There is an upstream group, so recursion is available. -/
def hasUpstreams (table : RoutingTable) : Bool :=
  table.default.isSome || !table.routes.isEmpty

end RoutingTable

end Sederial
