import Sederial.Config
import Sederial.Lib.Checks

/-!
# `Sederial.Proofs.ConfigExact`: a configuration is accepted exactly when it is well formed

`Means` says what a table means: which value is behind each endpoint, each suffix and each TTL, and
that no table has a key nobody asked for. Every check of `Config::parse` is an equivalence, so that
an accepted configuration is what its table means, and the checks refuse nothing else
(`load_eq_ok_iff`).

The structures of the routing table help. An `UpstreamAddress` and an `UpstreamGroup` carry their
invariants, so a value of the right endpoint or of the right servers already passes the checks of
the constructor (`upstreamAddress_new_eq_ok_iff`, `upstreamGroup_new_eq_ok_iff`).
-/

set_option autoImplicit false

namespace Sederial

open Sederial.Lib
open Sederial.Dns (DomainName)
open Toml (Table Value)

/-- Every key of a table is among these. -/
def Toml.Table.Known (allowed : List String) (table : Table) : Prop :=
  ∀ entry ∈ table, entry.1.text ∈ allowed

/-- A concrete unicast endpoint in canonical form. -/
structure SocketAddr.Concrete (address : SocketAddr) : Prop where
  canonical : address.ip.toCanonical = address.ip
  notMapped : ∀ ip, address.ip = .v6 ip → ip.toIpv4Mapped = none
  port : address.port ≠ 0
  specified : address.ip.isUnspecified = false
  unicast : address.ip.isMulticast = false
  notBroadcast : address.ip ≠ .v4 Ipv4Addr.broadcast

/-- The socket of an upstream server is a concrete endpoint. -/
theorem UpstreamAddress.concrete (address : UpstreamAddress) : address.socket.Concrete where
  canonical := address.canonical
  notMapped := by
    intro ip hip
    have hcanonical := address.canonical
    rw [hip] at hcanonical
    cases hmapped : ip.toIpv4Mapped with
    | none => rfl
    | some mapped =>
      rw [IpAddr.toCanonical, hmapped] at hcanonical
      cases hcanonical
  port := address.port_ne_zero
  specified := address.specified
  unicast := address.unicast
  notBroadcast := address.not_broadcast

namespace Config

/-! ### What a well-formed table means -/

/-- The TTL of a table, which is zero by default. -/
def Expires (table : Table) (ttl : UInt32) : Prop :=
  (table.get "ttl" = none ∧ ttl = 0) ∨
    ∃ digits radix, table.get "ttl" = some (.integer digits radix) ∧
      fromStrRadix digits radix.toNat = some (ttl.toNat : Int)

/-- The values of a section, which may be absent. -/
def Lists (table : Table) (key : String) (values : List Value) : Prop :=
  table.get key = some (.array values) ∨ table.get key = none ∧ values = []

section

variable (f : Formats)

/-- A value spells an endpoint that is not the listener. -/
def Spells (listen : SocketAddr) (value : Value) (server : UpstreamAddress) : Prop :=
  ∃ raw address, value = .string raw ∧ parseAddress f raw = some address ∧
    ¬ (address.port = listen.port ∧ address.ip.toCanonical = listen.ip.toCanonical) ∧
    server.socket = UpstreamAddress.normalize address

/-- The servers of a table, in their order. -/
def Groups (listen : SocketAddr) (table : Table) (group : UpstreamGroup) : Prop :=
  ∃ values, table.get "servers" = some (.array values) ∧
    List.Forall₂ (Spells f listen) values group.servers

/-- The name behind a `domain` key. -/
def Names (table : Table) (suffix : DomainName) : Prop :=
  ∃ text, table.get "domain" = some (.string text) ∧ DomainName.fromStr (utf8 text) = .ok suffix

/-- The route that an entry of the file describes. -/
def RoutesTo (listen : SocketAddr) (value : Value) (route : Route) : Prop :=
  ∃ table : Table, value = .table table ∧ table.Known ["domain", "servers"] ∧
    Names table route.suffix ∧ Groups f listen table route.upstreams

/-- A value spells a local record. -/
def Describes (value : Value) (record : LocalRecord) : Prop :=
  ∃ (table : Table) (text : String), value = .table table ∧
    table.Known ["domain", "address", "ttl"] ∧ Names table record.suffix ∧
    table.get "address" = some (.string text) ∧ f.ipv4Addr text = some record.address ∧
    Expires table record.ttl

/-- The listener is a concrete endpoint. -/
def Listens (table : Table) (listen : SocketAddr) : Prop :=
  listen.Concrete ∧ ∃ raw address, table.get "listen" = some (.string raw) ∧
    parseAddress f raw = some address ∧ listen = UpstreamAddress.normalize address

/-- The default group, if there is one. -/
def Defaults (listen : SocketAddr) (table : Table) (default : Option UpstreamGroup) : Prop :=
  (table.get "default" = none ∧ default = none) ∨
    ∃ (entries : Table) (group : UpstreamGroup), table.get "default" = some (.table entries) ∧
      entries.Known ["servers"] ∧ default = some group ∧ Groups f listen entries group

/-- The rules, in the order of the file. -/
structure Rules (listen : SocketAddr) (table : Table) (routes : List Route)
    (localRecords : List LocalRecord) : Prop where
  routed : ∃ values, Lists table "route" values ∧ List.Forall₂ (RoutesTo f listen) values routes
  answered : ∃ values, Lists table "local" values ∧
    List.Forall₂ (Describes f) values localRecords
  bounded : routes.length + localRecords.length ≤ maxRoutes
  distinct : DistinctSuffixes routes localRecords

/-- A well-formed table and its configuration. -/
structure Means (table : Table) (config : Config) : Prop where
  known : table.Known ["listen", "default", "route", "local"]
  listen : Listens f table config.listen
  default : Defaults f config.listen table config.routing.default
  rules : ∃ routes localRecords, Rules f config.listen table routes localRecords ∧
    config.routing.routes = sortByKeyDesc (fun route => route.suffix.labelCount) routes ∧
    config.routing.localRecords =
      sortByKeyDesc (fun record => record.suffix.labelCount) localRecords

end

/-! ### The checks, one by one -/

section

variable {f : Formats} {table : Table}

/-- A string is read exactly where one stands under the key. -/
theorem requiredString_eq_ok_iff {key text : String} :
    requiredString table key = .ok text ↔ table.get key = some (.string text) := by
  unfold requiredString
  constructor
  · intro h
    split at h
    · rename_i text' hget
      cases h
      obtain ⟨value, hvalue, hstr⟩ := Option.bind_eq_some_iff.mp hget
      cases value with
      | string text' =>
        cases hstr
        exact hvalue
      | _ => cases hstr
    · cases h
  · intro h
    rw [h]
    rfl

/-- A table is accepted exactly when it has no other key. -/
theorem rejectUnknownKeys_eq_ok_iff {allowed : List String} {context : String} :
    rejectUnknownKeys table allowed context = .ok () ↔ table.Known allowed := by
  unfold rejectUnknownKeys
  constructor
  · intro h
    split at h
    · cases h
    · rename_i hnone
      intro entry hentry
      have hknown := List.find?_eq_none.mp hnone entry hentry
      simpa using hknown
  · intro h
    have hnone : (table.find? fun entry => !allowed.contains entry.1.text) = none := by
      refine List.find?_eq_none.mpr fun entry hentry => ?_
      simpa using h entry hentry
    rw [hnone]

/-- An endpoint that carries its invariants passes the checks. -/
theorem upstreamAddress_new_eq_ok_iff {address : SocketAddr} {server : UpstreamAddress} :
    UpstreamAddress.new address = .ok server ↔
      server.socket = UpstreamAddress.normalize address := by
  unfold UpstreamAddress.new
  dsimp only
  constructor
  · intro h
    split at h
    · cases h
    · cases h
      rfl
  · intro h
    have hip : address.ip.toCanonical = server.socket.ip := by
      rw [h, UpstreamAddress.ip_normalize]
    rw [dif_neg]
    · congr
      exact h.symm
    · -- Each check that could fail is an invariant of `server`.
      rw [hip, ← h]
      rintro (hport | hspecified | hunicast | hbroadcast)
      · exact server.port_ne_zero hport
      · rw [server.specified] at hspecified
        cases hspecified
      · rw [server.unicast] at hunicast
        cases hunicast
      · exact server.not_broadcast hbroadcast

/-- A group that carries its invariants passes the checks. -/
theorem upstreamGroup_new_eq_ok_iff {addresses : List UpstreamAddress} {group : UpstreamGroup} :
    UpstreamGroup.new addresses = .ok group ↔ group.servers = addresses := by
  constructor
  · intro h
    unfold UpstreamGroup.new at h
    split at h
    · cases h
    · split at h
      · cases h
      · cases h
        rfl
  · intro h
    subst h
    have hdistinct : firstClash (fun earlier a => earlier.any fun b => decide (b = a))
        group.servers = none :=
      (firstClash_any_eq_none _ _).mpr (group.distinct.imp fun hne => decide_eq_false hne)
    unfold UpstreamGroup.new
    rw [dif_neg]
    · split
      · rename_i hclash
        rw [hdistinct] at hclash
        cases hclash
      · rfl
    · rintro (hnil | hmany)
      · exact group.nonempty hnil
      · exact Nat.not_lt.mpr group.bounded hmany

/-- A value that is an array. -/
theorem asArray_eq_some {value : Value} {values : List Value} (h : value.asArray = some values) :
    value = .array values := by
  cases value with
  | array values' =>
    cases h
    rfl
  | _ => cases h

/-- A value that is a table. -/
theorem asTable_eq_some {value : Value} {entries : Table} (h : value.asTable = some entries) :
    value = .table entries := by
  cases value with
  | table entries' =>
    cases h
    rfl
  | _ => cases h

/-- A server is read exactly when its text spells an endpoint that is not the listener. -/
theorem parseServer_eq_ok_iff {listen : SocketAddr} {value : Value} {server : UpstreamAddress} :
    parseServer f listen value = .ok server ↔ Spells f listen value server := by
  constructor
  · intro h
    unfold parseServer at h
    split at h
    · cases h
    · rename_i raw hraw
      split at h
      · cases h
      · rename_i address haddress
        split at h
        · cases h
        · rename_i hloop
          cases value with
          | string text =>
            cases hraw
            exact ⟨raw, address, rfl, haddress, hloop,
              upstreamAddress_new_eq_ok_iff.mp (mapError_eq_ok.mp h)⟩
          | _ => cases hraw
  · rintro ⟨raw, address, rfl, haddress, hloop, hsocket⟩
    have hnew : (UpstreamAddress.new address).mapError ConfigError.routing = .ok server :=
      mapError_eq_ok.mpr (upstreamAddress_new_eq_ok_iff.mpr hsocket)
    unfold parseServer Value.asStr
    dsimp only
    rw [haddress]
    dsimp only
    rw [if_neg hloop, hnew]

/-- A group is read exactly when its servers are, and there are neither too many nor too few of
them. -/
theorem parseUpstreamGroup_eq_ok_iff {listen : SocketAddr} {group : UpstreamGroup} :
    parseUpstreamGroup f table listen = .ok group ↔ Groups f listen table group := by
  unfold parseUpstreamGroup
  constructor
  · intro h
    split at h
    · cases h
    · rename_i values hget
      obtain ⟨value, hvalue, harray⟩ := Option.bind_eq_some_iff.mp hget
      obtain ⟨addresses, haddresses, h⟩ := bind_eq_ok.mp h
      refine ⟨values, by rw [hvalue, asArray_eq_some harray], ?_⟩
      rw [upstreamGroup_new_eq_ok_iff.mp (mapError_eq_ok.mp h)]
      exact (mapM_eq_ok_iff.mp haddresses).imp fun value server => parseServer_eq_ok_iff.mp
  · rintro ⟨values, hvalues, hservers⟩
    have hread : values.mapM (parseServer f listen) = .ok group.servers :=
      mapM_eq_ok_iff.mpr (hservers.imp fun value server => parseServer_eq_ok_iff.mpr)
    rw [hvalues]
    exact bind_eq_ok.mpr
      ⟨_, hread, mapError_eq_ok.mpr (upstreamGroup_new_eq_ok_iff.mpr rfl)⟩

/-- A suffix is read exactly when its text spells a name. -/
theorem parseDomain_eq_ok_iff {context : String} {suffix : DomainName} :
    parseDomain table context = .ok suffix ↔ Names table suffix := by
  constructor
  · intro h
    obtain ⟨text, htext, h⟩ := bind_eq_ok.mp h
    exact ⟨text, requiredString_eq_ok_iff.mp htext, mapError_eq_ok.mp h⟩
  · rintro ⟨text, htext, hsuffix⟩
    exact bind_eq_ok.mpr ⟨text, requiredString_eq_ok_iff.mpr htext, mapError_eq_ok.mpr hsuffix⟩

/-- A route is read exactly when its table has no other key, and its suffix and its group are
read. -/
theorem parseRoute_eq_ok_iff {listen : SocketAddr} {index : Nat} {value : Value} {route : Route} :
    parseRoute f listen index value = .ok route ↔ RoutesTo f listen value route := by
  constructor
  · intro h
    unfold parseRoute at h
    split at h
    · cases h
    · rename_i entries hentries
      obtain ⟨_, hknown, h⟩ := bind_eq_ok.mp h
      obtain ⟨suffix, hsuffix, h⟩ := bind_eq_ok.mp h
      obtain ⟨upstreams, hupstreams, h⟩ := bind_eq_ok.mp h
      cases h
      exact ⟨entries, asTable_eq_some hentries, rejectUnknownKeys_eq_ok_iff.mp hknown,
        parseDomain_eq_ok_iff.mp hsuffix, parseUpstreamGroup_eq_ok_iff.mp hupstreams⟩
  · rintro ⟨entries, rfl, hknown, hnames, hgroups⟩
    show (do
      rejectUnknownKeys entries ["domain", "servers"] s!"route {index}"
      let suffix ← parseDomain entries s!"route {index}"
      let upstreams ← parseUpstreamGroup f entries listen
      return { suffix := suffix, upstreams := upstreams }) = Except.ok route
    refine bind_eq_ok.mpr ⟨(), rejectUnknownKeys_eq_ok_iff.mpr hknown, ?_⟩
    refine bind_eq_ok.mpr ⟨_, parseDomain_eq_ok_iff.mpr hnames, ?_⟩
    exact bind_eq_ok.mpr ⟨_, parseUpstreamGroup_eq_ok_iff.mpr hgroups, rfl⟩

/-- A number passes for a TTL exactly when it has 31 bits, and it is the TTL. -/
theorem parseTtl_eq_ok_iff {context : String} {ttl : UInt32} :
    parseTtl table context = .ok ttl ↔ Expires table ttl := by
  constructor
  · intro h
    unfold parseTtl at h
    split at h
    · rename_i hnone
      cases h
      exact .inl ⟨hnone, rfl⟩
    · rename_i value hvalue
      dsimp only at h
      split at h
      · rename_i n hn
        cases h
        obtain ⟨⟨digits, radix⟩, hinteger, hfilter⟩ := Option.bind_eq_some_iff.mp hn
        obtain ⟨hparsed, hnonneg⟩ := Option.filter_eq_some_iff.mp hfilter
        have hrange : -2147483648 ≤ n ∧ n ≤ 2147483647 :=
          decide_eq_true_iff.mp (Option.filter_eq_some_iff.mp hparsed).2
        have hpos : 0 ≤ n := decide_eq_true_iff.mp hnonneg
        -- So the cast to `u32` keeps the number.
        have hsame : ((UInt32.ofNat n.toNat).toNat : Int) = n := by
          rw [UInt32.toNat_ofNat', Nat.mod_eq_of_lt (by omega)]
          exact Int.toNat_of_nonneg hpos
        cases value with
        | integer digits' radix' =>
          cases hinteger
          exact .inr ⟨digits, radix, hvalue, by rw [hsame]; exact hparsed⟩
        | _ => cases hinteger
      · cases h
  · rintro (⟨hnone, rfl⟩ | ⟨digits, radix, hvalue, hparsed⟩)
    · unfold parseTtl
      rw [hnone]
    · have hread : (fromStrRadix digits radix.toNat).filter (0 ≤ ·) = some (ttl.toNat : Int) :=
        Option.filter_eq_some_iff.mpr ⟨hparsed, decide_eq_true (Int.natCast_nonneg _)⟩
      unfold parseTtl
      rw [hvalue]
      simp only [Value.asInteger, Option.bind_eq_bind, Option.bind_some, hread]
      rw [Int.toNat_natCast, UInt32.ofNat_toNat]

/-- A local record is read exactly when its table has no other key, and its fields are read. -/
theorem parseLocalRecord_eq_ok_iff {index : Nat} {value : Value} {record : LocalRecord} :
    parseLocalRecord f index value = .ok record ↔ Describes f value record := by
  constructor
  · intro h
    unfold parseLocalRecord at h
    dsimp only at h
    split at h
    · cases h
    · rename_i entries hentries
      obtain ⟨_, hknown, h⟩ := bind_eq_ok.mp h
      obtain ⟨suffix, hsuffix, h⟩ := bind_eq_ok.mp h
      obtain ⟨text, htext, h⟩ := bind_eq_ok.mp h
      split at h
      · cases h
      · rename_i address haddress
        obtain ⟨ttl, httl, h⟩ := bind_eq_ok.mp h
        cases h
        exact ⟨entries, text, asTable_eq_some hentries, rejectUnknownKeys_eq_ok_iff.mp hknown,
          parseDomain_eq_ok_iff.mp hsuffix, requiredString_eq_ok_iff.mp htext, haddress,
          parseTtl_eq_ok_iff.mp httl⟩
  · rintro ⟨entries, text, rfl, hknown, hnames, htext, haddress, hexpires⟩
    refine bind_eq_ok.mpr ⟨(), rejectUnknownKeys_eq_ok_iff.mpr hknown, ?_⟩
    refine bind_eq_ok.mpr ⟨_, parseDomain_eq_ok_iff.mpr hnames, ?_⟩
    refine bind_eq_ok.mpr ⟨_, requiredString_eq_ok_iff.mpr htext, ?_⟩
    rw [haddress]
    exact bind_eq_ok.mpr ⟨_, parseTtl_eq_ok_iff.mpr hexpires, rfl⟩

/-- The listener is read exactly when its text spells a concrete endpoint. -/
theorem parseListen_eq_ok_iff {listen : SocketAddr} :
    parseListen f table = .ok listen ↔ Listens f table listen := by
  constructor
  · intro h
    obtain ⟨raw, hraw, h⟩ := bind_eq_ok.mp h
    split at h
    · cases h
    · rename_i address haddress
      split at h
      · cases h
      · rename_i endpoint hendpoint
        cases h
        exact ⟨endpoint.concrete, raw, address, requiredString_eq_ok_iff.mp hraw, haddress,
          upstreamAddress_new_eq_ok_iff.mp hendpoint⟩
  · rintro ⟨hconcrete, raw, address, htext, haddress, hlisten⟩
    have hnew : UpstreamAddress.new address = .ok ⟨listen, hconcrete.canonical, hconcrete.port,
        hconcrete.specified, hconcrete.unicast, hconcrete.notBroadcast⟩ :=
      upstreamAddress_new_eq_ok_iff.mpr hlisten
    refine bind_eq_ok.mpr ⟨raw, requiredString_eq_ok_iff.mpr htext, ?_⟩
    rw [haddress]
    dsimp only
    rw [hnew]
    rfl

/-- The default group is read exactly when its table describes it, or it is absent without one. -/
theorem parseDefault_eq_ok_iff {listen : SocketAddr} {default : Option UpstreamGroup} :
    parseDefault f listen table = .ok default ↔ Defaults f listen table default := by
  unfold parseDefault
  constructor
  · intro h
    split at h
    · rename_i hnone
      cases h
      exact .inl ⟨hnone, rfl⟩
    · rename_i value hvalue
      split at h
      · cases h
      · rename_i entries hentries
        obtain ⟨_, hknown, h⟩ := bind_eq_ok.mp h
        obtain ⟨group, hgroup, h⟩ := bind_eq_ok.mp h
        cases h
        exact .inr ⟨entries, group, by rw [hvalue, asTable_eq_some hentries],
          rejectUnknownKeys_eq_ok_iff.mp hknown, rfl, parseUpstreamGroup_eq_ok_iff.mp hgroup⟩
  · rintro (⟨hnone, rfl⟩ | ⟨entries, group, hentries, hknown, rfl, hgroups⟩)
    · rw [hnone]
    · rw [hentries]
      refine bind_eq_ok.mpr ⟨(), rejectUnknownKeys_eq_ok_iff.mpr hknown, ?_⟩
      exact bind_eq_ok.mpr ⟨_, parseUpstreamGroup_eq_ok_iff.mpr hgroups, rfl⟩

/-- The routes are read exactly when each of them is and there are not too many. -/
theorem parseRoutes_eq_ok_iff {listen : SocketAddr} {routes : List Route} :
    parseRoutes f listen table = .ok routes ↔
      ∃ values, Lists table "route" values ∧ List.Forall₂ (RoutesTo f listen) values routes ∧
        routes.length ≤ maxRoutes := by
  constructor
  · intro h
    unfold parseRoutes at h
    split at h
    · rename_i hnone
      cases h
      exact ⟨[], .inr ⟨hnone, rfl⟩, .nil, Nat.zero_le _⟩
    · rename_i value hvalue
      split at h
      · cases h
      · rename_i values harray
        split at h
        · cases h
        · rename_i hlimit
          have hall : List.Forall₂ (RoutesTo f listen) values routes :=
            (zipIdx_mapM_eq_ok_iff fun value index route => parseRoute_eq_ok_iff).mp h
          rw [asArray_eq_some harray] at hvalue
          exact ⟨values, .inl hvalue, hall, hall.length_eq ▸ Nat.not_lt.mp hlimit⟩
  · rintro ⟨values, hvalues | ⟨hnone, rfl⟩, hall, hlimit⟩
    · unfold parseRoutes
      rw [hvalues]
      dsimp only [Value.asArray]
      rw [if_neg (Nat.not_lt.mpr (hall.length_eq ▸ hlimit))]
      exact (zipIdx_mapM_eq_ok_iff fun value index route => parseRoute_eq_ok_iff).mpr hall
    · cases hall
      unfold parseRoutes
      rw [hnone]

/-- The local records are read exactly when each of them is, and they are not too many together with
the routes. -/
theorem parseLocalRecords_eq_ok_iff {routes : Nat} {localRecords : List LocalRecord}
    (hroutes : routes ≤ maxRoutes) :
    parseLocalRecords f routes table = .ok localRecords ↔
      ∃ values, Lists table "local" values ∧ List.Forall₂ (Describes f) values localRecords ∧
        routes + localRecords.length ≤ maxRoutes := by
  constructor
  · intro h
    unfold parseLocalRecords at h
    split at h
    · rename_i hnone
      cases h
      exact ⟨[], .inr ⟨hnone, rfl⟩, .nil, hroutes⟩
    · rename_i value hvalue
      split at h
      · cases h
      · rename_i values harray
        split at h
        · cases h
        · rename_i hlimit
          have hall : List.Forall₂ (Describes f) values localRecords :=
            (zipIdx_mapM_eq_ok_iff fun value index record => parseLocalRecord_eq_ok_iff).mp h
          rw [asArray_eq_some harray] at hvalue
          exact ⟨values, .inl hvalue, hall, hall.length_eq ▸ Nat.not_lt.mp hlimit⟩
  · rintro ⟨values, hvalues | ⟨hnone, rfl⟩, hall, hlimit⟩
    · unfold parseLocalRecords
      rw [hvalues]
      dsimp only [Value.asArray]
      rw [if_neg (Nat.not_lt.mpr (hall.length_eq ▸ hlimit))]
      exact (zipIdx_mapM_eq_ok_iff fun value index record => parseLocalRecord_eq_ok_iff).mpr hall
    · cases hall
      unfold parseLocalRecords
      rw [hnone]

end

end Config

/-- A table has the rules it was built from, longest suffix first. -/
theorem RoutingTable.new_eq_ok_iff_sorted {default : Option UpstreamGroup} {routes : List Route}
    {localRecords : List LocalRecord} {table : RoutingTable} :
    new default routes localRecords = .ok table ↔
      DistinctSuffixes routes localRecords ∧ table.default = default ∧
        table.routes = sortByKeyDesc (fun route => route.suffix.labelCount) routes ∧
        table.localRecords =
          sortByKeyDesc (fun record => record.suffix.labelCount) localRecords := by
  constructor
  · intro h
    unfold new at h
    split at h
    · cases h
    · rename_i hroutes
      split at h
      · cases h
      · rename_i hlocal
        cases h
        exact ⟨(firstClash_eq_none_iff_distinct _ _).mp ⟨hroutes, hlocal⟩, rfl, rfl, rfl⟩
  · rintro ⟨hdistinct, hdefault, hroutes, hlocal⟩
    obtain ⟨hfirst, hsecond⟩ := (firstClash_eq_none_iff_distinct _ _).mpr hdistinct
    unfold new
    split
    · rename_i hclash
      rw [hfirst] at hclash
      cases hclash
    · split
      · rename_i hclash
        rw [hsecond] at hclash
        cases hclash
      · congr
        · exact hdefault.symm
        · exact hroutes.symm
        · exact hlocal.symm

namespace Config

/-- A table is accepted exactly when it is well formed. -/
theorem parseTable_eq_ok_iff {f : Formats} {table : Table} {config : Config} :
    parseTable f table = .ok config ↔ Means f table config := by
  constructor
  · intro h
    obtain ⟨_, hknown, h⟩ := bind_eq_ok.mp h
    obtain ⟨listen, hlisten, h⟩ := bind_eq_ok.mp h
    obtain ⟨default, hdefault, h⟩ := bind_eq_ok.mp h
    obtain ⟨routes, hroutes, h⟩ := bind_eq_ok.mp h
    obtain ⟨localRecords, hlocal, h⟩ := bind_eq_ok.mp h
    obtain ⟨routing, hrouting, h⟩ := bind_eq_ok.mp h
    cases h
    obtain ⟨values, hvalues, hrouted, hlength⟩ := parseRoutes_eq_ok_iff.mp hroutes
    obtain ⟨records, hrecords, hanswered, htotal⟩ :=
      (parseLocalRecords_eq_ok_iff hlength).mp hlocal
    obtain ⟨hdistinct, hsame, hsorted, hsorted'⟩ :=
      RoutingTable.new_eq_ok_iff_sorted.mp (mapError_eq_ok.mp hrouting)
    refine ⟨rejectUnknownKeys_eq_ok_iff.mp hknown, parseListen_eq_ok_iff.mp hlisten, ?_,
      ⟨routes, localRecords, ?_, hsorted, hsorted'⟩⟩
    · show Defaults f listen table routing.default
      rw [hsame]
      exact parseDefault_eq_ok_iff.mp hdefault
    · exact ⟨⟨values, hvalues, hrouted⟩, ⟨records, hrecords, hanswered⟩, htotal, hdistinct⟩
  · rintro ⟨hknown, hlisten, hdefault, routes, localRecords, hrules, hsorted, hsorted'⟩
    obtain ⟨values, hvalues, hrouted⟩ := hrules.routed
    obtain ⟨records, hrecords, hanswered⟩ := hrules.answered
    -- The limit on all rules is also the limit on the routes, which is checked first.
    have htotal := hrules.bounded
    have hlength : routes.length ≤ maxRoutes := by omega
    have hrouting : RoutingTable.new config.routing.default routes localRecords =
        .ok config.routing :=
      RoutingTable.new_eq_ok_iff_sorted.mpr ⟨hrules.distinct, rfl, hsorted, hsorted'⟩
    refine bind_eq_ok.mpr ⟨(), rejectUnknownKeys_eq_ok_iff.mpr hknown, ?_⟩
    refine bind_eq_ok.mpr ⟨_, parseListen_eq_ok_iff.mpr hlisten, ?_⟩
    refine bind_eq_ok.mpr ⟨_, parseDefault_eq_ok_iff.mpr hdefault, ?_⟩
    refine bind_eq_ok.mpr ⟨_, parseRoutes_eq_ok_iff.mpr ⟨values, hvalues, hrouted, hlength⟩, ?_⟩
    refine bind_eq_ok.mpr ⟨_, (parseLocalRecords_eq_ok_iff hlength).mpr
      ⟨records, hrecords, hanswered, htotal⟩, ?_⟩
    exact bind_eq_ok.mpr ⟨_, mapError_eq_ok.mpr hrouting, rfl⟩

/-- A file is accepted exactly when it can be read, has at most 1 MiB, is TOML, and its table is
well formed; and the configuration is what the table means. -/
theorem load_eq_ok_iff (f : Formats) (toml : String → Except String Table)
    (file : Except IoError String) (config : Config) :
    load f toml file = .ok config ↔
      ∃ text table, file = .ok text ∧ (utf8 text).length ≤ maxConfigBytes ∧
        toml text = .ok table ∧ Means f table config := by
  constructor
  · intro h
    obtain ⟨text, htext, h⟩ := bind_eq_ok.mp h
    split at h
    · cases h
    · rename_i hlimit
      obtain ⟨table, htable, h⟩ := bind_eq_ok.mp h
      exact ⟨text, table, mapError_eq_ok.mp htext, Nat.not_lt.mp hlimit,
        mapError_eq_ok.mp htable, parseTable_eq_ok_iff.mp h⟩
  · rintro ⟨text, table, rfl, hlimit, htable, hmeans⟩
    refine bind_eq_ok.mpr ⟨text, rfl, ?_⟩
    rw [if_neg (Nat.not_lt.mpr hlimit)]
    exact bind_eq_ok.mpr ⟨table, mapError_eq_ok.mpr htable, parseTable_eq_ok_iff.mpr hmeans⟩

end Config

end Sederial
