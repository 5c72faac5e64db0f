import Sederial.Proofs.ConfigExact
import Sederial.Proofs.NameText

/-!
# `Sederial.Proofs.ConfigSafe`: every accepted configuration is safe

`Reads` is what an accepted configuration has to do with its table, section by section. It follows
from `Means`, which an accepted configuration meets by `parseTable_eq_ok_iff`.

`Safe` is what the service may rely on, and `Reads.safe` derives it. Two checks work on different
forms of an address: the loop check on the address as it is written, and the check for duplicates
on the endpoint it is normalised to. Normalising keeps the canonical IP and the port, so neither
check can be passed by another spelling.
-/

set_option autoImplicit false

namespace Sederial

open Sederial.Lib
open Sederial.Dns (DomainName)
open Toml (Table Value)

/-- The values of an array. -/
def Toml.Table.array (table : Table) (key : String) : List Value :=
  ((table.get key).bind Value.asArray).getD []

/-- The domain a route or a local record is configured for. -/
def Toml.Value.domainText (value : Value) : Option String :=
  (value.asTable.bind fun table => table.get "domain").bind Value.asStr

namespace Config

/-! ### What a configuration reads from its table -/

section

variable {f : Formats} {table : Table}

/-- A section has the values of its array, and none when it is absent. -/
theorem Lists.array_eq {key : String} {values : List Value} (h : Lists table key values) :
    table.array key = values := by
  unfold Toml.Table.array
  rcases h with hvalues | ⟨hnone, rfl⟩
  · rw [hvalues]
    rfl
  · rw [hnone]
    rfl

/-- Only a number of 31 bits is read. -/
theorem fromStrRadix_le {digits : String} {radix : Nat} {n : Int}
    (h : fromStrRadix digits radix = some n) : n ≤ 2147483647 := by
  have hrange : -2147483648 ≤ n ∧ n ≤ 2147483647 :=
    decide_eq_true_iff.mp (Option.filter_eq_some_iff.mp h).2
  exact hrange.2

/-- A TTL fits into 31 bits. -/
theorem Expires.le {ttl : UInt32} (h : Expires table ttl) : ttl.toNat ≤ 2147483647 := by
  rcases h with ⟨-, rfl⟩ | ⟨digits, radix, -, hparsed⟩
  · exact Nat.zero_le _
  · have hle := fromStrRadix_le hparsed
    omega

end

/-- What a configuration has to do with the table it was read from. -/
structure Reads (f : Formats) (table : Table) (config : Config) : Prop where
  known : table.Known ["listen", "default", "route", "local"]
  listen : Listens f table config.listen
  default : Defaults f config.listen table config.routing.default
  /-- The rules of the routing table are the configured ones in another order. -/
  rules : ∃ routes localRecords, config.routing.routes.Perm routes ∧
    config.routing.localRecords.Perm localRecords ∧
    List.Forall₂ (RoutesTo f config.listen) (table.array "route") routes ∧
    List.Forall₂ (Describes f) (table.array "local") localRecords ∧
    routes.length + localRecords.length ≤ maxRoutes

/-- What the file means is what was read from it. -/
theorem Means.reads {f : Formats} {table : Table} {config : Config} (h : Means f table config) :
    Reads f table config := by
  obtain ⟨routes, localRecords, hrules, hsorted, hsorted'⟩ := h.rules
  obtain ⟨values, hvalues, hrouted⟩ := hrules.routed
  obtain ⟨records, hrecords, hanswered⟩ := hrules.answered
  refine ⟨h.known, h.listen, h.default, routes, localRecords, ?_, ?_, ?_, ?_, hrules.bounded⟩
  · rw [hsorted]
    exact sortByKeyDesc_perm _ _
  · rw [hsorted']
    exact sortByKeyDesc_perm _ _
  · rw [hvalues.array_eq]
    exact hrouted
  · rw [hrecords.array_eq]
    exact hanswered

/-! ### What the service may rely on -/

/-- The groups a query can be forwarded to. -/
def groups (config : Config) : List UpstreamGroup :=
  config.routing.default.toList ++ config.routing.routes.map Route.upstreams

/-- A configuration that is safe to run, and the table behind it. -/
structure Safe (table : Table) (config : Config) : Prop where
  listen : config.listen.Concrete
  servers : ∀ group ∈ config.groups, ∀ server ∈ group.servers, server.socket.Concrete
  /-- No server is the listener. -/
  noLoop : ∀ group ∈ config.groups, ∀ server ∈ group.servers,
    ¬ (server.socket.port = config.listen.port ∧ server.socket.ip = config.listen.ip)
  sizes : ∀ group ∈ config.groups, 1 ≤ group.servers.length ∧ group.servers.length ≤ 8
  distinct : ∀ group ∈ config.groups, (group.servers.map UpstreamAddress.socket).Nodup
  entries : config.routing.routes.length + config.routing.localRecords.length ≤ 4096
  suffixes : DistinctSuffixes config.routing.routes config.routing.localRecords
  /-- The suffixes as they are written differ in more than case and a final dot. -/
  texts : (table.array "route" ++ table.array "local").Pairwise fun value value' =>
    ∀ text text', value.domainText = some text → value'.domainText = some text' →
      DomainName.foldedText (utf8 text) ≠ DomainName.foldedText (utf8 text')
  ttl : ∀ record ∈ config.routing.localRecords, record.ttl.toNat ≤ 2 ^ 31 - 1
  rootKeys : table.Known ["listen", "default", "route", "local"]
  defaultKeys : ∀ entries : Table, table.get "default" = some (.table entries) →
    entries.Known ["servers"]
  routeKeys : ∀ entries : Table, .table entries ∈ table.array "route" →
    entries.Known ["domain", "servers"]
  localKeys : ∀ entries : Table, .table entries ∈ table.array "local" →
    entries.Known ["domain", "address", "ttl"]

section

variable {f : Formats} {table : Table} {config : Config}

/-- A server that is spelled in some way is not the listener. -/
theorem Spells.not_listen {listen : SocketAddr} {value : Value} {server : UpstreamAddress}
    (h : Spells f listen value server) (hlisten : listen.ip.toCanonical = listen.ip) :
    ¬ (server.socket.port = listen.port ∧ server.socket.ip = listen.ip) := by
  obtain ⟨raw, address, -, -, hloop, hsocket⟩ := h
  intro ⟨hport, hip⟩
  -- The endpoint has the port of the written address, and its canonical IP.
  rw [hsocket, UpstreamAddress.port_normalize] at hport
  rw [hsocket, UpstreamAddress.ip_normalize] at hip
  exact hloop ⟨hport, by rw [hip, hlisten]⟩

/-- No server of a group is the listener. -/
theorem Groups.not_listen {listen : SocketAddr} {entries : Table} {group : UpstreamGroup}
    (h : Groups f listen entries group) (hlisten : listen.ip.toCanonical = listen.ip) :
    ∀ server ∈ group.servers,
      ¬ (server.socket.port = listen.port ∧ server.socket.ip = listen.ip) := by
  obtain ⟨values, -, hall⟩ := h
  intro server hserver
  obtain ⟨value, -, hspells⟩ := exists_left_of_forall₂ hall hserver
  exact hspells.not_listen hlisten

/-- Every group was read from a table. -/
theorem Reads.exists_groups (h : Reads f table config) {group : UpstreamGroup}
    (hgroup : group ∈ config.groups) :
    ∃ entries : Table, Groups f config.listen entries group := by
  rcases List.mem_append.mp hgroup with hdefault | hroute
  · rcases h.default with ⟨-, hnone⟩ | ⟨entries, group', -, -, hsome, hread⟩
    · rw [hnone] at hdefault
      cases hdefault
    · rw [hsome] at hdefault
      cases List.mem_singleton.mp hdefault
      exact ⟨entries, hread⟩
  · obtain ⟨route, hmem, rfl⟩ := List.mem_map.mp hroute
    obtain ⟨routes, -, hperm, -, hall, -⟩ := h.rules
    obtain ⟨value, -, entries, -, -, -, hread⟩ :=
      exists_left_of_forall₂ hall (hperm.mem_iff.mp hmem)
    exact ⟨entries, hread⟩

/-- A value with a domain and the name it was read as. -/
def Named (value : Value) (suffix : DomainName) : Prop :=
  ∃ text, value.domainText = some text ∧ DomainName.fromStr (utf8 text) = .ok suffix

/-- A suffix is named by its table. -/
theorem Names.named {entries : Table} {suffix : DomainName} (h : Names entries suffix) :
    Named (.table entries) suffix := by
  obtain ⟨text, htext, hsuffix⟩ := h
  refine ⟨text, ?_, hsuffix⟩
  show (entries.get "domain").bind Value.asStr = some text
  rw [htext]
  rfl

/-- Different names are written differently. -/
theorem Named.foldedText_ne {value value' : Value} {suffix suffix' : DomainName}
    (h : Named value suffix) (h' : Named value' suffix') (hne : (suffix == suffix') = false)
    {text text' : String} (htext : value.domainText = some text)
    (htext' : value'.domainText = some text') :
    DomainName.foldedText (utf8 text) ≠ DomainName.foldedText (utf8 text') := by
  obtain ⟨written, hwritten, hsuffix⟩ := h
  obtain ⟨written', hwritten', hsuffix'⟩ := h'
  rw [hwritten, Option.some.injEq] at htext
  rw [hwritten', Option.some.injEq] at htext'
  subst htext htext'
  intro hsame
  rw [DomainName.beq_of_foldedText hsuffix hsuffix' hsame] at hne
  cases hne

/-- A route is named by its entry. -/
theorem RoutesTo.named {listen : SocketAddr} {value : Value} {route : Route}
    (h : RoutesTo f listen value route) : Named value route.suffix := by
  obtain ⟨entries, rfl, -, hnames, -⟩ := h
  exact hnames.named

/-- A local record is named by its entry. -/
theorem Describes.named {value : Value} {record : LocalRecord} (h : Describes f value record) :
    Named value record.suffix := by
  obtain ⟨entries, text, rfl, -, hnames, -⟩ := h
  exact hnames.named

/-- The suffixes as they are written. -/
theorem Reads.texts (h : Reads f table config) :
    (table.array "route" ++ table.array "local").Pairwise fun value value' =>
      ∀ text text', value.domainText = some text → value'.domainText = some text' →
        DomainName.foldedText (utf8 text) ≠ DomainName.foldedText (utf8 text') := by
  obtain ⟨routes, localRecords, hperm, hperm', hroutes, hlocal, -⟩ := h.rules
  have hdistinct : DistinctSuffixes routes localRecords :=
    config.routing.distinct.perm hperm hperm'
  have hnamed : List.Forall₂ Named (table.array "route" ++ table.array "local")
      (routes.map Route.suffix ++ localRecords.map LocalRecord.suffix) := by
    refine List.rel_append ?_ ?_
    · exact List.forall₂_map_right_iff.mpr (hroutes.imp fun _ _ h => h.named)
    · exact List.forall₂_map_right_iff.mpr (hlocal.imp fun _ _ h => h.named)
  refine pairwise_of_forall₂ hnamed hdistinct ?_
  intro value value' suffix suffix' hvalue hvalue' hne text text' htext htext'
  exact hvalue.foldedText_ne hvalue' hne htext htext'

/-- An address is its socket. -/
theorem socket_injective : Function.Injective UpstreamAddress.socket := by
  intro a b h
  cases a
  cases b
  cases h
  rfl

/-- What was read is safe. -/
theorem Reads.safe (h : Reads f table config) : Safe table config := by
  obtain ⟨routes, localRecords, hperm, hperm', hroutes, hlocal, htotal⟩ := h.rules
  refine ⟨h.listen.1, fun group _ server _ => server.concrete, ?_, ?_, ?_, ?_,
    config.routing.distinct, ?_, ?_, h.known, ?_, ?_, ?_⟩
  · intro group hgroup
    obtain ⟨entries, hread⟩ := h.exists_groups hgroup
    exact hread.not_listen h.listen.1.canonical
  · intro group _
    exact ⟨List.length_pos_of_ne_nil group.nonempty, group.bounded⟩
  · intro group _
    exact group.distinct.map socket_injective
  · rw [hperm.length_eq, hperm'.length_eq]
    exact htotal
  · exact h.texts
  · intro record hrecord
    obtain ⟨value, -, entries, text, -, -, -, -, -, hexpires⟩ :=
      exists_left_of_forall₂ hlocal (hperm'.mem_iff.mp hrecord)
    exact hexpires.le
  · intro entries hentries
    rcases h.default with ⟨hnone, -⟩ | ⟨entries', group, hsome, hknown, -⟩
    · rw [hnone] at hentries
      cases hentries
    · rw [hsome] at hentries
      cases hentries
      exact hknown
  · intro entries hentries
    obtain ⟨route, -, entries', heq, hknown, -⟩ := exists_right_of_forall₂ hroutes hentries
    cases heq
    exact hknown
  · intro entries hentries
    obtain ⟨record, -, entries', text, heq, hknown, -⟩ := exists_right_of_forall₂ hlocal hentries
    cases heq
    exact hknown

/-- Whatever the `toml` crate and the address readers return, an accepted configuration is safe,
and it is the one that its table spells. -/
theorem parse_safe (f : Formats) (toml : String → Except String Table) (text : String)
    (config : Config) (h : parse f toml text = .ok config) :
    ∃ table, toml text = .ok table ∧ Reads f table config ∧ Safe table config := by
  obtain ⟨table, htable, h⟩ := bind_eq_ok.mp h
  have hreads := (parseTable_eq_ok_iff.mp h).reads
  exact ⟨table, mapError_eq_ok.mp htable, hreads, hreads.safe⟩

/-! ### An example -/

/-- A key at a place of the file. -/
def spanned (start : Nat) (text : String) : Toml.Key :=
  ⟨text, s!"Spanned \x7b span: {start}..{start + text.length}, value: \"" ++ text ++ "\" \x7d"⟩

/-- The file of the example. -/
def homeText : String :=
  "listen='127.0.0.1:5300'\n[default]\nservers=['192.0.2.53','[::ffff:192.0.2.54]:5353']\n" ++
  "[[route]]\ndomain='LAB.test.'\nservers=['[2001:db8::1]']\n" ++
  "[[local]]\ndomain='home.test'\naddress='10.77.20.2'\nttl=0x7fff_ffff\n"

/-- The same file, as `toml` reads it. -/
def homeTable : Table :=
  [(spanned 0 "listen", .string "127.0.0.1:5300"),
    (spanned 25 "default", .table [(spanned 34 "servers", .array
      [.string "192.0.2.53", .string "[::ffff:192.0.2.54]:5353"])]),
    (spanned 86 "route", .array [.table [(spanned 94 "domain", .string "LAB.test."),
      (spanned 113 "servers", .array [.string "[2001:db8::1]"])]]),
    (spanned 141 "local", .array [.table [(spanned 149 "domain", .string "home.test"),
      (spanned 168 "address", .string "10.77.20.2"),
      (spanned 189 "ttl", .integer "7fffffff" .hexadecimal)]])]

/-- The `toml` crate on `homeText`. -/
def homeToml (text : String) : Except String Table :=
  if text = homeText then .ok homeTable else .error "invalid"

/-- The standard library on the addresses of `homeText`. -/
def homeFormats : Formats where
  socketAddr raw :=
    if raw = "127.0.0.1:5300" then some (.v4 ⟨127, 0, 0, 1⟩ 5300)
    else if raw = "[::ffff:192.0.2.54]:5353" then
      some (.v6 ⟨0, 0, 0, 0, 0, 0xffff, 0xc000, 0x236⟩ 5353 0 0)
    else none
  ipAddr raw := if raw = "192.0.2.53" then some (.v4 ⟨192, 0, 2, 53⟩) else none
  ipv6Addr raw := if raw = "2001:db8::1" then some ⟨0x2001, 0xdb8, 0, 0, 0, 0, 0, 1⟩ else none
  ipv4Addr raw := if raw = "10.77.20.2" then some ⟨10, 77, 20, 2⟩ else none
  debug raw := "\"" ++ raw ++ "\""

/-- A listener, a default group with an IPv4-mapped server, a route and a local record. -/
theorem parse_safe_home : ∃ config, parse homeFormats homeToml homeText = .ok config ∧
    ∃ table, homeToml homeText = .ok table ∧ Reads homeFormats table config ∧
      Safe table config := by
  have hok : ∃ config, parse homeFormats homeToml homeText = .ok config := by
    have haccepted : (parse homeFormats homeToml homeText).isOk = true := by decide +kernel
    cases hparse : parse homeFormats homeToml homeText with
    | error e =>
      rw [hparse] at haccepted
      cases haccepted
    | ok config => exact ⟨config, rfl⟩
  obtain ⟨config, hparse⟩ := hok
  exact ⟨config, hparse, parse_safe homeFormats homeToml homeText config hparse⟩

end

end Config

end Sederial
