import Mathlib.Data.List.Perm.Basic
import Sederial.Proofs.ConfigSafe
import Sederial.Proofs.LongestMatch
import Sederial.Service

/-!
# `Sederial.Proofs.ConfigOrder`: the order of a configuration file does not matter

The keys of a TOML table have no order, and neither have the routes and the local records of a
file: the longest suffix decides, wherever it stands. Only the servers of a group are in an order
that means something. `Reordered` says when two tables differ in the order of keys and sections
only, and `parse_reordered` is the result. It is about the service, not about the routing table:
both files are accepted, and every step of the service is the same with one as with the other.

The proof has three parts. The first reads a table as a mapping, so `Means` survives the reordering.
The second says that two routing tables with the same rules select alike. The third carries this
through the handler and the workers to `Service.step`.
-/

set_option autoImplicit false

namespace Sederial

open Sederial.Lib
open Sederial.Dns (DomainName)
open Toml (Table Value)

/-! ### Tables as mappings -/

namespace Toml

/-- Two tables with the same mapping. -/
def Table.Same (table table' : Table) : Prop := ∀ key, table.get key = table'.get key

/-- Two values that differ in the order of the keys of a table only. -/
inductive Value.Alike : Value → Value → Prop
  | refl (value : Value) : Alike value value
  | table {entries entries' : Table} (same : entries.Same entries') :
      Alike (.table entries) (.table entries')

/-- Two sections that differ in their order, and in the order of the keys. -/
inductive Value.Shuffled : Value → Value → Prop
  | refl (value : Value) : Shuffled value value
  | array {values middle values' : List Value} (perm : values.Perm middle)
      (alike : List.Forall₂ Value.Alike middle values') : Shuffled (.array values) (.array values')

/-- Two configuration tables that differ in the order of keys and sections only. -/
structure Table.Reordered (table table' : Table) : Prop where
  routes : Option.Rel Value.Shuffled (table.get "route") (table'.get "route")
  localRecords : Option.Rel Value.Shuffled (table.get "local") (table'.get "local")
  default : Option.Rel Value.Alike (table.get "default") (table'.get "default")
  others : ∀ key, key ≠ "route" → key ≠ "local" → key ≠ "default" →
    table.get key = table'.get key

variable {table table' : Table} {allowed : List String}

/-- A key is absent when no entry has it. -/
theorem Table.get_eq_none_iff {key : String} :
    table.get key = none ↔ ∀ entry ∈ table, entry.1.text ≠ key := by
  unfold Table.get
  rw [Option.map_eq_none_iff, List.find?_eq_none]
  refine forall₂_congr fun entry _ => ?_
  rw [beq_iff_eq]

/-- The known keys of a table are those that are mapped. -/
theorem Table.known_iff : table.Known allowed ↔ ∀ key, table.get key ≠ none → key ∈ allowed := by
  constructor
  · intro h key hkey
    by_contra hunknown
    refine hkey (Table.get_eq_none_iff.mpr fun entry hentry heq => ?_)
    exact hunknown (heq ▸ h entry hentry)
  · intro h entry hentry
    refine h _ fun hnone => ?_
    exact Table.get_eq_none_iff.mp hnone entry hentry rfl

/-- Tables with the same entries have the same keys. -/
theorem Table.Same.known (h : table.Same table') (hknown : table.Known allowed) :
    table'.Known allowed := by
  rw [Table.known_iff] at hknown ⊢
  exact fun key hkey => hknown key (h key ▸ hkey)

/-- The entries of a table, without the places of their keys in the file. -/
def Table.mapping (table : Table) : List (String × Value) :=
  table.map fun entry => (entry.1.text, entry.2)

/-- The value under a key, from the mapping of the table. -/
theorem Table.get_eq (table : Table) (key : String) :
    table.get key = (table.mapping.find? fun entry => entry.1 == key).map Prod.snd := by
  unfold Table.get Table.mapping
  rw [List.find?_map, Option.map_map]
  rfl

/-- Looking a key up does not depend on the order of different keys. -/
theorem find?_key_perm {α : Type} {entries entries' : List (String × α)} (h : entries.Perm entries')
    (hkeys : (entries.map Prod.fst).Nodup) (key : String) :
    entries.find? (fun entry => entry.1 == key) = entries'.find? (fun entry => entry.1 == key) := by
  induction h with
  | nil => rfl
  | cons entry h ih => rw [List.find?_cons, List.find?_cons, ih hkeys.of_cons]
  | swap entry entry' rest =>
    have hne : entry'.1 ≠ entry.1 := fun heq =>
      (List.nodup_cons.mp hkeys).1 (heq ▸ List.mem_cons_self)
    rw [List.find?_cons, List.find?_cons, List.find?_cons, List.find?_cons]
    -- The two keys differ, so at most one of them is the key.
    by_cases hentry : entry.1 = key
    · have hother : (entry'.1 == key) = false := beq_false_of_ne (hentry ▸ hne)
      rw [hother]
    · have hother : (entry.1 == key) = false := beq_false_of_ne hentry
      rw [hother]
  | trans h h' ih ih' => exact (ih hkeys).trans (ih' ((h.map Prod.fst).nodup_iff.mp hkeys))

/-- Two tables with the same entries have the same mapping. -/
theorem Table.same_of_perm (h : table.mapping.Perm table'.mapping)
    (hkeys : (table.mapping.map Prod.fst).Nodup) : table.Same table' := by
  intro key
  rw [Table.get_eq, Table.get_eq, find?_key_perm h hkeys]

/-- A value is related to itself when its content is. -/
theorem rel_refl {α : Type} {r : α → α → Prop} (hr : ∀ a, r a a) (x : Option α) :
    Option.Rel r x x := by
  cases x with
  | none => exact .none
  | some a => exact .some (hr a)

/-- A key that is absent in one table is absent in the other. -/
theorem rel_none {α : Type} {r : α → α → Prop} {x : Option α} (h : Option.Rel r none x) :
    x = none := by
  cases h
  rfl

/-- What is related to some value is some value. -/
theorem rel_some {α : Type} {r : α → α → Prop} {a : α} {x : Option α}
    (h : Option.Rel r (some a) x) : ∃ b, x = some b ∧ r a b := by
  cases h with
  | some h => exact ⟨_, rfl, h⟩

/-- Keys in another order are a special case. -/
theorem Table.Same.reordered (h : table.Same table') : table.Reordered table' where
  routes := h "route" ▸ rel_refl .refl _
  localRecords := h "local" ▸ rel_refl .refl _
  default := h "default" ▸ rel_refl .refl _
  others := fun key _ _ _ => h key

/-- A section in another order, element by element. -/
theorem Value.Shuffled.values {values : List Value} {value : Value}
    (h : Shuffled (.array values) value) :
    ∃ middle values', value = .array values' ∧ values.Perm middle ∧
      List.Forall₂ Alike middle values' := by
  cases h with
  | refl => exact ⟨values, values, rfl, .refl _, List.forall₂_same.mpr fun v _ => .refl v⟩
  | array perm alike => exact ⟨_, _, rfl, perm, alike⟩

/-- A reordered table has the same keys. -/
theorem Table.Reordered.known (h : table.Reordered table') (hknown : table.Known allowed) :
    table'.Known allowed := by
  rw [Table.known_iff] at hknown ⊢
  have hmapped : ∀ {r : Value → Value → Prop} {x y : Option Value}, Option.Rel r x y →
      y ≠ none → x ≠ none := by
    intro r x y hrel hy
    cases hrel with
    | none => exact hy
    | some => exact nofun
  intro key hkey
  refine hknown key ?_
  -- A section may differ, but both tables have it or neither has.
  by_cases hroute : key = "route"
  · subst hroute
    exact hmapped h.routes hkey
  · by_cases hlocal : key = "local"
    · subst hlocal
      exact hmapped h.localRecords hkey
    · by_cases hdefault : key = "default"
      · subst hdefault
        exact hmapped h.default hkey
      · rw [h.others key hroute hlocal hdefault]
        exact hkey

end Toml

open Toml (Value.Alike Value.Shuffled)

/-! ### Well-formed tables -/

namespace Config

variable {f : Formats} {table table' entries entries' : Table} {listen : SocketAddr}

/-- A suffix is read from the entries as a mapping. -/
theorem Names.same {suffix : DomainName} (h : Names entries suffix)
    (hsame : entries.Same entries') : Names entries' suffix := by
  obtain ⟨text, htext, hsuffix⟩ := h
  exact ⟨text, (hsame "domain").symm.trans htext, hsuffix⟩

/-- So is a group. -/
theorem Groups.same {group : UpstreamGroup} (h : Groups f listen entries group)
    (hsame : entries.Same entries') : Groups f listen entries' group := by
  obtain ⟨values, hvalues, hservers⟩ := h
  exact ⟨values, (hsame "servers").symm.trans hvalues, hservers⟩

/-- So is a TTL. -/
theorem Expires.same {ttl : UInt32} (h : Expires entries ttl) (hsame : entries.Same entries') :
    Expires entries' ttl := by
  unfold Expires at *
  rw [← hsame "ttl"]
  exact h

/-- So is a route. -/
theorem RoutesTo.alike {value value' : Value} {route : Route} (h : RoutesTo f listen value route)
    (halike : Value.Alike value value') : RoutesTo f listen value' route := by
  cases halike with
  | refl => exact h
  | table same =>
    obtain ⟨entries, heq, hknown, hnames, hgroups⟩ := h
    cases heq
    exact ⟨_, rfl, same.known hknown, hnames.same same, hgroups.same same⟩

/-- So is a local record. -/
theorem Describes.alike {value value' : Value} {record : LocalRecord}
    (h : Describes f value record) (halike : Value.Alike value value') :
    Describes f value' record := by
  cases halike with
  | refl => exact h
  | table same =>
    obtain ⟨entries, text, heq, hknown, hnames, htext, haddress, hexpires⟩ := h
    cases heq
    exact ⟨_, text, rfl, same.known hknown, hnames.same same, (same "address").symm.trans htext,
      haddress, hexpires.same same⟩

/-- A section in another order is read in another order. -/
theorem Lists.shuffled {β : Type} {r : Value → β → Prop} {key : String} {values : List Value}
    {results : List β} (h : Lists table key values)
    (hshuffled : Option.Rel Value.Shuffled (table.get key) (table'.get key))
    (hread : List.Forall₂ r values results)
    (halike : ∀ value value' result, r value result → Value.Alike value value' →
      r value' result) :
    ∃ values' results', Lists table' key values' ∧ List.Forall₂ r values' results' ∧
      results'.Perm results := by
  rcases h with hsome | ⟨hnone, rfl⟩
  · rw [hsome] at hshuffled
    obtain ⟨value, hvalue, hvalues⟩ := Toml.rel_some hshuffled
    obtain ⟨middle, values', rfl, hperm, hsame⟩ := hvalues.values
    -- The results move with the values. Values that are alike then have the same results.
    obtain ⟨results', hmiddle, hresults⟩ := List.perm_comp_forall₂ hperm.symm hread
    exact ⟨values', results', .inl hvalue, forall₂_replace hmiddle hsame halike, hresults⟩
  · rw [hnone] at hshuffled
    cases hread
    exact ⟨[], [], .inr ⟨Toml.rel_none hshuffled, rfl⟩, .nil, .refl _⟩

/-- The default group depends on its own table only. -/
theorem Defaults.reordered {default : Option UpstreamGroup} (h : Defaults f listen table default)
    (halike : Option.Rel Value.Alike (table.get "default") (table'.get "default")) :
    Defaults f listen table' default := by
  rcases h with ⟨hnone, rfl⟩ | ⟨entries, group, hentries, hknown, rfl, hgroups⟩
  · rw [hnone] at halike
    exact .inl ⟨Toml.rel_none halike, rfl⟩
  · rw [hentries] at halike
    obtain ⟨value, hvalue, hvalues⟩ := Toml.rel_some halike
    cases hvalues with
    | refl => exact .inr ⟨entries, group, hvalue, hknown, rfl, hgroups⟩
    | table same => exact .inr ⟨_, group, hvalue, same.known hknown, rfl, hgroups.same same⟩

/-- The listener depends on its own entry only. -/
theorem Listens.reordered (h : Listens f table listen) (hreordered : table.Reordered table') :
    Listens f table' listen := by
  obtain ⟨hconcrete, raw, address, htext, haddress⟩ := h
  have hsame := hreordered.others "listen" (by decide) (by decide) (by decide)
  exact ⟨hconcrete, raw, address, hsame.symm.trans htext, haddress⟩

/-- The rules of a reordered file are the same rules. -/
theorem Rules.reordered {routes : List Route} {localRecords : List LocalRecord}
    (h : Rules f listen table routes localRecords) (hreordered : table.Reordered table') :
    ∃ routes' localRecords', Rules f listen table' routes' localRecords' ∧
      routes'.Perm routes ∧ localRecords'.Perm localRecords := by
  obtain ⟨values, hvalues, hrouted⟩ := h.routed
  obtain ⟨records, hrecords, hanswered⟩ := h.answered
  obtain ⟨values', routes', hvalues', hrouted', hroutes⟩ :=
    hvalues.shuffled hreordered.routes hrouted fun _ _ _ => RoutesTo.alike
  obtain ⟨records', localRecords', hrecords', hanswered', hlocal⟩ :=
    hrecords.shuffled hreordered.localRecords hanswered fun _ _ _ => Describes.alike
  refine ⟨routes', localRecords', ⟨⟨values', hvalues', hrouted'⟩,
    ⟨records', hrecords', hanswered'⟩, ?_, h.distinct.perm hroutes.symm hlocal.symm⟩,
    hroutes, hlocal⟩
  rw [hroutes.length_eq, hlocal.length_eq]
  exact h.bounded

end Config

/-! ### Routing tables that agree -/

/-- Two tables that decide every name alike. -/
structure RoutingTable.Agrees (table table' : RoutingTable) : Prop where
  select : ∀ name, table.select name = table'.select name
  hasUpstreams : table.hasUpstreams = table'.hasUpstreams

/-- Two tables whose routes and records are permuted agree on every name. -/
theorem RoutingTable.agrees_of_perm {table table' : RoutingTable}
    (hdefault : table.default = table'.default) (hroutes : table.routes.Perm table'.routes)
    (hlocal : table.localRecords.Perm table'.localRecords) : table.Agrees table' where
  select := fun _ => select_congr hdefault (mem_rulesOf_iff_of_perm hroutes hlocal) rfl
  hasUpstreams := by
    unfold RoutingTable.hasUpstreams
    rw [hdefault, hroutes.isEmpty_eq]

namespace Config

/-- The configuration of a reordered table. -/
theorem Means.reordered {f : Formats} {table table' : Table} {config : Config}
    (h : Means f table config) (hreordered : table.Reordered table') :
    ∃ config', Means f table' config' ∧ config'.listen = config.listen ∧
      config'.routing.Agrees config.routing := by
  obtain ⟨hknown, hlisten, hdefault, routes, localRecords, hrules, hsorted, hsorted'⟩ := h
  obtain ⟨routes', localRecords', hrules', hroutes, hlocal⟩ := hrules.reordered hreordered
  -- The permuted rules still have different suffixes, so there is a table for them.
  have hexists : ∃ routing, RoutingTable.new config.routing.default routes' localRecords' =
      .ok routing :=
    RoutingTable.new_eq_ok_iff.mpr ((distinctSuffixes_iff _ _).mp hrules'.distinct)
  obtain ⟨routing, hrouting⟩ := hexists
  obtain ⟨-, hsame, hnewRoutes, hnewLocal⟩ := RoutingTable.new_eq_ok_iff_sorted.mp hrouting
  refine ⟨⟨config.listen, routing⟩, ⟨hreordered.known hknown, hlisten.reordered hreordered, ?_,
    routes', localRecords', hrules', hnewRoutes, hnewLocal⟩, rfl, ?_⟩
  · show Defaults f config.listen table' routing.default
    rw [hsame]
    exact hdefault.reordered hreordered.default
  · -- Sorting keeps the rules, and the order among equally long suffixes decides nothing.
    refine RoutingTable.agrees_of_perm hsame ?_ ?_
    · rw [hnewRoutes, hsorted]
      exact ((sortByKeyDesc_perm _ _).trans hroutes).trans (sortByKeyDesc_perm _ _).symm
    · rw [hnewLocal, hsorted']
      exact ((sortByKeyDesc_perm _ _).trans hlocal).trans (sortByKeyDesc_perm _ _).symm

end Config

/-! ### The service -/

section

variable {routing routing' : RoutingTable}

/-- Tables that agree make the same handler. -/
theorem RequestHandler.respond_agrees (h : routing.Agrees routing') :
    RequestHandler.respond routing = RequestHandler.respond routing' := by
  have hanswer : RequestHandler.answer routing = RequestHandler.answer routing' := by
    funext query transport deadline
    unfold answer
    rw [h.select]
  funext wire transport deadline
  unfold respond respondInner
  rw [hanswer, h.hasUpstreams]

/-- Tables that agree make the same workers for UDP. -/
theorem udpWorker_agrees (h : routing.Agrees routing') :
    udpWorker routing = udpWorker routing' := by
  unfold udpWorker
  congr 1
  funext job w
  unfold UdpWorker.handle
  rw [RequestHandler.respond_agrees h]

/-- Tables that agree make the same workers for TCP. -/
theorem tcpWorker_agrees (h : routing.Agrees routing') :
    tcpWorker routing = tcpWorker routing' := by
  have hhandler : RequestHandler.handler routing = RequestHandler.handler routing' := by
    unfold RequestHandler.handler
    congr 1
    rw [RequestHandler.respond_agrees h]
  unfold tcpWorker
  congr 1
  funext job w
  unfold TcpWorker.handle
  rw [hhandler]

/-- The service sees its routing table through its workers only. -/
theorem Service.step_agrees (h : routing.Agrees routing') (server : Server) :
    Service.step { server with routing := routing } =
      Service.step { server with routing := routing' } := by
  -- Only these three pass the routing table on.
  have hudp : Service.onUdp { server with routing := routing } =
      Service.onUdp { server with routing := routing' } := by
    funext a s
    show ((s.udp.step (udpWorker routing) server.createUdp a).map _) = _
    rw [udpWorker_agrees h]
    rfl
  have htcp : Service.onTcp { server with routing := routing } =
      Service.onTcp { server with routing := routing' } := by
    funext a s
    show ((s.tcp.step (tcpWorker routing) server.createTcp a).map _) = _
    rw [tcpWorker_agrees h]
    rfl
  have hleave : Service.leaveTcp { server with routing := routing } =
      Service.leaveTcp { server with routing := routing' } := by
    funext error s
    unfold Service.leaveTcp
    rw [htcp]
  funext s a
  unfold Service.step
  cases a <;> simp only [mainStep, listenerStep, hudp, htcp, hleave]

end

namespace Config

/-- The order of keys, routes and local records in a configuration file does not matter. If one file
is accepted then so is the other. They have the same listener, and every step of the service is the
same with either of them. -/
theorem parse_reordered {f : Formats} {toml : String → Except String Table} {text text' : String}
    {table table' : Table} (htable : toml text = .ok table) (htable' : toml text' = .ok table')
    (hreordered : table.Reordered table') {config : Config}
    (hparse : parse f toml text = .ok config) :
    ∃ config', parse f toml text' = .ok config' ∧ config'.listen = config.listen ∧
      ∀ server : Server, Service.step { server with routing := config'.routing } =
        Service.step { server with routing := config.routing } := by
  obtain ⟨table₀, htable₀, hmeans⟩ := bind_eq_ok.mp hparse
  rw [htable] at htable₀
  cases htable₀
  obtain ⟨config', hmeans', hlisten, hagrees⟩ :=
    (parseTable_eq_ok_iff.mp hmeans).reordered hreordered
  refine ⟨config', ?_, hlisten, Service.step_agrees hagrees⟩
  exact bind_eq_ok.mpr
    ⟨table', mapError_eq_ok.mpr htable', parseTable_eq_ok_iff.mpr hmeans'⟩

/-- A route of the example file. -/
def labRoute : Value :=
  .table [(spanned 0 "domain", .string "LAB.test."),
    (spanned 20 "servers", .array [.string "[2001:db8::1]"])]

/-- A longer suffix. -/
def innerRoute : Value :=
  .table [(spanned 40 "domain", .string "a.lab.test"),
    (spanned 60 "servers", .array [.string "192.0.2.53"])]

/-- The same route, with its keys in another order. -/
def innerRoute' : Value :=
  .table [(spanned 40 "servers", .array [.string "192.0.2.53"]),
    (spanned 60 "domain", .string "a.lab.test")]

/-- The entry for the listener. -/
def listenEntry : Toml.Key × Value := (spanned 80 "listen", .string "127.0.0.1:5300")

/-- The `toml` crate on a file and on the same file in another order. -/
def twoFiles (text : String) : Except String Table :=
  if text = "one" then .ok [listenEntry, (spanned 90 "route", .array [labRoute, innerRoute])]
  else .ok [(spanned 0 "route", .array [innerRoute', labRoute]), listenEntry]

/-- Two files with the same entries in another order. -/
theorem parse_reordered_twoFiles : ∃ config config',
    parse homeFormats twoFiles "one" = .ok config ∧
      parse homeFormats twoFiles "other" = .ok config' ∧ config'.listen = config.listen := by
  have haccepted : (parse homeFormats twoFiles "one").isOk = true := by decide +kernel
  have hroute : Value.Alike innerRoute innerRoute' :=
    .table (Toml.Table.same_of_perm (.swap ..) (by decide))
  have hreordered : Toml.Table.Reordered
      [listenEntry, (spanned 90 "route", .array [labRoute, innerRoute])]
      [(spanned 0 "route", .array [innerRoute', labRoute]), listenEntry] := by
    -- Neither file has a default or local records.
    refine ⟨.some (.array (.swap ..) (.cons hroute (.cons (.refl _) .nil))), .none, .none, ?_⟩
    intro key hkey _ _
    by_cases hlisten : key = "listen"
    · subst hlisten
      rfl
    · have hnone : ∀ entry ∈ ["listen", "route"], entry ≠ key := by
        simp [Ne.symm hlisten, Ne.symm hkey]
      have hunmapped : ∀ table : Table, (∀ entry ∈ table, entry.1.text ∈ ["listen", "route"]) →
          table.get key = none :=
        fun table htable => Toml.Table.get_eq_none_iff.mpr fun entry hentry =>
          hnone _ (htable entry hentry)
      rw [hunmapped _ (by simp [listenEntry, spanned]),
        hunmapped _ (by simp [listenEntry, spanned])]
  cases hparse : parse homeFormats twoFiles "one" with
  | error e =>
    rw [hparse] at haccepted
    cases haccepted
  | ok config =>
    have hother : twoFiles "other" =
        .ok [(spanned 0 "route", .array [innerRoute', labRoute]), listenEntry] := rfl
    obtain ⟨config', hparse', hlisten, -⟩ := parse_reordered rfl hother hreordered hparse
    exact ⟨config, config', rfl, hparse', hlisten⟩

end Config

end Sederial
