import Sederial.Routing
import Mathlib.Data.List.Pairwise

/-!
# `Sederial.Proofs.LongestMatch`: longest-suffix selection

The abstract policy of a routing table is a set of rules, each with a suffix. A rule
matches a name when its suffix is an ancestor of the name or the name itself, by complete
labels and ignoring ASCII case. `IsLongest rules name rule` says that `rule` is the only
matching rule with the most labels.

`RoutingTable.select_cases` shows that `select` returns that rule, and the default only
when no rule matches. It rests on two facts. The first hit of a list sorted by label count
has the most labels of that list (`find?_size_max`). Two suffixes of one name with the same
number of labels are equal (`isSuffix_eq_of_length_eq`), and a table has no two equal
suffixes.
-/

set_option autoImplicit false

namespace Sederial

open Sederial.Dns (DomainName)
open Sederial.Lib

/-- A configured rule. -/
inductive Rule where
  | route (route : Route)
  | localRecord (record : LocalRecord)
  deriving DecidableEq

namespace Rule

/-- The suffix that a rule is about. -/
def suffix : Rule → DomainName
  | .route r => r.suffix
  | .localRecord r => r.suffix

/-- The selection that names a rule. -/
def selection : Rule → Selection
  | .route r => .routed r
  | .localRecord r => .localRecord r

/-- The suffix of the rule is the name or an ancestor of it, by complete labels. -/
def Matches (rule : Rule) (name : DomainName) : Prop :=
  rule.suffix.folded <:+ name.folded

/-- Whether a rule matches can be decided. -/
instance (rule : Rule) (name : DomainName) : Decidable (rule.Matches name) :=
  inferInstanceAs (Decidable (rule.suffix.folded <:+ name.folded))

/-- A selection names one rule at most. -/
theorem selection_injective {a b : Rule} (h : a.selection = b.selection) : a = b := by
  cases a with
  | route a =>
      cases b with
      | route b =>
          cases h
          rfl
      | localRecord b => cases h
  | localRecord a =>
      cases b with
      | route b => cases h
      | localRecord b =>
          cases h
          rfl

end Rule

/-- The rules of a configuration. -/
def rulesOf (routes : List Route) (localRecords : List LocalRecord) : List Rule :=
  routes.map Rule.route ++ localRecords.map Rule.localRecord

/-- `rule` matches, and every other rule that matches has fewer labels. -/
structure IsLongest (rules : List Rule) (name : DomainName) (rule : Rule) : Prop where
  mem : rule ∈ rules
  matches_ : rule.Matches name
  longest : ∀ other ∈ rules, other.Matches name → other ≠ rule →
    other.suffix.labelCount < rule.suffix.labelCount

/-- Two longest rules for a name are the same. -/
theorem IsLongest.unique {rules : List Rule} {name : DomainName} {a b : Rule}
    (ha : IsLongest rules name a) (hb : IsLongest rules name b) : a = b := by
  by_contra hne
  have hab := ha.longest b hb.mem hb.matches_ (Ne.symm hne)
  have hba := hb.longest a ha.mem ha.matches_ hne
  omega

/-- A permutation of the configuration has the same rules. -/
theorem mem_rulesOf_iff_of_perm {routes routes' : List Route}
    {localRecords localRecords' : List LocalRecord} (hr : routes.Perm routes')
    (hl : localRecords.Perm localRecords') (rule : Rule) :
    rule ∈ rulesOf routes localRecords ↔ rule ∈ rulesOf routes' localRecords' :=
  ((hr.map Rule.route).append (hl.map Rule.localRecord)).mem_iff

/-- Which rule is the longest depends on the set of the rules only. -/
theorem isLongest_congr {rules rules' : List Rule} (h : ∀ rule, rule ∈ rules ↔ rule ∈ rules')
    {name : DomainName} {rule : Rule} :
    IsLongest rules name rule ↔ IsLongest rules' name rule := by
  constructor
  · rintro ⟨hmem, hmatch, hlongest⟩
    exact ⟨(h rule).mp hmem, hmatch, fun other ho => hlongest other ((h other).mpr ho)⟩
  · rintro ⟨hmem, hmatch, hlongest⟩
    exact ⟨(h rule).mpr hmem, hmatch, fun other ho => hlongest other ((h other).mp ho)⟩

/-- No two suffixes are equal ignoring ASCII case. -/
def DifferentSuffixes (routes : List Route) (localRecords : List LocalRecord) : Prop :=
  (rulesOf routes localRecords).Pairwise fun a b => a.suffix.folded ≠ b.suffix.folded

/-- The check of the suffixes is exact. -/
theorem distinctSuffixes_iff (routes : List Route) (localRecords : List LocalRecord) :
    DistinctSuffixes routes localRecords ↔ DifferentSuffixes routes localRecords := by
  have hsuffixes : routes.map Route.suffix ++ localRecords.map LocalRecord.suffix
      = (rulesOf routes localRecords).map Rule.suffix := by
    rw [rulesOf, List.map_append, List.map_map, List.map_map]
    rfl
  unfold DistinctSuffixes DifferentSuffixes
  rw [hsuffixes, List.pairwise_map]
  refine List.Pairwise.iff fun {a b} => ?_
  rw [Bool.eq_false_iff, ne_eq, DomainName.beq_iff]

/-- In a configuration without equal suffixes, a suffix determines its rule. -/
theorem DifferentSuffixes.eq_of_folded_eq {routes : List Route}
    {localRecords : List LocalRecord} (h : DifferentSuffixes routes localRecords) {a b : Rule}
    (ha : a ∈ rulesOf routes localRecords) (hb : b ∈ rulesOf routes localRecords)
    (heq : a.suffix.folded = b.suffix.folded) : a = b := by
  by_contra hne
  have : Std.Symm fun a b : Rule => a.suffix.folded ≠ b.suffix.folded := ⟨fun _ _ => Ne.symm⟩
  exact List.Pairwise.forall h ha hb hne heq

namespace RoutingTable

/-- The rules of a table, in lookup order. -/
def rules (table : RoutingTable) : List Rule := rulesOf table.routes table.localRecords

variable {table : RoutingTable} {name : DomainName}

/-- Two matching rules with the same number of labels are the same rule. -/
theorem eq_of_matches (table : RoutingTable) {a b : Rule} (ha : a ∈ table.rules)
    (hb : b ∈ table.rules) (hma : a.Matches name) (hmb : b.Matches name)
    (hcount : a.suffix.labelCount = b.suffix.labelCount) : a = b := by
  have hdifferent := (distinctSuffixes_iff _ _).mp table.distinct
  refine hdifferent.eq_of_folded_eq ha hb (isSuffix_eq_of_length_eq hma hmb ?_)
  rw [DomainName.length_folded, DomainName.length_folded, hcount]

/-- A matching rule with at least as many labels as every other one is the longest. -/
theorem isLongest_of_max {rule : Rule} (hmem : rule ∈ table.rules)
    (hmatch : rule.Matches name)
    (hmax : ∀ other ∈ table.rules, other.Matches name →
      other.suffix.labelCount ≤ rule.suffix.labelCount) : IsLongest table.rules name rule := by
  refine ⟨hmem, hmatch, fun other ho hm hne => ?_⟩
  refine Nat.lt_of_le_of_ne (hmax other ho hm) fun hcount => hne ?_
  exact table.eq_of_matches ho hmem hm hmatch hcount

/-- The routes of a table are its rules about routes. -/
theorem mem_rules_route {r : Route} : Rule.route r ∈ table.rules ↔ r ∈ table.routes := by
  simp [rules, rulesOf]

/-- The local records of a table are its rules about local records. -/
theorem mem_rules_localRecord {r : LocalRecord} :
    Rule.localRecord r ∈ table.rules ↔ r ∈ table.localRecords := by
  simp [rules, rulesOf]

/-- The first matching route has the most labels of all matching routes. -/
theorem find?_route {r : Route}
    (h : table.routes.find? (fun route => name.isSubdomainOf route.suffix) = some r) :
    Rule.route r ∈ table.rules ∧ (Rule.route r).Matches name ∧
      ∀ r' ∈ table.routes, (Rule.route r').Matches name →
        r'.suffix.labelCount ≤ r.suffix.labelCount := by
  refine ⟨mem_rules_route.mpr (List.mem_of_find?_eq_some h), ?_, fun r' hr' hm => ?_⟩
  · have hsub := List.find?_some h
    exact (DomainName.isSubdomainOf_iff _ _).mp hsub
  · exact find?_size_max (fun route : Route => route.suffix.labelCount) _ table.routesSorted h r'
      hr' ((DomainName.isSubdomainOf_iff _ _).mpr hm)

/-- The first matching local record has the most labels of all matching local records. -/
theorem find?_localRecord {r : LocalRecord}
    (h : table.localRecords.find? (fun record => name.isSubdomainOf record.suffix) = some r) :
    Rule.localRecord r ∈ table.rules ∧ (Rule.localRecord r).Matches name ∧
      ∀ r' ∈ table.localRecords, (Rule.localRecord r').Matches name →
        r'.suffix.labelCount ≤ r.suffix.labelCount := by
  refine ⟨mem_rules_localRecord.mpr (List.mem_of_find?_eq_some h), ?_, fun r' hr' hm => ?_⟩
  · have hsub := List.find?_some h
    exact (DomainName.isSubdomainOf_iff _ _).mp hsub
  · exact find?_size_max (fun record : LocalRecord => record.suffix.labelCount) _
      table.localSorted h r' hr' ((DomainName.isSubdomainOf_iff _ _).mpr hm)

/-- A search among the routes that finds nothing has seen that none matches. -/
theorem not_matches_of_find?_route
    (h : table.routes.find? (fun route => name.isSubdomainOf route.suffix) = none) :
    ∀ r ∈ table.routes, ¬ (Rule.route r).Matches name := by
  intro r hr hm
  exact List.find?_eq_none.mp h r hr ((DomainName.isSubdomainOf_iff _ _).mpr hm)

/-- A search among the local records that finds nothing has seen that none matches. -/
theorem not_matches_of_find?_localRecord
    (h : table.localRecords.find? (fun record => name.isSubdomainOf record.suffix) = none) :
    ∀ r ∈ table.localRecords, ¬ (Rule.localRecord r).Matches name := by
  intro r hr hm
  exact List.find?_eq_none.mp h r hr ((DomainName.isSubdomainOf_iff _ _).mpr hm)

/-- The route and the record that `select` compares never have the same number of
labels. -/
theorem labelCount_ne_of_find? {route : Route} {record : LocalRecord}
    (hroute : table.routes.find? (fun route => name.isSubdomainOf route.suffix) = some route)
    (hrecord : table.localRecords.find? (fun record => name.isSubdomainOf record.suffix)
      = some record) : route.suffix.labelCount ≠ record.suffix.labelCount := by
  obtain ⟨hmem, hmatch, -⟩ := find?_route hroute
  obtain ⟨hmem', hmatch', -⟩ := find?_localRecord hrecord
  intro hcount
  cases table.eq_of_matches hmem hmem' hmatch hmatch' hcount

/-- What `select` returns: the longest matching rule, or the default when none matches. -/
theorem select_cases (table : RoutingTable) (name : DomainName) :
    (∃ rule, table.select name = rule.selection ∧ IsLongest table.rules name rule) ∨
      ((∀ rule ∈ table.rules, ¬ rule.Matches name) ∧
        table.select name = table.default.elim .unmatched .default) := by
  unfold select
  simp only
  split
  · rename_i route record hroute hrecord
    obtain ⟨hmem, hmatch, hmax⟩ := find?_route hroute
    obtain ⟨hmem', hmatch', hmax'⟩ := find?_localRecord hrecord
    -- `select` compares with `>`, but a tie cannot happen.
    have hne := labelCount_ne_of_find? hroute hrecord
    split
    · refine .inl ⟨.route route, rfl, isLongest_of_max hmem hmatch fun other ho hm => ?_⟩
      cases other with
      | route r => exact hmax r (mem_rules_route.mp ho) hm
      | localRecord r =>
          have := hmax' r (mem_rules_localRecord.mp ho) hm
          simp only [Rule.suffix]
          omega
    · refine .inl ⟨.localRecord record, rfl, isLongest_of_max hmem' hmatch' fun other ho hm => ?_⟩
      cases other with
      | route r =>
          have := hmax r (mem_rules_route.mp ho) hm
          simp only [Rule.suffix]
          omega
      | localRecord r => exact hmax' r (mem_rules_localRecord.mp ho) hm
  · rename_i record hroute hrecord
    obtain ⟨hmem, hmatch, hmax⟩ := find?_localRecord hrecord
    refine .inl ⟨.localRecord record, rfl, isLongest_of_max hmem hmatch fun other ho hm => ?_⟩
    cases other with
    | route r => exact absurd hm (not_matches_of_find?_route hroute r (mem_rules_route.mp ho))
    | localRecord r => exact hmax r (mem_rules_localRecord.mp ho) hm
  · rename_i route hroute hrecord
    obtain ⟨hmem, hmatch, hmax⟩ := find?_route hroute
    refine .inl ⟨.route route, rfl, isLongest_of_max hmem hmatch fun other ho hm => ?_⟩
    cases other with
    | route r => exact hmax r (mem_rules_route.mp ho) hm
    | localRecord r =>
        exact absurd hm
          (not_matches_of_find?_localRecord hrecord r (mem_rules_localRecord.mp ho))
  · rename_i hroute hrecord
    refine .inr ⟨fun rule hr => ?_, ?_⟩
    · cases rule with
      | route r => exact not_matches_of_find?_route hroute r (mem_rules_route.mp hr)
      | localRecord r =>
          exact not_matches_of_find?_localRecord hrecord r (mem_rules_localRecord.mp hr)
    · cases table.default with
      | none => rfl
      | some group => rfl

/-- A rule is not selected by default. -/
theorem selection_ne_default (rule : Rule) (default : Option UpstreamGroup) :
    rule.selection ≠ default.elim .unmatched .default := by
  cases rule <;> cases default <;> simp [Rule.selection]

/-- `select` names a rule exactly when it is the longest match. -/
theorem select_eq_selection_iff {rule : Rule} :
    table.select name = rule.selection ↔ IsLongest table.rules name rule := by
  rcases table.select_cases name with ⟨best, hselect, hbest⟩ | ⟨hnone, hselect⟩
  · rw [hselect]
    constructor
    · intro h
      exact Rule.selection_injective h ▸ hbest
    · intro h
      rw [hbest.unique h]
  · rw [hselect]
    constructor
    · intro h
      exact absurd h.symm (selection_ne_default _ _)
    · intro h
      exact absurd h.matches_ (hnone rule h.mem)

/-- `select` falls back to the default exactly when no rule matches. -/
theorem select_eq_default_iff :
    table.select name = table.default.elim .unmatched .default ↔
      ∀ rule ∈ table.rules, ¬ rule.Matches name := by
  rcases table.select_cases name with ⟨best, hselect, hbest⟩ | ⟨hnone, hselect⟩
  · rw [hselect]
    constructor
    · intro h
      exact absurd h (selection_ne_default _ _)
    · intro h
      exact absurd hbest.matches_ (h best hbest.mem)
  · exact ⟨fun _ => hnone, fun _ => hselect⟩

/-- The default group is selected exactly when no rule matches and there is one. -/
theorem select_eq_group_iff {group : UpstreamGroup} :
    table.select name = .default group ↔
      table.default = some group ∧ ∀ rule ∈ table.rules, ¬ rule.Matches name := by
  constructor
  · intro h
    rcases table.select_cases name with ⟨best, hselect, -⟩ | ⟨hnone, hselect⟩
    · rw [h] at hselect
      cases best <;> cases hselect
    · refine ⟨?_, hnone⟩
      rw [h] at hselect
      cases hdefault : table.default with
      | none =>
          rw [hdefault] at hselect
          cases hselect
      | some group' =>
          rw [hdefault] at hselect
          cases hselect
          rfl
  · rintro ⟨hdefault, hnone⟩
    rw [select_eq_default_iff.mpr hnone, hdefault]
    rfl

/-- Nothing is selected exactly when no rule matches and there is no default group. -/
theorem select_eq_unmatched_iff :
    table.select name = .unmatched ↔
      table.default = none ∧ ∀ rule ∈ table.rules, ¬ rule.Matches name := by
  constructor
  · intro h
    rcases table.select_cases name with ⟨best, hselect, -⟩ | ⟨hnone, hselect⟩
    · rw [h] at hselect
      cases best <;> cases hselect
    · refine ⟨?_, hnone⟩
      rw [h] at hselect
      cases hdefault : table.default with
      | none => rfl
      | some group =>
          rw [hdefault] at hselect
          cases hselect
  · rintro ⟨hdefault, hnone⟩
    rw [select_eq_default_iff.mpr hnone, hdefault]
    rfl

/-- Two tables with the same rules and the same default select alike, also for names that
differ only in ASCII case. -/
theorem select_congr {table' : RoutingTable} {name' : DomainName}
    (hdefault : table.default = table'.default)
    (hrules : ∀ rule, rule ∈ table.rules ↔ rule ∈ table'.rules)
    (hname : name.folded = name'.folded) : table.select name = table'.select name' := by
  rcases table.select_cases name with ⟨best, hselect, hbest⟩ | ⟨hnone, hselect⟩
  · rw [hselect, eq_comm, select_eq_selection_iff, ← isLongest_congr hrules]
    refine ⟨hbest.mem, ?_, fun other ho hm => hbest.longest other ho ?_⟩
    · rw [Rule.Matches, ← hname]
      exact hbest.matches_
    · rw [Rule.Matches, hname]
      exact hm
  · rw [hselect, hdefault, eq_comm, select_eq_default_iff]
    intro rule hr hm
    refine hnone rule ((hrules rule).mpr hr) ?_
    rw [Rule.Matches, hname]
    exact hm

/-! ### Tables built from a configuration -/

/-- `new` succeeds exactly on configurations without equal suffixes, and then keeps the
rules and the default. -/
theorem new_eq_ok_iff {default : Option UpstreamGroup} {routes : List Route}
    {localRecords : List LocalRecord} :
    (∃ table, new default routes localRecords = .ok table) ↔
      DifferentSuffixes routes localRecords := by
  rw [← distinctSuffixes_iff, ← firstClash_eq_none_iff_distinct]
  unfold new
  constructor
  · rintro ⟨table, h⟩
    split at h
    · cases h
    · rename_i hroutes
      split at h
      · cases h
      · rename_i hlocal
        exact ⟨hroutes, hlocal⟩
  · rintro ⟨hroutes, hlocal⟩
    split
    · rename_i h
      rw [hroutes] at h
      cases h
    · split
      · rename_i h
        rw [hlocal] at h
        cases h
      · exact ⟨_, rfl⟩

/-- What a table is built from is in it. -/
theorem of_new_eq_ok {default : Option UpstreamGroup} {routes : List Route}
    {localRecords : List LocalRecord} (h : new default routes localRecords = .ok table) :
    table.default = default ∧ table.routes.Perm routes ∧
      table.localRecords.Perm localRecords := by
  unfold new at h
  split at h
  · cases h
  · split at h
    · cases h
    · cases h
      exact ⟨rfl, sortByKeyDesc_perm _ _, sortByKeyDesc_perm _ _⟩

/-- Longest-suffix selection. A table exists exactly when all suffixes differ ignoring
case. It selects the longest matching rule, and the default or nothing when no rule
matches. The order of the configuration and the case of the name do not matter, and the
two candidates `select` compares never tie. -/
theorem select_longest (default : Option UpstreamGroup) (routes : List Route)
    (localRecords : List LocalRecord) :
    ((∃ table, new default routes localRecords = .ok table) ↔
        DifferentSuffixes routes localRecords) ∧
      ∀ table, new default routes localRecords = .ok table →
        (∀ name,
          (∀ rule, table.select name = rule.selection ↔
            IsLongest (rulesOf routes localRecords) name rule) ∧
          (∀ group, table.select name = .default group ↔
            default = some group ∧ ∀ rule ∈ rulesOf routes localRecords, ¬ rule.Matches name) ∧
          (table.select name = .unmatched ↔
            default = none ∧ ∀ rule ∈ rulesOf routes localRecords, ¬ rule.Matches name)) ∧
        (∀ name name' : DomainName, (name == name') = true →
          table.select name = table.select name') ∧
        (∀ routes' localRecords', routes'.Perm routes → localRecords'.Perm localRecords →
          ∃ table', new default routes' localRecords' = .ok table' ∧
            ∀ name, table'.select name = table.select name) ∧
        (∀ (name : DomainName) route record,
          table.routes.find? (fun r => name.isSubdomainOf r.suffix) = some route →
          table.localRecords.find? (fun r => name.isSubdomainOf r.suffix) = some record →
            route.suffix.labelCount ≠ record.suffix.labelCount) := by
  refine ⟨new_eq_ok_iff, fun table h => ?_⟩
  obtain ⟨hdefault, hroutes, hlocal⟩ := of_new_eq_ok h
  have hrules : ∀ rule, rule ∈ table.rules ↔ rule ∈ rulesOf routes localRecords :=
    mem_rulesOf_iff_of_perm hroutes hlocal
  have hnomatch : ∀ name, (∀ rule ∈ table.rules, ¬ rule.Matches name) ↔
      ∀ rule ∈ rulesOf routes localRecords, ¬ rule.Matches name :=
    fun name => forall_congr' fun rule => by rw [hrules]
  refine ⟨fun name => ⟨fun rule => ?_, fun group => ?_, ?_⟩, fun name name' hname => ?_,
    fun routes' localRecords' hr hl => ?_, fun name route record => labelCount_ne_of_find?⟩
  · rw [select_eq_selection_iff, isLongest_congr hrules]
  · rw [← hnomatch, ← hdefault, select_eq_group_iff]
  · rw [← hnomatch, ← hdefault, select_eq_unmatched_iff]
  · exact select_congr rfl (fun _ => Iff.rfl) ((DomainName.beq_iff _ _).mp hname)
  -- A permuted configuration has the same rules, so it is accepted and selects the same.
  · have hdifferent : DifferentSuffixes routes' localRecords' :=
      (distinctSuffixes_iff _ _).mp
        (((distinctSuffixes_iff _ _).mpr (new_eq_ok_iff.mp ⟨table, h⟩)).perm hr.symm hl.symm)
    obtain ⟨table', h'⟩ := new_eq_ok_iff.mpr hdifferent
    obtain ⟨hdefault', hroutes', hlocal'⟩ := of_new_eq_ok h'
    refine ⟨table', h', fun name => select_congr (hdefault'.trans hdefault.symm) ?_ rfl⟩
    exact mem_rulesOf_iff_of_perm ((hroutes'.trans hr).trans hroutes.symm)
      ((hlocal'.trans hl).trans hlocal.symm)

/-- The default server, at 198.51.100.1. -/
def outerGroup : UpstreamGroup where
  servers := [{
    socket := SocketAddr.new (.v4 ⟨198, 51, 100, 1⟩) 53
    canonical := by decide
    port_ne_zero := by decide
    specified := by decide
    unicast := by decide
    not_broadcast := by decide }]
  nonempty := by decide
  bounded := by decide
  distinct := by decide

/-- The server at 10.0.0.1. -/
def lanServer : UpstreamAddress where
  socket := SocketAddr.new (.v4 ⟨10, 0, 0, 1⟩) 53
  canonical := by decide
  port_ne_zero := by decide
  specified := by decide
  unicast := by decide
  not_broadcast := by decide

/-- The server at 10.0.0.2. -/
def spareServer : UpstreamAddress where
  socket := SocketAddr.new (.v4 ⟨10, 0, 0, 2⟩) 53
  canonical := by decide
  port_ne_zero := by decide
  specified := by decide
  unicast := by decide
  not_broadcast := by decide

/-- The group of both servers. -/
def lanGroup : UpstreamGroup where
  servers := [lanServer, spareServer]
  nonempty := by decide
  bounded := by decide
  distinct := by decide

/-- The group of the second server alone. -/
def spareGroup : UpstreamGroup where
  servers := [spareServer]
  nonempty := by decide
  bounded := by decide
  distinct := by decide

/-- A route for `lan`. -/
def lanRoute : Route := ⟨⟨[[0x6c, 0x61, 0x6e]]⟩, lanGroup⟩

/-- A local record for `a.lan`. -/
def nestedRecord : LocalRecord := ⟨⟨[[0x61], [0x6c, 0x61, 0x6e]]⟩, ⟨192, 0, 2, 1⟩, 60⟩

/-- A route for `b.a.lan`. -/
def deepRoute : Route := ⟨⟨[[0x62], [0x61], [0x6c, 0x61, 0x6e]]⟩, spareGroup⟩

/-- A record below a route and above another one: each name gets the longest of the three that
match it. The names are `c.B.A.LAN`, `c.A.LAN`, `c.LAN` and `c`. -/
theorem select_longest_nested :
    ∃ table, new (some outerGroup) [lanRoute, deepRoute] [nestedRecord] = .ok table ∧
      table.select ⟨[[0x63], [0x42], [0x41], [0x4c, 0x41, 0x4e]]⟩ = .routed deepRoute ∧
      table.select ⟨[[0x63], [0x41], [0x4c, 0x41, 0x4e]]⟩ = .localRecord nestedRecord ∧
      table.select ⟨[[0x63], [0x4c, 0x41, 0x4e]]⟩ = .routed lanRoute ∧
      table.select ⟨[[0x63]]⟩ = .default outerGroup := by
  obtain ⟨hnew, hselect⟩ := select_longest (some outerGroup) [lanRoute, deepRoute] [nestedRecord]
  obtain ⟨table, htable⟩ := hnew.mpr (by unfold DifferentSuffixes; decide)
  have hchoice := (hselect table htable).1
  refine ⟨table, htable, ?_, ?_, ?_, ?_⟩
  · exact ((hchoice _).1 (.route deepRoute)).mpr ⟨by decide, by decide, by decide⟩
  · exact ((hchoice _).1 (.localRecord nestedRecord)).mpr ⟨by decide, by decide, by decide⟩
  · exact ((hchoice _).1 (.route lanRoute)).mpr ⟨by decide, by decide, by decide⟩
  · exact ((hchoice _).2.1 outerGroup).mpr ⟨rfl, by decide⟩

end RoutingTable

end Sederial
