import Sederial.Proofs.ParserExact

/-!
# `Sederial.Proofs.ReplyContext`: what a failed parse leaves for the reply

When a client message does not parse, the reply is made from what the parser had seen: the
header, and after an OPT failure also the question and the OPT fields.
`ReplyContext.Faithful` says that all of it really stands in the message, and
`context_faithful` proves it for every failed parse.

`OptIdentified` is the notion of an OPT record in a message that need not parse: behind the
counted questions and some well-formed records stands the envelope of the first OPT record.
In a message that parses, its OPT record is identified in this sense
(`Derives.optIdentified`).
-/

set_option autoImplicit false

namespace Sederial.Dns

open Sederial.Lib

/-- The walk over the counted items of a message has come to `n`: behind the header stand all
its questions and the records `before`, and the sections of the records to come are `rest`. -/
structure WalkedTo (wire : List UInt8) (header : Header) (before : List RecordView)
    (rest : List RecordSection) (n : Nat) : Prop where
  headerAt : HeaderAt wire header
  tiles : ∃ questions m, Tiles (QuestionAt wire) headerLength questions m ∧
    questions.length = header.counts.questions.toNat ∧ Tiles (RecordAt wire) m before n
  sections : before.map RecordView.section_ ++ rest = header.counts.sections

/-- The next record of a message is its first OPT record: it belongs to the additional section,
its owner is the root, and its type is OPT. The data of the record may be anything. -/
def OptIdentified (wire : List UInt8) : Prop :=
  ∃ header before rest n fixedAt kind class_ ttl length,
    WalkedTo wire header before (.additional :: rest) n ∧ (∀ v ∈ before, v.isOpt = false) ∧
      EnvelopeAt wire n fixedAt [] kind class_ ttl length ∧ RecordType.fromWire kind = .opt

/-- The fields of the first OPT record of a message, which is identified in the sense of
`OptIdentified`. -/
def FirstOpt (wire : List UInt8) (edns : Edns) : Prop :=
  ∃ header before rest n fixedAt kind class_ ttl length,
    WalkedTo wire header before (.additional :: rest) n ∧ (∀ v ∈ before, v.isOpt = false) ∧
      EnvelopeAt wire n fixedAt [] kind class_ ttl length ∧ RecordType.fromWire kind = .opt ∧
      edns = Edns.ofRecord class_ ttl

/-- A message with a first OPT record is identified by it. -/
theorem FirstOpt.optIdentified {wire : List UInt8} {edns : Edns} (h : FirstOpt wire edns) :
    OptIdentified wire := by
  obtain ⟨_, _, _, _, _, _, _, _, _, hreached, hbefore, henvelope, hopt, -⟩ := h
  exact ⟨_, _, _, _, _, _, _, _, _, hreached, hbefore, henvelope, hopt⟩

/-- An OPT record of a derivation is identified. -/
theorem Derives.optIdentified {wire : List UInt8} {d : Derivation} (h : Derives wire d)
    (hopt : d.opt.isSome) : OptIdentified wire := by
  obtain ⟨opt, hfind⟩ := Option.isSome_iff_exists.mp hopt
  obtain ⟨hkind, before, after, hrecords, hbefore⟩ := List.find?_eq_some_iff_append.mp hfind
  have hkind : opt.kind = .opt := of_decide_eq_true hkind
  obtain ⟨m, hquestions, htiles⟩ := h.tiles
  have hsections := h.sections
  rw [hrecords] at htiles hsections
  obtain ⟨n, htilesBefore, htiles⟩ := tiles_append_iff.mp htiles
  obtain ⟨rfl, hat, -⟩ := tiles_cons_iff.mp htiles
  obtain ⟨labels, howner, hroot⟩ := hat.owner
  obtain rfl := hroot hkind
  obtain ⟨kind, hword, hfrom⟩ := Option.map_eq_some_iff.mp hat.kind
  rw [List.map_append, List.map_cons, hat.section_ hkind] at hsections
  exact ⟨d.header, before, _, _, _, kind, _, _, _,
    ⟨h.header, ⟨_, m, hquestions, h.questionCount, htilesBefore⟩, hsections⟩,
    fun v hv => by simpa using hbefore v hv,
    ⟨howner, hword, hat.classWire, hat.ttl, hat.length⟩, hfrom.trans hkind⟩

namespace ReplyContext

/-- Everything in the context stands in the message. -/
structure Faithful (wire : List UInt8) (context : ReplyContext) : Prop where
  header : HeaderAt wire context.header
  query : context.header.messageType = .query
  question : ∀ q ∈ context.question, q.name.Valid
  opt : context.edns.isSome → OptIdentified wire

end ReplyContext

open ReplyContext (Faithful)

/-- The invariant of the parser's reply context. -/
def FaithfulIfSome (wire : List UInt8) (context : Option ReplyContext) : Prop :=
  ∀ c, context = some c → Faithful wire c

section

variable {wire : List UInt8}

/-- The parser stands before the records of the sections `rest`, and its OPT fields are empty
only when it has seen no OPT record. -/
def Walk.Before (wire : List UInt8) (header : Header) (rest : List RecordSection)
    (walk : Walk) : Prop :=
  ∃ seen, WalkedTo wire header seen rest walk.cursor ∧
    (walk.edns = none → ∀ v ∈ seen, v.isOpt = false)

variable {header : Header} {rest : List RecordSection}

/-- A record that was read extends what was reached. -/
theorem Walk.Before.after {walk : Walk} {v : RecordView}
    (h : walk.Before wire header (v.section_ :: rest)) (hv : RecordAt wire v)
    (hstart : v.start = walk.cursor) : (walk.after v).Before wire header rest := by
  obtain ⟨seen, hreached, hseen⟩ := h
  obtain ⟨questions, m, hquestions, hcount, hrecords⟩ := hreached.tiles
  refine ⟨seen ++ [v], ⟨hreached.headerAt, ⟨questions, m, hquestions, hcount, ?_⟩, ?_⟩, ?_⟩
  · refine tiles_append_iff.mpr ⟨_, hrecords, ?_⟩
    exact tiles_cons_iff.mpr ⟨hstart.symm, hv, tiles_nil_iff.mpr rfl⟩
  · rw [List.map_append, List.append_assoc]
    exact hreached.sections
  · intro hnone w hw
    have hopt : v.isOpt = false ∧ walk.edns = none := by
      simp only [Walk.after] at hnone
      split at hnone
      · cases hnone
      · exact ⟨Bool.eq_false_iff.mpr ‹_›, hnone⟩
    rcases List.mem_append.mp hw with hw | hw
    · exact hseen hopt.2 w hw
    · rw [List.mem_singleton.mp hw]
      exact hopt.1

/-- Reading the records of a section. -/
theorem Walk.Before.foldl {walk : Walk} {vs : List RecordView} {e : Nat}
    (h : walk.Before wire header (vs.map RecordView.section_ ++ rest))
    (htiles : Tiles (RecordAt wire) walk.cursor vs e) :
    (vs.foldl Walk.after walk).Before wire header rest := by
  induction vs generalizing walk with
  | nil => exact h
  | cons v vs ih =>
    obtain ⟨hstart, hv, htiles⟩ := tiles_cons_iff.mp htiles
    exact ih (h.after hv hstart.symm) htiles

/-- The invariant survives when the OPT fields of the message become part of the context. -/
def KeepsOpt (wire : List UInt8) (I : Option ReplyContext → Prop) : Prop :=
  ∀ context edns, FirstOpt wire edns → I context →
    I (context.map fun context => { context with edns := some edns })

variable {I : Option ReplyContext → Prop}

/-- Reading the OPT record keeps every invariant of the records read so far. -/
theorem parseOpt_keeps {section_ : RecordSection} {walk : Walk} {m : Nat}
    {labels : List (List UInt8)} {k c : UInt16} {t : UInt32} {l : UInt16} (hI : KeepsOpt wire I)
    (hbefore : walk.Before wire header (section_ :: rest))
    (henvelope : EnvelopeAt wire walk.cursor m labels k c t l)
    (hopt : RecordType.fromWire k = .opt) :
    Run.Keeps I (parseOpt wire section_ walk (envelopeRecord m labels k c t l) (m + 10)) := by
  have hclass : (envelopeRecord m labels k c t l).class_ = .udpPayload c := if_pos hopt
  unfold parseOpt
  split
  · exact .throw
  · rename_i hguard
    rw [hclass]
    refine .bind (.modify fun context hcontext => ?_) fun _ _ => ?_
    · -- Behind the guard the record is the first OPT record, and its owner is the root.
      simp only [not_or, not_not, Bool.not_eq_true, Option.isSome_eq_false_iff,
        Option.isNone_iff_eq_none] at hguard
      obtain ⟨rfl, hnone, hroot⟩ := hguard
      obtain rfl : labels = [] := List.eq_nil_of_length_eq_zero hroot
      obtain ⟨seen, hreached, hseen⟩ := hbefore
      exact hI context _
        ⟨_, _, _, _, _, _, _, _, _, hreached, hseen hnone, henvelope, hopt, rfl⟩ hcontext
    · exact .bind .ofExcept fun _ _ => .bind .ofExcept fun _ _ => .pure

/-- Reading a record keeps every invariant of the records read so far. -/
theorem parseRecord_keeps {section_ : RecordSection} {walk : Walk} (hI : KeepsOpt wire I)
    (hbefore : walk.Before wire header (section_ :: rest)) :
    Run.Keeps I (parseRecord wire section_ walk) := by
  refine .bind .ofExcept ?_
  rintro ⟨record, cursor⟩ ⟨s, hrecord⟩
  obtain ⟨m, labels, k, c, t, l, henvelope, rfl, rfl⟩ :=
    Reader.resourceRecord_eq_ok_iff.mp hrecord
  refine .bind ?_ fun _ _ => .pure
  split
  · rename_i hopt
    exact parseOpt_keeps hI hbefore henvelope hopt
  · exact .bind .ofExcept fun _ _ => .bind .ofExcept fun _ _ => .pure

/-- Reading a section keeps every invariant of the records read so far. -/
theorem parseSection_keeps {section_ : RecordSection} {count : Nat} {walk : Walk}
    (hI : KeepsOpt wire I)
    (hbefore : walk.Before wire header (List.replicate count section_ ++ rest)) :
    Run.Keeps I (parseSection wire section_ count walk) := by
  induction count generalizing walk with
  | zero => exact .pure
  | succ count ih =>
    refine .bind (parseRecord_keeps hI hbefore) ?_
    rintro walk' ⟨s, hrecord⟩
    obtain ⟨v, hv, rfl, hstart, -, rfl⟩ := parseRecord_eq_ok_iff.mp hrecord
    exact ih (hbefore.after hv hstart)

/-- The record loop changes the context only by the OPT fields of the message. -/
theorem parseSections_keeps {sections : List (RecordSection × UInt16)} {walk : Walk}
    (hI : KeepsOpt wire I)
    (hbefore : walk.Before wire header
      (sections.flatMap fun (section_, count) => List.replicate count.toNat section_)) :
    Run.Keeps I (parseSections wire sections walk) := by
  induction sections generalizing walk with
  | nil => exact .pure
  | cons section_ sections ih =>
    obtain ⟨section_, count⟩ := section_
    rw [List.flatMap_cons] at hbefore
    refine .bind (parseSection_keeps hI hbefore) ?_
    rintro walk' ⟨s, hsection⟩
    obtain ⟨vs, htiles, hsections, -, rfl⟩ := parseSection_eq_ok_iff.mp hsection
    dsimp only at hbefore
    rw [← hsections] at hbefore
    exact ih (hbefore.foldl htiles)

/-- The record loop starts behind the questions, where no record has been seen. -/
theorem Walk.before_fresh {questions : List QuestionView} {cursor : Nat}
    (hheader : HeaderAt wire header)
    (htiles : Tiles (QuestionAt wire) headerLength questions cursor)
    (hcount : questions.length = header.counts.questions.toNat) :
    (Walk.fresh cursor).Before wire header header.counts.sections :=
  ⟨[], ⟨hheader, ⟨questions, cursor, htiles, hcount, tiles_nil_iff.mpr rfl⟩, rfl⟩,
    fun _ _ hv => nomatch hv⟩

/-- The context of the reply is kept by every record that is read. -/
theorem faithfulIfSome_keepsOpt : KeepsOpt wire (FaithfulIfSome wire) := by
  intro context edns hfirst hcontext c hc
  obtain ⟨context, rfl, rfl⟩ := Option.map_eq_some_iff.mp hc
  have hfaithful := hcontext context rfl
  exact ⟨hfaithful.header, hfaithful.query, hfaithful.question, fun _ => hfirst.optIdentified⟩

/-- Parsing leaves a context that is faithful to the message. -/
theorem parseInner_keeps : Run.Keeps (FaithfulIfSome wire) (parseInner wire) := by
  refine .bind .failIf fun _ _ => .bind .ofExcept ?_
  rintro header ⟨s, hheader⟩
  have hheader := Header.parse_eq_ok_iff.mp hheader
  refine .bind (.modify fun context hcontext => ?_) fun _ _ => ?_
  · intro c hc
    split at hc
    · rename_i hquery
      cases hc
      exact ⟨hheader, hquery, fun q hq => (nomatch hq), fun h => nomatch h⟩
    · exact hcontext c hc
  · refine .bind .failIf fun _ _ => .bind .failIf fun _ _ => .bind .ofExcept ?_
    rintro ⟨questions, cursor⟩ ⟨s, hquestions⟩
    obtain ⟨vs, htiles, hcount, rfl⟩ := parseQuestions_eq_ok_iff.mp hquestions
    refine .bind (.modify fun context hcontext => ?_) fun _ _ => ?_
    · intro c hc
      obtain ⟨context, rfl, rfl⟩ := Option.map_eq_some_iff.mp hc
      have hfaithful := hcontext context rfl
      refine ⟨hfaithful.header, hfaithful.query, fun q hq => ?_, hfaithful.opt⟩
      obtain ⟨v, hv, rfl⟩ := List.mem_map.mp (List.mem_of_mem_head? hq)
      exact (htiles.forall_mem v hv).name.valid
    · have hbefore := Walk.before_fresh hheader htiles hcount
      rw [← sections_eq_flatMap] at hbefore
      exact .bind (parseSections_keeps faithfulIfSome_keepsOpt hbefore) fun _ _ =>
        .bind .failIf fun _ _ => .pure

/-- The context of every failed parse stands in the message. -/
theorem context_faithful {failure : ParseFailure} {context : ReplyContext}
    (h : Packet.parseForReply wire = .error failure) (hcontext : failure.context = some context) :
    Faithful wire context := by
  have hkeeps := @parseInner_keeps wire none fun c hc => nomatch hc
  unfold Packet.parseForReply Dns.parse at h
  rcases hexec : (parseInner wire).exec none with ⟨e | packet, final⟩
  · rw [hexec] at h hkeeps
    cases h
    dsimp only at hcontext
    split at hcontext
    · obtain ⟨context', hfinal, rfl⟩ := Option.map_eq_some_iff.mp hcontext
      have hfaithful := hkeeps context' hfinal
      exact ⟨hfaithful.header, hfaithful.query, fun q hq => (nomatch hq), fun h => nomatch h⟩
    · exact hkeeps context hcontext
  · rw [hexec] at h
    cases h

end

end Sederial.Dns
