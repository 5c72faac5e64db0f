import Sederial.Proofs.GeneratedReply

/-!
# `Sederial.Proofs.FormatReply`: the reply to a message that does not parse

`context_faithful` says that the context of a failed parse stands in the message. This file
says which context it is. `parseInner_context` lists the contexts a parse can end with: none,
the header alone, the header and the first question, or these and the fields of the first OPT
record. `parseInner_firstOpt` is the other direction: when the parse fails on an OPT record and
the message has a first OPT record, then the context holds the fields of that record.

The second direction follows the record loop to the OPT record. `parseRecords` is the record
loop without the division into sections. The records before the OPT record leave the context
alone (`parseRecords_before`), the OPT record changes it (`parseRecord_firstOpt`), and the
records behind it leave it alone again (`parseRecords_behind`).

`formatReply_context` is the result: which malformed messages are answered, and what the answer
contains.
-/

set_option autoImplicit false

namespace Sederial.Dns

open Sederial.Lib

/-! ### The record loop -/

/-- The record loop over the sections of the records to come. -/
def parseRecords (wire : List UInt8) :
    List RecordSection → Walk → Run (Option ReplyContext) ParseError Walk
  | [], walk => pure walk
  | section_ :: rest, walk => do
    let walk ← parseRecord wire section_ walk
    parseRecords wire rest walk

section

variable {wire : List UInt8}

/-- The records of two lists of sections are read one list after the other. -/
theorem parseRecords_append (first rest : List RecordSection) (walk : Walk) :
    parseRecords wire (first ++ rest) walk
      = parseRecords wire first walk >>= parseRecords wire rest := by
  induction first generalizing walk with
  | nil => exact (pure_bind walk _).symm
  | cons section_ first ih =>
    show (parseRecord wire section_ walk >>= fun walk => parseRecords wire (first ++ rest) walk)
      = (parseRecord wire section_ walk >>= fun walk => parseRecords wire first walk) >>= _
    rw [bind_assoc]
    exact congrArg _ (funext ih)

/-- A section is the list of its records. -/
theorem parseSection_eq (section_ : RecordSection) (count : Nat) (walk : Walk) :
    parseSection wire section_ count walk
      = parseRecords wire (List.replicate count section_) walk := by
  induction count generalizing walk with
  | zero => rfl
  | succ count ih => exact congrArg (parseRecord wire section_ walk >>= ·) (funext ih)

/-- Both record loops of `parse_inner` are one loop over the sections of all records. -/
theorem parseSections_eq (sections : List (RecordSection × UInt16)) (walk : Walk) :
    parseSections wire sections walk
      = parseRecords wire (sections.flatMap fun (section_, count) =>
          List.replicate count.toNat section_) walk := by
  induction sections generalizing walk with
  | nil => rfl
  | cons section_ sections ih =>
    obtain ⟨section_, count⟩ := section_
    rw [List.flatMap_cons, parseRecords_append, ← parseSection_eq]
    exact congrArg (parseSection wire section_ count.toNat walk >>= ·) (funext ih)

/-- A record that is not an OPT record leaves the context alone. -/
theorem parseRecord_exec_of_noOpt {walk : Walk} {v : RecordView} (hv : RecordAt wire v)
    (hopt : v.isOpt = false) (hstart : v.start = walk.cursor) (s : Option ReplyContext) :
    (parseRecord wire v.section_ walk).exec s = (.ok (walk.after v), s) := by
  have hvalue : ((parseRecord wire v.section_ walk).exec s).1 = .ok (walk.after v) :=
    parseRecord_eq_ok_iff.mpr ⟨v, hv, rfl, hstart, by simp [hopt], rfl⟩
  have hkeeps : Run.Keeps (· = s) (parseRecord wire v.section_ walk) := by
    obtain ⟨labels, howner, -⟩ := hv.owner
    obtain ⟨k, hk, hkind⟩ := Option.map_eq_some_iff.mp hv.kind
    rw [hstart] at howner
    have hrecord := Reader.resourceRecord_eq_ok_iff.mpr ⟨v.fixedAt, labels, k, v.classWire, v.ttl,
      v.length, ⟨howner, hk, hv.classWire, hv.ttl, hv.length⟩, rfl, rfl⟩
    have hne : (envelopeRecord v.fixedAt labels k v.classWire v.ttl v.length).kind ≠ .opt := by
      show RecordType.fromWire k ≠ .opt
      rw [hkind]
      exact of_decide_eq_false hopt
    unfold parseRecord
    rw [hrecord]
    refine .bind .ofExcept ?_
    rintro ⟨record, cursor⟩ ⟨_, h⟩
    cases h
    refine .bind ?_ fun _ _ => .pure
    rw [if_neg hne]
    exact .bind .ofExcept fun _ _ => .bind .ofExcept fun _ _ => .pure
  exact Prod.ext hvalue (hkeeps s rfl)

/-- The records before the first OPT record. -/
theorem parseRecords_before {walk : Walk} {before : List RecordView} {e : Nat}
    (htiles : Tiles (RecordAt wire) walk.cursor before e) (hbefore : ∀ v ∈ before, v.isOpt = false)
    (s : Option ReplyContext) :
    (parseRecords wire (before.map RecordView.section_) walk).exec s
      = (.ok (before.foldl Walk.after walk), s) := by
  induction before generalizing walk with
  | nil => rfl
  | cons v before ih =>
    obtain ⟨hstart, hv, htiles⟩ := tiles_cons_iff.mp htiles
    have hrecord := parseRecord_exec_of_noOpt hv (hbefore v List.mem_cons_self) hstart.symm s
    show ((parseRecord wire v.section_ walk >>= fun walk =>
      parseRecords wire (before.map RecordView.section_) walk).exec s) = _
    rw [Run.exec_bind, hrecord]
    exact ih htiles fun w hw => hbefore w (List.mem_cons_of_mem _ hw)

/-- The record loop hands an OPT record to `parseOpt`. -/
theorem parseRecord_eq_parseOpt {section_ : RecordSection} {walk : Walk} {fixedAt : Nat}
    {labels : List (List UInt8)} {kind class_ : UInt16} {ttl : UInt32} {length : UInt16}
    (henvelope : EnvelopeAt wire walk.cursor fixedAt labels kind class_ ttl length)
    (hopt : RecordType.fromWire kind = .opt) :
    parseRecord wire section_ walk
      = parseOpt wire section_ walk (envelopeRecord fixedAt labels kind class_ ttl length)
          (fixedAt + 10) >>= fun walk =>
        pure { walk with
          authenticated := walk.authenticated ||
            authenticates section_ (RecordType.fromWire kind) } := by
  have hrecord := Reader.resourceRecord_eq_ok_iff.mpr
    ⟨fixedAt, labels, kind, class_, ttl, length, henvelope, rfl, rfl⟩
  have hkind : (envelopeRecord fixedAt labels kind class_ ttl length).kind = .opt := hopt
  unfold parseRecord
  rw [hrecord]
  exact congrArg (fun m : Run (Option ReplyContext) ParseError Walk => m >>= fun walk : Walk =>
    pure { walk with
      authenticated := walk.authenticated || authenticates section_ (RecordType.fromWire kind) })
    (if_pos hkind)

/-- The first OPT record puts its fields into the context and into the walk, whatever its data
is. -/
theorem parseRecord_firstOpt {walk : Walk} {fixedAt : Nat} {kind class_ : UInt16} {ttl : UInt32}
    {length : UInt16} (henvelope : EnvelopeAt wire walk.cursor fixedAt [] kind class_ ttl length)
    (hopt : RecordType.fromWire kind = .opt) (hnone : walk.edns = none)
    (s : Option ReplyContext) :
    ((parseRecord wire .additional walk).exec s).2
        = s.map (fun context => { context with edns := some (Edns.ofRecord class_ ttl) }) ∧
      ∀ walk', ((parseRecord wire .additional walk).exec s).1 = .ok walk' →
        walk'.edns.isSome := by
  rw [parseRecord_eq_parseOpt henvelope hopt]
  refine ⟨?_, fun walk' hwalk' => ?_⟩
  · have hclass : (envelopeRecord fixedAt [] kind class_ ttl length).class_ = .udpPayload class_ :=
      if_pos hopt
    have hguard : ¬ (RecordSection.additional ≠ .additional ∨ walk.edns.isSome ∨
        (envelopeRecord fixedAt [] kind class_ ttl length).owner.labelCount ≠ 0) := by
      rw [hnone]
      simp [envelopeRecord, DomainName.labelCount]
    -- What follows the change of the context only reads the message.
    rw [Run.exec_bind_snd_of_keeps fun _ => .pure]
    unfold parseOpt
    rw [if_neg hguard, hclass, Run.exec_bind_snd_of_keeps fun _ => ?_]
    · rfl
    · exact .bind .ofExcept fun _ _ => .bind .ofExcept fun _ _ => .pure
  · obtain ⟨walk₁, hwalk₁, hreturn⟩ := Run.exec_bind_fst_eq_ok.mp hwalk'
    obtain ⟨-, -, -, -, -, rfl⟩ := (parseOpt_eq_ok_iff hopt).mp hwalk₁
    cases hreturn
    rfl

/-- The records behind an OPT record leave the context alone. -/
theorem parseRecords_behind {walk : Walk} (hsome : walk.edns.isSome)
    {I : Option ReplyContext → Prop} (sections : List RecordSection) :
    Run.Keeps I (parseRecords wire sections walk) := by
  induction sections generalizing walk with
  | nil => exact .pure
  | cons section_ sections ih =>
    refine .bind ?_ fun walk' hwalk' => ih ?_
    · refine .bind .ofExcept fun _ _ => .bind ?_ fun _ _ => .pure
      split
      · unfold parseOpt
        rw [if_pos (.inr (.inl hsome))]
        exact .throw
      · exact .bind .ofExcept fun _ _ => .bind .ofExcept fun _ _ => .pure
    · obtain ⟨s, hrecord⟩ := hwalk'
      obtain ⟨v, -, -, -, -, rfl⟩ := parseRecord_eq_ok_iff.mp hrecord
      show (if v.isOpt then some v.edns else walk.edns).isSome
      split
      · rfl
      · exact hsome

/-- The record loop of a message with a first OPT record puts the fields of this record into
the context. -/
theorem parseRecords_firstOpt {walk : Walk} {before : List RecordView}
    {rest : List RecordSection} {n fixedAt : Nat} {kind class_ : UInt16} {ttl : UInt32}
    {length : UInt16} (hnone : walk.edns = none)
    (htiles : Tiles (RecordAt wire) walk.cursor before n)
    (hbefore : ∀ v ∈ before, v.isOpt = false)
    (henvelope : EnvelopeAt wire n fixedAt [] kind class_ ttl length)
    (hopt : RecordType.fromWire kind = .opt) (s : Option ReplyContext) :
    ((parseRecords wire (before.map RecordView.section_ ++ .additional :: rest) walk).exec s).2
      = s.map fun context => { context with edns := some (Edns.ofRecord class_ ttl) } := by
  have hcursor : (before.foldl Walk.after walk).cursor = n := Walk.foldl_cursor htiles
  have hstill : (before.foldl Walk.after walk).edns = none := by
    have hfilter : before.filter RecordView.isOpt = [] := by simpa using hbefore
    rw [(Walk.foldl_of_noOpt hfilter).1, hnone]
  rw [← hcursor] at henvelope
  obtain ⟨hrecord, hsome⟩ := parseRecord_firstOpt henvelope hopt hstill s
  rw [parseRecords_append, Run.exec_bind, parseRecords_before htiles hbefore]
  show ((parseRecord wire .additional _ >>= fun walk => parseRecords wire rest walk).exec s).2 = _
  rw [Run.exec_bind]
  rcases hexec : (parseRecord wire .additional (before.foldl Walk.after walk)).exec s
    with ⟨e | walk', s'⟩
  · rw [hexec] at hrecord
    exact hrecord
  · rw [hexec] at hrecord hsome
    have hbehind := @parseRecords_behind wire walk' (hsome walk' rfl) (· = s') rest s' rfl
    exact hbehind.trans hrecord

/-! ### The context a parse ends with -/

/-- The message has a header that asks something, so a reply may be made from it. -/
def Answerable (wire : List UInt8) (header : Header) : Prop :=
  wire.length ≤ maxMessageLength ∧ HeaderAt wire header ∧ header.messageType = .query

/-- The contexts a parse of the message can end with. -/
inductive LeavesContext (wire : List UInt8) : Option ReplyContext → Prop
  | nothing (silent : ∀ header, ¬ Answerable wire header) : LeavesContext wire none
  | header {header : Header} (asks : Answerable wire header) :
      LeavesContext wire (some { header := header, question := none, edns := none })
  | question {header : Header} {questions : List QuestionView} {cursor : Nat} {edns : Option Edns}
      (asks : Answerable wire header)
      (tiles : Tiles (QuestionAt wire) headerLength questions cursor)
      (count : questions.length = header.counts.questions.toNat)
      (opt : ∀ fields ∈ edns, FirstOpt wire fields) :
      LeavesContext wire (some {
        header := header
        question := (questions.map QuestionView.question).head?
        edns := edns })

/-- The context behind the header, before the questions. -/
def headerContext (header : Header) : Option ReplyContext :=
  if header.messageType = .query then some { header := header, question := none, edns := none }
  else none

/-- A header alone leaves a context, once the message is short enough to be read. -/
theorem headerContext_leaves {header : Header} (hshort : wire.length ≤ maxMessageLength)
    (hheader : HeaderAt wire header) : LeavesContext wire (headerContext header) := by
  unfold headerContext
  split
  · rename_i hquery
    exact .header ⟨hshort, hheader, hquery⟩
  · rename_i hresponse
    refine .nothing fun header' hasks => hresponse ?_
    rw [hheader.unique hasks.2.1]
    exact hasks.2.2

/-- Past its checks, `parseInner` is the record loop and the check for trailing data. -/
theorem parseInner_exec (hshort : ¬ wire.length > maxMessageLength) {header : Header}
    (hheader : Header.parse wire = .ok header) :
    ((∃ e, (parseInner wire).exec none = (.error e, headerContext header) ∧
        (parseQuestions wire header.counts.questions.toNat headerLength = .error e ∨
          e = .invalidCount)) ∨
      ∃ questions cursor,
        parseQuestions wire header.counts.questions.toNat headerLength = .ok (questions, cursor) ∧
        ((parseInner wire).exec none).2
          = ((parseSections wire header.counts.recordSections (Walk.fresh cursor)).exec
              ((headerContext header).map fun context =>
                { context with question := questions.head? })).2) := by
  -- The checks of the source one by one, each with the context that it leaves when it fails.
  unfold parseInner
  rw [Run.exec_bind, Run.exec_failIf, if_neg hshort]
  dsimp only
  rw [hheader, Run.exec_bind, Run.exec_ofExcept]
  dsimp only
  have hcontext : headerContext header = if header.messageType = .query then
    some { header := header, question := none, edns := none } else none := rfl
  rw [Run.exec_bind, Run.exec_modify, ← hcontext]
  dsimp only
  rw [Run.exec_bind, Run.exec_failIf]
  split_ifs with hcount
  · exact .inl ⟨_, rfl, .inr rfl⟩
  dsimp only
  rw [Run.exec_bind, Run.exec_failIf]
  split_ifs with hestimate
  · exact .inl ⟨_, rfl, .inr rfl⟩
  dsimp only
  rw [Run.exec_bind, Run.exec_ofExcept]
  rcases hquestions : parseQuestions wire header.counts.questions.toNat headerLength
    with e | ⟨questions, cursor⟩
  · exact .inl ⟨e, rfl, .inl rfl⟩
  -- The questions are read, and the rest is left to the record sections.
  refine .inr ⟨questions, cursor, rfl, ?_⟩
  dsimp only
  rw [Run.exec_bind, Run.exec_modify]
  dsimp only
  rw [Run.exec_bind_snd_of_keeps fun _ => ?_]
  · rfl
  · exact .bind .failIf fun _ _ => .pure

/-- Every parse ends with one of the contexts. -/
theorem parseInner_context : LeavesContext wire ((parseInner wire).exec none).2 := by
  by_cases hlong : wire.length > maxMessageLength
  · have hnone : ((parseInner wire).exec none).2 = none := by
      unfold parseInner
      rw [Run.exec_bind, Run.exec_failIf, if_pos hlong]
    rw [hnone]
    exact .nothing fun header hasks => absurd hasks.1 (Nat.not_le.mpr hlong)
  · rcases hheader : Header.parse wire with e | header
    · have hnone : ((parseInner wire).exec none).2 = none := by
        unfold parseInner
        rw [Run.exec_bind, Run.exec_failIf, if_neg hlong, hheader]
        rfl
      rw [hnone]
      refine .nothing fun header hasks => ?_
      rw [Header.parse_eq_ok_iff.mpr hasks.2.1] at hheader
      cases hheader
    · have hat := Header.parse_eq_ok_iff.mp hheader
      have hshort := Nat.not_lt.mp hlong
      rcases parseInner_exec hlong hheader with
          ⟨e, hexec, -⟩ | ⟨questions, cursor, hquestions, hexec⟩
      · rw [hexec]
        exact headerContext_leaves hshort hat
      · obtain ⟨vs, htiles, hcount, rfl⟩ := parseQuestions_eq_ok_iff.mp hquestions
        have hbefore := Walk.before_fresh hat htiles hcount
        rw [← sections_eq_flatMap] at hbefore
        rw [hexec]
        unfold headerContext
        split
        · rename_i hquery
          -- The record loop can only add the fields of the first OPT record.
          obtain ⟨edns, hopt, hfinal⟩ := parseSections_keeps (I := fun context =>
              ∃ edns : Option Edns, (∀ fields ∈ edns, FirstOpt wire fields) ∧ context = some {
                header := header
                question := (vs.map QuestionView.question).head?
                edns := edns })
            (fun context fields hfirst hcontext => by
              obtain ⟨edns, -, rfl⟩ := hcontext
              exact ⟨some fields, fun fields' h => by cases h; exact hfirst, rfl⟩)
            hbefore _ ⟨none, fun _ h => (nomatch h), rfl⟩
          rw [Option.map_some, hfinal]
          exact .question ⟨hshort, hat, hquery⟩ htiles hcount hopt
        · rename_i hresponse
          have hfinal := parseSections_keeps (I := (· = none))
            (fun context fields _ hcontext => by rw [hcontext]; rfl) hbefore none rfl
          rw [Option.map_none, hfinal]
          refine .nothing fun header' hasks => hresponse ?_
          rw [hat.unique hasks.2.1]
          exact hasks.2.2

/-- When the parse fails on an OPT record and the message has a first OPT record, the context
holds the fields of that record. -/
theorem parseInner_firstOpt {first : Edns} {context : ReplyContext} (hfirst : FirstOpt wire first)
    (herror : ((parseInner wire).exec none).1 = .error .invalidEdns)
    (hcontext : ((parseInner wire).exec none).2 = some context) : context.edns = some first := by
  obtain ⟨header, before, rest, n, fixedAt, kind, class_, ttl, length, hreached, hbefore,
    henvelope, hopt, rfl⟩ := hfirst
  obtain ⟨vs, m, htiles, hcount, hrecords⟩ := hreached.tiles
  have hheader := Header.parse_eq_ok_iff.mpr hreached.headerAt
  have hquestions := parseQuestions_eq_ok_iff.mpr ⟨vs, htiles, hcount, rfl⟩
  have hshort : ¬ wire.length > maxMessageLength := by
    intro hlong
    unfold parseInner at herror
    rw [Run.exec_bind, Run.exec_failIf, if_pos hlong] at herror
    cases herror
  rcases parseInner_exec hshort hheader with
      ⟨e, hexec, he⟩ | ⟨questions, cursor, hquestions', hexec⟩
  · -- The questions are there and the error is not one about the counts.
    rw [hexec] at herror
    cases herror
    rcases he with he | he
    · rw [hquestions] at he
      cases he
    · cases he
  · rw [hquestions] at hquestions'
    cases hquestions'
    rw [hexec, parseSections_eq, sections_eq_flatMap, ← hreached.sections,
      parseRecords_firstOpt rfl hrecords hbefore henvelope hopt] at hcontext
    obtain ⟨context', -, rfl⟩ := Option.map_eq_some_iff.mp hcontext
    rfl

/-! ### The reply -/

/-- Without its items a context is still one a parse can end with. -/
theorem LeavesContext.cleared {context : Option ReplyContext} (h : LeavesContext wire context) :
    LeavesContext wire
      (context.map fun context => { context with question := none, edns := none }) := by
  cases h with
  | nothing silent => exact .nothing silent
  | header asks => exact .header asks
  | question asks tiles count opt => exact .header asks

/-- The context of a failure has OPT fields exactly when the parse failed on an OPT record and
the message has a first OPT record, and then they are the fields of that record. -/
theorem failure_context {failure : ParseFailure} (h : Packet.parseForReply wire = .error failure) :
    LeavesContext wire failure.context ∧
      ∀ context, failure.context = some context →
        (context.edns.isSome → failure.error = .invalidEdns) ∧
          ∀ first, FirstOpt wire first → failure.error = .invalidEdns →
            context.edns = some first := by
  have hleaves := @parseInner_context wire
  have hfirst := @parseInner_firstOpt wire
  unfold Packet.parseForReply Dns.parse at h
  rcases hexec : (parseInner wire).exec none with ⟨e | packet, final⟩
  · rw [hexec] at h hleaves hfirst
    cases h
    dsimp only
    by_cases hedns : e = .invalidEdns
    · subst hedns
      rw [if_neg (not_not_intro rfl)]
      exact ⟨hleaves, fun context hcontext => ⟨fun _ => rfl, fun first hopt _ =>
        hfirst hopt rfl hcontext⟩⟩
    · rw [if_pos hedns]
      refine ⟨hleaves.cleared, fun context hcontext => ⟨fun hsome => ?_, fun _ _ h => ?_⟩⟩
      · obtain ⟨context', -, rfl⟩ := Option.map_eq_some_iff.mp hcontext
        cases hsome
      · exact absurd h hedns
  · rw [hexec] at h
    cases h

/-- A reply without OPT fields has no question either. -/
theorem ReplyContext.formatReply_eq (context : ReplyContext) :
    context.formatReply
      = makeReply context.header (if context.edns.isNone then none else context.question)
          (.fromWire 1) false (generatedOpt context.edns) none := by
  unfold formatReply
  split
  · rename_i hnone
    rw [Option.isNone_iff_eq_none.mp hnone]
    rfl
  · rfl

/-- The packet `p` of the reply `r` to the malformed message `w`. -/
structure FormatReplyTo (w : List UInt8) (failure : ParseFailure) (r : List UInt8)
    (p : Packet) : Prop where
  id : wordAt w 0 = some p.header.id.value
  echoed : ∃ flags, wordAt w 2 = some flags ∧
    p.header.flags &&& (opcodeMask ||| rdMask ||| cdMask)
      = flags &&& (opcodeMask ||| rdMask ||| cdMask)
  code : p.responseCode = .formatError
  response : p.header.messageType = .response
  answers : p.header.counts.answers = 0
  authorities : p.header.counts.authorities = 0
  cookie : p.cookie = none
  opt : p.edns.isSome ↔ failure.error = .invalidEdns ∧ ∃ first, FirstOpt w first
  dnssecOk : ∀ made ∈ p.edns, ∀ first, FirstOpt w first → made.dnssecOk = first.dnssecOk
  asked : p.questions ≠ [] ↔ p.edns.isSome ∧ ∃ count, wordAt w 4 = some count ∧ 1 ≤ count.toNat
  question : p.questions ≠ [] → ∃ v, QuestionAt w v ∧ v.start = headerLength ∧
    p.questions = [v.question]
  bare : p.edns = none → r.length = headerLength

end

/-- A message that asks has a whole header with QR clear, and the other way around. -/
theorem exists_asks_iff {w : List UInt8} :
    (∃ header, Answerable w header) ↔ headerLength ≤ w.length ∧ w.length ≤ maxMessageLength ∧
      ∃ flags, wordAt w 2 = some flags ∧ flags &&& qrMask = 0 := by
  constructor
  · rintro ⟨header, hshort, hheader, hquery⟩
    have hlong := lt_of_wordAt_eq_some hheader.additionals
    refine ⟨hlong, hshort, header.flags, hheader.flags, ?_⟩
    by_contra hset
    rw [Header.messageType, if_neg hset] at hquery
    cases hquery
  · rintro ⟨hlong, hshort, flags, hflags, hclear⟩
    rcases hparse : Header.parse w with e | header
    · unfold Header.parse at hparse
      rw [if_neg (Nat.not_lt.mpr hlong)] at hparse
      cases hparse
    · have hheader := Header.parse_eq_ok_iff.mp hparse
      have heq : header.flags = flags := Option.some.inj (hheader.flags.symm.trans hflags)
      exact ⟨header, hshort, hheader, if_pos (by rw [heq]; exact hclear)⟩

section

variable {w : List UInt8} {context : ReplyContext}

/-- A context that parsing leaves is one that is answered. -/
theorem LeavesContext.asks (h : LeavesContext w (some context)) : Answerable w context.header := by
  cases h with
  | header asks => exact asks
  | question asks tiles count opt => exact asks

/-- The OPT record of a context is the first one of the message. -/
theorem LeavesContext.first (h : LeavesContext w (some context)) :
    ∀ fields ∈ context.edns, FirstOpt w fields := by
  cases h with
  | header asks => exact fun fields hfields => nomatch hfields
  | question asks tiles count opt => exact opt

/-- Behind the questions the context has a question exactly when there is one, and it is the
first. -/
theorem LeavesContext.asked (h : LeavesContext w (some context)) (hsome : context.edns.isSome) :
    (context.question.isSome ↔ 1 ≤ context.header.counts.questions.toNat) ∧
      ∀ q ∈ context.question, ∃ v, QuestionAt w v ∧ v.start = headerLength ∧ v.question = q := by
  cases h with
  | header asks => cases hsome
  | @question header questions cursor edns asks tiles count opt =>
    dsimp only
    rw [← count]
    cases questions with
    | nil => simp
    | cons v vs =>
      obtain ⟨hstart, hv, -⟩ := tiles_cons_iff.mp tiles
      refine ⟨by simp, fun q hq => ⟨v, hv, hstart.symm, ?_⟩⟩
      exact Option.some.inj hq

/-- The question that goes into the reply, which is none without OPT fields. -/
theorem LeavesContext.exists_question (h : LeavesContext w (some context)) :
    ∃ question, (if context.edns.isNone then none else context.question) = question ∧
      (question.isSome ↔ context.edns.isSome ∧ 1 ≤ context.header.counts.questions.toNat) ∧
      ∀ q ∈ question, ∃ v, QuestionAt w v ∧ v.start = headerLength ∧ v.question = q := by
  cases hedns : context.edns with
  | none => exact ⟨none, rfl, by simp, fun q hq => nomatch hq⟩
  | some fields =>
    obtain ⟨hcount, hat⟩ := h.asked (by rw [hedns]; rfl)
    exact ⟨context.question, rfl, by simpa using hcount, hat⟩

/-- The reply a context makes. -/
theorem failure_formatReplyTo {failure : ParseFailure}
    (h : Packet.parseForReply w = .error failure) (hcontext : failure.context = some context) :
    ∃ p, Packet.parse context.formatReply = .ok p ∧
      FormatReplyTo w failure context.formatReply p := by
  obtain ⟨hleaves, hfailure⟩ := failure_context h
  obtain ⟨herror, hfirst⟩ := hfailure context hcontext
  rw [hcontext] at hleaves
  obtain ⟨-, hheader, -⟩ := hleaves.asks
  have hnone := generatedOpt_cookie context.edns
  -- The question of the context is the one that the code reads back from it.
  obtain ⟨question, hused, hasked, hquestion⟩ := hleaves.exists_question
  obtain ⟨p, hp⟩ := @makeReply_repliesAs context.header question (.fromWire 1) false
    (generatedOpt context.edns) none
    (fun q hq => by obtain ⟨v, hv, -, rfl⟩ := hquestion q hq; exact hv.name.valid)
    (fun h => nomatch h) (by rw [hnone]; simp)
  obtain ⟨hechoed, -, -⟩ := replyFlags_complete context.header (.fromWire 1)
  -- The OPT record of the reply is there exactly when the context has one.
  have hisSome : p.edns.isSome ↔ context.edns.isSome := by
    rw [hp.edns]
    cases context.edns <;> simp [generatedOpt, GeneratedOpt.edns]
  have hquestions : p.questions ≠ [] ↔ question.isSome := by
    rw [hp.questions]
    cases question <;> simp
  rw [context.formatReply_eq, hused]
  refine ⟨p, hp.parse, {
    id := by rw [hp.id]; exact hheader.id
    echoed := ⟨context.header.flags, hheader.flags, by rw [hp.flags, hechoed]⟩
    code := hp.responseCode (fits_of_lt _ (by decide))
    response := ?_
    answers := by rw [hp.counts]; rfl
    authorities := by rw [hp.counts]
    cookie := hp.unsigned hnone
    opt := ?_
    dnssecOk := ?_
    asked := ?_
    question := ?_
    bare := ?_ }⟩
  · rw [messageType_eq_response_iff, hp.flags, replyFlags_and_qrMask]
    decide
  -- The context keeps an OPT record unless the failure lies in front of it.
  · rw [hisSome]
    constructor
    · intro hsome
      obtain ⟨fields, hfields⟩ := Option.isSome_iff_exists.mp hsome
      exact ⟨herror hsome, fields, hleaves.first fields hfields⟩
    · rintro ⟨hedns, first, hopt⟩
      rw [hfirst first hopt hedns]
      rfl
  · intro made hmade first hopt
    have hsome : context.edns.isSome := hisSome.mp (Option.isSome_iff_exists.mpr ⟨made, hmade⟩)
    rw [hp.edns, hfirst first hopt (herror hsome)] at hmade
    cases hmade
    rfl
  · rw [hquestions, hasked, hisSome, hheader.questions]
    simp
  -- The question was decoded before the failure, and it is written as it was read.
  · intro hne
    obtain ⟨q, hq⟩ := Option.isSome_iff_exists.mp (hquestions.mp hne)
    obtain ⟨v, hv, hstart, rfl⟩ := hquestion q hq
    refine ⟨v, hv, hstart, ?_⟩
    rw [hp.questions, hq]
    show [v.question.reread] = [v.question]
    rw [hv.reread]
  · intro hbare
    have hedns : context.edns = none := by
      rw [hbare] at hisSome
      simpa using hisSome
    have hempty : question = none := by
      rw [hedns] at hasked
      simpa using hasked
    rw [hedns, hempty]
    rfl

end

/-- Malformed messages get only safely decoded context. A message that does not parse is
answered exactly when it has a whole header with QR clear and is not too long. The answer has a
question and an OPT record only after a failure on an OPT record, and then only what was
decoded from the message before. -/
theorem formatReply_context {w : List UInt8} {failure : ParseFailure}
    (h : Packet.parseForReply w = .error failure) :
    (failure.formatReply.isSome ↔ 12 ≤ w.length ∧ w.length ≤ 65535 ∧
        ∃ flags, wordAt w 2 = some flags ∧ flags &&& qrMask = 0) ∧
      ∀ r, failure.formatReply = some r →
        ∃ p, Packet.parse r = .ok p ∧ FormatReplyTo w failure r p := by
  refine ⟨?_, fun r hr => ?_⟩
  · obtain ⟨hleaves, -⟩ := failure_context h
    refine Iff.trans ?_ exists_asks_iff
    rw [ParseFailure.formatReply, Option.isSome_map]
    cases hcontext : failure.context with
    | none =>
      rw [hcontext] at hleaves
      cases hleaves with
      | nothing silent => simpa using silent
    | some context =>
      rw [hcontext] at hleaves
      exact ⟨fun _ => ⟨_, hleaves.asks⟩, fun _ => rfl⟩
  · obtain ⟨context, hcontext, rfl⟩ := Option.map_eq_some_iff.mp hr
    exact failure_formatReplyTo h hcontext

/-- A query for the root with the DO bit, whose only option is cut off. -/
def brokenOptQuery : List UInt8 :=
  [0, 1, 1, 0x10, 0, 1, 0, 0, 0, 0, 0, 1, 0, 0, 1, 0, 1, 0, 0, 41, 4, 208, 0, 0, 0x80, 0, 0, 1, 0]

/-- The query with the broken OPT record is answered, and the answer parses. -/
theorem formatReply_context_brokenOpt :
    ∃ failure, Packet.parseForReply brokenOptQuery = .error failure ∧
      failure.error = .invalidEdns ∧
      ∃ r p, failure.formatReply = some r ∧ Packet.parse r = .ok p ∧
        FormatReplyTo brokenOptQuery failure r p := by
  have hfails : Packet.parseForReply brokenOptQuery = .error {
      error := .invalidEdns
      context := some {
        header := ⟨⟨1⟩, 0x0110, ⟨1, 0, 0, 1⟩⟩
        question := some ⟨⟨[]⟩, .a, .in⟩
        edns := some ⟨1232, 0, 0, true⟩ } } := by
    decide +kernel
  obtain ⟨hsome, hreply⟩ := formatReply_context hfails
  obtain ⟨r, hr⟩ := Option.isSome_iff_exists.mp (hsome.mpr ⟨by decide, by decide, 0x0110,
    by decide, by decide⟩)
  obtain ⟨p, hp, hcontains⟩ := hreply r hr
  exact ⟨_, hfails, rfl, r, p, hr, hp, hcontains⟩

end Sederial.Dns
