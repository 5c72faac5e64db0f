import Sederial.Proofs.Transfer

/-!
# `Sederial.Proofs.PrefixFree`: no accepted message is a prefix of another

The readers of the parser look at offsets, and an offset inside a message holds the same
byte when more bytes follow. So a derivation of a message places every question and every
record of the longer message as well (`QuestionAt.append`, `RecordAt.append`). The parser
walks through them as before and stops where the message ended, in front of the new bytes.
-/

set_option autoImplicit false

namespace Sederial.Dns

open Sederial.Lib

variable {wire : List UInt8}

/-- The bytes of a message stay where they are when more bytes follow. -/
theorem agreeOn_append (wire post : List UInt8) :
    AgreeOn (fun i => i < wire.length) wire (wire ++ post) :=
  fun _ hi => (List.getElem?_append_left hi).symm

/-- A name stays the same name. It only looks at bytes of the message. -/
theorem DecodesTo.append {p e : Nat} {labels : List (List UInt8)} (h : DecodesTo wire p labels e)
    (post : List UInt8) : DecodesTo (wire ++ post) p labels e := by
  obtain ⟨k, -, hname, -⟩ := id h
  exact h.congr fun i hi => agreeOn_append wire post i (hi.lt_length hname)

/-- Bytes behind a message leave its header. -/
theorem HeaderAt.append {header : Header} (h : HeaderAt wire header) (post : List UInt8) :
    HeaderAt (wire ++ post) header := by
  have hlong := lt_of_wordAt_eq_some h.additionals
  exact h.congr fun i hi => agreeOn_append wire post i (by omega)

/-- Bytes behind a message leave its questions. -/
theorem QuestionAt.append {v : QuestionView} (h : QuestionAt wire v)
    (hinside : v.stop ≤ wire.length)
    (post : List UInt8) : QuestionAt (wire ++ post) v :=
  h.transfer (fun i hi => agreeOn_append wire post i (by omega)) ⟨_, h.name.append post⟩

/-- Bytes behind a message leave its records. -/
theorem RecordAt.append {v : RecordView} (h : RecordAt wire v) (post : List UInt8) :
    RecordAt (wire ++ post) v := by
  have hinside := h.inside
  refine h.transfer (fun i hi => agreeOn_append wire post i (by omega)) ?_ ?_ ?_
  · rw [List.length_append]
    omega
  · intro p hp
    obtain ⟨labels, e, hname⟩ := h.decodes p hp
    exact ⟨labels, e, hname.append post⟩
  · intro hopt
    obtain ⟨labels, howner, hroot⟩ := h.owner
    obtain rfl := hroot hopt
    exact ⟨_, howner.append post⟩

/-- With more bytes behind it the parser takes the same way through a message, and stops where
the message ended. -/
theorem parseInner_append {d : Derivation} (h : Derives wire d) {post : List UInt8}
    (hpost : post ≠ []) (hshort : wire.length + post.length ≤ maxMessageLength)
    (context : Option ReplyContext) :
    ((parseInner (wire ++ post)).exec context).1 = .error .trailingData := by
  obtain ⟨m, hquestions, hrecords⟩ := h.tiles
  have hlength : (wire ++ post).length = wire.length + post.length := List.length_append
  have hpos : 0 < post.length := List.length_pos_of_ne_nil hpost
  have hm : m ≤ wire.length := hrecords.le fun _ => RecordAt.start_le_stop
  have hbounds := hquestions.bounds fun _ => QuestionAt.start_le_stop
  have hquestions' : Tiles (QuestionAt (wire ++ post)) headerLength d.questions m :=
    hquestions.mono fun v hv hat => hat.append (Nat.le_trans (hbounds v hv).2 hm) post
  have hrecords' : Tiles (RecordAt (wire ++ post)) m d.records wire.length :=
    hrecords.mono fun v _ hat => hat.append post
  -- The items the header announces still fit, because the message only got longer.
  have hestimate := h.estimate_le
  have hcursor : (d.records.foldl Walk.after (Walk.fresh m)).cursor = wire.length :=
    @Walk.foldl_cursor _ (Walk.fresh m) _ _ hrecords'
  -- The header and the items are those of the message.
  have hheader : ∀ s : Option ReplyContext,
      ((Run.ofExcept (Header.parse (wire ++ post))).exec s).1 = .ok d.header :=
    fun _ => Header.parse_eq_ok_iff.mpr (h.header.append post)
  have hreads : ∀ s : Option ReplyContext, ((Run.ofExcept (parseQuestions (wire ++ post)
      d.header.counts.questions.toNat headerLength)).exec s).1
        = .ok (d.questions.map QuestionView.question, m) :=
    fun _ => parseQuestions_eq_ok_iff.mpr ⟨d.questions, hquestions', h.questionCount, rfl⟩
  have hwalks : ∀ s, ((parseSections (wire ++ post) d.header.counts.recordSections
      { cursor := m, edns := none, cookie := none, authenticated := false }).exec s).1
        = .ok (d.records.foldl Walk.after (Walk.fresh m)) := by
    intro s
    refine parseSections_eq_ok_iff.mpr ⟨d.records, ?_, ?_, (Walk.admits_iff rfl).mpr h.oneOpt, rfl⟩
    · show Tiles _ m _ _
      rw [hcursor]
      exact hrecords'
    · rw [sections_eq_flatMap]
      exact h.sections
  have hmodify : ∀ (f : Option ReplyContext → Option ReplyContext) (s : Option ReplyContext),
      ((modify f : Run _ ParseError PUnit).exec s).1 = .ok ⟨⟩ := fun _ _ => rfl
  have hsingle : ¬ (d.header.counts.questions.toNat > 1 ∧ d.header.opcode = .query) :=
    fun hmany => Nat.not_lt.mpr (h.single hmany.2) hmany.1
  unfold parseInner
  rw [Run.exec_failIf_bind (by omega), Run.exec_bind_fst_of_ok (hheader _),
    Run.exec_bind_fst_of_ok (hmodify _ _), Run.exec_failIf_bind hsingle,
    Run.exec_failIf_bind (Nat.not_lt.mpr (Nat.le_trans hestimate (by omega))),
    Run.exec_bind_fst_of_ok (hreads _), Run.exec_bind_fst_of_ok (hmodify _ _),
    Run.exec_bind_fst_of_ok (hwalks _)]
  -- The walk ends in front of the new bytes.
  rw [Run.exec_bind, Run.exec_failIf, if_pos (by omega)]

/-- Accepted messages are prefix-free. Bytes behind an accepted message are trailing data, and
every strict prefix of an accepted message is rejected. -/
theorem parse_prefixFree {p : Packet} (h : Packet.parse wire = .ok p) :
    (∀ post, post ≠ [] → wire.length + post.length ≤ 65535 →
      Packet.parse (wire ++ post) = .error .trailingData) ∧
      ∀ pre, pre <+: wire → pre ≠ wire → ∃ e, Packet.parse pre = .error e := by
  have hlonger : ∀ (w post : List UInt8) (p : Packet), Packet.parse w = .ok p → post ≠ [] →
      w.length + post.length ≤ 65535 → Packet.parse (w ++ post) = .error .trailingData := by
    intro w post p hw hpost hshort
    obtain ⟨d, hd, -⟩ := Packet.parse_eq_ok_iff.mp hw
    have hinner := parseInner_append hd hpost hshort none
    unfold Packet.parse Packet.parseForReply Dns.parse
    -- The context does not matter for the error of `parse`.
    rcases hexec : (parseInner (w ++ post)).exec none with ⟨r, context⟩
    rw [hexec] at hinner
    obtain rfl : r = .error .trailingData := hinner
    rfl
  refine ⟨fun post hpost hshort => hlonger wire post p h hpost hshort, ?_⟩
  rintro pre ⟨post, rfl⟩ hne
  have hpost : post ≠ [] := by
    rintro rfl
    exact hne (List.append_nil pre).symm
  cases hpre : Packet.parse pre with
  | error e => exact ⟨e, rfl⟩
  | ok own =>
    -- The whole message would have trailing data.
    obtain ⟨d, hd, -⟩ := Packet.parse_eq_ok_iff.mp h
    have hshort := hd.short
    rw [List.length_append] at hshort
    rw [hlonger pre post own hpre hpost hshort] at h
    cases h

/-- A query for the root is accepted as it stands, and not with a byte more or less. -/
theorem parse_prefixFree_root :
    Packet.parse [0, 1, 1, 0, 0, 1, 0, 0, 0, 0, 0, 0, 0, 0, 1, 0, 1, 0] = .error .trailingData ∧
      ∃ e, Packet.parse [0, 1, 1, 0, 0, 1, 0, 0, 0, 0, 0, 0, 0, 0, 1, 0] = .error e := by
  have hparse : Packet.parse [0, 1, 1, 0, 0, 1, 0, 0, 0, 0, 0, 0, 0, 0, 1, 0, 1] = .ok {
      wire := [0, 1, 1, 0, 0, 1, 0, 0, 0, 0, 0, 0, 0, 0, 1, 0, 1]
      header := ⟨⟨1⟩, 0x0100, ⟨1, 0, 0, 0⟩⟩
      questions := [⟨⟨[]⟩, .a, .in⟩]
      edns := none
      authenticated := false
      cookie := none } := by
    decide +kernel
  obtain ⟨hmore, hless⟩ := parse_prefixFree hparse
  exact ⟨hmore [0] (by simp) (by simp), hless _ ⟨[1], rfl⟩ (by simp)⟩

end Sederial.Dns
