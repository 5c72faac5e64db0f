import Sederial.Proofs.ParserExact

/-!
# `Sederial.Proofs.Transfer`: derivations of changed messages

A program that patches bytes of a parsed message keeps the decoded fields only if the
derivation of the message is still one of the patched bytes. Two things can break it. A
field of the derivation may lie on a patched byte. A name may read one through a
compression pointer, wherever the name stands.

The lemmas of this file separate the two. `RecordAt.transfer` moves a record to a message
that agrees on the bytes the record occupies, given that its names still decode there.
`Derives.congr` is the case of a message that only changes in its header, where every name
survives. `HeaderAt.unique` says that a message has one header.
-/

set_option autoImplicit false

namespace Sederial.Dns

open Sederial.Lib

variable {wire wire' : List UInt8}

/-- A name ends at the same offset in two messages that agree on the bytes it occupies,
even where its pointers lead to different labels. -/
theorem NameAt.end_eq {p : Nat} {labels labels' : List (List UInt8)} {k k' e e' : Nat}
    (h : NameAt wire p labels k e) (h' : NameAt wire' p labels' k' e')
    (hagree : AgreeOn (fun i => p ≤ i ∧ i < e) wire wire') : e = e' := by
  induction h generalizing labels' k' e' with
  | root head =>
      rw [hagree _ (by omega)] at head
      exact (h'.of_root head).2.2.symm
  | label head nonempty short _ rest ih =>
      have := rest.lt_end
      rw [hagree _ (by omega)] at head
      obtain ⟨_, _, -, -, hrest⟩ := h'.of_label head nonempty short
      exact ih hrest fun i hi => hagree i (by omega)
  | pointer head _ tag _ _ _ _ _ =>
      rw [hagree _ (by omega)] at head
      obtain ⟨_, _, -, -, -, -, rfl, -⟩ := h'.of_pointer head tag
      rfl

/-- Two names at one position end together when the bytes up to the first one's end agree. -/
theorem DecodesTo.end_eq {p : Nat} {labels labels' : List (List UInt8)} {e e' : Nat}
    (h : DecodesTo wire p labels e) (h' : DecodesTo wire' p labels' e')
    (hagree : AgreeOn (fun i => p ≤ i ∧ i < e) wire wire') : e = e' := by
  obtain ⟨k, -, hname, -⟩ := h
  obtain ⟨k', -, hname', -⟩ := h'
  exact hname.end_eq hname' hagree

/-- A name that decodes to the root only looks backwards, at offsets up to its second
byte. -/
theorem NameAt.congr_root {p k e : Nat} {labels : List (List UInt8)}
    (h : NameAt wire p labels k e) (hroot : labels = [])
    (hagree : AgreeOn (fun i => i ≤ p + 1) wire wire') : NameAt wire' p labels k e := by
  induction h with
  | root head => exact .root (by rw [← hagree _ (by omega), head])
  | label _ _ _ _ _ _ => cases hroot
  | pointer head tail tag offset afterHeader backward _ ih =>
      exact .pointer (by rw [← hagree _ (by omega), head]) (by rw [← hagree _ (by omega), tail])
        tag offset afterHeader backward (ih hroot fun i hi => hagree i (by omega))

/-- The root name needs the bytes up to its own only. -/
theorem DecodesTo.congr_root {p e : Nat} (h : DecodesTo wire p [] e)
    (hagree : AgreeOn (fun i => i ≤ p + 1) wire wire') : DecodesTo wire' p [] e := by
  obtain ⟨k, hk, hname, hlen⟩ := h
  exact ⟨k, hk, hname.congr_root rfl hagree, hlen⟩

/-! ### Fields and records -/

/-- The name at an offset decodes. -/
def Decodes (wire : List UInt8) (p : Nat) : Prop := ∃ labels e, DecodesTo wire p labels e

/-- A field moves to a message that agrees on its bytes, if its name decodes there. -/
theorem FieldAt.transfer {v : FieldView} (h : FieldAt wire v)
    (hagree : AgreeOn (fun i => v.start ≤ i ∧ i < v.stop) wire wire')
    (hname : v.field = .name → Decodes wire' v.start) : FieldAt wire' v := by
  obtain ⟨start, stop, field⟩ := v
  cases field with
  | bytes n => exact h
  | name =>
      obtain ⟨labels, hlabels⟩ := h
      obtain ⟨labels', e, hlabels'⟩ := hname rfl
      obtain rfl := hlabels.end_eq hlabels' hagree
      exact ⟨labels', hlabels'⟩
  | string =>
      obtain ⟨length, hlength, hstop⟩ := h
      dsimp only at hlength hstop hagree
      exact ⟨length, by rw [← hagree start (by omega)]; exact hlength, hstop⟩
  | option code length =>
      obtain ⟨hcode, hlength, hstop⟩ := h
      dsimp only at hcode hlength hstop hagree
      have hcodes : wordAt wire start = wordAt wire' start :=
        wordAt_congr fun i hi => hagree i (by omega)
      have hlengths : wordAt wire (start + 2) = wordAt wire' (start + 2) :=
        wordAt_congr fun i hi => hagree i (by omega)
      exact ⟨hcodes ▸ hcode, hlengths ▸ hlength, hstop⟩

/-- A record moves to a message that agrees on its bytes, if its names decode there. -/
theorem RecordAt.transfer {v : RecordView} (h : RecordAt wire v)
    (hagree : AgreeOn (fun i => v.start ≤ i ∧ i < v.stop) wire wire')
    (hinside : v.stop ≤ wire'.length) (hnames : ∀ p ∈ v.names, Decodes wire' p)
    (hroot : v.kind = .opt → ∃ e, DecodesTo wire' v.start [] e) : RecordAt wire' v := by
  obtain ⟨labels, howner, hopt⟩ := h.owner
  obtain ⟨labels', e, howner'⟩ := hnames v.start (by simp [RecordView.names])
  have hlt := howner.lt_end
  have hstop : v.stop = v.fixedAt + 10 + v.length.toNat := rfl
  have hstart : v.dataStart = v.fixedAt + 10 := rfl
  obtain rfl := howner.end_eq howner' fun i hi => hagree i (by omega)
  refine ⟨⟨labels', howner', fun hkind => ?_⟩, ?_, ?_, ?_, ?_, hinside, h.layout, ?_, h.section_⟩
  · obtain ⟨e, hempty⟩ := hroot hkind
    exact (howner'.unique hempty).1
  · rw [← wordAt_congr fun i hi => hagree i (by omega)]
    exact h.kind
  · rw [← wordAt_congr fun i hi => hagree i (by omega)]
    exact h.classWire
  · rw [← doubleWordAt_congr fun i hi => hagree i (by omega)]
    exact h.ttl
  · rw [← wordAt_congr fun i hi => hagree i (by omega)]
    exact h.length
  · -- Every field lies in the data of the record.
    have hbounds := h.data.bounds fun _ => FieldAt.start_le_stop
    refine h.data.mono fun f hf hfield => hfield.transfer (fun i hi => hagree i ?_) fun hname => ?_
    · have hspan : v.dataStart ≤ f.start ∧ f.stop ≤ v.stop := hbounds f hf
      omega
    · refine hnames f.start (List.mem_cons_of_mem _ (List.mem_map.mpr ⟨f, ?_, rfl⟩))
      rw [List.mem_filter]
      exact ⟨hf, decide_eq_true hname⟩

/-- A question whose fixed bytes agree stands in both messages, once its name decodes to the same
labels. -/
theorem QuestionAt.transfer {v : QuestionView} (h : QuestionAt wire v)
    (hagree : AgreeOn (fun i => v.start ≤ i ∧ i < v.stop) wire wire')
    (hname : ∃ e, DecodesTo wire' v.start v.question.name.labels e) : QuestionAt wire' v := by
  obtain ⟨e, hname⟩ := hname
  have hlt := h.name.lt_end
  have hstop : v.stop = v.fixedAt + 4 := rfl
  obtain rfl := h.name.end_eq hname fun i hi => hagree i (by omega)
  refine ⟨hname, ?_, ?_⟩
  · rw [← wordAt_congr fun i hi => hagree i (by omega)]
    exact h.kind
  · rw [← wordAt_congr fun i hi => hagree i (by omega)]
    exact h.class_

/-! ### Derivations in lockstep -/

/-- A layout that contains a name determines the fields. -/
theorem DataLayout.eq_or_nameless {kind : RecordType} {class_ : RecordClass}
    {fs fs' : List DataField} (h : DataLayout kind class_ fs) (h' : DataLayout kind class_ fs') :
    fs = fs' ∨ .name ∉ fs := by
  have hunknown : ∀ fs, UnknownLayout fs → .name ∉ fs := by
    rintro fs ⟨n, rfl⟩
    simp
  -- An address has a fixed layout in class IN and an unknown one elsewhere.
  have haddress : ∀ n, (if class_ = .in then fs = [.bytes n] else UnknownLayout fs) →
      .name ∉ fs := by
    intro n hfs
    split at hfs
    · simp [hfs]
    · exact hunknown fs hfs
  cases kind with
  | a => exact .inr (haddress 4 h)
  | aaaa => exact .inr (haddress 16 h)
  | ns => exact .inl (Eq.trans h (Eq.symm h'))
  | cname => exact .inl (Eq.trans h (Eq.symm h'))
  | ptr => exact .inl (Eq.trans h (Eq.symm h'))
  | mx => exact .inl (Eq.trans h (Eq.symm h'))
  | soa => exact .inl (Eq.trans h (Eq.symm h'))
  | srv => exact .inl (Eq.trans h (Eq.symm h'))
  | txt =>
      refine .inr fun hname => ?_
      cases h.2 _ hname
  | opt =>
      refine .inr fun hname => ?_
      obtain ⟨code, length, hoption⟩ := h _ hname
      cases hoption
  | sig => exact .inr (hunknown fs h)
  | tkey => exact .inr (hunknown fs h)
  | tsig => exact .inr (hunknown fs h)
  | ixfr => exact .inr (hunknown fs h)
  | axfr => exact .inr (hunknown fs h)
  | any => exact .inr (hunknown fs h)
  | unknown n => exact .inr (hunknown fs h)

/-- A field of a given kind ends at the same offset in two messages that agree on it. -/
theorem FieldAt.stop_eq {v v' : FieldView} (h : FieldAt wire v) (h' : FieldAt wire' v')
    (hstart : v.start = v'.start) (hfield : v.field = v'.field)
    (hagree : AgreeOn (fun i => v.start ≤ i ∧ i < v.stop) wire wire') : v = v' := by
  obtain ⟨start, stop, field⟩ := v
  obtain ⟨start', stop', field'⟩ := v'
  obtain rfl : start = start' := hstart
  obtain rfl : field = field' := hfield
  cases field with
  | bytes n =>
      simp only [FieldAt] at h h'
      rw [h, h']
  | name =>
      obtain ⟨labels, h⟩ := h
      obtain ⟨labels', h'⟩ := h'
      obtain rfl : stop = stop' := h.end_eq h' hagree
      rfl
  | string =>
      obtain ⟨length, hlength, hstop⟩ := h
      obtain ⟨length', hlength', hstop'⟩ := h'
      dsimp only at hlength hstop hlength' hstop' hagree
      rw [hagree start (by omega), hlength'] at hlength
      cases hlength
      rw [hstop, hstop']
  | option code length =>
      simp only [FieldAt] at h h'
      rw [h.2.2, h'.2.2]

/-- Two lists of fields that start together and name the same fields are one list. -/
theorem fields_lockstep {p e e' : Nat} {as bs : List FieldView}
    (h : Tiles (FieldAt wire) p as e) (h' : Tiles (FieldAt wire') p bs e')
    (hfields : as.map FieldView.field = bs.map FieldView.field)
    (hagree : AgreeOn (fun i => p ≤ i ∧ i < e) wire wire') : as = bs := by
  induction as generalizing p bs with
  | nil => exact (List.map_eq_nil_iff.mp hfields.symm).symm
  | cons a as ih =>
      obtain ⟨b, bs, rfl, hb, hbs⟩ := List.map_eq_cons_iff.mp hfields.symm
      obtain ⟨rfl, ha, has⟩ := tiles_cons_iff.mp h
      obtain ⟨hstart, hb', hbs'⟩ := tiles_cons_iff.mp h'
      have hle : a.stop ≤ e := has.le fun _ => FieldAt.start_le_stop
      have hastart : a.start ≤ a.stop := ha.start_le_stop
      obtain rfl : a = b := ha.stop_eq hb' hstart hb.symm fun i hi => hagree i
        ⟨hi.1, Nat.lt_of_lt_of_le hi.2 hle⟩
      rw [ih has hbs' hbs.symm fun i hi => hagree i ⟨Nat.le_trans hastart hi.1, hi.2⟩]

/-- A record that starts at the same offset in two messages that agree on its bytes ends at
the same offset, and its names decode in both. -/
theorem RecordAt.lockstep {v v' : RecordView} (h : RecordAt wire v) (h' : RecordAt wire' v')
    (hstart : v.start = v'.start)
    (hagree : AgreeOn (fun i => v.start ≤ i ∧ i < v.stop) wire wire') :
    v.stop = v'.stop ∧ ∀ p ∈ v.names, Decodes wire' p := by
  obtain ⟨labels, howner, -⟩ := h.owner
  obtain ⟨labels', howner', -⟩ := h'.owner
  rw [← hstart] at howner'
  have hlt := howner.lt_end
  have hstop : v.stop = v.fixedAt + 10 + v.length.toNat := rfl
  have hstop' : v'.stop = v'.fixedAt + 10 + v'.length.toNat := rfl
  have hfixed : v.fixedAt = v'.fixedAt := howner.end_eq howner' fun i hi => hagree i (by omega)
  -- The fixed fields are the same words in both messages.
  have hword : ∀ i, v.fixedAt ≤ i → i ≤ v.fixedAt + 8 → wordAt wire i = wordAt wire' i :=
    fun i _ _ => wordAt_congr fun j hj => hagree j (by omega)
  have hkind : v.kind = v'.kind := by
    have hk := h.kind
    rw [hword v.fixedAt (by omega) (by omega), hfixed, h'.kind] at hk
    exact (Option.some.inj hk).symm
  have hclass : v.classWire = v'.classWire := by
    have hc := h.classWire
    rw [hword (v.fixedAt + 2) (by omega) (by omega), hfixed, h'.classWire] at hc
    exact (Option.some.inj hc).symm
  have hlength : v.length = v'.length := by
    have hl := h.length
    rw [hword (v.fixedAt + 8) (by omega) (by omega), hfixed, h'.length] at hl
    exact (Option.some.inj hl).symm
  refine ⟨by rw [hstop, hstop', hfixed, hlength], fun p hp => ?_⟩
  rcases List.mem_cons.mp hp with rfl | hp
  · exact ⟨labels', _, howner'⟩
  · have hlayout := h'.layout
    rw [← hkind, ← hclass] at hlayout
    obtain ⟨f, hf, rfl⟩ := List.mem_map.mp hp
    obtain ⟨hmem, hname⟩ := List.mem_filter.mp hf
    rcases h.layout.eq_or_nameless hlayout with hfields | hnone
    · have hdata := h'.data
      have hdataStart : v'.dataStart = v.dataStart := by
        rw [RecordView.dataStart, RecordView.dataStart, hfixed]
      rw [hdataStart] at hdata
      have heq := fields_lockstep h.data hdata hfields fun i hi => hagree i (by
        have : v.dataStart = v.fixedAt + 10 := rfl
        omega)
      have hfield := hdata.forall_mem f (heq ▸ hmem)
      rw [FieldAt, of_decide_eq_true hname] at hfield
      obtain ⟨labels, hlabels⟩ := hfield
      exact ⟨labels, _, hlabels⟩
    · exact absurd (List.mem_map.mpr ⟨f, hmem, of_decide_eq_true hname⟩) hnone

/-- Records that start together in two messages that agree on their bytes: all names
decode in both, and the second message goes on where the first list ends. -/
theorem records_lockstep {p e e' : Nat} {as bs : List RecordView}
    (h : Tiles (RecordAt wire) p as e) (h' : Tiles (RecordAt wire') p bs e')
    (hlen : as.length ≤ bs.length) (hagree : AgreeOn (fun i => p ≤ i ∧ i < e) wire wire') :
    (∀ v ∈ as, ∀ n ∈ v.names, Decodes wire' n) ∧
      ∃ cs, Tiles (RecordAt wire') e cs e' ∧ as.length + cs.length = bs.length := by
  induction as generalizing p bs with
  | nil =>
      obtain rfl := tiles_nil_iff.mp h
      exact ⟨by simp, bs, h', by simp⟩
  | cons a as ih =>
      cases bs with
      | nil => simp at hlen
      | cons b bs =>
          obtain ⟨rfl, ha, has⟩ := tiles_cons_iff.mp h
          obtain ⟨hstart, hb, hbs⟩ := tiles_cons_iff.mp h'
          have hle : a.stop ≤ e := has.le fun _ => RecordAt.start_le_stop
          have hastart : a.start ≤ a.stop := ha.start_le_stop
          obtain ⟨hstop, hnames⟩ := ha.lockstep hb hstart fun i hi => hagree i
            ⟨hi.1, Nat.lt_of_lt_of_le hi.2 hle⟩
          have hstop : Span.stop a = Span.stop b := hstop
          rw [← hstop] at hbs
          obtain ⟨hrest, cs, hcs, hcount⟩ := ih has hbs (by simpa using hlen) fun i hi =>
            hagree i ⟨Nat.le_trans hastart hi.1, hi.2⟩
          refine ⟨?_, cs, hcs, by simp only [List.length_cons]; omega⟩
          intro v hv
          rcases List.mem_cons.mp hv with rfl | hv
          · exact hnames
          · exact hrest v hv

/-- Two lists of questions of one length that start together end together, and their names
decode. -/
theorem questions_lockstep {p e e' : Nat} {as bs : List QuestionView}
    (h : Tiles (QuestionAt wire) p as e) (h' : Tiles (QuestionAt wire') p bs e')
    (hlen : as.length = bs.length) (hagree : AgreeOn (fun i => p ≤ i ∧ i < e) wire wire') :
    e = e' ∧ ∀ v ∈ as, Decodes wire' v.start := by
  induction as generalizing p bs with
  | nil =>
      obtain rfl := List.eq_nil_of_length_eq_zero hlen.symm
      obtain rfl := tiles_nil_iff.mp h
      exact ⟨tiles_nil_iff.mp h', by simp⟩
  | cons a as ih =>
      cases bs with
      | nil => simp at hlen
      | cons b bs =>
          obtain ⟨rfl, ha, has⟩ := tiles_cons_iff.mp h
          obtain ⟨hstart, hb, hbs⟩ := tiles_cons_iff.mp h'
          have hle : a.stop ≤ e := has.le fun _ => QuestionAt.start_le_stop
          have hastart : a.start ≤ a.stop := ha.start_le_stop
          have hastop : a.stop = a.fixedAt + 4 := rfl
          have hstart : a.start = b.start := hstart
          have hname := hb.name
          rw [← hstart] at hname
          have hfixed : a.fixedAt = b.fixedAt := ha.name.end_eq hname fun i hi =>
            hagree i ⟨hi.1, by omega⟩
          have hstop : Span.stop b = Span.stop a := congrArg (· + 4) hfixed.symm
          rw [hstop] at hbs
          obtain ⟨hend, hrest⟩ := ih has hbs (by simpa using hlen) fun i hi =>
            hagree i ⟨Nat.le_trans hastart hi.1, hi.2⟩
          refine ⟨hend, fun v hv => ?_⟩
          rcases List.mem_cons.mp hv with rfl | hv
          · exact ⟨_, _, hname⟩
          · exact hrest v hv

/-! ### Headers -/

/-- A header depends on the first twelve bytes alone. -/
theorem HeaderAt.congr {header : Header} (h : HeaderAt wire header)
    (hagree : AgreeOn (fun i => i < 12) wire wire') : HeaderAt wire' header := by
  have hword : ∀ i, i ≤ 10 → wordAt wire i = wordAt wire' i :=
    fun i _ => wordAt_congr fun j hj => hagree j (by omega)
  exact ⟨hword 0 (by omega) ▸ h.id, hword 2 (by omega) ▸ h.flags, hword 4 (by omega) ▸ h.questions,
    hword 6 (by omega) ▸ h.answers, hword 8 (by omega) ▸ h.authorities,
    hword 10 (by omega) ▸ h.additionals⟩

/-- Twelve bytes hold one header. -/
theorem HeaderAt.unique {header header' : Header} (h : HeaderAt wire header)
    (h' : HeaderAt wire header') : header = header' := by
  have hparse := Header.parse_eq_ok_iff.mpr h
  rw [Header.parse_eq_ok_iff.mpr h'] at hparse
  exact (Except.ok.inj hparse).symm

/-! ### Messages that agree behind the header -/

/-- The names of a question or a record start inside it. -/
theorem RecordAt.start_le_names {v : RecordView} (h : RecordAt wire v) :
    ∀ p ∈ v.names, v.start ≤ p := by
  obtain ⟨labels, howner, -⟩ := h.owner
  have hlt := howner.lt_end
  have hstart : v.dataStart = v.fixedAt + 10 := rfl
  intro p hp
  rcases List.mem_cons.mp hp with rfl | hp
  · exact Nat.le_refl _
  · obtain ⟨f, hf, rfl⟩ := List.mem_map.mp hp
    have hspan : v.dataStart ≤ f.start ∧ f.stop ≤ v.stop :=
      h.data.bounds (fun _ => FieldAt.start_le_stop) f (List.mem_filter.mp hf).1
    omega

/-- Every name of a record decodes. -/
theorem RecordAt.decodes {v : RecordView} (h : RecordAt wire v) :
    ∀ p ∈ v.names, Decodes wire p := by
  intro p hp
  rcases List.mem_cons.mp hp with rfl | hp
  · obtain ⟨labels, howner, -⟩ := h.owner
    exact ⟨labels, _, howner⟩
  · obtain ⟨f, hf, rfl⟩ := List.mem_map.mp hp
    obtain ⟨hmem, hname⟩ := List.mem_filter.mp hf
    have hfield := h.data.forall_mem f hmem
    rw [FieldAt, of_decide_eq_true hname] at hfield
    obtain ⟨labels, hlabels⟩ := hfield
    exact ⟨labels, _, hlabels⟩

/-- A derivation survives every change of the header that keeps the opcode and the
counts. -/
theorem Derives.congr {d : Derivation} (h : Derives wire d) {header' : Header}
    (hheader : HeaderAt wire' header') (hcounts : header'.counts = d.header.counts)
    (hopcode : header'.opcode = d.header.opcode) (hlen : wire'.length = wire.length)
    (hagree : AgreeOn (fun i => 12 ≤ i) wire wire') :
    Derives wire' { d with header := header' } := by
  obtain ⟨m, hquestions, hrecords⟩ := h.tiles
  have hm : 12 ≤ m := hquestions.le fun _ => QuestionAt.start_le_stop
  refine ⟨hlen ▸ h.long, hlen ▸ h.short, hheader, fun hquery => ?_, ?_, ?_, ⟨m, ?_, ?_⟩, h.oneOpt⟩
  · dsimp only
    rw [hcounts]
    exact h.single (hopcode ▸ hquery)
  · dsimp only
    rw [hcounts]
    exact h.questionCount
  · dsimp only
    rw [hcounts]
    exact h.sections
  -- A name is read behind the header only, so every question and record decodes as before.
  · refine hquestions.mono fun v hv hat => ?_
    have hstart : 12 ≤ v.start :=
      (hquestions.bounds (fun _ => QuestionAt.start_le_stop) v hv).1
    exact hat.transfer (fun i hi => hagree i (by omega))
      ⟨_, hat.name.congr_afterHeader hstart hagree⟩
  · rw [hlen]
    refine hrecords.mono fun v hv hat => ?_
    obtain ⟨hstart, hstop⟩ : m ≤ v.start ∧ v.stop ≤ wire.length :=
      hrecords.bounds (fun _ => RecordAt.start_le_stop) v hv
    refine hat.transfer (fun i hi => hagree i (by omega)) (hlen ▸ hstop) (fun p hp => ?_)
      fun hkind => ?_
    · obtain ⟨labels, e, hname⟩ := hat.decodes p hp
      have := hat.start_le_names p hp
      exact ⟨labels, e, hname.congr_afterHeader (by omega) hagree⟩
    -- The owner of OPT is the root, which has no pointer.
    · obtain ⟨labels, howner, hroot⟩ := hat.owner
      obtain rfl := hroot hkind
      exact ⟨_, howner.congr_afterHeader (by omega) hagree⟩

end Sederial.Dns
