import Sederial.Proofs.FrameRuns

/-!
# `Sederial.Proofs.Framing`: TCP framing under any fragmentation

A stream delivers bytes in chunks of any size, with transient failures in between.
`TcpStream.Delivers` forgets the chunks, and `nextFrame` is framing on bytes alone: the next
message and what stands behind it, a clean end, or the error for a stream that ends inside a
frame. `ReadsFrame.next` proves that a run of `read_frame` whose deadline checks all pass does
what `nextFrame` says. `WritesRest.completes` is the result for the other side: on a stream that
takes bytes in pieces of any size, a frame is written whole.

`InTime` is the condition that a run stayed within its deadline and was not cancelled. It speaks
of the checks the run made. `ReadsFrame.inTime` and `WritesRest.inTime` say that enough good
clock readings guarantee it, so the condition is never the reason why a run does not exist.
-/

set_option autoImplicit false

namespace Sederial

open Sederial.Lib
open Sederial.Dns (headerLength maxMessageLength)

/-! ### Deadlines -/

/-- Every deadline check among the events passed. -/
def InTime (deadline : Deadline) (events : List Event) : Prop :=
  ∀ reading, Event.check reading ∈ events → ∃ left, deadline.left reading = .ok left

namespace InTime

variable {deadline : Deadline} {events events' : List Event}

/-- Both stretches are in time, or the whole is not. -/
theorem append : InTime deadline (events ++ events') ↔
    InTime deadline events ∧ InTime deadline events' := by
  unfold InTime
  simp only [List.mem_append]
  constructor
  · intro h
    exact ⟨fun reading hmem => h reading (.inl hmem), fun reading hmem => h reading (.inr hmem)⟩
  · rintro ⟨h, h'⟩ reading (hmem | hmem)
    · exact h reading hmem
    · exact h' reading hmem

/-- The rest of what is in time is in time. -/
theorem cons {e : Event} (h : InTime deadline (e :: events)) : InTime deadline events :=
  fun reading hmem => h reading (List.mem_cons_of_mem e hmem)

/-- A check that passed may come first. -/
theorem cons_check {reading : Option Reading} {left : Nat} (h : deadline.left reading = .ok left)
    (hevents : InTime deadline events) : InTime deadline (.check reading :: events) := by
  intro reading' hmem
  rcases List.mem_cons.mp hmem with heq | hmem
  · cases heq
    exact ⟨left, h⟩
  · exact hevents reading' hmem

/-- A check that passed is in time. -/
theorem single {reading : Option Reading} {left : Nat} (h : deadline.left reading = .ok left) :
    InTime deadline [.check reading] :=
  cons_check h fun _ hmem => nomatch hmem

/-- Bytes that are moved do not count. -/
theorem cons_other {e : Event} (he : ∀ reading, e ≠ .check reading)
    (hevents : InTime deadline events) : InTime deadline (e :: events) := by
  intro reading hmem
  rcases List.mem_cons.mp hmem with heq | hmem
  · exact (he reading heq.symm).elim
  · exact hevents reading hmem

/-- A check that failed is not in time. -/
theorem not_late {reading : Option Reading} {e : IoError}
    (h : InTime deadline [.check reading]) (hlate : deadline.left reading = .error e) : False := by
  obtain ⟨left, hleft⟩ := h reading List.mem_cons_self
  rw [hlate] at hleft
  cases hleft

/-- A deadline check passed, or the event is none. -/
def passes (deadline : Deadline) : Event → Bool
  | .check reading => (deadline.left reading).isOk
  | _ => true

/-- Whether events are in time, as a computation. -/
theorem iff_all : (∀ e ∈ events, passes deadline e = true) ↔ InTime deadline events := by
  have hok : ∀ reading, (deadline.left reading).isOk = true ↔
      ∃ left, deadline.left reading = .ok left := by
    intro reading
    cases deadline.left reading <;> simp [Except.isOk, Except.toBool]
  constructor
  · intro h reading hmem
    exact (hok reading).mp (h _ hmem)
  · intro h e he
    cases e with
    | check reading => exact (hok reading).mpr (h reading he)
    | _ => rfl

/-- It can be decided. -/
instance : Decidable (InTime deadline events) := decidable_of_iff _ iff_all

end InTime

/-- The next `n` clock readings are there and pass the deadline. -/
def Punctual (deadline : Deadline) (n : Nat) (clock : List Reading) : Prop :=
  n ≤ clock.length ∧ ∀ reading ∈ clock.take n, ∃ left, deadline.left (some reading) = .ok left

namespace Punctual

variable {deadline : Deadline} {n m : Nat} {clock : List Reading}

/-- Fewer readings pass as well. -/
theorem mono (h : Punctual deadline n clock) (hle : m ≤ n) : Punctual deadline m clock :=
  ⟨Nat.le_trans hle h.1, fun reading hmem =>
    h.2 reading (List.take_subset_take_left clock hle hmem)⟩

/-- The next reading passes, and the others remain. -/
theorem next (h : Punctual deadline (n + 1) clock) :
    (∃ left, deadline.left clock.head? = .ok left) ∧ Punctual deadline n clock.tail := by
  obtain ⟨hlength, hall⟩ := h
  cases clock with
  | nil => simp at hlength
  | cons reading rest =>
    refine ⟨hall reading (by simp), by simpa using hlength, fun reading' hmem => ?_⟩
    exact hall reading' (List.mem_cons_of_mem reading hmem)

/-- The next reading passes. -/
theorem not_late {e : IoError} (h : Punctual deadline n clock) (hpos : 0 < n)
    (hlate : deadline.left clock.head? = .error e) : False := by
  obtain ⟨⟨left, hleft⟩, -⟩ := (h.mono hpos).next
  rw [hlate] at hleft
  cases hleft

end Punctual

/-! ### What a stream delivers -/

/-- The bytes of a turn. -/
def ReadEvent.bytes : ReadEvent → List UInt8
  | .data bytes => bytes
  | .failed _ | .timeoutRejected _ => []

/-- A turn that delivers something or fails only for the moment. -/
def ReadEvent.Benign : ReadEvent → Prop
  | .data bytes => bytes ≠ []
  | .failed kind => transient kind
  | .timeoutRejected _ => False

/-- The stream delivers the bytes, in chunks of any size and with transient failures in
between, and then ends. -/
structure TcpStream.Delivers (stream : TcpStream) (bytes : List UInt8) : Prop where
  benign : ∀ e ∈ stream.incoming, e.Benign
  bytes : stream.incoming.flatMap ReadEvent.bytes = bytes

namespace TcpStream.Delivers

variable {stream : TcpStream} {bytes : List UInt8}

/-- What one read can do. -/
theorem read (h : stream.Delivers bytes) {n : Nat} (hn : 0 < n) :
    (bytes = [] ∧ stream.read n = (.ok [], stream)) ∨
      (∃ chunk rest stream', stream.read n = (.ok chunk, stream') ∧ chunk ≠ [] ∧
        chunk.length ≤ n ∧ bytes = chunk ++ rest ∧ stream'.Delivers rest) ∨
      ∃ kind stream', stream.read n = (.error kind, stream') ∧ transient kind ∧
        stream'.Delivers bytes := by
  obtain ⟨hbenign, hbytes⟩ := h
  unfold TcpStream.read
  -- The script of the stream is over, or its next event says what `read` returns.
  cases hincoming : stream.incoming with
  | nil =>
    rw [hincoming] at hbytes
    exact .inl ⟨hbytes.symm, rfl⟩
  | cons e rest =>
    rw [hincoming] at hbenign hbytes
    obtain ⟨he, hrest⟩ := List.forall_mem_cons.mp hbenign
    rw [List.flatMap_cons] at hbytes
    cases e with
    | failed kind => exact .inr (.inr ⟨kind, _, rfl, he, hrest, hbytes⟩)
    | timeoutRejected kind => exact he.elim
    | data chunk =>
      refine .inr (.inl ?_)
      dsimp only
      split
      · rename_i hfits
        exact ⟨chunk, _, _, rfl, he, hfits, hbytes.symm, hrest, rfl⟩
      · -- The rest of the chunk stays in the kernel.
        rename_i hlong
        have hlong := Nat.not_le.mp hlong
        refine ⟨chunk.take n, chunk.drop n ++ rest.flatMap ReadEvent.bytes, _, rfl, ?_, ?_, ?_, ?_⟩
        · intro hnil
          rw [List.take_eq_nil_iff] at hnil
          rcases hnil with hnil | hnil
          · omega
          · exact he hnil
        · simp
        · rw [← List.append_assoc, List.take_append_drop]
          exact hbytes.symm
        · refine ⟨List.forall_mem_cons.mpr ⟨?_, hrest⟩, rfl⟩
          show chunk.drop n ≠ []
          intro hnil
          have := List.drop_eq_nil_iff.mp hnil
          omega

variable {n : Nat} {stream' : TcpStream}

/-- A stream is at its end only when it has delivered everything. -/
theorem read_end (h : stream.Delivers bytes) (hn : 0 < n)
    (hread : stream.read n = (.ok [], stream')) : bytes = [] := by
  rcases h.read hn with ⟨hnil, -⟩ | ⟨chunk, rest, _, hchunk, hne, -⟩ | ⟨kind, _, hfailed, -⟩
  · exact hnil
  · rw [hread] at hchunk
    cases hchunk
    exact (hne rfl).elim
  · rw [hread] at hfailed
    cases hfailed

/-- A read of some bytes takes them off what the stream delivers. -/
theorem read_chunk {chunk : List UInt8} (h : stream.Delivers bytes) (hn : 0 < n)
    (hread : stream.read n = (.ok chunk, stream')) (hne : chunk ≠ []) :
    chunk.length ≤ n ∧ ∃ rest, bytes = chunk ++ rest ∧ stream'.Delivers rest := by
  rcases h.read hn with ⟨-, hend⟩ | ⟨chunk, rest, _, hchunk, -, hfits, heq, hnext⟩ |
    ⟨kind, _, hfailed, -⟩
  · rw [hread] at hend
    cases hend
    exact (hne rfl).elim
  · rw [hread] at hchunk
    cases hchunk
    exact ⟨hfits, rest, heq, hnext⟩
  · rw [hread] at hfailed
    cases hfailed

/-- A read that failed takes nothing off. -/
theorem read_failed {kind : ErrorKind} (h : stream.Delivers bytes) (hn : 0 < n)
    (hread : stream.read n = (.error kind, stream')) :
    transient kind ∧ stream'.Delivers bytes := by
  rcases h.read hn with
      ⟨-, hend⟩ | ⟨chunk, rest, _, hchunk, -⟩ | ⟨kind, _, hfailed, htransient, hnext⟩
  · rw [hread] at hend
    cases hend
  · rw [hread] at hchunk
    cases hchunk
  · rw [hread] at hfailed
    cases hfailed
    exact ⟨htransient, hnext⟩

/-- A stream that delivers does not refuse a timeout. -/
theorem not_refused {kind : ErrorKind} {rest : List ReadEvent} (h : stream.Delivers bytes)
    (hrefused : stream.incoming = .timeoutRejected kind :: rest) : False :=
  h.benign (.timeoutRejected kind) (by rw [hrefused]; exact List.mem_cons_self)

end TcpStream.Delivers

/-- The error of a stream that ends inside a field. -/
def IoError.cutField : IoError := ⟨.unexpectedEof, .message "partial TCP frame"⟩

/-- A field is filled from the bytes of the stream, or the stream ends before it is full. -/
theorem ReadsField.delivers {length : Nat} {deadline : Deadline} {clock clock' : List Reading}
    {stream final : TcpStream} {got bytes : List UInt8}
    {r : Except IoError (Option (List UInt8))} {new : List Event}
    (h : ReadsField length deadline clock stream got r new clock' final)
    (hdelivers : stream.Delivers bytes) (hintime : InTime deadline new)
    (hgot : got.length ≤ length) :
    (length ≤ got.length + bytes.length →
        r = .ok (some (got ++ bytes.take (length - got.length))) ∧
          final.Delivers (bytes.drop (length - got.length))) ∧
      (got.length + bytes.length < length →
        r = if got ++ bytes = [] then .ok none else .error .cutField) := by
  -- The induction follows the reads of the field: `bytes` is what the peer still delivers.
  induction h generalizing bytes with
  | late late => exact (hintime.not_late late).elim
  | full full intime =>
    have hzero : length - List.length _ = 0 := Nat.sub_eq_zero_of_le full
    refine ⟨fun _ => ?_, fun hshort => by omega⟩
    rw [hzero]
    simpa using hdelivers
  | refused part intime refused => exact (hdelivers.not_refused refused).elim
  | eof part intime read =>
    obtain rfl := hdelivers.read_end part read
    refine ⟨fun hlong => ?_, fun _ => rfl⟩
    exact absurd hlong (Nat.not_le.mpr part)
  | cut part some intime read =>
    obtain rfl := hdelivers.read_end (Nat.sub_pos_of_lt part) read
    refine ⟨fun hlong => absurd hlong (Nat.not_le.mpr part), fun _ => ?_⟩
    rw [List.append_nil, if_neg some]
    rfl
  | bytes part intime read some rest ih =>
    obtain ⟨hfits, behind, rfl, hnext⟩ :=
      hdelivers.read_chunk (Nat.sub_pos_of_lt part) read some
    obtain ⟨hlong, hshort⟩ := ih hnext hintime.cons.cons (by rw [List.length_append]; omega)
    simp only [List.length_append] at hlong hshort ⊢
    refine ⟨fun hle => ?_, fun hlt => ?_⟩
    · -- The chunk lies in the field, and the rest of the field comes from what is behind it.
      obtain ⟨hr, hfinal⟩ := hlong (by omega)
      rw [← Nat.sub_sub] at hr hfinal
      rw [hr, List.take_append, List.drop_append, List.take_of_length_le hfits,
        List.drop_of_length_le hfits, List.append_assoc]
      exact ⟨rfl, hfinal⟩
    · rw [hshort (by omega), List.append_assoc]
  | again part intime read transient rest ih =>
    obtain ⟨-, hnext⟩ := hdelivers.read_failed (Nat.sub_pos_of_lt part) read
    exact ih hnext hintime.cons hgot
  | failed part intime read permanent =>
    obtain ⟨htransient, -⟩ := hdelivers.read_failed (Nat.sub_pos_of_lt part) read
    rw [permanent] at htransient
    cases htransient

/-- A whole field. -/
theorem ReadsField.whole {length : Nat} {deadline : Deadline} {clock clock' : List Reading}
    {stream final : TcpStream} {bytes : List UInt8} {r : Except IoError (Option (List UInt8))}
    {new : List Event} (h : ReadsField length deadline clock stream [] r new clock' final)
    (hdelivers : stream.Delivers bytes) (hintime : InTime deadline new) :
    (length ≤ bytes.length →
        r = .ok (some (bytes.take length)) ∧ final.Delivers (bytes.drop length)) ∧
      (bytes.length < length → r = if bytes = [] then .ok none else .error .cutField) := by
  simpa using h.delivers hdelivers hintime (Nat.zero_le length)

/-! ### Framing on bytes -/

/-- What framing finds at the start of some bytes. -/
inductive Next where
  | done
  | message (wire rest : List UInt8)
  | broken (error : IoError)
  deriving DecidableEq

/-- The error of a prefix that stands for less than a header. -/
def IoError.shortFrame : IoError :=
  ⟨.invalidData, .message "TCP DNS frame shorter than header"⟩

/-- The error of a stream that ends behind a prefix. -/
def IoError.missingBody : IoError := ⟨.unexpectedEof, .message "missing TCP frame body"⟩

/-- The next message of some bytes and the bytes behind it. -/
def nextFrame (bytes : List UInt8) : Next :=
  if bytes.length < 2 then
    if bytes = [] then .done else .broken .cutField
  else if frameLength bytes < headerLength then .broken .shortFrame
  else if frameLength bytes ≤ (bytes.drop 2).length then
    .message ((bytes.drop 2).take (frameLength bytes)) ((bytes.drop 2).drop (frameLength bytes))
  else .broken (if bytes.drop 2 = [] then .missingBody else .cutField)

/-- The result of `read_frame` and the bytes left in the stream are what framing found. -/
def Next.Found (next : Next) (r : Except IoError (Option (List UInt8))) (final : TcpStream) :
    Prop :=
  match next with
  | .done => r = .ok none
  | .message wire rest => r = .ok (some wire) ∧ final.Delivers rest
  | .broken e => r = .error e

/-- The length of a frame is in its first two bytes. -/
theorem frameLength_take (bytes : List UInt8) : frameLength (bytes.take 2) = frameLength bytes := by
  unfold frameLength
  simp [List.getD_eq_getElem?_getD]

/-- What `read_frame` makes of the way the read of a body ended. -/
def bodyResult : Except IoError (Option (List UInt8)) → Except IoError (Option (List UInt8))
  | .ok none => .error .missingBody
  | r => r

section

variable {deadline : Deadline} {clock clock' : List Reading} {stream final : TcpStream}
  {bytes : List UInt8} {r : Except IoError (Option (List UInt8))} {new : List Event}

/-- The stream ends before the prefix is complete. -/
theorem ReadsFrame.of_short (h : ReadsFrame deadline clock stream r new clock' final)
    (hdelivers : stream.Delivers bytes) (hintime : InTime deadline new)
    (hlt : bytes.length < 2) : r = if bytes = [] then .ok none else .error .cutField := by
  have hheader : ∀ {r new clock' final}, ReadsField 2 deadline clock stream [] r new clock' final →
      InTime deadline new → r = if bytes = [] then .ok none else .error .cutField :=
    fun hfield htime => (hfield.whole hdelivers htime).2 hlt
  have hnever : ∀ {field : List UInt8},
      (.ok (some field) : Except IoError _) ≠
        if bytes = [] then .ok none else .error .cutField := by
    intro field
    split <;> simp
  cases h with
  | prefixFailed header => exact hheader header hintime
  | eof header => exact hheader header hintime
  | short header short => exact (hnever (hheader header hintime)).elim
  | bodyFailed header long body =>
    exact (hnever (hheader header (InTime.append.mp hintime).1)).elim
  | missing header long body => exact (hnever (hheader header (InTime.append.mp hintime).1)).elim
  | message header long body => exact (hnever (hheader header (InTime.append.mp hintime).1)).elim

/-- A complete prefix holds the length of the body, and the rest of the stream is behind it. -/
theorem ReadsField.of_prefix (h : ReadsField 2 deadline clock stream [] r new clock' final)
    (hdelivers : stream.Delivers bytes) (hintime : InTime deadline new)
    (hge : 2 ≤ bytes.length) : r = .ok (some (bytes.take 2)) ∧ final.Delivers (bytes.drop 2) :=
  (h.whole hdelivers hintime).1 hge

/-- The body behind a complete prefix is whole, missing or cut. -/
theorem ReadsField.found_body {field : List UInt8} {clock'' : List Reading}
    {stream' : TcpStream} {new' : List Event}
    (header : ReadsField 2 deadline clock stream [] (.ok (some field)) new clock' stream')
    (long : headerLength ≤ frameLength field)
    (body : ReadsField (frameLength field) deadline clock' stream' [] r new' clock'' final)
    (hdelivers : stream.Delivers bytes) (hintime : InTime deadline (new ++ new'))
    (hge : 2 ≤ bytes.length) : (nextFrame bytes).Found (bodyResult r) final := by
  obtain ⟨hheaderTime, hbodyTime⟩ := InTime.append.mp hintime
  obtain ⟨hfield, hbehind⟩ := header.of_prefix hdelivers hheaderTime hge
  cases hfield
  rw [frameLength_take] at long body
  obtain ⟨hfull, hcut⟩ := body.whole hbehind hbodyTime
  unfold nextFrame
  rw [if_neg (Nat.not_lt.mpr hge), if_neg (Nat.not_lt.mpr long)]
  by_cases hle : frameLength bytes ≤ (bytes.drop 2).length
  · obtain ⟨rfl, hrest⟩ := hfull hle
    rw [if_pos hle]
    exact ⟨rfl, hrest⟩
  · have hr := hcut (Nat.not_le.mp hle)
    rw [if_neg hle]
    by_cases hnil : bytes.drop 2 = []
    · rw [if_pos hnil] at hr
      rw [if_pos hnil, hr]
      rfl
    · rw [if_neg hnil] at hr
      rw [if_neg hnil, hr]
      rfl

/-- Within its deadline, `read_frame` does what framing on bytes does. -/
theorem ReadsFrame.next (h : ReadsFrame deadline clock stream r new clock' final)
    (hdelivers : stream.Delivers bytes) (hintime : InTime deadline new) :
    (nextFrame bytes).Found r final := by
  rcases Nat.lt_or_ge bytes.length 2 with hlt | hge
  · unfold nextFrame
    rw [if_pos hlt, h.of_short hdelivers hintime hlt]
    split
    · rfl
    · rfl
  · cases h with
    | prefixFailed header => cases (header.of_prefix hdelivers hintime hge).1
    | eof header => cases (header.of_prefix hdelivers hintime hge).1
    | short header short =>
      obtain ⟨hfield, -⟩ := header.of_prefix hdelivers hintime hge
      cases hfield
      rw [frameLength_take] at short
      unfold nextFrame
      rw [if_neg (Nat.not_lt.mpr hge), if_pos short]
      rfl
    | bodyFailed header long body => exact header.found_body long body hdelivers hintime hge
    | missing header long body => exact header.found_body long body hdelivers hintime hge
    | message header long body => exact header.found_body long body hdelivers hintime hge

end

/-! ### Frames and their prefixes -/

/-- A message that fits into a frame. -/
def Framed (wire : List UInt8) : Prop := headerLength ≤ wire.length ∧ wire.length ≤ maxMessageLength

/-- The length of a frame that was put together. -/
theorem frameLength_frame {wire : List UInt8} (h : Framed wire) (rest : List UInt8) :
    frameLength (frame wire ++ rest) = wire.length := by
  have hlength : wire.length < 65536 := Nat.lt_succ_of_le h.2
  have hword : frameLength (frame wire ++ rest) = (UInt16.ofNat wire.length).toNat :=
    congrArg UInt16.toNat (word_wordBytes (UInt16.ofNat wire.length))
  rw [hword]
  simpa using Nat.mod_eq_of_lt hlength

/-- A frame is two bytes longer than its message. -/
theorem length_frame (wire : List UInt8) : (frame wire).length = wire.length + 2 := by
  unfold frame
  rw [List.length_append, length_wordBytes, Nat.add_comm]

/-- Behind the length stands the message. -/
theorem drop_two_frame (wire rest : List UInt8) : (frame wire ++ rest).drop 2 = wire ++ rest := rfl

/-- Framing finds a message behind its prefix, and leaves what stands behind the message. -/
theorem nextFrame_frame {wire : List UInt8} (h : Framed wire) (rest : List UInt8) :
    nextFrame (frame wire ++ rest) = .message wire rest := by
  have hlength := length_frame wire
  unfold nextFrame
  rw [frameLength_frame h, drop_two_frame, if_neg (by rw [List.length_append]; omega),
    if_neg (Nat.not_lt.mpr h.1), if_pos (by rw [List.length_append]; omega), List.take_left,
    List.drop_left]

/-- Bytes with which no frame starts: they end inside a frame, or their prefix is too small. -/
inductive Broken : List UInt8 → Prop
  | cut {tail wire : List UInt8} (framed : Framed wire) (inside : tail <+: frame wire)
      (some : tail ≠ []) (part : tail ≠ frame wire) : Broken tail
  | short {a b : UInt8} {rest : List UInt8} (short : (word a b).toNat < headerLength) :
      Broken (a :: b :: rest)

/-- A broken tail does not become a frame. -/
theorem Broken.next {tail : List UInt8} (h : Broken tail) : ∃ e, nextFrame tail = .broken e := by
  cases h with
  | @short a b rest short =>
    have hframeLength : frameLength (a :: b :: rest) = (word a b).toNat := rfl
    refine ⟨.shortFrame, ?_⟩
    unfold nextFrame
    rw [if_neg (by simp), hframeLength, if_pos short]
  | @cut _ wire framed inside some part =>
    obtain ⟨rest, hframe⟩ := inside
    have hrest : rest ≠ [] := by
      rintro rfl
      exact part (by simpa using hframe)
    have hlength := congrArg List.length hframe
    rw [List.length_append, length_frame] at hlength
    have hpos := List.length_pos_iff.mpr hrest
    unfold nextFrame
    by_cases hlt : tail.length < 2
    · rw [if_pos hlt, if_neg some]
      exact ⟨_, rfl⟩
    · have hframeLength : frameLength tail = wire.length := by
        have := frameLength_frame framed []
        rw [List.append_nil, ← hframe] at this
        rw [← this, ← frameLength_take tail, ← frameLength_take (tail ++ rest),
          List.take_append_of_le_length (by omega)]
      rw [if_neg hlt, hframeLength, if_neg (Nat.not_lt.mpr framed.1),
        if_neg (by rw [List.length_drop]; omega)]
      exact ⟨_, rfl⟩

/-- A prefix and as many bytes as it stands for are a frame. -/
theorem frame_eq {a b : UInt8} {wire : List UInt8} (h : wire.length = (word a b).toNat) :
    frame wire = a :: b :: wire := by
  unfold frame
  rw [h, UInt16.ofNat_toNat, wordBytes_word]
  rfl

/-- A message of the announced length can be framed. -/
theorem framed_of_length {a b : UInt8} {wire : List UInt8} (h : wire.length = (word a b).toNat)
    (hlong : headerLength ≤ (word a b).toNat) : Framed wire := by
  refine ⟨by rw [h]; exact hlong, ?_⟩
  rw [h]
  exact Nat.le_of_lt_succ (word a b).toNat_lt

/-- Bytes are empty, start with a frame, or are broken. -/
theorem frame_cases (bytes : List UInt8) :
    bytes = [] ∨ (∃ wire rest, Framed wire ∧ bytes = frame wire ++ rest) ∨ Broken bytes := by
  rcases bytes with _ | ⟨a, _ | ⟨b, body⟩⟩
  · exact .inl rfl
  · -- A single byte starts the frame of a message whose length has it as high byte.
    have ha := a.toNat_lt
    have hlength : (List.replicate (word a 12).toNat (0 : UInt8)).length = (word a 12).toNat :=
      List.length_replicate
    have hlong : headerLength ≤ (word a 12).toNat := by
      rw [toNat_word]
      exact Nat.le_add_left _ _
    refine .inr (.inr (.cut (framed_of_length hlength hlong) ?_ (by simp) ?_))
    · rw [frame_eq hlength]
      simp
    · rw [frame_eq hlength]
      simp
  · by_cases hshort : (word a b).toNat < headerLength
    · exact .inr (.inr (.short hshort))
    · have hlong := Nat.not_lt.mp hshort
      -- The whole body is there.
      by_cases hle : (word a b).toNat ≤ body.length
      · have hlength : (body.take (word a b).toNat).length = (word a b).toNat := by
          rw [List.length_take]
          exact Nat.min_eq_left hle
        refine .inr (.inl ⟨_, body.drop (word a b).toNat, framed_of_length hlength hlong, ?_⟩)
        rw [frame_eq hlength, List.cons_append, List.cons_append, List.take_append_drop]
      · -- The body is cut: more bytes would complete it.
        have hlt := Nat.not_le.mp hle
        have hlength : (body ++ List.replicate ((word a b).toNat - body.length) 0).length
            = (word a b).toNat := by
          rw [List.length_append, List.length_replicate]
          omega
        refine .inr (.inr (.cut (framed_of_length hlength hlong) ?_ (by simp) ?_))
        · rw [frame_eq hlength]
          simp
        · rw [frame_eq hlength]
          intro heq
          have hsame := congrArg List.length heq
          simp only [List.length_cons, hlength] at hsame
          omega

/-- Every byte string is a sequence of frames, and then ends or breaks off. -/
theorem exists_frames (bytes : List UInt8) :
    ∃ (messages : List (List UInt8)) (tail : List UInt8),
      (∀ wire ∈ messages, Framed wire) ∧ (tail = [] ∨ Broken tail) ∧
      bytes = messages.flatMap frame ++ tail := by
  induction hn : bytes.length using Nat.strong_induction_on generalizing bytes with
  | _ n ih =>
    rcases frame_cases bytes with rfl | ⟨wire, rest, hframed, rfl⟩ | hbroken
    · exact ⟨[], [], by simp, .inl rfl, rfl⟩
    · have hlength := length_frame wire
      obtain ⟨messages, tail, hmessages, htail, hrest⟩ :=
        ih rest.length (by rw [← hn, List.length_append]; omega) rest rfl
      refine ⟨wire :: messages, tail, List.forall_mem_cons.mpr ⟨hframed, hmessages⟩, htail, ?_⟩
      rw [hrest, List.flatMap_cons, List.append_assoc]
    · exact ⟨[], bytes, by simp, .inr hbroken, rfl⟩

/-! ### What a stream takes -/

/-- A turn that takes something or fails only for the moment. -/
def WriteEvent.Benign : WriteEvent → Prop
  | .accepted count => 0 < count
  | .failed kind => transient kind
  | .timeoutRejected _ => False

/-- The stream takes bytes in pieces of any size, with transient failures in between. -/
def TcpStream.TakesBytes (stream : TcpStream) : Prop := ∀ e ∈ stream.outgoing, e.Benign

/-- What one write can do. -/
theorem TcpStream.TakesBytes.write {stream : TcpStream} (h : stream.TakesBytes) {bytes : List UInt8}
    (hne : bytes ≠ []) :
    (∃ count stream', stream.write bytes = (.ok count, stream') ∧ 0 < count ∧ stream'.TakesBytes) ∨
      ∃ kind stream', stream.write bytes = (.error kind, stream') ∧ transient kind ∧
        stream'.TakesBytes := by
  have hpos := List.length_pos_iff.mpr hne
  unfold TcpStream.TakesBytes at h
  unfold TcpStream.write
  cases houtgoing : stream.outgoing with
  | nil =>
    refine .inl ⟨_, _, rfl, hpos, ?_⟩
    unfold TcpStream.TakesBytes
    rw [houtgoing]
    exact fun _ he => nomatch he
  | cons e rest =>
    rw [houtgoing] at h
    obtain ⟨he, hrest⟩ := List.forall_mem_cons.mp h
    cases e with
    | accepted count => exact .inl ⟨_, _, rfl, Nat.lt_min.mpr ⟨he, hpos⟩, hrest⟩
    | failed kind => exact .inr ⟨kind, _, rfl, he, hrest⟩
    | timeoutRejected kind => exact he.elim

/-- The bytes put on a stream, in order. -/
def Event.written (events : List Event) : List UInt8 :=
  events.flatMap fun
    | .tcpWrite _ bytes => bytes
    | _ => []

/-- The bytes that two stretches write. -/
@[simp] theorem Event.written_append (events events' : List Event) :
    Event.written (events ++ events') = Event.written events ++ Event.written events' :=
  List.flatMap_append

/-- Whatever the stream does, what was written is a prefix of the frame, and all of it after a
success. -/
theorem WritesRest.written {deadline : Deadline} {clock clock' : List Reading}
    {stream final : TcpStream} {rest : List UInt8} {r : Except IoError Unit} {new : List Event}
    (h : WritesRest deadline clock stream rest r new clock' final) :
    Event.written new <+: rest ∧ (r = .ok () → Event.written new = rest) := by
  induction h with
  | late late => exact ⟨List.nil_prefix, fun h => nomatch h⟩
  | done intime => exact ⟨List.nil_prefix, fun _ => rfl⟩
  | refused some intime refused => exact ⟨List.nil_prefix, fun h => nomatch h⟩
  | zero some intime write => exact ⟨List.nil_prefix, fun h => nomatch h⟩
  | @bytes clock stream rest left count stream' r new clock' final some intime write positive more
      ih =>
    obtain ⟨hfront, hall⟩ := ih
    show rest.take count ++ Event.written new <+: rest ∧
      (r = .ok () → rest.take count ++ Event.written new = rest)
    refine ⟨?_, fun hok => ?_⟩
    · have hsplit := (List.prefix_append_right_inj (rest.take count)).mpr hfront
      rwa [List.take_append_drop] at hsplit
    · rw [hall hok, List.take_append_drop]
  | again some intime write transient more ih => exact ih
  | failed some intime write permanent => exact ⟨List.nil_prefix, fun h => nomatch h⟩

/-- Within its deadline, a frame is written whole to a stream that takes bytes. -/
theorem WritesRest.completes {deadline : Deadline} {clock clock' : List Reading}
    {stream final : TcpStream} {rest : List UInt8} {r : Except IoError Unit} {new : List Event}
    (h : WritesRest deadline clock stream rest r new clock' final) (htakes : stream.TakesBytes)
    (hintime : InTime deadline new) : r = .ok () ∧ final.TakesBytes := by
  -- A stream that takes bytes refuses nothing and fails only for the moment.
  induction h with
  | late late => exact (hintime.not_late late).elim
  | done intime => exact ⟨rfl, htakes⟩
  | refused some intime refused =>
    exact (htakes (.timeoutRejected _) (by rw [refused]; exact List.mem_cons_self)).elim
  | zero some intime write =>
    rcases htakes.write some with ⟨count, _, hwrite, hpos, -⟩ | ⟨kind, _, hwrite, -⟩
    · rw [write] at hwrite
      cases hwrite
      cases hpos
    · rw [write] at hwrite
      cases hwrite
  | bytes some intime write positive more ih =>
    rcases htakes.write some with ⟨count, _, hwrite, -, hnext⟩ | ⟨kind, _, hwrite, -⟩
    · rw [write] at hwrite
      cases hwrite
      exact ih hnext hintime.cons.cons
    · rw [write] at hwrite
      cases hwrite
  | again some intime write transient more ih =>
    rcases htakes.write some with ⟨count, _, hwrite, -⟩ | ⟨kind, _, hwrite, -, hnext⟩
    · rw [write] at hwrite
      cases hwrite
    · rw [write] at hwrite
      cases hwrite
      exact ih hnext hintime.cons
  | failed some intime write permanent =>
    rcases htakes.write some with ⟨count, _, hwrite, -⟩ | ⟨kind, _, hwrite, htransient, -⟩
    · rw [write] at hwrite
      cases hwrite
    · rw [write] at hwrite
      cases hwrite
      rw [permanent] at htransient
      cases htransient

/-! ### What a run read -/

/-- The bytes taken from a stream, in order. -/
def Event.received (events : List Event) : List UInt8 :=
  events.flatMap fun
    | .tcpRead _ bytes => bytes
    | _ => []

/-- The bytes that two stretches receive. -/
@[simp] theorem Event.received_append (events events' : List Event) :
    Event.received (events ++ events') = Event.received events ++ Event.received events' :=
  List.flatMap_append

/-- A read delivers no more than was asked for. -/
theorem TcpStream.length_read_le {stream stream' : TcpStream} {n : Nat} {chunk : List UInt8}
    (h : stream.read n = (.ok chunk, stream')) : chunk.length ≤ n := by
  unfold read at h
  split at h
  · cases h
    exact Nat.zero_le n
  · cases h
  · cases h
  · split at h
    · rename_i hfits
      cases h
      exact hfits
    · cases h
      rw [List.length_take]
      omega

/-- Whatever the stream does, a field that was read consists of the bytes that were taken. -/
theorem ReadsField.received {length : Nat} {deadline : Deadline} {clock clock' : List Reading}
    {stream final : TcpStream} {got field : List UInt8}
    {r : Except IoError (Option (List UInt8))} {new : List Event}
    (h : ReadsField length deadline clock stream got r new clock' final)
    (hgot : got.length ≤ length) (hr : r = .ok (some field)) :
    field = got ++ Event.received new ∧ field.length = length := by
  induction h with
  | late late => cases hr
  | full full intime =>
    cases hr
    exact ⟨(List.append_nil _).symm, Nat.le_antisymm hgot full⟩
  | refused part intime refused => cases hr
  | eof part intime read => cases hr
  | cut part some intime read => cases hr
  | @bytes clock stream got left chunk stream' r new clock' final part intime read some rest ih =>
    have hfits := TcpStream.length_read_le read
    obtain ⟨hfield, hlength⟩ := ih (by rw [List.length_append]; omega) hr
    refine ⟨?_, hlength⟩
    show field = got ++ (chunk ++ Event.received new)
    rw [hfield, List.append_assoc]
  | again part intime read transient rest ih => exact ih hgot hr
  | failed part intime read permanent => cases hr

/-- A message that was read was taken from the stream as its frame. -/
theorem ReadsFrame.received {deadline : Deadline} {clock clock' : List Reading}
    {stream final : TcpStream} {wire : List UInt8} {new : List Event}
    (h : ReadsFrame deadline clock stream (.ok (some wire)) new clock' final) :
    Framed wire ∧ Event.received new = frame wire := by
  cases h with
  | message header long body =>
    obtain ⟨hheader, hlength⟩ := header.received (Nat.zero_le 2) rfl
    obtain ⟨hbody, hwire⟩ := body.received (Nat.zero_le _) rfl
    obtain ⟨a, b, rfl⟩ := List.length_eq_two.mp hlength
    refine ⟨framed_of_length hwire long, ?_⟩
    rw [List.nil_append] at hheader hbody
    rw [Event.received_append, ← hheader, ← hbody, frame_eq hwire]
    rfl

/-! ### Enough time -/

/-- A read uses up a turn of the script, or fills the buffer, or finds the end. -/
theorem TcpStream.read_turns (stream : TcpStream) (n : Nat) :
    (stream.read n).2.incoming.length ≤ stream.incoming.length ∧
      (∀ kind, (stream.read n).1 = .error kind →
        (stream.read n).2.incoming.length < stream.incoming.length) ∧
      ∀ chunk, (stream.read n).1 = .ok chunk → chunk ≠ [] →
        (stream.read n).2.incoming.length < stream.incoming.length ∨ chunk.length = n := by
  unfold read
  split
  · rename_i hincoming
    rw [hincoming]
    refine ⟨Nat.le_refl _, fun kind h => (nomatch h), fun chunk h hne => ?_⟩
    cases h
    exact (hne rfl).elim
  · rename_i hincoming
    rw [hincoming]
    exact ⟨by simp, fun _ _ => by simp, fun chunk h => nomatch h⟩
  · rename_i hincoming
    rw [hincoming]
    exact ⟨by simp, fun _ _ => by simp, fun chunk h => nomatch h⟩
  · rename_i hincoming
    rw [hincoming]
    split
    · exact ⟨by simp, fun kind h => (nomatch h), fun chunk _ _ => .inl (by simp)⟩
    · rename_i hlong
      refine ⟨Nat.le_refl _, fun kind h => (nomatch h), fun chunk h _ => .inr ?_⟩
      cases h
      rw [List.length_take]
      omega

/-- With enough good readings a field is read in time: one for each turn of the script, one for
a chunk that is longer than the field, and one for the check at the end. -/
theorem ReadsField.inTime {length : Nat} {deadline : Deadline} {clock clock' : List Reading}
    {stream final : TcpStream} {got : List UInt8} {r : Except IoError (Option (List UInt8))}
    {new : List Event} (h : ReadsField length deadline clock stream got r new clock' final)
    {n : Nat} (hprompt : Punctual deadline
      (stream.incoming.length + n + if got.length < length then 2 else 1) clock) :
    InTime deadline new ∧ Punctual deadline (final.incoming.length + n) clock' := by
  induction h with
  | late late => exact (hprompt.not_late (by split <;> omega) late).elim
  | full full intime =>
    rw [if_neg (Nat.not_lt.mpr full)] at hprompt
    exact ⟨InTime.single intime, hprompt.next.2⟩
  | refused part intime refused =>
    rw [if_pos part] at hprompt
    refine ⟨InTime.single intime, hprompt.next.2.mono ?_⟩
    rw [refused, List.length_cons]
    dsimp only
    omega
  | @eof clock stream left stream' part intime read =>
    obtain ⟨hle, -, -⟩ := stream.read_turns length
    rw [read] at hle
    rw [List.length_nil, if_pos part] at hprompt
    exact ⟨InTime.single intime, hprompt.next.2.mono (by dsimp only at hle; omega)⟩
  | @cut clock stream got left stream' part some intime read =>
    obtain ⟨hle, -, -⟩ := stream.read_turns (length - got.length)
    rw [read] at hle
    rw [if_pos part] at hprompt
    exact ⟨InTime.single intime, hprompt.next.2.mono (by dsimp only at hle; omega)⟩
  | @bytes clock stream got left chunk stream' r new clock' final part intime read some rest ih =>
    obtain ⟨hle, -, hchunk⟩ := stream.read_turns (length - got.length)
    rw [read] at hle hchunk
    rw [if_pos part] at hprompt
    -- Either a turn of the script is used up, or the field is full now.
    have hnext : stream'.incoming.length + n + (if (got ++ chunk).length < length then 2 else 1)
        ≤ stream.incoming.length + n + 1 := by
      rw [List.length_append]
      rcases hchunk chunk rfl some with hlt | hfull
      · dsimp only at hlt
        split <;> omega
      · rw [if_neg (by omega)]
        dsimp only at hle
        omega
    obtain ⟨hintime, hfinal⟩ := ih (hprompt.next.2.mono hnext)
    exact ⟨(hintime.cons_other fun _ => by simp).cons_check intime, hfinal⟩
  | @again clock stream got left kind stream' r new clock' final part intime read transient rest
      ih =>
    obtain ⟨-, hfailed, -⟩ := stream.read_turns (length - got.length)
    rw [read] at hfailed
    have hlt := hfailed kind rfl
    dsimp only at hlt
    rw [if_pos part] at hprompt ih
    obtain ⟨hintime, hfinal⟩ := ih (hprompt.next.2.mono (by omega))
    exact ⟨hintime.cons_check intime, hfinal⟩
  | @failed clock stream got left kind stream' part intime read permanent =>
    obtain ⟨hle, -, -⟩ := stream.read_turns (length - got.length)
    rw [read] at hle
    rw [if_pos part] at hprompt
    exact ⟨InTime.single intime, hprompt.next.2.mono (by dsimp only at hle; omega)⟩

/-- With enough good readings a frame is read in time. -/
theorem ReadsFrame.inTime {deadline : Deadline} {clock clock' : List Reading}
    {stream final : TcpStream} {r : Except IoError (Option (List UInt8))} {new : List Event}
    (h : ReadsFrame deadline clock stream r new clock' final)
    (hprompt : Punctual deadline (stream.incoming.length + 4) clock) : InTime deadline new := by
  have hfield : ∀ {r new clock' final},
      ReadsField 2 deadline clock stream [] r new clock' final →
        InTime deadline new ∧ Punctual deadline (final.incoming.length + 2) clock' :=
    fun hheader => hheader.inTime hprompt
  have hbody : ∀ {length r new clock stream clock' final},
      ReadsField length deadline clock stream [] r new clock' final →
        Punctual deadline (stream.incoming.length + 2) clock → InTime deadline new :=
    fun hbody h => (hbody.inTime (n := 0) (h.mono (by split <;> omega))).1
  cases h with
  | prefixFailed header => exact (hfield header).1
  | eof header => exact (hfield header).1
  | short header short => exact (hfield header).1
  | bodyFailed header long body =>
    exact InTime.append.mpr ⟨(hfield header).1, hbody body (hfield header).2⟩
  | missing header long body =>
    exact InTime.append.mpr ⟨(hfield header).1, hbody body (hfield header).2⟩
  | message header long body =>
    exact InTime.append.mpr ⟨(hfield header).1, hbody body (hfield header).2⟩

/-- A write uses up a turn of the script, or the script has ended and everything is taken. -/
theorem TcpStream.write_turns (stream : TcpStream) (bytes : List UInt8) :
    (stream.write bytes).2.outgoing.length < stream.outgoing.length ∨
      stream.write bytes = (.ok bytes.length, stream) := by
  unfold write
  split
  · exact .inr rfl
  · rename_i houtgoing
    rw [houtgoing]
    exact .inl (by simp)
  · rename_i houtgoing
    rw [houtgoing]
    exact .inl (by simp)
  · rename_i houtgoing
    rw [houtgoing]
    exact .inl (by simp)

/-- With enough good readings a frame is written in time. -/
theorem WritesRest.inTime {deadline : Deadline} {clock clock' : List Reading}
    {stream final : TcpStream} {rest : List UInt8} {r : Except IoError Unit} {new : List Event}
    (h : WritesRest deadline clock stream rest r new clock' final)
    (hprompt : Punctual deadline (stream.outgoing.length + if rest = [] then 1 else 2) clock) :
    InTime deadline new := by
  induction h with
  | late late => exact (hprompt.not_late (by split <;> omega) late).elim
  | done intime => exact InTime.single intime
  | refused some intime refused => exact InTime.single intime
  | zero some intime write => exact InTime.single intime
  | @bytes clock stream rest left count stream' r new clock' final some intime write positive more
      ih =>
    rw [if_neg some] at hprompt
    -- Either a turn of the script is used up, or nothing remains to be written.
    have hnext : stream'.outgoing.length + (if rest.drop count = [] then 1 else 2)
        ≤ stream.outgoing.length + 1 := by
      rcases stream.write_turns rest with hlt | hall
      · rw [write] at hlt
        dsimp only at hlt
        split <;> omega
      · rw [write] at hall
        cases hall
        rw [List.drop_length, if_pos rfl]
    have hintime := ih (hprompt.next.2.mono hnext)
    exact (hintime.cons_other fun _ => by simp).cons_check intime
  | @again clock stream rest left kind stream' r new clock' final some intime write transient more
      ih =>
    rw [if_neg some] at hprompt ih
    have hlt : stream'.outgoing.length < stream.outgoing.length := by
      rcases stream.write_turns rest with hlt | hall
      · rwa [write] at hlt
      · rw [write] at hall
        cases hall
    exact (ih (hprompt.next.2.mono (by omega))).cons_check intime
  | failed some intime write permanent => exact InTime.single intime

/-! ### Round trip -/

/-- Calls of framing programs on one stream, one after the other, each within its own deadline.
Between two calls the rest of the outside world may change in any way. -/
inductive Calls {α : Type} : TcpStream → List (Deadline × Run Session IoError α) →
    List (Except IoError α) → List Event → TcpStream → Prop
  | nil (stream : TcpStream) : Calls stream [] [] [] stream
  | cons {stream stream' final : TcpStream} {deadline : Deadline} {m : Run Session IoError α}
      {env env' : Env} {r : Except IoError α} {new events : List Event}
      {calls : List (Deadline × Run Session IoError α)} {rs : List (Except IoError α)}
      (call : m.exec ⟨env, stream⟩ = (r, ⟨env', stream'⟩)) (log : env'.log = env.log ++ new)
      (inTime : InTime deadline new) (rest : Calls stream' calls rs events final) :
      Calls stream ((deadline, m) :: calls) (r :: rs) (new ++ events) final

/-- Successive calls of `write_frame`. -/
def writeCalls (messages : List (List UInt8 × Deadline)) :
    List (Deadline × Run Session IoError Unit) :=
  messages.map fun (wire, deadline) => (deadline, writeFrame wire deadline)

/-- Successive calls of `read_frame`. -/
def readCalls (deadlines : List Deadline) :
    List (Deadline × Run Session IoError (Option (List UInt8))) :=
  deadlines.map fun deadline => (deadline, readFrame deadline)

section

variable {stream stream' final : TcpStream} {deadline : Deadline} {env env' : Env}
  {new events : List Event}

/-- A call of `read_frame` is a run of it. -/
theorem ReadsFrame.of_call {r : Except IoError (Option (List UInt8))}
    (call : (readFrame deadline).exec ⟨env, stream⟩ = (r, ⟨env', stream'⟩))
    (log : env'.log = env.log ++ new) :
    ∃ clock, ReadsFrame deadline env.clock stream r new clock stream' := by
  obtain ⟨new', clock, hrun, henv⟩ := readFrame_run deadline ⟨env, stream⟩
  rw [call] at hrun henv
  obtain rfl : new' = new := by
    dsimp only at henv
    rw [henv] at log
    exact List.append_cancel_left log
  exact ⟨clock, hrun⟩

/-- A call of `write_frame` is a run of its loop. -/
theorem WritesRest.of_call {wire : List UInt8} {r : Except IoError Unit} (hwire : Framed wire)
    (call : (writeFrame wire deadline).exec ⟨env, stream⟩ = (r, ⟨env', stream'⟩))
    (log : env'.log = env.log ++ new) :
    ∃ clock, WritesRest deadline env.clock stream (frame wire) r new clock stream' := by
  obtain ⟨new', clock, hrun, henv⟩ := writeFrame_run deadline hwire ⟨env, stream⟩
  rw [call] at hrun henv
  obtain rfl : new' = new := by
    dsimp only at henv
    rw [henv] at log
    exact List.append_cancel_left log
  exact ⟨clock, hrun⟩

/-- Successive writes put the frames on the stream, one behind the other. -/
theorem Calls.writes {sent : List (List UInt8 × Deadline)} {results : List (Except IoError Unit)}
    (hsent : ∀ p ∈ sent, Framed p.1) (htakes : stream.TakesBytes)
    (h : Calls stream (writeCalls sent) results events final) :
    (∀ r ∈ results, r = .ok ()) ∧
      Event.written events = (sent.map Prod.fst).flatMap frame := by
  induction sent generalizing stream results events with
  | nil =>
    cases h with
    | nil => exact ⟨fun r hr => (nomatch hr), rfl⟩
  | cons p sent ih =>
    obtain ⟨wire, deadline⟩ := p
    cases h with
    | cons call log inTime rest =>
      obtain ⟨clock, hrun⟩ := WritesRest.of_call (hsent _ List.mem_cons_self) call log
      obtain ⟨rfl, hnext⟩ := hrun.completes htakes inTime
      obtain ⟨hresults, hwritten⟩ :=
        ih (fun p hp => hsent p (List.mem_cons_of_mem _ hp)) hnext rest
      refine ⟨List.forall_mem_cons.mpr ⟨rfl, hresults⟩, ?_⟩
      rw [Event.written_append, hrun.written.2 rfl, hwritten]
      rfl

/-- Successive reads return the messages of the stream in order and take nothing of a later
frame. Behind the last message the end of the stream is clean or an error. -/
theorem Calls.reads {messages : List (List UInt8)} {tail : List UInt8}
    {deadlines : List Deadline} {results : List (Except IoError (Option (List UInt8)))}
    (hmessages : ∀ wire ∈ messages, Framed wire)
    (hdelivers : stream.Delivers (messages.flatMap frame ++ tail))
    (h : Calls stream (readCalls deadlines) results events final) :
    (deadlines.length ≤ messages.length →
        results = (messages.take deadlines.length).map (fun wire => .ok (some wire)) ∧
          final.Delivers ((messages.drop deadlines.length).flatMap frame ++ tail)) ∧
      (deadlines.length = messages.length + 1 →
        ∃ last, results = messages.map (fun wire => .ok (some wire)) ++ [last] ∧
          (tail = [] → last = .ok none) ∧ (Broken tail → ∃ e, last = .error e)) := by
  -- The induction is on the messages: one call reads the first frame and leaves the others.
  induction messages generalizing stream deadlines results events with
  | nil =>
    cases deadlines with
    | nil =>
      cases h with
      | nil => exact ⟨fun _ => ⟨rfl, hdelivers⟩, fun h => nomatch h⟩
    | cons deadline deadlines =>
      -- The last call finds what is behind the frames, the end of the stream or a broken frame.
      refine ⟨fun hle => (nomatch hle), fun hlength => ?_⟩
      obtain rfl : deadlines = [] := List.eq_nil_of_length_eq_zero (by simpa using hlength)
      cases h with
      | cons call log inTime rest =>
        cases rest with
        | nil =>
          obtain ⟨clock, hrun⟩ := ReadsFrame.of_call call log
          have hfound := hrun.next hdelivers inTime
          refine ⟨_, rfl, ?_, fun hbroken => ?_⟩
          · rintro rfl
            exact hfound
          · obtain ⟨e, he⟩ := hbroken.next
            rw [List.flatMap_nil, List.nil_append, he] at hfound
            exact ⟨e, hfound⟩
  | cons wire messages ih =>
    cases deadlines with
    | nil =>
      cases h with
      | nil => exact ⟨fun _ => ⟨rfl, hdelivers⟩, fun h => nomatch h⟩
    | cons deadline deadlines =>
      cases h with
      | cons call log inTime rest =>
        -- The call finds the frame of `wire`, whole.
        obtain ⟨clock, hrun⟩ := ReadsFrame.of_call call log
        have hfound := hrun.next hdelivers inTime
        rw [List.flatMap_cons, List.append_assoc,
          nextFrame_frame (hmessages wire List.mem_cons_self)] at hfound
        obtain ⟨rfl, hnext⟩ := hfound
        obtain ⟨hpart, hlast⟩ :=
          ih (fun wire hwire => hmessages wire (List.mem_cons_of_mem _ hwire)) hnext rest
        refine ⟨fun hle => ?_, fun hlength => ?_⟩
        · obtain ⟨rfl, hfinal⟩ := hpart (by simpa using hle)
          exact ⟨rfl, hfinal⟩
        · obtain ⟨last, rfl, hend⟩ := hlast (by simpa using hlength)
          exact ⟨last, rfl, hend⟩

end

/-- TCP framing under any fragmentation. Messages written one after the other put their frames
on the stream, and reading such a stream returns the messages in order, then the clean end. A
stream that ends inside a frame, or whose next prefix is too small, is an error behind all
earlier messages. The last two parts say how many good clock readings a call needs to be in
time. -/
theorem framing_roundTrip {messages : List (List UInt8)}
    (hmessages : ∀ wire ∈ messages, 12 ≤ wire.length ∧ wire.length ≤ 65535) :
    (∀ sent stream results events final, sent.map Prod.fst = messages → stream.TakesBytes →
        Calls stream (writeCalls sent) results events final →
        (∀ r ∈ results, r = .ok ()) ∧ Event.written events = messages.flatMap frame) ∧
      (∀ tail deadlines stream results events final,
        stream.Delivers (messages.flatMap frame ++ tail) →
        Calls stream (readCalls deadlines) results events final →
        (deadlines.length ≤ messages.length →
          results = (messages.take deadlines.length).map (fun wire => .ok (some wire)) ∧
            final.Delivers ((messages.drop deadlines.length).flatMap frame ++ tail)) ∧
        (deadlines.length = messages.length + 1 →
          ∃ last, results = messages.map (fun wire => .ok (some wire)) ++ [last] ∧
            (tail = [] → last = .ok none) ∧ (Broken tail → ∃ e, last = .error e))) ∧
      (∀ wire ∈ messages, ∀ stream env deadline,
        Punctual deadline (stream.outgoing.length + 2) env.clock →
        ∃ new, ((writeFrame wire deadline).exec ⟨env, stream⟩).2.env.log = env.log ++ new ∧
          InTime deadline new) ∧
      (∀ stream env deadline, Punctual deadline (stream.incoming.length + 4) env.clock →
        ∃ new, ((readFrame deadline).exec ⟨env, stream⟩).2.env.log = env.log ++ new ∧
          InTime deadline new) := by
  refine ⟨?_, ?_, ?_, ?_⟩
  · rintro sent stream results events final rfl htakes h
    exact h.writes (fun p hp => hmessages p.1 (List.mem_map_of_mem hp)) htakes
  · intro tail deadlines stream results events final hdelivers h
    exact h.reads hmessages hdelivers
  · intro wire hwire stream env deadline hprompt
    obtain ⟨new, clock, hrun, henv⟩ := writeFrame_run deadline (hmessages wire hwire) ⟨env, stream⟩
    have hne : frame wire ≠ [] := List.cons_ne_nil _ _
    exact ⟨new, by rw [henv]; rfl, hrun.inTime (by rw [if_neg hne]; exact hprompt)⟩
  · intro stream env deadline hprompt
    obtain ⟨new, clock, hrun, henv⟩ := readFrame_run deadline ⟨env, stream⟩
    exact ⟨new, by rw [henv]; rfl, hrun.inTime hprompt⟩

/-- A stream that delivers one message of twelve zero bytes in three pieces. -/
def fragmented : TcpStream where
  peer := SocketAddr.new (.v4 ⟨192, 0, 2, 1⟩) 53
  nodelay := []
  incoming := [.data [0], .failed .wouldBlock, .data [12, 0, 0], .data (List.replicate 10 0)]
  outgoing := []

/-- A world in which the next eight looks at the clock find no time passed. -/
def patient : Env := ⟨List.replicate 8 ⟨false, 0⟩, [], [], [], []⟩

/-- The message of the fragmented stream is read whole, and then the stream ends. -/
theorem framing_roundTrip_fragmented :
    ∃ results events final, Calls fragmented (readCalls [⟨1⟩, ⟨1⟩]) results events final ∧
      results = [.ok (some (List.replicate 12 0)), .ok none] := by
  obtain ⟨-, hreads, -, hprompt⟩ :=
    @framing_roundTrip [List.replicate 12 0] (by decide)
  have hgood : ∀ n ≤ 8, Punctual ⟨1⟩ n patient.clock := by
    intro n hn
    refine ⟨hn, fun reading hmem => ⟨1, ?_⟩⟩
    have hreading : reading = ⟨false, 0⟩ :=
      List.eq_of_mem_replicate (List.mem_of_mem_take hmem)
    rw [hreading]
    rfl
  have hshrinks : ((readFrame ⟨1⟩).exec ⟨patient, fragmented⟩).2.stream.incoming = [] := by
    decide +kernel
  obtain ⟨new, hlog, hintime⟩ := hprompt fragmented patient ⟨1⟩ (hgood 8 (Nat.le_refl 8))
  rcases hcall : (readFrame ⟨1⟩).exec ⟨patient, fragmented⟩ with ⟨r, ⟨env', stream'⟩⟩
  rw [hcall] at hlog hshrinks
  obtain ⟨new', hlog', hintime'⟩ :=
    hprompt stream' patient ⟨1⟩ (hgood _ (by dsimp only at hshrinks; rw [hshrinks]; decide))
  rcases hcall' : (readFrame ⟨1⟩).exec ⟨patient, stream'⟩ with ⟨r', ⟨env'', final⟩⟩
  rw [hcall'] at hlog'
  have hcalls : Calls fragmented (readCalls [⟨1⟩, ⟨1⟩]) [r, r'] (new ++ (new' ++ [])) final :=
    .cons hcall hlog hintime (.cons hcall' hlog' hintime' (.nil _))
  refine ⟨_, _, _, hcalls, ?_⟩
  have hdelivers : fragmented.Delivers ([List.replicate 12 0].flatMap frame ++ []) := by
    refine ⟨?_, by decide⟩
    simp [fragmented, ReadEvent.Benign, transient]
  obtain ⟨last, hresults, hend, -⟩ :=
    (hreads [] [⟨1⟩, ⟨1⟩] fragmented _ _ _ hdelivers hcalls).2 rfl
  rw [hresults, hend rfl]
  rfl

end Sederial
