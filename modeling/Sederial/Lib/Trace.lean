import Sederial.Lib.Run

/-!
# `Sederial.Lib.Trace`: what a program appends to its log

A state may carry a log of events that a program only appends to. `Traced I m R` is the
judgment of this file. From every state that satisfies the invariant `I`, the program `m`
ends in a state that satisfies `I`, the log has grown by some events `new`, and `R r new`
relates the way the program ended to those events.

There is one rule for each way of building a program. `Traced.bind` is the one that matters:
the second part is judged knowing what the first part returned and logged.

`Emits P S Q E` is the relation used for the long stretches of a program where order does
not matter: all events satisfy `P`, a value satisfies `Q`, and an error satisfies `E` unless
an event in `S` explains it. `Traced.after` puts such a stretch in front of a program.
-/

set_option autoImplicit false

namespace Sederial.Lib

/-- An element of an appended list lies in its first part or in its second. -/
theorem append_eq_append_cons {ev : Type} {new new' pre post : List ev} {e : ev}
    (h : new ++ new' = pre ++ e :: post) :
    (∃ mid, new = pre ++ e :: mid ∧ post = mid ++ new') ∨
      ∃ mid, pre = new ++ mid ∧ new' = mid ++ e :: post := by
  rcases List.append_eq_append_iff.mp h with ⟨mid, hpre, hnew'⟩ | ⟨mid, hnew, hcons⟩
  · exact .inr ⟨mid, hpre, hnew'⟩
  · cases mid with
    | nil =>
      rw [List.append_nil] at hnew
      exact .inr ⟨[], by rw [List.append_nil, hnew], hcons.symm⟩
    | cons e' mid =>
      obtain ⟨rfl, rfl⟩ := List.cons.inj hcons
      exact .inl ⟨mid, hnew, rfl⟩

/-- States with a log of events. -/
class Logged (σ : Type) (ev : outParam Type) where
  log : σ → List ev

variable {σ ε ε' α β ev : Type} [Logged σ ev] {I : σ → Prop}

/-- From every state in `I` the program stays in `I` and appends events that `R` relates to
its result. -/
def Traced (I : σ → Prop) (m : Run σ ε α) (R : Except ε α → List ev → Prop) : Prop :=
  ∀ s, I s → I (m.exec s).2 ∧
    ∃ new, Logged.log (m.exec s).2 = Logged.log s ++ new ∧ R (m.exec s).1 new

namespace Traced

variable {m : Run σ ε α} {f : α → Run σ ε β} {R R' : Except ε α → List ev → Prop}

/-- A weaker relation holds as well. -/
theorem mono (h : Traced I m R) (hR : ∀ r new, R r new → R' r new) : Traced I m R' := by
  intro s hs
  obtain ⟨hI, new, hlog, hr⟩ := h s hs
  exact ⟨hI, new, hlog, hR _ _ hr⟩

/-- Two judgments of one program speak of the same events. -/
theorem and {J : σ → Prop} (h : Traced I m R) (h' : Traced J m R') :
    Traced (fun s => I s ∧ J s) m fun r new => R r new ∧ R' r new := by
  intro s hs
  obtain ⟨hI, new, hlog, hr⟩ := h s hs.1
  obtain ⟨hJ, new', hlog', hr'⟩ := h' s hs.2
  obtain rfl : new = new' := List.append_cancel_left (hlog.symm.trans hlog')
  exact ⟨⟨hI, hJ⟩, new, hlog, hr, hr'⟩

/-- A program that does not touch the state. -/
theorem ofExcept {x : Except ε α} (h : R x []) : Traced I (Run.ofExcept x : Run σ ε α) R :=
  fun s hs => ⟨hs, [], (List.append_nil (Logged.log s)).symm, h⟩

/-- A value adds nothing to the log. -/
theorem pure {a : α} (h : R (.ok a) []) : Traced I (Pure.pure a : Run σ ε α) R :=
  ofExcept h

/-- An error adds nothing to the log. -/
theorem throw {e : ε} (h : R (.error e) []) : Traced I (MonadExcept.throw e : Run σ ε α) R :=
  ofExcept h

/-- The second part is judged knowing what the first part returned and logged. -/
theorem bind {R : Except ε β → List ev → Prop} {B : Except ε α → List ev → Prop}
    (hm : Traced I m B) (herror : ∀ e new, B (.error e) new → R (.error e) new)
    (hok : ∀ a new, B (.ok a) new → Traced I (f a) fun r new' => R r (new ++ new')) :
    Traced I (m >>= f) R := by
  intro s hs
  obtain ⟨hI, new, hlog, hr⟩ := hm s hs
  rw [Run.exec_bind]
  rcases hexec : m.exec s with ⟨e | a, s₁⟩
  · rw [hexec] at hI hlog hr
    exact ⟨hI, new, hlog, herror e new hr⟩
  · rw [hexec] at hI hlog hr
    obtain ⟨hI', new', hlog', hr'⟩ := hok a new hr s₁ hI
    refine ⟨hI', new ++ new', ?_, hr'⟩
    dsimp only at hlog ⊢
    rw [hlog', hlog, List.append_assoc]

/-- `bind` for a first part that always ends in a value. -/
theorem bind_ok {R : Except ε β → List ev → Prop} {G : α → List ev → Prop}
    (hm : Traced I m fun r new => ∃ a, r = .ok a ∧ G a new)
    (hf : ∀ a new, G a new → Traced I (f a) fun r new' => R r (new ++ new')) :
    Traced I (m >>= f) R := by
  refine hm.bind ?_ ?_
  · rintro e new ⟨a, h, -⟩
    cases h
  · rintro a new ⟨a', h, hG⟩
    cases h
    exact hf a new hG

/-- An attempt logs what its program logs. -/
theorem attempt {R : Except ε' (Except ε α) → List ev → Prop}
    {B : Except ε α → List ev → Prop} (hm : Traced I m B)
    (h : ∀ r new, B r new → R (.ok r) new) :
    Traced I (Run.attempt m : Run σ ε' (Except ε α)) R := by
  intro s hs
  obtain ⟨hI, new, hlog, hr⟩ := hm s hs
  rw [Run.exec_attempt]
  exact ⟨hI, new, hlog, h _ _ hr⟩

/-- A change of the error keeps the log. -/
theorem mapError {g : ε → ε'} {R : Except ε' α → List ev → Prop}
    {B : Except ε α → List ev → Prop} (hm : Traced I m B)
    (hok : ∀ a new, B (.ok a) new → R (.ok a) new)
    (herror : ∀ e new, B (.error e) new → R (.error (g e)) new) :
    Traced I (Run.mapError g m) R := by
  intro s hs
  obtain ⟨hI, new, hlog, hr⟩ := hm s hs
  rw [Run.exec_mapError]
  rcases hexec : m.exec s with ⟨e | a, s₁⟩
  · rw [hexec] at hI hlog hr
    exact ⟨hI, new, hlog, herror e new hr⟩
  · rw [hexec] at hI hlog hr
    exact ⟨hI, new, hlog, hok a new hr⟩

/-- One transition of the state. -/
theorem step {g : σ → α × σ}
    (h : ∀ s, I s → I (g s).2 ∧
      ∃ new, Logged.log (g s).2 = Logged.log s ++ new ∧ R (.ok (g s).1) new) :
    Traced I (Run.step g : Run σ ε α) R := by
  intro s hs
  rw [Run.exec_step]
  exact h s hs

/-- A change of the state logs what it appends. -/
theorem modify {g : σ → σ} {R : Except ε PUnit → List ev → Prop}
    (h : ∀ s, I s → I (g s) ∧
      ∃ new, Logged.log (g s) = Logged.log s ++ new ∧ R (.ok ⟨⟩) new) :
    Traced I (modify g : Run σ ε PUnit) R := by
  intro s hs
  rw [Run.exec_modify]
  exact h s hs

/-- A look at the state logs nothing. -/
theorem get {R : Except ε σ → List ev → Prop} (h : ∀ s, I s → R (.ok s) []) :
    Traced I (MonadState.get : Run σ ε σ) R := by
  intro s hs
  rw [Run.exec_get]
  exact ⟨hs, [], (List.append_nil (Logged.log s)).symm, h s hs⟩

end Traced

/-! ### Stretches of a program where order does not matter -/

/-- All events satisfy `P`, a value satisfies `Q`, and an error satisfies `E` unless an event
in `S` explains it. -/
structure Emits (P S : ev → Prop) (Q : α → Prop) (E : ε → Prop) (r : Except ε α)
    (new : List ev) : Prop where
  events : ∀ e ∈ new, P e
  value : ∀ a, r = .ok a → Q a
  error : ∀ e, r = .error e → E e ∨ ∃ ev ∈ new, S ev

namespace Emits

variable {P S : ev → Prop} {Q : α → Prop} {E : ε → Prop} {r : Except ε α} {new : List ev}

/-- A program that succeeded. -/
theorem ok {a : α} (hP : ∀ e ∈ new, P e) (hQ : Q a) :
    Emits P S Q E (.ok a : Except ε α) new := by
  refine ⟨hP, fun b h => ?_, fun e h => nomatch h⟩
  cases h
  exact hQ

/-- A program that failed with a permitted error, or behind a reason for any. -/
theorem failed {e : ε} (hP : ∀ e ∈ new, P e) (hE : E e ∨ ∃ ev ∈ new, S ev) :
    Emits P S Q E (.error e : Except ε α) new := by
  refine ⟨hP, fun b h => (nomatch h), fun e' h => ?_⟩
  cases h
  exact hE

/-- Nothing is logged. -/
theorem silent (hQ : ∀ a, r = .ok a → Q a) (hE : ∀ e, r = .error e → E e) :
    Emits P S Q E r [] :=
  ⟨fun _ h => (List.not_mem_nil h).elim, hQ, fun e h => .inl (hE e h)⟩

/-- Permitted events may come before. -/
theorem prepend {pre : List ev} (hpre : ∀ e ∈ pre, P e) (h : Emits P S Q E r new) :
    Emits P S Q E r (pre ++ new) := by
  refine ⟨fun e he => ?_, h.value, fun e he => ?_⟩
  · rcases List.mem_append.mp he with he | he
    · exact hpre e he
    · exact h.events e he
  · rcases h.error e he with hE | ⟨ev, hev, hS⟩
    · exact .inl hE
    · exact .inr ⟨ev, List.mem_append_right pre hev, hS⟩

end Emits

namespace Traced

variable {P S : ev → Prop} {A : α → Prop} {Q : β → Prop} {E : ε → Prop} {m : Run σ ε α}
  {f : α → Run σ ε β}

/-- A stretch of a program in front of another program, judged by a relation that does not
mind more events in front. -/
theorem after {R : Except ε β → List ev → Prop} (hm : Traced I m (Emits P S A E))
    (hfail : ∀ e new, (∀ ev ∈ new, P ev) → (E e ∨ ∃ ev ∈ new, S ev) → R (.error e) new)
    (hpre : ∀ pre r new, (∀ ev ∈ pre, P ev) → R r new → R r (pre ++ new))
    (hf : ∀ a, A a → Traced I (f a) R) : Traced I (m >>= f) R :=
  hm.bind (fun e new h => hfail e new h.events (h.error e rfl))
    fun a new h => (hf a (h.value a rfl)).mono fun r _ hr => hpre new r _ h.events hr

/-- Two programs that emit permitted events, one behind the other. -/
theorem emits_bind (hm : Traced I m (Emits P S A E))
    (hf : ∀ a, A a → Traced I (f a) (Emits P S Q E)) :
    Traced I (m >>= f) (Emits P S Q E) :=
  hm.after (fun _ _ hP hE => .failed hP hE) (fun _ _ _ hpre h => h.prepend hpre) hf

/-- The value of a program may be dropped. -/
theorem emits_discard {Q : α → Prop} {Q' : PUnit → Prop} (hm : Traced I m (Emits P S Q E))
    (hQ : Q' ⟨⟩) : Traced I (discard m) (Emits P S Q' E) := by
  show Traced I (m >>= fun _ => Pure.pure PUnit.unit) _
  exact hm.emits_bind fun _ _ => .pure (.silent (fun _ _ => hQ) fun _ h => nomatch h)

/-- The error of a program may be changed. -/
theorem emits_mapError {ε' : Type} {E' : ε' → Prop} {g : ε → ε'} {Q : α → Prop}
    (hm : Traced I m (Emits P S Q E)) (hE : ∀ e, E e → E' (g e)) :
    Traced I (Run.mapError g m) (Emits P S Q E') := by
  refine hm.mapError (fun a new h => .ok h.events (h.value a rfl)) fun e new h => ?_
  exact .failed h.events ((h.error e rfl).imp_left (hE e))

end Traced

end Sederial.Lib
