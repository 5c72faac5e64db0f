import Sederial.Lib.Trace

/-!
# `Sederial.Lib.Abort`: events that end a program

Some events leave a program no choice. Once it has seen one, it has to give up and return the
error that stands for it. An `AbortRule` says which events these are, what a program may log
besides, and which quiet events it may still log on its way out.

`Heeds rule` relates the way a program ended to its events, and there is one rule for it for
each way of building a program. `Heeds.append_ok` is the one that matters. A program that ended
in a value has seen no abort event, so what comes next may forget about its log.

A program may also drop a failure and start over. `Heeds.again` covers it when the program first
looks again. It rests on what the world promises of later events, which is `follows`: for
instance, that a flag stays set.
-/

set_option autoImplicit false

namespace Sederial.Lib

variable {σ ev ε ε' α β : Type}

/-- An abort event ends the program with its error, and only quiet events come after it. -/
def Ends (abort : ev → Option ε) (quiet : ev → Prop) (r : Except ε α) (new : List ev) : Prop :=
  ∀ pre e post err, new = pre ++ e :: post → abort e = some err →
    r = .error err ∧ ∀ later ∈ post, quiet later

namespace Ends

variable {abort : ev → Option ε} {quiet : ev → Prop} {r : Except ε α} {r' : Except ε β}
  {new new' : List ev} {a : α}

/-- Without an abort event there is nothing to end. -/
theorem calm (h : ∀ e ∈ new, abort e = none) : Ends abort quiet r new := by
  intro pre e post err hnew habort
  rw [h e (by simp [hnew])] at habort
  cases habort

/-- The only event is the last one. -/
theorem last {e : ev} (h : ∀ err, abort e = some err → r = .error err) :
    Ends abort quiet r [e] := by
  intro pre e' post err hnew habort
  rcases List.singleton_eq_append_iff.mp hnew with ⟨rfl, hcons⟩ | ⟨-, hcons⟩
  · obtain ⟨rfl, rfl⟩ := List.cons.inj hcons
    exact ⟨h err habort, by simp⟩
  · cases hcons

/-- A program that ended in a value has seen no abort event. -/
theorem none_of_ok (h : Ends abort quiet (.ok a : Except ε α) new) :
    ∀ e ∈ new, abort e = none := by
  intro e he
  obtain ⟨pre, post, hnew⟩ := List.append_of_mem he
  cases habort : abort e with
  | none => rfl
  | some err => cases (h pre e post err hnew habort).1

/-- Two stretches, the second of which ends for every abort event of the first. -/
theorem append (h : Ends abort quiet r new) (h' : Ends abort quiet r' new')
    (hboth : ∀ e ∈ new, ∀ err, abort e = some err →
      r' = .error err ∧ ∀ later ∈ new', quiet later) :
    Ends abort quiet r' (new ++ new') := by
  intro pre e post err hnew habort
  rcases append_eq_append_cons hnew with ⟨mid, hfirst, rfl⟩ | ⟨mid, -, hsecond⟩
  · have hquiet := (h pre e mid err hfirst habort).2
    obtain ⟨hr, hlater⟩ := hboth e (by simp [hfirst]) err habort
    refine ⟨hr, fun later hmem => ?_⟩
    rcases List.mem_append.mp hmem with hmem | hmem
    · exact hquiet later hmem
    · exact hlater later hmem
  · exact h' mid e post err hsecond habort

/-- A stretch without an abort event may come before. -/
theorem prepend (hpre : ∀ e ∈ new, abort e = none) (h : Ends abort quiet r new') :
    Ends abort quiet r (new ++ new') := by
  refine (calm (r := r) hpre).append h fun e he err habort => ?_
  rw [hpre e he] at habort
  cases habort

/-- An error may end programs of different types. -/
theorem error {err : ε} (h : Ends abort quiet (.error err : Except ε α) new) :
    Ends abort quiet (.error err : Except ε β) new := by
  intro pre e post err' hnew habort
  obtain ⟨hr, hlater⟩ := h pre e post err' hnew habort
  cases hr
  exact ⟨rfl, hlater⟩

end Ends

/-- How a program has to treat the events that abort it. -/
structure AbortRule (ev ε : Type) where
  /-- The events that the program may log. -/
  admits : ev → Prop
  /-- What the world promises of a later event. -/
  follows : ev → ev → Prop
  /-- The events that may come after an abort event. -/
  quiet : ev → Prop
  abort : ev → Option ε

namespace AbortRule

/-- The rule of a program whose errors are converted. -/
def mapError (rule : AbortRule ev ε) (g : ε → ε') : AbortRule ev ε' :=
  ⟨rule.admits, rule.follows, rule.quiet, fun e => (rule.abort e).map g⟩

/-- An event that the program may log and that does not abort it. -/
def Calm (rule : AbortRule ev ε) (e : ev) : Prop := rule.admits e ∧ rule.abort e = none

end AbortRule

/-- The program logged what it may, and it heeded every abort event. -/
structure Heeds (rule : AbortRule ev ε) (r : Except ε α) (new : List ev) : Prop where
  events : ∀ e ∈ new, rule.admits e
  ends : new.Pairwise rule.follows → Ends rule.abort rule.quiet r new

namespace Heeds

variable {rule : AbortRule ev ε} {r : Except ε α} {r' : Except ε β} {new new' : List ev} {a : α}

/-- Calm events oblige nothing. -/
theorem calm (h : ∀ e ∈ new, rule.Calm e) : Heeds rule r new :=
  ⟨fun e he => (h e he).1, fun _ => .calm fun e he => (h e he).2⟩

/-- No events oblige nothing. -/
theorem silent : Heeds rule r [] := calm (by simp)

/-- The abort event is the last event. -/
theorem last {e : ev} (hadmits : rule.admits e)
    (h : ∀ err, rule.abort e = some err → r = .error err) : Heeds rule r [e] :=
  ⟨by simpa using hadmits, fun _ => .last h⟩

/-- The events of two stretches are admitted. -/
private theorem admits_append (h : ∀ e ∈ new, rule.admits e) (h' : ∀ e ∈ new', rule.admits e) :
    ∀ e ∈ new ++ new', rule.admits e := by
  intro e he
  rcases List.mem_append.mp he with he | he
  · exact h e he
  · exact h' e he

/-- Behind a program that ended in a value, only the second part counts. -/
theorem append_ok (h : Heeds rule (.ok a : Except ε α) new) (h' : Heeds rule r' new') :
    Heeds rule r' (new ++ new') := by
  refine ⟨admits_append h.events h'.events, fun hfollows => ?_⟩
  obtain ⟨hfirst, hsecond, -⟩ := List.pairwise_append.mp hfollows
  exact (h'.ends hsecond).prepend (h.ends hfirst).none_of_ok

/-- A program that starts over after a failure, and first looks again. If the first try was
aborted, the look aborts the second one in the same way. -/
theorem again {guard : ev} {rest : List ev} (h : Heeds rule r new)
    (h' : Heeds rule r' (guard :: rest)) (hquiet : rule.quiet guard)
    (hguard : ∀ e ∈ new, ∀ err, rule.abort e = some err → rule.follows e guard →
      rule.abort guard = some err) : Heeds rule r' (new ++ guard :: rest) := by
  refine ⟨admits_append h.events h'.events, fun hfollows => ?_⟩
  obtain ⟨hfirst, hsecond, hcross⟩ := List.pairwise_append.mp hfollows
  have hends := h'.ends hsecond
  refine (h.ends hfirst).append hends fun e he err habort => ?_
  -- The look comes after the abort event, so the world's promise reaches it.
  have hlook := hguard e he err habort (hcross e he guard List.mem_cons_self)
  obtain ⟨hr, hrest⟩ := hends [] guard rest err rfl hlook
  exact ⟨hr, List.forall_mem_cons.mpr ⟨hquiet, hrest⟩⟩

/-- A program that failed with the error that it had to. -/
theorem error {err : ε} (h : Heeds rule (.error err : Except ε α) new) :
    Heeds rule (.error err : Except ε β) new :=
  ⟨h.events, fun hfollows => (h.ends hfollows).error⟩

/-- The same rule for a program that may log more. -/
theorem widen {admits : ev → Prop} (h : Heeds rule r new)
    (hadmits : ∀ e, rule.admits e → admits e) : Heeds { rule with admits := admits } r new :=
  ⟨fun e he => hadmits e (h.events e he), h.ends⟩

end Heeds

namespace Traced

variable [Logged σ ev] {I : σ → Prop} {rule : AbortRule ev ε} {m : Run σ ε α} {f : α → Run σ ε β}

/-- Two programs that heed the rule, one behind the other. -/
theorem heeds_bind (hm : Traced I m (Heeds rule)) (hf : ∀ a, Traced I (f a) (Heeds rule)) :
    Traced I (m >>= f) (Heeds rule) := by
  refine hm.bind (fun err new h => h.error) fun a new h => ?_
  exact (hf a).mono fun r new' h' => h.append_ok h'

/-- The value of a program may be dropped. -/
theorem heeds_discard (hm : Traced I m (Heeds rule)) : Traced I (discard m) (Heeds rule) := by
  show Traced I (m >>= fun _ => Pure.pure PUnit.unit) (Heeds rule)
  exact hm.heeds_bind fun _ => .pure .silent

/-- The error of a program may be changed, and the rule with it. -/
theorem heeds_mapError {g : ε → ε'} (hm : Traced I m (Heeds rule)) :
    Traced I (Run.mapError g m) (Heeds (rule.mapError g)) := by
  refine hm.mapError (fun a new h => ⟨h.events, fun hfollows => ?_⟩)
    fun err new h => ⟨h.events, fun hfollows => ?_⟩
  · refine .calm fun e he => ?_
    show (rule.abort e).map g = none
    rw [(h.ends hfollows).none_of_ok e he]
    rfl
  · intro pre e post err' hnew habort
    obtain ⟨err₀, habort₀, rfl⟩ := Option.map_eq_some_iff.mp habort
    obtain ⟨hr, hlater⟩ := h.ends hfollows pre e post err₀ hnew habort₀
    cases hr
    exact ⟨rfl, hlater⟩

end Traced

end Sederial.Lib
