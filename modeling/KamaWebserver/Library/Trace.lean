import Mathlib.Tactic.Common

set_option autoImplicit false

/- Traces of what a system has done, newest event first, and the two ways of reading
them used here: the data a trace carries, and what held before each marked event. -/
namespace Trace

variable {ε β : Type*}

/-- The data the events of a trace carry, in the order of the events. -/
def stream (part : ε → List β) : List ε → List β
  | [] => []
  | event :: earlier => stream part earlier ++ part event

/-- Before every marked event the trace satisfied `good`. -/
def AtEach (marked : ε → Prop) (good : List ε → Prop) : List ε → Prop
  | [] => True
  | event :: earlier => AtEach marked good earlier ∧ (marked event → good earlier)

@[simp] theorem stream_nil (part : ε → List β) : stream part [] = [] := rfl

@[simp] theorem stream_cons (part : ε → List β) (event : ε) (earlier : List ε) :
    stream part (event :: earlier) = stream part earlier ++ part event := rfl

@[simp] theorem stream_append (part : ε → List β) (later earlier : List ε) :
    stream part (later ++ earlier) = stream part earlier ++ stream part later := by
  induction later with
  | nil => simp
  | cons event later ih => simp only [List.cons_append, stream_cons, ih, List.append_assoc]

theorem stream_eq_nil {part : ε → List β} {trace : List ε}
    (silent : ∀ event ∈ trace, part event = []) : stream part trace = [] := by
  induction trace with
  | nil => rfl
  | cons event trace ih =>
      rw [stream_cons, silent event List.mem_cons_self, List.append_nil]
      exact ih fun other inside => silent other (List.mem_cons_of_mem _ inside)

/-- Events that carry nothing can be left out. -/
theorem stream_filter (part : ε → List β) (keep : ε → Bool)
    (silent : ∀ event, keep event = false → part event = []) (trace : List ε) :
    stream part (trace.filter keep) = stream part trace := by
  induction trace with
  | nil => rfl
  | cons event trace ih =>
      cases kept : keep event with
      | true => simp [kept, ih]
      | false => simp [kept, ih, silent event kept]

/-- Events that are not marked and do not change `good` can be left out. -/
theorem atEach_filter_iff {marked : ε → Prop} {good : List ε → Prop} (keep : ε → Bool)
    (unmarked : ∀ event, keep event = false → ¬ marked event)
    (same : ∀ trace, good (trace.filter keep) ↔ good trace) (trace : List ε) :
    AtEach marked good (trace.filter keep) ↔ AtEach marked good trace := by
  induction trace with
  | nil => exact Iff.rfl
  | cons event trace ih =>
      cases kept : keep event with
      | true => simp only [List.filter_cons, kept, ↓reduceIte, AtEach, ih, same]
      | false =>
          have silent := unmarked event kept
          simp [kept, AtEach, ih, silent]

theorem atEach_append_iff {marked : ε → Prop} {good : List ε → Prop} (later earlier : List ε) :
    AtEach marked good (later ++ earlier) ↔
      AtEach marked good earlier ∧ AtEach marked (fun trace => good (trace ++ earlier)) later := by
  induction later with
  | nil => simp only [List.nil_append, AtEach, and_true]
  | cons event later ih => simp only [List.cons_append, AtEach, ih, and_assoc]

theorem AtEach.mono {marked : ε → Prop} {good weaker : List ε → Prop}
    (weaken : ∀ trace, good trace → weaker trace) {trace : List ε}
    (holds : AtEach marked good trace) : AtEach marked weaker trace := by
  induction trace with
  | nil => trivial
  | cons event trace ih => exact ⟨ih holds.1, fun mark => weaken trace (holds.2 mark)⟩

theorem AtEach.append {marked : ε → Prop} {good : List ε → Prop} {later earlier : List ε}
    (before : AtEach marked good earlier)
    (after : AtEach marked (fun trace => good (trace ++ earlier)) later) :
    AtEach marked good (later ++ earlier) :=
  (atEach_append_iff later earlier).mpr ⟨before, after⟩

/-- What held before a marked event, wherever it stands in the trace. -/
theorem AtEach.split {marked : ε → Prop} {good : List ε → Prop} {later earlier : List ε}
    {event : ε} (holds : AtEach marked good (later ++ event :: earlier)) (mark : marked event) :
    good earlier :=
  ((atEach_append_iff later (event :: earlier)).mp holds).1.2 mark

theorem AtEach.of_unmarked {marked : ε → Prop} {good : List ε → Prop} {trace : List ε}
    (unmarked : ∀ event ∈ trace, ¬ marked event) : AtEach marked good trace := by
  induction trace with
  | nil => trivial
  | cons event trace ih =>
      exact ⟨ih fun other inside => unmarked other (List.mem_cons_of_mem _ inside),
        fun mark => absurd mark (unmarked event List.mem_cons_self)⟩

/-- A marked event of the trace has a past that is good. -/
theorem AtEach.past {marked : ε → Prop} {good : List ε → Prop} {trace : List ε}
    (holds : AtEach marked good trace) {event : ε} (inside : event ∈ trace)
    (mark : marked event) : ∃ earlier, good earlier := by
  induction trace with
  | nil => cases inside
  | cons head trace ih =>
      rcases List.mem_cons.mp inside with rfl | old
      · exact ⟨trace, holds.2 mark⟩
      · exact ih holds.1 old

/-- The past of a marked event is a part of the trace. -/
theorem AtEach.suffix {marked : ε → Prop} {good : List ε → Prop} {trace : List ε}
    (holds : AtEach marked good trace) :
    AtEach marked (fun earlier => good earlier ∧ earlier <:+ trace) trace := by
  induction trace with
  | nil => trivial
  | cons event trace ih =>
      refine ⟨(ih holds.1).mono fun earlier past => ⟨past.1, ?_⟩, fun mark =>
        ⟨holds.2 mark, List.suffix_cons event trace⟩⟩
      exact past.2.trans (List.suffix_cons event trace)

end Trace
