import KamaWebserver.Library.Transition

set_option autoImplicit false

universe u v

/-- What a computation noted on its way, and its result; a failure keeps the notes before it. -/
structure Noted (ω φ : Type u) (α : Type v) where
  notes : List ω
  result : Except φ α

namespace Noted

open Outcome

variable {ω φ : Type u} {α β σ : Type v}

def note (event : ω) : Noted ω φ PUnit.{v + 1} := ⟨[event], .ok ⟨⟩⟩

/-- A computation that notes nothing. -/
def lift (result : Except φ α) : Noted ω φ α := ⟨[], result⟩

/-- After a failure nothing more is noted. -/
def andThen (first : Noted ω φ α) (next : α → Noted ω φ β) : Noted ω φ β :=
  match first.result with
  | .ok value => ⟨first.notes ++ (next value).notes, (next value).result⟩
  | .error fault => ⟨first.notes, .error fault⟩

instance : Monad (Noted ω φ) where
  pure value := lift (.ok value)
  bind := andThen

/-- Every note satisfies `good`. -/
def Meets (good : ω → Prop) (computation : Noted ω φ α) : Prop :=
  ∀ event ∈ computation.notes, good event

/-- Feed the events to the step function in order, stopping at the first failure. -/
def run {ε : Type*} (step : σ → ε → Noted ω φ σ) : σ → List ε → Noted ω φ σ
  | state, [] => pure state
  | state, event :: events => step state event >>= fun next => run step next events

@[simp] theorem result_note (event : ω) : (note event : Noted ω φ PUnit).result = .ok ⟨⟩ := rfl

@[simp] theorem result_lift (result : Except φ α) :
    (lift result : Noted ω φ α).result = result := rfl

@[simp] theorem result_pure (value : α) : (pure value : Noted ω φ α).result = .ok value := rfl

/-- The results go on as they would without the notes. -/
@[simp] theorem result_bind (first : Noted ω φ α) (next : α → Noted ω φ β) :
    (first >>= next).result = first.result >>= fun value => (next value).result := by
  show (first.andThen next).result = _
  unfold andThen
  cases first.result with
  | ok value => rfl
  | error fault => rfl

variable {good : ω → Prop}

@[simp] theorem meets_note_iff (event : ω) :
    (note event : Noted ω φ PUnit).Meets good ↔ good event :=
  List.forall_mem_singleton

@[simp] theorem meets_lift (result : Except φ α) : (lift result : Noted ω φ α).Meets good :=
  nofun

@[simp] theorem meets_pure (value : α) : (pure value : Noted ω φ α).Meets good := nofun

/-- The rest of a sequence only runs on what its first part returned. -/
theorem meets_bind_iff (first : Noted ω φ α) (next : α → Noted ω φ β) :
    (first >>= next).Meets good ↔
      first.Meets good ∧ ∀ value, first.result = .ok value → (next value).Meets good := by
  show (first.andThen next).Meets good ↔ _
  unfold andThen Meets
  cases first.result with
  | ok value => simp only [List.forall_mem_append, Except.ok.injEq, forall_eq']
  | error fault => simp only [reduceCtorEq, false_implies, implies_true, and_true]

theorem Meets.bind {first : Noted ω φ α} {next : α → Noted ω φ β} (head : first.Meets good)
    (tail : ∀ value, first.result = .ok value → (next value).Meets good) :
    (first >>= next).Meets good :=
  (meets_bind_iff first next).mpr ⟨head, tail⟩

section Runs

variable {ε : Type*} {step : σ → ε → Noted ω φ σ}

theorem run_result (state : σ) (events : List ε) :
    (run step state events).result =
      Transition.run (fun state event => (step state event).result) state events := by
  induction events generalizing state with
  | nil => rfl
  | cons event events ih =>
      rw [run, result_bind, Transition.run]
      cases (step state event).result with
      | ok next => exact ih next
      | error fault => rfl

/-- When every step from a state of the invariant keeps it and notes what is good, so does
every run. -/
theorem run_meets (inv : σ → Prop)
    (preserved : ∀ state event next, inv state → (step state event).result = .ok next → inv next)
    (noted : ∀ state event, inv state → (step state event).Meets good)
    {state : σ} (start : inv state) (events : List ε) : (run step state events).Meets good := by
  induction events generalizing state with
  | nil => exact meets_pure state
  | cons event events ih =>
      exact (noted state event start).bind fun next taken =>
        ih (preserved state event next start taken)

end Runs

end Noted
