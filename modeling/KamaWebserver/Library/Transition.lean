import KamaWebserver.Library.Outcome
import Mathlib.Data.List.Infix

set_option autoImplicit false

/- Runs of a partial step function over a list of events. A step that fails ends
the run, so a failing event has no later state to speak about. -/
namespace Transition

variable {σ ε φ : Type*}

/-- Feed the events to the step function in order, stopping at the first failure. -/
def run (step : σ → ε → Except φ σ) : σ → List ε → Except φ σ
  | state, [] => .ok state
  | state, event :: events =>
      match step state event with
      | .ok next => run step next events
      | .error fault => .error fault

/-- Every event satisfies `guard` in the state it meets. -/
def Guarded (step : σ → ε → Except φ σ) (guard : σ → ε → Prop) : σ → List ε → Prop
  | _, [] => True
  | state, event :: events =>
      guard state event ∧
        match step state event with
        | .ok next => Guarded step guard next events
        | .error _ => True

/-- Every state met satisfies `good`, and a failure, if any, satisfies `allowed`. -/
def Always (step : σ → ε → Except φ σ) (good : σ → Prop) (allowed : φ → Prop) :
    σ → List ε → Prop
  | state, [] => good state
  | state, event :: events =>
      good state ∧
        match step state event with
        | .ok next => Always step good allowed next events
        | .error fault => allowed fault

/-- The states some run from `start` ends in. -/
def Reachable (step : σ → ε → Except φ σ) (start target : σ) : Prop :=
  ∃ events, run step start events = .ok target

variable {step : σ → ε → Except φ σ}

theorem run_cons_ok_iff (state target : σ) (event : ε) (events : List ε) :
    run step state (event :: events) = .ok target ↔
      ∃ next, step state event = .ok next ∧ run step next events = .ok target := by
  simp only [run]
  cases taken : step state event with
  | ok next => simp
  | error fault => simp

theorem guarded_cons_of_ok {guard : σ → ε → Prop} {state next : σ} {event : ε}
    {events : List ε} (taken : step state event = .ok next) :
    Guarded step guard state (event :: events) ↔
      guard state event ∧ Guarded step guard next events := by
  simp only [Guarded, taken]

/-- Whether a guard is met along a run can be computed. -/
instance Guarded.decidable {guard : σ → ε → Prop}
    [∀ state event, Decidable (guard state event)] :
    ∀ (state : σ) (events : List ε), Decidable (Guarded step guard state events)
  | _, [] => isTrue trivial
  | state, event :: events =>
      match taken : step state event with
      | .ok next =>
          have : Decidable (Guarded step guard next events) := Guarded.decidable next events
          decidable_of_iff _ (guarded_cons_of_ok taken).symm
      | .error _ => decidable_of_iff (guard state event) (by simp only [Guarded, taken, and_true])

theorem Guarded.and {first second : σ → ε → Prop} {state : σ} {events : List ε}
    (one : Guarded step first state events) (two : Guarded step second state events) :
    Guarded step (fun state event => first state event ∧ second state event) state events := by
  induction events generalizing state with
  | nil => trivial
  | cons event events ih =>
      refine ⟨⟨one.1, two.1⟩, ?_⟩
      have left := one.2
      have right := two.2
      cases taken : step state event with
      | ok next =>
          rw [taken] at left right
          exact ih left right
      | error fault => trivial

/-- The one induction over runs: what every guarded step preserves, every guarded
run preserves. -/
theorem run_preserves {guard : σ → ε → Prop} (inv : σ → Prop)
    (preserved : ∀ state event next, inv state → guard state event →
      step state event = .ok next → inv next)
    {state target : σ} {events : List ε} (start : inv state)
    (guarded : Guarded step guard state events)
    (reached : run step state events = .ok target) : inv target := by
  induction events generalizing state with
  | nil =>
      cases reached
      exact start
  | cons event events ih =>
      obtain ⟨next, taken, rest⟩ := (run_cons_ok_iff state target event events).mp reached
      rw [guarded_cons_of_ok taken] at guarded
      exact ih (preserved state event next start guarded.1 taken) guarded.2 rest

/-- A guard that holds of these events in every state. -/
theorem guarded_of_forall {guard : σ → ε → Prop} {events : List ε}
    (holds : ∀ event ∈ events, ∀ state, guard state event) (state : σ) :
    Guarded step guard state events := by
  induction events generalizing state with
  | nil => trivial
  | cons event events ih =>
      refine ⟨holds event List.mem_cons_self state, ?_⟩
      cases taken : step state event with
      | ok next => exact ih (fun other inside => holds other (List.mem_cons_of_mem _ inside)) next
      | error fault => trivial

theorem guarded_true (state : σ) (events : List ε) :
    Guarded step (fun _ _ => True) state events :=
  guarded_of_forall (fun _ _ _ => trivial) state

theorem run_append (first second : List ε) (state : σ) :
    run step state (first ++ second) =
      run step state first >>= fun next => run step next second := by
  induction first generalizing state with
  | nil => rfl
  | cons event events ih =>
      simp only [List.cons_append, run]
      cases taken : step state event with
      | ok next => exact ih next
      | error fault => rfl

theorem Reachable.snoc {start state next : σ} {event : ε}
    (reached : Reachable step start state) (taken : step state event = .ok next) :
    Reachable step start next := by
  obtain ⟨events, ends⟩ := reached
  refine ⟨events ++ [event], ?_⟩
  rw [run_append, ends]
  exact (run_cons_ok_iff _ _ _ _).mpr ⟨next, taken, rfl⟩

theorem Reachable.preserves (inv : σ → Prop)
    (preserved : ∀ state event next, inv state → step state event = .ok next → inv next)
    {start target : σ} (holds : inv start) (reached : Reachable step start target) :
    inv target := by
  obtain ⟨events, ends⟩ := reached
  exact run_preserves inv
    (fun state event next before _ taken => preserved state event next before taken)
    holds (guarded_true start events) ends

theorem Always.start {good : σ → Prop} {allowed : φ → Prop} {state : σ} {events : List ε}
    (always : Always step good allowed state events) : good state := by
  cases events with
  | nil => exact always
  | cons event events => exact always.1

/-- What holds throughout a run holds at its end. -/
theorem Always.target {good : σ → Prop} {allowed : φ → Prop} {state target : σ}
    {events : List ε} (always : Always step good allowed state events)
    (reached : run step state events = .ok target) : good target := by
  induction events generalizing state with
  | nil =>
      cases reached
      exact always
  | cons event events ih =>
      obtain ⟨next, taken, rest⟩ := (run_cons_ok_iff state target event events).mp reached
      have later := always.2
      rw [taken] at later
      exact ih later rest

/-- When every guarded step keeps an invariant or fails as allowed, every guarded run
stays good. -/
theorem always_of_guarded {guard : σ → ε → Prop} {good : σ → Prop} {allowed : φ → Prop}
    (inv : σ → Prop) (sound : ∀ state, inv state → good state)
    (preserved : ∀ state event, inv state → guard state event →
      Outcome.Spec allowed inv (step state event))
    {state : σ} {events : List ε} (start : inv state)
    (guarded : Guarded step guard state events) : Always step good allowed state events := by
  induction events generalizing state with
  | nil => exact sound state start
  | cons event events ih =>
      have kept := preserved state event start guarded.1
      have rest := guarded.2
      refine ⟨sound state start, ?_⟩
      cases taken : step state event with
      | ok next =>
          rw [taken] at kept rest
          exact ih kept rest
      | error fault =>
          rw [taken] at kept
          exact kept

/-- When an invariant decides, for each event, whether the step stays good, the
guard is exactly the condition under which a whole run stays good. -/
theorem always_iff_guarded {guard : σ → ε → Prop} {good : σ → Prop} {allowed : φ → Prop}
    (inv : σ → Prop)
    (sound : ∀ state, inv state → good state)
    (preserved : ∀ state event next, inv state → guard state event →
      step state event = .ok next → inv next)
    (fails : ∀ state event fault, inv state → guard state event →
      step state event = .error fault → allowed fault)
    (breaks : ∀ state event next, inv state → ¬ guard state event →
      step state event = .ok next → ¬ good next)
    (breaksFault : ∀ state event fault, inv state → ¬ guard state event →
      step state event = .error fault → ¬ allowed fault)
    {state : σ} (start : inv state) (events : List ε) :
    Always step good allowed state events ↔ Guarded step guard state events := by
  induction events generalizing state with
  | nil => simp only [Always, Guarded, sound state start]
  | cons event events ih =>
      simp only [Always, Guarded, sound state start, true_and]
      by_cases met : guard state event
      · cases taken : step state event with
        | ok next =>
            simpa only [met, true_and] using ih (preserved state event next start met taken)
        | error fault =>
            simp only [met, fails state event fault start met taken, and_self]
      · simp only [met, false_and, iff_false]
        cases taken : step state event with
        | ok next =>
            exact fun always => breaks state event next start met taken always.start
        | error fault => exact breaksFault state event fault start met taken

/-- When each step says whether a property that only gets lost survives it, the property
holds at the end of a run exactly when every step of the run keeps it. -/
theorem run_iff_guarded {guard : σ → ε → Prop} (inv good : σ → Prop)
    (preserved : ∀ state event next, inv state → step state event = .ok next → inv next)
    (decides : ∀ state event next, inv state → step state event = .ok next →
      (good next ↔ good state ∧ guard state event))
    {state target : σ} {events : List ε} (start : inv state)
    (reached : run step state events = .ok target) :
    good target ↔ good state ∧ Guarded step guard state events := by
  induction events generalizing state with
  | nil =>
      cases reached
      simp only [Guarded, and_true]
  | cons event events ih =>
      obtain ⟨next, taken, rest⟩ := (run_cons_ok_iff state target event events).mp reached
      rw [guarded_cons_of_ok taken, ih (preserved state event next start taken) rest,
        decides state event next start taken, and_assoc]

/-- When each step from a good state says whether the next state is good, a run that does not
fail stays good exactly when it meets that condition throughout. -/
theorem always_iff_guarded_of_run {guard : σ → ε → Prop} (inv good : σ → Prop)
    (preserved : ∀ state event next, inv state → step state event = .ok next → inv next)
    (decides : ∀ state event next, inv state → good state → step state event = .ok next →
      (good next ↔ guard state event))
    {state target : σ} {events : List ε} (start : inv state) (fine : good state)
    (reached : run step state events = .ok target) :
    Always step good (fun _ => True) state events ↔ Guarded step guard state events := by
  induction events generalizing state with
  | nil => simp only [Always, Guarded, fine]
  | cons event events ih =>
      obtain ⟨next, taken, rest⟩ := (run_cons_ok_iff state target event events).mp reached
      have decided := decides state event next start fine taken
      have later := preserved state event next start taken
      simp only [Always, Guarded, taken, fine, true_and, ← decided]
      constructor
      · intro always
        exact ⟨always.start, (ih later always.start rest).mp always⟩
      · rintro ⟨good, guarded⟩
        exact (ih later good rest).mpr guarded

/-- When each step toward an end makes progress, but for one event that undoes some, a run that
is not there yet is bounded by how often that event occurs. -/
theorem run_length_le [DecidableEq ε] {guard : σ → ε → Prop} (inv ongoing : σ → Prop)
    (remaining : σ → Nat) (setback : ε) (loss : Nat)
    (preserved : ∀ state event next, inv state → guard state event →
      step state event = .ok next → inv next)
    (progress : ∀ state event next, inv state → guard state event →
      step state event = .ok next → ongoing next → ongoing state ∧
        remaining next + 1 ≤ remaining state + if event = setback then loss else 0)
    {state target : σ} {events : List ε} (start : inv state)
    (guarded : Guarded step guard state events)
    (reached : run step state events = .ok target) (unfinished : ongoing target) :
    ongoing state ∧
      remaining target + events.length ≤ remaining state + loss * events.count setback := by
  induction events generalizing state with
  | nil =>
      cases reached
      exact ⟨unfinished, Nat.le_refl _⟩
  | cons event events ih =>
      obtain ⟨next, taken, rest⟩ := (run_cons_ok_iff state target event events).mp reached
      rw [guarded_cons_of_ok taken] at guarded
      have later := ih (preserved state event next start guarded.1 taken) guarded.2 rest
      have here := progress state event next start guarded.1 taken later.1
      refine ⟨here.1, ?_⟩
      by_cases same : event = setback
      · have counted : (event :: events).count setback = events.count setback + 1 := by
          rw [same, List.count_cons_self]
        have charged := here.2
        rw [if_pos same] at charged
        rw [counted, Nat.mul_succ, List.length_cons]
        omega
      · have counted : (event :: events).count setback = events.count setback :=
          List.count_cons_of_ne same
        have charged := here.2
        rw [if_neg same] at charged
        rw [counted, List.length_cons]
        omega

end Transition
