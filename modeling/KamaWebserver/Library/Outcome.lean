import Mathlib.Tactic.Common

set_option autoImplicit false

/- Postconditions of computations that return a value or fail with a fault, and the
rules by which the postcondition of a sequence follows from those of its parts. -/
namespace Outcome

universe u v

variable {φ : Type u} {α β : Type v}

/-- A returned value satisfies `post`; a fault, if any, is an allowed one. -/
def Spec (allowed : φ → Prop) (post : α → Prop) : Except φ α → Prop
  | .ok value => post value
  | .error fault => allowed fault

variable {allowed : φ → Prop}

theorem bind_ok_iff (first : Except φ α) (next : α → Except φ β) (result : β) :
    first >>= next = .ok result ↔ ∃ value, first = .ok value ∧ next value = .ok result := by
  cases first with
  | ok value => simp [Bind.bind, Except.bind]
  | error fault => simp [Bind.bind, Except.bind]

theorem map_ok_iff (first : Except φ α) (next : α → β) (result : β) :
    first.map next = .ok result ↔ ∃ value, first = .ok value ∧ next value = result := by
  cases first with
  | ok value => simp [Except.map]
  | error fault => simp [Except.map]

/-- A guarded computation that returned met its guard. -/
theorem guard_ok {enabled : Prop} [Decidable enabled] {result : Except φ α} {fault : φ}
    {value : α} (returned : (if enabled then result else .error fault) = .ok value) :
    enabled ∧ result = .ok value := by
  split at returned
  · rename_i met
    exact ⟨met, returned⟩
  · cases returned

@[simp] theorem spec_ok (post : α → Prop) (value : α) :
    Spec allowed post (.ok value : Except φ α) ↔ post value := Iff.rfl

theorem Spec.bind {middle : α → Prop} {post : β → Prop} {first : Except φ α}
    {next : α → Except φ β} (head : Spec allowed middle first)
    (tail : ∀ value, middle value → Spec allowed post (next value)) :
    Spec allowed post (first >>= next) := by
  cases first with
  | ok value => exact tail value head
  | error fault => exact head

/-- The continuation may also use that the first part returned its value. -/
theorem Spec.bind_of_ok {middle : α → Prop} {post : β → Prop} {first : Except φ α}
    {next : α → Except φ β} (head : Spec allowed middle first)
    (tail : ∀ value, first = .ok value → middle value → Spec allowed post (next value)) :
    Spec allowed post (first >>= next) := by
  cases first with
  | ok value => exact tail value rfl head
  | error fault => exact head

theorem Spec.map {middle : α → Prop} {post : β → Prop} {first : Except φ α} {next : α → β}
    (head : Spec allowed middle first) (tail : ∀ value, middle value → post (next value)) :
    Spec allowed post (first.map next) := by
  cases first with
  | ok value => exact tail value head
  | error fault => exact head

theorem Spec.mono {post weaker : α → Prop} {result : Except φ α}
    (holds : Spec allowed post result) (weaken : ∀ value, post value → weaker value) :
    Spec allowed weaker result := by
  cases result with
  | ok value => exact weaken value holds
  | error fault => exact holds

/-- A guarded computation fails as its body does, or because its guard is not met. -/
theorem Spec.guard {enabled : Prop} [Decidable enabled] {post : α → Prop} {result : Except φ α}
    {fault : φ} (met : enabled → Spec allowed post result) (refused : allowed fault) :
    Spec allowed post (if enabled then result else .error fault) := by
  split
  · rename_i holds
    exact met holds
  · exact refused

theorem Spec.and {post other : α → Prop} {result : Except φ α} (first : Spec allowed post result)
    (second : Spec allowed other result) :
    Spec allowed (fun value => post value ∧ other value) result := by
  cases result with
  | ok value => exact ⟨first, second⟩
  | error fault => exact first

/-- More faults may be allowed. -/
theorem Spec.allow {more : φ → Prop} {post : α → Prop} {result : Except φ α}
    (holds : Spec allowed post result) (weaken : ∀ fault, allowed fault → more fault) :
    Spec more post result := by
  cases result with
  | ok value => exact holds
  | error fault => exact weaken fault holds

theorem Spec.of_ok {post : α → Prop} {result : Except φ α} {value : α}
    (holds : Spec allowed post result) (returned : result = .ok value) : post value := by
  subst returned
  exact holds

theorem Spec.of_error {post : α → Prop} {result : Except φ α} {fault : φ}
    (holds : Spec allowed post result) (failed : result = .error fault) : allowed fault := by
  subst failed
  exact holds

section Related

variable {α' β' : Type v}

/-- Both computations return, and related values, or both fail, and alike. -/
def Related (relation : α → α' → Prop) : Except φ α → Except φ α' → Prop
  | .ok first, .ok second => relation first second
  | .error first, .error second => first = second
  | .ok _, .error _ => False
  | .error _, .ok _ => False

theorem Related.bind {relation : α → α' → Prop} {later : β → β' → Prop}
    {first : Except φ α} {second : Except φ α'} {next : α → Except φ β}
    {next' : α' → Except φ β'} (heads : Related relation first second)
    (tails : ∀ value value', relation value value' → Related later (next value) (next' value')) :
    Related later (first >>= next) (second >>= next') := by
  cases first with
  | ok value =>
      cases second with
      | ok value' => exact tails value value' heads
      | error fault => exact heads.elim
  | error fault =>
      cases second with
      | ok value' => exact heads.elim
      | error fault' => exact heads

theorem Related.of_ok {relation : α → α' → Prop} {value : α} {second : Except φ α'}
    (related : Related relation (.ok value) second) :
    ∃ value', second = .ok value' ∧ relation value value' := by
  cases second with
  | ok value' => exact ⟨value', rfl, related⟩
  | error fault => exact related.elim

theorem Related.map {relation : α → α' → Prop} {later : β → β' → Prop} {first : Except φ α}
    {second : Except φ α'} {next : α → β} {next' : α' → β'} (heads : Related relation first second)
    (tails : ∀ value value', relation value value' → later (next value) (next' value')) :
    Related later (first.map next) (second.map next') := by
  cases first with
  | ok value =>
      cases second with
      | ok value' => exact tails value value' heads
      | error fault => exact heads.elim
  | error fault =>
      cases second with
      | ok value' => exact heads.elim
      | error fault' => exact heads

theorem Related.mono {relation weaker : α → α' → Prop} {first : Except φ α}
    {second : Except φ α'} (related : Related relation first second)
    (weaken : ∀ value value', relation value value' → weaker value value') :
    Related weaker first second := by
  cases first with
  | ok value =>
      cases second with
      | ok value' => exact weaken value value' related
      | error fault => exact related.elim
  | error fault =>
      cases second with
      | ok value' => exact related.elim
      | error fault' => exact related

end Related

section Follows

variable {α' β' : Type v}

/-- The first computation returns only where the second does, and then related values; where it
fails the second fails alike, or the fault is an allowed one. -/
def Follows (allowed : φ → Prop) (relation : α → α' → Prop) : Except φ α → Except φ α' → Prop
  | .ok first, .ok second => relation first second
  | .error first, .error second => first = second ∨ allowed first
  | .error first, .ok _ => allowed first
  | .ok _, .error _ => False

theorem Follows.of_allowed {relation : α → α' → Prop} {fault : φ} (within : allowed fault)
    (second : Except φ α') : Follows allowed relation (.error fault) second := by
  cases second with
  | ok value => exact within
  | error other => exact .inr within

theorem Follows.bind {relation : α → α' → Prop} {later : β → β' → Prop}
    {first : Except φ α} {second : Except φ α'} {next : α → Except φ β}
    {next' : α' → Except φ β'} (heads : Follows allowed relation first second)
    (tails : ∀ value value', relation value value' →
      Follows allowed later (next value) (next' value')) :
    Follows allowed later (first >>= next) (second >>= next') := by
  cases first with
  | ok value =>
      cases second with
      | ok value' => exact tails value value' heads
      | error fault => exact heads.elim
  | error fault =>
      cases second with
      | ok value' =>
          have within : allowed fault := heads
          exact Follows.of_allowed within (next' value')
      | error fault' => exact heads

theorem Follows.of_ok {relation : α → α' → Prop} {value : α} {second : Except φ α'}
    (follows : Follows allowed relation (.ok value) second) :
    ∃ value', second = .ok value' ∧ relation value value' := by
  cases second with
  | ok value' => exact ⟨value', rfl, follows⟩
  | error fault => exact follows.elim

/-- The first computation fails with no more than the second does. -/
theorem Follows.spec {relation : α → α' → Prop} {post : α' → Prop} {first : Except φ α}
    {second : Except φ α'} (follows : Follows allowed relation first second)
    (spec : Spec allowed post second) : Spec allowed (fun _ => True) first := by
  cases first with
  | ok value => trivial
  | error fault =>
      cases second with
      | ok value => exact follows
      | error other =>
          rcases follows with same | within
          · exact same ▸ spec
          · exact within

end Follows


end Outcome
