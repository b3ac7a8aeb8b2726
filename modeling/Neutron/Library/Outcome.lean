import Mathlib.Data.List.Forall2

namespace Library

universe u v w

theorem exists_of_mem_right {Left : Type u} {Right : Type v} {related : Left → Right → Prop}
    {left : List Left} {right : List Right} (all : List.Forall₂ related left right)
    {second : Right} (member : second ∈ right) :
    ∃ first ∈ left, related first second := by
  induction all with
  | nil => cases member
  | cons head _ ih =>
      rcases List.mem_cons.mp member with rfl | inRest
      · exact ⟨_, List.mem_cons_self, head⟩
      · obtain ⟨first, listed, holds⟩ := ih inRest
        exact ⟨first, List.mem_cons_of_mem _ listed, holds⟩

variable {Failure : Type u} {Result : Type v} {Next : Type v}

namespace Outcome

theorem bind_eq_ok_iff (first : Except Failure Result)
    (next : Result → Except Failure Next) (final : Next) :
    (first >>= next) = .ok final ↔
      ∃ middle, first = .ok middle ∧ next middle = .ok final := by
  cases first with
  | error failure =>
      constructor
      · intro impossible
        cases impossible
      · rintro ⟨middle, impossible, _⟩
        cases impossible
  | ok middle =>
      constructor
      · intro finished
        exact ⟨middle, rfl, finished⟩
      · rintro ⟨other, equal, finished⟩
        cases equal
        exact finished

theorem bind_eq_ok_congr {first : Except Failure Result}
    {left right : Result → Except Failure Next} {final : Next}
    (same : ∀ middle, left middle = .ok final ↔ right middle = .ok final) :
    (first >>= left) = .ok final ↔ (first >>= right) = .ok final := by
  rw [bind_eq_ok_iff, bind_eq_ok_iff]
  exact exists_congr fun middle => and_congr_right fun _ => same middle

@[simp] theorem ok_bind (result : Result) (next : Result → Except Failure Next) :
    (Except.ok result >>= next) = next result := rfl

@[simp] theorem error_bind (failure : Failure) (next : Result → Except Failure Next) :
    (Except.error failure >>= next) = .error failure := rfl

theorem bind_ok {first : Except Failure Result} {next : Result → Except Failure Next}
    {middle : Result} {final : Next} (computed : first = .ok middle)
    (rest : next middle = .ok final) : (first >>= next) = .ok final :=
  (bind_eq_ok_iff _ _ _).mpr ⟨middle, computed, rest⟩

theorem bind_total {first : Except Failure Result} {next : Result → Except Failure Next}
    {result : Result} (computed : first = .ok result)
    (total : ∃ final, next result = .ok final) : ∃ final, (first >>= next) = .ok final := by
  obtain ⟨final, ok⟩ := total
  exact ⟨final, (bind_eq_ok_iff _ _ _).mpr ⟨result, computed, ok⟩⟩

theorem toOption_eq_some_iff {outcome : Except Failure Result} {result : Result} :
    outcome.toOption = some result ↔ outcome = .ok result := by
  cases outcome with
  | error failure => exact ⟨fun impossible => (nomatch impossible), fun ok => (nomatch ok)⟩
  | ok value => exact ⟨fun same => congrArg _ (Option.some.inj same), fun ok => by cases ok; rfl⟩

theorem eq_ok_of_map_toOption {View : Type w} {outcome : Except Failure Result}
    {view : Result → View} {seen : View} (some : outcome.toOption.map view = some seen) :
    ∃ result, outcome = .ok result ∧ view result = seen := by
  cases outcome with
  | error failure => cases some
  | ok result => exact ⟨result, rfl, Option.some.inj some⟩

theorem toOption_eq_of_ok_iff {left right : Except Failure Result}
    (same : ∀ final, left = .ok final ↔ right = .ok final) :
    left.toOption = right.toOption := by
  cases left with
  | ok final => rw [(same final).mp rfl]
  | error failure =>
      cases right with
      | ok final => exact nomatch (same final).mpr rfl
      | error other => rfl

theorem pure_eq_ok_iff (first final : Result) :
    (pure first : Except Failure Result) = .ok final ↔ first = final :=
  ⟨fun equal => Except.ok.inj equal, fun equal => congrArg Except.ok equal⟩

def require (condition : Prop) [Decidable condition] (failure : Failure) :
    Except Failure PUnit :=
  if condition then pure ⟨⟩ else throw failure

theorem require_eq_ok_iff (condition : Prop) [Decidable condition]
    (failure : Failure) (result : PUnit) :
    require condition failure = .ok result ↔ condition := by
  unfold require
  split
  · rename_i holds
    exact ⟨fun _ => holds, fun _ => rfl⟩
  · rename_i fails
    exact ⟨fun impossible => (nomatch impossible), fun holds => absurd holds fails⟩

theorem ite_throw_eq_ok_iff (condition : Prop) [Decidable condition]
    (failure : Failure) (next : Except Failure Result) (final : Result) :
    (if condition then throw failure else next) = .ok final ↔
      ¬ condition ∧ next = .ok final := by
  split
  · rename_i holds
    exact ⟨fun impossible => (nomatch impossible),
      fun both => absurd holds both.1⟩
  · rename_i fails
    exact ⟨fun finished => ⟨fails, finished⟩, fun both => both.2⟩

theorem forall₂_of_mapM_eq_ok {Item : Type w} {action : Item → Except Failure Result}
    {items : List Item} {results : List Result} (ok : items.mapM action = .ok results) :
    List.Forall₂ (fun item result => action item = .ok result) items results := by
  induction items generalizing results with
  | nil =>
      rw [List.mapM_nil, pure_eq_ok_iff] at ok
      exact ok ▸ .nil
  | cons item rest ih =>
      rw [List.mapM_cons] at ok
      obtain ⟨first, firstOk, ok⟩ := (bind_eq_ok_iff _ _ _).mp ok
      obtain ⟨others, restOk, ok⟩ := (bind_eq_ok_iff _ _ _).mp ok
      rw [pure_eq_ok_iff] at ok
      exact ok ▸ .cons firstOk (ih restOk)

theorem foldlM_invariant {Item : Type w} {turn : Result → Item → Except Failure Result}
    {invariant : Result → Prop}
    (kept : ∀ {state item next}, invariant state → turn state item = .ok next →
      invariant next)
    {items : List Item} {state final : Result} (start : invariant state)
    (ok : items.foldlM turn state = .ok final) : invariant final := by
  induction items generalizing state with
  | nil => exact (pure_eq_ok_iff _ _).mp ok ▸ start
  | cons item rest ih =>
      rw [List.foldlM_cons] at ok
      obtain ⟨middle, first, ok⟩ := (bind_eq_ok_iff _ _ _).mp ok
      exact ih (kept start first) ok

/-- Two computations agree: both fail alike, or both succeed with related results. -/
inductive Agree {Left Right : Type v} (related : Left → Right → Prop) :
    Except Failure Left → Except Failure Right → Prop
  | ok {left : Left} {right : Right} (holds : related left right) :
      Agree related (.ok left) (.ok right)
  | error (failure : Failure) : Agree related (.error failure) (.error failure)

namespace Agree

variable {Left Right LeftNext RightNext : Type v} {related : Left → Right → Prop}
  {relatedNext : LeftNext → RightNext → Prop}
  {left : Except Failure Left} {right : Except Failure Right}

theorem bind (agree : Agree related left right)
    {leftNext : Left → Except Failure LeftNext}
    {rightNext : Right → Except Failure RightNext}
    (next : ∀ {leftResult rightResult}, related leftResult rightResult →
      Agree relatedNext (leftNext leftResult) (rightNext rightResult)) :
    Agree relatedNext (left >>= leftNext) (right >>= rightNext) := by
  cases agree with
  | ok holds => exact next holds
  | error failure => exact .error failure

theorem mono (agree : Agree related left right) {weaker : Left → Right → Prop}
    (implies : ∀ {leftResult rightResult}, related leftResult rightResult →
      weaker leftResult rightResult) : Agree weaker left right := by
  cases agree with
  | ok holds => exact .ok (implies holds)
  | error failure => exact .error failure

theorem refl (result : Except Failure Left) : Agree Eq result result := by
  cases result with
  | ok value => exact .ok rfl
  | error failure => exact .error failure

theorem isOk_eq (agree : Agree related left right) : left.isOk = right.isOk := by
  cases agree <;> rfl

theorem map_eq {function : Left → Right}
    (agree : Agree (fun result image => function result = image) left right) :
    left.map function = right := by
  cases agree with
  | ok holds => exact congrArg Except.ok holds
  | error failure => rfl

end Agree

end Outcome

theorem of_bind {first : Except Failure Result} {next : Result → Except Failure Next}
    {final : Next} (ok : (first >>= next) = .ok final) :
    ∃ middle, first = .ok middle ∧ next middle = .ok final :=
  (Outcome.bind_eq_ok_iff _ _ _).mp ok

theorem of_require {condition : Prop} [Decidable condition] {failure : Failure} {result : PUnit}
    (ok : Outcome.require condition failure = .ok result) : condition :=
  (Outcome.require_eq_ok_iff _ _ _).mp ok

end Library
