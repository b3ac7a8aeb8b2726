import Neutron.Library.SortedStore

namespace Library

universe u v w

abbrev Tally (Key : Type u) (Amount : Type v) [LinearOrder Key] :=
  SortedStore Key Amount

namespace Tally

variable {Key : Type u} {Amount : Type v} [LinearOrder Key] [AddCommGroup Amount]

def amountOf (tally : Tally Key Amount) (key : Key) : Amount :=
  (tally.get? key).getD 0

@[simp] theorem amountOf_empty (key : Key) :
    amountOf (SortedStore.empty : Tally Key Amount) key = 0 := rfl

theorem amountOf_of_get? {tally : Tally Key Amount} {key : Key}
    {amount : Amount} (found : tally.get? key = some amount) :
    amountOf tally key = amount := by
  rw [amountOf, found, Option.getD_some]

theorem amountOf_set_empty (key other : Key) (amount : Amount) :
    amountOf (SortedStore.empty.set key amount) other =
      if other = key then amount else 0 := by
  rw [amountOf, SortedStore.get?_set]
  split <;> rfl

def listed (key : Key) (entries : List (Key × Amount)) : Amount :=
  (entries.map fun entry => if entry.1 = key then entry.2 else 0).sum

@[simp] theorem listed_nil (key : Key) :
    listed key ([] : List (Key × Amount)) = 0 := rfl

@[simp] theorem listed_cons (key : Key) (entry : Key × Amount)
    (rest : List (Key × Amount)) :
    listed key (entry :: rest) =
      (if entry.1 = key then entry.2 else 0) + listed key rest := by
  simp [listed]

@[simp] theorem listed_append (key : Key) (left right : List (Key × Amount)) :
    listed key (left ++ right) = listed key left + listed key right := by
  simp [listed]

theorem listed_eq_zero {key : Key} {entries : List (Key × Amount)}
    (absent : ∀ entry ∈ entries, entry.1 ≠ key) : listed key entries = 0 := by
  induction entries with
  | nil => rfl
  | cons entry rest ih =>
      rw [listed_cons, if_neg (absent entry (by simp)), zero_add]
      exact ih fun other member => absent other (by simp [member])

theorem listed_entries (tally : Tally Key Amount) (key : Key) :
    listed key tally.entries = amountOf tally key := by
  obtain ⟨entries, increasing⟩ := tally
  unfold amountOf SortedStore.get?
  induction entries with
  | nil => rfl
  | cons entry rest ih =>
      obtain ⟨headBelow, restIncreasing⟩ := List.pairwise_cons.mp increasing
      rw [listed_cons, Entries.lookup]
      by_cases same : key = entry.1
      · have absent : ∀ other ∈ rest, other.1 ≠ key := by
          intro other member equal
          have below := headBelow other member
          rw [equal, same] at below
          exact lt_irrefl _ below
        rw [if_pos same.symm, if_pos same, listed_eq_zero absent, add_zero,
          Option.getD_some]
      · rw [if_neg (Ne.symm same), if_neg same, zero_add]
        exact ih restIncreasing

variable [DecidableEq Amount]

def addEntry (tally : Tally Key Amount) (entry : Key × Amount) :
    Tally Key Amount :=
  let sum := amountOf tally entry.1 + entry.2
  if sum = 0 then tally.delete entry.1 else tally.set entry.1 sum

def addAll (tally : Tally Key Amount) (entries : List (Key × Amount)) :
    Tally Key Amount :=
  entries.foldl addEntry tally

def ofList (entries : List (Key × Amount)) : Tally Key Amount :=
  addAll SortedStore.empty entries

def add (left right : Tally Key Amount) : Tally Key Amount :=
  ofList (left.entries ++ right.entries)

theorem amountOf_addEntry (tally : Tally Key Amount) (entry : Key × Amount)
    (key : Key) :
    amountOf (addEntry tally entry) key =
      amountOf tally key + if entry.1 = key then entry.2 else 0 := by
  unfold addEntry
  by_cases same : entry.1 = key
  · subst same
    dsimp only
    split
    · rename_i cancelled
      rw [amountOf, SortedStore.get?_delete_self, Option.getD_none,
        if_pos rfl, cancelled]
    · rw [amountOf, SortedStore.get?_set_self, Option.getD_some, if_pos rfl]
  · dsimp only
    rw [if_neg same, add_zero]
    split
    · rw [amountOf, SortedStore.get?_delete_of_ne _ (Ne.symm same), amountOf]
    · rw [amountOf, SortedStore.get?_set_of_ne _ _ (Ne.symm same), amountOf]

theorem amountOf_addAll (tally : Tally Key Amount)
    (entries : List (Key × Amount)) (key : Key) :
    amountOf (addAll tally entries) key =
      amountOf tally key + listed key entries := by
  induction entries generalizing tally with
  | nil => simp [addAll]
  | cons entry rest ih =>
      change amountOf (addAll (addEntry tally entry) rest) key = _
      rw [ih, amountOf_addEntry, listed_cons, add_assoc]

theorem amountOf_ofList (entries : List (Key × Amount)) (key : Key) :
    amountOf (ofList entries) key = listed key entries := by
  rw [ofList, amountOf_addAll, amountOf_empty, zero_add]

theorem amountOf_add (left right : Tally Key Amount) (key : Key) :
    amountOf (add left right) key = amountOf left key + amountOf right key := by
  rw [add, amountOf_ofList, listed_append, listed_entries, listed_entries]

theorem addAll_get?_ne_zero {tally : Tally Key Amount}
    (nonzero : ∀ key amount, tally.get? key = some amount → amount ≠ 0)
    (entries : List (Key × Amount)) {key : Key} {amount : Amount}
    (found : (addAll tally entries).get? key = some amount) : amount ≠ 0 := by
  induction entries generalizing tally with
  | nil => exact nonzero key amount found
  | cons entry rest ih =>
      refine @ih (addEntry tally entry) ?_ found
      intro other value present
      unfold addEntry at present
      dsimp only at present
      split at present
      · exact nonzero other value (SortedStore.of_get?_delete present)
      · rename_i kept
        rw [SortedStore.get?_set] at present
        split at present
        · rw [← Option.some.inj present]
          exact kept
        · exact nonzero other value present

theorem ofList_get?_ne_zero {entries : List (Key × Amount)} {key : Key}
    {amount : Amount} (found : (ofList entries).get? key = some amount) :
    amount ≠ 0 := by
  have start : ∀ key (amount : Amount),
      (SortedStore.empty : Tally Key Amount).get? key = some amount → amount ≠ 0 := by
    intro other value impossible
    cases impossible
  exact addAll_get?_ne_zero start entries found

end Tally

end Library
