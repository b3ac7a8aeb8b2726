import Mathlib.Order.Lex
import Mathlib.Data.List.Basic
import Mathlib.Algebra.BigOperators.Group.List.Basic
import Mathlib.Algebra.Order.BigOperators.Group.List
import Mathlib.Algebra.Order.Group.Unbundled.Basic
import Mathlib.Tactic.Abel

namespace Library

universe u v w

variable {Key : Type u} {Value : Type v} [LinearOrder Key]

/-! Association lists in strictly increasing key order: what an ordered
key-value store looks like to code that reads, writes and iterates it. -/

namespace Entries

def lookup (key : Key) : List (Key × Value) → Option Value
  | [] => none
  | entry :: rest => if key = entry.1 then some entry.2 else lookup key rest

def insert (key : Key) (value : Value) :
    List (Key × Value) → List (Key × Value)
  | [] => [(key, value)]
  | entry :: rest =>
      if key < entry.1 then
        (key, value) :: entry :: rest
      else if key = entry.1 then
        (key, value) :: rest
      else
        entry :: insert key value rest

def erase (key : Key) (entries : List (Key × Value)) : List (Key × Value) :=
  entries.filter fun entry => decide (entry.1 ≠ key)

def Increasing (entries : List (Key × Value)) : Prop :=
  entries.Pairwise fun left right => left.1 < right.1

theorem lookup_eq_none_of_lt {key : Key} {entries : List (Key × Value)}
    (below : ∀ entry ∈ entries, key < entry.1) : lookup key entries = none := by
  induction entries with
  | nil => rfl
  | cons entry rest ih =>
      have headBelow : key < entry.1 := below entry (by simp)
      rw [lookup, if_neg (ne_of_lt headBelow)]
      exact ih fun other member => below other (by simp [member])

theorem mem_iff_lookup {entries : List (Key × Value)}
    (increasing : Increasing entries) (key : Key) (value : Value) :
    (key, value) ∈ entries ↔ lookup key entries = some value := by
  induction entries with
  | nil => simp [lookup]
  | cons entry rest ih =>
      obtain ⟨headBelow, restIncreasing⟩ := List.pairwise_cons.mp increasing
      by_cases same : key = entry.1
      · subst same
        have absent : (entry.1, value) ∉ rest := by
          intro member
          exact lt_irrefl entry.1 (headBelow (entry.1, value) member)
        rw [lookup, if_pos rfl, List.mem_cons]
        constructor
        · rintro (equal | member)
          · rw [← equal]
          · exact absurd member absent
        · intro found
          left
          rw [← Option.some.inj found]
      · rw [lookup, if_neg same, List.mem_cons, ih restIncreasing]
        constructor
        · rintro (equal | found)
          · exact absurd (congrArg Prod.fst equal) same
          · exact found
        · exact Or.inr

theorem lookup_insert_self (key : Key) (value : Value)
    (entries : List (Key × Value)) :
    lookup key (insert key value entries) = some value := by
  induction entries with
  | nil => simp [insert, lookup]
  | cons entry rest ih =>
      unfold insert
      split
      · simp [lookup]
      · rename_i notBelow
        split
        · simp [lookup]
        · rename_i different
          simp [lookup, different, ih]

theorem lookup_insert_of_ne {key other : Key} (value : Value)
    (entries : List (Key × Value)) (different : other ≠ key) :
    lookup other (insert key value entries) = lookup other entries := by
  induction entries with
  | nil => simp [insert, lookup, different]
  | cons entry rest ih =>
      unfold insert
      split
      · simp [lookup, different]
      · split
        · rename_i same
          subst same
          simp [lookup, different]
        · simp [lookup, ih]

theorem lookup_erase_self (key : Key) (entries : List (Key × Value)) :
    lookup key (erase key entries) = none := by
  induction entries with
  | nil => rfl
  | cons entry rest ih =>
      unfold erase at ih ⊢
      by_cases same : entry.1 = key
      · simpa [same] using ih
      · have different : key ≠ entry.1 := fun equal => same equal.symm
        simpa [same, lookup, different] using ih

theorem lookup_erase_of_ne {key other : Key} (entries : List (Key × Value))
    (different : other ≠ key) :
    lookup other (erase key entries) = lookup other entries := by
  induction entries with
  | nil => rfl
  | cons entry rest ih =>
      unfold erase at ih ⊢
      by_cases same : entry.1 = key
      · have notOther : other ≠ entry.1 := by rwa [same]
        simpa [same, lookup, notOther, different] using ih
      · simp only [ne_eq, same, not_false_eq_true, decide_true,
          List.filter_cons_of_pos, lookup]
        rw [ih]

theorem mem_insert {key : Key} {value : Value} {entry : Key × Value}
    {entries : List (Key × Value)} (member : entry ∈ insert key value entries) :
    entry = (key, value) ∨ entry ∈ entries := by
  induction entries with
  | nil => simpa [insert] using member
  | cons head rest ih =>
      unfold insert at member
      split at member
      · simpa using member
      · split at member
        · rcases List.mem_cons.mp member with equal | inRest
          · exact Or.inl equal
          · exact Or.inr (List.mem_cons_of_mem _ inRest)
        · rcases List.mem_cons.mp member with equal | inRest
          · exact Or.inr (equal ▸ List.mem_cons_self)
          · rcases ih inRest with equal | inTail
            · exact Or.inl equal
            · exact Or.inr (List.mem_cons_of_mem _ inTail)

theorem insert_increasing (key : Key) (value : Value)
    {entries : List (Key × Value)} (increasing : Increasing entries) :
    Increasing (insert key value entries) := by
  induction entries with
  | nil => simp [insert, Increasing]
  | cons head rest ih =>
      obtain ⟨headBelow, restIncreasing⟩ := List.pairwise_cons.mp increasing
      unfold insert
      split
      · rename_i below
        refine List.pairwise_cons.mpr ⟨?_, increasing⟩
        intro entry member
        rcases List.mem_cons.mp member with equal | inRest
        · exact equal ▸ below
        · exact lt_trans below (headBelow entry inRest)
      · rename_i notBelow
        split
        · rename_i same
          exact List.pairwise_cons.mpr
            ⟨fun entry member => same ▸ headBelow entry member, restIncreasing⟩
        · rename_i different
          refine List.pairwise_cons.mpr ⟨?_, ih restIncreasing⟩
          intro entry member
          rcases mem_insert member with equal | inRest
          · rw [equal]
            exact lt_of_le_of_ne (not_lt.mp notBelow) (Ne.symm different)
          · exact headBelow entry inRest

theorem erase_increasing (key : Key) {entries : List (Key × Value)}
    (increasing : Increasing entries) : Increasing (erase key entries) :=
  increasing.filter _

theorem eq_of_lookup_eq {left right : List (Key × Value)}
    (leftIncreasing : Increasing left) (rightIncreasing : Increasing right)
    (same : ∀ key, lookup key left = lookup key right) : left = right := by
  refine List.Perm.eq_of_pairwise ?_ leftIncreasing rightIncreasing ?_
  · intro first second _ _ below above
    exact absurd (lt_trans below above) (lt_irrefl _)
  · have leftNodup : left.Nodup :=
      leftIncreasing.imp fun below equal => ne_of_lt below (congrArg Prod.fst equal)
    have rightNodup : right.Nodup :=
      rightIncreasing.imp fun below equal => ne_of_lt below (congrArg Prod.fst equal)
    refine (List.perm_ext_iff_of_nodup leftNodup rightNodup).mpr ?_
    rintro ⟨key, value⟩
    rw [mem_iff_lookup leftIncreasing, mem_iff_lookup rightIncreasing, same]

def total {Amount : Type w} [AddCommGroup Amount]
    (measure : Key → Value → Amount) (entries : List (Key × Value)) : Amount :=
  (entries.map fun entry => measure entry.1 entry.2).sum

section Total

variable {Amount : Type w} [AddCommGroup Amount]

def share (measure : Key → Value → Amount) (key : Key) (found : Option Value) :
    Amount :=
  found.elim 0 (measure key)

theorem total_insert (measure : Key → Value → Amount) (key : Key)
    (value : Value) {entries : List (Key × Value)}
    (increasing : Increasing entries) :
    total measure (insert key value entries) =
      total measure entries - share measure key (lookup key entries) +
        measure key value := by
  induction entries with
  | nil => simp [insert, total, lookup, share]
  | cons head rest ih =>
      obtain ⟨headBelow, restIncreasing⟩ := List.pairwise_cons.mp increasing
      unfold insert
      split
      · rename_i below
        have absent : lookup key (head :: rest) = none := by
          apply lookup_eq_none_of_lt
          intro entry member
          rcases List.mem_cons.mp member with equal | inRest
          · exact equal ▸ below
          · exact lt_trans below (headBelow entry inRest)
        rw [absent]
        simp only [total, share, List.map_cons, List.sum_cons, Option.elim_none,
          sub_zero]
        abel
      · split
        · rename_i same
          subst same
          simp only [total, share, lookup, List.map_cons, List.sum_cons, if_pos,
            Option.elim_some]
          abel
        · rename_i different
          have restTotal := ih restIncreasing
          simp only [total, List.map_cons, List.sum_cons, lookup,
            if_neg different] at restTotal ⊢
          rw [restTotal]
          abel

theorem total_erase (measure : Key → Value → Amount) (key : Key)
    {entries : List (Key × Value)} (increasing : Increasing entries) :
    total measure (erase key entries) =
      total measure entries - share measure key (lookup key entries) := by
  induction entries with
  | nil => simp [erase, total, lookup, share]
  | cons head rest ih =>
      obtain ⟨headBelow, restIncreasing⟩ := List.pairwise_cons.mp increasing
      have restTotal := ih restIncreasing
      by_cases same : head.1 = key
      · subst same
        have absent : lookup head.1 rest = none := lookup_eq_none_of_lt headBelow
        rw [absent] at restTotal
        have dropped : erase head.1 (head :: rest) = erase head.1 rest := by
          simp [erase]
        rw [dropped, restTotal]
        simp [total, share, lookup]
      · have different : key ≠ head.1 := fun equal => same equal.symm
        have kept : erase key (head :: rest) = head :: erase key rest := by
          simp [erase, same]
        rw [kept]
        simp only [total, List.map_cons, List.sum_cons, lookup,
          if_neg different] at restTotal ⊢
        rw [restTotal]
        abel

end Total

end Entries

/-- An ordered store: an association list that carries its key order. -/
structure SortedStore (Key : Type u) (Value : Type v) [LinearOrder Key] where
  entries : List (Key × Value)
  increasing : Entries.Increasing entries

namespace SortedStore

variable (store : SortedStore Key Value)

def empty : SortedStore Key Value := ⟨[], List.Pairwise.nil⟩

def get? (key : Key) : Option Value := Entries.lookup key store.entries

def set (key : Key) (value : Value) : SortedStore Key Value :=
  ⟨Entries.insert key value store.entries,
    Entries.insert_increasing key value store.increasing⟩

def delete (key : Key) : SortedStore Key Value :=
  ⟨Entries.erase key store.entries,
    Entries.erase_increasing key store.increasing⟩

/-- The values whose keys satisfy a predicate, in key order: a prefix
iterator over the snapshot of the store. -/
def iterate (within : Key → Bool) : List (Key × Value) :=
  store.entries.filter fun entry => within entry.1

def values : List Value := store.entries.map Prod.snd

@[simp] theorem get?_empty (key : Key) :
    (empty : SortedStore Key Value).get? key = none := rfl

@[simp] theorem get?_set_self (key : Key) (value : Value) :
    (store.set key value).get? key = some value :=
  Entries.lookup_insert_self key value store.entries

theorem get?_set_of_ne {key other : Key} (value : Value)
    (different : other ≠ key) :
    (store.set key value).get? other = store.get? other :=
  Entries.lookup_insert_of_ne value store.entries different

theorem get?_set (key other : Key) (value : Value) :
    (store.set key value).get? other =
      if other = key then some value else store.get? other := by
  split
  · rename_i same
    rw [same, get?_set_self]
  · rename_i different
    exact store.get?_set_of_ne value different

@[simp] theorem get?_delete_self (key : Key) :
    (store.delete key).get? key = none :=
  Entries.lookup_erase_self key store.entries

theorem get?_delete_of_ne {key other : Key} (different : other ≠ key) :
    (store.delete key).get? other = store.get? other :=
  Entries.lookup_erase_of_ne store.entries different

theorem get?_delete (key other : Key) :
    (store.delete key).get? other =
      if other = key then none else store.get? other := by
  split
  · rename_i same
    rw [same, get?_delete_self]
  · rename_i different
    exact store.get?_delete_of_ne different

theorem of_get?_set {store : SortedStore Key Value} {key other : Key} {value stored : Value}
    (found : (store.set key value).get? other = some stored) :
    (other = key ∧ value = stored) ∨ (other ≠ key ∧ store.get? other = some stored) := by
  rw [get?_set] at found
  split at found
  · rename_i same
    exact .inl ⟨same, Option.some.inj found⟩
  · rename_i different
    exact .inr ⟨different, found⟩

theorem of_get?_delete {store : SortedStore Key Value} {key other : Key} {stored : Value}
    (found : (store.delete key).get? other = some stored) : store.get? other = some stored := by
  rw [get?_delete] at found
  split at found
  · cases found
  · exact found

theorem mem_entries_iff (key : Key) (value : Value) :
    (key, value) ∈ store.entries ↔ store.get? key = some value :=
  Entries.mem_iff_lookup store.increasing key value

theorem mem_iterate_iff (within : Key → Bool) (key : Key) (value : Value) :
    (key, value) ∈ store.iterate within ↔
      store.get? key = some value ∧ within key = true := by
  rw [iterate, List.mem_filter, mem_entries_iff]

theorem iterate_increasing (within : Key → Bool) :
    Entries.Increasing (store.iterate within) :=
  store.increasing.filter _

theorem mem_values_iff (value : Value) :
    value ∈ store.values ↔ ∃ key, store.get? key = some value := by
  rw [values, List.mem_map]
  constructor
  · rintro ⟨⟨key, found⟩, member, equal⟩
    exact ⟨key, (store.mem_entries_iff key value).mp (equal ▸ member)⟩
  · rintro ⟨key, found⟩
    exact ⟨(key, value), (store.mem_entries_iff key value).mpr found, rfl⟩

@[ext] theorem ext_get? {left right : SortedStore Key Value}
    (same : ∀ key, left.get? key = right.get? key) : left = right := by
  cases left with
  | mk leftEntries leftIncreasing =>
      cases right with
      | mk rightEntries rightIncreasing =>
          have equal : leftEntries = rightEntries :=
            Entries.eq_of_lookup_eq leftIncreasing rightIncreasing same
          subst equal
          rfl

theorem nodup_keys : (store.entries.map Prod.fst).Nodup :=
  List.pairwise_map.mpr (store.increasing.imp ne_of_lt)

theorem mem_keys_iff (key : Key) :
    key ∈ store.entries.map Prod.fst ↔ (store.get? key).isSome := by
  rw [List.mem_map, Option.isSome_iff_exists]
  constructor
  · rintro ⟨⟨_, value⟩, member, rfl⟩
    exact ⟨value, (store.mem_entries_iff _ _).mp member⟩
  · rintro ⟨value, found⟩
    exact ⟨(key, value), (store.mem_entries_iff _ _).mpr found, rfl⟩

theorem length_entries_lt {left right : SortedStore Key Value}
    (kept : ∀ key, (left.get? key).isSome → (right.get? key).isSome) {key : Key}
    (gone : left.get? key = none) (present : (right.get? key).isSome) :
    left.entries.length < right.entries.length := by
  have absent : key ∉ left.entries.map Prod.fst := by
    rw [mem_keys_iff, gone]
    exact Bool.false_ne_true
  have distinct := List.nodup_cons.mpr ⟨absent, left.nodup_keys⟩
  have within : key :: left.entries.map Prod.fst ⊆ right.entries.map Prod.fst := by
    intro other member
    rw [mem_keys_iff]
    rcases List.mem_cons.mp member with same | member
    · rw [same]
      exact present
    · exact kept other ((left.mem_keys_iff other).mp member)
  have longer := (List.subperm_of_subset distinct within).length_le
  rwa [List.length_cons, List.length_map, List.length_map] at longer

theorem length_entries_le {left right : SortedStore Key Value}
    (kept : ∀ key, (left.get? key).isSome → (right.get? key).isSome) :
    left.entries.length ≤ right.entries.length := by
  have within : left.entries.map Prod.fst ⊆ right.entries.map Prod.fst := fun other member =>
    (right.mem_keys_iff other).mpr (kept other ((left.mem_keys_iff other).mp member))
  have longer := (List.subperm_of_subset left.nodup_keys within).length_le
  rwa [List.length_map, List.length_map] at longer

def mapValues {Next : Type w} (change : Key → Value → Next) :
    SortedStore Key Next where
  entries := store.entries.map fun entry => (entry.1, change entry.1 entry.2)
  increasing := by
    unfold Entries.Increasing
    rw [List.pairwise_map]
    exact store.increasing

theorem get?_mapValues {Next : Type w} (change : Key → Value → Next) (key : Key) :
    (store.mapValues change).get? key = (store.get? key).map (change key) := by
  obtain ⟨entries, increasing⟩ := store
  unfold get? mapValues
  dsimp only
  clear increasing
  induction entries with
  | nil => rfl
  | cons entry rest ih =>
      rw [List.map_cons, Entries.lookup, Entries.lookup]
      split
      · rename_i same
        rw [same, Option.map_some]
      · exact ih

theorem mapValues_set {Next : Type w} (change : Key → Value → Next) (key : Key)
    (value : Value) :
    (store.set key value).mapValues change =
      (store.mapValues change).set key (change key value) := by
  apply ext_get?
  intro other
  rw [get?_mapValues, get?_set, get?_set, get?_mapValues]
  split
  · rename_i same
    rw [same, Option.map_some]
  · rfl

theorem mapValues_delete {Next : Type w} (change : Key → Value → Next) (key : Key) :
    (store.delete key).mapValues change = (store.mapValues change).delete key := by
  apply ext_get?
  intro other
  rw [get?_mapValues, get?_delete, get?_delete, get?_mapValues]
  split
  · rfl
  · rfl

section Total

variable {Amount : Type w} [AddCommGroup Amount]

def total (measure : Key → Value → Amount) : Amount :=
  Entries.total measure store.entries

@[simp] theorem total_empty (measure : Key → Value → Amount) :
    (empty : SortedStore Key Value).total measure = 0 := rfl

theorem length_values : (store.values.length : ℤ) = store.total fun _ _ => (1 : ℤ) := by
  simp [values, total, Entries.total]

theorem total_set (measure : Key → Value → Amount) (key : Key)
    (value : Value) :
    (store.set key value).total measure =
      store.total measure - Entries.share measure key (store.get? key) +
        measure key value :=
  Entries.total_insert measure key value store.increasing

theorem total_delete (measure : Key → Value → Amount) (key : Key) :
    (store.delete key).total measure =
      store.total measure - Entries.share measure key (store.get? key) :=
  Entries.total_erase measure key store.increasing

theorem length_values_set_absent {key : Key} (value : Value)
    (absent : store.get? key = none) :
    (store.set key value).values.length = store.values.length + 1 := by
  have total := store.total_set (fun _ _ => (1 : ℤ)) key value
  rw [absent, ← length_values, ← length_values, Entries.share, Option.elim_none] at total
  omega

theorem length_values_set_present {key : Key} {before : Value} (value : Value)
    (present : store.get? key = some before) :
    (store.set key value).values.length = store.values.length := by
  have total := store.total_set (fun _ _ => (1 : ℤ)) key value
  rw [present, ← length_values, ← length_values, Entries.share, Option.elim_some] at total
  omega

theorem length_values_delete_present {key : Key} {before : Value}
    (present : store.get? key = some before) :
    (store.delete key).values.length + 1 = store.values.length := by
  have total := store.total_delete (fun _ _ => (1 : ℤ)) key
  rw [present, ← length_values, ← length_values, Entries.share, Option.elim_some] at total
  omega

theorem total_nonneg [PartialOrder Amount] [IsOrderedAddMonoid Amount]
    {measure : Key → Value → Amount}
    (nonneg : ∀ key value, store.get? key = some value → 0 ≤ measure key value) :
    0 ≤ store.total measure := by
  apply List.sum_nonneg
  intro amount member
  obtain ⟨entry, isEntry, isAmount⟩ := List.mem_map.mp member
  rw [← isAmount]
  exact nonneg entry.1 entry.2 ((store.mem_entries_iff entry.1 entry.2).mp isEntry)

theorem total_congr {left right : Key → Value → Amount}
    (same : ∀ key value, store.get? key = some value → left key value = right key value) :
    store.total left = store.total right := by
  refine congrArg List.sum (List.map_congr_left ?_)
  rintro ⟨key, value⟩ member
  exact same key value ((store.mem_entries_iff key value).mp member)

theorem le_total [PartialOrder Amount] [IsOrderedAddMonoid Amount]
    {measure : Key → Value → Amount}
    (nonneg : ∀ key value, store.get? key = some value → 0 ≤ measure key value)
    {key : Key} {value : Value} (found : store.get? key = some value) :
    measure key value ≤ store.total measure := by
  have rest : 0 ≤ (store.delete key).total measure := by
    apply total_nonneg
    intro other stored present
    rw [get?_delete] at present
    split at present
    · cases present
    · exact nonneg other stored present
  rw [total_delete, found] at rest
  exact sub_nonneg.mp rest

end Total

end SortedStore

end Library
