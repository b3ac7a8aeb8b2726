import Neutron.Library.SortedStore

namespace Library

universe u v w

variable {Key : Type u} {Value : Type v} [LinearOrder Key] {keyOf : Value → Key}

/-- An ordered store whose records carry their own key: a record can only be
written under the key that is computed from its fields. -/
structure IndexedStore (Key : Type u) (Value : Type v) [LinearOrder Key]
    (keyOf : Value → Key) where
  store : SortedStore Key Value
  keyed : ∀ key value, store.get? key = some value → keyOf value = key

namespace IndexedStore

variable (records : IndexedStore Key Value keyOf)

def empty : IndexedStore Key Value keyOf :=
  ⟨SortedStore.empty, fun _ _ found => nomatch found⟩

def get? (key : Key) : Option Value := records.store.get? key

def set (value : Value) : IndexedStore Key Value keyOf where
  store := records.store.set (keyOf value) value
  keyed key other found := by
    rw [SortedStore.get?_set] at found
    split at found
    · rename_i same
      rw [same, Option.some.inj found]
    · exact records.keyed key other found

def delete (key : Key) : IndexedStore Key Value keyOf where
  store := records.store.delete key
  keyed other value found := by
    exact records.keyed other value (SortedStore.of_get?_delete found)

def values : List Value := records.store.values

def iterate (within : Key → Bool) : List Value :=
  (records.store.iterate within).map Prod.snd

theorem keyOf_eq {key : Key} {value : Value}
    (found : records.get? key = some value) : keyOf value = key :=
  records.keyed key value found

@[simp] theorem get?_set_self (value : Value) :
    (records.set value).get? (keyOf value) = some value :=
  records.store.get?_set_self (keyOf value) value

theorem get?_set (value : Value) (key : Key) :
    (records.set value).get? key =
      if key = keyOf value then some value else records.get? key :=
  records.store.get?_set (keyOf value) key value

theorem get?_set_of_ne {value : Value} {key : Key}
    (different : key ≠ keyOf value) :
    (records.set value).get? key = records.get? key :=
  records.store.get?_set_of_ne value different

@[simp] theorem get?_delete_self (key : Key) :
    (records.delete key).get? key = none :=
  records.store.get?_delete_self key

theorem get?_delete (key other : Key) :
    (records.delete key).get? other =
      if other = key then none else records.get? other :=
  records.store.get?_delete key other

theorem get?_delete_of_ne {key other : Key} (different : other ≠ key) :
    (records.delete key).get? other = records.get? other :=
  records.store.get?_delete_of_ne different

theorem get?_of_get?_delete {key other : Key} {value : Value}
    (found : (records.delete key).get? other = some value) :
    other ≠ key ∧ records.get? other = some value := by
  rw [get?_delete] at found
  split at found
  · cases found
  · rename_i different
    exact ⟨different, found⟩

theorem get?_of_get?_set {key : Key} {value found : Value}
    (present : (records.set value).get? key = some found) :
    found = value ∨ (key ≠ keyOf value ∧ records.get? key = some found) := by
  rw [get?_set] at present
  split at present
  · exact Or.inl (Option.some.inj present).symm
  · rename_i different
    exact Or.inr ⟨different, present⟩

@[ext] theorem ext_get? {left right : IndexedStore Key Value keyOf}
    (same : ∀ key, left.get? key = right.get? key) : left = right := by
  cases left with
  | mk leftStore leftKeyed =>
      cases right with
      | mk rightStore rightKeyed =>
          have equal : leftStore = rightStore := SortedStore.ext_get? same
          subst equal
          rfl

theorem set_eq_self {value : Value} (stored : records.get? (keyOf value) = some value) :
    records.set value = records := by
  ext1 key
  rw [get?_set]
  split
  · rename_i same
    rw [same, stored]
  · rfl

theorem delete_eq_self {key : Key} (absent : records.get? key = none) :
    records.delete key = records := by
  ext1 other
  rw [get?_delete]
  split
  · rename_i same
    rw [same, absent]
  · rfl

theorem mem_values_iff (value : Value) :
    value ∈ records.values ↔ records.get? (keyOf value) = some value := by
  rw [values, SortedStore.mem_values_iff]
  constructor
  · rintro ⟨key, found⟩
    rw [records.keyed key value found]
    exact found
  · intro found
    exact ⟨keyOf value, found⟩

theorem mem_iterate_iff (within : Key → Bool) (value : Value) :
    value ∈ records.iterate within ↔
      records.get? (keyOf value) = some value ∧ within (keyOf value) = true := by
  rw [iterate, List.mem_map]
  constructor
  · rintro ⟨⟨key, found⟩, member, equal⟩
    obtain ⟨present, inside⟩ :=
      (records.store.mem_iterate_iff within key value).mp (equal ▸ member)
    rw [records.keyed key value present]
    exact ⟨present, inside⟩
  · rintro ⟨present, inside⟩
    exact ⟨(keyOf value, value),
      (records.store.mem_iterate_iff within (keyOf value) value).mpr
        ⟨present, inside⟩, rfl⟩

theorem iterate_increasing (within : Key → Bool) :
    (records.iterate within).Pairwise
      fun left right => keyOf left < keyOf right := by
  rw [iterate, List.pairwise_map]
  refine (records.store.iterate_increasing within).imp_of_mem ?_
  rintro ⟨leftKey, left⟩ ⟨rightKey, right⟩ leftMember rightMember below
  have leftFound := ((records.store.mem_iterate_iff within _ _).mp leftMember).1
  have rightFound := ((records.store.mem_iterate_iff within _ _).mp rightMember).1
  rw [records.keyed leftKey left leftFound,
    records.keyed rightKey right rightFound]
  exact below

theorem values_increasing :
    records.values.Pairwise fun left right => keyOf left < keyOf right := by
  have all : records.values = records.iterate fun _ => true := by
    rw [values, SortedStore.values, iterate, SortedStore.iterate, List.filter_true]
  rw [all]
  exact records.iterate_increasing _

theorem mem_takeWhile_iff {sorted : List Value}
    (increasing : sorted.Pairwise fun left right => keyOf left < keyOf right)
    (property : Value → Bool) (value : Value) :
    value ∈ sorted.takeWhile property ↔ value ∈ sorted ∧
      ∀ earlier ∈ sorted, keyOf earlier ≤ keyOf value → property earlier := by
  induction sorted with
  | nil => simp
  | cons first rest ih =>
      obtain ⟨firstBelow, restIncreasing⟩ := List.pairwise_cons.mp increasing
      by_cases has : property first = true
      · rw [List.takeWhile_cons_of_pos has, List.mem_cons, List.mem_cons,
          ih restIncreasing, List.forall_mem_cons]
        constructor
        · rintro (rfl | ⟨member, before⟩)
          · exact ⟨.inl rfl, fun _ => has, fun later isLater below =>
              absurd (firstBelow later isLater) (not_lt_of_ge below)⟩
          · exact ⟨.inr member, fun _ => has, before⟩
        · rintro ⟨isFirst | member, _, before⟩
          · exact .inl isFirst
          · exact .inr ⟨member, before⟩
      · rw [List.takeWhile_cons_of_neg has]
        constructor
        · intro impossible
          exact absurd impossible List.not_mem_nil
        · rintro ⟨member, before⟩
          have below : keyOf first ≤ keyOf value := by
            rcases List.mem_cons.mp member with rfl | inRest
            · exact le_refl _
            · exact (firstBelow value inRest).le
          exact absurd (before first List.mem_cons_self below) has

section Total

variable {Amount : Type w} [AddCommGroup Amount]

def total (measure : Value → Amount) : Amount :=
  records.store.total fun _ => measure

def share (measure : Value → Amount) (key : Key) : Amount :=
  (records.get? key).elim 0 measure

@[simp] theorem total_empty (measure : Value → Amount) :
    (empty : IndexedStore Key Value keyOf).total measure = 0 := rfl

theorem share_of_get? {measure : Value → Amount} {key : Key} {value : Value}
    (found : records.get? key = some value) :
    records.share measure key = measure value := by
  rw [share, found, Option.elim_some]

theorem share_of_get?_none {measure : Value → Amount} {key : Key}
    (absent : records.get? key = none) : records.share measure key = 0 := by
  rw [share, absent, Option.elim_none]

theorem total_set (measure : Value → Amount) (value : Value) :
    (records.set value).total measure =
      records.total measure - records.share measure (keyOf value) +
        measure value :=
  records.store.total_set (fun _ => measure) (keyOf value) value

theorem total_delete (measure : Value → Amount) (key : Key) :
    (records.delete key).total measure =
      records.total measure - records.share measure key :=
  records.store.total_delete (fun _ => measure) key

end Total

end IndexedStore

end Library
