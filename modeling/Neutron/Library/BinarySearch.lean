import Mathlib.Data.List.Basic
import Mathlib.Order.Lattice

namespace Library

universe u v

/-! Searching a list that is sorted by a key, by halving it. -/

namespace BinarySearch

variable {Entry : Type u} {Key : Type v} [LinearOrder Key] (keyOf : Entry → Key) (key : Key)

def search : Nat → List Entry → Option Entry
  | 0, _ => none
  | _ + 1, [] => none
  | _ + 1, [entry] => if keyOf entry = key then some entry else none
  | fuel + 1, first :: second :: rest =>
      let entries := first :: second :: rest
      let midIdx := entries.length / 2
      match entries[midIdx]? with
      | none => none
      | some entry =>
          if key < keyOf entry then
            search fuel (entries.take midIdx)
          else if key = keyOf entry then
            some entry
          else
            search fuel (entries.drop (midIdx + 1))

def find (entries : List Entry) : Option Entry := search keyOf key entries.length entries

variable {keyOf key}

theorem search_sound {fuel : Nat} {entries : List Entry} {entry : Entry}
    (found : search keyOf key fuel entries = some entry) :
    entry ∈ entries ∧ keyOf entry = key := by
  induction fuel generalizing entries with
  | zero => cases found
  | succ fuel ih =>
      match entries with
      | [] => cases found
      | [only] =>
          rw [search] at found
          split at found
          · rename_i isKey
            cases found
            exact ⟨List.mem_singleton_self _, isKey⟩
          · cases found
      | first :: second :: rest =>
          rw [search] at found
          split at found
          · cases found
          · rename_i middle isMiddle
            split at found
            · obtain ⟨member, isKey⟩ := ih found
              exact ⟨List.mem_of_mem_take member, isKey⟩
            · split at found
              · rename_i isKey
                cases found
                exact ⟨List.mem_of_getElem? isMiddle, isKey.symm⟩
              · obtain ⟨member, isKey⟩ := ih found
                exact ⟨List.mem_of_mem_drop member, isKey⟩

theorem find_sound {entries : List Entry} {entry : Entry}
    (found : find keyOf key entries = some entry) : entry ∈ entries ∧ keyOf entry = key :=
  search_sound found

theorem search_complete {fuel : Nat} {entries : List Entry} {entry : Entry}
    (sorted : entries.Pairwise fun left right => keyOf left < keyOf right)
    (enough : entries.length ≤ fuel) (member : entry ∈ entries) (isKey : keyOf entry = key) :
    search keyOf key fuel entries = some entry := by
  induction fuel generalizing entries with
  | zero =>
      rw [List.length_eq_zero_iff.mp (Nat.le_zero.mp enough)] at member
      cases member
  | succ fuel ih =>
      match entries with
      | [] => cases member
      | [only] =>
          rw [List.mem_singleton.mp member] at isKey ⊢
          rw [search, if_pos isKey]
      | first :: second :: rest =>
          rw [search]
          generalize isEntries : first :: second :: rest = entries at *
          have nonempty : 0 < entries.length := by
            rw [← isEntries]
            exact Nat.succ_pos _
          have inside : entries.length / 2 < entries.length :=
            Nat.div_lt_self nonempty Nat.one_lt_two
          -- the middle entry parts the smaller keys from the larger ones
          have parts : entries.take (entries.length / 2) ++ entries[entries.length / 2] ::
              entries.drop (entries.length / 2 + 1) = entries := by
            rw [List.getElem_cons_drop, List.take_append_drop]
          rw [← parts] at sorted member
          obtain ⟨sortedLow, sortedRest, across⟩ := List.pairwise_append.mp sorted
          obtain ⟨above, sortedHigh⟩ := List.pairwise_cons.mp sortedRest
          have shortLow : (entries.take (entries.length / 2)).length ≤ fuel := by
            rw [List.length_take]
            omega
          have shortHigh : (entries.drop (entries.length / 2 + 1)).length ≤ fuel := by
            rw [List.length_drop]
            omega
          rw [List.getElem?_eq_getElem inside]
          dsimp only
          rcases List.mem_append.mp member with low | high
          · have below := across entry low _ List.mem_cons_self
            rw [if_pos (isKey ▸ below)]
            exact ih sortedLow shortLow low
          · rcases List.mem_cons.mp high with isMiddle | high
            · rw [← isMiddle, isKey, if_neg (lt_irrefl key), if_pos rfl]
            · have below := above entry high
              rw [isKey] at below
              rw [if_neg (lt_asymm below), if_neg (ne_of_gt below)]
              exact ih sortedHigh shortHigh high

theorem find_complete {entries : List Entry} {entry : Entry}
    (sorted : entries.Pairwise fun left right => keyOf left < keyOf right)
    (member : entry ∈ entries) (isKey : keyOf entry = key) :
    find keyOf key entries = some entry :=
  search_complete sorted (Nat.le_refl _) member isKey

end BinarySearch

end Library
