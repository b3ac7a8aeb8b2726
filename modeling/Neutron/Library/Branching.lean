import Mathlib.Logic.Function.Basic

namespace Library

universe u v

/-! Buffered stores that can be branched.  Every branch collects its writes in a
buffer of its own and reads through to its parent; committing a branch replays
its buffer into the parent's, up to the base store. -/

inductive Branch where
  | root (buffer : Nat)
  | fork (parent : Branch) (buffer : Nat)
  deriving DecidableEq

namespace Branch

def buffer : Branch → Nat
  | root buffer => buffer
  | fork _ buffer => buffer

def Ordered : Branch → Prop
  | root _ => True
  | fork parent buffer => parent.buffer < buffer ∧ parent.Ordered

def buffers : Branch → List Nat
  | root buffer => [buffer]
  | fork parent buffer => buffer :: parent.buffers

theorem Ordered.le_buffer {branch : Branch} (ordered : branch.Ordered)
    {index : Nat} (member : index ∈ branch.buffers) : index ≤ branch.buffer := by
  induction branch with
  | root buffer => exact Nat.le_of_eq (List.mem_singleton.mp member)
  | fork parent buffer ih =>
      rcases List.mem_cons.mp member with equal | inParent
      · exact Nat.le_of_eq equal
      · exact Nat.le_trans (ih ordered.2 inParent) (Nat.le_of_lt ordered.1)

theorem Ordered.notMem_parent {parent : Branch} {index : Nat}
    (ordered : (fork parent index).Ordered) : index ∉ parent.buffers :=
  fun member => absurd (ordered.2.le_buffer member) (Nat.not_le.mpr ordered.1)

end Branch

/-- The buffers of all branches; those from `next` on are not in use. -/
structure Buffers (Write : Type u) where
  log : Nat → List Write
  next : Nat
  unused : ∀ index, next ≤ index → log index = []

namespace Buffers

variable {Write : Type u} {State : Type v}

def empty : Buffers Write := ⟨fun _ => [], 0, fun _ _ => rfl⟩

def record (buffers : Buffers Write) (index : Nat) (writes : List Write) :
    Buffers Write where
  log := Function.update buffers.log index (buffers.log index ++ writes)
  next := max buffers.next (index + 1)
  unused other above := by
    have different : other ≠ index := by omega
    rw [Function.update_of_ne different]
    exact buffers.unused other (by omega)

def clear (buffers : Buffers Write) (index : Nat) : Buffers Write where
  log := Function.update buffers.log index []
  next := buffers.next
  unused other above := by
    by_cases same : other = index
    · rw [same, Function.update_self]
    · rw [Function.update_of_ne same]
      exact buffers.unused other above

def newRoot (buffers : Buffers Write) : Branch × Buffers Write :=
  (.root buffers.next, ⟨buffers.log, buffers.next + 1,
    fun index above => buffers.unused index (by omega)⟩)

def fork (buffers : Buffers Write) (parent : Branch) : Branch × Buffers Write :=
  (.fork parent buffers.next, ⟨buffers.log, buffers.next + 1,
    fun index above => buffers.unused index (by omega)⟩)

section View

variable (apply : State → Write → State)

def view (buffers : Buffers Write) (base : State) : Branch → State
  | .root index => (buffers.log index).foldl apply base
  | .fork parent index =>
      (buffers.log index).foldl apply (view buffers base parent)

def commit (buffers : Buffers Write) (base : State) :
    Branch → State × Buffers Write
  | .root index => ((buffers.log index).foldl apply base, buffers.clear index)
  | .fork parent index =>
      commit ((buffers.record parent.buffer (buffers.log index)).clear index)
        base parent

variable {apply}

theorem view_congr {left right : Buffers Write} {base : State} {branch : Branch}
    (same : ∀ index ∈ branch.buffers, left.log index = right.log index) :
    left.view apply base branch = right.view apply base branch := by
  induction branch with
  | root index => rw [view, view, same index (by simp [Branch.buffers])]
  | fork parent index ih =>
      rw [view, view, same index (by simp [Branch.buffers]),
        ih fun other member => same other (by simp [Branch.buffers, member])]

theorem view_record_of_notMem {buffers : Buffers Write} {base : State}
    {branch : Branch} {index : Nat} (writes : List Write)
    (outside : index ∉ branch.buffers) :
    (buffers.record index writes).view apply base branch =
      buffers.view apply base branch := by
  apply view_congr
  intro other member
  have different : other ≠ index := fun equal => outside (equal ▸ member)
  exact Function.update_of_ne different _ _

theorem view_record_buffer {buffers : Buffers Write} {base : State}
    {branch : Branch} (writes : List Write) (ordered : branch.Ordered) :
    (buffers.record branch.buffer writes).view apply base branch =
      writes.foldl apply (buffers.view apply base branch) := by
  cases branch with
  | root index => simp [view, record, Branch.buffer]
  | fork parent index =>
      have outside := Branch.Ordered.notMem_parent ordered
      change ((buffers.record index writes).log index).foldl apply
        ((buffers.record index writes).view apply base parent) = _
      rw [view_record_of_notMem writes outside]
      simp [record, view]

theorem view_newRoot (buffers : Buffers Write) (base : State) :
    (buffers.newRoot).2.view apply base (buffers.newRoot).1 = base := by
  simp [view, newRoot, buffers.unused buffers.next (Nat.le_refl _)]

theorem view_fork (buffers : Buffers Write) (base : State) (parent : Branch) :
    (buffers.fork parent).2.view apply base (buffers.fork parent).1 =
      buffers.view apply base parent := by
  have empty : (buffers.fork parent).2.log buffers.next = [] :=
    buffers.unused buffers.next (Nat.le_refl _)
  change ((buffers.fork parent).2.log buffers.next).foldl apply _ = _
  rw [empty]
  exact view_congr fun _ _ => rfl

theorem commit_eq_view {buffers : Buffers Write} {base : State} {branch : Branch}
    (ordered : branch.Ordered) :
    (buffers.commit apply base branch).1 = buffers.view apply base branch := by
  induction branch generalizing buffers with
  | root index => rfl
  | fork parent index ih =>
      have outside := Branch.Ordered.notMem_parent ordered
      rw [commit, ih ordered.2]
      calc ((buffers.record parent.buffer (buffers.log index)).clear index).view
            apply base parent
          = (buffers.record parent.buffer (buffers.log index)).view apply base
              parent := by
            apply view_congr
            intro other member
            have different : other ≠ index := fun equal => outside (equal ▸ member)
            exact Function.update_of_ne different _ _
        _ = (buffers.log index).foldl apply (buffers.view apply base parent) :=
            view_record_buffer _ ordered.2

end View

end Buffers

end Library
