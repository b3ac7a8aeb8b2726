import Mathlib.Data.List.Basic

namespace Library

universe u v w

/-! Calls that run inside of other calls.  Every call under way has a frame and the world
as it was when the call began; a call that fails puts that world back. -/

structure Nested (World : Type u) (Frame : Type v) where
  world : World
  stack : List (Frame × World)

namespace Nested

variable {World : Type u} {Frame : Type v}

def frames (state : Nested World Frame) : List Frame := state.stack.map Prod.fst

def idle (world : World) : Nested World Frame := ⟨world, []⟩

def update (state : Nested World Frame) (world : World) : Nested World Frame :=
  { state with world := world }

def enter (state : Nested World Frame) (frame : Frame) (world : World) :
    Nested World Frame :=
  ⟨world, (frame, state.world) :: state.stack⟩

def advance (state : Nested World Frame) (frame : Frame) (world : World) :
    Nested World Frame :=
  match state.stack with
  | [] => state
  | (_, snapshot) :: rest => ⟨world, (frame, snapshot) :: rest⟩

def leave (state : Nested World Frame) (world : World) : Nested World Frame :=
  ⟨world, state.stack.tail⟩

def revert (state : Nested World Frame) : Nested World Frame :=
  match state.stack with
  | [] => state
  | (_, snapshot) :: rest => ⟨snapshot, rest⟩

def map {View : Type w} (view : World → View) (state : Nested World Frame) :
    Nested View Frame :=
  ⟨view state.world, state.stack.map fun entry => (entry.1, view entry.2)⟩

section Map

variable {View : Type w} (view : World → View) (state : Nested World Frame)

@[simp] theorem map_world : (state.map view).world = view state.world := rfl

@[simp] theorem map_enter (frame : Frame) (world : World) :
    (state.enter frame world).map view = (state.map view).enter frame (view world) := rfl

@[simp] theorem map_update (world : World) :
    (state.update world).map view = (state.map view).update (view world) := rfl

@[simp] theorem map_leave (world : World) :
    (state.leave world).map view = (state.map view).leave (view world) := by
  obtain ⟨before, stack⟩ := state
  cases stack with
  | nil => rfl
  | cons top rest => rfl

@[simp] theorem map_revert : state.revert.map view = (state.map view).revert := by
  obtain ⟨before, stack⟩ := state
  cases stack with
  | nil => rfl
  | cons top rest => rfl

end Map

def Keeps (invariant : World → List Frame → Prop) : World → List (Frame × World) → Prop
  | world, [] => invariant world []
  | world, (frame, snapshot) :: rest =>
      invariant world (frame :: rest.map Prod.fst) ∧ Keeps invariant snapshot rest

section Keeps

variable {invariant : World → List Frame → Prop} {state : Nested World Frame}

theorem Keeps.now (keeps : Keeps invariant state.world state.stack) :
    invariant state.world state.frames := by
  obtain ⟨before, stack⟩ := state
  cases stack with
  | nil => exact keeps
  | cons top rest => exact keeps.1

theorem Keeps.update (keeps : Keeps invariant state.world state.stack) {world : World}
    (holds : invariant world state.frames) :
    Keeps invariant (state.update world).world (state.update world).stack := by
  obtain ⟨before, stack⟩ := state
  cases stack with
  | nil => exact holds
  | cons top rest => exact ⟨holds, keeps.2⟩

theorem Keeps.enter (keeps : Keeps invariant state.world state.stack) {frame : Frame}
    {world : World} (holds : invariant world (frame :: state.frames)) :
    Keeps invariant (state.enter frame world).world (state.enter frame world).stack :=
  ⟨holds, keeps⟩

theorem Keeps.advance (keeps : Keeps invariant state.world state.stack) {frame : Frame}
    {world : World} (holds : invariant world (frame :: state.frames.tail)) :
    Keeps invariant (state.advance frame world).world (state.advance frame world).stack := by
  obtain ⟨before, stack⟩ := state
  cases stack with
  | nil => exact keeps
  | cons top rest => exact ⟨holds, keeps.2⟩

theorem Keeps.leave (keeps : Keeps invariant state.world state.stack) {world : World}
    (holds : invariant world state.frames.tail) :
    Keeps invariant (state.leave world).world (state.leave world).stack := by
  obtain ⟨before, stack⟩ := state
  cases stack with
  | nil => exact holds
  | cons top rest =>
      cases rest with
      | nil => exact holds
      | cons next others => exact ⟨holds, keeps.2.2⟩

theorem Keeps.revert (keeps : Keeps invariant state.world state.stack) :
    Keeps invariant state.revert.world state.revert.stack := by
  obtain ⟨before, stack⟩ := state
  cases stack with
  | nil => exact keeps
  | cons top rest => exact keeps.2

end Keeps

end Nested

end Library
