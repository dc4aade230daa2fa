import Mathlib.Data.List.Infix

/-!
# What is left of a program

A program without jumps is a list of statements, worked off from the front.  The statement in front
changes while it is underway, but not its kind; those behind it are as they were written.  So the
kinds of what is left are always a suffix of the kinds of the program, and in which order statements
are done can be read off the suffixes of one list.
-/

variable {α κ : Type}

/-- What can be left of a program: nothing, or one of its statements underway and all those behind
it. -/
inductive Agenda (kind : α → κ) (program : List α) : List α → Prop
  | finished : Agenda kind program []
  | underway {written current : α} {rest : List α} (place : written :: rest <:+ program)
      (same : kind current = kind written) : Agenda kind program (current :: rest)

namespace Agenda

variable {kind : α → κ} {program left rest : List α} {current next : α}

theorem start : Agenda kind program program := by
  cases program with
  | nil => exact .finished
  | cons written rest => exact .underway List.suffix_rfl rfl

/-- The statement in front goes on. -/
theorem stay (agenda : Agenda kind program (current :: rest)) (same : kind next = kind current) :
    Agenda kind program (next :: rest) := by
  cases agenda with
  | underway place underway => exact .underway place (same.trans underway)

theorem suffix_rest (agenda : Agenda kind program (current :: rest)) : rest <:+ program := by
  cases agenda with
  | underway place => exact (List.suffix_cons _ _).trans place

/-- What is behind the statement in front is as it was written. -/
theorem mem_program (agenda : Agenda kind program left) (member : current ∈ left.tail) :
    current ∈ program := by
  cases agenda with
  | finished => cases member
  | underway place same => exact ((List.suffix_cons _ _).trans place).subset member

/-- The statement in front is done. -/
theorem done (agenda : Agenda kind program (current :: rest)) : Agenda kind program rest := by
  have place := agenda.suffix_rest
  cases rest with
  | nil => exact .finished
  | cons written rest => exact .underway place rfl

theorem suffix_kinds (agenda : Agenda kind program left) :
    left.map kind <:+ program.map kind := by
  cases agenda with
  | finished => exact List.nil_suffix
  | @underway written current rest place same =>
      rw [List.map_cons, same, ← List.map_cons]
      exact place.map kind

/-- A property of all suffixes of the program's kinds is a property of what is left. -/
theorem of_tails {property : List κ → Prop} (agenda : Agenda kind program left)
    (holds : ∀ kinds ∈ (program.map kind).tails, property kinds) : property (left.map kind) :=
  holds _ ((List.mem_tails _ _).mpr agenda.suffix_kinds)

/-- How far a part of the program is that one statement stands for; `absent` once it is done. -/
def part {β : Type} (view : α → Option β) (absent : β) (left : List α) : β :=
  (left.findSome? view).getD absent

section Part

variable {β : Type} {view : α → Option β} {absent shown : β}

theorem part_cons_of_none (unseen : view current = none) :
    part view absent (current :: rest) = part view absent rest := by
  rw [part, List.findSome?_cons, unseen, part]

theorem part_cons_of_some (seen : view current = some shown) :
    part view absent (current :: rest) = shown := by
  rw [part, List.findSome?_cons, seen, Option.getD_some]

theorem part_of_forall_none (unseen : ∀ statement ∈ left, view statement = none) :
    part view absent left = absent := by
  rw [part, List.findSome?_eq_none_iff.mpr unseen, Option.getD_none]

end Part

end Agenda
