import Mathlib.Data.List.Basic
import Mathlib.Data.List.Induction

/-! Laying a run of elements over a stored sequence, as a store into a region of memory does. -/

namespace Overlay

variable {α : Type}

/-- The sequence with a run of elements laid over it from an index on. -/
def overlay (data : List α) (index : Nat) (run : List α) : List α :=
  data.take index ++ (run ++ data.drop (index + run.length))

@[simp] theorem overlay_nil (data : List α) (index : Nat) : overlay data index [] = data := by
  simp [overlay]

/-- A run that fits leaves the length as it was. -/
theorem length_overlay {data run : List α} {index : Nat}
    (room : index + run.length ≤ data.length) : (overlay data index run).length = data.length := by
  -- The run replaces as many elements as it has.
  simp only [overlay, List.length_append, List.length_take, List.length_drop]
  omega

/-- Up to the end of the run, the sequence is its old front and the run. -/
theorem take_add_overlay {data run : List α} {index : Nat} (inside : index ≤ data.length) :
    (overlay data index run).take (index + run.length) = data.take index ++ run := by
  -- The front and the run together are as long as what is taken.
  rw [overlay, ← List.append_assoc, List.take_left' (by simp [inside])]

/-- Behind the run nothing changes. -/
theorem drop_overlay {data run : List α} {index : Nat} (inside : index ≤ data.length) :
    (overlay data index run).drop (index + run.length) = data.drop (index + run.length) := by
  -- What follows is copied from behind the run.
  rw [overlay, ← List.append_assoc, List.drop_left' (by simp [inside])]

/-- Two runs laid down one behind the other are their concatenation laid down at once. -/
theorem overlay_overlay {data first second : List α} {index : Nat}
    (inside : index ≤ data.length) :
    overlay (overlay data index first) (index + first.length) second
      = overlay data index (first ++ second) := by
  -- The second run starts where the first one ends, so it replaces only untouched elements.
  have behind : (overlay data index first).drop (index + first.length + second.length)
      = data.drop (index + first.length + second.length) := by
    rw [← List.drop_drop, drop_overlay inside, List.drop_drop]
  rw [overlay, take_add_overlay inside, behind]
  simp [overlay, Nat.add_assoc]

/-- The element that a run laid down at an index has at a position, if it covers it. -/
def elementAt (index : Nat) (run : List α) (position : Nat) : Option α :=
  if index ≤ position then run[position - index]? else none

/-- Each position has the element of the run, or its old one where the run does not cover it. -/
theorem getElem?_overlay {data run : List α} {index : Nat}
    (room : index + run.length ≤ data.length) (position : Nat) :
    (overlay data index run)[position]? = (elementAt index run position).or data[position]? := by
  have front : (data.take index).length = index := by
    rw [List.length_take]
    omega
  rw [overlay, elementAt]
  by_cases before : index ≤ position
  · -- From the index on, the run comes first, and behind it the old elements.
    rw [if_pos before, List.getElem?_append_right (by omega), front]
    by_cases covered : position - index < run.length
    · rw [List.getElem?_append_left covered, List.getElem?_eq_getElem covered]
      rfl
    · have uncovered : run[position - index]? = none := List.getElem?_eq_none (by omega)
      rw [uncovered, Option.none_or, List.getElem?_append_right (by omega), List.getElem?_drop]
      congr 1
      omega
  · rw [if_neg before, List.getElem?_append_left (by omega), List.getElem?_take_of_lt (by omega),
      Option.none_or]

/-- Runs laid down one after the other, each at its own index. -/
def overlayAll (data : List α) (runs : List (Nat × List α)) : List α :=
  runs.foldl (fun data run => overlay data run.1 run.2) data

/-- The element of the last run to cover a position. -/
def lastAt (runs : List (Nat × List α)) (position : Nat) : Option α :=
  (runs.filterMap fun run => elementAt run.1 run.2 position).getLast?

/-- The position is one of those that a run lies over. -/
def Covers (run : Nat × List α) (position : Nat) : Prop :=
  run.1 ≤ position ∧ position < run.1 + run.2.length

/-- A run has no element where it does not lie. -/
theorem elementAt_of_not_covers {run : Nat × List α} {position : Nat}
    (outside : ¬ Covers run position) : elementAt run.1 run.2 position = none := by
  -- The position is in front of the run or behind it.
  unfold elementAt
  split
  · rename_i behind
    refine List.getElem?_eq_none (Nat.le_sub_of_add_le' (Nat.not_lt.mp ?_))
    exact fun inside => outside ⟨behind, inside⟩
  · rfl

/-- Where no run lies there is no last one. -/
theorem lastAt_of_uncovered {runs : List (Nat × List α)} {position : Nat}
    (uncovered : ∀ run ∈ runs, ¬ Covers run position) : lastAt runs position = none := by
  have nothing : runs.filterMap (fun run => elementAt run.1 run.2 position) = [] :=
    List.filterMap_eq_nil_iff.mpr fun run member => elementAt_of_not_covers (uncovered run member)
  rw [lastAt, nothing, List.getLast?_nil]

/-- A run that is covered by no later one is the last, and has its element there. -/
theorem lastAt_of_last {before after : List (Nat × List α)} {run : Nat × List α} {position : Nat}
    (covers : Covers run position) (uncovered : ∀ later ∈ after, ¬ Covers later position) :
    lastAt (before ++ run :: after) position = run.2[position - run.1]? := by
  have nothing : after.filterMap (fun run => elementAt run.1 run.2 position) = [] :=
    List.filterMap_eq_nil_iff.mpr fun run member => elementAt_of_not_covers (uncovered run member)
  have inside : position - run.1 < run.2.length := by
    have bounds := covers
    unfold Covers at bounds
    omega
  have element : elementAt run.1 run.2 position = some run.2[position - run.1] := by
    rw [elementAt, if_pos covers.1, List.getElem?_eq_getElem inside]
  rw [lastAt, List.filterMap_append, List.filterMap_cons, element, nothing, List.getLast?_concat,
    List.getElem?_eq_getElem inside]

/-- Runs laid down after others are laid over what those have left. -/
theorem overlayAll_append (data : List α) (before after : List (Nat × List α)) :
    overlayAll data (before ++ after) = overlayAll (overlayAll data before) after :=
  List.foldl_append

/-- Runs that fit leave the length as it was. -/
theorem length_overlayAll {data : List α} {runs : List (Nat × List α)}
    (room : ∀ run ∈ runs, run.1 + run.2.length ≤ data.length) :
    (overlayAll data runs).length = data.length := by
  -- The induction is on the end of the list, where the next run is laid down.
  induction runs using List.reverseRecOn with
  | nil => rfl
  | append_singleton runs last ih =>
    simp only [List.mem_append, List.mem_singleton] at room
    have before := ih fun run member => room run (.inl member)
    rw [overlayAll, List.foldl_concat]
    exact (length_overlay (before ▸ room last (.inr rfl))).trans before

/-- The last run to cover a position decides its element, and where none does nothing changes. -/
theorem getElem?_overlayAll {data : List α} {runs : List (Nat × List α)}
    (room : ∀ run ∈ runs, run.1 + run.2.length ≤ data.length) (position : Nat) :
    (overlayAll data runs)[position]? = (lastAt runs position).or data[position]? := by
  -- The last run comes first in the search for a run that covers the position.
  induction runs using List.reverseRecOn with
  | nil => rfl
  | append_singleton runs last ih =>
    simp only [List.mem_append, List.mem_singleton] at room
    have before : ∀ run ∈ runs, run.1 + run.2.length ≤ data.length :=
      fun run member => room run (.inl member)
    have fits : last.1 + last.2.length ≤ (overlayAll data runs).length := by
      rw [length_overlayAll before]
      exact room last (.inr rfl)
    have unfolded : overlayAll data (runs ++ [last])
        = overlay (overlayAll data runs) last.1 last.2 := List.foldl_concat ..
    have searched : lastAt (runs ++ [last]) position
        = (elementAt last.1 last.2 position).or (lastAt runs position) := by
      rw [lastAt, List.filterMap_append, List.getLast?_append]
      cases covers : elementAt last.1 last.2 position <;> simp [lastAt, covers]
    rw [unfolded, getElem?_overlay fits, ih before, searched, Option.or_assoc]

/-- A run that is covered by no later one decides the elements of its range. -/
theorem getElem?_overlayAll_of_last {data : List α} {before after : List (Nat × List α)}
    {run : Nat × List α} {position : Nat}
    (room : ∀ run' ∈ before ++ run :: after, run'.1 + run'.2.length ≤ data.length)
    (covers : Covers run position) (uncovered : ∀ later ∈ after, ¬ Covers later position) :
    (overlayAll data (before ++ run :: after))[position]? = run.2[position - run.1]? := by
  have inside : position - run.1 < run.2.length := by
    have bounds := covers
    unfold Covers at bounds
    omega
  -- The run has an element there, so the old one is not asked for.
  rw [getElem?_overlayAll room, lastAt_of_last covers uncovered,
    List.getElem?_eq_getElem inside, Option.some_or]

/-- Where no run lies nothing changes. -/
theorem getElem?_overlayAll_of_uncovered {data : List α} {runs : List (Nat × List α)}
    {position : Nat} (room : ∀ run ∈ runs, run.1 + run.2.length ≤ data.length)
    (uncovered : ∀ run ∈ runs, ¬ Covers run position) :
    (overlayAll data runs)[position]? = data[position]? := by
  -- There is no last run to decide the element.
  rw [getElem?_overlayAll room, lastAt_of_uncovered uncovered, Option.none_or]

/-- Two runs lie apart: one of them ends before the other one begins. -/
def Apart (first second : Nat × List α) : Prop :=
  first.1 + first.2.length ≤ second.1 ∨ second.1 + second.2.length ≤ first.1

theorem Apart.symm {first second : Nat × List α} (apart : Apart first second) :
    Apart second first :=
  Or.symm apart

end Overlay
