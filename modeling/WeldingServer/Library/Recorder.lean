import Mathlib.Data.List.Basic

/-!
# A recorder

A recorder collects items and from time to time makes a record of all it has collected.
An item is in one record, or is still collected: what was accepted is the records one
after the other, followed by the buffer (`items_foldl_step`).
-/

universe u

/-- The records made so far, and what was accepted since the last of them. -/
structure Recorder (ι : Type u) where
  records : List (List ι)
  buffer : List ι

namespace Recorder

variable {ι : Type u}

/-- An item is accepted, or the buffer becomes a record. -/
inductive Event (ι : Type u) where
  | accept (x : ι)
  | record

/-- A recorder with nothing collected. -/
def empty : Recorder ι := ⟨[], []⟩

/-- The recorder after an event. -/
def step (r : Recorder ι) : Event ι → Recorder ι
  | .accept x => { r with buffer := r.buffer ++ [x] }
  | .record => ⟨r.records ++ [r.buffer], []⟩

/-- All items, in the order in which they were accepted. -/
def items (r : Recorder ι) : List ι := r.records.flatten ++ r.buffer

/-- The item accepted by an event. -/
def Event.accepted : Event ι → List ι
  | .accept x => [x]
  | .record => []

@[simp] theorem items_empty : (empty : Recorder ι).items = [] := rfl

/-- An event adds what it accepts, and a record moves the buffer only. -/
theorem items_step (r : Recorder ι) (e : Event ι) :
    (r.step e).items = r.items ++ e.accepted := by
  cases e with
  | accept x => simp [step, items, Event.accepted]
  | record => simp [step, items, Event.accepted]

/-- No item is lost or doubled, whatever the order of the events. -/
theorem items_foldl_step (es : List (Event ι)) (r : Recorder ι) :
    (es.foldl step r).items = r.items ++ es.flatMap Event.accepted := by
  induction es generalizing r with
  | nil => simp
  | cons e es ih =>
      rw [List.foldl_cons, ih, items_step, List.flatMap_cons, List.append_assoc]

end Recorder
