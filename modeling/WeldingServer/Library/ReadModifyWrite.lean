import WeldingServer.Library.Field
import WeldingServer.Library.Run
import WeldingServer.Library.Table

/-!
# Updates of a field that are not atomic

Threads share a record and run statements `field = f(field)` on it, each one of a given family.
Such an update is two accesses, a load and a store, and other threads may store between the
two.

At every moment the record is what the updates stored so far make of it one after the other
(`AsIfAtOnce`) if and only if each store writes what its update makes of the value that is
there (`asIfAtOnce_iff`).  Where `f` is injective this says that the field is as it was at the
load.
-/

namespace Record

open Transition

/-- The update `field = f(field)`. -/
structure Update (σ : Type) extends Field σ where
  f : Value → Value

namespace Update

variable {σ ι : Type}

/-- The update in one step. -/
def apply (u : Update σ) (r : σ) : σ := u.set (u.f (u.get r)) r

/-- How far a thread has come in an update of the family. -/
inductive Thread (ops : ι → Update σ) where
  | started (i : ι)
  | loaded (i : ι) (v : (ops i).Value)

/-- The shared record and the threads in an update. -/
structure State (ops : ι → Update σ) where
  record : σ
  threads : Table (Thread ops)

/-- A thread starts an update, loads the value of its field, or stores the new one. -/
inductive Action (ι : Type) where
  | start (id : Nat) (i : ι)
  | load (id : Nat)
  | store (id : Nat)

variable {ops : ι → Update σ}

namespace State

/-- A thread starts an update under a number that is not in use. -/
def start (s : State ops) (id : Nat) (i : ι) : Option (State ops) :=
  if id ∈ s.threads then none else some { s with threads := s.threads.insert id (.started i) }

/-- The thread reads the field of its update. -/
def load (s : State ops) (id : Nat) : Option (State ops) :=
  match s.threads.lookup id with
  | some (.started i) =>
      some { s with threads := s.threads.insert id (.loaded i ((ops i).get s.record)) }
  | _ => none

/-- The thread writes the value that it made of what it read, and ends. -/
def store (s : State ops) (id : Nat) : Option (State ops) :=
  match s.threads.lookup id with
  | some (.loaded i v) => some ⟨(ops i).set ((ops i).f v) s.record, s.threads.erase id⟩
  | _ => none

end State

/-- One step of a thread; the step is not possible where its thread is not at this point. -/
def step (s : State ops) : Action ι → Option (State ops)
  | .start id i => s.start id i
  | .load id => s.load id
  | .store id => s.store id

variable {s s' s₀ : State ops} {id : Nat} {tr : Trace (State ops) (Action ι)} {a : Action ι}

theorem start_eq_some {i : ι} :
    s.start id i = some s' ↔ id ∉ s.threads ∧
      s' = { s with threads := s.threads.insert id (.started i) } := by
  simp only [State.start]
  split <;> simp_all [eq_comm]

/-- A load happens only in a thread that has started, and keeps the value read. -/
theorem load_eq_some :
    s.load id = some s' ↔ ∃ i, s.threads.lookup id = some (.started i) ∧
      s' = { s with threads := s.threads.insert id (.loaded i ((ops i).get s.record)) } := by
  constructor
  · intro h
    simp only [State.load] at h
    split at h
    next i hi => exact ⟨i, hi, (Option.some.inj h).symm⟩
    next => cases h
  · rintro ⟨i, hi, rfl⟩
    simp only [State.load, hi]

/-- A store happens only in a thread that has loaded, and uses the value it loaded. -/
theorem store_eq_some :
    s.store id = some s' ↔ ∃ i v, s.threads.lookup id = some (.loaded i v) ∧
      s' = ⟨(ops i).set ((ops i).f v) s.record, s.threads.erase id⟩ := by
  constructor
  · intro h
    simp only [State.store] at h
    split at h
    next i v hi => exact ⟨i, v, hi, (Option.some.inj h).symm⟩
    next => cases h
  · rintro ⟨i, v, hi, rfl⟩
    simp only [State.store, hi]

/-- The update that is stored in the step. -/
def storedBy (s : State ops) : Action ι → List ι
  | .store id =>
      match s.threads.lookup id with
      | some (.loaded i _) => [i]
      | _ => []
  | _ => []

/-- The updates stored, in this order. -/
def stored : Trace (State ops) (Action ι) → List ι := observed storedBy

theorem storedBy_store {i : ι} {v : (ops i).Value}
    (h : s.threads.lookup id = some (.loaded i v)) : storedBy s (.store id) = [i] := by
  rw [storedBy, h]

/-- The record is what the updates stored make of it one after the other. -/
def AsIfAtOnce (s₀ : State ops) (tr : Trace (State ops) (Action ι)) (s : State ops) : Prop :=
  s.record = (stored tr).foldl (fun r i => (ops i).apply r) s₀.record

/-- A store writes what the update makes of the value that is there. -/
def WritesCurrent (_ : Trace (State ops) (Action ι)) (s : State ops) : Action ι → Prop
  | .store id => ∀ i v, s.threads.lookup id = some (.loaded i v) →
      (ops i).f v = (ops i).f ((ops i).get s.record)
  | _ => True

/-- After a step the record is still as if each update had been made at once, if and only if the
step stores what the update makes of the current value. -/
theorem asIfAtOnce_step (hi : AsIfAtOnce s₀ tr s) (h : step s a = some s') :
    AsIfAtOnce s₀ ((s, a) :: tr) s' ↔ WritesCurrent tr s a := by
  have hcons : stored ((s, a) :: tr) = stored tr ++ storedBy s a := rfl
  rw [AsIfAtOnce, hcons, List.foldl_append, ← show s.record = _ from hi]
  cases a with
  | start id i =>
      obtain ⟨-, rfl⟩ := start_eq_some.mp h
      exact iff_of_true rfl trivial
  | load id =>
      obtain ⟨i, -, rfl⟩ := load_eq_some.mp h
      exact iff_of_true rfl trivial
  | store id =>
      obtain ⟨i, v, hv, rfl⟩ := store_eq_some.mp h
      rw [storedBy_store hv, List.foldl_cons, List.foldl_nil, apply]
      constructor
      · intro he i' v' hv'
        obtain ⟨rfl, hvv⟩ := Thread.loaded.inj (Option.some.inj (hv.symm.trans hv'))
        obtain rfl := eq_of_heq hvv
        have hget := congrArg (ops i).get he
        rwa [(ops i).get_set, (ops i).get_set] at hget
      · intro hcur
        show (ops i).set ((ops i).f v) s.record = _
        rw [hcur i v hv]

/-- The updates go on as if each were one step, exactly if each store writes what its update makes
of the value that is there. -/
theorem asIfAtOnce_iff (hr : Run step s₀ tr s) :
    (Along (fun tr s _ => AsIfAtOnce s₀ tr s) tr ∧ AsIfAtOnce s₀ tr s) ↔
      Along WritesCurrent tr :=
  hr.throughout_iff (C := WritesCurrent) (I := AsIfAtOnce s₀) rfl asIfAtOnce_step

end Update

end Record
