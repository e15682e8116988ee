import Mathlib.Data.List.Basic

/-!
# Methods that throw

A method changes a state and returns a value or throws an exception.  What it has changed
when it throws stays changed: a caller that goes on afterwards finds the state of the
moment of the exception.

Two loops run a method on the elements of a list in turn, and end at the first exception:
`List.forM`, and `removeIf`, which drops the elements for which a test answers `true`.
Where what the method does to an element does not depend on the state, the two are known
in closed form: the effects are those on the elements `tested`, and the answer is computed
without the state (`call_forM`, `call_removeIf`).

A method that only adds to a log is described by its answer and its entries (`Logs`).
-/

/-- A method on the state `σ` that may throw `ε`. -/
abbrev Method (σ ε α : Type) := ExceptT ε (StateM σ) α

namespace Method

variable {σ ε α β : Type}

/-- What a call returns or throws, and the state it leaves. -/
def call (m : Method σ ε α) (s : σ) : Except ε α × σ := m.run s

/-- A computation that needs no state. -/
def ofExcept (r : Except ε α) : Method σ ε α := ExceptT.mk (pure r)

@[simp] theorem call_pure (a : α) (s : σ) : (pure a : Method σ ε α).call s = (.ok a, s) := rfl

@[simp] theorem call_throw (e : ε) (s : σ) :
    (throw e : Method σ ε α).call s = (.error e, s) := rfl

@[simp] theorem call_modify (f : σ → σ) (s : σ) :
    (modify f : Method σ ε Unit).call s = (.ok (), f s) := rfl

@[simp] theorem call_get (s : σ) : (get : Method σ ε σ).call s = (.ok s, s) := rfl

@[simp] theorem call_ofExcept (r : Except ε α) (s : σ) :
    (ofExcept r : Method σ ε α).call s = (r, s) := rfl

/-- The second method is called with the result of the first, unless that one throws. -/
theorem call_bind (m : Method σ ε α) (f : α → Method σ ε β) (s : σ) :
    (m >>= f).call s =
      match m.call s with
      | (.ok a, s') => (f a).call s'
      | (.error e, s') => (.error e, s') := by
  simp only [call, ExceptT.run_bind]
  show (match (m.run s).1 with
    | .ok a => (f a).run
    | .error e => pure (.error e)) (m.run s).2 = _
  rcases m.run s with ⟨a | e, s'⟩ <;> rfl

theorem call_bind_of_ok {m : Method σ ε α} {f : α → Method σ ε β} {s s' : σ} {a : α}
    (h : m.call s = (.ok a, s')) : (m >>= f).call s = (f a).call s' := by
  rw [call_bind, h]

theorem call_bind_of_error {m : Method σ ε α} {f : α → Method σ ε β} {s s' : σ} {e : ε}
    (h : m.call s = (.error e, s')) : (m >>= f).call s = (.error e, s') := by
  rw [call_bind, h]

/-! ## Loops -/

/-- The elements that are not dropped; the tests are made in order. -/
def removeIf (p : α → Method σ ε Bool) : List α → Method σ ε (List α)
  | [] => pure []
  | x :: xs => do
      if ← p x then removeIf p xs
      else return x :: (← removeIf p xs)

variable {ι : Type*} {out : ι → Except ε β}

/-- The elements up to the first one on which `out` is an exception, this one included. -/
def tested (out : ι → Except ε β) : List ι → List ι
  | [] => []
  | x :: xs =>
      x :: match out x with
        | .ok _ => tested out xs
        | .error _ => []

/-- The first exception. -/
def thrown (out : ι → Except ε β) : List ι → Option ε
  | [] => none
  | x :: xs =>
      match out x with
      | .ok _ => thrown out xs
      | .error e => some e

/-- Nothing is thrown only if the test of every element returns. -/
theorem thrown_eq_none_iff {l : List ι} : thrown out l = none ↔ ∀ x ∈ l, ∃ b, out x = .ok b := by
  induction l with
  | nil => simp [thrown]
  | cons x l ih =>
      cases h : out x with
      | ok b => simp [thrown, h, ih]
      | error e => simp [thrown, h]

/-- All elements are tested if none throws. -/
theorem tested_of_thrown_eq_none {l : List ι} (h : thrown out l = none) : tested out l = l := by
  induction l with
  | nil => rfl
  | cons x l ih =>
      cases hx : out x with
      | ok b =>
          simp only [thrown, hx] at h
          simp only [tested, hx, ih h]
      | error e => simp [thrown, hx] at h

theorem tested_sublist (l : List ι) : (tested out l).Sublist l := by
  induction l with
  | nil => exact .slnil
  | cons x l ih =>
      cases hx : out x with
      | ok b => simpa [tested, hx] using ih
      | error e => simp [tested, hx]

/-- What a loop answers that may have ended in an exception. -/
def answer : Option ε → Except ε Unit
  | none => .ok ()
  | some e => .error e

/-- A loop whose body throws and changes the state as `out` and `eff` say. -/
theorem call_forM {p : ι → Method σ ε Unit} {out : ι → Except ε Unit} {eff : σ → ι → σ}
    (hp : ∀ x s, (p x).call s = (out x, eff s x)) (l : List ι) (s : σ) :
    (l.forM p).call s = (answer (thrown out l), (tested out l).foldl eff s) := by
  induction l generalizing s with
  | nil => rfl
  | cons x l ih =>
      show ((p x >>= fun _ => l.forM p).call s) = _
      cases hx : out x with
      | ok u =>
          rw [call_bind_of_ok ((hp x s).trans (by rw [hx])), ih]
          simp only [thrown, tested, hx, List.foldl_cons]
      | error e =>
          rw [call_bind_of_error ((hp x s).trans (by rw [hx]))]
          simp only [thrown, tested, hx, List.foldl_cons, List.foldl_nil]
          rfl

/-- The test says that the element stays. -/
def stays (out : α → Except ε Bool) (x : α) : Bool :=
  match out x with
  | .ok b => !b
  | .error _ => false

/-- `removeIf` with a test that throws and changes the state as `out` and `eff` say. -/
theorem call_removeIf {p : α → Method σ ε Bool} {out : α → Except ε Bool} {eff : σ → α → σ}
    (hp : ∀ x s, (p x).call s = (out x, eff s x)) (l : List α) (s : σ) :
    (removeIf p l).call s =
      (match thrown out l with
        | none => .ok (l.filter (stays out))
        | some e => .error e, (tested out l).foldl eff s) := by
  induction l generalizing s with
  | nil => rfl
  | cons x l ih =>
      rw [removeIf]
      cases hx : out x with
      | ok b =>
          rw [call_bind_of_ok ((hp x s).trans (by rw [hx]))]
          simp only [thrown, tested, hx, List.foldl_cons, List.filter_cons]
          cases b with
          | true => simpa [stays, hx] using ih (eff s x)
          | false =>
              simp only [stays, hx, Bool.not_false, Bool.false_eq_true, if_false, if_true]
              rw [call_bind, ih]
              cases thrown out l <;> rfl
      | error e =>
          rw [call_bind_of_error ((hp x s).trans (by rw [hx]))]
          simp only [thrown, tested, hx, List.foldl_cons, List.foldl_nil]

/-! ## Logs -/

variable {ω : Type}

/-- Add entries to the log. -/
def log (entries : List ω) : Method (List ω) ε Unit := modify (· ++ entries)

/-- The call answers `r` and adds the entries `w`, whatever is in the log. -/
def Logs (m : Method (List ω) ε α) (r : Except ε α) (w : List ω) : Prop :=
  ∀ entries, m.call entries = (r, entries ++ w)

theorem logs_log (w : List ω) : Logs (log w : Method (List ω) ε Unit) (.ok ()) w :=
  fun _ => rfl

theorem logs_pure (a : α) : Logs (pure a : Method (List ω) ε α) (.ok a) [] := by
  intro entries
  rw [call_pure, List.append_nil]

theorem logs_ofExcept {r r' : Except ε α} (h : r = r') :
    Logs (ofExcept r : Method (List ω) ε α) r' [] := by
  intro entries
  rw [call_ofExcept, List.append_nil, h]

section

variable {m : Method (List ω) ε α} {f : α → Method (List ω) ε β} {w w' : List ω}

/-- The log of two methods is that of the first followed by that of the second. -/
theorem Logs.bind {a : α} {r : Except ε β} (h : Logs m (.ok a) w) (hf : Logs (f a) r w') :
    Logs (m >>= f) r (w ++ w') := by
  intro entries
  rw [call_bind_of_ok (h entries), hf, List.append_assoc]

theorem Logs.bind_nil {a : α} {r : Except ε β} (h : Logs m (.ok a) w) (hf : Logs (f a) r []) :
    Logs (m >>= f) r w := by
  have hw := h.bind hf
  rwa [List.append_nil] at hw

theorem Logs.bind_error {e : ε} (h : Logs m (.error e) w) : Logs (m >>= f) (.error e) w :=
  fun entries => call_bind_of_error (h entries)

theorem Logs.call_nil {r : Except ε α} (h : Logs m r w) : m.call [] = (r, w) := h []

end

end Method
