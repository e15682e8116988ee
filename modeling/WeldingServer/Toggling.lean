import WeldingServer.Library.ReadModifyWrite
import WeldingServer.ServerState

/-!
# Toggles under concurrent requests

The flags of `ServerState` are volatile, and a toggle is `flag = !flag`: it loads the flag and
stores the opposite, and requests handled by other threads may store between the two.  The
models of the endpoints take a toggle for one step (`ServerState.togglePolling` and the
others).

That is right at every moment if and only if each toggle finds the flag as it has loaded it when
it stores (`toggles_atOnce_iff`).  A toggle that does not is lost: it leaves the flag as it
is, so that a flag has been switched once for each toggle stored that was not lost
(`flag_of_toggles`).
-/

namespace WeldingServer

open Transition Record

/-- The flags with their toggles. -/
inductive Toggle where
  | polling
  | streaming
  | camera
deriving DecidableEq, Repr

namespace Toggle

/-- The flag that the toggle switches. -/
def get : Toggle → ServerState → Bool
  | .polling => ServerState.pollingEnabled
  | .streaming => ServerState.streamingEnabled
  | .camera => ServerState.cameraEnabled

/-- The flag is given a value. -/
def set : Toggle → Bool → ServerState → ServerState
  | .polling => fun v s => { s with pollingEnabled := v }
  | .streaming => fun v s => { s with streamingEnabled := v }
  | .camera => fun v s => { s with cameraEnabled := v }

theorem get_set (t : Toggle) (v : Bool) (s : ServerState) : t.get (t.set v s) = v := by
  cases t <;> rfl

theorem set_get (t : Toggle) (s : ServerState) : t.set (t.get s) s = s := by
  cases t <;> rfl

theorem get_set_of_ne {t u : Toggle} (h : u ≠ t) (v : Bool) (s : ServerState) :
    u.get (t.set v s) = u.get s := by
  cases t <;> cases u <;> first | rfl | exact absurd rfl h

/-- `flag = !flag` -/
def update (t : Toggle) : Update ServerState where
  Value := Bool
  get := t.get
  set := t.set
  get_set := t.get_set
  set_get := t.set_get
  f := not

/-- The toggle as one step. -/
def apply : Toggle → ServerState → ServerState
  | .polling => ServerState.togglePolling
  | .streaming => ServerState.toggleStreaming
  | .camera => ServerState.toggleCamera

/-- The flag is as it was loaded. -/
def finds (t : Toggle) (loaded : Bool) (s : ServerState) : Bool := loaded == t.get s

theorem update_apply (t : Toggle) (s : ServerState) : t.update.apply s = t.apply s := by
  cases t <;> rfl

end Toggle

namespace Toggling

/-- The flags and the requests to `/api/toggle` in progress. -/
abbrev State := Update.State Toggle.update

/-- A request starts, loads its flag or stores it. -/
abbrev Action := Update.Action Toggle

/-- The steps of the requests so far. -/
abbrev History := Trace State Action

/-- No request is in progress. -/
def boot (serverState : ServerState) : State := ⟨serverState, ∅⟩

variable {s s' s₀ : State} {tr : History} {a : Action}

/-- The toggles stored, in this order. -/
def toggled : History → List Toggle := Update.stored

/-- When a toggle stores, the flag is as it has loaded it. -/
def FindsLoaded (_ : History) (s : State) : Action → Prop
  | .store id => ∀ t v, s.threads.lookup id = some (.loaded t v) → t.finds v s.record = true
  | _ => True

/-- What is stored is made of the current flag if and only if the flag is what was loaded. -/
theorem findsLoaded_iff (tr : History) (s : State) (a : Action) :
    Update.WritesCurrent tr s a ↔ FindsLoaded tr s a := by
  cases a with
  | start id t => exact Iff.rfl
  | load id => exact Iff.rfl
  | store id =>
      refine forall₃_congr fun t v _ => ?_
      have hiff : ∀ b : Bool, (!b) = (!t.get s.record) ↔ t.finds b s.record = true :=
        fun b => Bool.not_inj_iff.trans beq_iff_eq.symm
      exact hiff v

/-- In every run of requests the flags are at every moment what the toggles stored so far make of
them, each in one step, if and only if each toggle finds its flag as it has loaded it. -/
theorem toggles_atOnce_iff (hr : Run Update.step s₀ tr s) :
    (Along (fun tr s _ => s.record = (toggled tr).foldl (fun r t => t.apply r) s₀.record) tr ∧
      s.record = (toggled tr).foldl (fun r t => t.apply r) s₀.record) ↔ Along FindsLoaded tr := by
  have happly : (fun (r : ServerState) (t : Toggle) => t.update.apply r) = fun r t => t.apply r :=
    funext fun r => funext fun t => t.update_apply r
  have h := Update.asIfAtOnce_iff hr
  simp only [Update.AsIfAtOnce, happly] at h
  refine h.trans ⟨fun hall => hall.mono ?_, fun hall => hall.mono ?_⟩
  · exact fun tr s a => (findsLoaded_iff tr s a).mp
  · exact fun tr s a => (findsLoaded_iff tr s a).mpr

/-! ## Lost toggles -/

/-- The toggle of the step, if it is stored and not lost. -/
def keptBy (s : State) : Action → List Toggle
  | .store id =>
      match s.threads.lookup id with
      | some (.loaded t v) => if t.finds v s.record then [t] else []
      | _ => []
  | _ => []

/-- The toggles stored and not lost. -/
def kept : History → List Toggle := observed keptBy

/-- Each flag was switched once for each of its toggles that was stored and not lost. -/
def SwitchedByKept (s₀ : State) (tr : History) (s : State) : Prop :=
  ∀ t : Toggle, t.get s.record = (t.get s₀.record ^^ (kept tr).count t % 2 == 1)

/-- What a store does to the flags: a toggle that is lost leaves them as they are. -/
theorem get_store (u t : Toggle) (v : Bool) (r : ServerState) :
    t.get (u.set (!v) r) = (t.get r ^^ (if u.finds v r then [u] else []).count t % 2 == 1) := by
  by_cases ht : t = u
  · subst ht
    rw [Toggle.get_set]
    cases hv : t.finds v r with
    | true =>
        rw [if_pos rfl, List.count_singleton_self, beq_iff_eq.mp hv]
        exact (Bool.xor_true _).symm
    | false =>
        rw [if_neg Bool.false_ne_true, ← Bool.eq_not_of_ne (Ne.symm (beq_eq_false_iff_ne.mp hv))]
        exact (Bool.xor_false _).symm
  · have hcount : (if u.finds v r then [u] else []).count t = 0 := by
      split
      · exact List.count_eq_zero_of_not_mem fun hmem => ht (List.mem_singleton.mp hmem)
      · rfl
    rw [Toggle.get_set_of_ne ht, hcount]
    exact (Bool.xor_false _).symm

theorem odd_add (m n : Nat) : ((m + n) % 2 == 1) = (m % 2 == 1 ^^ n % 2 == 1) := by
  rcases Nat.mod_two_eq_zero_or_one m with hm | hm <;>
    rcases Nat.mod_two_eq_zero_or_one n with hn | hn <;> rw [Nat.add_mod, hm, hn] <;> rfl

/-- Each step keeps every flag switched by the toggles that are kept. -/
theorem switchedByKept_step (hi : SwitchedByKept s₀ tr s) (h : Update.step s a = some s') :
    SwitchedByKept s₀ ((s, a) :: tr) s' := by
  intro t
  have hcons : kept ((s, a) :: tr) = kept tr ++ keptBy s a := rfl
  rw [hcons, List.count_append, odd_add, ← Bool.xor_assoc, ← hi t]
  cases a with
  | start id u =>
      obtain ⟨-, rfl⟩ := Update.start_eq_some.mp h
      exact (Bool.xor_false _).symm
  | load id =>
      obtain ⟨u, -, rfl⟩ := Update.load_eq_some.mp h
      exact (Bool.xor_false _).symm
  | store id =>
      obtain ⟨u, v, hu, rfl⟩ := Update.store_eq_some.mp h
      have hkept : keptBy s (.store id) = if u.finds v s.record then [u] else [] := by
        rw [keptBy, hu]
      rw [hkept]
      exact get_store u t v s.record

/-- In every run each flag is what it was at the start, switched once for each of its toggles that
was stored and not lost. -/
theorem flag_of_toggles (hr : Run Update.step s₀ tr s) (t : Toggle) :
    t.get s.record = (t.get s₀.record ^^ (kept tr).count t % 2 == 1) :=
  hr.invariant' (I := SwitchedByKept s₀) (fun _ => (Bool.xor_false _).symm)
    (fun _ hi h => switchedByKept_step hi h) t

/-- Two requests toggle the camera at one time, and a third one polling. -/
def overlappingRun : List Action :=
  [.start 0 .camera, .start 1 .camera, .start 2 .polling, .load 0, .load 1, .load 2, .store 0,
    .store 2, .store 1]

/-- Of the two toggles of the camera one is lost. -/
theorem toggle_lost :
    ∃ tr s, Run Update.step (boot {}) tr s ∧ actions tr = overlappingRun ∧
      toggled tr = [.camera, .polling, .camera] ∧ kept tr = [.camera, .polling] ∧
      ¬ Along FindsLoaded tr ∧ s.record = { pollingEnabled := true, cameraEnabled := true } := by
  obtain ⟨tr, s, hr, ha, ht, hk, hrec⟩ :=
    exists_run_of_exec Update.step (boot {}) overlappingRun
      (p := fun tr s => toggled tr = [.camera, .polling, .camera] ∧ kept tr = [.camera, .polling] ∧
        s.record = { pollingEnabled := true, cameraEnabled := true }) (by decide +kernel)
  refine ⟨tr, s, hr, ha, ht, hk, fun hall => ?_, hrec⟩
  have hfold := ((toggles_atOnce_iff hr).mpr hall).2
  rw [ht, hrec] at hfold
  exact absurd hfold (by decide)

/-- Two of three toggles of the camera overlap, and the camera is on. -/
theorem flag_of_toggles_overlapping :
    ∃ tr s, Run Update.step (boot {}) tr s ∧ actions tr = overlappingRun ∧
      Toggle.camera.get s.record = true := by
  obtain ⟨tr, s, hr, ha, hk⟩ := exists_run_of_exec Update.step (boot {}) overlappingRun
    (p := fun tr _ => kept tr = [.camera, .polling]) (by decide +kernel)
  refine ⟨tr, s, hr, ha, ?_⟩
  rw [flag_of_toggles hr, hk]
  rfl

end Toggling

end WeldingServer
