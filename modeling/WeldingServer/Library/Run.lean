import Mathlib.Data.List.Basic

/-!
# Runs of a step function and their traces

A system is a partial step function: the action says who moves and with which outside
answer, and `none` says that the action is not possible in the state.  A *run* from a
state lists its steps, newest first, each with the state it was taken in.  Everything
that happened before a step is therefore in the rest of the list, and a notion of
history is a recursive function of the trace.

`Along P` says that every step of a trace meets `P`, which may look at the trace before
the step.  It states both what is assumed of a run and what is shown of it.  The
rules are `Run.invariant`, induction over a run whose steps meet a guard,
`Run.along`, from a fact about one step after a guarded run to all steps of it, and
`Run.always_iff` and `Run.along_iff`, from an exact condition for one step to one for the
run.

A history is often a list of things seen on the way: `observed` collects them over the
whole trace, oldest first, and `since` over the steps after the last one of a kind.

`exec` runs a list of actions; a concrete run is given by evaluating it.
-/

namespace Transition

universe u v

/-- The steps of a run, newest first, each with the state it was taken in. -/
abbrev Trace (σ : Type u) (α : Type v) := List (σ × α)

section

variable {σ : Type u} {α : Type v} {step : σ → α → Option σ}

/-- `Run step s₀ tr s`: the steps `tr` lead from `s₀` to `s`. -/
inductive Run (step : σ → α → Option σ) (s₀ : σ) : Trace σ α → σ → Prop where
  | nil : Run step s₀ [] s₀
  | snoc {tr : Trace σ α} {s s' : σ} {a : α} :
      Run step s₀ tr s → step s a = some s' → Run step s₀ ((s, a) :: tr) s'

/-- Every step of the trace meets `P`, given the trace before it. -/
def Along (P : Trace σ α → σ → α → Prop) : Trace σ α → Prop
  | [] => True
  | (s, a) :: tr => P tr s a ∧ Along P tr

instance {P : Trace σ α → σ → α → Prop} [∀ tr s a, Decidable (P tr s a)] :
    ∀ tr : Trace σ α, Decidable (Along P tr)
  | [] => .isTrue trivial
  | (s, a) :: tr =>
      haveI : Decidable (Along P tr) := instDecidableAlong tr
      inferInstanceAs (Decidable (P tr s a ∧ Along P tr))

/-! ## Composition -/

/-- Two runs, of which the second starts where the first ends, are one. -/
theorem Run.append {s₀ s s' : σ} {tr tr' : Trace σ α} (h : Run step s₀ tr s)
    (h' : Run step s tr' s') : Run step s₀ (tr' ++ tr) s' := by
  induction h' with
  | nil => exact h
  | snoc _ hs ih => exact .snoc ih hs

theorem Run.single {s s' : σ} {a : α} (h : step s a = some s') : Run step s [(s, a)] s' :=
  .snoc .nil h

/-- A run whose newest action is `a` ends with the step of it. -/
theorem Run.of_map_cons {s₀ s' : σ} {tr : Trace σ α} {a : α} {as : List α}
    (h : Run step s₀ tr s') (ha : tr.map Prod.snd = a :: as) :
    ∃ t s, tr = (s, a) :: t ∧ t.map Prod.snd = as ∧ Run step s₀ t s ∧ step s a = some s' := by
  cases h with
  | nil => cases ha
  | snoc hr hs =>
      rw [List.map_cons, List.cons.injEq] at ha
      obtain ⟨rfl, rfl⟩ := ha
      exact ⟨_, _, rfl, rfl, hr, hs⟩

theorem Run.of_map_nil {s₀ s : σ} {tr : Trace σ α} (h : Run step s₀ tr s)
    (ha : tr.map Prod.snd = []) : tr = [] ∧ s = s₀ := by
  cases h with
  | nil => exact ⟨rfl, rfl⟩
  | snoc hr hs => cases ha

/-- The newer steps by themselves, for a property that does not look back. -/
theorem Along.newer {P : Trace σ α → σ → α → Prop} (hP : ∀ t t' s a, P t s a → P t' s a)
    {tr' tr : Trace σ α} (h : Along P (tr' ++ tr)) : Along P tr' := by
  induction tr' with
  | nil => trivial
  | cons x tr' ih => exact ⟨hP _ _ _ _ h.1, ih h.2⟩

theorem along_true (tr : Trace σ α) : Along (fun _ _ _ => True) tr := by
  induction tr with
  | nil => trivial
  | cons x tr ih => exact ⟨trivial, ih⟩

theorem Along.of_mem {P : σ → α → Prop} {tr : Trace σ α} (h : Along (fun _ s a => P s a) tr)
    {x : σ × α} (hx : x ∈ tr) : P x.1 x.2 := by
  induction tr with
  | nil => cases hx
  | cons y tr ih =>
    rcases List.mem_cons.mp hx with rfl | hx
    · exact h.1
    · exact ih h.2 hx

theorem Along.of_forall {P : σ → α → Prop} {tr : Trace σ α} (h : ∀ x ∈ tr, P x.1 x.2) :
    Along (fun _ s a => P s a) tr := by
  induction tr with
  | nil => trivial
  | cons x tr ih =>
    rw [List.forall_mem_cons] at h
    exact ⟨h.1, ih h.2⟩

theorem Along.mono {P Q : Trace σ α → σ → α → Prop} {tr : Trace σ α} (hP : Along P tr)
    (h : ∀ tr s a, P tr s a → Q tr s a) : Along Q tr := by
  induction tr with
  | nil => trivial
  | cons x tr ih => exact ⟨h _ _ _ hP.1, ih hP.2⟩

theorem Along.and {P Q : Trace σ α → σ → α → Prop} {tr : Trace σ α} (hP : Along P tr)
    (hQ : Along Q tr) : Along (fun tr s a => P tr s a ∧ Q tr s a) tr := by
  induction tr with
  | nil => trivial
  | cons x tr ih => exact ⟨⟨hP.1, hQ.1⟩, ih hP.2 hQ.2⟩

/-- Steps that meet the condition after any steps may be added at the end. -/
theorem Along.append {P : Trace σ α → σ → α → Prop} {tr : Trace σ α} (hP : Along P tr) :
    ∀ {tr' : Trace σ α}, (∀ x ∈ tr', ∀ t, P t x.1 x.2) → Along P (tr' ++ tr)
  | [], _ => hP
  | (_, _) :: _, h =>
      ⟨h _ List.mem_cons_self _, hP.append fun x hx => h x (List.mem_cons_of_mem _ hx)⟩

/-! ## The rules -/

/-- What holds at the start and is kept by every guarded step holds after every guarded
run. -/
theorem Run.invariant {G : Trace σ α → σ → α → Prop} {I : Trace σ α → σ → Prop} {s₀ : σ}
    (h₀ : I [] s₀)
    (hstep : ∀ {tr s a s'}, Run step s₀ tr s → Along G ((s, a) :: tr) → I tr s →
      step s a = some s' → I ((s, a) :: tr) s')
    {tr : Trace σ α} {s : σ} (hr : Run step s₀ tr s) (hG : Along G tr) : I tr s := by
  induction hr with
  | nil => exact h₀
  | snoc hr hs ih => exact hstep hr hG (ih hG.2) hs

/-- Where a guarded step keeps `I` exactly if it meets `C`, a guarded run keeps `I`
throughout exactly if all of its steps meet `C`. -/
theorem Run.always_iff {G C : Trace σ α → σ → α → Prop} {I : σ → Prop} {s₀ : σ} (h₀ : I s₀)
    (hstep : ∀ {tr s a s'}, I s → G tr s a → step s a = some s' → (I s' ↔ C tr s a))
    {tr : Trace σ α} {s : σ} (hr : Run step s₀ tr s) (hG : Along G tr) :
    (Along (fun _ s _ => I s) tr ∧ I s) ↔ Along C tr := by
  induction hr with
  | nil => exact iff_of_true ⟨trivial, h₀⟩ trivial
  | snoc hr hs ih =>
      constructor
      · rintro ⟨⟨hI, hall⟩, hI'⟩
        exact ⟨(hstep hI hG.1 hs).mp hI', (ih hG.2).mp ⟨hall, hI⟩⟩
      · rintro ⟨hC, hall⟩
        obtain ⟨hall, hI⟩ := (ih hG.2).mpr hall
        exact ⟨⟨hI, hall⟩, (hstep hI hG.1 hs).mpr hC⟩

/-- `Run.always_iff` for an `I` that looks at the trace. -/
theorem Run.throughout_iff {C : Trace σ α → σ → α → Prop} {I : Trace σ α → σ → Prop} {s₀ : σ}
    (h₀ : I [] s₀)
    (hstep : ∀ {tr s a s'}, I tr s → step s a = some s' → (I ((s, a) :: tr) s' ↔ C tr s a))
    {tr : Trace σ α} {s : σ} (hr : Run step s₀ tr s) :
    (Along (fun tr s _ => I tr s) tr ∧ I tr s) ↔ Along C tr := by
  induction hr with
  | nil => exact iff_of_true ⟨trivial, h₀⟩ trivial
  | snoc hr hs ih =>
      constructor
      · rintro ⟨⟨hI, hall⟩, hI'⟩
        exact ⟨(hstep hI hs).mp hI', ih.mp ⟨hall, hI⟩⟩
      · rintro ⟨hC, hall⟩
        obtain ⟨hall, hI⟩ := ih.mpr hall
        exact ⟨⟨hI, hall⟩, (hstep hI hs).mpr hC⟩

/-- Where a step from `I` meets `Q` exactly if it meets `C`, and then leads to `I` again, all
steps of a run meet `Q` exactly if all meet `C`. -/
theorem Run.along_iff {Q C : Trace σ α → σ → α → Prop} {I : σ → Prop} {s₀ : σ} (h₀ : I s₀)
    (hiff : ∀ {tr s a}, I s → (Q tr s a ↔ C tr s a))
    (hkeep : ∀ {tr s a s'}, I s → C tr s a → step s a = some s' → I s')
    {tr : Trace σ α} {s : σ} (hr : Run step s₀ tr s) : Along Q tr ↔ Along C tr := by
  have h : (Along Q tr ↔ Along C tr) ∧ (Along C tr → I s) := by
    induction hr with
    | nil => exact ⟨Iff.rfl, fun _ => h₀⟩
    | snoc hr hs ih =>
      obtain ⟨hall, hI⟩ := ih
      refine ⟨⟨?_, ?_⟩, fun hC => hkeep (hI hC.2) hC.1 hs⟩
      · rintro ⟨hQ, hQs⟩
        have hCs := hall.mp hQs
        exact ⟨(hiff (hI hCs)).mp hQ, hCs⟩
      · rintro ⟨hC, hCs⟩
        exact ⟨(hiff (hI hCs)).mpr hC, hall.mpr hCs⟩
  exact h.1

/-- `Run.invariant` without a guard. -/
theorem Run.invariant' {I : Trace σ α → σ → Prop} {s₀ : σ} (h₀ : I [] s₀)
    (hstep : ∀ {tr s a s'}, Run step s₀ tr s → I tr s → step s a = some s' →
      I ((s, a) :: tr) s')
    {tr : Trace σ α} {s : σ} (hr : Run step s₀ tr s) : I tr s := by
  induction hr with
  | nil => exact h₀
  | snoc hr hs ih => exact hstep hr ih hs

/-- What one step after a guarded run meets, every step of a guarded run meets. -/
theorem Run.along {G P : Trace σ α → σ → α → Prop} {s₀ : σ}
    (h : ∀ {tr s a s'}, Run step s₀ tr s → Along G tr → G tr s a → step s a = some s' →
      P tr s a)
    {tr : Trace σ α} {s : σ} (hr : Run step s₀ tr s) (hG : Along G tr) : Along P tr := by
  induction hr with
  | nil => trivial
  | snoc hr hs ih => exact ⟨h hr hG.2 hG.1 hs, ih hG.2⟩

/-! ## Observations -/

variable {β : Type*}

/-- What `obs` sees in the steps of the trace, oldest first. -/
def observed (obs : σ → α → List β) : Trace σ α → List β
  | [] => []
  | (s, a) :: tr => observed obs tr ++ obs s a

@[simp] theorem observed_cons (obs : σ → α → List β) (s : σ) (a : α) (tr : Trace σ α) :
    observed obs ((s, a) :: tr) = observed obs tr ++ obs s a := rfl

/-- The actions of a trace, oldest first. -/
def actions : Trace σ α → List α := observed fun _ a => [a]

theorem flatMap_observed {γ : Type*} (obs : σ → α → List β) (f : β → List γ)
    (tr : Trace σ α) :
    (observed obs tr).flatMap f = observed (fun s a => (obs s a).flatMap f) tr := by
  induction tr with
  | nil => rfl
  | cons x tr ih =>
      obtain ⟨s, a⟩ := x
      rw [observed_cons, List.flatMap_append, ih, observed_cons]

/-- Simulation.  A second machine `act` takes the events that `obs` sees; if each guarded
step keeps the relation `R`, then after a guarded run `R` holds of the state reached and of
what the second machine has come to. -/
theorem Run.simulates {τ : Type*} {G : Trace σ α → σ → α → Prop}
    {R : Trace σ α → σ → τ → Prop} {obs : σ → α → List β} {act : τ → β → τ} {s₀ : σ} {t₀ : τ}
    (h₀ : R [] s₀ t₀)
    (hstep : ∀ {tr s a s' t}, Run step s₀ tr s → Along G ((s, a) :: tr) → R tr s t →
      step s a = some s' → R ((s, a) :: tr) s' ((obs s a).foldl act t))
    {tr : Trace σ α} {s : σ} (hr : Run step s₀ tr s) (hG : Along G tr) :
    R tr s ((observed obs tr).foldl act t₀) := by
  refine hr.invariant (I := fun tr s => R tr s ((observed obs tr).foldl act t₀)) h₀ ?_ hG
  intro tr s a s' hr hG hi h
  rw [observed_cons, List.foldl_append]
  exact hstep hr hG hi h

/-- What `obs` sees in the steps after the last one that meets `stop`, oldest first. -/
def since (stop : σ → α → Prop) [∀ s a, Decidable (stop s a)] (obs : σ → α → List β) :
    Trace σ α → List β
  | [] => []
  | (s, a) :: tr => if stop s a then [] else since stop obs tr ++ obs s a

section Since

variable {stop : σ → α → Prop} [∀ s a, Decidable (stop s a)] {obs : σ → α → List β}

theorem since_cons_of_stop {s : σ} {a : α} {tr : Trace σ α} (h : stop s a) :
    since stop obs ((s, a) :: tr) = [] := if_pos h

theorem since_cons_of_not {s : σ} {a : α} {tr : Trace σ α} (h : ¬ stop s a) :
    since stop obs ((s, a) :: tr) = since stop obs tr ++ obs s a := if_neg h

/-- Something seen since the last stop was seen before the newest step, or in it. -/
theorem mem_since_cons {x : β} {s : σ} {a : α} {tr : Trace σ α} :
    x ∈ since stop obs ((s, a) :: tr) ↔ ¬ stop s a ∧ (x ∈ since stop obs tr ∨ x ∈ obs s a) := by
  by_cases h : stop s a
  · simp [since_cons_of_stop h, h]
  · simp [since_cons_of_not h, h]

end Since

/-! ## Running a list of actions -/

/-- The trace and the state after the actions, if each is possible where it comes. -/
def exec (step : σ → α → Option σ) : List α → Trace σ α → σ → Option (Trace σ α × σ)
  | [], tr, s => some (tr, s)
  | a :: as, tr, s => (step s a).bind fun s' => exec step as ((s, a) :: tr) s'

/-- What `exec` computes is a run. -/
theorem Run.of_exec {s₀ s s' : σ} {as : List α} {tr tr' : Trace σ α} (hr : Run step s₀ tr s)
    (h : exec step as tr s = some (tr', s')) : Run step s₀ tr' s' := by
  induction as generalizing tr s with
  | nil =>
      simp only [exec, Option.some.injEq, Prod.mk.injEq] at h
      obtain ⟨rfl, rfl⟩ := h
      exact hr
  | cons a as ih =>
      simp only [exec, Option.bind_eq_some_iff] at h
      obtain ⟨s₁, hs, h⟩ := h
      exact ih (.snoc hr hs) h

theorem actions_of_exec {as : List α} {tr tr' : Trace σ α} {s s' : σ}
    (h : exec step as tr s = some (tr', s')) : actions tr' = actions tr ++ as := by
  induction as generalizing tr s with
  | nil =>
      simp only [exec, Option.some.injEq, Prod.mk.injEq] at h
      rw [h.1, List.append_nil]
  | cons a as ih =>
      simp only [exec, Option.bind_eq_some_iff] at h
      obtain ⟨s₁, -, h⟩ := h
      rw [ih h, actions, observed_cons, List.append_assoc]
      rfl

/-- A run of given actions that ends as `p` asks, from an evaluation. -/
theorem exists_run_of_exec (step : σ → α → Option σ) (s₀ : σ) (as : List α)
    {p : Trace σ α → σ → Prop} [∀ tr s, Decidable (p tr s)]
    (h : (exec step as [] s₀).any (fun r => decide (p r.1 r.2)) = true) :
    ∃ tr s, Run step s₀ tr s ∧ actions tr = as ∧ p tr s := by
  cases he : exec step as [] s₀ with
  | none => rw [he] at h; cases h
  | some r =>
      rw [he, Option.any_some, decide_eq_true_eq] at h
      exact ⟨r.1, r.2, .of_exec .nil he, actions_of_exec he, h⟩

end

end Transition
