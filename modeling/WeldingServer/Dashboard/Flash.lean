import WeldingServer.Dashboard.SettingsForm
import WeldingServer.Library.Run

/-!
# The label of a button that flashes

`flash` shows a text on a button and has the text that it found there put back after a while.
Called again before that, it finds a text that was flashed, and when all timeouts have fired
that text stays (`Button.settled`): from then on the label of the button is lost
(`label_of_run`).
-/

namespace WeldingServer.Dashboard.Flash

open Transition

/-! ## `flash` -/

/-- A button, and what each timeout that has not fired yet will put back.  All timeouts have
the same delay, so they fire in the order in which they were set. -/
structure Button where
  textContent : String
  origs : List String := []
deriving DecidableEq, Repr

namespace Button

/-- The label is changed, and the one found is kept for the timeout. -/
def flash (btn : Button) (label : String) : Button where
  textContent := label
  origs := btn.origs ++ [btn.textContent]

/-- `btn.textContent = orig`, of the oldest timeout. -/
def putBack (btn : Button) : Option Button :=
  match btn.origs with
  | [] => none
  | orig :: origs => some ⟨orig, origs⟩

/-- The text when all timeouts have fired. -/
def settled (btn : Button) : String := btn.origs.getLastD btn.textContent

/-- The button neither shows the text nor will put it back. -/
def Lost (btn : Button) (own : String) : Prop := btn.textContent ≠ own ∧ own ∉ btn.origs

/-- A timeout puts back the oldest label that is kept. -/
theorem putBack_eq_some {btn btn' : Button} :
    btn.putBack = some btn' ↔ btn.origs = btn'.textContent :: btn'.origs := by
  obtain ⟨text, origs⟩ := btn
  cases origs with
  | nil => simp [putBack]
  | cons orig origs =>
      simp only [putBack, Option.some.injEq, List.cons.injEq]
      constructor
      · rintro rfl
        exact ⟨rfl, rfl⟩
      · rintro ⟨rfl, rfl⟩
        rfl

end Button

/-- The label flashes, or a timeout puts it back. -/
inductive Action where
  | flash (label : String)
  | putBack
deriving DecidableEq, Repr

/-- A timeout is possible only while a label is kept. -/
def step (btn : Button) : Action → Option Button
  | .flash label => some (btn.flash label)
  | .putBack => btn.putBack

/-- The flashes and timeouts so far. -/
abbrev History := Trace Button Action

/-! ## What stays -/

variable {own : String} {btn btn' : Button} {a : Action} {tr tr' : History}

/-- What the last call of `flash` found on the button. -/
def found (own : String) : History → String
  | [] => own
  | (btn, .flash _) :: _ => btn.textContent
  | (_, .putBack) :: tr => found own tr

/-- The text that is flashed is not the label of the button. -/
def OtherText (own : String) (_ : History) (_ : Button) (a : Action) : Prop := a ≠ .flash own

/-- `flash` is called when no timeout is left. -/
def Alone (_ : History) (btn : Button) (a : Action) : Prop := a ≠ .putBack → btn.origs = []

instance (tr : History) (btn : Button) (a : Action) : Decidable (OtherText own tr btn a) :=
  inferInstanceAs (Decidable (a ≠ .flash own))

/-- Each step leaves the button to settle on what the last call of `flash` found. -/
theorem settled_step (hi : btn.settled = found own tr) (h : step btn a = some btn') :
    btn'.settled = found own ((btn, a) :: tr) := by
  cases a with
  | flash label =>
      obtain rfl := Option.some.inj h
      simp [Button.settled, Button.flash, found]
  | putBack =>
      have horigs := Button.putBack_eq_some.mp h
      rw [found, ← hi, Button.settled, Button.settled, horigs]
      cases btn'.origs <;> rfl

/-- In every run the button settles on what the last call of `flash` found. -/
theorem settled_of_run (hr : Run step ⟨own, []⟩ tr btn) : btn.settled = found own tr :=
  hr.invariant' (I := fun tr btn => btn.settled = found own tr) rfl
    fun _ hi h => settled_step hi h

/-- While other texts are flashed the own label stays lost. -/
theorem Button.Lost.step (hi : btn.Lost own) (ho : OtherText own tr btn a)
    (h : Flash.step btn a = some btn') : btn'.Lost own := by
  cases a with
  | flash label =>
      obtain rfl := Option.some.inj h
      refine ⟨fun he => ho (congrArg Action.flash he), fun hmem => ?_⟩
      rcases List.mem_append.mp hmem with hmem | hmem
      · exact hi.2 hmem
      · exact hi.1 (List.mem_singleton.mp hmem).symm
  | putBack =>
      have horigs := Button.putBack_eq_some.mp h
      rw [Button.Lost, horigs, List.mem_cons, not_or] at hi
      exact ⟨Ne.symm hi.2.1, hi.2.2⟩

/-- In a run in which other texts are flashed the own label stays lost. -/
theorem Button.Lost.run (hi : btn.Lost own) (hr : Run Flash.step btn tr btn')
    (ho : Along (OtherText own) tr) : btn'.Lost own :=
  hr.invariant (I := fun _ btn => btn.Lost own) hi (fun _ ho hi h => hi.step ho.1 h) ho

/-- The button shows its label, or its only timeout will put it back. -/
theorem shown_of_alone (hr : Run step ⟨own, []⟩ tr btn) (ha : Along Alone tr)
    (ho : Along (OtherText own) tr) :
    btn = ⟨own, []⟩ ∨ btn.textContent ≠ own ∧ btn.origs = [own] := by
  refine hr.invariant (G := fun tr btn a => Alone tr btn a ∧ OtherText own tr btn a)
    (I := fun _ btn => btn = ⟨own, []⟩ ∨ btn.textContent ≠ own ∧ btn.origs = [own])
    (.inl rfl) ?_ (ha.and ho)
  rintro t u a u' - ⟨⟨ha, ho⟩, -⟩ hi h
  cases a with
  | flash label =>
      obtain rfl := Option.some.inj h
      have hnil : u.origs = [] := ha (by simp)
      rcases hi with rfl | ⟨-, hone⟩
      · exact .inr ⟨fun he => ho (congrArg Action.flash he), rfl⟩
      · rw [hnil] at hone
        cases hone
  | putBack =>
      have horigs := Button.putBack_eq_some.mp h
      rcases hi with rfl | ⟨-, hone⟩
      · cases horigs
      · rw [hone, List.cons.injEq] at horigs
        obtain ⟨htext, hnil⟩ := horigs
        exact .inl (by rw [htext, hnil])

/-- While `flash` is only called when no timeout is left, the button shows its label exactly
when none is left.  Whatever the calls, when none is left it shows what the last call found,
and it never shows its label again exactly if that is another text. -/
theorem label_of_run (hr : Run step ⟨own, []⟩ tr btn) (ho : Along (OtherText own) tr) :
    (Along Alone tr → (btn.textContent = own ↔ btn.origs = [])) ∧
      (btn.origs = [] → btn.textContent = found own tr ∧
        (found own tr ≠ own ↔ ∀ tr' btn', Run step btn tr' btn' → Along (OtherText own) tr' →
          btn'.textContent ≠ own)) := by
  refine ⟨fun ha => ?_, fun hnil => ?_⟩
  · rcases shown_of_alone hr ha ho with rfl | ⟨htext, hone⟩
    · exact iff_of_true rfl rfl
    · exact iff_of_false htext (by rw [hone]; simp)
  · have htext : btn.textContent = found own tr := by
      rw [← settled_of_run hr, Button.settled, hnil]
      rfl
    rw [← htext]
    refine ⟨rfl, fun hne tr' btn' hr' ho' => ?_, fun h => h [] btn .nil trivial⟩
    have hlost : btn.Lost own := ⟨hne, by rw [hnil]; exact List.not_mem_nil⟩
    exact (hlost.run hr' ho').1

/-- The settings are saved a second time before the first timeout fires. -/
def savedTwice : List Action :=
  [.flash (saveLabel (some 200)), .flash (saveLabel (some 200)), .putBack, .putBack]

/-- Two flashes overlap, and the button never has its label again. -/
theorem label_savedTwice :
    ∃ tr btn, Run step ⟨"Save settings", []⟩ tr btn ∧ actions tr = savedTwice ∧
      btn = ⟨"Saved ✓", []⟩ ∧
      ∃ tr' btn', Run step btn tr' btn' ∧ actions tr' = [.flash (saveLabel none), .putBack] ∧
        btn'.textContent ≠ "Save settings" := by
  obtain ⟨tr, btn, hr, ha, ho, hfound, rfl⟩ :=
    exists_run_of_exec step ⟨"Save settings", []⟩ savedTwice
      (p := fun tr btn => Along (OtherText "Save settings") tr ∧
        found "Save settings" tr = "Saved ✓" ∧ btn = ⟨"Saved ✓", []⟩)
      (by decide)
  obtain ⟨tr', btn', hr', ha', ho', -⟩ :=
    exists_run_of_exec step ⟨"Saved ✓", []⟩ [.flash (saveLabel none), .putBack]
      (p := fun tr' _ => Along (OtherText "Save settings") tr' ∧ True)
      (by decide)
  obtain ⟨-, hforever⟩ := (label_of_run hr ho).2 rfl
  have hother : found "Save settings" tr ≠ "Save settings" := by
    rw [hfound]
    decide
  exact ⟨tr, _, hr, ha, rfl, tr', btn', hr', ha', hforever.mp hother tr' btn' hr' ho'⟩

end WeldingServer.Dashboard.Flash
