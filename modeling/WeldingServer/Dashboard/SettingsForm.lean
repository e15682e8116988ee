import WeldingServer.Library.NumberText
import WeldingServer.Settings.AllOrNothing
import WeldingServer.Settings.Survival

/-!
# The form of the server settings

The page loads the settings into five number fields, where they can be edited, and saves what
the fields hold.  A number goes a long way from the server to the server: it is written as
text, cleared unless it is a valid number, read by `parseInt`, written as JSON and cast to an
`Integer`.

What the server sends comes back as it was (`save_of_load`).  Of any other texts the settings
are stored in order up to the first one that does not begin with an `int`, and the answer is
200 if there is no such text (`save_of_form`).  The button says `Saved ✓` in both cases.

A number of more than 53 bits is rounded before it is written, and the engine chooses how it is
written.  That is the parameter `wide`.
-/

namespace WeldingServer.Dashboard

open NumberText Settings

/-! ## The fields -/

/-- An `input` of type `number`: it holds a valid number, or nothing. -/
structure NumberField where
  text : List Char
  valid : text ≠ [] → isNumber text = true

/-- What a field holds that is given a text. -/
def NumberField.assign (text : List Char) : NumberField :=
  if h : isNumber text = true then ⟨text, fun _ => h⟩ else ⟨[], fun hne => absurd rfl hne⟩

theorem NumberField.text_assign {text : List Char} (h : isNumber text = true) :
    (NumberField.assign text).text = text := by
  rw [assign, dif_pos h]

/-- The fields `s-brightnessThreshold`, … -/
structure SettingsForm where
  brightnessThreshold : NumberField
  blurKernel : NumberField
  morphKernel : NumberField
  minBlobArea : NumberField
  videoFramerate : NumberField

/-- The fields with their keys, in the order in which they are written. -/
def SettingsForm.fields (form : SettingsForm) : List (String × NumberField) :=
  [("brightnessThreshold", form.brightnessThreshold), ("blurKernel", form.blurKernel),
    ("morphKernel", form.morphKernel), ("minBlobArea", form.minBlobArea),
    ("videoFramerate", form.videoFramerate)]

/-! ## Loading -/

/-- `field.value = s.key ?? otherwise`; there are no settings if the request has failed. -/
def shown (answer : Option (List (String × Int))) (key : String) (otherwise : Int) : NumberField :=
  .assign (ofInt ((answer.bind (List.lookup key)).getD otherwise))

/-- `loadServerSettings`, with the answer to `GET /api/settings` -/
def loadServerSettings (answer : Option (List (String × Int))) : SettingsForm where
  brightnessThreshold := shown answer "brightnessThreshold" 200
  blurKernel := shown answer "blurKernel" 5
  morphKernel := shown answer "morphKernel" 3
  minBlobArea := shown answer "minBlobArea" 100
  videoFramerate := shown answer "videoFramerate" 15

/-! ## Saving -/

/-- What the server gets for the number that was parsed. -/
def stringify (wide : Int → Json) : Option Int → Json
  | none => .null
  | some n => if n.natAbs < 2 ^ 53 then .integer n else wide n

/-- How a number of more than 53 bits can arrive: as one of more than 53 bits, with an exponent,
or as `null` if it is infinite. -/
inductive IsWide : Json → Prop where
  | integer {n : Int} : 2 ^ 53 ≤ n.natAbs → IsWide (.integer n)
  | fraction {d : Double} : IsWide (.fraction d)
  | null : IsWide .null

/-- The body of the request that `saveServerSettings` makes. -/
def saveServerSettings (wide : Int → Json) (form : SettingsForm) : Body :=
  List.toAList (form.fields.map fun p => ⟨p.1, stringify wide (parseInt p.2.text)⟩)

/-- The status that the request is answered with. -/
def statusOf : Except CastException Unit → Nat
  | .ok _ => 200
  | .error _ => 500

/-- What the button shows, with the status of the answer, if there is one. -/
def saveLabel : Option Nat → String
  | some _ => "Saved ✓"
  | none => "Saved ✓ (demo)"

/-! ## A field on its way -/

variable {wide : Int → Json} {field : NumberField}

/-- The `int` that the text begins with. -/
def NumberField.int (field : NumberField) : Option Int32 :=
  (parseInt field.text).bind fun n => if Json.FitsInt n then some (Int32.ofInt n) else none

/-- The field has the `int` that `parseInt` reads from it. -/
theorem NumberField.int_eq_some {v : Int32} :
    field.int = some v ↔ parseInt field.text = some v.toInt := by
  rw [int]
  constructor
  · intro h
    obtain ⟨n, hn, h⟩ := Option.bind_eq_some_iff.mp h
    split at h
    next hfits =>
      obtain rfl := Option.some.inj h
      rw [hn, Json.toInt_ofInt hfits]
    next => cases h
  · intro h
    rw [h, Option.bind_some, if_pos (Json.fitsInt_toInt v), Int32.ofInt_toInt]

theorem not_fitsInt {n : Int} (h : 2 ^ 53 ≤ n.natAbs) : ¬ Json.FitsInt n := by
  rintro ⟨hlow, hhigh⟩
  omega

/-- The cast takes the `int` of the field, and refuses everything else. -/
def CastsInt (wide : Int → Json) (field : NumberField) : Prop :=
  match field.int with
  | some v => (stringify wide (parseInt field.text)).castInteger = .ok v
  | none => ∃ e, (stringify wide (parseInt field.text)).castInteger = .error e

theorem castsInt_of_int {v : Int32} (h : field.int = some v) : CastsInt wide field := by
  have hfits := Json.fitsInt_toInt v
  have hlt : v.toInt.natAbs < 2 ^ 53 := by
    obtain ⟨hlow, hhigh⟩ := hfits
    omega
  rw [CastsInt, h, NumberField.int_eq_some.mp h, stringify, if_pos hlt, Json.castInteger,
    if_pos hfits, Int32.ofInt_toInt]

/-- Whatever is in the field, the cast gives its `int` or throws. -/
theorem castsInt (hwide : ∀ n : Int, 2 ^ 53 ≤ n.natAbs → IsWide (wide n)) (field : NumberField) :
    CastsInt wide field := by
  cases hv : field.int with
  | some v => exact castsInt_of_int hv
  | none =>
      rw [CastsInt, hv]
      rw [NumberField.int] at hv
      cases hp : parseInt field.text with
      | none => exact ⟨.nullPointer, rfl⟩
      | some n =>
          have hfits : ¬ Json.FitsInt n := fun hfits => by
            rw [hp, Option.bind_some, if_pos hfits] at hv
            cases hv
          rw [stringify]
          by_cases hn : n.natAbs < 2 ^ 53
          · rw [if_pos hn]
            exact ⟨.classCast, if_neg hfits⟩
          · rw [if_neg hn]
            generalize hj : wide n = j
            cases hj ▸ hwide n (Nat.le_of_not_lt hn) with
            | integer hm => exact ⟨.classCast, if_neg (not_fitsInt hm)⟩
            | fraction => exact ⟨.classCast, rfl⟩
            | null => exact ⟨.nullPointer, rfl⟩

/-- Each key has what is read from its field. -/
theorem lookup_saveServerSettings (wide : Int → Json) {form : SettingsForm} {key : String}
    (h : (key, field) ∈ form.fields) :
    (saveServerSettings wide form).lookup key = some (stringify wide (parseInt field.text)) := by
  rw [saveServerSettings, AList.lookup_to_alist]
  simp only [SettingsForm.fields, List.mem_cons, Prod.mk.injEq, List.not_mem_nil, or_false] at h
  rcases h with ⟨rfl, rfl⟩ | ⟨rfl, rfl⟩ | ⟨rfl, rfl⟩ | ⟨rfl, rfl⟩ | ⟨rfl, rfl⟩ <;> rfl

/-- The setting is stored with the `int` of the field, or the request ends. -/
def StoresField (body : Body) (f : Setting) (field : NumberField)
    (set : Int32 → ServerState → ServerState) : Prop :=
  ∃ e, ∀ s, (f.store body).call s =
    match field.int with
    | some v => (.ok (), set v s)
    | none => (.error e, s)

theorem storesField_of (form : SettingsForm) {key : String} (h : (key, field) ∈ form.fields)
    (hcast : CastsInt wide field) {get : ServerState → Int32}
    {set : Int32 → ServerState → ServerState} {h₁ h₂} :
    StoresField (saveServerSettings wide form) (.of .integer key get set h₁ h₂) field set := by
  have hlookup := lookup_saveServerSettings wide h
  rw [CastsInt] at hcast
  cases hv : field.int with
  | some v =>
      rw [hv] at hcast
      refine ⟨.classCast, fun s => ?_⟩
      simp only [Setting.store, Setting.of, Reading.integer, hlookup, hcast, hv]
      rfl
  | none =>
      rw [hv] at hcast
      obtain ⟨e, hcast⟩ := hcast
      refine ⟨e, fun s => ?_⟩
      simp only [Setting.store, Setting.of, Reading.integer, hlookup, hcast, hv]
      rfl

/-- A field with the setter of its setting. -/
abbrev Saving := NumberField × (Int32 → ServerState → ServerState)

/-- The state with the fields stored that come before the first one without an `int`. -/
def storeFields : List Saving → ServerState → ServerState
  | [], s => s
  | (field, set) :: rest, s =>
      match field.int with
      | some v => storeFields rest (set v s)
      | none => s

/-- The server stores the fields one after the other until one has no `int`. -/
theorem call_storeAll_fields {body : Body} {settings : List Setting} {savings : List Saving}
    (h : List.Forall₂ (fun f p => StoresField body f p.1 p.2) settings savings) (s : ServerState) :
    ∃ r, (storeAll settings body).call s = (r, storeFields savings s) ∧
      (statusOf r = 200 ↔ ∀ p ∈ savings, p.1.int ≠ none) := by
  induction h generalizing s with
  | nil => exact ⟨.ok (), rfl, by simp [statusOf]⟩
  | @cons f p settings savings hf _ ih =>
      obtain ⟨e, hf⟩ := hf
      have hcall : (storeAll (f :: settings) body).call s =
          (f.store body >>= fun _ => storeAll settings body).call s := rfl
      have hs := hf s
      rw [hcall, storeFields]
      cases hv : p.1.int with
      | none =>
          rw [hv] at hs
          exact ⟨.error e, Method.call_bind_of_error hs, by simp [statusOf, hv]⟩
      | some v =>
          rw [hv] at hs
          obtain ⟨r, hr, hstatus⟩ := ih (p.2 v s)
          exact ⟨r, (Method.call_bind_of_ok hs).trans hr, by simp [hstatus, hv]⟩

/-! ## The form as a whole -/

/-- The fields before the first one that does not begin with an `int`. -/
def SettingsForm.accepted (form : SettingsForm) : List (String × NumberField) :=
  form.fields.takeWhile fun p => p.2.int.isSome

/-- The settings that fields are saved as. -/
def savedAs (fields : List (String × NumberField)) : List (String × Int) :=
  fields.filterMap fun p => p.2.int.map fun v => (p.1, v.toInt)

/-- The fields with the setters of their settings. -/
def SettingsForm.savings (form : SettingsForm) : List Saving :=
  [(form.brightnessThreshold, ServerState.setBrightnessThreshold),
    (form.blurKernel, ServerState.setBlurKernel), (form.morphKernel, ServerState.setMorphKernel),
    (form.minBlobArea, ServerState.setMinBlobArea),
    (form.videoFramerate, ServerState.setVideoFramerate)]

/-- The state without the settings of the detector. -/
def withoutSettings (s : ServerState) : ServerState :=
  { s with
    brightnessThreshold := 0, blurKernel := 0, morphKernel := 0, minBlobArea := 0
    videoFramerate := 0 }

/-- Each setting of the detector is stored from its field. -/
theorem storesFields (form : SettingsForm) (h : ∀ p ∈ form.fields, CastsInt wide p.2) :
    List.Forall₂ (fun f p => StoresField (saveServerSettings wide form) f p.1 p.2)
      detectorSettings form.savings := by
  simp only [SettingsForm.fields, List.forall_mem_cons] at h
  obtain ⟨h₁, h₂, h₃, h₄, h₅, -⟩ := h
  exact .cons (storesField_of form (.head _) h₁) <|
    .cons (storesField_of form (.tail _ (.head _)) h₂) <|
    .cons (storesField_of form (.tail _ (.tail _ (.head _))) h₃) <|
    .cons (storesField_of form (.tail _ (.tail _ (.tail _ (.head _)))) h₄) <|
    .cons (storesField_of form (.tail _ (.tail _ (.tail _ (.tail _ (.head _))))) h₅)
      .nil

/-- After the fields are stored the server answers those it has accepted, and changes nothing
else. -/
theorem getSettings_storeFields (form : SettingsForm) (s : ServerState) :
    getSettings (storeFields form.savings s) =
        savedAs form.accepted ++ (getSettings s).drop form.accepted.length ∧
      withoutSettings (storeFields form.savings s) = withoutSettings s := by
  simp only [SettingsForm.savings, SettingsForm.accepted, SettingsForm.fields, storeFields]
  cases hv₁ : form.brightnessThreshold.int with
  | none => simp [hv₁, savedAs]
  | some v₁ =>
      cases hv₂ : form.blurKernel.int with
      | none =>
          simp [hv₁, hv₂, savedAs]
          exact ⟨rfl, rfl⟩
      | some v₂ =>
          cases hv₃ : form.morphKernel.int with
          | none =>
              simp [hv₁, hv₂, hv₃, savedAs]
              exact ⟨rfl, rfl⟩
          | some v₃ =>
              cases hv₄ : form.minBlobArea.int with
              | none =>
                  simp [hv₁, hv₂, hv₃, hv₄, savedAs]
                  exact ⟨rfl, rfl⟩
              | some v₄ =>
                  cases hv₅ : form.videoFramerate.int with
                  | none =>
                      simp [hv₁, hv₂, hv₃, hv₄, hv₅, savedAs]
                      exact ⟨rfl, rfl⟩
                  | some v₅ =>
                      simp [hv₁, hv₂, hv₃, hv₄, hv₅, savedAs]
                      exact ⟨rfl, rfl⟩

theorem statusOf_eq_ok {r : Except CastException Unit} (h : statusOf r = 200) : r = .ok () := by
  cases r with
  | ok u => rfl
  | error e => cases h

/-- Of any texts the settings are stored up to the first field that does not begin with an
`int`, and nothing else; the answer is 200 if each field does, and the button is content with
any answer. -/
theorem save_of_form (hwide : ∀ n : Int, 2 ^ 53 ≤ n.natAbs → IsWide (wide n))
    (form : SettingsForm) (s : ServerState) :
    ∃ r s', (updateSettings (saveServerSettings wide form)).call s = (r, s') ∧
      getSettings s' = savedAs form.accepted ++ (getSettings s).drop form.accepted.length ∧
      withoutSettings s' = withoutSettings s ∧
      (statusOf r = 200 ↔ ∀ p ∈ form.fields, ∃ v : Int32, parseInt p.2.text = some v.toInt) ∧
      saveLabel (some (statusOf r)) = "Saved ✓" := by
  obtain ⟨r, hcall, hstatus⟩ :=
    call_storeAll_fields (storesFields form fun p _ => castsInt hwide p.2) s
  obtain ⟨hsettings, hothers⟩ := getSettings_storeFields form s
  refine ⟨r, _, hcall, hsettings, hothers, hstatus.trans ?_, rfl⟩
  have hint : ∀ field : NumberField,
      field.int ≠ none ↔ ∃ v : Int32, parseInt field.text = some v.toInt := fun field => by
    simp only [Option.ne_none_iff_exists', NumberField.int_eq_some]
  simp only [SettingsForm.savings, SettingsForm.fields, List.forall_mem_cons, hint,
    List.not_mem_nil, false_implies, implies_true]

/-- `12.7`, `1e3`, nothing, `5` and `20` were entered. -/
def editedForm : SettingsForm where
  brightnessThreshold := .assign ['1', '2', '.', '7']
  blurKernel := .assign ['1', 'e', '3']
  morphKernel := .assign []
  minBlobArea := .assign ['5']
  videoFramerate := .assign ['2', '0']

/-- The threshold is 12 afterwards and the blur kernel 1, and the request fails. -/
theorem save_of_form_edited :
    ∃ r s', (updateSettings (saveServerSettings Json.integer editedForm)).call {} = (r, s') ∧
      getSettings s' = [("brightnessThreshold", 12), ("blurKernel", 1), ("morphKernel", 8),
        ("minBlobArea", 700), ("videoFramerate", 30)] ∧
      statusOf r ≠ 200 ∧ saveLabel (some (statusOf r)) = "Saved ✓" := by
  have hwide : ∀ n : Int, 2 ^ 53 ≤ n.natAbs → IsWide (Json.integer n) := fun _ h => .integer h
  obtain ⟨r, s', hcall, hsettings, -, hstatus, hlabel⟩ := save_of_form hwide editedForm {}
  refine ⟨r, s', hcall, hsettings.trans (by decide +kernel), fun h => ?_, hlabel⟩
  obtain ⟨v, hv⟩ := hstatus.mp h ("morphKernel", editedForm.morphKernel)
    (.tail _ (.tail _ (.head _)))
  have hempty : parseInt editedForm.morphKernel.text = none := by decide
  cases hempty.symm.trans hv

/-! ## There and back -/

/-- The state with these settings of the detector. -/
def withSettings (b k m a f : Int32) (s : ServerState) : ServerState :=
  { s with
    brightnessThreshold := b, blurKernel := k, morphKernel := m, minBlobArea := a
    videoFramerate := f }

/-- A field that shows an `int` is saved as this `int`. -/
theorem int_assign (v : Int32) : (NumberField.assign (ofInt v.toInt)).int = some v := by
  rw [NumberField.int_eq_some, NumberField.text_assign (isNumber_ofInt _), parseInt_ofInt]

/-- A field that shows the number that stands in for a setting. -/
theorem int_shown_none (key : String) {n : Int} {v : Int32} (h : v.toInt = n) :
    (shown none key n).int = some v := by
  subst h
  exact int_assign v

/-- A form that shows these settings, and is saved. -/
theorem call_save_of_ints {form : SettingsForm} {b k m a f : Int32}
    (hb : form.brightnessThreshold.int = some b) (hk : form.blurKernel.int = some k)
    (hm : form.morphKernel.int = some m) (ha : form.minBlobArea.int = some a)
    (hf : form.videoFramerate.int = some f) (s : ServerState) :
    (updateSettings (saveServerSettings wide form)).call s =
      (.ok (), withSettings b k m a f s) := by
  have hcast : ∀ p ∈ form.fields, CastsInt wide p.2 := by
    simp only [SettingsForm.fields, List.forall_mem_cons]
    exact ⟨castsInt_of_int hb, castsInt_of_int hk, castsInt_of_int hm, castsInt_of_int ha,
      castsInt_of_int hf, List.forall_mem_nil _⟩
  obtain ⟨r, hcall, hstatus⟩ := call_storeAll_fields (storesFields form hcast) s
  have hok : r = .ok () := statusOf_eq_ok (hstatus.mpr (by
    simp [SettingsForm.savings, hb, hk, hm, ha, hf]))
  rw [hok] at hcall
  refine hcall.trans ?_
  simp only [SettingsForm.savings, storeFields, hb, hk, hm, ha, hf]
  rfl

/-- What the server sends comes back as it was, whatever the server has by then; and if the
settings could not be loaded, what is saved are the numbers that the page puts in their
place. -/
theorem save_of_load (wide : Int → Json) (s s' : ServerState) :
    (updateSettings (saveServerSettings wide (loadServerSettings (some (getSettings s))))).call s' =
        (.ok (), withSettings s.brightnessThreshold s.blurKernel s.morphKernel s.minBlobArea
          s.videoFramerate s') ∧
      (updateSettings (saveServerSettings wide (loadServerSettings none))).call s' =
        (.ok (), withSettings 200 5 3 100 15 s') := by
  constructor
  · exact call_save_of_ints (int_assign _) (int_assign _) (int_assign _) (int_assign _)
      (int_assign _) s'
  · exact call_save_of_ints (int_shown_none _ (by decide)) (int_shown_none _ (by decide))
      (int_shown_none _ (by decide)) (int_shown_none _ (by decide))
      (int_shown_none _ (by decide)) s'

end WeldingServer.Dashboard
