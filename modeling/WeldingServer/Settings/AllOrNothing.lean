import WeldingServer.Settings.Endpoints

/-!
# Updates as a whole

What an update does is known in closed form (`call_storeAll`): it stores the values of the
settings one after the other, up to the first one whose value is refused.  It is compared
with the state overlaid with the numbers posted (`overlay`).  If no value is refused, each
setting is stored on its own (`get_of_accepted`).

Two things go wrong.  Of a wide or fractional number the field of an `int` gets another
number, and when a later value is refused the earlier ones stay.
-/

namespace WeldingServer

/-! ## What is wanted -/

/-- The state with exactly the posted numbers in the fields of the keys that are present. -/
def overlay (settings : List Setting) (body : Body) (s : ServerState) : Option ServerState :=
  settings.foldlM (fun s f =>
    match body.lookup f.key with
    | none => some s
    | some j => (f.reading.posted j).map (f.set · s)) s

theorem overlay_cons_of_absent {settings : List Setting} {body : Body} {f : Setting}
    (hj : body.lookup f.key = none) (s : ServerState) :
    overlay (f :: settings) body s = overlay settings body s := by
  rw [overlay, List.foldlM_cons, hj]
  rfl

/-- A setting that is in the body gets the number posted, if its field can hold it. -/
theorem overlay_cons_of_present {settings : List Setting} {body : Body} {f : Setting} {j : Json}
    (hj : body.lookup f.key = some j) (s : ServerState) :
    overlay (f :: settings) body s =
      (f.reading.posted j).bind fun v => overlay settings body (f.set v s) := by
  rw [overlay, List.foldlM_cons, hj]
  show ((f.reading.posted j).map (f.set · s)).bind (overlay settings body) = _
  rw [Option.bind_map]
  rfl

/-- The request answers 200 with the posted values stored, or fails with nothing changed. -/
def AllOrNothing (update : Body → Method ServerState CastException Unit)
    (settings : List Setting) (body : Body) (s : ServerState) : Prop :=
  match (update body).call s with
  | (.ok (), s') => overlay settings body s = some s'
  | (.error _, s') => s' = s

/-! ## What an update does -/

namespace Setting

/-- The value that is to be stored, if the key is present, or the exception. -/
def value (body : Body) (f : Setting) : Except CastException (Option f.Value) :=
  match body.lookup f.key with
  | none => .ok none
  | some j => (f.reading.read j).map some

/-- The write to the field that `store` makes. -/
def write (body : Body) (f : Setting) : Option (Record.Write ServerState) :=
  match f.value body with
  | .ok (some v) => some ⟨f.toField, v⟩
  | _ => none

/-- Whether `store` returns. -/
def outcome (body : Body) (f : Setting) : Except CastException Unit :=
  (f.value body).map fun _ => ()

variable {body : Body} {f : Setting} {j : Json}

theorem value_of_absent (hj : body.lookup f.key = none) : f.value body = .ok none := by
  rw [value, hj]

theorem value_of_ok {v : f.Value} (hj : body.lookup f.key = some j)
    (hv : f.reading.read j = .ok v) : f.value body = .ok (some v) := by
  simp only [value, hj, hv, Except.map]

theorem value_of_error {e : CastException} (hj : body.lookup f.key = some j)
    (he : f.reading.read j = .error e) : f.value body = .error e := by
  simp only [value, hj, he, Except.map]

theorem write_of_absent (hv : f.value body = .ok none) : f.write body = none := by
  rw [write, hv]

theorem write_of_ok {v : f.Value} (hv : f.value body = .ok (some v)) :
    f.write body = some ⟨f.toField, v⟩ := by
  rw [write, hv]

/-- What a setting writes is the value that its body has for it. -/
theorem write_eq_some {w : Record.Write ServerState} (h : f.write body = some w) :
    ∃ v, f.value body = .ok (some v) ∧ w = ⟨f.toField, v⟩ := by
  simp only [write] at h
  split at h
  next v hv => exact ⟨v, hv, (Option.some.inj h).symm⟩
  next => cases h

/-- A setting answers its outcome and makes its write, if it has one. -/
theorem call_store (f : Setting) (s : ServerState) :
    (f.store body).call s = (f.outcome body, (f.write body).elim s fun w => w.apply s) := by
  rw [store]
  cases hj : body.lookup f.key with
  | none =>
      have hv := value_of_absent hj
      rw [outcome, hv, write_of_absent hv]
      rfl
  | some j =>
      cases hr : f.reading.read j with
      | ok v =>
          have hv := value_of_ok hj hr
          simp only [hr]
          rw [outcome, hv, write_of_ok hv]
          rfl
      | error e =>
          have hv := value_of_error hj hr
          simp only [hr]
          rw [outcome, write, hv]
          rfl

end Setting

variable {settings : List Setting} {body : Body} {s s' : ServerState}

/-- The settings up to the first one whose value is refused, this one included. -/
def reached (settings : List Setting) (body : Body) : List Setting :=
  Method.tested (Setting.outcome body) settings

theorem foldl_write (settings : List Setting) (body : Body) (s : ServerState) :
    settings.foldl (fun s f => (f.write body).elim s fun w => w.apply s) s =
      (settings.filterMap (Setting.write body)).foldl (fun s w => w.apply s) s := by
  induction settings generalizing s with
  | nil => rfl
  | cons f settings ih =>
      rw [List.foldl_cons, ih, List.filterMap_cons]
      cases f.write body <;> rfl

/-- The call makes the writes of the settings it reaches, and throws what the first refused
value throws. -/
theorem call_storeAll (settings : List Setting) (body : Body) (s : ServerState) :
    (storeAll settings body).call s =
      (Method.answer (Method.thrown (Setting.outcome body) settings),
      ((reached settings body).filterMap (Setting.write body)).foldl (fun s w => w.apply s) s) := by
  rw [storeAll, Method.call_forM Setting.call_store, foldl_write, reached]

/-- What is in the field after `store` has run without an exception. -/
def Setting.stored (body : Body) (f : Setting) (s : ServerState) : f.Value :=
  match f.value body with
  | .ok (some v) => v
  | _ => f.get s

/-- After its write the field has what is stored of the body. -/
theorem Setting.get_write (f : Setting) (s : ServerState) :
    f.get ((f.write body).elim s fun w => w.apply s) = f.stored body s := by
  rw [Setting.write, Setting.stored]
  split
  next v hv => exact f.get_set v s
  next => rfl

theorem Setting.get_write_of_apart {f g : Setting} (h : f.toField.Apart g.toField)
    (s : ServerState) : f.get ((g.write body).elim s fun w => w.apply s) = f.get s := by
  cases hw : g.write body with
  | none => rfl
  | some w =>
      obtain ⟨v, -, rfl⟩ := Setting.write_eq_some hw
      exact h.1 v s

/-- The settings are stored each on its own. -/
theorem get_foldl_write (h : SettingsApart settings) {f : Setting} (hf : f ∈ settings)
    (s : ServerState) :
    f.get (settings.foldl (fun s f => (f.write body).elim s fun w => w.apply s) s) =
      f.stored body s := by
  induction settings generalizing s with
  | nil => cases hf
  | cons g settings ih =>
      rw [SettingsApart, List.pairwise_cons] at h
      rw [List.foldl_cons]
      rcases List.mem_cons.mp hf with rfl | hf
      · rw [foldl_write, Record.get_foldl_apply, f.get_write]
        intro w hw
        obtain ⟨g, hg, hw⟩ := List.mem_filterMap.mp hw
        obtain ⟨_, -, rfl⟩ := Setting.write_eq_some hw
        exact h.1 g hg
      · rw [ih h.2 hf, Setting.stored, Setting.stored, Setting.get_write_of_apart (h.1 f hf).symm]

/-- What a request that answers 200 leaves in a field. -/
theorem get_of_accepted (h : SettingsApart settings) {u : Unit}
    (hok : (storeAll settings body).call s = (.ok u, s')) {f : Setting} (hf : f ∈ settings) :
    (∃ u, f.outcome body = .ok u) ∧ f.get s' = f.stored body s := by
  rw [storeAll, Method.call_forM Setting.call_store, Prod.mk.injEq] at hok
  obtain ⟨hok, rfl⟩ := hok
  have ht : Method.thrown (Setting.outcome body) settings = none := by
    cases ht : Method.thrown (Setting.outcome body) settings with
    | none => rfl
    | some e =>
        rw [ht] at hok
        cases hok
  rw [Method.tested_of_thrown_eq_none ht]
  exact ⟨Method.thrown_eq_none_iff.mp ht f hf, get_foldl_write h hf s⟩

/-! ## The condition -/

/-- No value is refused and each number can be held by its field; or a value is refused, and
the values stored before are those that were there. -/
def StoresAllOrNothing (settings : List Setting) (body : Body) (s : ServerState) : Prop :=
  match Method.thrown (Setting.outcome body) settings with
  | none => ∀ f ∈ settings, ∀ j ∈ body.lookup f.key, f.reading.posted j ≠ none
  | some _ => ∀ f ∈ reached settings body, ∀ v, f.value body = .ok (some v) → f.get s = v

/-- If all values are stored and can be held, the overlay is stored. -/
theorem overlay_eq_some
    (hread : ∀ f ∈ settings, ∃ u, f.outcome body = .ok u)
    (hposted : ∀ f ∈ settings, ∀ j ∈ body.lookup f.key, f.reading.posted j ≠ none)
    (s : ServerState) :
    overlay settings body s =
      some ((settings.filterMap (Setting.write body)).foldl (fun s w => w.apply s) s) := by
  induction settings generalizing s with
  | nil => rfl
  | cons f settings ih =>
      rw [List.forall_mem_cons] at hread hposted
      have ih := ih hread.2 hposted.2
      rw [List.filterMap_cons]
      cases hj : body.lookup f.key with
      | none =>
          rw [overlay_cons_of_absent hj, ih, Setting.write_of_absent (Setting.value_of_absent hj)]
      | some j =>
          obtain ⟨u, hu⟩ := hread.1
          cases hv : f.reading.read j with
          | error e =>
              rw [Setting.outcome, Setting.value_of_error hj hv] at hu
              cases hu
          | ok v =>
              obtain ⟨w, hw⟩ := Option.ne_none_iff_exists'.mp (hposted.1 j hj)
              obtain rfl := f.reading.eq_of_read hv hw
              rw [overlay_cons_of_present hj, hw, Option.bind_some, ih,
                Setting.write_of_ok (Setting.value_of_ok hj hv)]
              rfl

theorem posted_of_overlay (h : overlay settings body s = some s') :
    ∀ f ∈ settings, ∀ j ∈ body.lookup f.key, f.reading.posted j ≠ none := by
  induction settings generalizing s with
  | nil => exact List.forall_mem_nil _
  | cons f settings ih =>
      rw [List.forall_mem_cons]
      cases hj : body.lookup f.key with
      | none =>
          rw [overlay_cons_of_absent hj] at h
          exact ⟨nofun, ih h⟩
      | some j =>
          rw [overlay_cons_of_present hj] at h
          obtain ⟨v, hv, h⟩ := Option.bind_eq_some_iff.mp h
          refine ⟨fun j' hj' => ?_, ih h⟩
          obtain rfl := Option.some.inj hj'
          rw [hv]
          exact Option.some_ne_none v

/-- No two writes of a call are to one field. -/
theorem pairwise_writes (h : SettingsApart settings) :
    ((reached settings body).filterMap (Setting.write body)).Pairwise
      fun v w => v.1.Apart w.1 := by
  refine (h.sublist (Method.tested_sublist settings)).filterMap _ fun f g hfg v hv w hw => ?_
  obtain ⟨_, -, rfl⟩ := Setting.write_eq_some hv
  obtain ⟨_, -, rfl⟩ := Setting.write_eq_some hw
  exact hfg

/-- An update is all or nothing exactly under the condition. -/
theorem storeAll_allOrNothing_iff (h : SettingsApart settings) (body : Body) (s : ServerState) :
    AllOrNothing (storeAll settings) settings body s ↔ StoresAllOrNothing settings body s := by
  rw [AllOrNothing, StoresAllOrNothing, call_storeAll]
  cases ht : Method.thrown (Setting.outcome body) settings with
  | none =>
      have hread := Method.thrown_eq_none_iff.mp ht
      rw [reached, Method.tested_of_thrown_eq_none ht]
      exact ⟨posted_of_overlay, fun hposted => overlay_eq_some hread hposted s⟩
  | some e =>
      show _ = s ↔ _
      rw [Record.foldl_apply_eq_self_iff (pairwise_writes h)]
      constructor
      · intro hall f hf v hv
        exact hall ⟨f.toField, v⟩ (List.mem_filterMap.mpr ⟨f, hf, Setting.write_of_ok hv⟩)
      · intro hall w hw
        obtain ⟨f, hf, hw⟩ := List.mem_filterMap.mp hw
        obtain ⟨v, hv, rfl⟩ := Setting.write_eq_some hw
        exact hall f hf v hv

/-- For the two endpoints. -/
theorem updates_allOrNothing_iff (body : Body) (s : ServerState) :
    (AllOrNothing updateSettings detectorSettings body s ↔
        StoresAllOrNothing detectorSettings body s) ∧
      (AllOrNothing updateAppSettings appSettings body s ↔
        StoresAllOrNothing appSettings body s) :=
  ⟨storeAll_allOrNothing_iff settingsApart_detectorSettings body s,
    storeAll_allOrNothing_iff settingsApart_appSettings body s⟩

/-- A form with an empty field, which is posted as `null`, and a duration that is too long for
an `int`. -/
def emptyFieldBody : Body := (AList.insert "morphKernel" .null ∅).insert "blurKernel" (.integer 9)

/-- The duration is a `Long` that no `int` holds. -/
def longDurationBody : Body := AList.insert "heatbarDuration" (.integer (2 ^ 32 + 1)) ∅

/-- The blur kernel is stored by a request that fails; of the duration the low bits are stored
by one that answers 200. -/
theorem settings_partly_stored :
    (updateSettings emptyFieldBody).call {} = (.error .nullPointer, { blurKernel := 9 }) ∧
      ¬ AllOrNothing updateSettings detectorSettings emptyFieldBody {} ∧
      (updateAppSettings longDurationBody).call {} = (.ok (), { heatbarDuration := 1 }) ∧
      ¬ AllOrNothing updateAppSettings appSettings longDurationBody {} := by
  refine ⟨by decide, ?_, by decide, ?_⟩
  · intro h
    cases h
  · intro h
    cases h

end WeldingServer
