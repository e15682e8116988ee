import WeldingServer.Dashboard.LiveData

/-!
# Which packet the readings are from

The four readings on the overview belong together if they are from one packet, or all still
show their placeholder.

A call writes the current first, then the voltage, the gas flow and the porosity, and may end
before, between or after them.  A packet is silent if no reading of it is shown, and complete
if all are and its time can be shown as well.  The readings belong together after every call,
and a call that throws leaves them as they were, if and only if every packet is silent or
complete (`belongTogether_iff`).
-/

namespace WeldingServer.Dashboard.LiveData

open JavaScript Transition

/-! ## The property and its condition -/

/-- The readings are from one packet, or none is shown. -/
def Page.Together (page : Page) : Prop :=
  ∃ packet : Option Text, ∀ r, (page.readings r).map Shown.packet = packet

/-- The call ends in the `catch`. -/
def Caught (js : Engine) (page : Page) : Action → Prop
  | .status raw now =>
      ∃ e, ((parseLiveData js page.glassesPaused now raw).call []).1 = .error e
  | _ => False

/-- After the action the readings belong together, and a call that ended in the `catch` has
left them as they were. -/
def BelongTogether (js : Engine) (page : Page) (a : Action) : Prop :=
  (act js page a).Together ∧ (Caught js page a → (act js page a).readings = page.readings)

/-- All readings of the packet are shown, and its time. -/
def Complete (js : Engine) (raw : Text) : Prop :=
  raw ≠ [] ∧ ∃ d, read js raw = .ok d ∧ HasAnalog js d ∧ HasPorosity d ∧ TimeReadable js d

/-- The list of channels has a `length` that cannot be compared, or is long enough and has no
current, or is not and comes without a porosity. -/
def ShowsNone (js : Engine) (d : Packet) : Prop :=
  (∃ e, longEnough js d.analog = .error e) ∨
    (longEnough js d.analog = .ok true ∧ ∃ e, channel 3 d.analog = .error e) ∨
    (longEnough js d.analog = .ok false ∧ Value.number? d.porosity = none)

/-- No reading of the packet is shown. -/
def Silent (js : Engine) (raw : Text) : Prop :=
  raw = [] ∨ (∃ e, read js raw = .error e) ∨ ∃ d, read js raw = .ok d ∧ ShowsNone js d

/-- The packet of an answer is complete or silent. -/
def Whole (js : Engine) : Action → Prop
  | .status raw _ => Complete js raw ∨ Silent js raw
  | _ => True

/-! ## The readings that are written -/

/-- The reading that is written. -/
def Effect.target : Effect → Option Reading
  | .reading r _ => some r
  | _ => none

/-- All readings that are written are from the packet. -/
def FromPacket (raw : Text) (es : List Effect) : Prop :=
  ∀ r shown, Effect.reading r shown ∈ es → shown.packet = raw

/-- The readings written, in turn. -/
def targets (es : List Effect) : List Reading := es.filterMap Effect.target

variable {js : Engine} {glassesPaused : Bool} {now : Nat} {raw : Text} {d : Packet}
  {page : Page} {es w : List Effect} {answer : Except Thrown Unit}

@[simp] theorem targets_append : targets (es ++ w) = targets es ++ targets w :=
  List.filterMap_append

theorem mem_targets_cons {e : Effect} {r : Reading} :
    r ∈ targets (e :: es) ↔ e.target = some r ∨ r ∈ targets es := by
  simp only [targets, List.mem_filterMap, List.mem_cons, exists_eq_or_imp]

theorem Page.readings_apply_reading {r : Reading} {shown : Shown} :
    (page.apply (.reading r shown)).readings = Function.update page.readings r (some shown) :=
  rfl

theorem readings_foldl_of_not_mem {r : Reading} (h : r ∉ targets es) :
    (es.foldl Page.apply page).readings r = page.readings r := by
  induction es generalizing page with
  | nil => rfl
  | cons e es ih =>
    rw [mem_targets_cons, not_or] at h
    rw [List.foldl_cons, ih h.2]
    cases e with
    | reading r' shown => exact Function.update_of_ne (fun hr => h.1 (congrArg some hr.symm)) _ _
    | _ => rfl

/-- A reading that is written shows the packet that all writes are from. -/
theorem packet_foldl_of_mem {r : Reading}
    (hes : FromPacket raw es) (h : r ∈ targets es) :
    ((es.foldl Page.apply page).readings r).map Shown.packet = some raw := by
  induction es generalizing page with
  | nil => cases h
  | cons e es ih =>
    rw [List.foldl_cons]
    by_cases hr : r ∈ targets es
    · exact ih (fun r shown hmem => hes r shown (List.mem_cons_of_mem e hmem)) hr
    · have he : e.target = some r := (mem_targets_cons.mp h).resolve_right hr
      rw [readings_foldl_of_not_mem hr]
      cases e with
      | reading r' shown =>
        obtain rfl := Option.some.inj he
        rw [Page.readings_apply_reading, Function.update_self, Option.map_some,
          hes r' shown List.mem_cons_self]
      | _ => cases he

/-! ## The readings that a call writes -/

@[simp] theorem targets_updateGlassesLive {I V G : Double} {p : Option Double} :
    targets (updateGlassesLive glassesPaused now I V G p) = [] := by
  cases glassesPaused <;> cases p <;> rfl

@[simp] theorem targets_freshWrites {t : Option Text} : targets (freshWrites now t) = [] := by
  cases t <;> rfl

/-- The porosity is written exactly if it is a number. -/
theorem mem_targets_porosityWrites (js : Engine) (raw : Text) (d : Packet) (r : Reading) :
    r ∈ targets (porosityWrites js raw d) ↔ HasPorosity d ∧ r = .porosity := by
  rw [porosityWrites, HasPorosity]
  cases Value.number? d.porosity with
  | none => simp [targets]
  | some p => simp [targets, Effect.target, eq_comm]

/-- Readings that throw nothing write current, voltage and gas flow, or none of them. -/
theorem AnalogEnds.targets_eq (h : AnalogEnds js glassesPaused now raw d (.ok ()) w) :
    targets w = if longEnough js d.analog = .ok true then [.current, .voltage, .gas] else [] := by
  obtain ⟨hlong, rfl⟩ | ⟨hlong, I, V, G, rfl⟩ := h.of_ok
  · rw [if_neg (by rw [hlong]; simp)]
    rfl
  · rw [if_pos hlong.1, targets_append, targets_updateGlassesLive]
    rfl

theorem FromPacket.append (hes : FromPacket raw es) (hw : FromPacket raw w) :
    FromPacket raw (es ++ w) := by
  intro r shown hmem
  rcases List.mem_append.mp hmem with h | h
  · exact hes r shown h
  · exact hw r shown h

theorem fromPacket_of_targets (h : targets es = []) : FromPacket raw es := by
  intro r shown hmem
  have hr : r ∈ targets es := List.mem_filterMap.mpr ⟨_, hmem, rfl⟩
  rw [h] at hr
  cases hr

theorem fromPacket_cons {r : Reading} {html : Text} (h : FromPacket raw es) :
    FromPacket raw (.reading r ⟨raw, html⟩ :: es) := by
  intro r' shown hmem
  rcases List.mem_cons.mp hmem with heq | hmem
  · cases heq
    rfl
  · exact h r' shown hmem

theorem fromPacket_porosityWrites : FromPacket raw (porosityWrites js raw d) := by
  rw [porosityWrites]
  cases Value.number? d.porosity with
  | none => exact fromPacket_of_targets rfl
  | some p => exact fromPacket_cons (fromPacket_of_targets rfl)

theorem AnalogEnds.fromPacket (h : AnalogEnds js glassesPaused now raw d answer w) :
    FromPacket raw w := by
  have hnil : FromPacket raw [] := fromPacket_of_targets rfl
  cases h with
  | short hlong => exact hnil
  | unknown hlong => exact hnil
  | noCurrent hlong hI => exact hnil
  | noVoltage hlong hI hV => exact fromPacket_cons hnil
  | noGas hlong hI hV hG => exact fromPacket_cons (fromPacket_cons hnil)
  | shown hlong hI hV hG =>
    exact fromPacket_cons (fromPacket_cons (fromPacket_cons
      (fromPacket_of_targets targets_updateGlassesLive)))

/-- All readings written are of the packet. -/
theorem Ends.fromPacket (h : Ends js glassesPaused now raw answer w) : FromPacket raw w := by
  cases h with
  | empty hraw => exact fromPacket_of_targets rfl
  | unread hraw hread => exact fromPacket_of_targets rfl
  | noAnalog hraw hread ha => exact ha.fromPacket
  | noTime hraw hread ha htime => exact ha.fromPacket.append fromPacket_porosityWrites
  | shown hraw hread ha htime =>
    exact ha.fromPacket.append
      (fromPacket_porosityWrites.append (fromPacket_of_targets targets_freshWrites))

/-! ## Complete and silent packets -/

/-- A complete packet writes all readings and throws nothing. -/
theorem Ends.of_complete (h : Ends js glassesPaused now raw answer w) (hc : Complete js raw) :
    answer = .ok () ∧ ∀ r, r ∈ targets w := by
  obtain ⟨hraw, d, hread, hanalog, hporosity, t, ht⟩ := hc
  cases h with
  | empty hempty => exact absurd hempty hraw
  | unread _ herror => cases herror.symm.trans hread
  | noAnalog _ hread' ha =>
    cases hread'.symm.trans hread
    cases ha.eq_ok (.inr hanalog)
  | noTime _ hread' ha htime =>
    cases hread'.symm.trans hread
    cases htime.symm.trans ht
  | shown _ hread' ha htime =>
    cases hread'.symm.trans hread
    refine ⟨rfl, fun r => ?_⟩
    rw [targets_append, targets_append, ha.targets_eq, if_pos hanalog.1]
    cases r with
    | porosity =>
      have hp := (mem_targets_porosityWrites js raw _ _).mpr ⟨hporosity, rfl⟩
      simp [hp]
    | _ => simp

/-- A packet that shows none of its channels writes none. -/
theorem AnalogEnds.of_showsNone (h : AnalogEnds js glassesPaused now raw d answer w)
    (hd : ShowsNone js d) :
    targets w = [] ∧ (answer = .ok () → Value.number? d.porosity = none) := by
  cases h with
  | unknown hlong => exact ⟨rfl, nofun⟩
  | noCurrent hlong hI => exact ⟨rfl, nofun⟩
  | short hlong =>
    obtain ⟨e, he⟩ | ⟨htrue, -⟩ | ⟨-, hnone⟩ := hd
    · cases hlong.symm.trans he
    · cases hlong.symm.trans htrue
    · exact ⟨rfl, fun _ => hnone⟩
  | noVoltage hlong hI hV =>
    obtain ⟨e, he⟩ | ⟨-, e, he⟩ | ⟨hfalse, -⟩ := hd
    · cases hlong.symm.trans he
    · cases hI.symm.trans he
    · cases hlong.symm.trans hfalse
  | noGas hlong hI hV hG =>
    obtain ⟨e, he⟩ | ⟨-, e, he⟩ | ⟨hfalse, -⟩ := hd
    · cases hlong.symm.trans he
    · cases hI.symm.trans he
    · cases hlong.symm.trans hfalse
  | shown hlong hI hV hG =>
    obtain ⟨e, he⟩ | ⟨-, e, he⟩ | ⟨hfalse, -⟩ := hd
    · cases hlong.symm.trans he
    · cases hI.symm.trans he
    · cases hlong.symm.trans hfalse

/-- Only a packet that shows none of its channels writes none. -/
theorem AnalogEnds.showsNone (h : AnalogEnds js glassesPaused now raw d answer w)
    (hnone : targets w = []) (hporosity : answer = .ok () → Value.number? d.porosity = none) :
    ShowsNone js d := by
  cases h with
  | short hlong => exact .inr (.inr ⟨hlong, hporosity rfl⟩)
  | unknown hlong => exact .inl ⟨_, hlong⟩
  | noCurrent hlong hI => exact .inr (.inl ⟨hlong, _, hI⟩)
  | noVoltage hlong hI hV => cases hnone
  | noGas hlong hI hV hG => cases hnone
  | shown hlong hI hV hG => cases hnone

theorem targets_porosityWrites_eq_nil_iff :
    targets (porosityWrites js raw d) = [] ↔ Value.number? d.porosity = none := by
  rw [porosityWrites]
  cases Value.number? d.porosity with
  | none => exact iff_of_true rfl rfl
  | some p => exact iff_of_false (List.cons_ne_nil _ _) (Option.some_ne_none p)

/-- A silent packet writes no reading. -/
theorem Ends.of_silent (h : Ends js glassesPaused now raw answer w) (hs : Silent js raw) :
    targets w = [] := by
  have hpacket {d} (hraw : raw ≠ []) (hread : read js raw = .ok d) : ShowsNone js d := by
    obtain hempty | ⟨e, he⟩ | ⟨d', hread', hd⟩ := hs
    · exact absurd hempty hraw
    · cases hread.symm.trans he
    · cases hread'.symm.trans hread
      exact hd
  cases h with
  | empty hempty => rfl
  | unread _ herror => rfl
  | noAnalog hraw hread ha => exact (ha.of_showsNone (hpacket hraw hread)).1
  | noTime hraw hread ha htime =>
    obtain ⟨hw, hporosity⟩ := ha.of_showsNone (hpacket hraw hread)
    rw [targets_append, hw, targets_porosityWrites_eq_nil_iff.mpr (hporosity rfl)]
    rfl
  | shown hraw hread ha htime =>
    obtain ⟨hw, hporosity⟩ := ha.of_showsNone (hpacket hraw hread)
    rw [targets_append, targets_append, hw,
      targets_porosityWrites_eq_nil_iff.mpr (hporosity rfl), targets_freshWrites]
    rfl

/-- Only a complete packet writes all readings and throws nothing. -/
theorem Ends.complete (h : Ends js glassesPaused now raw answer w) (hanswer : answer = .ok ())
    (hall : ∀ r, r ∈ targets w) : Complete js raw := by
  cases h with
  | empty hempty => cases hall .current
  | shown hraw hread ha htime =>
    refine ⟨hraw, _, hread, ?_, ?_, _, htime⟩
    · obtain ⟨hfalse, rfl⟩ | ⟨hanalog, -⟩ := ha.of_ok
      · have hcurrent := hall .current
        simp [mem_targets_porosityWrites] at hcurrent
      · exact hanalog
    · have hporosity := hall .porosity
      rw [targets_append, targets_append, ha.targets_eq] at hporosity
      split at hporosity <;> simpa [mem_targets_porosityWrites] using hporosity
  | unread _ _ => cases hanswer
  | noAnalog _ _ _ => cases hanswer
  | noTime _ _ _ _ => cases hanswer

/-- Only a silent packet writes no reading. -/
theorem Ends.silent (h : Ends js glassesPaused now raw answer w) (hnone : targets w = []) :
    Silent js raw := by
  cases h with
  | empty hempty => exact .inl hempty
  | unread _ herror => exact .inr (.inl ⟨_, herror⟩)
  | noAnalog _ hread ha => exact .inr (.inr ⟨_, hread, ha.showsNone hnone nofun⟩)
  | noTime _ hread ha htime =>
    rw [targets_append, List.append_eq_nil_iff, targets_porosityWrites_eq_nil_iff] at hnone
    exact .inr (.inr ⟨_, hread, ha.showsNone hnone.1 fun _ => hnone.2⟩)
  | shown _ hread ha htime =>
    rw [targets_append, targets_append, List.append_eq_nil_iff, List.append_eq_nil_iff,
      targets_porosityWrites_eq_nil_iff] at hnone
    exact .inr (.inr ⟨_, hread, ha.showsNone hnone.1 fun _ => hnone.2.1⟩)

/-! ## Steps -/

/-- The readings belong together, and their packet is complete. -/
def Page.Good (js : Engine) (page : Page) : Prop :=
  page.Together ∧ ∀ r shown, page.readings r = some shown → Complete js shown.packet

variable {a : Action} {hbHistory : List Sample} {tr : Trace Page Action} {s : Page}

/-- What a packet does to the readings. -/
theorem readings_status (js : Engine) (page : Page) (raw : Text) (now : Nat) :
    ∃ answer w, Ends js page.glassesPaused now raw answer w ∧
      (Caught js page (.status raw now) ↔ answer ≠ .ok ()) ∧
      (∀ r ∉ targets w, (act js page (.status raw now)).readings r = page.readings r) ∧
      ∀ r ∈ targets w,
        ((act js page (.status raw now)).readings r).map Shown.packet = some raw := by
  obtain ⟨answer, w, hends, hcall⟩ := parseLiveData_ends js page.glassesPaused now raw
  have hwrites : writes js page (.status raw now) = w := congrArg Prod.snd hcall
  refine ⟨answer, w, hends, ?_, ?_, ?_⟩
  · rw [Caught, hcall]
    cases answer with
    | ok u => simp
    | error e => simp
  · intro r hr
    rw [act, hwrites]
    exact readings_foldl_of_not_mem hr
  · intro r hr
    rw [act, hwrites]
    exact packet_foldl_of_mem hends.fromPacket hr

/-- An action that is no answer leaves the readings. -/
theorem readings_act (h : ∀ raw now, a ≠ .status raw now) :
    (act js page a).readings = page.readings := by
  cases a with
  | status raw now => exact absurd rfl (h raw now)
  | setPaused b => rfl
  | tick now I V G p =>
    funext r
    rw [act, writes]
    refine readings_foldl_of_not_mem ?_
    split
    next => exact List.not_mem_nil
    next => rw [targets_updateGlassesLive]; exact List.not_mem_nil

/-- A silent packet leaves all readings as they are. -/
theorem readings_of_silent (page : Page) (now : Nat) (hs : Silent js raw) :
    (act js page (.status raw now)).readings = page.readings := by
  obtain ⟨answer, w, hends, -, hother, -⟩ := readings_status js page raw now
  funext r
  refine hother r ?_
  rw [hends.of_silent hs]
  exact List.not_mem_nil

/-- After a complete packet all readings are of it. -/
theorem packet_of_complete (page : Page) (now : Nat) (hc : Complete js raw) (r : Reading) :
    ((act js page (.status raw now)).readings r).map Shown.packet = some raw := by
  obtain ⟨answer, w, hends, -, -, hmine⟩ := readings_status js page raw now
  exact hmine r ((hends.of_complete hc).2 r)

theorem Page.Good.of_readings_eq (h : page.Good js) {page' : Page}
    (heq : page'.readings = page.readings) : page'.Good js := by
  rw [Good, Together, heq]
  exact h

/-- The readings belong together after a step from a good page exactly if the packet is
complete or silent. -/
theorem belongTogether_iff_whole (hgood : page.Good js) :
    BelongTogether js page a ↔ Whole js a := by
  cases a with
  | setPaused b => exact iff_of_true ⟨hgood.1, fun _ => rfl⟩ trivial
  | tick now I V G p =>
    have heq : (act js page (.tick now I V G p)).readings = page.readings :=
      readings_act fun _ _ h => by cases h
    exact iff_of_true ⟨(hgood.of_readings_eq heq).1, fun _ => heq⟩ trivial
  | status raw now =>
    obtain ⟨answer, w, hends, hcaught, hother, hmine⟩ := readings_status js page raw now
    constructor
    · rintro ⟨⟨packet, htogether⟩, hkept⟩
      by_cases hnone : targets w = []
      · exact .inr (hends.silent hnone)
      · left
        -- a packet that was on the page before is complete
        have hbefore {r} (h : (page.readings r).map Shown.packet = some raw) :
            Complete js raw := by
          obtain ⟨shown, hshown, rfl⟩ := Option.map_eq_some_iff.mp h
          exact hgood.2 r shown hshown
        obtain ⟨r₀, hr₀⟩ := List.exists_mem_of_ne_nil _ hnone
        have hraw (r) :
            ((act js page (.status raw now)).readings r).map Shown.packet = some raw :=
          (htogether r).trans ((htogether r₀).symm.trans (hmine r₀ hr₀))
        by_cases hanswer : answer = .ok ()
        · by_cases hall : ∀ r, r ∈ targets w
          · exact hends.complete hanswer hall
          · obtain ⟨r, hr⟩ := not_forall.mp hall
            exact hbefore (hother r hr ▸ hraw r)
        · exact hbefore (hkept (hcaught.mpr hanswer) ▸ hraw r₀)
    · rintro (hc | hs)
      · refine ⟨⟨some raw, packet_of_complete page now hc⟩, fun h => ?_⟩
        exact absurd (hends.of_complete hc).1 (hcaught.mp h)
      · have heq := readings_of_silent page now hs
        exact ⟨(hgood.of_readings_eq heq).1, fun _ => heq⟩

/-- An action that shows a packet whole or not at all keeps the page good. -/
theorem Page.Good.act (hgood : page.Good js) (h : Whole js a) : (act js page a).Good js := by
  cases a with
  | setPaused b => exact hgood.of_readings_eq rfl
  | tick now I V G p => exact hgood.of_readings_eq (readings_act fun _ _ h => by cases h)
  | status raw now =>
    rcases h with hc | hs
    · refine ⟨⟨some raw, packet_of_complete page now hc⟩, fun r shown hshown => ?_⟩
      have hraw := packet_of_complete page now hc r
      rw [hshown, Option.map_some, Option.some.injEq] at hraw
      rw [hraw]
      exact hc
    · exact hgood.of_readings_eq (readings_of_silent page now hs)

/-- The page as it is loaded, with the entries that `seedHeatbar` makes. -/
theorem good_loaded (js : Engine) (hbHistory : List Sample) :
    ({ hbHistory } : Page).Good js :=
  ⟨⟨none, fun _ => rfl⟩, fun _ _ h => by cases h⟩

/-! ## Runs -/

/-- The readings belong together after every action, and a call that throws leaves them as
they were, exactly if every packet is complete or silent. -/
theorem belongTogether_iff (hr : Run (step js) { hbHistory } tr s) :
    Along (fun _ page a => BelongTogether js page a) tr ↔
      Along (fun _ _ a => Whole js a) tr := by
  refine Run.along_iff (I := Page.Good js) (good_loaded js hbHistory) ?_ ?_ hr
  · intro tr page a hgood
    exact belongTogether_iff_whole hgood
  · intro tr page a page' hgood hwhole hs
    obtain rfl := Option.some.inj hs
    exact hgood.act hwhole

/-- A packet with a porosity, and then an answer that is no JSON. -/
theorem belongTogether_iff_two :
    ∃ tr s, Run (step (engineFor porosityPacket porosityValue)) { hbHistory := [] } tr s ∧
      tr.map Prod.snd = [.status (text "<html>") 2000, .status (text porosityPacket) 0] ∧
      Along (fun _ page a =>
        BelongTogether (engineFor porosityPacket porosityValue) page a) tr := by
  refine ⟨_, _, .snoc (.snoc .nil rfl) rfl, rfl, ?_⟩
  refine (belongTogether_iff (.snoc (.snoc .nil rfl) rfl)).mpr ⟨?_, ?_, trivial⟩
  · exact .inr (.inr (.inl ⟨_, read_engineFor_of_ne (by decide +kernel)⟩))
  · have hread := read_engineFor porosityPacket porosityValue
    exact .inl ⟨by decide +kernel, _, hread, ⟨rfl, ⟨_, rfl⟩, ⟨_, rfl⟩, ⟨_, rfl⟩⟩, ⟨_, rfl⟩, _, rfl⟩

/-- A packet whose fifth channel is null. -/
def nullPacket : String :=
  "\x7b\"analog_rms_per_channel\":[8.5,8.75,9,160,null,15],\"prediction_porosity\":0.5\x7d"

/-- A packet in which the channel of the voltage is `null`. -/
def nullValue : Value :=
  .object [(text "analog_rms_per_channel",
      .array ([8.5, 8.75, 9, 160].map (fun v => .number (.finite v)) ++
        [.null, .number (.finite 15)])),
    (text "prediction_porosity", .number (.finite 0.5))]

/-- An engine that can parse the two packets. -/
def twoPacketEngine : Engine :=
  { engineFor nullPacket nullValue with
    parse := fun raw =>
      if raw = text nullPacket then some nullValue
      else if raw = text documentedPacket then some documentedValue
      else none }

/-- A packet in the documented format has no porosity: its current is shown next to the
placeholder of the porosity.  The call for a packet with a null channel ends in the `catch`,
with the current of this packet next to the voltage of the one before. -/
theorem documentedThenNull_apart :
    ∃ page tr s, Run (step twoPacketEngine) { hbHistory := [] } tr s ∧
      tr = [(page, .status (text nullPacket) 2000),
        ({ hbHistory := [] }, .status (text documentedPacket) 0)] ∧
      (page.readings .current).map Shown.packet = some (text documentedPacket) ∧
      page.readings .porosity = none ∧
      Caught twoPacketEngine page (.status (text nullPacket) 2000) ∧
      (s.readings .current).map Shown.packet = some (text nullPacket) ∧
      (s.readings .voltage).map Shown.packet = some (text documentedPacket) ∧
      ¬ Along (fun _ page a => BelongTogether twoPacketEngine page a) tr := by
  let page := act twoPacketEngine { hbHistory := [] } (.status (text documentedPacket) 0)
  let last := act twoPacketEngine page (.status (text nullPacket) 2000)
  have hcurrent : (page.readings .current).map Shown.packet = some (text documentedPacket) := by
    decide +kernel
  have hporosity : page.readings .porosity = none := by decide +kernel
  have hcaught : Caught twoPacketEngine page (.status (text nullPacket) 2000) :=
    ⟨.typeError, by decide +kernel⟩
  have hnew : (last.readings .current).map Shown.packet = some (text nullPacket) := by
    decide +kernel
  have hold : (last.readings .voltage).map Shown.packet = some (text documentedPacket) := by
    decide +kernel
  refine ⟨page, _, last, .snoc (.single rfl) rfl, rfl, hcurrent, hporosity, hcaught, hnew, hold, ?_⟩
  rintro ⟨-, ⟨⟨packet, htogether⟩, -⟩, -⟩
  have h := (htogether .current).trans (htogether .porosity).symm
  rw [hcurrent, hporosity] at h
  cases h

end WeldingServer.Dashboard.LiveData
