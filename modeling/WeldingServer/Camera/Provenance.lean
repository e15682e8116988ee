import WeldingServer.Camera.Freshness

/-!
# Where a picture comes from

A message is recorded only if its call finds the camera switched on.  Between the arrival
of the message, the reading of the flag and the writing of the file anything may happen,
the camera may be switched off and on again, and the detector and ffmpeg carry pictures
on to other places.

`arrived` are the messages as they came in, and `checked` is what each call read of the flag.
A call reads the flag once, while its frame is in no place yet (`Admission`).  So whatever
is held anywhere, or part of a video, was received as it is and let in, or was there when
the server started (`recorded_of_admitted`).
-/

namespace WeldingServer

open Transition

/-! ## Messages and flags -/

/-- The message that arrives in the step. -/
def arrivedBy (s : State) : Action → List Frame
  | .call (.receive _ bytes) => [⟨s.received, bytes⟩]
  | _ => []

/-- What a call reads of the camera flag in the step. -/
def checkedBy (s : State) : Action → List (Nat × Bool)
  | .call (.checkCamera c) => [(c, s.cameraEnabled)]
  | _ => []

/-- All messages received. -/
def arrived : History → List Frame := observed arrivedBy

/-- What each call has read of the camera flag. -/
def checked : History → List (Nat × Bool) := observed checkedBy

/-- The frame was received as it is, and its call found the camera switched on. -/
structure Admitted (tr : History) (f : Frame) : Prop where
  arrived : f ∈ arrived tr
  enabled : (f.serial, true) ∈ checked tr
  once : (f.serial, false) ∉ checked tr

variable {tr : History} {s s' s₀ : State} {a : Action} {f : Frame}

theorem arrived_cons : arrived ((s, a) :: tr) = arrived tr ++ arrivedBy s a := rfl

theorem checked_cons : checked ((s, a) :: tr) = checked tr ++ checkedBy s a := rfl

/-- A step that does not read the flag for the frame's call. -/
theorem Admitted.cons (h : Admitted tr f) (ha : (f.serial, false) ∉ checkedBy s a) :
    Admitted ((s, a) :: tr) f where
  arrived := List.mem_append_left _ h.arrived
  enabled := List.mem_append_left _ h.enabled
  once hf := (List.mem_append.mp hf).elim h.once ha

/-! ## Calls -/

/-- What is known of the messages: each call in progress is that of a message received, it has
read the flag exactly if it is past that point, and no flag was read for a message to come. -/
structure Admission (tr : History) (s : State) : Prop where
  arrived : ∀ {c call}, s.calls.lookup c = some call → ⟨c, call.bytes⟩ ∈ arrived tr
  unread : ∀ {c bytes}, s.calls.lookup c = some ⟨bytes, .stamped⟩ → ∀ b, (c, b) ∉ checked tr
  admitted : ∀ {c call}, s.calls.lookup c = some call → call.point ≠ .stamped →
    Admitted tr ⟨c, call.bytes⟩
  checked_lt : ∀ {c b}, (c, b) ∈ checked tr → c < s.received

/-- A step that neither receives a message nor reads a flag, and that carries calls on past
that point only. -/
theorem Admission.congr (hi : Admission tr s) (ha : arrivedBy s a = []) (hc : checkedBy s a = [])
    (hr : s'.received = s.received)
    (hcalls : ∀ {c call'}, s'.calls.lookup c = some call' → ∃ call, s.calls.lookup c = some call ∧
      call.bytes = call'.bytes ∧ (call = call' ∨ call.point ≠ .stamped ∧ call'.point ≠ .stamped)) :
    Admission ((s, a) :: tr) s' := by
  have harr : WeldingServer.arrived ((s, a) :: tr) = WeldingServer.arrived tr := by
    rw [arrived_cons, ha, List.append_nil]
  have hchk : checked ((s, a) :: tr) = checked tr := by
    rw [checked_cons, hc, List.append_nil]
  refine ⟨fun hl => ?_, fun hl b hb => ?_, fun {c call'} hl hp => ?_, fun hb => ?_⟩
  · obtain ⟨call, hcall, hbytes, -⟩ := hcalls hl
    rw [harr, ← hbytes]
    exact hi.arrived hcall
  · rw [hchk] at hb
    obtain ⟨call, hcall, -, rfl | ⟨-, hne⟩⟩ := hcalls hl
    · exact hi.unread hcall b hb
    · exact hne rfl
  · obtain ⟨call, hcall, hbytes, heq⟩ := hcalls hl
    have hpoint : call.point ≠ .stamped := by
      rcases heq with rfl | ⟨hne, -⟩
      · exact hp
      · exact hne
    refine (hbytes ▸ hi.admitted hcall hpoint).cons ?_
    rw [hc]
    exact List.not_mem_nil
  · rw [hchk] at hb
    rw [hr]
    exact hi.checked_lt hb

/-- The call of a new message has read no flag. -/
theorem Admission.receive {session : Nat} {bytes : List UInt8} (hi : Admission tr s)
    (h : s.receive session bytes = some s') :
    Admission ((s, .call (.receive session bytes)) :: tr) s' := by
  obtain ⟨-, rfl⟩ := State.receive_eq_some.mp h
  have hchk : checked ((s, .call (.receive session bytes)) :: tr) = checked tr :=
    List.append_nil _
  refine ⟨fun {c call} hl => ?_, fun {c _} hl b hb => ?_, fun {c call} hl hp => ?_,
    fun hb => ?_⟩
  · rcases Table.lookup_insert_eq_some.mp hl with ⟨rfl, rfl⟩ | ⟨-, hl⟩
    · exact List.mem_append_right _ (List.mem_singleton_self _)
    · exact List.mem_append_left _ (hi.arrived hl)
  · rw [hchk] at hb
    rcases Table.lookup_insert_eq_some.mp hl with ⟨rfl, -⟩ | ⟨-, hl⟩
    · exact Nat.lt_irrefl _ (hi.checked_lt hb)
    · exact hi.unread hl b hb
  · rcases Table.lookup_insert_eq_some.mp hl with ⟨-, rfl⟩ | ⟨-, hl⟩
    · exact absurd rfl hp
    · exact (hi.admitted hl hp).cons List.not_mem_nil
  · rw [hchk] at hb
    exact Nat.lt_succ_of_lt (hi.checked_lt hb)

/-- Reading the flag changes the entry of its call only. -/
theorem lookup_checkCamera {c d : Nat} {bytes : List UInt8} {call : Call}
    (hl : AList.lookup d (if s.cameraEnabled then s.calls.insert c ⟨bytes, .enabled⟩
      else s.calls.erase c) = some call) :
    d ≠ c ∧ s.calls.lookup d = some call ∨
      d = c ∧ call = ⟨bytes, .enabled⟩ ∧ s.cameraEnabled = true := by
  split at hl
  next hon =>
    rcases Table.lookup_insert_eq_some.mp hl with ⟨hd, rfl⟩ | ⟨hd, hl⟩
    · exact Or.inr ⟨hd, rfl, hon⟩
    · exact Or.inl ⟨hd, hl⟩
  next => exact Or.inl (Table.lookup_erase_eq_some.mp hl)

/-- A call that goes on past the check is admitted. -/
theorem Admission.checkCamera {c : Nat} (hs : s.Consistent) (hi : Admission tr s)
    (h : s.checkCamera c = some s') : Admission ((s, .call (.checkCamera c)) :: tr) s' := by
  obtain ⟨bytes, hc, rfl⟩ := State.checkCamera_eq_some.mp h
  have hchk : checked ((s, .call (.checkCamera c)) :: tr) =
      checked tr ++ [(c, s.cameraEnabled)] := rfl
  have harr : WeldingServer.arrived ((s, .call (.checkCamera c)) :: tr) =
      WeldingServer.arrived tr := List.append_nil _
  have hin : ⟨c, bytes⟩ ∈ WeldingServer.arrived tr := hi.arrived hc
  refine ⟨fun {d call} hl => ?_, fun {d _} hl b hb => ?_, fun {d call} hl hp => ?_,
    fun {d _} hb => ?_⟩
  · rw [harr]
    rcases lookup_checkCamera hl with ⟨-, hl⟩ | ⟨rfl, rfl, -⟩
    · exact hi.arrived hl
    · exact hin
  · rcases lookup_checkCamera hl with ⟨hd, hl⟩ | ⟨-, hcall, -⟩
    · rw [hchk, List.mem_append, List.mem_singleton, Prod.mk.injEq] at hb
      rcases hb with hb | ⟨he, -⟩
      · exact hi.unread hl b hb
      · exact hd he
    · cases hcall
  · rcases lookup_checkCamera hl with ⟨hd, hl⟩ | ⟨rfl, rfl, hon⟩
    · refine (hi.admitted hl hp).cons fun hb => hd ?_
      exact congrArg Prod.fst (List.mem_singleton.mp hb)
    · refine ⟨harr ▸ hin, ?_, fun hb => ?_⟩
      · rw [hchk, hon]
        exact List.mem_append_right _ (List.mem_singleton_self _)
      · rw [hchk, hon, List.mem_append, List.mem_singleton, Prod.mk.injEq] at hb
        rcases hb with hb | ⟨-, hb⟩
        · exact hi.unread hc false hb
        · cases hb
  · rw [hchk, List.mem_append, List.mem_singleton, Prod.mk.injEq] at hb
    rcases hb with hb | ⟨rfl, -⟩
    · exact hi.checked_lt hb
    · exact hs.calls_lt (Table.mem_of_lookup_eq_some hc)

theorem Admission.callStep {a : CallAction} (hs : s.Consistent) (hi : Admission tr s)
    (h : callStep s a = some s') : Admission ((s, .call a) :: tr) s' := by
  cases a with
  | receive session bytes => exact hi.receive h
  | checkCamera c => exact hi.checkCamera hs h
  | getAndIncrement c =>
      obtain ⟨bytes, hc, -, rfl⟩ := State.getAndIncrement_eq_some.mp h
      refine hi.congr rfl rfl rfl fun {d call'} hl => ?_
      rcases Table.lookup_insert_eq_some.mp hl with ⟨rfl, rfl⟩ | ⟨-, hl⟩
      · exact ⟨_, hc, rfl, Or.inr ⟨CallPoint.noConfusion, CallPoint.noConfusion⟩⟩
      · exact ⟨call', hl, rfl, Or.inl rfl⟩
  | write c written =>
      obtain ⟨bytes, n, hc, rfl⟩ := State.write_eq_some.mp h
      exact hi.congr rfl rfl rfl fun {d call'} hl =>
        ⟨call', Table.lookup_of_lookup_erase hl, rfl, Or.inl rfl⟩

/-- Every step keeps what is known of the calls in progress. -/
theorem Admission.step (hs : s.Consistent) (hi : Admission tr s) (h : step s a = some s') :
    Admission ((s, a) :: tr) s' := by
  cases a with
  | session a =>
      have hf := sessionStep_frame h
      exact hi.congr rfl rfl hf.received fun {_ call'} hl =>
        ⟨call', hf.calls ▸ hl, rfl, Or.inl rfl⟩
  | call a => exact hi.callStep hs h
  | stitch a =>
      have hf := stitchStep_frame h
      exact hi.congr rfl rfl hf.received fun {_ call'} hl =>
        ⟨call', hf.calls ▸ hl, rfl, Or.inl rfl⟩
  | detector a =>
      have hf := detectorStep_frame h
      exact hi.congr rfl rfl hf.received fun {_ call'} hl =>
        ⟨call', hf.calls ▸ hl, rfl, Or.inl rfl⟩

/-- In every run each call in progress has come through what it has passed. -/
theorem Admission.run (h₀ : s₀.Booted) (hr : Run WeldingServer.step s₀ tr s) :
    Admission tr s := by
  refine hr.invariant' (I := Admission) ⟨fun {c call} hl => ?_, fun _ _ hb => ?_,
    fun {c call} hl => ?_, fun hb => ?_⟩ fun hr hi h => hi.step (h₀.consistent.run hr) h
  · rw [h₀.eq] at hl
    cases hl
  · cases hb
  · rw [h₀.eq] at hl
    cases hl
  · cases hb

/-! ## Frames -/

/-- A frame that gets a number was admitted. -/
theorem acceptedBy_admitted (hi : Admission tr s) (h : step s a = some s')
    (hf : f ∈ acceptedBy s a) : Admitted ((s, a) :: tr) f := by
  unfold acceptedBy at hf
  split at hf
  next c =>
    obtain ⟨bytes, hc, -⟩ := State.getAndIncrement_eq_some.mp h
    rw [State.frameOf_eq hc, List.mem_singleton] at hf
    subst hf
    exact (hi.admitted hc CallPoint.noConfusion).cons List.not_mem_nil
  next => cases hf

/-- A frame that was let in stays so: its call never reads the flag again. -/
theorem Admitted.step (hf : Admitted tr f) (hi : Admission tr s) (h : step s a = some s') :
    Admitted ((s, a) :: tr) f := by
  refine hf.cons fun hb => ?_
  unfold checkedBy at hb
  split at hb
  next c =>
    obtain ⟨bytes, hc, -⟩ := State.checkCamera_eq_some.mp h
    obtain ⟨rfl, -⟩ := Prod.mk.inj (List.mem_singleton.mp hb)
    exact hi.unread hc true hf.enabled
  next => cases hb

/-- Each frame that is anywhere was there at the start or was admitted. -/
theorem holds_run (h₀ : s₀.Booted) (hr : Run step s₀ tr s) :
    ∀ f, s.Holds f → s₀.Holds f ∨ Admitted tr f := by
  refine hr.invariant' (I := fun tr s => ∀ f, s.Holds f → s₀.Holds f ∨ Admitted tr f)
    (fun f hf => Or.inl hf) fun hr hi h f hf => ?_
  have hadm := Admission.run h₀ hr
  rcases holds_step (h₀.consistent.run hr) h hf with hf | hf
  · exact (hi f hf).imp_right fun hf => hf.step hadm h
  · exact Or.inr (acceptedBy_admitted hadm h hf)

/-- The pictures of a video that is completed in the step. -/
theorem holds_of_outputBy {l : List Frame} (hl : l ∈ outputBy s a) (hf : f ∈ l) : s.Holds f := by
  obtain ⟨r, hr, rfl⟩ := exists_running_of_mem_outputBy hl
  exact .input r hr hf

/-- Whatever is held anywhere, or was part of any video, was received as it is by a call that
found the camera switched on, unless it was there from the start. -/
theorem recorded_of_admitted (h₀ : s₀.Booted) (hr : Run step s₀ tr s) (f : Frame)
    (hf : s.Holds f ∨ ∃ l ∈ outputs tr, f ∈ l) : s₀.Holds f ∨ Admitted tr f := by
  rcases hf with hf | ⟨l, hl, hf⟩
  · exact holds_run h₀ hr f hf
  · refine hr.invariant' (I := fun tr _ => l ∈ outputs tr → s₀.Holds f ∨ Admitted tr f)
      (fun hl => (by cases hl)) (fun {tr s a s'} hr hi h hl => ?_) hl
    have hadm := Admission.run h₀ hr
    rcases List.mem_append.mp (show l ∈ outputs tr ++ outputBy s a from hl) with hl | hl
    · exact (hi hl).imp_right fun hf => hf.step hadm h
    · exact (holds_run h₀ hr f (holds_of_outputBy hl hf)).imp_right fun hf => hf.step hadm h

/-- The camera is switched off between two messages, the second of which is dropped. -/
def switchedOffRun : List Action :=
  [.session .toggleCamera, .session (.connect 1)] ++ handleMessage 1 0 [1] ++
    [.session .toggleCamera, .call (.receive 1 [2]), .call (.checkCamera 1),
      .session (.close 1), .session (.advance 5000)] ++ startStitch ++ [.stitch (.ffmpegExits 0)]

/-- The message that arrives while the camera is off is dropped. -/
theorem recorded_of_admitted_switchedOff :
    ∃ tr s, Run step (.boot 0 ∅ ∅ ∅ 0) tr s ∧ actions tr = switchedOffRun ∧
      outputs tr = [[⟨0, [1]⟩]] ∧ arrived tr = [⟨0, [1]⟩, ⟨1, [2]⟩] ∧ Admitted tr ⟨0, [1]⟩ ∧
      ¬ Admitted tr ⟨1, [2]⟩ := by
  obtain ⟨tr, s, hr, ha, hout, harr, hoff⟩ :=
    exists_run_of_exec step (.boot 0 ∅ ∅ ∅ 0) switchedOffRun
      (p := fun tr _ => outputs tr = [[⟨0, [1]⟩]] ∧ arrived tr = [⟨0, [1]⟩, ⟨1, [2]⟩] ∧
        (1, false) ∈ checked tr) (by decide +kernel)
  refine ⟨tr, s, hr, ha, hout, harr, ?_, fun h => h.once hoff⟩
  have hmem : [⟨0, [1]⟩] ∈ outputs tr := hout ▸ List.mem_singleton_self _
  refine (recorded_of_admitted (State.booted_boot_empty 0 ∅ ∅ 0) hr ⟨0, [1]⟩
    (Or.inr ⟨_, hmem, List.mem_singleton_self _⟩)).resolve_left ?_
  exact State.not_holds_boot 0 0 ∅ _

end WeldingServer
