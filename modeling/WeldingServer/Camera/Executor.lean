import WeldingServer.Camera.Scheduling

/-!
# What becomes of stitch tasks

The executor's thread runs one task after the other.  A task is submitted by a close or by
the idle check, it may be withdrawn by a reconnect while it waits, and else it begins once,
when it is due (`tasks_accounted`).

A stitch deletes the files of two listings one by one.  The listings are made once, so the
stitch ends however many frames arrive meanwhile: the steps of the executor's thread are
bounded by the tasks submitted and the files listed, and the thread is never stuck
(`executor_comes_to_rest`).
-/

namespace WeldingServer

open Transition

/-! ## Tasks -/

/-- The task that is submitted in the step: a close with frames counted asks for a stitch after
the delay, and the idle check for one at once if none is pending and no message has come for
long enough. -/
def submittedBy (s : State) : Action → List Task
  | .session (.close _) =>
      if s.frameCounter = 0 then [] else [⟨s.nextTask, s.clock + stitchDelayMs⟩]
  | .session .stitchOnIdle =>
      if s.frameCounter ≠ 0 ∧ s.stitchPending = false ∧ idleStitchMs ≤ s.clock - s.lastFrameMs
      then [⟨s.nextTask, s.clock⟩] else []
  | _ => []

/-- The waiting task that is withdrawn in the step: a connect cancels the pending one. -/
def withdrawnBy (s : State) : Action → List Task
  | .session (.connect _) => s.queue.filter fun t => s.pendingStitch = some t.id
  | _ => []

/-- The task whose body begins to run in the step. -/
def begunBy (s : State) (a : Action) : List Task := (begunTask s a).toList

/-- The tasks submitted so far. -/
def submitted : History → List Task := observed submittedBy

/-- The tasks cancelled before they began. -/
def withdrawn : History → List Task := observed withdrawnBy

/-- The tasks that have begun. -/
def begun : History → List Task := observed begunBy

variable {tr : History} {s s' s₀ : State}

/-- What a step does to the queue. -/
structure QueueEffect (s s' : State) (a : Action) : Prop where
  moves : (s.queue ++ submittedBy s a).Perm (begunBy s a ++ (s'.queue ++ withdrawnBy s a))
  nextTask : s'.nextTask = s.nextTask + (submittedBy s a).length
  numbers : (submittedBy s a).map Task.id = List.range' s.nextTask (submittedBy s a).length

/-- A step that leaves the queue as it is. -/
theorem QueueEffect.silent {a : Action} (hs : submittedBy s a = []) (hw : withdrawnBy s a = [])
    (hb : begunBy s a = []) (hq : s'.queue = s.queue) (hn : s'.nextTask = s.nextTask) :
    QueueEffect s s' a where
  moves := by rw [hs, hw, hb, hq, List.append_nil, List.nil_append]
  nextTask := by rw [hs, hn, List.length_nil, Nat.add_zero]
  numbers := by rw [hs]; rfl

/-- A step that submits one task. -/
theorem QueueEffect.schedules {a : Action} {due : Nat}
    (hs : submittedBy s a = [⟨s.nextTask, due⟩]) (hw : withdrawnBy s a = [])
    (hb : begunBy s a = []) (hq : s'.queue = s.queue ++ [⟨s.nextTask, due⟩])
    (hn : s'.nextTask = s.nextTask + 1) : QueueEffect s s' a where
  moves := by rw [hs, hw, hb, hq, List.append_nil, List.nil_append]
  nextTask := by rw [hs, hn, List.length_singleton]
  numbers := by rw [hs]; rfl

/-- A connection takes the pending stitch from the queue and nothing else. -/
theorem queue_afterConnectionEstablished (s : State) :
    s.afterConnectionEstablished.queue =
      s.queue.filter fun t => ¬ s.pendingStitch = some t.id := by
  cases hp : s.pendingStitch with
  | none =>
      rw [State.afterConnectionEstablished, hp]
      exact (List.filter_eq_self.mpr fun t _ => by simp).symm
  | some task =>
      cases hdone : s.isDone task with
      | true =>
          -- A task that is done is not in the queue.
          have hnot : ∀ t ∈ s.queue, t.id ≠ task := by
            intro t ht he
            rw [State.isDone, Bool.and_eq_true, Bool.not_eq_true', List.any_eq_false] at hdone
            exact hdone.1 t ht (beq_iff_eq.mpr he)
          rw [State.afterConnectionEstablished, hp]
          simp only [hdone, if_true]
          refine (List.filter_eq_self.mpr fun t ht => ?_).symm
          rw [decide_eq_true_eq, Option.some.injEq]
          exact fun he => hnot t ht he.symm
      | false =>
          rw [State.afterConnectionEstablished_of_pending hp hdone, State.cancel]
          refine List.filter_congr fun t _ => ?_
          rw [Bool.eq_iff_iff, bne_iff_ne, decide_eq_true_eq, Option.some.injEq]
          exact ⟨fun hne he => hne he.symm, fun hne he => hne he.symm⟩

theorem nextTask_afterConnectionEstablished (s : State) :
    s.afterConnectionEstablished.nextTask = s.nextTask := by
  rw [State.afterConnectionEstablished]
  split
  · split <;> rfl
  · rfl

/-- The idle check submits a stitch when there are frames, none is pending and the last one is
old. -/
theorem stitchOnIdle_eq (s : State) :
    s.stitchOnIdle =
      if s.frameCounter ≠ 0 ∧ s.stitchPending = false ∧ idleStitchMs ≤ s.clock - s.lastFrameMs
      then s.schedule 0 else s := by
  rw [State.stitchOnIdle]
  by_cases hc : s.frameCounter = 0
  · rw [if_pos hc, if_neg fun h => h.1 hc]
  · rw [if_neg hc]
    cases hp : s.stitchPending with
    | true => rw [if_pos rfl, if_neg fun h => Bool.noConfusion h.2.1]
    | false =>
        rw [if_neg Bool.false_ne_true]
        by_cases hl : s.clock - s.lastFrameMs < idleStitchMs
        · rw [if_pos hl, if_neg fun h => Nat.not_lt_of_le h.2.2 hl]
        · rw [if_neg hl, if_pos ⟨hc, rfl, Nat.le_of_not_lt hl⟩]

theorem sessionStep_queueEffect {a : SessionAction} (h : sessionStep s a = some s') :
    QueueEffect s s' (.session a) := by
  cases a with
  | connect session =>
      obtain ⟨-, rfl⟩ := State.connect_eq_some.mp h
      refine ⟨?_, ?_, rfl⟩
      · rw [queue_afterConnectionEstablished]
        show (s.queue ++ []).Perm ([] ++ _)
        rw [List.append_nil, List.nil_append]
        refine (List.filter_append_perm (fun t => decide (s.pendingStitch = some t.id))
          s.queue).symm.trans (List.perm_append_comm.trans ?_)
        refine List.Perm.append_right _ (List.Perm.of_eq (List.filter_congr fun t _ => ?_))
        exact (decide_not).symm
      · exact nextTask_afterConnectionEstablished _
  | close session =>
      obtain ⟨-, rfl⟩ := State.close_eq_some.mp h
      by_cases hc : s.frameCounter = 0
      · have he : State.afterConnectionClosed { s with sessions := s.sessions.erase session } =
            { s with sessions := s.sessions.erase session } := if_pos hc
        rw [he]
        exact .silent (if_pos hc) rfl rfl rfl rfl
      · have he : State.afterConnectionClosed { s with sessions := s.sessions.erase session } =
            State.schedule { s with sessions := s.sessions.erase session } stitchDelayMs :=
          if_neg hc
        rw [he]
        exact .schedules (if_neg hc) rfl rfl rfl rfl
  | stitchOnIdle =>
      obtain rfl := Option.some.inj h
      rw [stitchOnIdle_eq]
      split
      next hidle => exact .schedules (if_pos hidle) rfl rfl rfl rfl
      next hidle => exact .silent (if_neg hidle) rfl rfl rfl rfl
  | toggleCamera =>
      obtain rfl := Option.some.inj h
      exact .silent rfl rfl rfl rfl rfl
  | advance ms =>
      obtain rfl := Option.some.inj h
      exact .silent rfl rfl rfl rfl rfl

theorem stitchStep_queueEffect {a : StitchAction} (h : stitchStep s a = some s') :
    QueueEffect s s' (.stitch a) := by
  have hn := (stitchStep_frame h).nextTask
  cases a with
  | begin stamp =>
      obtain ⟨-, t, ht, -, rfl⟩ := State.begin_eq_some.mp h
      have hbegun : begunBy s (.stitch (.begin stamp)) = [t] := by
        rw [begunBy, begunTask, ht]
        rfl
      refine ⟨?_, rfl, rfl⟩
      rw [hbegun]
      show (s.queue ++ []).Perm ([t] ++ (s.queue.erase t ++ []))
      rw [List.append_nil, List.append_nil]
      exact List.perm_cons_erase (mem_of_nextTask_eq_some ht)
  | pickSource answers =>
      obtain ⟨r, hr, -, rfl⟩ := State.pickSource_eq_some.mp h
      exact .silent rfl rfl rfl rfl rfl
  | startFfmpeg starts =>
      obtain ⟨r, source, hr, -, rfl⟩ := State.startFfmpeg_eq_some.mp h
      exact .silent rfl rfl rfl rfl rfl
  | ffmpegExits code =>
      obtain ⟨r, hr, -, rfl⟩ := State.ffmpegExits_eq_some.mp h
      exact .silent rfl rfl rfl rfl rfl
  | listRaw answers =>
      obtain ⟨r, hr, -, rfl⟩ := State.listRaw_eq_some.mp h
      exact .silent rfl rfl rfl rfl rfl
  | deleteRaw n deleted =>
      obtain ⟨r, raw, hr, -, -, rfl⟩ := State.deleteRaw_eq_some.mp h
      exact .silent rfl rfl rfl rfl rfl
  | listAnnotated answers =>
      obtain ⟨r, hr, -, rfl⟩ := State.listAnnotated_eq_some.mp h
      exact .silent rfl rfl rfl rfl rfl
  | deleteAnnotated n deleted =>
      obtain ⟨r, annotated, hr, -, -, rfl⟩ := State.deleteAnnotated_eq_some.mp h
      exact .silent rfl rfl rfl rfl rfl
  | resetCounter =>
      obtain ⟨r, hr, -, rfl⟩ := State.resetCounter_eq_some.mp h
      exact .silent rfl rfl rfl rfl rfl

/-- What a step does to the queue, in terms of the tasks it submits, withdraws and begins. -/
theorem step_queueEffect {a : Action} (h : step s a = some s') : QueueEffect s s' a := by
  cases a with
  | session a => exact sessionStep_queueEffect h
  | call a =>
      have hf := callStep_frame h
      exact .silent rfl rfl rfl hf.queue hf.nextTask
  | stitch a => exact stitchStep_queueEffect h
  | detector a =>
      have hf := detectorStep_frame h
      exact .silent rfl rfl rfl hf.queue hf.nextTask

/-- Every task submitted has begun once, waits, or was withdrawn, and no other task has begun;
tasks are numbered in the order of their submission. -/
structure TasksAccounted (tr : History) (s : State) : Prop where
  perm : (submitted tr).Perm (begun tr ++ (s.queue ++ withdrawn tr))
  numbers : (submitted tr).map Task.id = List.range s.nextTask

/-- What leaves the queue goes to one of the two lists. -/
theorem perm_append_move {l l' b w b' w' q q' new : List Task} (h : l.Perm (b ++ (q ++ w)))
    (hq : (q ++ new).Perm (b' ++ (q' ++ w'))) (hl : l' = l ++ new) :
    l'.Perm (b ++ b' ++ (q' ++ (w ++ w'))) := by
  have hcount : ∀ t, l'.count t = (b ++ b' ++ (q' ++ (w ++ w'))).count t := by
    intro t
    have h₁ := h.count_eq t
    have h₂ := hq.count_eq t
    simp only [List.count_append] at h₁ h₂
    rw [hl]
    simp only [List.count_append]
    omega
  exact List.perm_iff_count.mpr hcount

/-- Each step moves tasks from one place to another. -/
theorem TasksAccounted.step {a : Action} (hi : TasksAccounted tr s) (h : step s a = some s') :
    TasksAccounted ((s, a) :: tr) s' where
  perm := perm_append_move hi.perm (step_queueEffect h).moves rfl
  numbers := by
    have he := step_queueEffect h
    have hcons : submitted ((s, a) :: tr) = submitted tr ++ submittedBy s a := rfl
    rw [hcons, List.map_append, hi.numbers, he.numbers, he.nextTask, List.range_add,
      List.range'_eq_map_range]

/-- A task begins to run when it is due. -/
def BeginsDue (_ : History) (s : State) (a : Action) : Prop := ∀ t ∈ begunBy s a, t.due ≤ s.clock

/-- The executor takes only the first task of the queue, and not before it is due. -/
theorem beginsDue_of_step {a : Action} (h : step s a = some s') : BeginsDue tr s a := by
  intro t ht
  have hnext : begunTask s a = some t := Option.mem_toList.mp ht
  unfold begunTask at hnext
  split at hnext
  next stamp =>
    obtain ⟨-, u, hu, hdue, -⟩ := State.begin_eq_some.mp h
    obtain rfl := Option.some.inj (hu.symm.trans hnext)
    exact hdue
  next => cases hnext

/-- Each task that a close or the idle check has submitted begins once, when it is due, or waits,
or was withdrawn by a reconnect. -/
theorem tasks_accounted (h₀ : s₀.Booted) (hr : Run step s₀ tr s) :
    TasksAccounted tr s ∧ Along BeginsDue tr := by
  refine ⟨hr.invariant' (I := TasksAccounted) ⟨?_, ?_⟩ fun _ hi h => hi.step h,
    hr.along (P := BeginsDue) (fun _ _ _ h => beginsDue_of_step h) (along_true tr)⟩
  · rw [h₀.eq]
    exact List.Perm.refl _
  · rw [h₀.eq]
    rfl

/-- One session closes and is resumed in time, and then closes for good. -/
def resumedRun : List Action :=
  oneFrameRun ++ [.session (.connect 2), .session (.close 2), .session (.advance 5000)] ++
    startStitch

/-- A stitch is withdrawn by a reconnection, and the next one begins. -/
theorem tasks_accounted_resumed :
    ∃ tr s, Run step (.boot 0 ∅ ∅ ∅ 0) tr s ∧ actions tr = resumedRun ∧
      begun tr = [⟨1, 10000⟩] ∧ withdrawn tr = [⟨0, 5000⟩] ∧ TasksAccounted tr s := by
  obtain ⟨tr, s, hr, ha, hb, hw⟩ := exists_run_of_exec step (.boot 0 ∅ ∅ ∅ 0) resumedRun
    (p := fun tr _ => begun tr = [⟨1, 10000⟩] ∧ withdrawn tr = [⟨0, 5000⟩]) (by decide +kernel)
  exact ⟨tr, s, hr, ha, hb, hw, (tasks_accounted (State.booted_boot_empty 0 ∅ ∅ 0) hr).1⟩

/-! ## Steps of the executor's thread -/

/-- The steps of the executor's thread. -/
def executorSteps : History → List StitchAction :=
  observed fun _ a => match a with | .stitch a => [a] | _ => []

/-- The files that `clearFrames` lists in the step. -/
def listedBy (s : State) : Action → List Nat
  | .stitch (.listRaw answers) => (listFiles s.frames answers).getD []
  | .stitch (.listAnnotated answers) => (listFiles s.annotated answers).getD []
  | _ => []

/-- All files that were listed to be deleted. -/
def listedFiles : History → List Nat := observed listedBy

/-- The steps that a stitch still has to make, but for the deletions of listings to come. -/
def Phase.left : Phase → Nat
  | .begun => 6
  | .sourced _ => 5
  | .encoding => 4
  | .clearing => 3
  | .deletingRaw raw => 2 + raw.length
  | .deletingAnnotated annotated => 1 + annotated.length

/-- What the executor still has to do. -/
def State.work (s : State) : Nat := 7 * s.queue.length + (s.phase.map Phase.left).getD 0

/-- The steps that are left: those of the running stitch, and seven for each task. -/
theorem State.work_of_running {r : Stitch} (hr : s.running = some r) :
    s.work = 7 * s.queue.length + r.phase.left := by
  rw [State.work, State.phase_of_running hr]
  rfl

theorem State.work_of_idle (hr : s.running = none) : s.work = 7 * s.queue.length := by
  rw [State.work, State.phase, hr]
  rfl

/-- Each step of the stitch uses up work, and only a listing makes new work. -/
theorem stitchStep_work {a : StitchAction} (h : stitchStep s a = some s') :
    s'.work + 1 ≤ s.work + (listedBy s (.stitch a)).length := by
  cases a with
  | begin stamp =>
      obtain ⟨hr, t, ht, -, rfl⟩ := State.begin_eq_some.mp h
      have hlen := List.length_erase_of_mem (mem_of_nextTask_eq_some ht)
      have hpos := List.length_pos_of_mem (mem_of_nextTask_eq_some ht)
      rw [State.work_of_idle hr, State.work_of_running rfl, hlen]
      simp only [Phase.left, listedBy, List.length_nil]
      omega
  | pickSource answers =>
      obtain ⟨r, hr, hp, rfl⟩ := State.pickSource_eq_some.mp h
      rw [State.work_of_running hr, State.work_of_running rfl, hp]
      exact Nat.le_refl _
  | startFfmpeg starts =>
      obtain ⟨r, source, hr, hp, rfl⟩ := State.startFfmpeg_eq_some.mp h
      rw [State.work_of_running hr, hp]
      cases starts with
      | false =>
          rw [State.work_of_idle rfl]
          exact Nat.add_le_add_left (Nat.le_add_left 1 4) _
      | true =>
          rw [State.work_of_running rfl]
          exact Nat.le_refl _
  | ffmpegExits code =>
      obtain ⟨r, hr, hp, rfl⟩ := State.ffmpegExits_eq_some.mp h
      rw [State.work_of_running hr, hp]
      by_cases hcode : code = 0
      · rw [State.work_of_running (if_pos hcode)]
        exact Nat.le_refl _
      · rw [State.work_of_idle (if_neg hcode)]
        exact Nat.add_le_add_left (Nat.le_add_left 1 3) _
  | listRaw answers =>
      obtain ⟨r, hr, hp, rfl⟩ := State.listRaw_eq_some.mp h
      rw [State.work_of_running hr, State.work_of_running rfl, hp]
      simp only [Phase.left, listedBy]
      omega
  | deleteRaw n deleted =>
      obtain ⟨r, raw, hr, hp, hn, rfl⟩ := State.deleteRaw_eq_some.mp h
      have hlen := List.length_erase_of_mem hn
      have hpos := List.length_pos_of_mem hn
      rw [State.work_of_running hr, State.work_of_running rfl, hp]
      simp only [Phase.left, listedBy, List.length_nil, hlen]
      omega
  | listAnnotated answers =>
      obtain ⟨r, hr, hp, rfl⟩ := State.listAnnotated_eq_some.mp h
      rw [State.work_of_running hr, State.work_of_running rfl, hp]
      simp only [Phase.left, listedBy, List.length_nil]
      omega
  | deleteAnnotated n deleted =>
      obtain ⟨r, annotated, hr, hp, hn, rfl⟩ := State.deleteAnnotated_eq_some.mp h
      have hlen := List.length_erase_of_mem hn
      have hpos := List.length_pos_of_mem hn
      rw [State.work_of_running hr, State.work_of_running rfl, hp]
      simp only [Phase.left, listedBy, List.length_nil, hlen]
      omega
  | resetCounter =>
      obtain ⟨r, hr, hp, rfl⟩ := State.resetCounter_eq_some.mp h
      rw [State.work_of_running hr, State.work_of_idle rfl, hp]
      exact Nat.le_refl _

/-- The other steps add the work of the tasks submitted, and withdraw some. -/
theorem State.work_of_queueEffect {a : Action} (he : QueueEffect s s' a) (hb : begunBy s a = [])
    (hp : s'.phase = s.phase) :
    s'.work + 7 * (withdrawnBy s a).length = s.work + 7 * (submittedBy s a).length := by
  have hlen := he.moves.length_eq
  rw [hb] at hlen
  simp only [List.length_append, List.nil_append] at hlen
  rw [State.work, State.work, hp]
  omega

/-- The executor's steps and what it still has to do are paid for by the tasks submitted and the
files listed. -/
def WorkBounded (tr : History) (s : State) : Prop :=
  (executorSteps tr).length + s.work + 7 * (withdrawn tr).length ≤
    7 * (submitted tr).length + (listedFiles tr).length

/-- Each step of the executor takes one off the work that is left. -/
theorem WorkBounded.step {a : Action} (hi : WorkBounded tr s) (h : step s a = some s') :
    WorkBounded ((s, a) :: tr) s' := by
  have hother : begunBy s a = [] → s'.phase = s.phase → listedBy s a = [] →
      executorSteps ((s, a) :: tr) = executorSteps tr → WorkBounded ((s, a) :: tr) s' := by
    intro hb hp hl hx
    have hw := State.work_of_queueEffect (step_queueEffect h) hb hp
    simp only [WorkBounded, withdrawn, submitted, listedFiles, observed_cons, List.length_append]
      at hi ⊢
    rw [hx, hl, List.length_nil]
    omega
  cases a with
  | session a =>
      exact hother rfl (sessionStep_frame h).phase rfl (List.append_nil _)
  | call a => exact hother rfl (callStep_frame h).phase rfl (List.append_nil _)
  | detector a => exact hother rfl (detectorStep_frame h).phase rfl (List.append_nil _)
  | stitch a =>
      have hw := stitchStep_work h
      have hx : executorSteps ((s, .stitch a) :: tr) = executorSteps tr ++ [a] := rfl
      have hwith : withdrawn ((s, .stitch a) :: tr) = withdrawn tr := List.append_nil _
      have hsub : submitted ((s, .stitch a) :: tr) = submitted tr := List.append_nil _
      have hlist : listedFiles ((s, .stitch a) :: tr) =
          listedFiles tr ++ listedBy s (.stitch a) := rfl
      rw [WorkBounded, hx, hwith, hsub, hlist, List.length_append, List.length_append,
        List.length_singleton]
      rw [WorkBounded] at hi
      omega

/-- A stitch that runs can go on. -/
theorem exists_stitchStep_of_running {r : Stitch} (hr : s.running = some r) :
    ∃ a s', stitchStep s a = some s' := by
  cases hp : r.phase with
  | begun => exact ⟨.pickSource true, _, State.pickSource_eq_some.mpr ⟨r, hr, hp, rfl⟩⟩
  | sourced source =>
      exact ⟨.startFfmpeg true, _, State.startFfmpeg_eq_some.mpr ⟨r, source, hr, hp, rfl⟩⟩
  | encoding => exact ⟨.ffmpegExits 0, _, State.ffmpegExits_eq_some.mpr ⟨r, hr, hp, rfl⟩⟩
  | clearing => exact ⟨.listRaw true, _, State.listRaw_eq_some.mpr ⟨r, hr, hp, rfl⟩⟩
  | deletingRaw raw =>
      cases raw with
      | nil => exact ⟨.listAnnotated true, _, State.listAnnotated_eq_some.mpr ⟨r, hr, hp, rfl⟩⟩
      | cons n raw =>
          exact ⟨.deleteRaw n true, _, State.deleteRaw_eq_some.mpr
            ⟨r, _, hr, hp, List.mem_cons_self .., rfl⟩⟩
  | deletingAnnotated annotated =>
      cases annotated with
      | nil => exact ⟨.resetCounter, _, State.resetCounter_eq_some.mpr ⟨r, hr, hp, rfl⟩⟩
      | cons n annotated =>
          exact ⟨.deleteAnnotated n true, _, State.deleteAnnotated_eq_some.mpr
            ⟨r, _, hr, hp, List.mem_cons_self .., rfl⟩⟩

/-- As long as there is something to do, the executor's thread can take a step, after some time
if no stitch is running. -/
theorem exists_executor_step (h : s.work ≠ 0) :
    ∃ ms a s', stitchStep { s with clock := s.clock + ms } a = some s' := by
  rcases Option.eq_none_or_eq_some s.running with hr | ⟨r, hr⟩
  · have hq : s.queue ≠ [] := by
      rintro hq
      rw [State.work_of_idle hr, hq] at h
      exact h rfl
    obtain ⟨t, ht⟩ := exists_nextTask hq
    exact ⟨t.due, .begin 0, _, State.begin_eq_some.mpr ⟨hr, t, ht, Nat.le_add_left _ _, rfl⟩⟩
  · exact ⟨0, exists_stitchStep_of_running hr⟩

/-- The executor comes to rest: whatever others do, its thread makes at most seven steps for each
task that was not withdrawn and one for each file listed, and it is stuck only when there is
nothing left to do. -/
theorem executor_comes_to_rest (h₀ : s₀.Booted) (hr : Run step s₀ tr s) :
    (executorSteps tr).length + s.work + 7 * (withdrawn tr).length ≤
        7 * (submitted tr).length + (listedFiles tr).length ∧
      (s.work ≠ 0 → ∃ ms a s', stitchStep { s with clock := s.clock + ms } a = some s') := by
  refine ⟨hr.invariant' (I := WorkBounded) ?_ fun _ hi h => hi.step h, exists_executor_step⟩
  rw [WorkBounded, h₀.eq]
  exact Nat.le_refl _

/-- The bound is reached by a stitch that goes through. -/
theorem executor_comes_to_rest_oneFrame :
    ∃ tr s, Run step (.boot 0 ∅ ∅ ∅ 0) tr s ∧ s.work = 0 ∧ (executorSteps tr).length = 8 ∧
      (executorSteps tr).length ≤ 7 * (submitted tr).length + (listedFiles tr).length := by
  obtain ⟨tr, s, hr, -, hw, hx⟩ := exists_run_of_exec step (.boot 0 ∅ ∅ ∅ 0)
    (oneFrameRun ++ startStitch ++ finishStitch [0] [])
    (p := fun tr s => s.work = 0 ∧ (executorSteps tr).length = 8) (by decide +kernel)
  have hle := (executor_comes_to_rest (State.booted_boot_empty 0 ∅ ∅ 0) hr).1
  exact ⟨tr, s, hr, hw, hx, by omega⟩

end WeldingServer
