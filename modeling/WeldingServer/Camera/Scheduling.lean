import WeldingServer.Camera.Progress

/-!
# Which stitch tasks run

`pendingStitch` refers to one task, and a new task overwrites it.  A close schedules
without looking at the other sessions or at the task already pending, and a new session
cancels only the task referred to.  So a task may start while frames arrive, and a
cancelled hiccup may be stitched all the same.

A task starts with nothing accepted since it was scheduled in every run that accepts
frames only while no task is queued (`beginsUnused_of_acceptsOnEmptyQueue`).  A reconnect
that cancels the pending stitch stops every older task exactly when that one is in the
queue, alone, and no stitch is running (`reconnect_stops_older_iff`).
-/

namespace WeldingServer

open Transition

/-! ## Sessions resumed before the stitch begins -/

/-- The task whose body begins to run in the step. -/
def begunTask (s : State) : Action → Option Task
  | .stitch (.begin _) => nextTask s.queue
  | _ => none

/-- If the body of a task begins to run, no frame has been accepted since it was
scheduled. -/
def BeginsUnused (tr : History) (s : State) (a : Action) : Prop :=
  ∀ t ∈ begunTask s a, acceptedSince t.id tr = []

/-- Frames are accepted only while no task waits in the queue. -/
def AcceptsOnEmptyQueue (_ : History) (s : State) (a : Action) : Prop :=
  acceptedBy s a ≠ [] → s.queue = []

instance (tr : History) (s : State) (a : Action) : Decidable (BeginsUnused tr s a) :=
  inferInstanceAs (Decidable (∀ t ∈ begunTask s a, acceptedSince t.id tr = []))

instance (tr : History) (s : State) (a : Action) : Decidable (AcceptsOnEmptyQueue tr s a) :=
  inferInstanceAs (Decidable (acceptedBy s a ≠ [] → s.queue = []))

/-- Nothing has been accepted since a queued task was scheduled. -/
def QueueUnused (tr : History) (s : State) : Prop :=
  ∀ t ∈ s.queue, acceptedSince t.id tr = []

/-- Once a task is scheduled, what is accepted counts. -/
theorem acceptedSince_cons_of_lt {tr : History} {s : State} {a : Action} {task : Nat}
    (h : task < s.nextTask) :
    acceptedSince task ((s, a) :: tr) = acceptedSince task tr ++ acceptedBy s a := by
  have hn : ¬ s.nextTask ≤ task := Nat.not_le_of_lt h
  exact if_neg hn

theorem acceptedSince_cons_of_silent {tr : History} {s : State} {a : Action} {task : Nat}
    (h : acceptedSince task tr = []) (ha : acceptedBy s a = []) :
    acceptedSince task ((s, a) :: tr) = [] := by
  by_cases hn : s.nextTask ≤ task
  · exact since_cons_of_stop hn
  · rw [acceptedSince_cons_of_lt (Nat.lt_of_not_le hn), h, ha, List.append_nil]

/-- A step that accepts only on an empty queue accepts nothing while a task waits. -/
theorem queueUnused_step {tr : History} {s s' : State} {a : Action}
    (hg : AcceptsOnEmptyQueue tr s a) (hi : QueueUnused tr s) (h : step s a = some s') :
    QueueUnused ((s, a) :: tr) s' := by
  intro t ht
  cases a with
  | session a =>
      rcases sessionStep_queue h with ⟨-, hq⟩ | ⟨-, due, hq⟩
      · exact acceptedSince_cons_of_silent (hi t (hq ht)) rfl
      · rw [hq, List.mem_append, List.mem_singleton] at ht
        rcases ht with ht | rfl
        · exact acceptedSince_cons_of_silent (hi t ht) rfl
        · -- This step scheduled the task.
          exact since_cons_of_stop (Nat.le_refl _)
  | call a =>
      rw [(callStep_frame h).queue] at ht
      refine acceptedSince_cons_of_silent (hi t ht) ?_
      by_contra hne
      rw [hg hne] at ht
      cases ht
  | stitch a => exact acceptedSince_cons_of_silent (hi t (stitchStep_queue_subset h ht)) rfl
  | detector a =>
      rw [(detectorStep_frame h).queue] at ht
      exact acceptedSince_cons_of_silent (hi t ht) rfl

/-- In a run that accepts only on an empty queue nothing is accepted while a task waits. -/
theorem queueUnused_run {s₀ s : State} {tr : History} (h₀ : s₀.queue = [])
    (hr : Run step s₀ tr s) (hg : Along AcceptsOnEmptyQueue tr) : QueueUnused tr s := by
  refine hr.invariant (I := QueueUnused) ?_ (fun _ hg hi h => queueUnused_step hg.1 hi h) hg
  intro t ht
  rw [h₀] at ht
  cases ht

/-- Steps of the executor's thread are not seen by `acceptedSince`. -/
theorem acceptedSince_drives {s u : State} {tr tr' : History} {task : Nat}
    (h : Drives s tr' u) (hlt : task < s.nextTask) :
    acceptedSince task (tr' ++ tr) = acceptedSince task tr := by
  have hsched := h.scheduled
  have hstitch := h.stitch
  clear h
  induction tr' with
  | nil => rfl
  | cons x tr' ih =>
      obtain ⟨v, a⟩ := x
      obtain ⟨b, hb⟩ := hstitch (v, a) (List.mem_cons_self ..)
      have hv : v.nextTask = s.nextTask := hsched (v, a) (List.mem_cons_self ..)
      have ha : a = .stitch b := hb
      subst ha
      rw [List.cons_append, acceptedSince_cons_of_lt (hv ▸ hlt)]
      simp only [acceptedBy, List.append_nil]
      exact ih (fun x hx => hsched x (List.mem_cons_of_mem _ hx))
        (fun x hx => hstitch x (List.mem_cons_of_mem _ hx))

theorem exists_nextTask : ∀ {ts : List Task}, ts ≠ [] → ∃ t, nextTask ts = some t
  | [], h => absurd rfl h
  | t :: ts, _ => by
      rw [nextTask]
      split
      · split
        · exact ⟨_, rfl⟩
        · exact ⟨_, rfl⟩
      · exact ⟨_, rfl⟩

/-- A task of a queue that is not empty can be brought to its start. -/
theorem exists_drives_begin {s : State} (h : s.queue ≠ []) :
    ∃ tr u ms t v, Drives s tr u ∧ t ∈ s.queue ∧
      nextTask u.queue = some t ∧
      step { u with clock := u.clock + ms } (.stitch (.begin 0)) = some v ∧
      v.running = some ⟨t.id, false, 0, [], .begun⟩ ∧ v.nextTask = s.nextTask := by
  obtain ⟨tr, u, hd, hidle⟩ := exists_drives_idle s
  have hne : u.queue ≠ [] := by rw [hd.queue]; exact h
  obtain ⟨t, ht⟩ := exists_nextTask hne
  have hmem : t ∈ s.queue := hd.queue ▸ mem_of_nextTask_eq_some ht
  have hbegin : step { u with clock := u.clock + t.due } (.stitch (.begin 0)) = some _ :=
    State.begin_eq_some.mpr ⟨hidle, t, ht, Nat.le_add_left _ _, rfl⟩
  exact ⟨tr, u, t.due, t, _, hd, hmem, ht, hbegin, rfl, hd.nextTask⟩

/-- The step that accepts a frame leaves the queue alone. -/
theorem queue_of_acceptedBy_ne_nil {s s' : State} {a : Action} (h : step s a = some s')
    (hne : acceptedBy s a ≠ []) : s'.queue = s.queue ∧ s'.nextTask = s.nextTask := by
  cases a with
  | call a => exact ⟨(callStep_frame h).queue, (callStep_frame h).nextTask⟩
  | session a => exact absurd rfl hne
  | stitch a => exact absurd rfl hne
  | detector a => exact absurd rfl hne

/-- A task begins to run with no frame accepted since it was scheduled, in every run that
accepts frames only on an empty queue.  Where a run accepts a frame while a task is
queued, it can go on to a start that breaks this. -/
theorem beginsUnused_of_acceptsOnEmptyQueue {s₀ : State} (h₀ : s₀.Booted) :
    (∀ tr s, Run step s₀ tr s → Along AcceptsOnEmptyQueue tr → Along BeginsUnused tr) ∧
    ∀ tr s a s', Run step s₀ tr s → step s a = some s' → ¬ AcceptsOnEmptyQueue tr s a →
      ∃ tr' u, Run step s' tr' u ∧ ¬ Along BeginsUnused (tr' ++ (s, a) :: tr) := by
  constructor
  · intro tr s hr hg
    refine hr.along (fun {tr s a s'} hr hg _ _ => ?_) hg
    intro t ht
    have hq : s₀.queue = [] := by rw [h₀.eq]; rfl
    refine queueUnused_run hq hr hg t ?_
    cases a with
    | stitch a =>
        cases a with
        | begin stamp => exact mem_of_nextTask_eq_some ht
        | _ => cases ht
    | _ => cases ht
  · intro tr s a s' hr h hbad
    rw [AcceptsOnEmptyQueue, Classical.not_imp] at hbad
    obtain ⟨hacc, hqueue⟩ := hbad
    obtain ⟨hq, hn⟩ := queue_of_acceptedBy_ne_nil h hacc
    obtain ⟨tr', u, ms, t, v, hd, ht, hnext, hbegin, -, -⟩ :=
      exists_drives_begin (s := s') (by rw [hq]; exact hqueue)
    have hlt : t.id < s.nextTask := (h₀.consistent.run hr).queue_lt t (hq ▸ ht)
    have hadv : step u (.session (.advance ms)) = some { u with clock := u.clock + ms } := rfl
    refine ⟨_, v, .snoc (.snoc hd.run hadv) hbegin, fun hall => ?_⟩
    have hun : acceptedSince t.id ((u, .session (.advance ms)) :: (tr' ++ (s, a) :: tr)) = [] :=
      hall.1 t hnext
    rw [acceptedSince_cons_of_lt (by rw [hd.nextTask, hn]; exact hlt),
      acceptedSince_drives hd (by rw [hn]; exact hlt), acceptedSince_cons_of_lt hlt] at hun
    exact hacc (List.append_eq_nil_iff.mp (List.append_eq_nil_iff.mp hun).1).2

/-- The connection is closed, and the stitch begins. -/
theorem beginsUnused_quietClose :
    ∃ tr s, Run step (.boot 0 ∅ ∅ ∅ 0) tr s ∧ s.running ≠ none ∧ Along BeginsUnused tr := by
  obtain ⟨tr, s, hr, -, hg, hs⟩ := exists_run_of_exec step (.boot 0 ∅ ∅ ∅ 0)
    (oneFrameRun ++ startStitch)
    (p := fun tr s => Along AcceptsOnEmptyQueue tr ∧ s.running ≠ none) (by decide)
  exact ⟨tr, s, hr, hs,
    (beginsUnused_of_acceptsOnEmptyQueue (State.booted_boot_empty 0 ∅ ∅ 0)).1 tr s hr hg⟩

/-- Session 1 is replaced by session 2 and closes late: the stitch this schedules begins
while session 2 goes on sending. -/
def staleCloseRun : List Action :=
  [.session .toggleCamera, .session (.connect 1)] ++ handleMessage 1 0 [1] ++
    [.session (.connect 2), .session (.close 1)] ++ handleMessage 2 1 [2] ++
    [.session (.advance 5000), .stitch (.begin 0)]

/-- The close of a stale session lets a stitch begin while the other one sends frames. -/
theorem stitch_begins_during_use :
    ∃ tr s, Run step (.boot 0 ∅ ∅ ∅ 0) tr s ∧ actions tr = staleCloseRun ∧
      ¬ Along BeginsUnused tr :=
  exists_run_of_exec step _ staleCloseRun (by decide)

/-! ## Reconnecting -/

/-- No task scheduled before number `n` was given out deletes a frame file or resets the
counter. -/
def SparesFrom (n : Nat) (_ : History) (s : State) (a : Action) : Prop :=
  destroys a = true → ∀ r ∈ s.running, n ≤ r.task

instance (n : Nat) (tr : History) (s : State) (a : Action) : Decidable (SparesFrom n tr s a) :=
  inferInstanceAs (Decidable (destroys a = true → ∀ r ∈ s.running, n ≤ r.task))

/-- The pending stitch is the only live task: it waits in the queue, no other does, and
none is running. -/
def State.OnlyPendingQueued (s : State) : Prop :=
  s.running = none ∧ ∀ t ∈ s.queue, s.pendingStitch = some t.id

/-- All tasks that may still run were scheduled from number `n` on. -/
structure TasksFrom (n : Nat) (s : State) : Prop where
  next : n ≤ s.nextTask
  queue : ∀ t ∈ s.queue, n ≤ t.id
  running : ∀ r, s.running = some r → n ≤ r.task

/-- New tasks have later numbers. -/
theorem TasksFrom.step {n : Nat} {s s' : State} {a : Action} (hs : TasksFrom n s)
    (h : step s a = some s') : TasksFrom n s' := by
  cases a with
  | session a =>
      have hrun : ∀ r', s'.running = some r' → n ≤ r'.task := by
        intro r' hr'
        rcases (sessionStep_frame h).running with he | ⟨r, hr, he⟩
        · exact hs.running r' (he ▸ hr')
        · obtain rfl := Option.some.inj (he.symm.trans hr')
          exact hs.running r hr
      rcases sessionStep_queue h with ⟨hn, hq⟩ | ⟨hn, due, hq⟩
      · exact ⟨hn ▸ hs.next, fun t ht => hs.queue t (hq ht), hrun⟩
      · refine ⟨by rw [hn]; exact Nat.le_succ_of_le hs.next, fun t ht => ?_, hrun⟩
        rw [hq, List.mem_append, List.mem_singleton] at ht
        rcases ht with ht | rfl
        · exact hs.queue t ht
        · exact hs.next
  | call a =>
      have hf := callStep_frame h
      exact ⟨hf.nextTask ▸ hs.next, fun t ht => hs.queue t (hf.queue ▸ ht),
        fun r hr => hs.running r (hf.running ▸ hr)⟩
  | stitch a =>
      refine ⟨(stitchStep_frame h).nextTask ▸ hs.next,
        fun t ht => hs.queue t (stitchStep_queue_subset h ht), fun r' hr' => ?_⟩
      rcases stitchStep_task h hr' with ⟨r, hrun, he⟩ | ⟨t, ht, he⟩
      · exact he ▸ hs.running r hrun
      · exact he ▸ hs.queue t ht
  | detector a =>
      have hf := detectorStep_frame h
      exact ⟨hf.nextTask ▸ hs.next, fun t ht => hs.queue t (hf.queue ▸ ht),
        fun r hr => hs.running r (hf.running ▸ hr)⟩

/-- In every run the tasks have later numbers than those before it. -/
theorem TasksFrom.run {n : Nat} {s u : State} {tr : History} (hs : TasksFrom n s)
    (hr : Run WeldingServer.step s tr u) : TasksFrom n u :=
  hr.invariant' (I := fun _ u => TasksFrom n u) hs fun _ hs h => hs.step h

/-- What the branch of `afterConnectionEstablished` that cancels does. -/
theorem connect_of_stitchPending {s s' : State} {session : Nat} (hp : s.stitchPending = true)
    (h : s.connect session = some s') :
    ∃ task, s.pendingStitch = some task ∧ s.isDone task = false ∧
      s' = { s with sessions := session :: s.sessions }.cancel task := by
  obtain ⟨-, rfl⟩ := State.connect_eq_some.mp h
  rw [State.stitchPending, Option.any_eq_true] at hp
  obtain ⟨task, ht, hdone⟩ := hp
  rw [Bool.not_eq_true'] at hdone
  exact ⟨task, ht, hdone, State.afterConnectionEstablished_of_pending ht hdone⟩

/-- A stitch that runs may go on and destroy. -/
theorem exists_destroys_of_running {n : Nat} {s : State} {r : Stitch}
    (hr : s.running = some r) (hn : r.task < n) :
    ∃ tr u, Run step s tr u ∧ ¬ Along (SparesFrom n) tr := by
  obtain ⟨tr, u, r', hd, hu, htask, hp⟩ := canReset_of_running hr
  have hstep : step u (.stitch .resetCounter) = some _ :=
    State.resetCounter_eq_some.mpr ⟨r', hu, hp, rfl⟩
  refine ⟨_, _, .snoc hd.run hstep, fun hall => ?_⟩
  have := hall.1 rfl r' hu
  omega

/-- A task in the queue may come to run and destroy. -/
theorem exists_destroys_of_queue {n : Nat} {s : State} (hq : s.queue ≠ [])
    (hn : ∀ t ∈ s.queue, t.id < n) : ∃ tr u, Run step s tr u ∧ ¬ Along (SparesFrom n) tr := by
  obtain ⟨tr, u, ms, t, v, hd, ht, -, hbegin, hv, -⟩ := exists_drives_begin hq
  have hadv : step u (.session (.advance ms)) = some { u with clock := u.clock + ms } := rfl
  obtain ⟨tr', w, hr', hbad⟩ := exists_destroys_of_running hv (hn t ht)
  exact ⟨_, w, (Run.snoc (.snoc hd.run hadv) hbegin).append hr', fun hall =>
    hbad (hall.newer fun _ _ _ _ h => h)⟩

/-- A reconnect that takes the branch "stitch cancelled, session continues" keeps every
task scheduled before from deleting a frame file and from resetting the counter, in every
continuation, exactly when the pending stitch was the only live task and had not begun. -/
theorem reconnect_stops_older_iff {s₀ s s' : State} {tr : History} {session : Nat}
    (h₀ : s₀.Booted) (hr : Run step s₀ tr s) (hp : s.stitchPending = true)
    (h : step s (.session (.connect session)) = some s') :
    (∀ tr' u, Run step s' tr' u → Along (SparesFrom s.nextTask) tr') ↔
      s.OnlyPendingQueued := by
  obtain ⟨task, htask, hdone, rfl⟩ := connect_of_stitchPending hp h
  have hs := h₀.consistent.run hr
  constructor
  · intro hall
    constructor
    · by_contra hrun
      obtain ⟨r, hrun⟩ := Option.ne_none_iff_exists'.mp hrun
      -- Cancelling changes the future of the running stitch, not its course.
      obtain ⟨r', hr', ht⟩ : ∃ r', (({ s with sessions := session :: s.sessions } :
          State).cancel task).running = some r' ∧ r'.task = r.task := by
        by_cases he : r.task = task
        · exact ⟨{ r with cancelled := true }, by simp [State.cancel, hrun, he], rfl⟩
        · exact ⟨r, by simp [State.cancel, hrun, he], rfl⟩
      obtain ⟨tr', u, hrun', hbad⟩ :=
        exists_destroys_of_running hr' (ht ▸ hs.running_lt r hrun)
      exact hbad (hall tr' u hrun')
    · intro t ht
      by_contra hne
      rw [htask, Option.some.injEq] at hne
      have hmem : t ∈ (({ s with sessions := session :: s.sessions } :
          State).cancel task).queue :=
        List.mem_filter.mpr ⟨ht, bne_iff_ne.mpr fun he => hne he.symm⟩
      obtain ⟨tr', u, hrun', hbad⟩ := exists_destroys_of_queue (n := s.nextTask)
        (List.ne_nil_of_mem hmem) fun t ht => hs.queue_lt t (List.mem_filter.mp ht).1
      exact hbad (hall tr' u hrun')
  · rintro ⟨hrun, hqueue⟩ tr' u hr'
    have hfrom : TasksFrom s.nextTask
        (({ s with sessions := session :: s.sessions } : State).cancel task) := by
      refine ⟨Nat.le_refl _, fun t ht => ?_, fun r hr => ?_⟩
      · obtain ⟨ht, hne⟩ := List.mem_filter.mp ht
        have := hqueue t ht
        rw [htask, Option.some.injEq] at this
        exact absurd this.symm (bne_iff_ne.mp hne)
      · simp [State.cancel, hrun] at hr
    refine hr'.along (G := fun _ _ _ => True) (fun hr' _ _ _ => ?_) (along_true tr')
    exact fun _ r hr => (hfrom.run hr').running r hr

/-- A session closes and is resumed two seconds later: the run up to the reconnect. -/
def hiccupRun : List Action :=
  [.session .toggleCamera, .session (.connect 1)] ++ handleMessage 1 0 [1] ++
    [.session (.close 1), .session (.advance 2000)]

/-- The reconnection comes before the stitch has begun. -/
theorem reconnect_stops_older_hiccup :
    ∃ s s', s.stitchPending = true ∧ step s (.session (.connect 2)) = some s' ∧
      ∀ tr' u, Run step s' tr' u → Along (SparesFrom s.nextTask) tr' := by
  obtain ⟨tr, s, hr, -, hp, hrun, hqueue, hopen⟩ :=
    exists_run_of_exec step (.boot 0 ∅ ∅ ∅ 0) hiccupRun
      (p := fun _ s => s.stitchPending = true ∧ s.running = none ∧
        (∀ t ∈ s.queue, s.pendingStitch = some t.id) ∧ 2 ∉ s.sessions) (by decide)
  have h : step s (.session (.connect 2)) = some _ := State.connect_eq_some.mpr ⟨hopen, rfl⟩
  exact ⟨s, _, hp, h,
    (reconnect_stops_older_iff (State.booted_boot_empty 0 ∅ ∅ 0) hr hp h).mpr ⟨hrun, hqueue⟩⟩

/-- A reconnect while ffmpeg runs reports the stitch as cancelled, and the stitch goes on to
delete the frame. -/
theorem stitch_survives_reconnect :
    ∃ tr s s' tr' u, Run step (.boot 0 ∅ ∅ ∅ 0) tr s ∧ actions tr = oneFrameRun ++ startStitch ∧
      s.stitchPending = true ∧ step s (.session (.connect 2)) = some s' ∧
      Run step s' tr' u ∧ actions tr' = finishStitch [0] [] ∧
      ¬ Along (SparesFrom s.nextTask) tr' := by
  obtain ⟨tr, s, hr, ha, hp, hopen, hbad⟩ :=
    exists_run_of_exec step (.boot 0 ∅ ∅ ∅ 0) (oneFrameRun ++ startStitch)
      (p := fun _ s => s.stitchPending = true ∧ 2 ∉ s.sessions ∧
        (step s (.session (.connect 2))).any fun s' =>
          (exec step (finishStitch [0] []) [] s').any fun r =>
            decide (¬ Along (SparesFrom s.nextTask) r.1)) (by decide)
  obtain ⟨s', h, hbad⟩ := Option.any_eq_true _ _ |>.mp hbad
  obtain ⟨r, he, hbad⟩ := Option.any_eq_true _ _ |>.mp hbad
  exact ⟨tr, s, s', r.1, r.2, hr, ha, hp, h, .of_exec .nil he, actions_of_exec he,
    of_decide_eq_true hbad⟩

end WeldingServer
