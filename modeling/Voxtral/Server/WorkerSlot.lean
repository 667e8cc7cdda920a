import Voxtral.Server.GpuLease

/-!
# The worker slot

A request that holds the GPU lease hands it to the one worker thread (`WorkerSlot::start`).  The worker gives
the lease back at the end of its task and clears `running_` a few instructions later; between the two another
request can acquire the lease and find the slot still taken.  The system below has the IO thread's calls and
the worker's steps in any interleaving; moving a lease between the request, its holder and the worker keeps
its owner and is not a step.
-/

namespace Voxtral

/-- Where the worker thread is, with the request it works for. -/
inductive WorkerPhase (ι : Type*)
  /-- In its task. -/
  | task (r : ι)
  /-- Its task reset the lease; `running_` is still set. -/
  | released (r : ι)
  /-- Its task threw; the lease is held until the task is destroyed. -/
  | thrown (r : ι)
  /-- `running_` is cleared; the task that threw still holds its lease. -/
  | cleared (holding : Option ι)
  /-- The thread has ended and can be joined. -/
  | ended
  deriving DecidableEq, Repr

/-- The leases and the worker slot of a server. -/
structure ServerWorld (ι : Type*) where
  leases : LeaseWorld ι := {}
  running : Bool := false
  worker : Option (WorkerPhase ι) := none

/-- A call of the IO thread or a step of the worker. -/
inductive ServerCall (ι : Type*)
  /-- `try_acquire` for a new request. -/
  | tryAcquire (r : ι) (mode : GpuMode)
  /-- `ServerApp::start_worker` for a request with a lease. -/
  | startWorker (r : ι)
  /-- `start_worker` where the thread cannot be made. -/
  | startThrows (r : ι)
  /-- The request gives up its lease object. -/
  | drop (r : ι)
  /-- `begin_shutdown`. -/
  | beginShutdown
  /-- The worker's task resets the lease. -/
  | reset
  /-- The worker's task throws. -/
  | throw
  /-- The worker clears `running_`. -/
  | clear
  /-- The worker calls the completion, and its thread ends. -/
  | complete
  deriving DecidableEq, Repr

/-- What a call returned. -/
inductive ServerAnswer
  | acquired
  | busy
  | started
  /-- `start_worker` returned `false`. -/
  | refused
  | done
  deriving DecidableEq, Repr

namespace ServerWorld

variable {ι : Type*} [DecidableEq ι]

omit [DecidableEq ι] in
/-- The request whose lease the worker has. -/
def working (s : ServerWorld ι) : Option ι :=
  match s.worker with
  | some (.task r) => some r
  | some (.thrown r) => some r
  | some (.cleared holding) => holding
  | _ => none

/-- An operation on the leases. -/
def onLeases (s : ServerWorld ι) (call : LeaseCall ι) : Option (ServerWorld ι) :=
  (LeaseWorld.leaseStep s.leases call).map fun r => { s with leases := r.1 }

/-- Whether the request holds the lease, not having handed it to the worker. -/
def holds (s : ServerWorld ι) (r : ι) : Bool :=
  ((s.leases.leases r).map GpuLease.manager).getD false ∧ s.working ≠ some r

/-- One call or step. -/
def step (s : ServerWorld ι) : ServerCall ι → Option (ServerWorld ι × ServerAnswer)
  | .tryAcquire r mode =>
    (s.onLeases (.tryAcquire r mode)).map fun s' =>
      (s', if ((s'.leases.leases r).map GpuLease.manager).getD false then .acquired else .busy)
  | .startWorker r =>
    if s.holds r then
      if s.running then some (s, .refused)
      else some ({ s with running := true, worker := some (.task r) }, .started)
    else none
  | .startThrows r => if s.holds r ∧ s.running = false then some (s, .done) else none
  | .drop r =>
    if s.working = some r then none else (s.onLeases (.destroy r)).map fun s' => (s', .done)
  | .beginShutdown => (s.onLeases .beginShutdown).map fun s' => (s', .done)
  | .reset =>
    match s.worker with
    | some (.task r) =>
      (s.onLeases (.reset r)).map fun s' => ({ s' with worker := some (.released r) }, .done)
    | _ => none
  | .throw =>
    match s.worker with
    | some (.task r) => some ({ s with worker := some (.thrown r) }, .done)
    | _ => none
  | .clear =>
    match s.worker with
    | some (.released _) => some ({ s with running := false, worker := some (.cleared none) }, .done)
    | some (.thrown r) => some ({ s with running := false, worker := some (.cleared (some r)) }, .done)
    | _ => none
  | .complete =>
    match s.worker with
    | some (.cleared none) => some ({ s with worker := some .ended }, .done)
    | some (.cleared (some r)) =>
      (s.onLeases (.destroy r)).map fun s' => ({ s' with worker := some .ended }, .done)
    | _ => none

/-! ## Who has the lease -/

/-- The GPU has at most one owner, the worker's request holds the lease, and `running_` is set until the
worker clears it. -/
structure Consistent (s : ServerWorld ι) : Prop where
  owned : ∃ o, s.leases.OwnedBy o
  working : ∀ r, s.working = some r → ∃ lease, s.leases.Live r lease
  running : s.running = true ↔ ∃ r, s.worker = some (.task r) ∨ s.worker = some (.released r) ∨
    s.worker = some (.thrown r)

variable {s s' : ServerWorld ι} {r : ι}

omit [DecidableEq ι] in
/-- Two live leases are one. -/
lemma Consistent.live_unique (h : Consistent s) {r r' : ι} {lease lease' : GpuLease}
    (hlive : s.leases.Live r lease) (hlive' : s.leases.Live r' lease') : r = r' := by
  obtain ⟨o, ho⟩ := h.owned
  obtain ⟨owner, rfl, rfl, -⟩ := ho.eq_owner hlive
  obtain ⟨owner', howner', rfl, -⟩ := ho.eq_owner hlive'
  rw [Option.some.inj howner']

/-- A request that holds the lease has a live one, and is not the worker's. -/
lemma live_of_holds (h : s.holds r = true) :
    (∃ lease, s.leases.Live r lease) ∧ s.working ≠ some r := by
  simp only [holds, Bool.decide_and, Bool.and_eq_true, decide_eq_true_eq, Bool.decide_eq_true] at h
  refine ⟨?_, by simpa using h.2⟩
  cases hl : s.leases.leases r with
  | none => simp [hl] at h
  | some lease => exact ⟨lease, hl, by simpa [hl] using h.1⟩

/-- An operation on the leases keeps the owner unique. -/
lemma onLeases_owned (h : ∃ o, s.leases.OwnedBy o) {call : LeaseCall ι}
    (hcall : s.onLeases call = some s') :
    (∃ o, s'.leases.OwnedBy o) ∧ s'.running = s.running ∧ s'.worker = s.worker := by
  obtain ⟨⟨w, requests⟩, hstep, rfl⟩ := Option.map_eq_some_iff.mp hcall
  obtain ⟨o, ho⟩ := h
  exact ⟨LeaseWorld.leaseStep_ownedBy ho hstep, rfl, rfl⟩

/-- A new lease object, the end of one, and a shutdown leave all others alone. -/
lemma onLeases_live {call : LeaseCall ι} (hcall : s.onLeases call = some s') {r' : ι} {lease : GpuLease}
    (hlive : s.leases.Live r' lease)
    (hother : (∃ r mode, call = .tryAcquire r mode) ∨ (∃ r, call = .destroy r ∧ r ≠ r') ∨
      call = .beginShutdown) : s'.leases.Live r' lease := by
  obtain ⟨⟨w, requests⟩, hstep, rfl⟩ := Option.map_eq_some_iff.mp hcall
  refine ⟨?_, hlive.2⟩
  have hobject := hlive.1
  rcases hother with ⟨r, mode, rfl⟩ | ⟨r, rfl, hne⟩ | rfl
  · simp only [LeaseWorld.leaseStep] at hstep
    split at hstep
    · cases hstep
    · next hnew =>
      cases hstep
      have hne : r' ≠ r := by
        rintro rfl
        rw [hnew] at hobject
        cases hobject
      have hkept : (s.leases.tryAcquire mode).2.leases = s.leases.leases := by
        unfold LeaseWorld.tryAcquire
        split
        · rfl
        · split <;> rfl
      simpa [LeaseWorld.store, hne, hkept] using hobject
  · simp only [LeaseWorld.leaseStep] at hstep
    split at hstep
    · next lease' _ =>
      cases hstep
      have hkept : (s.leases.reset lease').2.leases = s.leases.leases := by
        unfold LeaseWorld.reset
        split <;> rfl
      simpa [LeaseWorld.store, Ne.symm hne, hkept] using hobject
    · cases hstep
  · have hdown : s.leases.beginShutdown = (w, requests) := Option.some.inj hstep
    have hkept : s.leases.beginShutdown.1.leases = s.leases.leases := by
      unfold LeaseWorld.beginShutdown
      split <;> rfl
    rw [hdown] at hkept
    exact (congrFun hkept r').trans hobject

/-- Such an operation keeps the server consistent. -/
lemma Consistent.onLeases (h : Consistent s) {call : LeaseCall ι} (hcall : s.onLeases call = some s')
    (hother : ∀ r', s.working = some r' → (∃ r mode, call = .tryAcquire r mode) ∨
      (∃ r, call = .destroy r ∧ r ≠ r') ∨ call = .beginShutdown) : Consistent s' := by
  obtain ⟨howned, hrunning, hworker⟩ := onLeases_owned h.owned hcall
  have hworking : s'.working = s.working := by
    unfold ServerWorld.working
    rw [hworker]
  refine ⟨howned, fun r' hr' => ?_, by rw [hrunning, hworker]; exact h.running⟩
  rw [hworking] at hr'
  obtain ⟨lease, hlive⟩ := h.working r' hr'
  exact ⟨lease, onLeases_live hcall hlive (hother r' hr')⟩

/-- Every call and step keeps the server consistent. -/
lemma step_consistent (h : Consistent s) {call : ServerCall ι} {answer : ServerAnswer}
    (hstep : s.step call = some (s', answer)) : Consistent s' := by
  cases call with
  | tryAcquire r mode =>
    obtain ⟨s₁, hcall, hs₁⟩ := Option.map_eq_some_iff.mp hstep
    cases hs₁
    exact h.onLeases hcall fun _ _ => .inl ⟨r, mode, rfl⟩
  | startWorker r =>
    simp only [step] at hstep
    split at hstep
    · next hholds =>
      split at hstep
      · cases hstep
        exact h
      · cases hstep
        refine ⟨h.owned, fun r' hr' => ?_, by simp⟩
        cases hr'
        exact (live_of_holds hholds).1
    · cases hstep
  | startThrows r =>
    simp only [step] at hstep
    split at hstep <;> cases hstep
    exact h
  | drop r =>
    simp only [step] at hstep
    split at hstep
    · cases hstep
    · next hother =>
      obtain ⟨s₁, hcall, hs₁⟩ := Option.map_eq_some_iff.mp hstep
      cases hs₁
      refine h.onLeases hcall fun r' hr' => .inr (.inl ⟨r, rfl, ?_⟩)
      rintro rfl
      exact hother hr'
  | beginShutdown =>
    simp only [step] at hstep
    obtain ⟨s₁, hcall, hs₁⟩ := Option.map_eq_some_iff.mp hstep
    cases hs₁
    exact h.onLeases hcall fun _ _ => .inr (.inr rfl)
  | reset =>
    simp only [step] at hstep
    split at hstep
    · next r hworker =>
      obtain ⟨s₁, hcall, hs₁⟩ := Option.map_eq_some_iff.mp hstep
      cases hs₁
      obtain ⟨howned, hrunning, -⟩ := onLeases_owned h.owned hcall
      refine ⟨howned, fun r' hr' => ?_, ?_⟩
      · cases hr'
      · have hset := h.running.mpr ⟨r, .inl hworker⟩
        simp [hrunning, hset]
    · cases hstep
  | throw =>
    simp only [step] at hstep
    split at hstep
    · next r hworker =>
      cases hstep
      refine ⟨h.owned, fun r' hr' => ?_, ?_⟩
      · exact h.working r' (by simpa [ServerWorld.working, hworker] using hr')
      · have hset := h.running.mpr ⟨r, .inl hworker⟩
        simp [hset]
    · cases hstep
  | clear =>
    simp only [step] at hstep
    split at hstep
    · cases hstep
      exact ⟨h.owned, fun r' hr' => (by cases hr'), by simp⟩
    · next r hworker =>
      cases hstep
      refine ⟨h.owned, fun r' hr' => ?_, by simp⟩
      exact h.working r' (by simpa [ServerWorld.working, hworker] using hr')
    · cases hstep
  | complete =>
    simp only [step] at hstep
    split at hstep
    · next hworker =>
      cases hstep
      refine ⟨h.owned, fun r' hr' => (by cases hr'), ?_⟩
      have hclear := h.running
      simpa [hworker] using hclear
    · next r hworker =>
      obtain ⟨s₁, hcall, hs₁⟩ := Option.map_eq_some_iff.mp hstep
      cases hs₁
      obtain ⟨howned, hrunning, -⟩ := onLeases_owned h.owned hcall
      refine ⟨howned, fun r' hr' => (by cases hr'), ?_⟩
      have hclear := h.running
      simpa [hworker, hrunning] using hclear
    · cases hstep

omit [DecidableEq ι] in
/-- The server at the start. -/
lemma consistent_init : Consistent ({} : ServerWorld ι) :=
  ⟨⟨none, LeaseWorld.ownedBy_init⟩, fun r hr => (by cases hr), by simp⟩

/-- A request that holds the lease finds the slot taken only by a worker that has released its own. -/
lemma Consistent.running_iff (h : Consistent s) (hholds : s.holds r = true) :
    s.running = true ↔ ∃ r', s.worker = some (.released r') := by
  obtain ⟨⟨lease, hlive⟩, hother⟩ := live_of_holds hholds
  have hnot : ∀ r', s.working ≠ some r' := by
    rintro r' hr'
    obtain ⟨lease', hlive'⟩ := h.working r' hr'
    rw [h.live_unique hlive' hlive] at hr'
    exact hother hr'
  rw [h.running]
  constructor
  · rintro ⟨r', hworker | hworker | hworker⟩
    · exact absurd (by simp [ServerWorld.working, hworker]) (hnot r')
    · exact ⟨r', hworker⟩
    · exact absurd (by simp [ServerWorld.working, hworker]) (hnot r')
  · rintro ⟨r', hworker⟩
    exact ⟨r', .inr (.inl hworker)⟩

/-- Only `start_worker` refuses. -/
lemma startWorker_of_refused {call : ServerCall ι} (hstep : s.step call = some (s', .refused)) :
    ∃ r, call = .startWorker r := by
  cases call with
  | startWorker r => exact ⟨r, rfl⟩
  | tryAcquire r mode =>
    obtain ⟨s₁, -, hs₁⟩ := Option.map_eq_some_iff.mp hstep
    have hanswer := (Prod.mk.inj hs₁).2
    split at hanswer <;> cases hanswer
  | startThrows r =>
    simp only [step] at hstep
    split at hstep <;> cases hstep
  | drop r =>
    simp only [step] at hstep
    split at hstep
    · cases hstep
    · obtain ⟨s₁, -, hs₁⟩ := Option.map_eq_some_iff.mp hstep
      cases hs₁
  | beginShutdown =>
    simp only [step] at hstep
    obtain ⟨s₁, -, hs₁⟩ := Option.map_eq_some_iff.mp hstep
    cases hs₁
  | reset =>
    simp only [step] at hstep
    split at hstep
    · obtain ⟨s₁, -, hs₁⟩ := Option.map_eq_some_iff.mp hstep
      cases hs₁
    · cases hstep
  | throw =>
    simp only [step] at hstep
    split at hstep <;> cases hstep
  | clear =>
    simp only [step] at hstep
    split at hstep <;> cases hstep
  | complete =>
    simp only [step] at hstep
    split at hstep
    · cases hstep
    · obtain ⟨s₁, -, hs₁⟩ := Option.map_eq_some_iff.mp hstep
      cases hs₁
    · cases hstep

/-- **A granted lease gets the worker, unless the last worker is between its two releases.**  In every run no
request that holds the lease is refused the worker exactly when every request calls `start_worker` at a time
when no worker has reset its lease with `running_` still set. -/
theorem granted_lease_gets_worker {calls : List (ServerCall ι)} {answers : List ServerAnswer}
    (hrun : runSteps step ({} : ServerWorld ι) calls = some (s, answers)) :
    (∀ answer ∈ answers, answer ≠ .refused) ↔
      RunMeets step (fun s call => ∀ r, call = .startWorker r → ∀ r', s.worker ≠ some (.released r'))
        ({} : ServerWorld ι) calls := by
  refine runMeets_iff Consistent (fun s call s' answer h hstep => step_consistent h hstep)
    (fun s call s' answer h hstep => ?_) consistent_init hrun
  constructor
  · rintro hgood r rfl r' hworker
    simp only [step] at hstep
    split at hstep
    · next hholds =>
      rw [if_pos ((h.running_iff hholds).mpr ⟨r', hworker⟩)] at hstep
      cases hstep
      exact hgood rfl
    · cases hstep
  · rintro hfree rfl
    obtain ⟨r, rfl⟩ := startWorker_of_refused hstep
    simp only [step] at hstep
    split at hstep
    · next hholds =>
      split at hstep
      · next hset =>
        obtain ⟨r', hworker⟩ := (h.running_iff hholds).mp hset
        exact hfree r rfl r' hworker
      · cases hstep
    · cases hstep

/-- Two batch requests one after the other, with a realtime one in between that gets no lease. -/
def oneAfterTheOther : List (ServerCall ℕ) :=
  [.tryAcquire 0 .batch, .startWorker 0, .tryAcquire 1 .realtime, .reset, .clear, .complete,
    .tryAcquire 2 .batch, .startWorker 2]

/-- The second batch request starts when the first worker has ended. -/
theorem granted_lease_gets_worker_twice : ∃ s answers,
    runSteps step ({} : ServerWorld ℕ) oneAfterTheOther = some (s, answers) ∧
    answers = [.acquired, .started, .busy, .done, .done, .done, .acquired, .started] ∧
      ((∀ answer ∈ answers, answer ≠ .refused) ↔ RunMeets step
        (fun s call => ∀ r, call = .startWorker r → ∀ r', s.worker ≠ some (.released r'))
        ({} : ServerWorld ℕ) oneAfterTheOther) := by
  obtain ⟨s, answers, hrun, hanswers⟩ : ∃ s answers,
      runSteps step ({} : ServerWorld ℕ) oneAfterTheOther = some (s, answers) ∧
        answers = [.acquired, .started, .busy, .done, .done, .done, .acquired, .started] :=
    ⟨_, _, rfl, rfl⟩
  exact ⟨s, answers, hrun, hanswers, granted_lease_gets_worker hrun⟩

/-- A second request acquires the lease right after the worker released it and is refused the worker. -/
theorem granted_lease_refused : ∃ s answers,
    runSteps step ({} : ServerWorld ℕ) [.tryAcquire 0 .batch, .startWorker 0, .reset,
      .tryAcquire 1 .batch, .startWorker 1] = some (s, answers) ∧
    answers = [.acquired, .started, .done, .acquired, .refused] :=
  ⟨_, _, rfl, rfl⟩

end ServerWorld

end Voxtral
