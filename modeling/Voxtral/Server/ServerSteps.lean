import Voxtral.Server.WorkerSlot

/-!
# What a call does to the server

One lemma for each call of the IO thread and each step of the worker: which lease object changes, what the
worker and the slot are afterwards, and that every other lease object and the reason of every token stay.
-/

namespace Voxtral

namespace ServerWorld

variable {ι : Type*} [DecidableEq ι]

/-- The two worlds differ in nothing but the worker, the slot and the lease object of `r`, new tokens and
the mode apart; and the mode says as before whether the server shuts down. -/
structure OnlyLease (w w' : ServerWorld ι) (r : ι) : Prop where
  leases : ∀ r' ≠ r, w'.leases.leases r' = w.leases.leases r'
  reason : ∀ token, w'.leases.reason token = w.leases.reason token
  tokens : w.leases.tokens.length ≤ w'.leases.tokens.length
  down : w'.leases.mode = .shuttingDown ↔ w.leases.mode = .shuttingDown

omit [DecidableEq ι] in
/-- Nothing has changed. -/
lemma OnlyLease.refl (w : ServerWorld ι) (r : ι) : OnlyLease w w r :=
  ⟨fun _ _ => rfl, fun _ => rfl, Nat.le_refl _, Iff.rfl⟩

/-- A lease object that is gone again has changed nothing. -/
lemma OnlyLease.gone {w w₁ w₂ : ServerWorld ι} {r : ι} (h : OnlyLease w w₁ r) (h' : OnlyLease w₁ w₂ r)
    (hbefore : w.leases.leases r = none) (hafter : w₂.leases.leases r = none) (r' : ι) :
    OnlyLease w w₂ r' ∧ w₂.leases.leases r' = w.leases.leases r' := by
  have hleases : ∀ r', w₂.leases.leases r' = w.leases.leases r' := by
    intro r'
    by_cases heq : r' = r
    · rw [heq, hafter, hbefore]
    · exact (h'.leases r' heq).trans (h.leases r' heq)
  exact ⟨⟨fun r'' _ => hleases r'', fun token => (h'.reason token).trans (h.reason token),
    Nat.le_trans h.tokens h'.tokens, h'.down.trans h.down⟩, hleases r'⟩

variable {w w' : ServerWorld ι} {r : ι} {answer : ServerAnswer}

omit [DecidableEq ι] in
/-- A token that is made has no reason. -/
lemma reason_of_tokens {l l' : LeaseWorld ι}
    (h : l'.tokens = l.tokens ∨ l'.tokens = l.tokens ++ [({} : Cancellation)]) (token : ℕ) :
    l'.reason token = l.reason token := by
  unfold LeaseWorld.reason
  rcases h with hsame | hnew
  · rw [hsame]
  · rw [hnew, List.getElem?_append]
    split
    · rfl
    · next hge =>
      rw [List.getElem?_eq_none (show l.tokens.length ≤ token by omega)]
      cases hgap : token - l.tokens.length with
      | zero => rfl
      | succ k => rfl

/-- An operation that requests nothing and is no shutdown changes the lease objects it is about. -/
lemma onlyLease_of_leaseStep (h : Consistent w) {call : LeaseCall ι} {l : LeaseWorld ι}
    (hstep : LeaseWorld.leaseStep w.leases call = some (l, [])) (hcall : call ≠ .beginShutdown)
    (hleases : ∀ r' ≠ r, l.leases r' = w.leases.leases r') (hw : w'.leases = l) : OnlyLease w w' r := by
  obtain ⟨o, ho⟩ := h.owned
  have htokens : l.tokens = w.leases.tokens ∨ l.tokens = w.leases.tokens ++ [({} : Cancellation)] := by
    rcases LeaseWorld.leaseStep_tokens ho hstep with ⟨-, htokens⟩ | ⟨_, _, hrequest, -⟩
    · exact htokens
    · cases hrequest
  subst hw
  refine ⟨hleases, reason_of_tokens htokens, ?_, ?_⟩
  · rcases htokens with hsame | hnew
    · exact Nat.le_of_eq (by rw [hsame])
    · rw [hnew, List.length_append]
      omega
  · rw [LeaseWorld.leaseStep_mode ho hstep]
    simp [hcall]

omit [DecidableEq ι] in
/-- A reset of a lease object changes no other. -/
lemma reset_leases (l : LeaseWorld ι) (lease : GpuLease) : (l.reset lease).2.leases = l.leases := by
  unfold LeaseWorld.reset
  split <;> rfl

omit [DecidableEq ι] in
/-- Nor does an acquire. -/
lemma tryAcquire_leases (l : LeaseWorld ι) (mode : GpuMode) : (l.tryAcquire mode).2.leases = l.leases := by
  unfold LeaseWorld.tryAcquire
  split
  · rfl
  · split <;> rfl

/-- `try_acquire` makes a lease object: a live one with a new token, where the GPU is free. -/
lemma step_tryAcquire (h : Consistent w) {mode : GpuMode}
    (hstep : w.step (.tryAcquire r mode) = some (w', answer)) :
    OnlyLease w w' r ∧ w'.worker = w.worker ∧ w'.running = w.running ∧
      ((answer = .busy ∧ w'.leases.leases r = some {}) ∨
        (answer = .acquired ∧ w.leases.mode = .free ∧ w'.leases.tokens.length = w.leases.tokens.length + 1 ∧
          w'.leases.leases r = some ⟨true, mode, some w.leases.tokens.length⟩)) := by
  obtain ⟨w₁, hcall, hanswer⟩ := Option.map_eq_some_iff.mp hstep
  obtain ⟨⟨l, requests⟩, hlease, rfl⟩ := Option.map_eq_some_iff.mp hcall
  obtain ⟨rfl, rfl⟩ := Prod.mk.inj hanswer
  have hnew : w.leases.leases r = none := by
    cases hl : w.leases.leases r with
    | none => rfl
    | some lease => simp [LeaseWorld.leaseStep, hl] at hlease
  have hl : l = (w.leases.tryAcquire mode).2.store r (some (w.leases.tryAcquire mode).1) ∧
      requests = [] := by
    simp only [LeaseWorld.leaseStep, hnew, Option.some.injEq, Prod.mk.injEq] at hlease
    exact ⟨hlease.1.symm, hlease.2.symm⟩
  obtain ⟨rfl, rfl⟩ := hl
  refine ⟨onlyLease_of_leaseStep h hlease (by simp) ?_ rfl, rfl, rfl, ?_⟩
  · intro r' hne
    simp [LeaseWorld.store, hne, tryAcquire_leases]
  · obtain ⟨o, ho⟩ := h.owned
    have hobject : ((w.leases.tryAcquire mode).2.store r (some (w.leases.tryAcquire mode).1)).leases r =
        some (w.leases.tryAcquire mode).1 := by
      simp [LeaseWorld.store]
    rcases ho.tryAcquire hnew mode with ⟨hempty, -⟩ | ⟨-, hfree, htokens, howned⟩
    · refine .inl ⟨?_, hobject.trans (by rw [hempty])⟩
      rw [hobject, hempty]
      rfl
    · have howner := (howned.owner _ rfl).1
      refine .inr ⟨?_, hfree, ?_, howner⟩
      · rw [howner]
        rfl
      · simp [LeaseWorld.store, htokens]

/-- The end of a lease object that is not the worker's. -/
lemma step_drop (h : Consistent w) (hstep : w.step (.drop r) = some (w', answer)) :
    OnlyLease w w' r ∧ w'.worker = w.worker ∧ w'.running = w.running ∧ w'.leases.leases r = none := by
  simp only [step] at hstep
  split at hstep
  · cases hstep
  · obtain ⟨w₁, hcall, hanswer⟩ := Option.map_eq_some_iff.mp hstep
    obtain ⟨⟨l, requests⟩, hlease, rfl⟩ := Option.map_eq_some_iff.mp hcall
    obtain ⟨rfl, rfl⟩ := Prod.mk.inj hanswer
    have hkept := hlease
    simp only [LeaseWorld.leaseStep] at hlease
    split at hlease
    · next lease hl =>
      cases hlease
      refine ⟨onlyLease_of_leaseStep h hkept (by simp) ?_ rfl, rfl, rfl, by simp [LeaseWorld.store]⟩
      intro r' hne
      simp [LeaseWorld.store, hne, reset_leases]
    · cases hlease

/-- The worker's task gives up its lease. -/
lemma step_reset (h : Consistent w) (hstep : w.step .reset = some (w', answer)) :
    ∃ r, w.worker = some (.task r) ∧ OnlyLease w w' r ∧ w'.worker = some (.released r) ∧
      w'.running = w.running ∧ w'.leases.leases r = some {} := by
  simp only [step] at hstep
  split at hstep
  · next r hworker =>
    obtain ⟨w₁, hcall, hanswer⟩ := Option.map_eq_some_iff.mp hstep
    obtain ⟨⟨l, requests⟩, hlease, rfl⟩ := Option.map_eq_some_iff.mp hcall
    obtain ⟨rfl, rfl⟩ := Prod.mk.inj hanswer
    have hkept := hlease
    simp only [LeaseWorld.leaseStep] at hlease
    split at hlease
    · next lease hl =>
      cases hlease
      obtain ⟨o, ho⟩ := h.owned
      refine ⟨r, hworker, onlyLease_of_leaseStep h hkept (by simp) ?_ rfl, rfl, rfl, ?_⟩
      · intro r' hne
        simp [LeaseWorld.store, hne, reset_leases]
      · simp [LeaseWorld.store, ho.reset_object hl]
    · cases hlease
  · cases hstep

/-- The worker that has released its lease clears `running_`. -/
lemma step_clear (hnothrow : ∀ r, w.worker ≠ some (.thrown r))
    (hstep : w.step .clear = some (w', answer)) :
    ∃ r, w.worker = some (.released r) ∧
      w' = { w with running := false, worker := some (.cleared none) } := by
  simp only [step] at hstep
  split at hstep
  · next r hworker =>
    cases hstep
    exact ⟨r, hworker, rfl⟩
  · next r hworker => exact absurd hworker (hnothrow r)
  · cases hstep

/-- The thread of a worker that has cleared `running_` ends. -/
lemma step_complete (hnothrow : ∀ r, w.worker ≠ some (.cleared (some r)))
    (hstep : w.step .complete = some (w', answer)) :
    w.worker = some (.cleared none) ∧ w' = { w with worker := some .ended } := by
  simp only [step] at hstep
  split at hstep
  · next hworker =>
    cases hstep
    exact ⟨hworker, rfl⟩
  · next r hworker => exact absurd hworker (hnothrow r)
  · cases hstep

/-- A worker that is started works for the request. -/
lemma step_startWorker (hfree : w.running = false)
    (hstep : w.step (.startWorker r) = some (w', answer)) :
    w' = { w with running := true, worker := some (.task r) } := by
  simp only [step, hfree] at hstep
  split at hstep
  · cases hstep
    rfl
  · cases hstep

/-- A shutdown requests the token of the live lease and changes no lease object. -/
lemma step_beginShutdown (h : Consistent w) (hstep : w.step .beginShutdown = some (w', answer)) :
    w'.worker = w.worker ∧ w'.running = w.running ∧ w'.leases.leases = w.leases.leases ∧
      w'.leases.mode = .shuttingDown ∧ w'.leases.tokens.length = w.leases.tokens.length := by
  simp only [step] at hstep
  obtain ⟨w₁, hcall, hanswer⟩ := Option.map_eq_some_iff.mp hstep
  obtain ⟨⟨l, requests⟩, hlease, rfl⟩ := Option.map_eq_some_iff.mp hcall
  obtain ⟨rfl, rfl⟩ := Prod.mk.inj hanswer
  obtain ⟨o, ho⟩ := h.owned
  have hl : w.leases.beginShutdown.1 = l := by
    rw [show w.leases.beginShutdown = (l, requests) from Option.some.inj hlease]
  refine ⟨rfl, rfl, ?_, (LeaseWorld.leaseStep_mode ho hlease).mpr (.inr rfl), ?_⟩
  · change l.leases = _
    rw [← hl]
    unfold LeaseWorld.beginShutdown
    split <;> rfl
  · change l.tokens.length = _
    rw [← hl]
    unfold LeaseWorld.beginShutdown
    split
    · simp [LeaseWorld.requestOn]
    · rfl

/-- A lease object that is not the worker's can end. -/
lemma exists_drop {lease : GpuLease} (hl : w.leases.leases r = some lease) (hother : w.working ≠ some r) :
    ∃ w' answer, w.step (.drop r) = some (w', answer) := by
  simp only [step, if_neg hother, onLeases, LeaseWorld.leaseStep, hl]
  exact ⟨_, _, rfl⟩

/-- A lease can be tried for. -/
lemma exists_tryAcquire (hl : w.leases.leases r = none) (mode : GpuMode) :
    ∃ w' answer, w.step (.tryAcquire r mode) = some (w', answer) := by
  simp only [step, onLeases, LeaseWorld.leaseStep, hl]
  exact ⟨_, _, rfl⟩

/-- A worker can be started for a request with a lease. -/
lemma exists_startWorker {lease : GpuLease} (hl : w.leases.Live r lease) (hother : w.working ≠ some r)
    (hfree : w.running = false) : ∃ w' answer, w.step (.startWorker r) = some (w', answer) := by
  have hholds : w.holds r = true := by
    simp [holds, hl.1, hl.2, hother]
  simp only [step, if_pos hholds, hfree, Bool.false_eq_true, if_false]
  exact ⟨_, _, rfl⟩

end ServerWorld

end Voxtral
