import Mathlib.Data.List.Basic

/-!
# Runs of a partial step function

A component answers every request `i` in state `s` with `step s i`: the next state and a response,
or `none` where the behaviour is undefined.  `runSteps` answers a list of requests in order.  The
induction principles below are the only way the development reasons about whole runs: a predicate
over the state, the requests made and the responses received so far is shown to hold at the start
and to be kept by one step.
-/

namespace Voxtral

section Runs

variable {σ ι ο : Type*}

/-- Answer a list of requests in order; undefined as soon as one answer is. -/
def runSteps (step : σ → ι → Option (σ × ο)) : σ → List ι → Option (σ × List ο)
  | s, [] => some (s, [])
  | s, i :: is =>
    match step s i with
    | none => none
    | some (s', o) =>
      match runSteps step s' is with
      | none => none
      | some (s'', os) => some (s'', o :: os)

/-- Every step of the run from `s` meets `C`, a condition on the state before it and its request. -/
def RunMeets (step : σ → ι → Option (σ × ο)) (C : σ → ι → Prop) : σ → List ι → Prop
  | _, [] => True
  | s, i :: is => C s i ∧ ∀ s' o, step s i = some (s', o) → RunMeets step C s' is

variable {step : σ → ι → Option (σ × ο)}

/-- A run of no requests. -/
@[simp] lemma runSteps_nil (s : σ) : runSteps step s [] = some (s, []) := rfl

/-- A run of a nonempty list is its first step followed by the run of the rest. -/
lemma runSteps_cons_eq_some {s t : σ} {i : ι} {is : List ι} {os : List ο} :
    runSteps step s (i :: is) = some (t, os) ↔
      ∃ s' o os', step s i = some (s', o) ∧ runSteps step s' is = some (t, os') ∧
        os = o :: os' := by
  constructor
  · intro h
    rw [runSteps] at h
    cases hs : step s i with
    | none => simp [hs] at h
    | some p =>
      obtain ⟨s', o⟩ := p
      cases hr : runSteps step s' is with
      | none => simp [hs, hr] at h
      | some q =>
        obtain ⟨s'', os'⟩ := q
        simp only [hs, hr, Option.some.injEq, Prod.mk.injEq] at h
        obtain ⟨rfl, rfl⟩ := h
        exact ⟨s', o, os', rfl, hr, rfl⟩
  · rintro ⟨s', o, os', hs, hr, rfl⟩
    simp [runSteps, hs, hr]

/-- Runs compose: the requests of the second list are answered from where the first list ended. -/
lemma runSteps_append {s t : σ} {is js : List ι} {os : List ο} :
    runSteps step s (is ++ js) = some (t, os) ↔
      ∃ s' os₁ os₂, runSteps step s is = some (s', os₁) ∧ runSteps step s' js = some (t, os₂) ∧
        os = os₁ ++ os₂ := by
  induction is generalizing s os with
  | nil => simp
  | cons i is ih =>
    rw [List.cons_append, runSteps_cons_eq_some]
    constructor
    · rintro ⟨s', o, os', hs, hr, rfl⟩
      obtain ⟨s'', os₁, os₂, h1, h2, rfl⟩ := ih.mp hr
      exact ⟨s'', o :: os₁, os₂, runSteps_cons_eq_some.mpr ⟨s', o, os₁, hs, h1, rfl⟩, h2, rfl⟩
    · rintro ⟨s'', os₁, os₂, h1, h2, rfl⟩
      obtain ⟨s', o, os', hs, hr, rfl⟩ := runSteps_cons_eq_some.mp h1
      exact ⟨s', o, os' ++ os₂, hs, ih.mpr ⟨s'', os', os₂, hr, h2, rfl⟩, rfl⟩

/-- A run of one request is one step. -/
lemma runSteps_singleton {s t : σ} {i : ι} {os : List ο} :
    runSteps step s [i] = some (t, os) ↔ ∃ o, step s i = some (t, o) ∧ os = [o] := by
  rw [runSteps_cons_eq_some]
  constructor
  · rintro ⟨s', o, os', hs, hr, rfl⟩
    simp only [runSteps_nil, Option.some.injEq, Prod.mk.injEq] at hr
    obtain ⟨rfl, rfl⟩ := hr
    exact ⟨o, hs, rfl⟩
  · rintro ⟨o, hs, rfl⟩
    exact ⟨t, o, [], hs, rfl, rfl⟩

/-- Run induction from any point of a run: a predicate of the state, the requests and the responses so
far that holds there and is kept by every step meeting `C` holds at the end. -/
theorem runSteps_induction_from {C : σ → ι → Prop} {P : σ → List ι → List ο → Prop}
    (hstep : ∀ s is os i s' o, P s is os → C s i → step s i = some (s', o) →
      P s' (is ++ [i]) (os ++ [o]))
    {s₀ : σ} {is₀ : List ι} {os₀ : List ο} (h₀ : P s₀ is₀ os₀) {is : List ι}
    (hC : RunMeets step C s₀ is) {s : σ} {os : List ο} (hrun : runSteps step s₀ is = some (s, os)) :
    P s (is₀ ++ is) (os₀ ++ os) := by
  induction is generalizing s₀ is₀ os₀ os with
  | nil =>
    simp only [runSteps_nil, Option.some.injEq, Prod.mk.injEq] at hrun
    obtain ⟨rfl, rfl⟩ := hrun
    simpa using h₀
  | cons i is ih =>
    obtain ⟨s', o, os', hs, hr, rfl⟩ := runSteps_cons_eq_some.mp hrun
    have hnext := ih (hstep _ _ _ _ _ _ h₀ hC.1 hs) (hC.2 _ _ hs) hr
    simpa using hnext

/-- Run induction with a condition on the steps: a predicate of the state, the requests and the
responses so far that holds initially and is kept by every step meeting `C` holds at the end of
every run whose steps all meet `C`. -/
theorem runSteps_induction_of_meets {C : σ → ι → Prop} {P : σ → List ι → List ο → Prop}
    (hstep : ∀ s is os i s' o, P s is os → C s i → step s i = some (s', o) →
      P s' (is ++ [i]) (os ++ [o]))
    {s₀ : σ} (h₀ : P s₀ [] []) {is : List ι} (hC : RunMeets step C s₀ is) {s : σ} {os : List ο}
    (hrun : runSteps step s₀ is = some (s, os)) : P s is os :=
  runSteps_induction_from hstep h₀ hC hrun

/-- The trivial condition is met by every run. -/
lemma runMeets_true (s : σ) (is : List ι) : RunMeets step (fun _ _ => True) s is := by
  induction is generalizing s with
  | nil => trivial
  | cons i is ih => exact ⟨trivial, fun s' _ _ => ih s'⟩

/-- A condition that every request meets in every state is met by every run of them. -/
lemma runMeets_of_forall {C : σ → ι → Prop} {is : List ι} (h : ∀ i ∈ is, ∀ s, C s i) (s : σ) :
    RunMeets step C s is := by
  induction is generalizing s with
  | nil => trivial
  | cons i is ih =>
    exact ⟨h i List.mem_cons_self s, fun s' _ _ => ih (fun j hj => h j (List.mem_cons_of_mem i hj)) s'⟩

/-- Check a condition at every step of a run. -/
def checkRun (step : σ → ι → Option (σ × ο)) (c : σ → ι → Bool) : σ → List ι → Bool
  | _, [] => true
  | s, i :: is =>
    c s i &&
      match step s i with
      | none => true
      | some (s', _) => checkRun step c s' is

/-- A run that passes the check meets the condition. -/
lemma runMeets_of_checkRun {c : σ → ι → Bool} {s : σ} {is : List ι}
    (h : checkRun step c s is = true) : RunMeets step (fun s i => c s i = true) s is := by
  induction is generalizing s with
  | nil => trivial
  | cons i is ih =>
    rw [checkRun, Bool.and_eq_true] at h
    refine ⟨h.1, fun s' o hs => ih ?_⟩
    simpa [hs] using h.2

/-- A weaker condition is met by every run that meets a stronger one. -/
lemma RunMeets.mono {C D : σ → ι → Prop} (hCD : ∀ s i, C s i → D s i) {s : σ} {is : List ι}
    (h : RunMeets step C s is) : RunMeets step D s is := by
  induction is generalizing s with
  | nil => trivial
  | cons i is ih => exact ⟨hCD _ _ h.1, fun s' o hs => ih (h.2 s' o hs)⟩

/-- Run induction: a predicate that holds initially and is kept by every step holds at the end of
every run. -/
theorem runSteps_induction {P : σ → List ι → List ο → Prop}
    (hstep : ∀ s is os i s' o, P s is os → step s i = some (s', o) →
      P s' (is ++ [i]) (os ++ [o]))
    {s₀ : σ} (h₀ : P s₀ [] []) {is : List ι} {s : σ} {os : List ο}
    (hrun : runSteps step s₀ is = some (s, os)) : P s is os :=
  runSteps_induction_of_meets (C := fun _ _ => True)
    (fun s is os i s' o hP _ hs => hstep s is os i s' o hP hs) h₀ (runMeets_true s₀ is) hrun

/-- If in every state of a run a step is answered well exactly when it meets `C`, a run is answered well
throughout exactly when all its steps meet `C`. -/
theorem runMeets_iff {C : σ → ι → Prop} (Inv : σ → Prop) {good : ο → Prop}
    (hinv : ∀ s i s' o, Inv s → step s i = some (s', o) → Inv s')
    (hgood : ∀ s i s' o, Inv s → step s i = some (s', o) → (good o ↔ C s i))
    {s : σ} (h : Inv s) {is : List ι} {t : σ} {os : List ο}
    (hrun : runSteps step s is = some (t, os)) : (∀ o ∈ os, good o) ↔ RunMeets step C s is := by
  induction is generalizing s os with
  | nil =>
    simp only [runSteps_nil, Option.some.injEq, Prod.mk.injEq] at hrun
    obtain ⟨rfl, rfl⟩ := hrun
    simp [RunMeets]
  | cons i is ih =>
    obtain ⟨s₁, o, os', hs, hr, rfl⟩ := runSteps_cons_eq_some.mp hrun
    rw [List.forall_mem_cons, ih (hinv s i s₁ o h hs) hr, hgood s i s₁ o h hs, RunMeets]
    refine and_congr_right fun _ => ⟨fun hrest s' o' hs' => ?_, fun hrest => hrest s₁ o hs⟩
    obtain ⟨rfl, rfl⟩ := Prod.mk.inj (Option.some.inj (hs.symm.trans hs'))
    exact hrest

/-- Requests that each make a measure smaller are at most as many as the measure allows. -/
theorem runSteps_length_le {measure : σ → ℕ} {good : ι → Prop}
    (hstep : ∀ s i s' o, good i → step s i = some (s', o) → measure s' < measure s) {s t : σ}
    {is : List ι} {os : List ο} (hgood : ∀ i ∈ is, good i) (hrun : runSteps step s is = some (t, os)) :
    is.length + measure t ≤ measure s := by
  induction is generalizing s os with
  | nil =>
    simp only [runSteps_nil, Option.some.injEq, Prod.mk.injEq] at hrun
    obtain ⟨rfl, rfl⟩ := hrun
    simp
  | cons i is ih =>
    obtain ⟨s', o, os', hs, hr, rfl⟩ := runSteps_cons_eq_some.mp hrun
    have hfirst := hstep s i s' o (hgood i List.mem_cons_self) hs
    have hrest := ih (fun j hj => hgood j (List.mem_cons_of_mem i hj)) hr
    rw [List.length_cons]
    omega

/-! ## Simulation -/

variable {τ ι' : Type*}

/-- Answer a list of requests by a total step function. -/
def runAll (step : τ → ι' → τ × ο) : τ → List ι' → τ × List ο
  | t, [] => (t, [])
  | t, i :: is =>
    let p := step t i
    let q := runAll step p.1 is
    (q.1, p.2 :: q.2)

/-- Run simulation: if every step of a component is matched by the step of a model on the translated
request, with the same response, then every run is. -/
theorem runSteps_simulation {R : σ → τ → Prop} {model : τ → ι' → τ × ο} {f : ι → ι'}
    (hstep : ∀ s t i s' o, R s t → step s i = some (s', o) →
      (model t (f i)).2 = o ∧ R s' (model t (f i)).1)
    {s s' : σ} {t : τ} (h : R s t) {is : List ι} {os : List ο}
    (hrun : runSteps step s is = some (s', os)) :
    (runAll model t (is.map f)).2 = os ∧ R s' (runAll model t (is.map f)).1 := by
  induction is generalizing s t os with
  | nil =>
    simp only [runSteps_nil, Option.some.injEq, Prod.mk.injEq] at hrun
    obtain ⟨rfl, rfl⟩ := hrun
    exact ⟨rfl, h⟩
  | cons i is ih =>
    obtain ⟨s₁, o, os', hs, hr, rfl⟩ := runSteps_cons_eq_some.mp hrun
    obtain ⟨hanswer, hnext⟩ := hstep s t i s₁ o h hs
    obtain ⟨hanswers, hend⟩ := ih hnext hr
    simp only [List.map_cons, runAll, hanswer, hanswers]
    exact ⟨trivial, hend⟩

/-! ## Two runs in lock step -/

/-- Both results are undefined, or they give the same answer in related states. -/
def LockStep (R : σ → τ → Prop) : Option (σ × ο) → Option (τ × ο) → Prop :=
  Option.Rel fun a b => b.2 = a.2 ∧ R a.1 b.1

/-- Results in lock step are in every relation that follows for them. -/
lemma LockStep.imp {R R' : σ → τ → Prop} {x : Option (σ × ο)} {y : Option (τ × ο)}
    (h : LockStep R x y) (himp : ∀ s t o, x = some (s, o) → R s t → R' s t) : LockStep R' x y := by
  cases h with
  | none => exact .none
  | some h => exact .some ⟨h.1, himp _ _ _ rfl h.2⟩

/-- A defined result in lock step has a partner. -/
lemma LockStep.exists_of_some {R : σ → τ → Prop} {s : σ} {o : ο} {y : Option (τ × ο)}
    (h : LockStep R (some (s, o)) y) : ∃ t, y = some (t, o) ∧ R s t := by
  cases h with
  | some h =>
    rename_i b
    obtain ⟨t, o'⟩ := b
    obtain ⟨rfl, hR⟩ := h
    exact ⟨t, rfl, hR⟩

/-- Results in lock step, continued by functions that stay in lock step. -/
lemma LockStep.bind {R : σ → τ → Prop} {ο' σ' τ' : Type*} {R' : σ' → τ' → Prop} {x : Option (σ × ο)}
    {y : Option (τ × ο)} (h : LockStep R x y) {f : σ × ο → Option (σ' × ο')}
    {g : τ × ο → Option (τ' × ο')} (hfg : ∀ s t o, R s t → LockStep R' (f (s, o)) (g (t, o))) :
    LockStep R' (x.bind f) (y.bind g) := by
  cases h with
  | none => exact .none
  | some h =>
    rename_i a b
    obtain ⟨s, o⟩ := a
    obtain ⟨t, o'⟩ := b
    obtain ⟨rfl, hR⟩ := h
    exact hfg s t _ hR

/-- Results in lock step, mapped by functions that stay in lock step. -/
lemma LockStep.map {R : σ → τ → Prop} {ο' σ' τ' : Type*} {R' : σ' → τ' → Prop} {x : Option (σ × ο)}
    {y : Option (τ × ο)} (h : LockStep R x y) {f : σ × ο → σ' × ο'} {g : τ × ο → τ' × ο'}
    (hfg : ∀ s t o, R s t → (g (t, o)).2 = (f (s, o)).2 ∧ R' (f (s, o)).1 (g (t, o)).1) :
    LockStep R' (x.map f) (y.map g) := by
  cases h with
  | none => exact .none
  | some h =>
    rename_i a b
    obtain ⟨s, o⟩ := a
    obtain ⟨t, o'⟩ := b
    obtain ⟨rfl, hR⟩ := h
    exact .some (hfg s t _ hR)

/-- Two-run induction: components whose steps stay in lock step answer every list of requests the
same. -/
theorem LockStep.run {R : σ → τ → Prop} {step' : τ → ι → Option (τ × ο)}
    (hstep : ∀ s t i, R s t → LockStep R (step s i) (step' t i)) {s : σ} {t : τ} (h : R s t)
    (is : List ι) : LockStep R (runSteps step s is) (runSteps step' t is) := by
  induction is generalizing s t with
  | nil => exact .some ⟨rfl, h⟩
  | cons i is ih =>
    have hfirst := hstep s t i h
    rw [runSteps, runSteps]
    generalize step s i = x at hfirst
    generalize step' t i = y at hfirst
    cases hfirst with
    | none => exact .none
    | some hfirst =>
      rename_i a b
      obtain ⟨s', o⟩ := a
      obtain ⟨t', o'⟩ := b
      obtain ⟨rfl, hR⟩ := hfirst
      have hrest := ih hR
      dsimp only
      generalize runSteps step s' is = u at hrest
      generalize runSteps step' t' is = v at hrest
      cases hrest with
      | none => exact .none
      | some hrest =>
        rename_i c d
        obtain ⟨s'', os⟩ := c
        obtain ⟨t'', os'⟩ := d
        obtain ⟨rfl, hR'⟩ := hrest
        exact .some ⟨rfl, hR'⟩

end Runs

end Voxtral
