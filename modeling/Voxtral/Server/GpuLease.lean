import Voxtral.Lib.Runs

/-!
# The GPU lease

`GpuLeaseManager` hands out at most one lease at a time.  A lease is a movable object: moves carry the
ownership from one object to another, and the manager keeps its own copy of the mode and of the
cancellation token of the lease it gave out.  The state below has all lease objects of a program next to
the manager, and `leaseStep` performs one operation on them.  The invariant `OwnedBy` says what the
manager's copies mean: they describe the one object that owns the GPU, every other lease object being
empty.
-/

namespace Voxtral

/-- `GpuMode`. -/
inductive GpuMode
  | free
  | batch
  | realtime
  | shuttingDown
  deriving DecidableEq, Repr

/-- `CancelReason`. -/
inductive CancelReason
  | none
  | client
  | disconnect
  | shutdown
  | capacity
  | protocol
  deriving DecidableEq, Repr

/-- `Cancellation`: the atomic reason. -/
structure Cancellation where
  reason : CancelReason := .none
  deriving DecidableEq, Repr

/-- `Cancellation::request`: the first reason stays. -/
def Cancellation.request (c : Cancellation) (reason : CancelReason) : Cancellation :=
  if reason = .none then c else if c.reason = .none then ⟨reason⟩ else c

/-- `Cancellation::requested`. -/
def Cancellation.requested (c : Cancellation) : Bool := c.reason ≠ .none

/-- `GpuLease`: whether it points to the manager, its mode and its share of a cancellation token (the
position of the token among all tokens made). -/
structure GpuLease where
  manager : Bool := false
  mode : GpuMode := .free
  cancellation : Option ℕ := none
  deriving DecidableEq, Repr

/-- The lease manager, all cancellation tokens it made, and the lease objects that exist. -/
structure LeaseWorld (ι : Type*) where
  mode : GpuMode := .free
  activeCancellation : Option ℕ := none
  tokens : List Cancellation := []
  leases : ι → Option GpuLease := fun _ => none

/-- The operations on lease objects, on the manager and on shared tokens. -/
inductive LeaseCall (ι : Type*)
  /-- `GpuLease l;` -/
  | construct (l : ι)
  /-- `GpuLease l = manager.try_acquire(mode);` -/
  | tryAcquire (l : ι) (mode : GpuMode)
  /-- `GpuLease l = std::move(source);` -/
  | moveConstruct (l source : ι)
  /-- `l = std::move(source);` -/
  | moveAssign (l source : ι)
  /-- `l.reset();` -/
  | reset (l : ι)
  /-- The end of the lifetime of `l`. -/
  | destroy (l : ι)
  /-- `manager.begin_shutdown();` -/
  | beginShutdown
  /-- `token->request(reason);` through any share of a token. -/
  | request (token : ℕ) (reason : CancelReason)
  deriving DecidableEq, Repr

namespace LeaseWorld

variable {ι : Type*}

/-- The reason of a token. -/
def reason (w : LeaseWorld ι) (token : ℕ) : CancelReason :=
  ((w.tokens[token]?).map Cancellation.reason).getD .none

/-- `Cancellation::request` on a token. -/
def requestOn (w : LeaseWorld ι) (token : ℕ) (reason : CancelReason) : LeaseWorld ι :=
  { w with tokens := w.tokens.modify token fun c => c.request reason }

/-- `GpuLeaseManager::try_acquire`. -/
def tryAcquire (w : LeaseWorld ι) (mode : GpuMode) : GpuLease × LeaseWorld ι :=
  if mode ≠ .batch ∧ mode ≠ .realtime then ({}, w)
  else if w.mode ≠ .free then ({}, w)
  else
    (⟨true, mode, some w.tokens.length⟩,
      { w with
        mode
        activeCancellation := some w.tokens.length
        tokens := w.tokens ++ [{}] })

/-- `GpuLeaseManager::release`. -/
def release (w : LeaseWorld ι) (mode : GpuMode) : LeaseWorld ι :=
  { w with
    mode := if w.mode = mode then .free else w.mode
    activeCancellation := none }

/-- `GpuLease::reset`. -/
def reset (w : LeaseWorld ι) (lease : GpuLease) : GpuLease × LeaseWorld ι :=
  if lease.manager then ({}, w.release lease.mode) else (lease, w)

/-- `GpuLeaseManager::begin_shutdown`, with the requests it makes. -/
def beginShutdown (w : LeaseWorld ι) : LeaseWorld ι × List (ℕ × CancelReason) :=
  match w.activeCancellation with
  | some token => ({ w.requestOn token .shutdown with mode := .shuttingDown }, [(token, .shutdown)])
  | none => ({ w with mode := .shuttingDown }, [])

variable [DecidableEq ι]

/-- The lease object `l` begins to exist, changes or, with `none`, ends. -/
def store (w : LeaseWorld ι) (l : ι) (lease : Option GpuLease) : LeaseWorld ι :=
  { w with leases := Function.update w.leases l lease }

/-- One operation, with the cancellation requests it makes.  An object is constructed once and used only
while it exists. -/
def leaseStep (w : LeaseWorld ι) : LeaseCall ι → Option (LeaseWorld ι × List (ℕ × CancelReason))
  | .construct l =>
    match w.leases l with
    | some _ => none
    | none => some (w.store l (some {}), [])
  | .tryAcquire l mode =>
    match w.leases l with
    | some _ => none
    | none => some ((w.tryAcquire mode).2.store l (some (w.tryAcquire mode).1), [])
  | .moveConstruct l source =>
    match w.leases l, w.leases source with
    | none, some other => some ((w.store l (some other)).store source (some {}), [])
    | _, _ => none
  | .moveAssign l source =>
    match w.leases l, w.leases source with
    | some lease, some other =>
      if l = source then some (w, [])
      else some (((w.reset lease).2.store l (some other)).store source (some {}), [])
    | _, _ => none
  | .reset l =>
    match w.leases l with
    | some lease => some ((w.reset lease).2.store l (some (w.reset lease).1), [])
    | none => none
  | .destroy l =>
    match w.leases l with
    | some lease => some ((w.reset lease).2.store l none, [])
    | none => none
  | .beginShutdown => some w.beginShutdown
  | .request token reason =>
    if token < w.tokens.length then some (w.requestOn token reason, [(token, reason)]) else none

/-! ## The owner of the GPU -/

/-- The object that owns the GPU, the mode it was acquired for and its token. -/
structure Owner (ι : Type*) where
  lease : ι
  mode : GpuMode
  token : ℕ

/-- What the owning object holds. -/
def Owner.object (o : Owner ι) : GpuLease := ⟨true, o.mode, some o.token⟩

omit [DecidableEq ι] in
/-- The object `l` is a live lease. -/
def Live (w : LeaseWorld ι) (l : ι) (lease : GpuLease) : Prop :=
  w.leases l = some lease ∧ lease.manager = true

/-- The manager and its leases agree on the owner: its object is the only nonempty one, the manager
shares its token, and until shutdown the mode is that of the owner. -/
structure OwnedBy (w : LeaseWorld ι) (o : Option (Owner ι)) : Prop where
  active : w.activeCancellation = o.map Owner.token
  objects : ∀ l lease, w.leases l = some lease →
    lease = {} ∨ ∃ owner ∈ o, owner.lease = l ∧ lease = owner.object
  owner : ∀ owner ∈ o, w.leases owner.lease = some owner.object ∧
    (owner.mode = .batch ∨ owner.mode = .realtime) ∧ owner.token < w.tokens.length
  mode : w.mode = .shuttingDown ∨ w.mode = (o.map Owner.mode).getD .free

section OwnedBy

variable {w : LeaseWorld ι} {o : Option (Owner ι)} {l : ι}

omit [DecidableEq ι] in
/-- A live lease is the owner. -/
lemma OwnedBy.eq_owner (h : OwnedBy w o) {lease : GpuLease} (hlive : w.Live l lease) :
    ∃ owner, o = some owner ∧ owner.lease = l ∧ lease = owner.object := by
  rcases h.objects l lease hlive.1 with rfl | ⟨owner, ho, hl, hobject⟩
  · exact absurd hlive.2 Bool.false_ne_true
  · exact ⟨owner, ho, hl, hobject⟩

omit [DecidableEq ι] in
/-- The owner is a live lease. -/
lemma OwnedBy.live (h : OwnedBy w o) {owner : Owner ι} (ho : o = some owner) :
    w.Live owner.lease owner.object :=
  ⟨(h.owner owner ho).1, rfl⟩

omit [DecidableEq ι] in
/-- At the start nobody owns the GPU. -/
lemma ownedBy_init : OwnedBy ({} : LeaseWorld ι) none where
  active := rfl
  objects := by simp
  owner := by simp
  mode := .inr rfl

/-- Storing or removing an empty object where the owner is not changes nothing. -/
lemma OwnedBy.store (h : OwnedBy w o) (hl : ∀ owner ∈ o, owner.lease ≠ l) {lease : Option GpuLease}
    (hempty : ∀ g, lease = some g → g = {}) : OwnedBy (w.store l lease) o where
  active := h.active
  objects := by
    intro l' g hg
    by_cases heq : l' = l
    · subst heq
      exact .inl (hempty g (by simpa [LeaseWorld.store] using hg))
    · exact h.objects l' g (by simpa [LeaseWorld.store, heq] using hg)
  owner := by
    intro owner ho
    obtain ⟨hobject, hrest⟩ := h.owner owner ho
    exact ⟨by simpa [LeaseWorld.store, hl owner ho] using hobject, hrest⟩
  mode := h.mode

/-- The owner hands its lease to the object `l`. -/
lemma OwnedBy.move (h : OwnedBy w o) {source : ι} {other : GpuLease} (hne : l ≠ source)
    (hl : ∀ owner ∈ o, owner.lease ≠ l) (hsource : w.leases source = some other) :
    ∃ o', OwnedBy ((w.store l (some other)).store source (some {})) o' := by
  rcases h.objects source other hsource with rfl | ⟨owner, ho, rfl, rfl⟩
  · have hfirst : OwnedBy (w.store l (some {})) o :=
      h.store hl (by simp)
    refine ⟨o, hfirst.store ?_ (by simp)⟩
    rintro owner ho rfl
    have hobject := (h.owner owner ho).1
    rw [hsource] at hobject
    cases hobject
  · cases ho
    refine ⟨some { owner with lease := l }, h.active, ?_, ?_, h.mode⟩
    · intro l' g hg
      by_cases h1 : l' = owner.lease
      · subst h1
        exact .inl (by simpa [LeaseWorld.store] using hg.symm)
      · by_cases h2 : l' = l
        · subst h2
          have hg' : g = owner.object := by simpa [LeaseWorld.store, h1] using hg.symm
          exact .inr ⟨_, rfl, rfl, hg'⟩
        · refine .inl ?_
          rcases h.objects l' g (by simpa [LeaseWorld.store, h1, h2] using hg) with
            hg' | ⟨owner', ho', hlease, -⟩
          · exact hg'
          · cases ho'
            exact absurd hlease.symm h1
    · intro owner' ho'
      cases ho'
      obtain ⟨-, hrest⟩ := h.owner owner rfl
      exact ⟨by simp [LeaseWorld.store, hne, Owner.object], hrest⟩

omit [DecidableEq ι] in
/-- A reset leaves the object empty. -/
lemma OwnedBy.reset_object (h : OwnedBy w o) {lease : GpuLease} (hlease : w.leases l = some lease) :
    (w.reset lease).1 = {} := by
  unfold LeaseWorld.reset
  split
  · rfl
  · next hdead =>
    rcases h.objects l lease hlease with rfl | ⟨owner, -, -, rfl⟩
    · rfl
    · exact absurd rfl hdead

/-- After a reset of the object `l` it is not the owner. -/
lemma OwnedBy.reset (h : OwnedBy w o) {lease : GpuLease} (hlease : w.leases l = some lease)
    (emptied : Option GpuLease) (hempty : ∀ g, emptied = some g → g = {}) :
    ∃ o', OwnedBy ((w.reset lease).2.store l emptied) o' ∧ ∀ owner ∈ o', owner.lease ≠ l := by
  rcases h.objects l lease hlease with rfl | ⟨owner, ho, rfl, rfl⟩
  · -- an empty object is not the owner, and its reset does nothing
    have hother : ∀ owner ∈ o, owner.lease ≠ l := by
      rintro owner ho rfl
      have hobject := (h.owner owner ho).1
      rw [hlease] at hobject
      cases hobject
    exact ⟨o, h.store hother hempty, hother⟩
  · -- the owner's reset frees the GPU, unless it is shutting down
    cases ho
    refine ⟨none, ⟨rfl, ?_, by simp, ?_⟩, by simp⟩
    · intro l' g hg
      by_cases heq : l' = owner.lease
      · subst heq
        exact .inl (hempty g (by simpa [LeaseWorld.store] using hg))
      · rcases h.objects l' g (by
          simpa [LeaseWorld.store, LeaseWorld.reset, LeaseWorld.release, Owner.object, heq] using hg)
          with hg' | ⟨owner', ho', hl', -⟩
        · exact .inl hg'
        · cases ho'
          exact absurd hl'.symm heq
    · have hmode := h.mode
      have hkind := (h.owner owner rfl).2.1
      change (if w.mode = owner.mode then GpuMode.free else w.mode) = .shuttingDown ∨
        (if w.mode = owner.mode then GpuMode.free else w.mode) = .free
      rcases hmode with hdown | hmine
      · rcases hkind with hb | hr
        · simp [hdown, hb]
        · simp [hdown, hr]
      · exact .inr (if_pos hmine)

/-- A lease is acquired only while nobody owns the GPU and it is not shutting down. -/
lemma OwnedBy.tryAcquire (h : OwnedBy w o) (hl : w.leases l = none) (mode : GpuMode) :
    ((w.tryAcquire mode).1 = {} ∧ (w.tryAcquire mode).2 = w) ∨
      (o = none ∧ w.mode = .free ∧ (w.tryAcquire mode).2.tokens = w.tokens ++ [({} : Cancellation)] ∧
        OwnedBy ((w.tryAcquire mode).2.store l (some (w.tryAcquire mode).1))
          (some ⟨l, mode, w.tokens.length⟩)) := by
  unfold LeaseWorld.tryAcquire
  split
  · exact .inl ⟨rfl, rfl⟩
  · next hmode =>
    split
    · exact .inl ⟨rfl, rfl⟩
    · next hfree =>
      rw [not_not] at hfree
      have hnobody : o = none := by
        cases o with
        | none => rfl
        | some owner =>
          have hkind := (h.owner owner rfl).2.1
          rcases h.mode with hm | hm
          · rw [hfree] at hm
            cases hm
          · rcases hkind with hb | hr
            · simp [hfree, hb] at hm
            · simp [hfree, hr] at hm
      subst hnobody
      refine .inr ⟨rfl, hfree, rfl, ⟨rfl, ?_, ?_, .inr rfl⟩⟩
      · intro l' g hg
        by_cases heq : l' = l
        · subst heq
          have hg' : g = ⟨true, mode, some w.tokens.length⟩ := by
            simpa [LeaseWorld.store] using hg.symm
          exact .inr ⟨_, rfl, rfl, hg'⟩
        · rcases h.objects l' g (by simpa [LeaseWorld.store, heq] using hg) with hg' | ⟨_, ho, -⟩
          · exact .inl hg'
          · cases ho
      · intro owner ho
        cases ho
        refine ⟨by simp [LeaseWorld.store, Owner.object], ?_, by simp [LeaseWorld.store]⟩
        by_contra hneither
        exact hmode (by simpa using hneither)

end OwnedBy

/-! ## One operation -/

section Step

variable {w w' : LeaseWorld ι} {o : Option (Owner ι)} {call : LeaseCall ι}
  {requests : List (ℕ × CancelReason)}

omit [DecidableEq ι] in
/-- A shutdown keeps the owner. -/
lemma OwnedBy.beginShutdown (h : OwnedBy w o) : OwnedBy w.beginShutdown.1 o := by
  unfold LeaseWorld.beginShutdown
  split
  · exact ⟨h.active, h.objects, fun owner ho => by simpa [requestOn] using h.owner owner ho, .inl rfl⟩
  · exact ⟨h.active, h.objects, h.owner, .inl rfl⟩

/-- Every operation leaves the GPU with at most one owner. -/
lemma leaseStep_ownedBy (h : OwnedBy w o) (hstep : leaseStep w call = some (w', requests)) :
    ∃ o', OwnedBy w' o' := by
  cases call with
  | construct l =>
    simp only [leaseStep] at hstep
    split at hstep
    · cases hstep
    · next hl =>
      cases hstep
      refine ⟨o, h.store ?_ (by simp)⟩
      rintro owner ho rfl
      simp [(h.owner owner ho).1] at hl
  | tryAcquire l mode =>
    simp only [leaseStep] at hstep
    split at hstep
    · cases hstep
    · next hl =>
      cases hstep
      rcases h.tryAcquire hl mode with ⟨hobject, hworld⟩ | ⟨-, -, -, hacquired⟩
      · rw [hobject, hworld]
        refine ⟨o, h.store ?_ (by simp)⟩
        rintro owner ho rfl
        simp [(h.owner owner ho).1] at hl
      · exact ⟨_, hacquired⟩
  | moveConstruct l source =>
    simp only [leaseStep] at hstep
    split at hstep
    · next other hl hsource =>
      cases hstep
      refine h.move ?_ ?_ hsource
      · rintro rfl
        simp [hl] at hsource
      · rintro owner ho rfl
        simp [(h.owner owner ho).1] at hl
    · cases hstep
  | moveAssign l source =>
    simp only [leaseStep] at hstep
    split at hstep
    · next lease other hl hsource =>
      split at hstep
      · cases hstep
        exact ⟨o, h⟩
      · next hne =>
        cases hstep
        obtain ⟨o', hreset, hother⟩ := h.reset hl (some {}) (by simp)
        have hsource' : ((w.reset lease).2.store l (some {})).leases source = some other := by
          have hleases : (w.reset lease).2.leases = w.leases := by
            unfold LeaseWorld.reset
            split <;> rfl
          simpa [LeaseWorld.store, Ne.symm hne, hleases] using hsource
        have hmoved := hreset.move hne hother hsource'
        have hstore : ((w.reset lease).2.store l (some {})).store l (some other) =
            (w.reset lease).2.store l (some other) := by
          simp [LeaseWorld.store]
        rwa [hstore] at hmoved
    · cases hstep
  | reset l =>
    simp only [leaseStep] at hstep
    split at hstep
    · next lease hl =>
      cases hstep
      rw [h.reset_object hl]
      obtain ⟨o', hreset, -⟩ := h.reset hl (some {}) (by simp)
      exact ⟨o', hreset⟩
    · cases hstep
  | destroy l =>
    simp only [leaseStep] at hstep
    split at hstep
    · next lease hl =>
      cases hstep
      obtain ⟨o', hreset, -⟩ := h.reset hl none (by simp)
      exact ⟨o', hreset⟩
    · cases hstep
  | beginShutdown =>
    have hdown : w.beginShutdown = (w', requests) := Option.some.inj hstep
    have hnext := h.beginShutdown
    rw [hdown] at hnext
    exact ⟨o, hnext⟩
  | request token reason =>
    simp only [leaseStep] at hstep
    split at hstep
    · cases hstep
      exact ⟨o, h.active, h.objects, fun owner ho => by simpa [requestOn] using h.owner owner ho, h.mode⟩
    · cases hstep

omit [DecidableEq ι] in
/-- Only a shutdown begins shutting down, and a reset does not end it. -/
lemma OwnedBy.reset_mode (h : OwnedBy w o) {l : ι} {lease : GpuLease}
    (hlease : w.leases l = some lease) :
    (w.reset lease).2.mode = .shuttingDown ↔ w.mode = .shuttingDown := by
  rcases h.objects l lease hlease with rfl | ⟨owner, ho, rfl, rfl⟩
  · rfl
  · have hkind := (h.owner owner ho).2.1
    change (if w.mode = owner.mode then GpuMode.free else w.mode) = .shuttingDown ↔ _
    by_cases hmine : w.mode = owner.mode
    · rcases hkind with hb | hr
      · simp [hmine, hb]
      · simp [hmine, hr]
    · rw [if_neg hmine]

omit [DecidableEq ι] in
/-- A reset makes no token and no request. -/
@[simp] lemma reset_tokens (lease : GpuLease) : (w.reset lease).2.tokens = w.tokens := by
  unfold LeaseWorld.reset
  split <;> rfl

/-- The manager is shutting down from the first shutdown on. -/
lemma leaseStep_mode (h : OwnedBy w o) (hstep : leaseStep w call = some (w', requests)) :
    w'.mode = .shuttingDown ↔ w.mode = .shuttingDown ∨ call = .beginShutdown := by
  cases call with
  | construct l =>
    simp only [leaseStep] at hstep
    split at hstep <;> cases hstep
    simp [LeaseWorld.store]
  | tryAcquire l mode =>
    simp only [leaseStep] at hstep
    split at hstep
    · cases hstep
    · next hl =>
      cases hstep
      rcases h.tryAcquire hl mode with ⟨-, hworld⟩ | ⟨-, hfree, -, hacquired⟩
      · rw [hworld]
        simp [LeaseWorld.store]
      · have hkind := (hacquired.owner _ rfl).2.1
        have hmode := hacquired.mode
        simp only [LeaseWorld.store, LeaseWorld.tryAcquire, hfree] at hmode ⊢
        rcases hkind with hb | hr
        · simp [show mode = .batch from hb]
        · simp [show mode = .realtime from hr]
  | moveConstruct l source =>
    simp only [leaseStep] at hstep
    split at hstep <;> cases hstep
    simp [LeaseWorld.store]
  | moveAssign l source =>
    simp only [leaseStep] at hstep
    split at hstep
    · next lease other hl hsource =>
      split at hstep <;> cases hstep
      · simp
      · simpa [LeaseWorld.store] using h.reset_mode hl
    · cases hstep
  | reset l =>
    simp only [leaseStep] at hstep
    split at hstep
    · next lease hl =>
      cases hstep
      simpa [LeaseWorld.store] using h.reset_mode hl
    · cases hstep
  | destroy l =>
    simp only [leaseStep] at hstep
    split at hstep
    · next lease hl =>
      cases hstep
      simpa [LeaseWorld.store] using h.reset_mode hl
    · cases hstep
  | beginShutdown =>
    have hdown : w.beginShutdown = (w', requests) := Option.some.inj hstep
    have hmode : w'.mode = .shuttingDown := by
      rw [← show w.beginShutdown.1 = w' by rw [hdown]]
      unfold LeaseWorld.beginShutdown
      split <;> rfl
    exact ⟨fun _ => .inr rfl, fun _ => hmode⟩
  | request token reason =>
    simp only [leaseStep] at hstep
    split at hstep <;> cases hstep
    simp [requestOn]

/-- An operation makes at most one token or one request on a token there is. -/
lemma leaseStep_tokens (h : OwnedBy w o) (hstep : leaseStep w call = some (w', requests)) :
    (requests = [] ∧ (w'.tokens = w.tokens ∨ w'.tokens = w.tokens ++ [({} : Cancellation)])) ∨
      ∃ token reason, requests = [(token, reason)] ∧ token < w.tokens.length ∧
        w'.tokens = w.tokens.modify token fun c => c.request reason := by
  cases call with
  | construct l =>
    simp only [leaseStep] at hstep
    split at hstep <;> cases hstep
    exact .inl ⟨rfl, .inl rfl⟩
  | tryAcquire l mode =>
    simp only [leaseStep] at hstep
    split at hstep
    · cases hstep
    · next hl =>
      cases hstep
      rcases h.tryAcquire hl mode with ⟨-, hworld⟩ | ⟨-, -, htokens, -⟩
      · exact .inl ⟨rfl, .inl (by rw [hworld]; rfl)⟩
      · exact .inl ⟨rfl, .inr htokens⟩
  | moveConstruct l source =>
    simp only [leaseStep] at hstep
    split at hstep <;> cases hstep
    exact .inl ⟨rfl, .inl rfl⟩
  | moveAssign l source =>
    simp only [leaseStep] at hstep
    split at hstep
    · split at hstep <;> cases hstep
      · exact .inl ⟨rfl, .inl rfl⟩
      · exact .inl ⟨rfl, .inl (reset_tokens _)⟩
    · cases hstep
  | reset l =>
    simp only [leaseStep] at hstep
    split at hstep <;> cases hstep
    exact .inl ⟨rfl, .inl (reset_tokens _)⟩
  | destroy l =>
    simp only [leaseStep] at hstep
    split at hstep <;> cases hstep
    exact .inl ⟨rfl, .inl (reset_tokens _)⟩
  | beginShutdown =>
    have hdown : w.beginShutdown = (w', requests) := Option.some.inj hstep
    unfold LeaseWorld.beginShutdown at hdown
    split at hdown
    · next token hactive =>
      obtain ⟨rfl, rfl⟩ := Prod.mk.inj hdown
      refine .inr ⟨token, _, rfl, ?_, rfl⟩
      obtain ⟨owner, ho, rfl⟩ := Option.map_eq_some_iff.mp (h.active.symm.trans hactive)
      exact (h.owner owner ho).2.2
    · obtain ⟨rfl, rfl⟩ := Prod.mk.inj hdown
      exact .inl ⟨rfl, .inl rfl⟩
  | request token reason =>
    simp only [leaseStep] at hstep
    split at hstep
    · next hlt =>
      cases hstep
      exact .inr ⟨token, reason, rfl, hlt, rfl⟩
    · cases hstep

end Step

/-! ## The reasons of the tokens -/

/-- The first reason other than `None` requested on a token. -/
def firstRequested (requests : List (ℕ × CancelReason)) (token : ℕ) : CancelReason :=
  ((requests.find? fun q => q.1 = token ∧ q.2 ≠ .none).map Prod.snd).getD .none

/-- One more request matters only while there was none before. -/
lemma firstRequested_append (requests more : List (ℕ × CancelReason)) (token : ℕ) :
    firstRequested (requests ++ more) token =
      if firstRequested requests token = .none then firstRequested more token
      else firstRequested requests token := by
  unfold firstRequested
  rw [List.find?_append]
  cases hfind : requests.find? fun q => q.1 = token ∧ q.2 ≠ .none with
  | none => simp
  | some q =>
    have hq := List.find?_some hfind
    simp only [decide_eq_true_eq] at hq
    simp [hq.2]

/-- Requests on other tokens do not matter. -/
lemma firstRequested_of_forall_ne {requests : List (ℕ × CancelReason)} {token : ℕ}
    (h : ∀ q ∈ requests, q.1 ≠ token) : firstRequested requests token = .none := by
  unfold firstRequested
  rw [List.find?_eq_none.mpr fun q hq => by simp [h q hq]]
  rfl

omit [DecidableEq ι] in
/-- The tokens record the first requests made on them. -/
structure Records (w : LeaseWorld ι) (requests : List (ℕ × CancelReason)) : Prop where
  reason : ∀ token, w.reason token = firstRequested requests token
  made : ∀ q ∈ requests, q.1 < w.tokens.length

/-- Every operation keeps the record. -/
lemma leaseStep_records {w w' : LeaseWorld ι} {o : Option (Owner ι)} {call : LeaseCall ι}
    {made requests : List (ℕ × CancelReason)} (h : OwnedBy w o) (hrecords : Records w made)
    (hstep : leaseStep w call = some (w', requests)) : Records w' (made ++ requests) := by
  rcases leaseStep_tokens h hstep with ⟨rfl, htokens⟩ | ⟨token, reason, rfl, hlt, htokens⟩
  · rw [List.append_nil]
    have hreason : ∀ token, w'.reason token = w.reason token := by
      intro token
      unfold LeaseWorld.reason
      rcases htokens with hsame | hnew
      · rw [hsame]
      · rw [hnew, List.getElem?_append]
        split
        · rfl
        · next hge =>
          rw [List.getElem?_eq_none (show w.tokens.length ≤ token by omega)]
          cases hgap : token - w.tokens.length with
          | zero => rfl
          | succ k => rfl
    refine ⟨fun token => by rw [hreason, hrecords.reason], fun q hq => ?_⟩
    have hlt := hrecords.made q hq
    rcases htokens with hsame | hnew
    · rwa [hsame]
    · rw [hnew, List.length_append]
      omega
  · refine ⟨fun token' => ?_, fun q hq => ?_⟩
    · rw [firstRequested_append, ← hrecords.reason]
      unfold LeaseWorld.reason
      rw [htokens, List.getElem?_modify]
      by_cases heq : token = token'
      · subst heq
        rw [List.getElem?_eq_getElem hlt]
        by_cases hnone : (w.tokens[token]).reason = .none
        · by_cases hreason : reason = .none
          · simp [Cancellation.request, firstRequested, hnone, hreason]
          · simp [Cancellation.request, firstRequested, hnone, hreason]
        · by_cases hreason : reason = .none
          · simp [Cancellation.request, hnone, hreason]
          · simp [Cancellation.request, hnone, hreason]
      · have hother : firstRequested [(token, reason)] token' = .none :=
          firstRequested_of_forall_ne (by simpa using heq)
        simp only [heq, if_false, hother]
        split
        · next hnone => simpa using hnone
        · simp
    · rw [htokens, List.length_modify]
      rcases List.mem_append.mp hq with hq | hq
      · exact hrecords.made q hq
      · rw [List.mem_singleton.mp hq]
        exact hlt

/-! ## Whole runs -/

section Runs

variable {calls : List (LeaseCall ι)} {w w' : LeaseWorld ι}
  {requests : List (List (ℕ × CancelReason))} {o : Option (Owner ι)}

/-- After every run the GPU has at most one owner, the tokens record the first requests, and the manager
is shutting down once it was told to. -/
lemma leaseRun (hrun : runSteps leaseStep ({} : LeaseWorld ι) calls = some (w, requests)) :
    (∃ o, OwnedBy w o) ∧ Records w requests.flatten ∧
      (w.mode = .shuttingDown ↔ .beginShutdown ∈ calls) := by
  refine runSteps_induction (P := fun w calls requests => (∃ o, OwnedBy w o) ∧
    Records w requests.flatten ∧ (w.mode = .shuttingDown ↔ .beginShutdown ∈ calls)) ?_ ?_ hrun
  · rintro w calls requests call w' more ⟨⟨o, howned⟩, hrecords, hmode⟩ hstep
    refine ⟨leaseStep_ownedBy howned hstep, ?_, ?_⟩
    · rw [List.flatten_append, List.flatten_singleton]
      exact leaseStep_records howned hrecords hstep
    · rw [leaseStep_mode howned hstep, hmode, List.mem_append, List.mem_singleton, eq_comm (a := call)]
  · exact ⟨⟨none, ownedBy_init⟩, ⟨fun _ => rfl, by simp⟩, by simp⟩

omit [DecidableEq ι] in
/-- A live lease has the token the manager would cancel. -/
lemma OwnedBy.live_token (h : OwnedBy w o) {l : ι} {lease : GpuLease} (hlive : w.Live l lease) :
    ∃ token, lease.cancellation = some token ∧ w.activeCancellation = some token ∧
      token < w.tokens.length := by
  obtain ⟨owner, rfl, -, rfl⟩ := h.eq_owner hlive
  exact ⟨owner.token, rfl, h.active, (h.owner owner rfl).2.2⟩

omit [DecidableEq ι] in
/-- A shutdown requests the cancellation of a live lease. -/
lemma OwnedBy.beginShutdown_requests (h : OwnedBy w o) {l : ι} {lease : GpuLease}
    (hlive : w.Live l lease) :
    ∃ token, lease.cancellation = some token ∧ w.beginShutdown.2 = [(token, .shutdown)] := by
  obtain ⟨token, htoken, hactive, -⟩ := h.live_token hlive
  refine ⟨token, htoken, ?_⟩
  unfold LeaseWorld.beginShutdown
  rw [hactive]

/-- A request that was made leaves a reason. -/
lemma firstRequested_ne_none {made : List (ℕ × CancelReason)} {token : ℕ} {reason : CancelReason}
    (hmem : (token, reason) ∈ made) (hreason : reason ≠ .none) :
    firstRequested made token ≠ .none := by
  unfold firstRequested
  cases hfind : made.find? fun q => q.1 = token ∧ q.2 ≠ .none with
  | none => simpa [hreason] using List.find?_eq_none.mp hfind _ hmem
  | some q =>
    have hq := List.find?_some hfind
    simp only [decide_eq_true_eq] at hq
    simpa using hq.2

/-- Requests on other tokens may be dropped. -/
lemma firstRequested_filter (made : List (ℕ × CancelReason)) {token : ℕ} {p : ℕ → Bool}
    (hp : p token = true) :
    firstRequested (made.filter fun q => p q.1) token = firstRequested made token := by
  unfold firstRequested
  rw [List.find?_filter]
  congr 3
  funext q
  by_cases hq : q.1 = token
  · simp [hq, hp]
  · simp [hq]

end Runs

/-- What holds of the leases after the calls `calls`, whose cancellation requests are `requests`. -/
structure Guarantees (calls : List (LeaseCall ι)) (requests : List (ℕ × CancelReason))
    (w : LeaseWorld ι) : Prop where
  /-- At most one lease is live. -/
  exclusive : ∀ l l' lease lease', w.Live l lease → w.Live l' lease' → l = l'
  /-- Before shutdown the mode is `Batch` or `Realtime` exactly while a lease of that mode is live. -/
  busy : .beginShutdown ∉ calls → ∀ mode, mode = .batch ∨ mode = .realtime →
    (w.mode = mode ↔ ∃ l lease, w.Live l lease ∧ lease.mode = mode)
  /-- Before shutdown the mode is `Free` exactly while no lease is live. -/
  free : .beginShutdown ∉ calls → (w.mode = .free ↔ ∀ l lease, ¬ w.Live l lease)
  /-- From shutdown on the mode is `ShuttingDown`. -/
  shuttingDown : .beginShutdown ∈ calls → w.mode = .shuttingDown
  /-- From shutdown on every acquire returns an empty lease. -/
  refused : .beginShutdown ∈ calls → ∀ l mode w' more,
    leaseStep w (.tryAcquire l mode) = some (w', more) → w'.leases l = some {}
  /-- A lease that was live at a shutdown has its cancellation requested. -/
  cancelled : ∀ before after w₁ made l lease, calls = before ++ .beginShutdown :: after →
    runSteps leaseStep ({} : LeaseWorld ι) before = some (w₁, made) → w₁.Live l lease →
    ∃ token, lease.cancellation = some token ∧ w.reason token ≠ .none
  /-- The reason of a token is the first one other than `None` requested on it. -/
  first : ∀ token, w.reason token = firstRequested requests token
  /-- A lease gets a token of its own: what is requested through older tokens does not reach it. -/
  isolated : ∀ before l mode after w₁ made w₂ more lease,
    calls = before ++ .tryAcquire l mode :: after →
    runSteps leaseStep ({} : LeaseWorld ι) before = some (w₁, made) →
    leaseStep w₁ (.tryAcquire l mode) = some (w₂, more) → w₂.Live l lease →
    ∃ token, lease.cancellation = some token ∧ w₁.tokens.length ≤ token ∧
      w.reason token = firstRequested (requests.filter fun q => w₁.tokens.length ≤ q.1) token
  /-- A request changes nothing but the reason of its token. -/
  untouched : ∀ token reason w' more, leaseStep w (.request token reason) = some (w', more) →
    w'.leases = w.leases ∧ w'.mode = w.mode ∧ ∀ other, other ≠ token → w'.reason other = w.reason other

omit [DecidableEq ι] in
/-- While the manager is not shutting down its mode tells the live lease. -/
lemma OwnedBy.busy_iff {w : LeaseWorld ι} {o : Option (Owner ι)} (h : OwnedBy w o)
    (hup : w.mode ≠ .shuttingDown) {mode : GpuMode} (hmode : mode = .batch ∨ mode = .realtime) :
    w.mode = mode ↔ ∃ l lease, w.Live l lease ∧ lease.mode = mode := by
  have howner := h.mode.resolve_left hup
  constructor
  · rintro rfl
    cases o with
    | none => rcases hmode with hm | hm <;> simp [howner] at hm
    | some owner => exact ⟨_, _, h.live rfl, howner.symm⟩
  · rintro ⟨l, lease, hlive, rfl⟩
    obtain ⟨owner, rfl, -, rfl⟩ := h.eq_owner hlive
    exact howner

omit [DecidableEq ι] in
/-- While the manager is not shutting down it is free exactly when no lease is live. -/
lemma OwnedBy.free_iff {w : LeaseWorld ι} {o : Option (Owner ι)} (h : OwnedBy w o)
    (hup : w.mode ≠ .shuttingDown) : w.mode = .free ↔ ∀ l lease, ¬ w.Live l lease := by
  have howner := h.mode.resolve_left hup
  cases o with
  | none =>
    refine ⟨fun _ l lease hlive => ?_, fun _ => howner⟩
    obtain ⟨owner, ho, -⟩ := h.eq_owner hlive
    cases ho
  | some owner =>
    refine ⟨fun hfree => ?_, fun hdead => absurd (h.live rfl) (hdead _ _)⟩
    have hkind := (h.owner owner rfl).2.1
    rw [howner] at hfree
    rcases hkind with hb | hr
    · simp [hb] at hfree
    · simp [hr] at hfree

/-- Nothing is acquired while the manager is shutting down. -/
lemma tryAcquire_of_shuttingDown {w : LeaseWorld ι} (hdown : w.mode = .shuttingDown)
    {l : ι} {mode : GpuMode} {w' : LeaseWorld ι} {more : List (ℕ × CancelReason)}
    (hstep : leaseStep w (.tryAcquire l mode) = some (w', more)) : w'.leases l = some {} := by
  simp only [leaseStep] at hstep
  split at hstep
  · cases hstep
  · cases hstep
    simp [LeaseWorld.tryAcquire, LeaseWorld.store, hdown]

/-- **One lease at a time.**  After every sequence of operations on any number of lease objects at most
one is live, the manager's mode says which until shutdown and `ShuttingDown` ever after, no lease is
granted from then on, the one live at shutdown is cancelled, and the reason of every lease is the first
one requested on it, whatever is requested through older tokens. -/
theorem gpu_lease_exclusive {calls : List (LeaseCall ι)} {w : LeaseWorld ι}
    {requests : List (List (ℕ × CancelReason))}
    (hrun : runSteps leaseStep ({} : LeaseWorld ι) calls = some (w, requests)) :
    Guarantees calls requests.flatten w := by
  obtain ⟨⟨o, howned⟩, hrecords, hmode⟩ := leaseRun hrun
  constructor
  case exclusive =>
    intro l l' lease lease' hlive hlive'
    obtain ⟨owner, rfl, rfl, -⟩ := howned.eq_owner hlive
    obtain ⟨owner', ho', rfl, -⟩ := howned.eq_owner hlive'
    rw [Option.some.inj ho']
  case busy =>
    intro hup mode hkind
    exact howned.busy_iff (fun hdown => hup (hmode.mp hdown)) hkind
  case free =>
    intro hup
    exact howned.free_iff fun hdown => hup (hmode.mp hdown)
  case shuttingDown => exact hmode.mpr
  case refused =>
    intro hdown l mode w' more hstep
    exact tryAcquire_of_shuttingDown (hmode.mpr hdown) hstep
  case cancelled =>
    rintro before after w₁ made l lease rfl hbefore hlive
    obtain ⟨⟨o₁, howned₁⟩, -, -⟩ := leaseRun hbefore
    obtain ⟨token, htoken, hrequest⟩ := howned₁.beginShutdown_requests hlive
    refine ⟨token, htoken, ?_⟩
    -- the run goes through the shutdown, whose request is on record
    obtain ⟨w₁', made', rest, hbefore', hrest, rfl⟩ := runSteps_append.mp hrun
    obtain ⟨rfl, rfl⟩ := Prod.mk.inj (Option.some.inj (hbefore.symm.trans hbefore'))
    obtain ⟨w₂, more, rest', hstep, -, rfl⟩ := runSteps_cons_eq_some.mp hrest
    have hmore : more = [(token, .shutdown)] := by
      rw [← hrequest, show w₁.beginShutdown = (w₂, more) from Option.some.inj hstep]
    have hmade : (token, CancelReason.shutdown) ∈ (made ++ more :: rest').flatten := by simp [hmore]
    rw [hrecords.reason]
    exact firstRequested_ne_none hmade (by decide)
  case first => exact hrecords.reason
  case isolated =>
    rintro before l mode after w₁ made w₂ more lease rfl hbefore hacquire hlive
    obtain ⟨⟨o₁, howned₁⟩, -, -⟩ := leaseRun hbefore
    have hfresh : lease.cancellation = some w₁.tokens.length := by
      have hobject := hlive.1
      simp only [leaseStep] at hacquire
      split at hacquire
      · cases hacquire
      · next hl =>
        cases hacquire
        rcases howned₁.tryAcquire hl mode with ⟨hempty, -⟩ | ⟨-, -, -, hacquired⟩
        · have hdead : lease = {} := by simpa [LeaseWorld.store, hempty] using hobject.symm
          rw [hdead] at hlive
          exact absurd hlive.2 Bool.false_ne_true
        · obtain ⟨owner, ho, -, rfl⟩ := hacquired.eq_owner hlive
          cases ho
          rfl
    refine ⟨_, hfresh, Nat.le_refl _, ?_⟩
    rw [hrecords.reason]
    exact (firstRequested_filter requests.flatten (p := fun t => w₁.tokens.length ≤ t) (by simp)).symm
  case untouched =>
    intro token reason w' more hstep
    simp only [leaseStep] at hstep
    split at hstep <;> cases hstep
    refine ⟨rfl, rfl, fun other hne => ?_⟩
    simp [LeaseWorld.reason, requestOn, Ne.symm hne]

/-- A batch lease is moved twice, a realtime lease is refused meanwhile and granted after the reset; the
shutdown cancels it, and later requests change no reason but that of the old token. -/
theorem gpu_lease_exclusive_moves :
    ∃ (w : LeaseWorld ℕ) (requests : List (List (ℕ × CancelReason))),
      w.mode = .shuttingDown ∧ w.reason 0 = .client ∧ w.reason 1 = .shutdown ∧
      Guarantees [.tryAcquire 0 .batch, .tryAcquire 1 .realtime, .moveAssign 1 0, .moveAssign 1 1,
        .moveConstruct 2 1, .reset 2, .tryAcquire 3 .realtime, .beginShutdown, .request 0 .client,
        .request 1 .protocol, .moveAssign 2 3, .destroy 2] requests.flatten w := by
  refine ⟨_, _, ?_, ?_, ?_, gpu_lease_exclusive rfl⟩
  · rfl
  · rfl
  · rfl

end LeaseWorld

end Voxtral
