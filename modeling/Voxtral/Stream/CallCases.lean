import Voxtral.Stream.Calls

/-!
# Feeds and finishes, exit by exit

`FeedCall` and `FinishCall` list the exits of `feed_common` and of `voxtral_stream_finish_internal` with
the stream each of them leaves, so that a statement about all feeds or all finishes is shown exit by
exit.
-/

namespace Voxtral

variable {α φ ε γ κ : Type*} {eng : Engine α φ ε γ κ} {s s' : Stream α φ ε γ κ}

/-- The stream takes calls that change it. -/
def Stream.Open (s : Stream α φ ε γ κ) : Prop :=
  s.lifecycle.state = .created ∨ s.lifecycle.state = .running

instance (s : Stream α φ ε γ κ) : Decidable s.Open := by
  unfold Stream.Open
  infer_instance

/-- A stream under backpressure has room again for the token it stashed, and for what follows. -/
def Resumes (eng : Engine α φ ε γ κ) (s : Stream α φ ε γ κ) : Prop :=
  s.events.decoderBackpressured = true → (pumpIncremental eng s).2 = .ok

instance (eng : Engine α φ ε γ κ) (s : Stream α φ ε γ κ) : Decidable (Resumes eng s) := by
  unfold Resumes
  infer_instance

/-! ## Feeds -/

/-- The buffer of a feed passes the admission checks of `feed_common`. -/
def FeedBuffer.Fits (buf : FeedBuffer) (s : Stream α φ ε γ κ) : Prop :=
  match buf with
  | .null _ => False
  | .data samples =>
    let received := s.lifecycle.totalSamplesReceived
    samples ≠ [] ∧ samples.length ≤ maxFeedSamples ∧ samples.length ≤ uint64Max - received ∧
      received + samples.length ≤ int64Max ∧
      received + samples.length ≤ s.params.maxTotalSamples

instance (buf : FeedBuffer) (s : Stream α φ ε γ κ) : Decidable (buf.Fits s) := by
  cases buf <;> unfold FeedBuffer.Fits <;> infer_instance

/-- A feed reaches the audio path: the stream is open, no backpressure remains, and the buffer passes
the admission checks. -/
def Admitted (eng : Engine α φ ε γ κ) (s : Stream α φ ε γ κ) (buf : FeedBuffer) : Prop :=
  s.Open ∧ Resumes eng s ∧ buf.Fits (resumed eng s)

instance (eng : Engine α φ ε γ κ) (s : Stream α φ ε γ κ) (buf : FeedBuffer) :
    Decidable (Admitted eng s buf) := by
  unfold Admitted
  infer_instance

/-- The exits of `feed_common`. -/
inductive FeedCall [Zero α] (eng : Engine α φ ε γ κ) (s : Stream α φ ε γ κ) (buf : FeedBuffer) :
    Stream α φ ε γ κ → Status → Prop
  | closed (hclosed : ¬ s.Open) :
      FeedCall eng s buf (setError s .invalidState
        ("feed not allowed in state " ++ stateName s.lifecycle.state)) .invalidState
  /-- The queue has no room for the stashed token, or for one that follows it. -/
  | stalled (hopen : s.Open) (hbp : s.events.decoderBackpressured = true)
      (hlimit : (pumpIncremental eng s).2 = .limitExceeded) :
      FeedCall eng s buf
        { (pumpIncremental eng s).1 with lifecycle := { (pumpIncremental eng s).1.lifecycle with
          feedCalls := (pumpIncremental eng s).1.lifecycle.feedCalls + 1 } } .limitExceeded
  | pumpFailed (hopen : s.Open) (hbp : s.events.decoderBackpressured = true)
      (hfail : (pumpIncremental eng s).2 = .backendError) :
      FeedCall eng s buf (pumpIncremental eng s).1 .backendError
  /-- The buffer is empty or refused: the error state changes, and the calls may be counted. -/
  | refused (hopen : s.Open) (hresumes : Resumes eng s) (hfits : ¬ buf.Fits (resumed eng s))
      (lifecycle : Lifecycle) (status : Status)
      (hstate : lifecycle.state = (resumed eng s).lifecycle.state)
      (htotal : lifecycle.totalSamplesReceived = (resumed eng s).lifecycle.totalSamplesReceived)
      (hok : status = .ok ↔ buf.count = 0)
      (hkind : status = .ok ∨ status = .invalidArgument ∨ status = .limitExceeded) :
      FeedCall eng s buf { resumed eng s with lifecycle := lifecycle } status
  | admitted (hadmitted : Admitted eng s buf) {t : Stream α φ ε γ κ} {status : Status}
      (haudio : feedAudio eng (resumed eng s) buf.samples = some (t, status)) :
      FeedCall eng s buf t status

section Feeds

variable [Zero α]

/-- An admitted buffer takes the audio path. -/
lemma feedAdmit_of_fits {buf : FeedBuffer} (h : buf.Fits s) :
    feedAdmit eng s buf = feedAudio eng s buf.samples := by
  cases buf with
  | null => exact absurd h id
  | data samples =>
    obtain ⟨hne, hlimit, hoverflow, hrange, hduration⟩ := h
    cases samples with
    | nil => exact absurd rfl hne
    | cons x xs =>
      simp only [feedAdmit, FeedBuffer.samples, if_neg (not_lt.mpr hlimit),
        if_neg (not_lt.mpr hoverflow), if_neg (not_lt.mpr hrange), if_neg (not_lt.mpr hduration)]

/-- Any other buffer changes the error state and counters only. -/
lemma feedAdmit_of_not_fits {buf : FeedBuffer} {status : Status} (hfits : ¬ buf.Fits s)
    (h : feedAdmit eng s buf = some (s', status)) :
    ∃ lifecycle : Lifecycle, s' = { s with lifecycle := lifecycle } ∧
      lifecycle.state = s.lifecycle.state ∧
      lifecycle.totalSamplesReceived = s.lifecycle.totalSamplesReceived ∧
      (status = .ok ↔ buf.count = 0) ∧
      (status = .ok ∨ status = .invalidArgument ∨ status = .limitExceeded) := by
  unfold feedAdmit at h
  match buf with
  | .null (count + 1) =>
    obtain ⟨rfl, rfl⟩ := Prod.mk.inj (Option.some.inj h)
    exact ⟨_, rfl, rfl, rfl, by simp [FeedBuffer.count], by decide⟩
  | .null 0 | .data [] =>
    obtain ⟨rfl, rfl⟩ := Prod.mk.inj (Option.some.inj h)
    exact ⟨_, rfl, rfl, rfl, by simp [FeedBuffer.count], by decide⟩
  | .data (x :: xs) =>
    simp only at h
    split_ifs at h with hlimit hoverflow hrange hduration
    iterate 4
      obtain ⟨rfl, rfl⟩ := Prod.mk.inj (Option.some.inj h)
      exact ⟨_, rfl, rfl, rfl, by simp [FeedBuffer.count], by decide⟩
    exact absurd ⟨List.cons_ne_nil x xs, not_lt.mp hlimit, not_lt.mp hoverflow, not_lt.mp hrange,
      not_lt.mp hduration⟩ hfits

/-- A feed leaves by one of the exits. -/
lemma feedCommon_call {buf : FeedBuffer} {status : Status}
    (h : feedCommon eng s buf = some (s', status)) : FeedCall eng s buf s' status := by
  by_cases hopen : s.Open
  · have hadmit : Resumes eng s → feedAdmit eng (resumed eng s) buf = some (s', status) →
        FeedCall eng s buf s' status := by
      intro hresumes hadmit
      by_cases hfits : buf.Fits (resumed eng s)
      · exact .admitted ⟨hopen, hresumes, hfits⟩ ((feedAdmit_of_fits hfits).symm.trans hadmit)
      · obtain ⟨lifecycle, rfl, hstate, htotal, hok, hkind⟩ := feedAdmit_of_not_fits hfits hadmit
        exact .refused hopen hresumes hfits lifecycle status hstate htotal hok hkind
    unfold feedCommon at h
    rw [if_neg fun hne => hopen.elim hne.1 hne.2] at h
    by_cases hbp : s.events.decoderBackpressured = true
    · have hresumed : resumed eng s = (pumpIncremental eng s).1 := if_pos hbp
      rw [if_pos hbp] at h
      simp only at h
      by_cases hlimit : (pumpIncremental eng s).2 = .limitExceeded
      · rw [if_pos hlimit] at h
        obtain ⟨rfl, rfl⟩ := Prod.mk.inj (Option.some.inj h)
        exact .stalled hopen hbp hlimit
      · rw [if_neg hlimit] at h
        by_cases hok : (pumpIncremental eng s).2 = .ok
        · rw [if_neg (by simp [hok]), ← hresumed] at h
          exact hadmit (fun _ => hok) h
        · rw [if_pos hok] at h
          have hfail := ((pumpIncremental_status eng s).resolve_left hok).resolve_left hlimit
          have hp : pumpIncremental eng s = (s', status) := Option.some.inj h
          have hcall : FeedCall eng s buf _ _ := .pumpFailed hopen hbp hfail
          rw [hp] at hfail hcall
          rw [show status = .backendError from hfail]
          exact hcall
    · have hresumed : resumed eng s = s := if_neg hbp
      rw [if_neg hbp, ← hresumed] at h
      exact hadmit (fun hfull => absurd hfull hbp) h
  · unfold feedCommon at h
    rw [if_pos (not_or.mp hopen)] at h
    obtain ⟨rfl, rfl⟩ := Prod.mk.inj (Option.some.inj h)
    exact .closed hopen

end Feeds

/-! ## Finishes -/

/-- The exits of `voxtral_stream_finish_internal`. -/
inductive FinishCall [Zero α] (eng : Engine α φ ε γ κ) (s : Stream α φ ε γ κ) :
    Stream α φ ε γ κ → Status → Prop
  | ended (hended : s.lifecycle.state = .completed ∨ s.lifecycle.state = .cancelled) :
      FinishCall eng s s .ok
  | failed (hfailed : s.lifecycle.state = .failed) :
      FinishCall eng s (setError s .invalidState "finish not allowed after failure") .invalidState
  | finishing (hfinishing : s.lifecycle.state = .finishing) : FinishCall eng s s .busy
  | stalled (hopen : s.Open) (hbp : s.events.decoderBackpressured = true)
      (hlimit : (pumpIncremental eng s).2 = .limitExceeded) :
      FinishCall eng s (pumpIncremental eng s).1 .limitExceeded
  | pumpFailed (hopen : s.Open) (hbp : s.events.decoderBackpressured = true)
      (hfail : (pumpIncremental eng s).2 = .backendError) :
      FinishCall eng s (failStream { (pumpIncremental eng s).1 with
        events := { (pumpIncremental eng s).1.events with finalizingFlush := true } }
          .backendError) .backendError
  | live (hopen : s.Open) (hresumes : Resumes eng s) {t : Stream α φ ε γ κ} {status : Status}
      (hpath : FinishPath eng (resumed eng s) t status) : FinishCall eng s t status

/-- A finish leaves by one of the exits. -/
lemma finishInternal_call [Zero α] {status : Status}
    (h : finishInternal eng s = some (s', status)) : FinishCall eng s s' status := by
  have hopen : s.Open → (if s.events.decoderBackpressured = true then
        let p := pumpIncremental eng s
        if p.2 = .limitExceeded then some p
        else if p.2 ≠ .ok then
          some (failStream { p.1 with events := { p.1.events with finalizingFlush := true } } p.2,
            p.2)
        else finishLive eng p.1
      else finishLive eng s) = some (s', status) → FinishCall eng s s' status := by
    intro hopen h
    by_cases hbp : s.events.decoderBackpressured = true
    · have hresumed : resumed eng s = (pumpIncremental eng s).1 := if_pos hbp
      rw [if_pos hbp] at h
      simp only at h
      by_cases hlimit : (pumpIncremental eng s).2 = .limitExceeded
      · rw [if_pos hlimit] at h
        have hp : pumpIncremental eng s = (s', status) := Option.some.inj h
        have hcall := FinishCall.stalled hopen hbp hlimit
        rw [hp] at hlimit hcall
        rw [show status = .limitExceeded from hlimit]
        exact hcall
      · rw [if_neg hlimit] at h
        by_cases hok : (pumpIncremental eng s).2 = .ok
        · rw [if_neg (by simp [hok]), ← hresumed] at h
          exact .live hopen (fun _ => hok) (finishLive_path h)
        · rw [if_pos hok] at h
          have hfail := ((pumpIncremental_status eng s).resolve_left hok).resolve_left hlimit
          rw [hfail] at h
          obtain ⟨rfl, rfl⟩ := Prod.mk.inj (Option.some.inj h)
          exact .pumpFailed hopen hbp hfail
    · have hresumed : resumed eng s = s := if_neg hbp
      rw [if_neg hbp, ← hresumed] at h
      exact .live hopen (fun hfull => absurd hfull hbp) (finishLive_path h)
  unfold finishInternal at h
  cases hstate : s.lifecycle.state with
  | completed =>
    rw [hstate] at h
    obtain ⟨rfl, rfl⟩ := Prod.mk.inj (Option.some.inj h)
    exact .ended (Or.inl hstate)
  | cancelled =>
    rw [hstate] at h
    obtain ⟨rfl, rfl⟩ := Prod.mk.inj (Option.some.inj h)
    exact .ended (Or.inr hstate)
  | failed =>
    rw [hstate] at h
    obtain ⟨rfl, rfl⟩ := Prod.mk.inj (Option.some.inj h)
    exact .failed hstate
  | finishing =>
    rw [hstate] at h
    obtain ⟨rfl, rfl⟩ := Prod.mk.inj (Option.some.inj h)
    exact .finishing hstate
  | created =>
    rw [hstate] at h
    exact hopen (Or.inl hstate) h
  | running =>
    rw [hstate] at h
    exact hopen (Or.inr hstate) h

end Voxtral
