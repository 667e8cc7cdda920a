import Voxtral.Stream.EncoderSchedule

/-!
# Batches of the encoder

The loop of `encoder_kv_drive` for every encoder stream, with or without the reusable graph
(`driveBatches`).  Whatever calls drive it, its batches follow one another without a gap, contain
between one and 128 frames, and stay within their physical blocks (`Batches`).
-/

namespace Voxtral

/-- Rows of the terminal graphs: one of the grids. -/
abbrev TerminalRows := {rows : ℕ // rows ∈ [4, 8, 16, 32, 64, 128]}

/-- The batches of at most `fuel` iterations of the loop of `encoder_kv_drive`, from `emitted` frames
towards `target`; `terminal` is `encoder_finish_physical` where the stream has the reusable graph and
the output ring, and nothing otherwise. -/
def driveBatches (sch : EncoderSchedule) (terminal : Option TerminalRows) (final : Bool) (target : ℕ) :
    ℕ → ℕ → List EncoderRun
  | 0, _ => []
  | fuel + 1, emitted =>
    if target ≤ emitted then []
    else if emitted = 0 ∧ final = false ∧ target < encKvMaxNew then []
    else if emitted = 0 ∧ encKvMaxNew ≤ target then
      ⟨0, encKvMaxNew, encKvMaxNew⟩ :: driveBatches sch terminal final target fuel encKvMaxNew
    else if final = false ∧ target - emitted < sch.logical then []
    else
      let batchTerminal := if final then terminal else none
      let physical := (batchTerminal.map Subtype.val).getD sch.physical
      let logical := (batchTerminal.map Subtype.val).getD sch.logical
      let n := min (min logical (physical - emitted % physical)) (target - emitted)
      ⟨emitted, n, physical⟩ :: driveBatches sch terminal final target fuel (emitted + n)

/-- The frames of a list of batches. -/
def frameCount (runs : List EncoderRun) : ℕ := (runs.map EncoderRun.n).sum

/-- The batches of a list of calls of `encoder_kv_drive`, each with its flag and its target. -/
def driveAll (sch : EncoderSchedule) (terminal : Option TerminalRows) :
    ℕ → List (Bool × ℕ) → List EncoderRun
  | _, [] => []
  | emitted, (final, target) :: calls =>
    let runs := driveBatches sch terminal final target (target - emitted) emitted
    runs ++ driveAll sch terminal (emitted + frameCount runs) calls

/-- Batches that follow one another from frame `e` on, each of at most 128 frames within its block. -/
inductive Batches : ℕ → List EncoderRun → Prop
  | nil (e : ℕ) : Batches e []
  | cons {e : ℕ} {r : EncoderRun} {rs : List EncoderRun} (hstart : r.qStart = e) (hpos : 0 < r.n)
      (hmax : r.n ≤ encKvMaxNew) (hphysical : r.physical ∈ [4, 8, 16, 32, 64, 128])
      (hblock : r.WithinBlock) (hrest : Batches (e + r.n) rs) : Batches e (r :: rs)

/-- Batches behind batches. -/
lemma Batches.append {e : ℕ} {runs more : List EncoderRun} (h : Batches e runs)
    (hmore : Batches (e + frameCount runs) more) : Batches e (runs ++ more) := by
  induction h with
  | nil e => exact hmore
  | @cons e r rs hstart hpos hmax hphysical hblock hrest ih =>
    refine .cons hstart hpos hmax hphysical hblock (ih ?_)
    rwa [Nat.add_assoc]

/-- A part of the batches starts where the ones before it end. -/
lemma Batches.of_append {e : ℕ} {runs more : List EncoderRun} (h : Batches e (runs ++ more)) :
    Batches e runs ∧ Batches (e + frameCount runs) more := by
  induction runs generalizing e with
  | nil => exact ⟨.nil e, h⟩
  | cons r rs ih =>
    cases h with
    | cons hstart hpos hmax hphysical hblock hrest =>
      obtain ⟨hruns, hmore⟩ := ih hrest
      refine ⟨.cons hstart hpos hmax hphysical hblock hruns, ?_⟩
      rwa [Nat.add_assoc] at hmore

/-- The next batch on a grid, in front of the rest. -/
lemma Batches.cons_grid {e target logical physical : ℕ} {rs : List EncoderRun}
    (hphysical : physical ∈ [4, 8, 16, 32, 64, 128]) (hpos : 0 < logical)
    (hmax : logical ≤ encKvMaxNew) (hlt : e < target)
    (hrest : Batches (e + min (min logical (physical - e % physical)) (target - e)) rs) :
    Batches e (⟨e, min (min logical (physical - e % physical)) (target - e), physical⟩ :: rs) := by
  have hrows : 0 < physical := by
    simp only [List.mem_cons, List.not_mem_nil, or_false] at hphysical
    omega
  have hroom := Nat.mod_lt e hrows
  refine .cons rfl ?_ ?_ hphysical ?_ hrest
  · change 0 < min (min logical (physical - e % physical)) (target - e)
    omega
  · change min (min logical (physical - e % physical)) (target - e) ≤ _
    omega
  · change e % physical + min (min logical (physical - e % physical)) (target - e) ≤ physical
    omega

/-- A terminal or an ordinary grid. -/
lemma grid_bounds (sch : EncoderSchedule) (terminal : Option TerminalRows) :
    (terminal.map Subtype.val).getD sch.physical ∈ [4, 8, 16, 32, 64, 128] ∧
      0 < (terminal.map Subtype.val).getD sch.logical ∧
      (terminal.map Subtype.val).getD sch.logical ≤ encKvMaxNew := by
  have hgrid : ∀ rows ∈ [4, 8, 16, 32, 64, 128], 0 < rows ∧ rows ≤ encKvMaxNew := by decide
  cases terminal with
  | none => exact ⟨sch.physical_mem, sch.logical_pos, sch.logical_le⟩
  | some rows => exact ⟨rows.2, hgrid rows.1 rows.2⟩

/-- The loop runs batches. -/
lemma driveBatches_batches (sch : EncoderSchedule) (terminal : Option TerminalRows) (final : Bool)
    (target fuel e : ℕ) : Batches e (driveBatches sch terminal final target fuel e) := by
  induction fuel generalizing e with
  | zero => exact .nil e
  | succ fuel ih =>
    rw [driveBatches]
    by_cases hdone : target ≤ e
    · rw [if_pos hdone]
      exact .nil e
    rw [if_neg hdone]
    by_cases hhold : e = 0 ∧ final = false ∧ target < encKvMaxNew
    · rw [if_pos hhold]
      exact .nil e
    rw [if_neg hhold]
    by_cases hblock : e = 0 ∧ encKvMaxNew ≤ target
    · rw [if_pos hblock, hblock.1]
      refine .cons rfl (by decide) le_rfl (by decide) (le_of_eq rfl) ?_
      rw [Nat.zero_add]
      exact ih encKvMaxNew
    rw [if_neg hblock]
    by_cases hwait : final = false ∧ target - e < sch.logical
    · rw [if_pos hwait]
      exact .nil e
    rw [if_neg hwait]
    obtain ⟨hphysical, hpos, hmax⟩ := grid_bounds sch (if final then terminal else none)
    exact .cons_grid hphysical hpos hmax (not_le.mp hdone) (ih _)

/-- Whatever drives it, the encoder runs batches. -/
theorem driveAll_batches (sch : EncoderSchedule) (terminal : Option TerminalRows) (e : ℕ)
    (calls : List (Bool × ℕ)) : Batches e (driveAll sch terminal e calls) := by
  induction calls generalizing e with
  | nil => exact .nil e
  | cons call calls ih => exact (driveBatches_batches _ _ _ _ _ _).append (ih _)

/-! ## The batches of a public stream -/

variable {α φ ε γ κ : Type*}

/-- The rows of the terminal graphs of an engine. -/
def Engine.terminalRows (eng : Engine α φ ε γ κ) : TerminalRows :=
  ⟨eng.finishPhysical, eng.finishPhysical_mem⟩

/-- The graphs a public stream runs are those of the loop with the reusable graph. -/
lemma scheduleRuns_eq_driveBatches (eng : Engine α φ ε γ κ) (final : Bool) (target fuel e : ℕ) :
    scheduleRuns eng.schedule eng.finishPhysical final target fuel e =
      driveBatches eng.schedule (some eng.terminalRows) final target fuel e := by
  induction fuel generalizing e with
  | zero => rfl
  | succ fuel ih =>
    rw [scheduleRuns, driveBatches]
    simp only [ih]
    cases final <;> rfl

/-- The frames of batches are counted. -/
lemma framesOf_length (runs : List EncoderRun) : (framesOf runs).length = frameCount runs := by
  rw [framesOf, List.length_flatMap]
  simp [frameCount]

/-- All encoder graphs of an utterance are those of two calls: one to the frames realizable before the
finish, and one to the end. -/
theorem utteranceRuns_eq_driveAll (eng : Engine α φ ε γ κ) (n : ℕ) :
    utteranceRuns eng n = driveAll eng.schedule (some eng.terminalRows) 0
      [(false, encFramesRealizable (stableFrameCount (streamLeftPad + n))),
        (true, 4 * finishGroups n)] := by
  have hlive : scheduleRuns eng.schedule eng.finishPhysical false _ _ 0 = _ :=
    scheduleRuns_live (encFramesRealizable (stableFrameCount (streamLeftPad + n))) _ le_rfl
  rw [scheduleRuns_eq_driveBatches] at hlive
  have hcount : frameCount (liveRuns eng.schedule (emittedAt eng.schedule.logical n)) =
      emittedAt eng.schedule.logical n := by
    rw [← framesOf_length]
    exact (congrArg List.length (framesOf_liveRuns _)).trans List.length_range
  rw [driveAll, driveAll, driveAll, Nat.sub_zero, hlive, Nat.zero_add, List.append_nil]
  change _ = liveRuns eng.schedule (emittedAt eng.schedule.logical n) ++
    driveBatches eng.schedule (some eng.terminalRows) true (4 * finishGroups n)
      (4 * finishGroups n - frameCount (liveRuns eng.schedule (emittedAt eng.schedule.logical n)))
      (frameCount (liveRuns eng.schedule (emittedAt eng.schedule.logical n)))
  rw [hcount, ← scheduleRuns_eq_driveBatches]
  rfl

end Voxtral
