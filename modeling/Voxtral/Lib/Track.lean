import Voxtral.Lib.Runs

/-!
# Runs along a track

A partial function `next` lays a track through the states of an abstract machine, on which there is one way
to go.  A system whose states are seen through a `view` runs along the track when each of its steps either
takes the view to the next point or pauses: it leaves the view where it is.  If the track ends, such a run
has a place on it, makes a bounded number of steps, and sees the last point when there is no further one.
-/

namespace Voxtral

section Track

variable {τ : Type*} {next : τ → Option τ} {m m' m'' : τ}

/-- The point `n` steps down the track. -/
def trackAt (next : τ → Option τ) : ℕ → τ → Option τ
  | 0, m => some m
  | n + 1, m => (next m).bind (trackAt next n)

/-- The track leads from one point to another. -/
def Leads (next : τ → Option τ) (m m' : τ) : Prop := ∃ n, trackAt next n m = some m'

/-- It leads from a point to itself. -/
lemma Leads.refl (m : τ) : Leads next m m := ⟨0, rfl⟩

/-- A point is followed by what the next one leads to. -/
lemma Leads.head (hnext : next m = some m') (h : Leads next m' m'') : Leads next m m'' := by
  obtain ⟨n, hn⟩ := h
  exact ⟨n + 1, by rw [trackAt, hnext, Option.bind_some, hn]⟩

/-- It leads to the next point. -/
lemma Leads.single (hnext : next m = some m') : Leads next m m' := .head hnext (.refl m')

/-- Two stretches of the track. -/
lemma Leads.trans (h : Leads next m m') (h' : Leads next m' m'') : Leads next m m'' := by
  obtain ⟨n, hn⟩ := h
  induction n generalizing m with
  | zero =>
    obtain rfl := Option.some.inj hn
    exact h'
  | succ n ih =>
    obtain ⟨u, hu, hrest⟩ := Option.bind_eq_some_iff.mp hn
    exact .head hu (ih hrest)

/-- From a point that is not the last the track goes on. -/
lemma exists_next_of_trackAt {n : ℕ} (h : trackAt next n m = some m') (hne : m ≠ m') :
    ∃ u k, n = k + 1 ∧ next m = some u ∧ trackAt next k u = some m' := by
  cases n with
  | zero => exact absurd (Option.some.inj h) hne
  | succ k =>
    obtain ⟨u, hu, hrest⟩ := Option.bind_eq_some_iff.mp h
    exact ⟨u, k, rfl, hu, hrest⟩

end Track

section Runs

variable {σ ι ο τ : Type*} {step : σ → ι → Option (σ × ο)} {next : τ → Option τ} {view : σ → τ}
  {I : σ → Prop} {C : σ → ι → Prop} {counted : ι → Bool} {pause : σ → ℕ} {pauses : ℕ}

/-- The steps that meet `C` in states with the invariant `I` run along the track.  The counted ones among
them pause at most `pauses` times at a point: `pause` bounds the pauses still to come. -/
structure RunsAlong (step : σ → ι → Option (σ × ο)) (next : τ → Option τ) (view : σ → τ) (I : σ → Prop)
    (C : σ → ι → Prop) (counted : ι → Bool) (pause : σ → ℕ) (pauses : ℕ) : Prop where
  keeps : ∀ s i s' o, I s → C s i → step s i = some (s', o) → I s'
  follows : ∀ s i s' o, I s → C s i → step s i = some (s', o) →
    next (view s) = some (view s') ∧ pause s' ≤ pauses ∨
      view s' = view s ∧ pause s' + (if counted i then 1 else 0) ≤ pause s

/-- A run along a track has a place on it, and its counted steps are bounded by the way it went. -/
lemma RunsAlong.run (h : RunsAlong step next view I C counted pause pauses) {s t : σ} {is : List ι}
    {os : List ο} {n : ℕ} {last : τ} (hinv : I s) (hmeets : RunMeets step C s is)
    (hrun : runSteps step s is = some (t, os)) (htrack : trackAt next n (view s) = some last)
    (hlast : next last = none) :
    I t ∧ ∃ k, trackAt next k (view t) = some last ∧
      is.countP counted + (pauses + 1) * k + pause t ≤ (pauses + 1) * n + pause s := by
  induction is generalizing s os n with
  | nil =>
    obtain ⟨rfl, -⟩ := Prod.mk.inj (Option.some.inj hrun)
    exact ⟨hinv, n, htrack, by simp⟩
  | cons i is ih =>
    obtain ⟨s', o, os', hstep, hrest, -⟩ := runSteps_cons_eq_some.mp hrun
    have hinv' : I s' := h.keeps s i s' o hinv hmeets.1 hstep
    have hmeets' : RunMeets step C s' is := hmeets.2 s' o hstep
    have hcount : (i :: is).countP counted = is.countP counted + if counted i then 1 else 0 :=
      List.countP_cons
    rcases h.follows s i s' o hinv hmeets.1 hstep with ⟨hnext, hpause⟩ | ⟨hstay, hpause⟩
    · have hne : view s ≠ last := by
        rintro rfl
        exact absurd (hlast.symm.trans hnext) nofun
      obtain ⟨u, m, rfl, hu, htrack'⟩ := exists_next_of_trackAt htrack hne
      obtain rfl := Option.some.inj (hnext.symm.trans hu)
      obtain ⟨ht, k, hk, hle⟩ := ih hinv' hmeets' hrest htrack'
      refine ⟨ht, k, hk, ?_⟩
      rw [hcount, Nat.mul_succ]
      split_ifs <;> omega
    · obtain ⟨ht, k, hk, hle⟩ := ih hinv' hmeets' hrest (hstay ▸ htrack)
      refine ⟨ht, k, hk, ?_⟩
      rw [hcount]
      omega

/-- A system that can always take a counted step `i` gets to the end of its track with such steps. -/
lemma RunsAlong.finishes (h : RunsAlong step next view I C counted pause pauses) {D : σ → Prop} {i : ι}
    (hcounted : counted i = true) {last : τ}
    (hgo : ∀ s m, I s → D s → next (view s) = some m → C s i ∧ ∃ s' o, step s i = some (s', o) ∧ D s')
    {s : σ} (hinv : I s) (hD : D s) {n : ℕ} (htrack : trackAt next n (view s) = some last) :
    ∃ k t os, runSteps step s (List.replicate k i) = some (t, os) ∧
      RunMeets step C s (List.replicate k i) ∧ view t = last := by
  -- on the way and the pauses still ahead
  induction hmeasure : (pauses + 1) * n + pause s using Nat.strongRecOn generalizing s n with
  | ind measure ih =>
    by_cases hend : view s = last
    · exact ⟨0, s, [], rfl, trivial, hend⟩
    · obtain ⟨u, m, rfl, hu, htrack'⟩ := exists_next_of_trackAt htrack hend
      obtain ⟨hC, s', o, hstep, hD'⟩ := hgo s u hinv hD hu
      have hinv' : I s' := h.keeps s i s' o hinv hC hstep
      have hrest : ∃ k t os, runSteps step s' (List.replicate k i) = some (t, os) ∧
          RunMeets step C s' (List.replicate k i) ∧ view t = last := by
        rcases h.follows s i s' o hinv hC hstep with ⟨hnext, hpause⟩ | ⟨hstay, hpause⟩
        · obtain rfl := Option.some.inj (hnext.symm.trans hu)
          refine ih _ ?_ hinv' hD' htrack' rfl
          rw [← hmeasure, Nat.mul_succ]
          omega
        · rw [hcounted, if_pos rfl] at hpause
          refine ih _ ?_ hinv' hD' (hstay ▸ htrack) rfl
          omega
      obtain ⟨k, t, os, hrun, hmeets, ht⟩ := hrest
      refine ⟨k + 1, t, o :: os, runSteps_cons_eq_some.mpr ⟨s', o, os, hstep, hrun, rfl⟩, ⟨hC, ?_⟩, ht⟩
      rintro u o' hu
      obtain ⟨rfl, -⟩ := Prod.mk.inj (Option.some.inj (hstep.symm.trans hu))
      exact hmeets

end Runs

end Voxtral
