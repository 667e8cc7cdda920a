import Voxtral.Lib.Utf8
import Voxtral.Stream.PacedModel

/-!
# Stable text

The text of a snapshot is cut twice: `utf8StablePrefix` scans back for an incomplete code point, and
`utf8PrefixAtMost` validates forwards up to the capacity of a public event.  Both cuts are monotone
under extension of the text, so the public texts of successive snapshots extend each other.
-/

namespace Voxtral

variable {α φ ε γ κ : Type*}

/-! ## The forward cut -/

/-- The bytes at an index, one by one. -/
lemma take_drop_eq_map {text : Bytes} {i w : ℕ} (h : i + w ≤ text.length) :
    (text.drop i).take w = (List.range w).map fun j => text.getD (i + j) 0 := by
  refine List.ext_getElem (by simp; omega) fun j hj hj' => ?_
  have hlt : i + j < text.length := by
    simp only [List.length_map, List.length_range] at hj'
    omega
  simp [List.getD_eq_getElem?_getD, List.getElem?_eq_getElem hlt]

/-- A width the validator accepts is that of one encoded character, within the available bytes. -/
lemma codePointWidthAt_spec {text : Bytes} {stop i w : ℕ} (hstop : stop ≤ text.length)
    (hi : i < stop) (h : codePointWidthAt text stop i = some w) :
    0 < w ∧ i + w ≤ stop ∧ ∃ c, (text.drop i).take w = String.utf8EncodeChar c := by
  simp only [codePointWidthAt] at h
  split_ifs at h with h1 h2 h2s h2c h3 h3s h3c h3r h4 h4s h4c h4r
  · obtain rfl := Option.some.inj h
    obtain ⟨c, hc⟩ := encodes_one h1
    exact ⟨by omega, by omega, c, by rw [take_drop_eq_map (by omega), hc]; rfl⟩
  · obtain rfl := Option.some.inj h
    obtain ⟨c, hc⟩ := encodes_two h2 h2c
    exact ⟨by omega, by omega, c, by rw [take_drop_eq_map (by omega), hc]; rfl⟩
  · obtain rfl := Option.some.inj h
    obtain ⟨hb, hd⟩ := h3c
    obtain ⟨c, hc⟩ := encodes_three h3 hb hd (by omega) (by omega)
    exact ⟨by omega, by omega, c, by rw [take_drop_eq_map (by omega), hc]; rfl⟩
  · obtain rfl := Option.some.inj h
    obtain ⟨hb, hd, he⟩ := h4c
    obtain ⟨c, hc⟩ := encodes_four h4 hb hd he (by omega) (by omega)
    exact ⟨by omega, by omega, c, by rw [take_drop_eq_map (by omega), hc]; rfl⟩

/-- The loop stops between two characters of a well-formed prefix. -/
lemma utf8PrefixLoop_spec {text : Bytes} {stop : ℕ} (hstop : stop ≤ text.length) (fuel i : ℕ)
    (hi : i ≤ stop) (hwell : WellFormedUtf8 (text.take i)) :
    i ≤ utf8PrefixLoop text stop fuel i ∧ utf8PrefixLoop text stop fuel i ≤ stop ∧
      WellFormedUtf8 (text.take (utf8PrefixLoop text stop fuel i)) := by
  induction fuel generalizing i with
  | zero => exact ⟨le_rfl, hi, hwell⟩
  | succ fuel ih =>
    rw [utf8PrefixLoop]
    by_cases hlt : i < stop
    · rw [if_pos hlt]
      cases hwidth : codePointWidthAt text stop i with
      | none => exact ⟨le_rfl, hi, hwell⟩
      | some w =>
        obtain ⟨-, hle, c, hc⟩ := codePointWidthAt_spec hstop hlt hwidth
        have hnext : WellFormedUtf8 (text.take (i + w)) := by
          rw [List.take_add, hc]
          exact hwell.append_char c
        obtain ⟨h1, h2, h3⟩ := ih (i + w) hle hnext
        exact ⟨(Nat.le_add_right i w).trans h1, h2, h3⟩
    · rw [if_neg hlt]
      exact ⟨le_rfl, hi, hwell⟩

/-- The validator reads available bytes only. -/
lemma codePointWidthAt_congr {text text' : Bytes} {stop stop' i w : ℕ} (hstop : stop ≤ stop')
    (hbytes : ∀ j, j < stop → text.getD j 0 = text'.getD j 0) (hi : i < stop)
    (h : codePointWidthAt text stop i = some w) : codePointWidthAt text' stop' i = some w := by
  simp only [codePointWidthAt] at h ⊢
  simp only [hbytes i hi] at h
  split_ifs at h with h1 h2 h2s h2c h3 h3s h3c h3r h4 h4s h4c h4r
  · rw [if_pos h1, ← h]
  · rw [hbytes (i + 1) (by omega)] at h2c
    rw [if_neg h1, if_pos h2, if_neg (by omega), if_pos h2c, ← h]
  · rw [hbytes (i + 1) (by omega), hbytes (i + 2) (by omega)] at h3c
    rw [hbytes (i + 1) (by omega)] at h3r
    rw [if_neg h1, if_neg h2, if_pos h3, if_neg (by omega), if_neg (not_not.mpr h3c),
      if_neg h3r, ← h]
  · rw [hbytes (i + 1) (by omega), hbytes (i + 2) (by omega), hbytes (i + 3) (by omega)] at h4c
    rw [hbytes (i + 1) (by omega)] at h4r
    rw [if_neg h1, if_neg h2, if_neg h3, if_pos h4, if_neg (by omega),
      if_neg (not_not.mpr h4c), if_neg h4r, ← h]

/-- More available bytes let the loop go at least as far. -/
lemma utf8PrefixLoop_mono {text text' : Bytes} {stop stop' : ℕ} (hstop : stop ≤ stop')
    (hlen : stop ≤ text.length) (hlen' : stop' ≤ text'.length)
    (hbytes : ∀ j, j < stop → text.getD j 0 = text'.getD j 0) {fuel fuel' : ℕ}
    (hfuel : fuel ≤ fuel') (i : ℕ) (hi : i ≤ stop) (hwell : WellFormedUtf8 (text'.take i)) :
    utf8PrefixLoop text stop fuel i ≤ utf8PrefixLoop text' stop' fuel' i := by
  induction fuel generalizing fuel' i with
  | zero => exact (utf8PrefixLoop_spec hlen' fuel' i (hi.trans hstop) hwell).1
  | succ fuel ih =>
    obtain ⟨fuel', rfl⟩ : ∃ k, fuel' = k + 1 := ⟨fuel' - 1, by omega⟩
    have hself := (utf8PrefixLoop_spec hlen' (fuel' + 1) i (hi.trans hstop) hwell).1
    rw [utf8PrefixLoop]
    by_cases hlt : i < stop
    · rw [if_pos hlt]
      cases hwidth : codePointWidthAt text stop i with
      | none => exact hself
      | some w =>
        have hwidth' := codePointWidthAt_congr hstop hbytes hlt hwidth
        obtain ⟨-, hle, -⟩ := codePointWidthAt_spec hlen hlt hwidth
        obtain ⟨-, -, c, hc⟩ := codePointWidthAt_spec hlen' (hlt.trans_le hstop) hwidth'
        have hnext : WellFormedUtf8 (text'.take (i + w)) := by
          rw [List.take_add, hc]
          exact hwell.append_char c
        rw [utf8PrefixLoop, if_pos (hlt.trans_le hstop), hwidth']
        exact ih (by omega) (i + w) hle hnext
    · rw [if_neg hlt]
      exact hself

/-- The copied text is well-formed UTF-8. -/
lemma wellFormedUtf8_copyEventText (source : Bytes) (stableBytes : ℕ) :
    WellFormedUtf8 (copyEventText source stableBytes) := by
  unfold copyEventText utf8PrefixAtMost
  exact (utf8PrefixLoop_spec (min_le_left _ _) _ 0 (Nat.zero_le _)
    (by rw [List.take_zero]; exact wellFormedUtf8_nil)).2.2

/-- The copied text is a prefix of its source. -/
lemma copyEventText_prefix (source : Bytes) (stableBytes : ℕ) :
    copyEventText source stableBytes <+: source := List.take_prefix _ _

/-- A longer source with more stable bytes is copied at least as far. -/
lemma copyEventText_mono {source source' : Bytes} {stable stable' : ℕ} (hsource : source <+: source')
    (hstable : min stable source.length ≤ stable') :
    copyEventText source stable <+: copyEventText source' stable' := by
  obtain ⟨more, rfl⟩ := hsource
  have hlen : source.length ≤ (source ++ more).length := by simp
  have hbytes : ∀ j, j < source.length → source.getD j 0 = (source ++ more).getD j 0 := by
    intro j hj
    rw [List.getD_append _ _ _ _ hj]
  set stop := min source.length (min (min stable source.length) (eventTextCapacity - 1)) with hstop
  set stop' := min (source ++ more).length
    (min (min stable' (source ++ more).length) (eventTextCapacity - 1)) with hstop'
  have hstops : stop ≤ stop' := by omega
  have hcut : utf8PrefixLoop source stop stop 0 ≤
      utf8PrefixLoop (source ++ more) stop' stop' 0 :=
    utf8PrefixLoop_mono hstops (min_le_left _ _) (min_le_left _ _)
      (fun j hj => hbytes j (hj.trans_le (min_le_left _ _))) hstops 0 (Nat.zero_le _)
      (by rw [List.take_zero]; exact wellFormedUtf8_nil)
  have hwithin : utf8PrefixLoop source stop stop 0 ≤ source.length :=
    ((utf8PrefixLoop_spec (min_le_left _ _) stop 0 (Nat.zero_le _)
      (by rw [List.take_zero]; exact wellFormedUtf8_nil)).2.1).trans (min_le_left _ _)
  change source.take (utf8PrefixLoop source stop stop 0) <+:
    (source ++ more).take (utf8PrefixLoop (source ++ more) stop' stop' 0)
  have hshort : (source ++ more).take (utf8PrefixLoop source stop stop 0) =
      source.take (utf8PrefixLoop source stop stop 0) := List.take_append_of_le_length hwithin
  rw [← hshort]
  exact List.take_prefix_take_left hcut

/-! ## The backward cut -/

/-- Everything behind the cut of `skipContinuations` continues a code point. -/
lemma skipContinuations_spec (text : Bytes) (i : ℕ) :
    skipContinuations text i ≤ i ∧
      (∀ k, skipContinuations text i ≤ k → k < i → text.getD k 0 &&& 0xC0 = 0x80) ∧
      (skipContinuations text i ≠ 0 →
        ¬ text.getD (skipContinuations text i - 1) 0 &&& 0xC0 = 0x80) := by
  induction i with
  | zero => exact ⟨le_rfl, fun k _ hk => absurd hk (Nat.not_lt_zero k), fun h => absurd rfl h⟩
  | succ i ih =>
    rw [skipContinuations]
    split_ifs with hcontinues
    · obtain ⟨hle, hall, hlead⟩ := ih
      refine ⟨by omega, fun k hk hki => ?_, hlead⟩
      rcases Nat.lt_succ_iff_lt_or_eq.mp hki with hlt | rfl
      · exact hall k hk hlt
      · exact hcontinues
    · exact ⟨le_rfl, fun k hk hki => by omega, fun _ => hcontinues⟩

/-- The cut is the only one with that property. -/
lemma skipContinuations_eq {text : Bytes} {i j : ℕ} (hj : j ≤ i)
    (hall : ∀ k, j ≤ k → k < i → text.getD k 0 &&& 0xC0 = 0x80)
    (hlead : j ≠ 0 → ¬ text.getD (j - 1) 0 &&& 0xC0 = 0x80) : skipContinuations text i = j := by
  obtain ⟨hle, hall', hlead'⟩ := skipContinuations_spec text i
  rcases Nat.lt_trichotomy (skipContinuations text i) j with hlt | heq | hgt
  · exact absurd (hall' (j - 1) (by omega) (by omega)) (hlead (by omega))
  · exact heq
  · exact absurd (hall (skipContinuations text i - 1) (by omega) (by omega)) (hlead' (by omega))

/-- The stable part of a text lies within it. -/
lemma utf8StablePrefix_le (text : Bytes) : utf8StablePrefix text ≤ text.length := by
  have hle := (skipContinuations_spec text text.length).1
  simp only [utf8StablePrefix]
  split_ifs <;> omega

/-- A longer text has at least as many stable bytes. -/
lemma utf8StablePrefix_mono {text text' : Bytes} (h : text <+: text') :
    utf8StablePrefix text ≤ utf8StablePrefix text' := by
  obtain ⟨more, rfl⟩ := h
  have hlen : text.length ≤ (text ++ more).length := by simp
  have hbytes : ∀ j, j < text.length → (text ++ more).getD j 0 = text.getD j 0 := fun j hj =>
    List.getD_append _ _ _ _ hj
  have hle := utf8StablePrefix_le text
  obtain ⟨hcut, hall, hlead⟩ := skipContinuations_spec (text ++ more) (text ++ more).length
  set j := skipContinuations (text ++ more) (text ++ more).length with hj
  simp only [utf8StablePrefix, ← hj]
  rw [← utf8StablePrefix]
  by_cases hzero : j = 0
  · rw [if_pos hzero]
    omega
  · rw [if_neg hzero]
    split_ifs with hfits
    · omega
    · by_cases hlong : text.length < j
      · omega
      -- the incomplete code point begins within the shorter text, so it is incomplete there, too
      · have hsame : skipContinuations text text.length = j := by
          refine skipContinuations_eq (by omega) (fun k hk hki => ?_) (fun hne => ?_)
          · rw [← hbytes k hki]
            exact hall k hk (by omega)
          · rw [← hbytes (j - 1) (by omega)]
            exact hlead hne
        rw [hbytes (j - 1) (by omega)] at hfits
        simp only [utf8StablePrefix, hsame]
        rw [if_neg hzero, if_neg (by omega)]

/-! ## Snapshots along a run -/

/-- The text of the public form of an event. -/
def publicText (e : StreamEvent) : Bytes := copyEventText (eventSource e).1 (eventSource e).2

/-- The text of a public event. -/
lemma publicEvent_text (e : StreamEvent) (sequence : ℕ) :
    (publicEvent e sequence).text = publicText e := rfl

/-- A later snapshot has a greater revision and an extended text. -/
def Supersedes (e e' : StreamEvent) : Prop := e.revision < e'.revision ∧ e.text <+: e'.text

/-- An event is a snapshot of `text`, at revision `revision`, or of what it extends. -/
structure SnapshotOf (revision : ℕ) (text : Bytes) (e : StreamEvent) : Prop where
  isSnapshot : e.isPartial = true
  revision : e.revision ≤ revision
  text : e.text <+: text
  stable : e.stablePrefixBytes = utf8StablePrefix e.text

/-- The snapshots among the events of a stream supersede one another, and its final text, if it has
one, extends them all. -/
structure StableText (s : Stream α φ ε γ κ) : Prop where
  ordered : ((eventHistory s).filter StreamEvent.isPartial).Pairwise Supersedes
  snapshots : ∀ e ∈ (eventHistory s).filter StreamEvent.isPartial,
    SnapshotOf s.decoder.partialRevision s.decoder.partialText e
  finals : ∀ e ∈ eventHistory s, e.type = .finalText →
    e.text = s.decoder.partialText ∧ ¬ s.Live
  completed : s.lifecycle.state = .completed → s.decoder.transcript = s.decoder.partialText

section Steps

variable {eng : Engine α φ ε γ κ} {late : Prop} {s s' : Stream α φ ε γ κ}

/-- A snapshot taken of a text is one of every extension. -/
lemma SnapshotOf.mono {n n' : ℕ} {text text' : Bytes} {e : StreamEvent} (h : SnapshotOf n text e)
    (hrevision : n ≤ n') (htext : text <+: text') : SnapshotOf n' text' e :=
  ⟨h.isSnapshot, h.revision.trans hrevision, h.text.trans htext, h.stable⟩

/-- Whatever its route, a snapshot comes last among the snapshots of the queue. -/
lemma SnapshotPush.filter_partial {bound : ℕ} {aggressive : Bool} {e : StreamEvent}
    {queue queue' : List StreamEvent} (h : SnapshotPush bound aggressive e queue queue')
    (he : e.isPartial = true) :
    ∃ kept, kept.Sublist (queue.filter StreamEvent.isPartial) ∧
      (queue'.filter StreamEvent.isPartial = kept ++ [e] ∨
        queue'.filter StreamEvent.isPartial = kept) := by
  have hnone : ∀ {l : List StreamEvent}, (∀ y ∈ l, y.isPartial = false) →
      l.filter StreamEvent.isPartial = [] := fun hl =>
    List.filter_eq_nil_iff.mpr fun y hy => by simp [hl y hy]
  cases h with
  | append hroom => exact ⟨_, List.Sublist.refl _, Or.inl (by simp [he])⟩
  | moveBack pre x post haggressive hx hpre =>
    refine ⟨post.filter StreamEvent.isPartial, ?_, Or.inl (by simp [hnone hpre, he])⟩
    simp [hnone hpre, hx]
  | replace pre x post hfull haggressive hx hpost =>
    refine ⟨pre.filter StreamEvent.isPartial, ?_, Or.inl (by simp [hnone hpost, he])⟩
    simp [hnone hpost, hx]
  | drop hfull hnone => exact ⟨_, List.Sublist.refl _, Or.inr rfl⟩

/-- Events of the same kind and their order are what matters. -/
lemma StableText.of_same (h : StableText s)
    (hrevision : s'.decoder.partialRevision = s.decoder.partialRevision)
    (htext : s'.decoder.partialText = s.decoder.partialText)
    (htranscript : s'.decoder.transcript = s.decoder.transcript)
    (hevents : eventHistory s' = eventHistory s)
    (hstate : s'.lifecycle.state = s.lifecycle.state) : StableText s' where
  ordered := by rw [hevents]; exact h.ordered
  snapshots := by rw [hevents, hrevision, htext]; exact h.snapshots
  finals := by
    unfold Stream.Live
    rw [hevents, htext, hstate]
    exact h.finals
  completed := by rw [hstate, htranscript, htext]; exact h.completed

/-- Events that are neither snapshots nor final texts may be appended while the stream lives, and the
ones that end it. -/
lemma StableText.appends {es : List StreamEvent} (h : StableText s) (happ : Appends s s' es)
    (hes : ∀ e ∈ es, e.isPartial = false ∧ (e.type = .finalText →
      e.text = s.decoder.partialText))
    (hdead : ¬ s'.Live)
    (hcompleted : s'.lifecycle.state = .completed →
      s.decoder.transcript = s.decoder.partialText) : StableText s' := by
  have hhistory : eventHistory s' = eventHistory s ++ es := by
    rw [eventHistory, eventHistory, happ.polled, happ.queue, List.append_assoc]
  have hfilter : (eventHistory s').filter StreamEvent.isPartial =
      (eventHistory s).filter StreamEvent.isPartial := by
    have hnone : es.filter StreamEvent.isPartial = [] :=
      List.filter_eq_nil_iff.mpr fun e he => by simp [(hes e he).1]
    rw [hhistory, List.filter_append, hnone, List.append_nil]
  refine ⟨by rw [hfilter]; exact h.ordered, ?_, ?_, ?_⟩
  · rw [hfilter, happ.decoder]
    exact h.snapshots
  · intro e he hfinal
    rw [hhistory] at he
    rw [happ.decoder]
    rcases List.mem_append.mp he with he | he
    · exact ⟨(h.finals e he hfinal).1, hdead⟩
    · exact ⟨(hes e he).2 hfinal, hdead⟩
  · rw [happ.decoder]
    exact hcompleted

/-- The decoder state a snapshot is taken of. -/
lemma snapshotOf_spec (eng : Engine α φ ε γ κ) (s : Stream α φ ε γ κ) {p : PendingToken}
    (heos : p.token ≠ tokenEos) :
    SnapshotOf (decoderAfter eng s.decoder p).partialRevision
        (decoderAfter eng s.decoder p).partialText (snapshotOf eng s p) ∧
      (snapshotOf eng s p).revision = s.decoder.partialRevision + 1 ∧
      (snapshotOf eng s p).text = (decoderAfter eng s.decoder p).partialText := by
  rw [decoderAfter, if_neg heos]
  exact ⟨⟨rfl, le_rfl, List.prefix_rfl, rfl⟩, rfl, rfl⟩

/-- A delivery takes at most one snapshot, and a newer one than all before. -/
lemma StableText.deliver (h : StableText s) (hlive : s.Live) (p : PendingToken) :
    StableText (deliverPending eng s p) := by
  have hdec := deliverPending_decoder eng s p
  have htoken : (tokenEvent eng p (s.decoder.tokenSequence + 1)).isPartial = false := rfl
  have hnofinal : ∀ e ∈ eventHistory s, e.type ≠ .finalText := fun e he hfinal =>
    (h.finals e he hfinal).2 hlive
  by_cases heos : p.token = tokenEos
  · obtain ⟨hqueue, -⟩ := deliverPending_eos_events eng s heos
    have hhistory : eventHistory (deliverPending eng s p) =
        eventHistory s ++ [tokenEvent eng p (s.decoder.tokenSequence + 1)] := by
      rw [eventHistory, hqueue, eventHistory, List.append_assoc, deliverPending_eos heos]
      rfl
    have hfilter : (eventHistory (deliverPending eng s p)).filter StreamEvent.isPartial =
        (eventHistory s).filter StreamEvent.isPartial := by
      rw [hhistory, List.filter_append, List.filter_singleton, htoken]
      exact List.append_nil _
    have hstate : (deliverPending eng s p).lifecycle.state = s.lifecycle.state := by
      rw [deliverPending_eos heos]
      rfl
    have hdec' : (deliverPending eng s p).decoder = { s.decoder with
        tokenSequence := s.decoder.tokenSequence + 1, pending := none, decoderEos := true } := by
      rw [hdec, decoderAfter, if_pos heos]
    refine ⟨by rw [hfilter]; exact h.ordered, fun e he => ?_, fun e he hfinal => ?_, ?_⟩
    · rw [hfilter] at he
      rw [hdec']
      exact (h.snapshots e he).mono le_rfl List.prefix_rfl
    · rw [hhistory] at he
      rcases List.mem_append.mp he with he | he
      · exact absurd hfinal (hnofinal e he)
      · rw [List.mem_singleton.mp he] at hfinal
        exact absurd hfinal (by simp [tokenEvent])
    · rw [hstate, hdec']
      exact h.completed
  · obtain ⟨hpush, -⟩ := deliverPending_text_events eng s heos
    obtain ⟨hsnapshot, hrevision, htext⟩ := snapshotOf_spec eng s heos
    obtain ⟨kept, hkept, hcases⟩ := hpush.filter_partial hsnapshot.isSnapshot
    have hframe := afterSnapshot_frame eng s p
    have hpolled : (deliverPending eng s p).events.polled = s.events.polled := by
      rw [deliverPending_text heos]
      exact hframe.polled
    have hstate : (deliverPending eng s p).lifecycle.state = s.lifecycle.state := by
      rw [deliverPending_text heos]
      exact congrArg Lifecycle.state hframe.lifecycle
    have hgrow : s.decoder.partialRevision ≤ (decoderAfter eng s.decoder p).partialRevision ∧
        s.decoder.partialText <+: (decoderAfter eng s.decoder p).partialText := by
      rw [decoderAfter, if_neg heos]
      exact ⟨Nat.le_succ _, List.prefix_append _ _⟩
    -- the snapshots that stay, those polled and those kept in the queue
    set old := s.events.polled.filter StreamEvent.isPartial ++ kept with hold
    have holdsub : old.Sublist ((eventHistory s).filter StreamEvent.isPartial) := by
      rw [List.filter_append, List.filter_singleton, htoken] at hkept
      rw [eventHistory, List.filter_append, hold]
      exact (List.Sublist.refl _).append (by simpa using hkept)
    have hfilter : (eventHistory (deliverPending eng s p)).filter StreamEvent.isPartial =
          old ++ [snapshotOf eng s p] ∨
        (eventHistory (deliverPending eng s p)).filter StreamEvent.isPartial = old := by
      rw [eventHistory, hpolled, List.filter_append, hold]
      rcases hcases with hcases | hcases
      · exact Or.inl (by rw [hcases, List.append_assoc])
      · exact Or.inr (by rw [hcases])
    have holdsnapshots : ∀ e ∈ old,
        SnapshotOf s.decoder.partialRevision s.decoder.partialText e := fun e he =>
      h.snapshots e (holdsub.subset he)
    have hordered := h.ordered.sublist holdsub
    refine ⟨?_, fun e he => ?_, fun e he hfinal => ?_, fun hcompleted => ?_⟩
    · rcases hfilter with hfilter | hfilter
      · rw [hfilter, List.pairwise_append]
        refine ⟨hordered, List.pairwise_singleton _ _, fun e he e' he' => ?_⟩
        rw [List.mem_singleton.mp he']
        have hsnap := holdsnapshots e he
        refine ⟨?_, ?_⟩
        · rw [hrevision]
          exact Nat.lt_succ_of_le hsnap.revision
        · rw [htext]
          exact hsnap.text.trans hgrow.2
      · rw [hfilter]
        exact hordered
    · rw [hdec]
      have hmem : e ∈ old ∨ e = snapshotOf eng s p := by
        rcases hfilter with hfilter | hfilter
        · rw [hfilter] at he
          simpa using he
        · rw [hfilter] at he
          exact Or.inl he
      rcases hmem with hmem | rfl
      · exact (holdsnapshots e hmem).mono hgrow.1 hgrow.2
      · exact hsnapshot
    · rw [eventHistory, hpolled] at he
      rcases List.mem_append.mp he with he | he
      · exact absurd hfinal (hnofinal e (List.mem_append_left _ he))
      · rcases hpush.mem he with he | rfl
        · rcases List.mem_append.mp he with he | he
          · exact absurd hfinal (hnofinal e (List.mem_append_right _ he))
          · rw [List.mem_singleton.mp he] at hfinal
            exact absurd hfinal (by simp [tokenEvent])
        · exact absurd hfinal (by simp [snapshotOf, partialEvent])
    · rw [hstate] at hcompleted
      exact absurd hlive (by simp [Stream.Live, hcompleted])

/-- Every transition keeps the text stable. -/
lemma Transition.stableText (hstep : Transition eng late s s') (h : StableText s) : StableText s' := by
  cases hstep with
  | pump hlive _ _ _ hstep =>
    cases hstep with
    | deliver p => exact h.deliver hlive p
    | _ => exact h.of_same rfl rfl rfl rfl rfl
  | absorb _ hchange _ =>
    refine h.of_same ?_ ?_ ?_ (by rw [eventHistory, eventHistory, hchange.events]) hchange.state
    all_goals rw [hchange.decoder]
  | account hchange =>
    have hhistory : eventHistory s' = eventHistory s := by
      rw [eventHistory, eventHistory, hchange.polled, hchange.queue]
    refine ⟨by rw [hhistory]; exact h.ordered, ?_, ?_, ?_⟩
    · rw [hhistory, hchange.decoder]
      exact h.snapshots
    · intro e he hfinal
      rw [hhistory] at he
      rw [hchange.decoder]
      obtain ⟨htext, hdead⟩ := h.finals e he hfinal
      refine ⟨htext, fun hlive => ?_⟩
      rcases hchange.state with hstate | ⟨hlive', -⟩
      · exact hdead (by unfold Stream.Live at hlive ⊢; rwa [← hstate])
      · exact hdead hlive'
    · intro hcompleted
      rw [hchange.decoder]
      rcases hchange.state with hstate | ⟨-, hlive⟩
      · exact h.completed (hstate ▸ hcompleted)
      · exact absurd hlive (by simp [Stream.Live, hcompleted])
  | complete hlive transcript tokens htranscript htokens =>
    set t : Stream α φ ε γ κ :=
      { s with decoder := { s.decoder with transcript := transcript, tokens := tokens } } with ht
    have hsame : StableText t := by
      refine ⟨h.ordered, h.snapshots, h.finals, fun hcompleted => ?_⟩
      exact absurd hlive (by
        rw [show t.lifecycle.state = s.lifecycle.state from rfl] at hcompleted
        simp [Stream.Live, hcompleted])
    obtain ⟨es, happ, hsub⟩ := completeStream_appends t
    refine hsame.appends happ (fun e he => ?_) (by simp [Stream.Live, completeStream, clearError])
      fun _ => htranscript
    have hmem := hsub.subset he
    simp only [List.mem_cons, List.not_mem_nil, or_false] at hmem
    rcases hmem with rfl | rfl
    · exact ⟨rfl, fun _ => htranscript⟩
    · exact ⟨rfl, fun hfinal => absurd hfinal (by simp [completedEvent])⟩
  | fail _ status =>
    obtain ⟨es, happ, hes⟩ := failStream_appends s status
    refine h.appends happ (fun e he => ?_) (by simp [Stream.Live, failStream])
      fun hcompleted => absurd hcompleted (by simp [failStream])
    have hevent := hes e he
    exact ⟨by simp [StreamEvent.isPartial, hevent, errorEvent],
      fun hfinal => by simp [hevent, errorEvent] at hfinal⟩
  | cancel hstate =>
    obtain ⟨es, happ, hes⟩ := cancelInternal_appends s
    have hcancelled : (cancelInternal s).1.lifecycle.state = .cancelled := by
      rcases hstate with hstate | hstate <;> (simp only [cancelInternal, hstate]; rfl)
    refine h.appends happ (fun e he => ?_) (by simp [Stream.Live, hcancelled])
      fun hcompleted => absurd hcompleted (by simp [hcancelled])
    have hevent := hes e he
    exact ⟨by simp [StreamEvent.isPartial, hevent, cancelledEvent],
      fun hfinal => by simp [hevent, cancelledEvent] at hfinal⟩

/-- A poll keeps the text stable. -/
lemma StableText.poll (h : StableText s) : StableText (streamPollEvent s).1 := by
  obtain ⟨ev, heq, hev⟩ := streamPollEvent_eq s
  rw [heq]
  exact h.of_same rfl rfl rfl hev rfl

end Steps

/-- A new stream has no text. -/
lemma stableText_create (maxEvents : ℕ) (device : Device ε γ κ) :
    StableText (Stream.create maxEvents device : Stream α φ ε γ κ) where
  ordered := List.Pairwise.nil
  snapshots := by simp [Stream.create, eventHistory]
  finals := by simp [Stream.create, eventHistory]
  completed := fun h => absurd h (by simp [Stream.create])

/-- The public text of a snapshot is a prefix of that of a later one. -/
lemma SnapshotOf.publicText_mono {n : ℕ} {text : Bytes} {e e' : StreamEvent}
    (h : SnapshotOf n text e) (h' : SnapshotOf n text e') (htext : e.text <+: e'.text) :
    publicText e <+: publicText e' := by
  have hstable := utf8StablePrefix_mono htext
  have hkind : e.type = .partialText := by simpa [StreamEvent.isPartial] using h.isSnapshot
  have hkind' : e'.type = .partialText := by simpa [StreamEvent.isPartial] using h'.isSnapshot
  simp only [publicText, eventSource, hkind, hkind']
  refine copyEventText_mono htext ?_
  rw [h.stable, h'.stable]
  exact (min_le_left _ _).trans hstable

/-- The public text of a snapshot is a prefix of that of a final text which extends it. -/
lemma SnapshotOf.publicText_final {n : ℕ} {text : Bytes} {e f : StreamEvent}
    (h : SnapshotOf n text e) (hfinal : f.type = .finalText) (htext : e.text <+: f.text) :
    publicText e <+: publicText f := by
  have hkind : e.type = .partialText := by simpa [StreamEvent.isPartial] using h.isSnapshot
  simp only [publicText, eventSource, hkind, hfinal]
  exact copyEventText_mono htext ((min_le_right _ _).trans htext.length_le)

/-- The public text of a snapshot is a prefix of its text. -/
lemma SnapshotOf.publicText_prefix {n : ℕ} {text : Bytes} {e : StreamEvent}
    (h : SnapshotOf n text e) : publicText e <+: e.text := by
  have hkind : e.type = .partialText := by simpa [StreamEvent.isPartial] using h.isSnapshot
  simp only [publicText, eventSource, hkind]
  exact copyEventText_prefix _ _

/-- Stable text is monotone and well formed.  Among the events polled in a run, with their public
forms, a later snapshot has a greater revision and its public text extends that of an earlier one;
each public text is well-formed UTF-8, and it is a prefix of the public text of FINAL_TEXT and of the
final text of the stream. -/
theorem stable_text_monotone [Zero α] (eng : Engine α φ ε γ κ) (maxEvents : ℕ)
    (device : Device ε γ κ) (ops : List Op) (s : Stream α φ ε γ κ) (os : List Response)
    (hrun : runSteps (streamStep eng) (Stream.create maxEvents device) ops = some (s, os)) :
    ((polledEvents os).filter fun x => x.1.isPartial).Pairwise
        (fun x y => x.1.revision < y.1.revision ∧ x.2.text <+: y.2.text) ∧
      ∀ x ∈ polledEvents os, x.1.isPartial = true →
        WellFormedUtf8 x.2.text ∧
        (∀ y ∈ polledEvents os, y.2.type = .finalText → x.2.text <+: y.2.text) ∧
        ∀ text, finalText s = some text → x.2.text <+: text := by
  have h : StableText s := stream_invariant True
    (fun _ _ hstep _ h => hstep.stableText h) (fun _ h => h.poll)
    (stableText_create maxEvents device) (Or.inl trivial) hrun
  rw [polledEvents_create hrun]
  have hpolled : ∀ e ∈ s.events.polled, e ∈ eventHistory s := fun e he =>
    List.mem_append_left _ he
  have hsnapshot : ∀ x ∈ publicEvents 0 s.events.polled, x.1.isPartial = true →
      SnapshotOf s.decoder.partialRevision s.decoder.partialText x.1 ∧ x.2.text = publicText x.1 := by
    intro x hx hkind
    obtain ⟨hmem, sequence, hpublic⟩ := exists_of_mem_publicEvents hx
    exact ⟨h.snapshots x.1 (List.mem_filter.mpr ⟨hpolled _ hmem, hkind⟩), by
      rw [hpublic, publicEvent_text]⟩
  refine ⟨?_, fun x hx hkind => ?_⟩
  · have hordered : (((publicEvents 0 s.events.polled).filter fun x => x.1.isPartial).map
        Prod.fst).Pairwise Supersedes := by
      have hsub : (s.events.polled.filter StreamEvent.isPartial).Sublist
          ((eventHistory s).filter StreamEvent.isPartial) :=
        (List.sublist_append_left _ _).filter _
      have hmap := List.filter_map (f := Prod.fst) (p := StreamEvent.isPartial)
        (l := publicEvents 0 s.events.polled)
      rw [map_fst_publicEvents] at hmap
      exact hmap ▸ h.ordered.sublist hsub
    rw [List.pairwise_map] at hordered
    refine hordered.imp_of_mem fun {x y} hx hy hxy => ⟨hxy.1, ?_⟩
    obtain ⟨hxmem, hxkind⟩ := List.mem_filter.mp hx
    obtain ⟨hymem, hykind⟩ := List.mem_filter.mp hy
    obtain ⟨hxsnap, hxtext⟩ := hsnapshot x hxmem hxkind
    obtain ⟨hysnap, hytext⟩ := hsnapshot y hymem hykind
    rw [hxtext, hytext]
    exact hxsnap.publicText_mono hysnap hxy.2
  · obtain ⟨hsnap, htext⟩ := hsnapshot x hx hkind
    rw [htext]
    refine ⟨wellFormedUtf8_copyEventText _ _, fun y hy hfinal => ?_, fun text hfinal => ?_⟩
    · obtain ⟨hymem, sequence, hpublic⟩ := exists_of_mem_publicEvents hy
      have htype : y.1.type = .finalText := by
        rw [hpublic] at hfinal
        cases hytype : y.1.type <;> simp [publicEvent, hytype] at hfinal ⊢
      rw [hpublic, publicEvent_text]
      refine hsnap.publicText_final htype ?_
      rw [(h.finals y.1 (hpolled _ hymem) htype).1]
      exact hsnap.text
    · unfold finalText at hfinal
      split_ifs at hfinal with hcompleted
      obtain rfl := Option.some.inj hfinal
      rw [h.completed hcompleted]
      exact hsnap.publicText_prefix.trans hsnap.text

/-- The snapshots of a finished second of audio, polled in order. -/
theorem stable_text_monotone_second : ∃ s os,
    runSteps (streamStep (plainEngine defaultSchedule)) (Stream.create 64 plainDevice)
      [feedZeros 16000, .poll, .poll, .poll, .poll] = some (s, os) ∧
    ((polledEvents os).filter fun x => x.1.isPartial).length = 2 ∧
    ((polledEvents os).filter fun x => x.1.isPartial).Pairwise
      (fun x y => x.1.revision < y.1.revision ∧ x.2.text <+: y.2.text) := by
  obtain ⟨s, os, hrun, hresponses, -⟩ := exists_pacedRun (plainEngine_runs defaultSchedule) 64
    [feedZeros 16000, .poll, .poll, .poll, .poll] (by simp [TotalFits])
  simp only [List.map_cons, feedZeros_paced, poll_paced, List.map_nil] at hresponses
  have hmodel : ((polledEvents (pacedRun (plainEngine defaultSchedule) 64 plainDevice
      [.feed false 16000, .poll, .poll, .poll, .poll]).2).filter fun x => x.1.isPartial).length =
      2 := by
    decide +kernel
  rw [hresponses] at hmodel
  exact ⟨s, os, hrun, hmodel, (stable_text_monotone (plainEngine defaultSchedule) 64 plainDevice _ s
    os hrun).1⟩

end Voxtral
