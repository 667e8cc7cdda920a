import Voxtral.Api.HandleRuns

/-!
# Every stream is alone

The run of a program over contexts and streams shows each stream the calls made on its handle.  `Alone` says
that a new stream, on a device in any state, answers these calls the same.  A step of the program keeps it:
a call is answered by twins, a creation starts with no calls, and every other step leaves the device of a
leased context as it was.
-/

namespace Voxtral

variable {α φ ε γ κ : Type*}

/-! ## Single steps of twins -/

/-- New streams on two devices are twins. -/
lemma create_twins {eng : Engine α φ ε γ κ} (maxEvents : ℕ) {device device' : Device ε γ κ}
    (hbackend : (∀ k, eng.submitFails k = false) ∨ device'.submits = device.submits) :
    Twins eng (Stream.create maxEvents device : Stream α φ ε γ κ) (Stream.create maxEvents device') := by
  refine ⟨⟨rfl, rfl, rfl, rfl, rfl, hbackend, nofun, ?_, ?_⟩, rfl⟩
  · exact fun _ hbelow => absurd hbelow (Nat.not_lt_zero _)
  · exact fun _ hbelow => absurd hbelow (Nat.not_lt_zero _)

/-- A stream and its twin with the event capacity `maxEvents`. -/
structure Twinned (eng : Engine α φ ε γ κ) (maxEvents : ℕ) (s t : Stream α φ ε γ κ) : Prop where
  settings : Settings maxEvents s
  matched : ∃ base, Matched eng base s t

/-- New streams on two devices with the same backend are twinned. -/
lemma create_twinned {eng : Engine α φ ε γ κ} (maxEvents : ℕ) {device device' : Device ε γ κ}
    (hbackend : (∀ k, eng.submitFails k = false) ∨ device'.submits = device.submits) :
    Twinned eng maxEvents (Stream.create maxEvents device : Stream α φ ε γ κ)
      (Stream.create maxEvents device') := by
  refine ⟨settings_create maxEvents device, Stream.create maxEvents device, create_twins maxEvents hbackend,
    ?_⟩
  exact ⟨⟨Nat.zero_le _, nofun, fun _ => ⟨rfl, rfl⟩, nofun⟩, rfl, rfl, fun _ => rfl⟩

/-- A call is answered by the twin as well. -/
lemma publicStep_twinned [Zero α] {backend : ContextBackend α φ ε γ κ} {maxEvents : ℕ}
    {s s' t : Stream α φ ε γ κ} (h : Twinned backend.engine maxEvents s t) {call : Call} {r : CallResponse}
    (hstep : publicStep backend s call = some (s', r)) :
    ∃ t', publicStep backend t call = some (t', r) ∧ Twinned backend.engine maxEvents s' t' := by
  obtain ⟨hs, base, hmatched⟩ := h
  have htwins := hmatched.twins
  cases call with
  | op op =>
    obtain ⟨⟨u, response⟩, hop, hend⟩ := Option.map_eq_some_iff.mp hstep
    obtain ⟨rfl, rfl⟩ := Prod.mk.inj hend
    have hlock := streamStep_twins hmatched op
    rw [hop] at hlock
    obtain ⟨t', ht, hnext⟩ := hlock.exists_of_some
    exact ⟨t', congrArg (Option.map fun r : Stream α φ ε γ κ × Response => (r.1, CallResponse.op r.2)) ht,
      (streamStep_settings hmatched.kept.within hs hop).2, base, hnext⟩
  | reset =>
    obtain ⟨rfl, rfl⟩ := Prod.mk.inj (Option.some.inj hstep)
    have ht : Settings maxEvents t := by
      refine ⟨htwins.params.trans hs.params, ?_, ?_⟩
      · rw [htwins.events]
        exact hs.maxEvents
      · rw [htwins.frontend]
        exact hs.retainHistory
    refine ⟨(streamReset backend.clearKv t).1, ?_, ?_⟩
    · unfold publicStep streamReset
      rw [htwins.lifecycle]
      split_ifs <;> rfl
    · unfold streamReset
      rw [htwins.lifecycle]
      split_ifs
      · exact ⟨⟨hs.params, hs.maxEvents, hs.retainHistory⟩, base, setError_twins htwins _ _,
          hmatched.kept.congr rfl rfl rfl rfl⟩
      · rw [resetInternal_create backend.clearKv hs, resetInternal_create backend.clearKv ht]
        exact create_twinned maxEvents htwins.submits

/-! ## The calls on a handle -/

section CallsOn

variable {h : ℕ} {history : List (LibraryCall α φ ε γ κ × LibraryResponse)}

/-- The calls on a handle in two histories, one behind the other. -/
lemma callsOn_append (more : List (LibraryCall α φ ε γ κ × LibraryResponse)) :
    callsOn h (history ++ more) = callsOn h history ++ callsOn h more :=
  List.filterMap_append

/-- A call on a handle is the last of its calls, and none of any other's. -/
lemma callsOn_call (h h' : ℕ) (call : Call) (r : CallResponse) :
    callsOn h [((.stream (some h') call : LibraryCall α φ ε γ κ), .stream r)] =
      if h' = h then [(call, r)] else [] := by
  by_cases hh : h' = h <;> simp [callsOn, hh]

end CallsOn

/-- A lone stream answers the calls of a handle as the program saw them answered, and while the handle is
alive, the two streams are twins. -/
structure Alone [Zero α] (lib : Library α φ ε γ κ)
    (history : List (LibraryCall α φ ε γ κ × LibraryResponse)) (h : ℕ)
    (backend : ContextBackend α φ ε γ κ) (maxEvents submits : ℕ) : Prop where
  same : ∀ {ps ctx}, lib.streams h = some ps → lib.contexts ps.ctx = some ctx → ctx.backend = backend
  run : ∀ device : Device ε γ κ,
    ((∀ k, backend.engine.submitFails k = false) ∨ device.submits = submits) →
    ∃ t, runSteps (publicStep backend) (Stream.create maxEvents device) ((callsOn h history).map Prod.fst) =
        some (t, (callsOn h history).map Prod.snd) ∧
      ∀ {ps ctx}, lib.streams h = some ps → lib.contexts ps.ctx = some ctx →
        Twinned backend.engine maxEvents (ctx.lend ps) t

section Alone

variable [Zero α] {lib lib' : Library α φ ε γ κ} {call : LibraryCall α φ ε γ κ} {r : LibraryResponse}
  {history : List (LibraryCall α φ ε γ κ × LibraryResponse)} {h maxEvents submits : ℕ}
  {backend : ContextBackend α φ ε γ κ}

/-- A step without a call on the handle, behind which the stream of the handle, if it is alive, is the same
on a context with the same device. -/
lemma Alone.of_lent (ha : Alone lib history h backend maxEvents submits)
    (hno : callsOn h [(call, r)] = [])
    (hlent : ∀ {ps ctx}, lib'.streams h = some ps → lib'.contexts ps.ctx = some ctx →
      lib.streams h = some ps ∧ ∃ old, lib.contexts ps.ctx = some old ∧ ctx.backend = old.backend ∧
        ctx.device = old.device) :
    Alone lib' (history ++ [(call, r)]) h backend maxEvents submits := by
  have hcalls : callsOn h (history ++ [(call, r)]) = callsOn h history := by
    rw [callsOn_append, hno, List.append_nil]
  refine ⟨fun {ps ctx} hstream hctx => ?_, fun device hbackend => ?_⟩
  · obtain ⟨hstream', old, hold, hsame, -⟩ := hlent hstream hctx
    exact hsame.trans (ha.same hstream' hold)
  · obtain ⟨t, hrun, htwinned⟩ := ha.run device hbackend
    refine ⟨t, by rw [hcalls, hrun], fun {ps ctx} hstream hctx => ?_⟩
    obtain ⟨hstream', old, hold, -, hdevice⟩ := hlent hstream hctx
    have hsame : ctx.lend ps = old.lend ps := by
      unfold PublicContext.lend
      rw [hdevice]
    rw [hsame]
    exact htwinned hstream' hold

/-- Every step keeps every made stream alone. -/
lemma Alone.effect (ha : Alone lib history h backend maxEvents submits) (hl : Leased lib)
    (hmade : h < lib.streamCount) (heffect : LibraryEffect lib call lib' r) :
    Alone lib' (history ++ [(call, r)]) h backend maxEvents submits := by
  cases heffect with
  | same hno => exact ha.of_lent (hno h) fun hs hc => ⟨hs, _, hc, rfl, rfl⟩
  | newContext ctx hidle hno =>
    refine ha.of_lent (hno h) fun {ps ctx'} hs hc => ⟨hs, ctx', ?_, rfl, rfl⟩
    obtain ⟨old, hold, -⟩ := hl.context hs
    have hne : ps.ctx ≠ lib.contextCount := (hl.contextsMade hold).ne
    exact (Function.update_of_ne hne ..).symm.trans hc
  | changed c ctx ctx' hctx hbackend hactive hdevice hno =>
    refine ha.of_lent (hno h) fun {ps ctx''} hs hc => ⟨hs, ?_⟩
    change Function.update _ _ _ ps.ctx = _ at hc
    rw [Function.update_apply] at hc
    split_ifs at hc with heq
    · obtain rfl := Option.some.inj hc
      obtain ⟨old, hold, hleased⟩ := hl.context hs
      rw [heq, hctx] at hold
      obtain rfl := Option.some.inj hold
      exact ⟨ctx, heq ▸ hctx, hbackend, hdevice hleased⟩
    · exact ⟨ctx'', hc, rfl, rfl⟩
  | removedContext c ctx hctx hidle hno =>
    refine ha.of_lent (hno h) fun {ps ctx'} hs hc => ⟨hs, ctx', ?_, rfl, rfl⟩
    exact (Function.update_of_ne (hl.no_stream hctx hidle hs) ..).symm.trans hc
  | newStream c capacity ctx ctx' hctx hidle hactive hno =>
    refine ha.of_lent (hno h) fun {ps old} hs hc => ?_
    have hs' : lib.streams h = some ps := (Function.update_of_ne hmade.ne ..).symm.trans hs
    exact ⟨hs', old, (Function.update_of_ne (hl.no_stream hctx hidle hs') ..).symm.trans hc, rfl, rfl⟩
  | removedStream h' ps ctx hstream hctx hno =>
    refine ha.of_lent (hno h) fun {ps' old} hs hc => ?_
    change Function.update _ _ _ h = _ at hs
    rw [Function.update_apply] at hs
    split_ifs at hs with hh
    have hne : ps'.ctx ≠ ps.ctx := fun heq => hh (hl.exclusive hs hstream heq)
    exact ⟨hs, old, (Function.update_of_ne hne ..).symm.trans hc, rfl, rfl⟩
  | @called h' ps ctx hstream hctx request hcall s response hstep =>
    subst hcall
    by_cases hh : h' = h
    · subst hh
      obtain rfl := ha.same hstream hctx
      have hcalls : callsOn h' (history ++ [(.stream (some h') request, .stream response)]) =
          callsOn h' history ++ [(request, response)] := by
        rw [callsOn_append, callsOn_call, if_pos rfl]
      have hnow : ∀ {ps' ctx'},
          Function.update lib.streams h' (some ⟨ps.ctx, s⟩) h' = some ps' →
          Function.update lib.contexts ps.ctx (some { ctx with device := s.device }) ps'.ctx =
            some ctx' → ps' = ⟨ps.ctx, s⟩ ∧ ctx' = { ctx with device := s.device } := by
        intro ps' ctx' hs hc
        rw [Function.update_self] at hs
        obtain rfl := Option.some.inj hs
        rw [Function.update_self] at hc
        exact ⟨rfl, (Option.some.inj hc).symm⟩
      refine ⟨fun {ps' ctx'} hs hc => ?_, fun device hbackend => ?_⟩
      · obtain ⟨-, rfl⟩ := hnow hs hc
        rfl
      · obtain ⟨t, hrun, htwinned⟩ := ha.run device hbackend
        obtain ⟨t', hanswer, hnext⟩ := publicStep_twinned (htwinned hstream hctx) hstep
        refine ⟨t', ?_, fun {ps' ctx'} hs hc => ?_⟩
        · rw [hcalls, List.map_append, List.map_append]
          exact runSteps_append.mpr ⟨t, _, _, hrun, runSteps_singleton.mpr ⟨response, hanswer, rfl⟩, rfl⟩
        · obtain ⟨rfl, rfl⟩ := hnow hs hc
          exact hnext
    · refine ha.of_lent ?_ fun {ps' ctx'} hs hc => ?_
      · rw [callsOn_call, if_neg hh]
      · have hs' : lib.streams h = some ps' := (Function.update_of_ne (Ne.symm hh) ..).symm.trans hs
        have hne : ps'.ctx ≠ ps.ctx := fun heq => hh (hl.exclusive hstream hs' heq.symm)
        exact ⟨hs', ctx', (Function.update_of_ne hne ..).symm.trans hc, rfl, rfl⟩

/-- A stream that is not made yet has had no calls, and a creation makes it alone. -/
lemma alone_of_made (hl : Leased lib) (hbefore : callsOn h history = []) (hunmade : lib.streamCount ≤ h)
    (heffect : LibraryEffect lib call lib' r) :
    callsOn h [(call, r)] = [] ∧ (h < lib'.streamCount →
      ∃ backend maxEvents submits, Alone lib' (history ++ [(call, r)]) h backend maxEvents submits) := by
  cases heffect with
  | same hno => exact ⟨hno h, fun hmade => absurd hmade (not_lt.mpr hunmade)⟩
  | newContext _ _ hno => exact ⟨hno h, fun hmade => absurd hmade (not_lt.mpr hunmade)⟩
  | changed _ _ _ _ _ _ _ hno => exact ⟨hno h, fun hmade => absurd hmade (not_lt.mpr hunmade)⟩
  | removedContext _ _ _ _ hno => exact ⟨hno h, fun hmade => absurd hmade (not_lt.mpr hunmade)⟩
  | removedStream _ _ _ _ _ hno => exact ⟨hno h, fun hmade => absurd hmade (not_lt.mpr hunmade)⟩
  | @called h' ps ctx hstream _ request hcall =>
    subst hcall
    have hne : h' ≠ h := ((hl.streamsMade hstream).trans_le hunmade).ne
    refine ⟨?_, fun hmade => absurd hmade (not_lt.mpr hunmade)⟩
    rw [callsOn_call, if_neg hne]
  | newStream c capacity ctx ctx' hctx hidle hactive hno =>
    refine ⟨hno h, fun hmade => ⟨ctx'.backend, capacity, ctx'.device.submits, ?_⟩⟩
    obtain rfl : h = lib.streamCount := Nat.le_antisymm (Nat.le_of_lt_succ hmade) hunmade
    have hnow : ∀ {ps old},
        Function.update lib.streams lib.streamCount (some ⟨c, Stream.create capacity ctx'.device⟩)
          lib.streamCount = some ps →
        Function.update lib.contexts c (some ctx') ps.ctx = some old →
          ps = ⟨c, Stream.create capacity ctx'.device⟩ ∧ old = ctx' := by
      intro ps old hs hc
      rw [Function.update_self] at hs
      obtain rfl := Option.some.inj hs
      rw [Function.update_self] at hc
      exact ⟨rfl, (Option.some.inj hc).symm⟩
    refine ⟨fun {ps old} hs hc => ?_, fun device hbackend => ?_⟩
    · obtain ⟨-, rfl⟩ := hnow hs hc
      rfl
    · refine ⟨Stream.create capacity device, ?_, fun {ps old} hs hc => ?_⟩
      · rw [callsOn_append, hbefore, hno]
        rfl
      · obtain ⟨rfl, rfl⟩ := hnow hs hc
        exact create_twinned capacity hbackend

end Alone

/-! ## Programs -/

/-- A creation with acceptable arguments makes a stream exactly if its context has none. -/
lemma Leased.creates_iff {lib : Library α φ ε γ κ} (hl : Leased lib) {c capacity : ℕ}
    {ctx : PublicContext α φ ε γ κ} (hctx : lib.contexts c = some ctx) (hpos : capacity ≠ 0)
    (hmax : capacity ≤ maxEventCapacity) :
    (∃ lib' h, lib.streamCreateOn c ctx capacity .made =
        some (lib', .created PublicStatus.ok.code (some h))) ↔
      ∀ h ps, lib.streams h = some ps → ps.ctx ≠ c := by
  constructor
  · rintro ⟨lib', h, hmade⟩ h' ps hstream rfl
    obtain ⟨ctx', hctx', hactive⟩ := hl.context hstream
    obtain rfl := Option.some.inj (hctx.symm.trans hctx')
    unfold Library.streamCreateOn PublicContext.tryAcquire at hmade
    rw [if_pos hactive] at hmade
    have hresponse := congrArg Prod.snd (Option.some.inj hmade)
    cases hresponse
  · intro hnone
    have hidle : ¬ ctx.publicStreamActive = true := by
      intro hactive
      obtain ⟨h, ps, hstream, hps⟩ := hl.active hctx hactive
      exact hnone h ps hstream hps
    have hcapacity : ¬ (capacity = 0 ∨ maxEventCapacity < capacity ∨ StreamState.created ≠ .created ∨
        ([] : List StreamEvent) ≠ []) := by
      rintro (hzero | hlarge | hstate | hqueue)
      · exact hpos hzero
      · exact absurd hmax (not_le.mpr hlarge)
      · exact hstate rfl
      · exact hqueue rfl
    have hset : ∀ ctx : PublicContext α φ ε γ κ, setEventCapacity (createFromContext ctx) capacity =
        some { createFromContext ctx with
          events := { (createFromContext ctx).events with maxEvents := capacity } } :=
      fun ctx => if_neg hcapacity
    unfold Library.streamCreateOn PublicContext.tryAcquire
    rw [if_neg hidle]
    dsimp only
    rw [hset]
    exact ⟨_, lib.streamCount, rfl⟩

/-- **Streams do not see one another.**  In every run of a program that uses its handles while they are
alive, every live stream has leased its context and no other stream has, a stream can be created on a context
exactly if it has none, and every stream answered the calls made on it as it would have if no other stream
and no other context had ever been there: a new stream on a device in any state, with the same backend,
answers them the same, and while the stream is alive no further call can tell the two apart.  The backend of
the two has to be the same, which says that it fails no graph, or that it is as many graphs away from the
next failure. -/
theorem library_isolates_streams [Zero α] (calls : List (LibraryCall α φ ε γ κ))
    (lib : Library α φ ε γ κ) (os : List LibraryResponse)
    (hrun : runSteps libraryStep ({} : Library α φ ε γ κ) calls = some (lib, os)) :
    Leased lib ∧
      (∀ c ctx capacity, lib.contexts c = some ctx → capacity ≠ 0 → capacity ≤ maxEventCapacity →
        ((∃ lib' h, lib.streamCreateOn c ctx capacity .made =
            some (lib', .created PublicStatus.ok.code (some h))) ↔
          ∀ h ps, lib.streams h = some ps → ps.ctx ≠ c)) ∧
      ∀ h < lib.streamCount, ∃ backend maxEvents submits,
        Alone lib (calls.zip os) h backend maxEvents submits := by
  have hinv := runSteps_induction (P := fun lib calls os => os.length = calls.length ∧ Leased lib ∧
      (∀ h, lib.streamCount ≤ h → callsOn h (calls.zip os) = []) ∧
      ∀ h < lib.streamCount, ∃ backend maxEvents submits,
        Alone lib (calls.zip os) h backend maxEvents submits) ?_
    ⟨rfl, leased_init, fun _ _ => rfl, fun h hmade => absurd hmade (Nat.not_lt_zero h)⟩ hrun
  · exact ⟨hinv.2.1, fun c ctx capacity hctx hpos hmax => hinv.2.1.creates_iff hctx hpos hmax,
      hinv.2.2.2⟩
  rintro lib calls os call lib' r ⟨hlength, hl, hbefore, halone⟩ hstep
  have heffect := libraryStep_effect hstep
  have hzip : (calls ++ [call]).zip (os ++ [r]) = calls.zip os ++ [(call, r)] :=
    List.zip_append hlength.symm
  have hgrown : lib.streamCount ≤ lib'.streamCount := by
    cases heffect <;> first | exact le_rfl | exact Nat.le_succ _
  refine ⟨by rw [List.length_append, List.length_append, hlength]; rfl, hl.effect heffect, ?_, ?_⟩
  · intro h hunmade
    have hold := hgrown.trans hunmade
    rw [hzip, callsOn_append, hbefore h hold, (alone_of_made hl (hbefore h hold) hold heffect).1]
    rfl
  · intro h hmade
    rw [hzip]
    rcases lt_or_ge h lib.streamCount with hold | hnew
    · obtain ⟨backend, maxEvents, submits, ha⟩ := halone h hold
      exact ⟨backend, maxEvents, submits, ha.effect hl hold heffect⟩
    · exact (alone_of_made hl (hbefore h hnew) hnew heffect).2 hmade

/-- A program with one context: its first stream answers a call and is destroyed, its second one is polled. -/
def twoStreams (op : Op) : List (LibraryCall ℤ Unit Unit Unit Unit) :=
  let header : InputMemory := fun i => [8, 0, 0, 0, 0, 0, 0, 1][i]?
  [.contextCreate true none true (.made ⟨plainEngine defaultSchedule, id, true⟩ plainDevice),
    .streamCreate (some 0) (some header) true .made, .stream (some 0) (.op op), .streamDestroy (some 0),
    .streamCreate (some 0) (some header) true .made, .stream (some 1) (.op .poll)]

/-- A call on a stream that is alive. -/
lemma streamCall_op [Zero α] {lib : Library α φ ε γ κ} {h : ℕ} {ps : PublicStream α φ ε γ κ}
    {ctx : PublicContext α φ ε γ κ} {op : Op} {s : Stream α φ ε γ κ} {r : Response}
    (hps : lib.streams h = some ps) (hctx : lib.contexts ps.ctx = some ctx)
    (hop : streamStep ctx.backend.engine (ctx.lend ps) op = some (s, r)) :
    libraryStep lib (.stream (some h) (.op op)) =
      some ({ lib.storeContext ps.ctx { ctx with device := s.device } with
        streams := Function.update lib.streams h (some ⟨ps.ctx, s⟩) }, .stream (.op r)) := by
  simp only [libraryStep, Library.streamCall, hps, hctx, Option.bind_some, publicStep]
  rw [show { ps.stream with device := ctx.device } = ctx.lend ps from rfl, hop]
  rfl

/-- The first stream of the program answers as a new stream on the device of the context. -/
lemma exists_twoStreams {op : Op} {s : Stream ℤ Unit Unit Unit Unit} {r : Response}
    (hop : streamStep (plainEngine defaultSchedule) (Stream.create maxEventCapacity plainDevice) op =
      some (s, r)) :
    ∃ lib os, runSteps libraryStep ({} : Library ℤ Unit Unit Unit Unit) (twoStreams op) = some (lib, os) ∧
      callsOn 0 ((twoStreams op).zip os) = [(.op op, .op r)] ∧ lib.streamCount = 2 := by
  refine ⟨_, _, runSteps_cons_eq_some.mpr ⟨_, _, _, rfl, runSteps_cons_eq_some.mpr ⟨_, _, _, rfl,
    runSteps_cons_eq_some.mpr ⟨_, _, _, streamCall_op rfl rfl hop, rfl, rfl⟩, rfl⟩, rfl⟩, rfl, rfl⟩

/-- The first stream takes a second of audio; the second one, which finds the device as that left it, is
alone. -/
theorem library_isolates_streams_reused : ∃ lib os,
    runSteps libraryStep ({} : Library ℤ Unit Unit Unit Unit) (twoStreams (feedZeros 16000)) =
      some (lib, os) ∧
    callsOn 0 ((twoStreams (feedZeros 16000)).zip os) =
      [(.op (feedZeros 16000), .op (.feed .ok 16000))] ∧
    lib.streamCount = 2 ∧ ∃ backend maxEvents submits,
      Alone lib ((twoStreams (feedZeros 16000)).zip os) 1 backend maxEvents submits := by
  obtain ⟨s, os, hrun, hos, -⟩ := exists_pacedRun (plainEngine_runs defaultSchedule) maxEventCapacity
    [feedZeros 16000] (by simp [TotalFits])
  have hmodel : (pacedRun (plainEngine defaultSchedule) maxEventCapacity plainDevice
      [.feed false 16000]).2 = [.feed .ok 16000] := by decide +kernel
  simp only [List.map_cons, feedZeros_paced, List.map_nil] at hos
  obtain rfl := hmodel.symm.trans hos
  obtain ⟨r, hfeed, hr⟩ := runSteps_singleton.mp hrun
  obtain rfl : r = .feed .ok 16000 := (List.cons_eq_cons.mp hr).1.symm
  generalize feedZeros 16000 = op at hfeed ⊢
  obtain ⟨lib, os, hprogram, hcalls, hcount⟩ := exists_twoStreams hfeed
  exact ⟨lib, os, hprogram, hcalls, hcount, (library_isolates_streams _ lib os hprogram).2.2 1 (by omega)⟩

end Voxtral
