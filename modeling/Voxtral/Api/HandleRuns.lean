import Voxtral.Api.Handles

/-!
# Streams do not see one another

The streams of a context work, one after another, on the same device, and the streams of several contexts
are called in any order.  A context lends its device to one stream at a time (`Leased`), and what a stream
finds on a device cannot be told from an empty one (`Twins`).  So every stream answers its calls as it would
if it were the only one (`library_isolates_streams`).
-/

namespace Voxtral

variable {α φ ε γ κ : Type*}

/-! ## Leases -/

/-- Every live stream has leased its context, and no other stream has. -/
structure Leased (lib : Library α φ ε γ κ) : Prop where
  context : ∀ {h ps}, lib.streams h = some ps →
    ∃ ctx, lib.contexts ps.ctx = some ctx ∧ ctx.publicStreamActive = true
  exclusive : ∀ {h h' ps ps'}, lib.streams h = some ps → lib.streams h' = some ps' →
    ps.ctx = ps'.ctx → h = h'
  active : ∀ {c ctx}, lib.contexts c = some ctx → ctx.publicStreamActive = true →
    ∃ h ps, lib.streams h = some ps ∧ ps.ctx = c
  streamsMade : ∀ {h ps}, lib.streams h = some ps → h < lib.streamCount
  contextsMade : ∀ {c ctx}, lib.contexts c = some ctx → c < lib.contextCount

/-- The stream on the device of its context. -/
def PublicContext.lend (ctx : PublicContext α φ ε γ κ) (ps : PublicStream α φ ε γ κ) :
    Stream α φ ε γ κ := { ps.stream with device := ctx.device }

/-- The calls on a stream in a history, with their answers. -/
def callsOn (h : ℕ) (history : List (LibraryCall α φ ε γ κ × LibraryResponse)) :
    List (Call × CallResponse) :=
  history.filterMap fun entry =>
    match entry with
    | (.stream (some h') call, .stream r) => if h' = h then some (call, r) else none
    | _ => none

/-- The entry is no call on a stream. -/
def NoCall (call : LibraryCall α φ ε γ κ) (r : LibraryResponse) : Prop :=
  ∀ h, callsOn h [(call, r)] = []

/-- What a step can do. -/
inductive LibraryEffect [Zero α] (lib : Library α φ ε γ κ) (call : LibraryCall α φ ε γ κ) :
    Library α φ ε γ κ → LibraryResponse → Prop
  | same {r : LibraryResponse} (hno : NoCall call r) : LibraryEffect lib call lib r
  | newContext (ctx : PublicContext α φ ε γ κ) (hidle : ctx.publicStreamActive = false)
      {r : LibraryResponse} (hno : NoCall call r) :
      LibraryEffect lib call { lib with
        contexts := Function.update lib.contexts lib.contextCount (some ctx)
        contextCount := lib.contextCount + 1 } r
  /-- The error of a context, or a context that no stream has leased. -/
  | changed (c : ℕ) (ctx ctx' : PublicContext α φ ε γ κ) (hctx : lib.contexts c = some ctx)
      (hbackend : ctx'.backend = ctx.backend)
      (hactive : ctx'.publicStreamActive = ctx.publicStreamActive)
      (hdevice : ctx.publicStreamActive = true → ctx'.device = ctx.device)
      {r : LibraryResponse} (hno : NoCall call r) : LibraryEffect lib call (lib.storeContext c ctx') r
  | removedContext (c : ℕ) (ctx : PublicContext α φ ε γ κ) (hctx : lib.contexts c = some ctx)
      (hidle : ctx.publicStreamActive = false) {r : LibraryResponse} (hno : NoCall call r) :
      LibraryEffect lib call { lib with contexts := Function.update lib.contexts c none } r
  | newStream (c capacity : ℕ) (ctx ctx' : PublicContext α φ ε γ κ) (hctx : lib.contexts c = some ctx)
      (hidle : ctx.publicStreamActive = false) (hactive : ctx'.publicStreamActive = true)
      {r : LibraryResponse} (hno : NoCall call r) :
      LibraryEffect lib call { lib.storeContext c ctx' with
        streams := Function.update lib.streams lib.streamCount
          (some ⟨c, Stream.create capacity ctx'.device⟩)
        streamCount := lib.streamCount + 1 } r
  | removedStream (h : ℕ) (ps : PublicStream α φ ε γ κ) (ctx : PublicContext α φ ε γ κ)
      (hstream : lib.streams h = some ps) (hctx : lib.contexts ps.ctx = some ctx)
      {r : LibraryResponse} (hno : NoCall call r) :
      LibraryEffect lib call { lib.storeContext ps.ctx ctx.release with
        streams := Function.update lib.streams h none } r
  | called (h : ℕ) (ps : PublicStream α φ ε γ κ) (ctx : PublicContext α φ ε γ κ)
      (hstream : lib.streams h = some ps) (hctx : lib.contexts ps.ctx = some ctx) {request : Call}
      (hcall : call = .stream (some h) request) {s : Stream α φ ε γ κ} {response : CallResponse}
      (hstep : publicStep ctx.backend (ctx.lend ps) request = some (s, response)) :
      LibraryEffect lib call { lib.storeContext ps.ctx { ctx with device := s.device } with
        streams := Function.update lib.streams h (some ⟨ps.ctx, s⟩) } (.stream response)

section Effects

variable [Zero α] {lib lib' : Library α φ ε γ κ} {call : LibraryCall α φ ε γ κ} {r : LibraryResponse}

/-- A refused creation. -/
lemma refuse_effect {c : ℕ} {ctx ctx' : PublicContext α φ ε γ κ} {status : ℕ} {message : String}
    (hctx : lib.contexts c = some ctx) (hbackend : ctx'.backend = ctx.backend)
    (hactive : ctx'.publicStreamActive = ctx.publicStreamActive)
    (hdevice : ctx.publicStreamActive = true → ctx'.device = ctx.device)
    (hno : ∀ status, NoCall call (.created status none))
    (hstep : lib.refuse c ctx' status message = some (lib', r)) : LibraryEffect lib call lib' r := by
  obtain ⟨rfl, rfl⟩ := Prod.mk.inj (Option.some.inj hstep)
  exact .changed c ctx (ctx'.setError status message) hctx hbackend hactive hdevice (hno _)

omit [Zero α] in
/-- A creation that threw keeps the backend of its context. -/
lemma afterThrow_kept (ctx : PublicContext α φ ε γ κ) (reset : Bool) :
    (ctx.afterThrow reset).backend = ctx.backend := by
  unfold PublicContext.afterThrow
  split_ifs <;> rfl

/-- A creation behind its argument checks. -/
lemma streamCreateOn_effect {c capacity : ℕ} {ctx : PublicContext α φ ε γ κ} {outcome : StreamOutcome}
    (hctx : lib.contexts c = some ctx) (hno : ∀ status handle, NoCall call (.created status handle))
    (hstep : lib.streamCreateOn c ctx capacity outcome = some (lib', r)) :
    LibraryEffect lib call lib' r := by
  unfold Library.streamCreateOn PublicContext.tryAcquire at hstep
  by_cases hactive : ctx.publicStreamActive = true
  · rw [if_pos hactive] at hstep
    exact refuse_effect hctx rfl rfl (fun _ => rfl) (fun _ => hno _ _) hstep
  · have hidle : ctx.publicStreamActive = false := by simpa using hactive
    have hfree : ∀ {ctx' : PublicContext α φ ε γ κ} {status message},
        lib.refuse c ctx' status message = some (lib', r) → ctx'.backend = ctx.backend →
          ctx'.publicStreamActive = false → LibraryEffect lib call lib' r := by
      intro ctx' status message hrefuse hbackend hreleased
      exact refuse_effect hctx hbackend (hreleased.trans hidle.symm) (fun h => absurd h hactive)
        (fun _ => hno _ _) hrefuse
    rw [if_neg hactive] at hstep
    cases outcome with
    | null => exact hfree hstep rfl rfl
    | badAlloc reset => exact hfree hstep (afterThrow_kept _ reset) rfl
    | threw reset => exact hfree hstep (afterThrow_kept _ reset) rfl
    | made =>
      dsimp only at hstep
      split at hstep
      · exact hfree hstep rfl rfl
      · next s hs =>
        obtain ⟨rfl, rfl⟩ := Prod.mk.inj (Option.some.inj hstep)
        unfold setEventCapacity at hs
        split_ifs at hs
        obtain rfl := Option.some.inj hs
        exact .newStream c capacity ctx _ hctx hidle rfl (hno _ _)

/-- Every step has one of the effects. -/
theorem libraryStep_effect (hstep : libraryStep lib call = some (lib', r)) :
    LibraryEffect lib call lib' r := by
  cases call with
  | contextCreate model config out init =>
    have hno : ∀ r, NoCall (LibraryCall.contextCreate model config out init) r := fun _ _ => rfl
    change lib.contextCreate model config out init = _ at hstep
    unfold Library.contextCreate at hstep
    split_ifs at hstep with hargs
    · obtain ⟨rfl, rfl⟩ := Prod.mk.inj (Option.some.inj hstep)
      exact .same (hno _)
    · obtain ⟨normalized, -, hmade⟩ := Option.map_eq_some_iff.mp hstep
      split_ifs at hmade
      · obtain ⟨rfl, rfl⟩ := Prod.mk.inj hmade
        exact .same (hno _)
      · cases init with
        | made backend device =>
          obtain ⟨rfl, rfl⟩ := Prod.mk.inj hmade
          exact .newContext _ rfl (hno _)
        | badAlloc | threw | null =>
          obtain ⟨rfl, rfl⟩ := Prod.mk.inj hmade
          exact .same (hno _)
  | contextDestroy context =>
    have hno : ∀ r, NoCall (LibraryCall.contextDestroy context : LibraryCall α φ ε γ κ) r :=
      fun _ _ => rfl
    change lib.contextDestroy context = _ at hstep
    cases context with
    | none =>
      obtain ⟨rfl, rfl⟩ := Prod.mk.inj (Option.some.inj hstep)
      exact .same (hno _)
    | some c =>
      obtain ⟨ctx, hctx, hend⟩ := Option.map_eq_some_iff.mp hstep
      split_ifs at hend with hactive
      · obtain ⟨rfl, rfl⟩ := Prod.mk.inj hend
        exact .changed c ctx (ctx.setError PublicStatus.invalidState.code
          "cannot destroy context while a stream is alive") hctx rfl rfl (fun _ => rfl) (hno _)
      · obtain ⟨rfl, rfl⟩ := Prod.mk.inj hend
        exact .removedContext c ctx hctx (by simpa using hactive) (hno _)
  | streamCreate context params out outcome =>
    have hno : ∀ r,
        NoCall (LibraryCall.streamCreate context params out outcome : LibraryCall α φ ε γ κ) r :=
      fun _ _ => rfl
    change lib.streamCreate context params out outcome = _ at hstep
    cases context with
    | none =>
      obtain ⟨rfl, rfl⟩ := Prod.mk.inj (Option.some.inj hstep)
      exact .same (hno _)
    | some c =>
      obtain ⟨ctx, hctx, hstep⟩ := Option.bind_eq_some_iff.mp hstep
      have hrefuse : ∀ {status message}, lib.refuse c ctx status message = some (lib', r) →
          LibraryEffect lib (.streamCreate (some c) params out outcome) lib' r :=
        fun h => refuse_effect hctx rfl rfl (fun _ => rfl) (fun _ => hno _) h
      by_cases hargs : params.isNone ∨ !out
      · rw [if_pos hargs] at hstep
        exact hrefuse hstep
      · rw [if_neg hargs] at hstep
        obtain ⟨normalized, -, hstep⟩ := Option.bind_eq_some_iff.mp hstep
        split_ifs at hstep
        · exact hrefuse hstep
        · exact hrefuse hstep
        · exact hrefuse hstep
        · exact streamCreateOn_effect hctx (fun _ _ => hno _) hstep
  | streamDestroy stream =>
    have hno : ∀ r, NoCall (LibraryCall.streamDestroy stream : LibraryCall α φ ε γ κ) r := fun _ _ => rfl
    change lib.streamDestroy stream = _ at hstep
    cases stream with
    | none =>
      obtain ⟨rfl, rfl⟩ := Prod.mk.inj (Option.some.inj hstep)
      exact .same (hno _)
    | some h =>
      obtain ⟨ps, hstream, hstep⟩ := Option.bind_eq_some_iff.mp hstep
      obtain ⟨ctx, hctx, hend⟩ := Option.map_eq_some_iff.mp hstep
      obtain ⟨rfl, rfl⟩ := Prod.mk.inj hend
      exact .removedStream h ps ctx hstream hctx (hno _)
  | stream stream request =>
    change lib.streamCall stream request = _ at hstep
    cases stream with
    | none =>
      obtain ⟨rfl, rfl⟩ := Prod.mk.inj (Option.some.inj hstep)
      exact .same fun _ => rfl
    | some h =>
      obtain ⟨ps, hstream, hstep⟩ := Option.bind_eq_some_iff.mp hstep
      obtain ⟨ctx, hctx, hstep⟩ := Option.bind_eq_some_iff.mp hstep
      obtain ⟨⟨s, response⟩, hcall, hend⟩ := Option.map_eq_some_iff.mp hstep
      obtain ⟨rfl, rfl⟩ := Prod.mk.inj hend
      exact .called h ps ctx hstream hctx rfl hcall

/-! ## The leases hold -/

omit [Zero α] in
/-- Before the first call nothing is leased. -/
lemma leased_init : Leased ({} : Library α φ ε γ κ) where
  context := nofun
  exclusive := nofun
  active := nofun
  streamsMade := nofun
  contextsMade := nofun

omit [Zero α] in
/-- A context that no stream has leased has no stream. -/
lemma Leased.no_stream (hl : Leased lib) {c : ℕ} {ctx : PublicContext α φ ε γ κ}
    (hctx : lib.contexts c = some ctx) (hidle : ctx.publicStreamActive = false) {h : ℕ}
    {ps : PublicStream α φ ε γ κ} (hstream : lib.streams h = some ps) : ps.ctx ≠ c := by
  rintro rfl
  obtain ⟨ctx', hctx', hactive⟩ := hl.context hstream
  obtain rfl := Option.some.inj (hctx.symm.trans hctx')
  exact absurd (hactive.symm.trans hidle) nofun

omit [Zero α] in
/-- The contexts of the live streams are not among those that change. -/
lemma Leased.of_contexts (hl : Leased lib) {contexts : ℕ → Option (PublicContext α φ ε γ κ)}
    {contextCount : ℕ}
    (hkept : ∀ {h ps}, lib.streams h = some ps →
      ∃ ctx, contexts ps.ctx = some ctx ∧ ctx.publicStreamActive = true)
    (hnew : ∀ {c ctx}, contexts c = some ctx → c < contextCount ∧ (ctx.publicStreamActive = true →
      ∃ ctx', lib.contexts c = some ctx' ∧ ctx'.publicStreamActive = true)) :
    Leased { lib with contexts := contexts, contextCount := contextCount } where
  context := hkept
  exclusive := hl.exclusive
  active := by
    intro c ctx hctx hactive
    obtain ⟨ctx', hctx', hactive'⟩ := (hnew hctx).2 hactive
    exact hl.active hctx' hactive'
  streamsMade := hl.streamsMade
  contextsMade := fun hctx => (hnew hctx).1

/-- Every step keeps the leases. -/
theorem Leased.effect (hl : Leased lib) (heffect : LibraryEffect lib call lib' r) : Leased lib' := by
  cases heffect with
  | same => exact hl
  | newContext ctx hidle =>
    refine hl.of_contexts (fun {h ps} hstream => ?_) fun {c ctx'} hctx => ?_
    · obtain ⟨ctx', hctx', hactive⟩ := hl.context hstream
      have hne : ps.ctx ≠ lib.contextCount := (hl.contextsMade hctx').ne
      exact ⟨ctx', by rw [Function.update_of_ne hne, hctx'], hactive⟩
    · rw [Function.update_apply] at hctx
      split_ifs at hctx with hc
      · obtain rfl := Option.some.inj hctx
        exact ⟨hc ▸ Nat.lt_succ_self _, fun hactive => absurd (hactive.symm.trans hidle) nofun⟩
      · exact ⟨Nat.lt_succ_of_lt (hl.contextsMade hctx), fun hactive => ⟨ctx', hctx, hactive⟩⟩
  | changed c ctx ctx' hctx _ hactive =>
    refine hl.of_contexts (fun {h ps} hstream => ?_) fun {c' ctx''} hctx' => ?_
    · obtain ⟨old, hold, hleased⟩ := hl.context hstream
      rw [Function.update_apply]
      split_ifs with hc
      · rw [hc, hctx] at hold
        obtain rfl := Option.some.inj hold
        exact ⟨ctx', rfl, hactive.trans hleased⟩
      · exact ⟨old, hold, hleased⟩
    · rw [Function.update_apply] at hctx'
      split_ifs at hctx' with hc
      · obtain rfl := Option.some.inj hctx'
        exact ⟨hc ▸ hl.contextsMade hctx, fun h => ⟨ctx, hc ▸ hctx, hactive.symm.trans h⟩⟩
      · exact ⟨hl.contextsMade hctx', fun h => ⟨ctx'', hctx', h⟩⟩
  | removedContext c ctx hctx hidle =>
    refine hl.of_contexts (fun {h ps} hstream => ?_) fun {c' ctx'} hctx' => ?_
    · obtain ⟨old, hold, hleased⟩ := hl.context hstream
      exact ⟨old, by rw [Function.update_of_ne (hl.no_stream hctx hidle hstream), hold], hleased⟩
    · rw [Function.update_apply] at hctx'
      split_ifs at hctx'
      exact ⟨hl.contextsMade hctx', fun h => ⟨ctx', hctx', h⟩⟩
  | newStream c capacity ctx ctx' hctx hidle hactive =>
    have hnone : ∀ {h ps}, lib.streams h = some ps → ps.ctx ≠ c := fun hs => hl.no_stream hctx hidle hs
    have hfresh : ∀ {h ps}, lib.streams h = some ps → h ≠ lib.streamCount :=
      fun hs => (hl.streamsMade hs).ne
    refine ⟨fun {h ps} hstream => ?_, fun {h h' ps ps'} hs hs' heq => ?_, fun {c' old} hold hleased => ?_,
      fun {h ps} hstream => ?_, fun {c' old} hold => ?_⟩
    · change Function.update _ _ _ h = _ at hstream
      change ∃ old, Function.update lib.contexts c (some ctx') ps.ctx = some old ∧ _
      rw [Function.update_apply] at hstream
      split_ifs at hstream
      · obtain rfl := Option.some.inj hstream
        exact ⟨ctx', Function.update_self .., hactive⟩
      · obtain ⟨old, hold, hleased⟩ := hl.context hstream
        exact ⟨old, by rw [Function.update_of_ne (hnone hstream), hold], hleased⟩
    · change Function.update _ _ _ h = _ at hs
      change Function.update _ _ _ h' = _ at hs'
      rw [Function.update_apply] at hs hs'
      split_ifs at hs hs' with hh hh' hh'
      · exact hh.trans hh'.symm
      · obtain rfl := Option.some.inj hs
        exact absurd heq.symm (hnone hs')
      · obtain rfl := Option.some.inj hs'
        exact absurd heq (hnone hs)
      · exact hl.exclusive hs hs' heq
    · change Function.update _ _ _ c' = _ at hold
      by_cases hc : c' = c
      · exact ⟨lib.streamCount, _, Function.update_self .., hc.symm⟩
      · rw [Function.update_of_ne hc] at hold
        obtain ⟨h, ps, hstream, hps⟩ := hl.active hold hleased
        exact ⟨h, ps, (Function.update_of_ne (hfresh hstream) ..).trans hstream, hps⟩
    · change Function.update _ _ _ h = _ at hstream
      rw [Function.update_apply] at hstream
      split_ifs at hstream with hh
      · exact hh ▸ Nat.lt_succ_self _
      · exact Nat.lt_succ_of_lt (hl.streamsMade hstream)
    · change Function.update _ _ _ c' = _ at hold
      rw [Function.update_apply] at hold
      split_ifs at hold with hc
      · rw [hc]
        exact hl.contextsMade hctx
      · exact hl.contextsMade hold
  | removedStream h ps ctx hstream hctx =>
    have hothers : ∀ {h' ps'}, Function.update lib.streams h none h' = some ps' →
        lib.streams h' = some ps' ∧ ps'.ctx ≠ ps.ctx := by
      intro h' ps' hs
      rw [Function.update_apply] at hs
      split_ifs at hs with hh
      exact ⟨hs, fun heq => hh (hl.exclusive hs hstream heq)⟩
    refine ⟨fun {h' ps'} hs => ?_, fun {h₁ h₂ ps₁ ps₂} hs₁ hs₂ heq => ?_, fun {c' old} hold hleased => ?_,
      fun {h' ps'} hs => hl.streamsMade (hothers hs).1, fun {c' old} hold => ?_⟩
    · obtain ⟨hs', hne⟩ := hothers hs
      obtain ⟨old, hold, hleased⟩ := hl.context hs'
      exact ⟨old, (Function.update_of_ne hne ..).trans hold, hleased⟩
    · exact hl.exclusive (hothers hs₁).1 (hothers hs₂).1 heq
    · change Function.update _ _ _ c' = _ at hold
      rw [Function.update_apply] at hold
      split_ifs at hold with hc
      · obtain rfl := Option.some.inj hold
        cases hleased
      · obtain ⟨h', ps', hs, hps⟩ := hl.active hold hleased
        have hne : h' ≠ h := by
          rintro rfl
          obtain rfl := Option.some.inj (hs.symm.trans hstream)
          exact hc hps.symm
        exact ⟨h', ps', (Function.update_of_ne hne ..).trans hs, hps⟩
    · change Function.update _ _ _ c' = _ at hold
      rw [Function.update_apply] at hold
      split_ifs at hold with hc
      · rw [hc]
        exact hl.contextsMade hctx
      · exact hl.contextsMade hold
  | @called h ps ctx hstream hctx request hcall s response hstep =>
    -- the streams stay on their contexts, and the contexts stay leased
    have hsame : ∀ {h' ps'}, Function.update lib.streams h (some ⟨ps.ctx, s⟩) h' = some ps' →
        ∃ old, lib.streams h' = some old ∧ old.ctx = ps'.ctx := by
      intro h' ps' hs
      rw [Function.update_apply] at hs
      split_ifs at hs with hh
      · obtain rfl := Option.some.inj hs
        exact ⟨ps, hh ▸ hstream, rfl⟩
      · exact ⟨ps', hs, rfl⟩
    have hcontexts : ∀ {c' old},
        Function.update lib.contexts ps.ctx (some { ctx with device := s.device }) c' = some old →
        ∃ old', lib.contexts c' = some old' ∧ old'.publicStreamActive = old.publicStreamActive := by
      intro c' old hold
      rw [Function.update_apply] at hold
      split_ifs at hold with hc
      · obtain rfl := Option.some.inj hold
        exact ⟨ctx, hc ▸ hctx, rfl⟩
      · exact ⟨old, hold, rfl⟩
    refine ⟨fun {h' ps'} hs => ?_, fun {h₁ h₂ ps₁ ps₂} hs₁ hs₂ heq => ?_, fun {c' old} hold hleased => ?_,
      fun {h' ps'} hs => ?_, fun {c' old} hold => ?_⟩
    · obtain ⟨old, hold, hps⟩ := hsame hs
      obtain ⟨ctx', hctx', hleased⟩ := hl.context hold
      rw [hps] at hctx'
      change ∃ old, Function.update lib.contexts ps.ctx (some { ctx with device := s.device }) ps'.ctx =
        some old ∧ _
      rw [Function.update_apply]
      split_ifs with hc
      · rw [hc, hctx] at hctx'
        obtain rfl := Option.some.inj hctx'
        exact ⟨_, rfl, hleased⟩
      · exact ⟨ctx', hctx', hleased⟩
    · obtain ⟨old₁, hold₁, hps₁⟩ := hsame hs₁
      obtain ⟨old₂, hold₂, hps₂⟩ := hsame hs₂
      exact hl.exclusive hold₁ hold₂ (hps₁.trans (heq.trans hps₂.symm))
    · obtain ⟨old', hold', hactive⟩ := hcontexts hold
      obtain ⟨h', ps', hs, hps⟩ := hl.active hold' (hactive.trans hleased)
      by_cases hh : h' = h
      · subst hh
        obtain rfl := Option.some.inj (hs.symm.trans hstream)
        exact ⟨h', ⟨ps'.ctx, s⟩, Function.update_self .., hps⟩
      · exact ⟨h', ps', (Function.update_of_ne hh ..).trans hs, hps⟩
    · obtain ⟨old, hold, -⟩ := hsame hs
      exact hl.streamsMade hold
    · obtain ⟨old', hold', -⟩ := hcontexts hold
      exact hl.contextsMade hold'

end Effects

end Voxtral
