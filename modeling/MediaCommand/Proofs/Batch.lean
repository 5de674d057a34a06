/-
A batch of mappings: all of them or none.

The entries of a batch are resolved from front to back, and each resolution is one that can be
released.  When one is refused, the sources resolved so far are released in reverse order, so the
objects are what they were before the first.  That is carried by a single equation: releasing the
sources in hand leads back to the objects at the start.

When none is refused, each resolved source belongs to the command and is recorded, and recording
cannot fail because the command and the output are there.
-/
import MediaCommand.Proofs.Resolve
import MediaCommand.Proofs.Sound

namespace MediaCommand.Objects

variable {o o' : Objects} {c : Command}

/-! ### Resolving the entries -/

/-- The pad that resolving to a specifier takes. -/
def takenBy (s : Specifier) : List Effect :=
  match s.pad? with
  | some (id, pad) => [.take id (.int pad)]
  | none => []

/-- The effects of mapping streams. -/
def mapEffects (specifiers : List Specifier) : List Effect :=
  specifiers.flatMap takenBy ++ specifiers.map .enter

/-- What is resolved belongs to the command, is there, and its pad has been taken. -/
theorem Resolves.spec {r : Resolved} (h : Resolves o c o' r) (hs : Sound o) :
    Trace o (takenBy r.source) o' ∧ o'.Known c r.source.source ∧ o'.Refers r.source.source := by
  cases h with
  | givenStream made on member =>
      rename_i s id track
      refine ⟨?_, ?_, hs.specifiers s made⟩
      · simp only [takenBy, Specifier.pad?, on]
        exact .refl o
      · rw [on]
        exact member
  | givenPad made on member hch hmark hfed =>
      rename_i s id pad ch
      have step := Step.take hch hmark hfed
      refine ⟨?_, step.keeps.known ?_, step.keeps.refers (hs.specifiers s made)⟩
      · simp only [takenBy, Specifier.pad?, on]
        exact .single step
      · rw [on]
        exact member
  | input track member there =>
      exact ⟨.quiet (quiet_addSpecifier track there), member, there⟩
  | chain member hch hpad hmark hfed =>
      rename_i id pad ch
      have hmarked := chain?_setChain_self (ch.addMark (.int pad)) hch
      have trace := (Trace.single (.take hch hmark hfed)).step (.refer hmarked hpad)
      refine ⟨trace, trace.keeps.known member, ?_⟩
      rw [referTo_eq pad hmarked]
      exact ⟨_, chain?_setChain_self _ hmarked, List.mem_cons_self⟩

/-- Resolving touches neither commands nor outputs. -/
theorem Resolves.files {r : Resolved} (h : Resolves o c o' r) :
    o'.commands = o.commands ∧ o'.outputs = o.outputs := by
  cases h with
  | chain member hch hpad hmark hfed =>
      rw [referTo_eq _ (chain?_setChain_self _ hch)]
      exact ⟨rfl, rfl⟩
  | givenStream | givenPad | input => exact ⟨rfl, rfl⟩

theorem resolveEntry_ok {entry : Value} {r : Resolved}
    (h : o.resolveEntry c entry = .ok (o', r)) : Resolves o c o' r := by
  obtain ⟨⟨source, index⟩, -, h⟩ := bind_ok.mp h
  exact resolveSource_ok h

/-- **A refused batch changes nothing.**  Releasing the sources in hand leads back to the objects
at the start, before and after each entry. -/
theorem resolveEntries_error {o₀ : Objects} {f : Failure} {entries : List Value} :
    ∀ {o : Objects} {done : List Resolved}, done.foldl release o = o₀ →
      (o.resolveEntries c done entries).result = .error f →
      (o.resolveEntries c done entries).objects = o₀ := by
  induction entries with
  | nil => exact fun _ h => nomatch h
  | cons entry rest ih =>
      intro o done hdone h
      simp only [resolveEntries] at h ⊢
      split at h
      · rename_i o₁ r hr
        have hreleased : (r :: done).foldl release o₁ = o₀ := by
          rw [List.foldl_cons, release_resolves (resolveEntry_ok hr)]
          exact hdone
        exact ih hreleased h
      · exact hdone

/-- A batch that goes through has resolved each entry. -/
theorem resolveEntries_ok {entries : List Value} :
    ∀ {o : Objects} {done : List Resolved} {specifiers : List Specifier}, Sound o →
      (o.resolveEntries c done entries).result = .ok specifiers →
      ∃ new : List Specifier, specifiers = (done.reverse.map Resolved.source) ++ new ∧
        Trace o (new.flatMap takenBy) (o.resolveEntries c done entries).objects ∧
        ((o.resolveEntries c done entries).objects.commands = o.commands ∧
          (o.resolveEntries c done entries).objects.outputs = o.outputs) ∧
        ∀ s ∈ new, (o.resolveEntries c done entries).objects.Known c s.source ∧
          (o.resolveEntries c done entries).objects.Refers s.source := by
  induction entries with
  | nil =>
      intro o done specifiers hs h
      refine ⟨[], ?_, .refl o, ⟨rfl, rfl⟩, by simp⟩
      rw [List.append_nil]
      exact (Except.ok.inj h).symm
  | cons entry rest ih =>
      intro o done specifiers hs h
      simp only [resolveEntries] at h ⊢
      split at h
      · rename_i o₁ r hr
        obtain ⟨trace, known, refers⟩ := (resolveEntry_ok hr).spec hs
        obtain ⟨hcommands, houtputs⟩ := (resolveEntry_ok hr).files
        obtain ⟨new, hnew, trace', ⟨hcommands', houtputs'⟩, hall⟩ := ih (trace.sound hs) h
        refine ⟨r.source :: new, ?_, trace.trans trace',
          ⟨hcommands'.trans hcommands, houtputs'.trans houtputs⟩, ?_⟩
        · rw [hnew]
          simp
        · intro s hmem
          rcases List.mem_cons.mp hmem with rfl | hrest
          · exact ⟨trace'.keeps.known known, trace'.keeps.refers refers⟩
          · exact hall s hrest
      · cases h

/-! ### Recording them -/

/-- What recording streams for an output leaves: the command has more mappings, the output is there, and
nothing but mapped streams is told. -/
structure Maps (command : CommandId) (c : Command) (output : OutputId) (o' : Objects)
    (events : List Event) : Prop where
  entered : ∃ mappings, o'.command? command = some { c with mappings }
  still : (o'.output? output).isSome
  told : ∀ e ∈ events, ∃ source track, e = .mapped source output track

theorem command?_record {command : CommandId} {output : OutputId} (out : Output) (s : Specifier)
    (hc : o.command? command = some c) :
    (o.record command c output out s).command? command =
      some { c with mappings := c.mappings ++ [⟨output, out.maps.length, s⟩] } :=
  getElem?_set_eq_of_some _ hc

theorem output?_record {output : OutputId} {out : Output} (command : CommandId) (c : Command)
    (s : Specifier) (hout : o.output? output = some out) :
    ((o.record command c output out s).output? output).isSome :=
  Option.isSome_iff_exists.mpr
    ⟨{ out with maps := out.maps ++ [s] }, getElem?_set_eq_of_some _ hout⟩

/-- Recording does not fail: each stream is entered among the mappings. -/
theorem recordMappings_ok {command : CommandId} {output : OutputId} {specifiers : List Specifier} :
    ∀ {o : Objects} {c : Command}, o.command? command = some c → (o.output? output).isSome →
      (∀ s ∈ specifiers, o.Known c s.source ∧ o.Refers s.source) →
      ∃ o' events, o.recordMappings command output specifiers = .ok (o', events) ∧
        Trace o (specifiers.map .enter) o' ∧ Maps command c output o' events := by
  induction specifiers with
  | nil => exact fun {o c} hc hout _ => ⟨o, [], rfl, .refl o, ⟨c.mappings, hc⟩, hout, by simp⟩
  | cons s rest ih =>
      intro o c hc hout hall
      obtain ⟨out, hout⟩ := Option.isSome_iff_exists.mp hout
      obtain ⟨known, refers⟩ := hall s List.mem_cons_self
      have step := Step.enter hc hout known refers
      obtain ⟨o', events, hrec, trace, hmaps⟩ :=
        ih (command?_record out s hc) (output?_record command c s hout) fun x hx =>
          ⟨step.keeps.known (hall x (List.mem_cons_of_mem s hx)).1,
            step.keeps.refers (hall x (List.mem_cons_of_mem s hx)).2⟩
      refine ⟨o', .mapped s.source output out.maps.length :: events, ?_,
        (Trace.single step).trans trace, hmaps.entered, hmaps.still, ?_⟩
      · simp only [recordMappings, recordMapping, command_ok.mpr hc, output_ok.mpr hout]
        show (o.record command c output out s).recordMappings command output rest >>= _ = _
        rw [hrec]
        rfl
      · intro e he
        rcases List.mem_cons.mp he with rfl | hrest
        · exact ⟨_, _, rfl⟩
        · exact hmaps.told e hrest

/-- **A batch of mappings is carried out as a whole or not at all.** -/
theorem mapEntries_cases {command : CommandId} {output : OutputId} (hs : Sound o)
    (hc : o.command? command = some c) (hout : (o.output? output).isSome)
    (entries : List Value) :
    (∃ f, (o.mapEntries command c output entries).result = .error f ∧
      (o.mapEntries command c output entries).objects = o) ∨
    ∃ specifiers, (o.mapEntries command c output entries).result = .ok () ∧
      Trace o (mapEffects specifiers) (o.mapEntries command c output entries).objects ∧
      Maps command c output (o.mapEntries command c output entries).objects
        (o.mapEntries command c output entries).events := by
  unfold mapEntries
  simp only
  split
  · rename_i f hf
    have hreleased : List.foldl release o [] = o := rfl
    exact Or.inl ⟨f, rfl, resolveEntries_error hreleased hf⟩
  · rename_i specifiers hspecifiers
    obtain ⟨new, hnew, trace, ⟨hcommands, houtputs⟩, hall⟩ := resolveEntries_ok hs hspecifiers
    obtain rfl : specifiers = new := hnew
    have hc₁ : (o.resolveEntries c [] entries).objects.command? command = some c := by
      rw [command?, hcommands]
      exact hc
    have hout₁ : ((o.resolveEntries c [] entries).objects.output? output).isSome := by
      rw [output?, houtputs]
      exact hout
    obtain ⟨o', events, hrec, trace', hmaps⟩ := recordMappings_ok hc₁ hout₁ hall
    refine Or.inr ⟨specifiers, ?_⟩
    rw [hrec]
    exact ⟨rfl, trace.trans trace', hmaps⟩

end MediaCommand.Objects
