/-
Every call is a sequence of steps.

A call that maps streams takes the pads of these streams and then enters each of them.  A call may
also take a pad directly, without entering anything.  No other call has an effect on the account of
a pad, and a call that is refused has none.

Copying is left out: a copy is made at once and brings its own mappings and marks with it.
-/
import MediaCommand.Proofs.Graphs
import MediaCommand.Proofs.Labels

namespace MediaCommand

/-- Whether a call records streams among the mappings of a command. -/
def Action.records : Action → Bool
  | .addOutput _ _ _ => true
  | .map _ _ _ _ => true
  | _ => false

namespace Objects

variable {o o' : Objects}

/-! ### Commands -/

theorem commandAddInput_trace {command : CommandId} {input : Value} {n : Nat}
    (h : o.commandAddInput command input = .ok (o', n)) : Trace o [] o' := by
  obtain ⟨c, hc, h⟩ := bind_ok.mp h
  split at h
  · obtain ⟨i, hi, h⟩ := bind_ok.mp h
    split at h
    · cases h
    · rename_i hfree
      cases h
      exact .single (.label (command_ok.mp hc) (input_ok.mp hi) hfree)
  · cases h

/-- Graphs whose bound inputs have been looked at are there. -/
theorem checkBindings_graph {c : Command} {graphs known : List GraphId}
    (h : o.checkBindings c graphs known = .ok ()) : ∀ id ∈ graphs, (o.graph? id).isSome := by
  intro id hid
  obtain ⟨g, hg, -⟩ := bind_ok.mp (forM_ok.mp h id hid)
  exact Option.isSome_iff_exists.mpr ⟨g, graph_ok.mp hg⟩

theorem commandAddGraph_trace {command : CommandId} {graph onOutput : Value} {id : GraphId}
    (h : o.commandAddGraph command graph onOutput = .ok (o', id)) : Trace o [] o' := by
  obtain ⟨c, hc, h⟩ := bind_ok.mp h
  split at h
  · rename_i added _
    dsimp only at h
    split at h
    · cases h
    · rename_i hnew
      have hfresh : added ∉ c.graphs := by simpa using hnew
      obtain ⟨target, -, h⟩ := bind_ok.mp h
      obtain ⟨⟨⟩, hbound, h⟩ := bind_ok.mp h
      have hg := checkBindings_graph hbound _ List.mem_cons_self
      split at h
      · cases h
        simpa using Trace.single (.adopt [] (command_ok.mp hc) hg hfresh)
      · rename_i out _
        obtain ⟨o₁, hoptions, h⟩ := bind_ok.mp h
        cases h
        obtain ⟨x, hx, hoptions⟩ := bind_ok.mp hoptions
        obtain ⟨more, -, hoptions⟩ := bind_ok.mp hoptions
        cases hoptions
        have quiet := quiet_setOutput (Dict.update x.options more) (output_ok.mp hx)
        exact (Trace.quiet quiet).step (.adopt [out] (command_ok.mp hc) hg hfresh)
  · cases h

/-! ### Mapping streams -/

theorem newCommandOutput_ok {c : Command} {v : Value} {id : OutputId}
    (h : o.newCommandOutput c v = .ok id) : (o.output? id).isSome ∧ id ∉ c.outputs := by
  unfold newCommandOutput at h
  split at h
  · split at h
    · cases h
    · rename_i hnew
      obtain ⟨out, hout, rfl⟩ := map_ok.mp h
      exact ⟨Option.isSome_iff_exists.mpr ⟨out, output_ok.mp hout⟩, by simpa using hnew⟩
  · cases h

theorem commandOutput_ok {c : Command} {v : Value} {id : OutputId}
    (h : o.commandOutput c v = .ok id) : (o.output? id).isSome := by
  unfold commandOutput at h
  split at h
  · split at h
    · obtain ⟨out, hout, rfl⟩ := map_ok.mp h
      exact Option.isSome_iff_exists.mpr ⟨out, output_ok.mp hout⟩
    · cases h
  · cases h

/-- A call that maps streams puts none of their lines into words. -/
theorem Maps.lazily {command : CommandId} {c : Command} {output : OutputId} {events : List Event}
    (h : Maps command c output o events) : ∀ e ∈ events, e.isEager = false := by
  intro e he
  obtain ⟨source, track, rfl⟩ := h.told e he
  rfl

/-- What a call that maps streams and is not refused leaves behind. -/
structure MapsAll (o o' : Objects) (events : List Event) : Prop where
  trace : ∃ specifiers, Trace o (mapEffects specifiers) o'
  lazily : ∀ e ∈ events, e.isEager = false

theorem commandAddOutput_cases (hs : Sound o) (command : CommandId) (output mappings : Value) :
    (∃ f, (o.commandAddOutput command output mappings).result = .error f ∧
      (o.commandAddOutput command output mappings).objects = o) ∨
    ∃ id, (o.commandAddOutput command output mappings).result = .ok id ∧
      MapsAll o (o.commandAddOutput command output mappings).objects
        (o.commandAddOutput command output mappings).events := by
  unfold commandAddOutput
  dsimp only
  split
  · exact Or.inl ⟨_, rfl, rfl⟩
  · rename_i c id entries h
    obtain ⟨c₁, hc, h⟩ := bind_ok.mp h
    obtain ⟨id₁, hid, h⟩ := bind_ok.mp h
    obtain ⟨hout, hnew⟩ := newCommandOutput_ok hid
    have heq : c₁ = c ∧ id₁ = id := by
      split at h
      · cases h
        exact ⟨rfl, rfl⟩
      · obtain ⟨entries', -, h⟩ := bind_ok.mp h
        cases h
        exact ⟨rfl, rfl⟩
    obtain ⟨rfl, rfl⟩ := heq
    rcases mapEntries_cases hs (command_ok.mp hc) hout entries with
      ⟨f, hf, hobjects⟩ | ⟨specifiers, hok, trace, hmaps⟩
    · exact Or.inl ⟨f, by simp only [hf], by simp only [hf]; exact hobjects⟩
    · refine Or.inr ⟨id₁, by simp only [hok], ?_⟩
      simp only [hok]
      obtain ⟨ms, hc'⟩ := hmaps.entered
      have step := Step.list hc' hmaps.still hnew
      have hobjects : (o.mapEntries command c₁ id₁ entries).objects.enterOutput command id₁
          = (o.mapEntries command c₁ id₁ entries).objects.setCommand command
              { c₁ with mappings := ms, outputs := c₁.outputs ++ [id₁] } := by
        simp only [enterOutput, hc']
      rw [hobjects]
      have trace' := trace.step step
      exact ⟨⟨specifiers, by rwa [List.append_nil] at trace'⟩, hmaps.lazily⟩

theorem commandMap_cases (hs : Sound o) (command : CommandId) (output source index : Value) :
    (∃ f, (o.commandMap command output source index).result = .error f ∧
      (o.commandMap command output source index).objects = o) ∨
    ∃ track, (o.commandMap command output source index).result = .ok track ∧
      MapsAll o (o.commandMap command output source index).objects
        (o.commandMap command output source index).events := by
  unfold commandMap
  dsimp only
  split
  · exact Or.inl ⟨_, rfl, rfl⟩
  · rename_i c id h
    obtain ⟨c₁, hc, h⟩ := bind_ok.mp h
    obtain ⟨id₁, hid, h⟩ := bind_ok.mp h
    cases h
    have hout := commandOutput_ok hid
    rcases mapEntries_cases hs (command_ok.mp hc) hout [.tuple [source, index]] with
      ⟨f, hf, hobjects⟩ | ⟨specifiers, hok, trace, hmaps⟩
    · exact Or.inl ⟨f, by simp only [Outcome.map, hf, Except.map], hobjects⟩
    · exact Or.inr ⟨_, by simp only [Outcome.map, hok, Except.map]; rfl, ⟨specifiers, trace⟩,
        hmaps.lazily⟩

/-- Asking for the text that maps a source leaves its pad taken. -/
theorem mappingValue_cases (hs : Sound o) (command : CommandId) (source index : Value) :
    (∃ f, (o.mappingValue command source index).result = .error f ∧
      (o.mappingValue command source index).objects = o) ∨
    ∃ c r text, (o.mappingValue command source index).result = .ok text ∧
      o.command? command = some c ∧
      o.resolveSource c source index = .ok ((o.mappingValue command source index).objects, r) ∧
      (o.mappingValue command source index).events = [.resolved source text] := by
  unfold mappingValue
  dsimp only
  split
  · exact Or.inl ⟨_, rfl, rfl⟩
  · rename_i o₁ r h
    obtain ⟨c, hc, h⟩ := bind_ok.mp h
    obtain ⟨trace, known, -⟩ := (resolveSource_ok h).spec hs
    obtain ⟨text, htext⟩ := (trace.sound hs).specifierText_of_known
      ((hs.command (command_ok.mp hc)).keeps trace.keeps) known
    simp only [htext]
    exact Or.inr ⟨c, r, text, rfl, command_ok.mp hc, h, rfl⟩

/-! ### Calls -/

section Outcomes

variable {α : Type} {P : Objects → Prop}

/-- What holds of the objects before a call and of those that it answers holds after it, whatever becomes
of it. -/
theorem objects_ofExcept {r : Except Error (Objects × α)} (before : P o)
    (h : ∀ o' a, r = .ok (o', a) → P o') : P (Outcome.ofExcept o r).objects := by
  cases r with
  | error e => exact before
  | ok x => exact h x.1 x.2 rfl

theorem objects_made {toObject : α → Object} {r : Except Error (Objects × α)} (before : P o)
    (h : ∀ o' a, r = .ok (o', a) → P o') : P (Outcome.ofExcept o (made toObject r)).objects :=
  objects_ofExcept before fun o' v hr => by
    obtain ⟨⟨o₁, a⟩, ha, heq⟩ := map_ok.mp hr
    cases heq
    exact h _ a ha

theorem objects_changed {r : Except Error Objects} (before : P o) (h : ∀ o', r = .ok o' → P o') :
    P (Outcome.ofExcept o (changed r)).objects :=
  objects_ofExcept before fun o' v hr => by
    obtain ⟨o₁, ho, heq⟩ := map_ok.mp hr
    cases heq
    exact h _ ho

end Outcomes

theorem trace_ofExcept {α : Type} {r : Except Error (Objects × α)}
    (h : ∀ o' a, r = .ok (o', a) → Trace o [] o') : Trace o [] (Outcome.ofExcept o r).objects :=
  objects_ofExcept (.refl o) h

theorem trace_made {α : Type} {toObject : α → Object} {r : Except Error (Objects × α)}
    (h : ∀ o' a, r = .ok (o', a) → Trace o [] o') :
    Trace o [] (Outcome.ofExcept o (made toObject r)).objects :=
  objects_made (.refl o) h

theorem trace_changed {r : Except Error Objects} (h : ∀ o', r = .ok o' → Trace o [] o') :
    Trace o [] (Outcome.ofExcept o (changed r)).objects :=
  objects_changed (.refl o) h

/-- The pad that a mapping source means. -/
def meantPad? (o : Objects) (command : CommandId) (source index : Value) :
    Option (ChainId × Value) :=
  match (do let c ← o.command command; o.resolveSource c source index) with
  | .ok (_, r) => r.source.pad?.map fun p => (p.1, .int p.2)
  | .error _ => none

/-- The pad that a call takes without entering anything among the mappings, if it goes through. -/
def directPad? (o : Objects) (a : Action) : Option (ChainId × Value) :=
  match a, (o.perform a).result with
  | .markMapped chain pad, .ok _ => some (chain, pad)
  | .mappingValue command source index, .ok _ => o.meantPad? command source index
  | _, _ => none

/-- The effects of a call that takes a pad directly. -/
def directEffects (o : Objects) (a : Action) : List Effect :=
  (o.directPad? a).toList.map fun p => .take p.1 p.2

theorem markMapped_effects (o : Objects) (id : ChainId) (pad : Value) :
    Trace o (o.directEffects (.markMapped id pad)) (o.perform (.markMapped id pad)).objects := by
  cases h : o.markMapped id pad with
  | error e =>
      simp only [directEffects, directPad?, perform, changed, h, Except.map, Outcome.ofExcept]
      exact .refl o
  | ok o' =>
      simp only [directEffects, directPad?, perform, changed, h, Except.map, Outcome.ofExcept]
      exact markMapped_trace h

theorem mappingValue_effects (hs : Sound o) (command : CommandId) (source index : Value) :
    Trace o (o.directEffects (.mappingValue command source index))
      (o.perform (.mappingValue command source index)).objects := by
  rcases mappingValue_cases hs command source index with
    ⟨f, hf, hobjects⟩ | ⟨c, r, text, hok, hc, hresolve, -⟩
  · simp only [directEffects, directPad?, perform, Outcome.map, hf, hobjects, Except.map]
    exact .refl o
  · obtain ⟨trace, -, -⟩ := (resolveSource_ok hresolve).spec hs
    have hmeant : o.meantPad? command source index
        = r.source.pad?.map fun p => (p.1, Value.int p.2) := by
      simp only [meantPad?, command_ok.mpr hc, bind, Except.bind, hresolve]
    simp only [directEffects, directPad?, perform, Outcome.map, hok, Except.map, hmeant]
    unfold takenBy at trace
    cases hpad : r.source.pad? with
    | none =>
        simp only [hpad] at trace
        exact trace
    | some p =>
        simp only [hpad] at trace
        exact trace

/-- A call that records nothing only takes the pads that it takes directly. -/
theorem perform_still (hs : Sound o) {a : Action} (h : ∀ v, a ≠ .copy v)
    (hrecords : a.records = false) : Trace o (o.directEffects a) (o.perform a).objects := by
  cases a with
  | newFilter => exact trace_made fun _ _ h => .quiet (newFilter_quiet h)
  | newChain => exact trace_made fun _ _ h => .quiet (newChain_quiet h)
  | add => exact trace_ofExcept fun _ _ h => .quiet (add_quiet h)
  | wrap => exact trace_made fun _ _ h => .quiet (wrap_quiet h)
  | newGraph chains => exact newGraph_trace hs chains
  | newInput => exact trace_made fun _ _ h => .quiet (newInput_quiet h)
  | newOutput => exact trace_made fun _ _ h => .quiet (newOutput_quiet h)
  | newCommand => exact trace_made fun _ _ h => .quiet (newCommand_quiet h)
  | copy v => exact absurd rfl (h v)
  | appendNodes => exact trace_changed fun _ h => appendNodes_trace h
  | prependNodes id nodes =>
      rcases prependNodes_cases o id nodes with ⟨f, -, hobjects⟩ | ⟨-, -, trace⟩
      · exact .of_eq hobjects
      · exact trace
  | addInputs id inputs =>
      rcases addInputs_cases o id inputs with ⟨f, -, hobjects⟩ | ⟨-, -, trace⟩
      · exact .of_eq hobjects
      · exact trace
  | outputPad => exact trace_made fun _ _ h => outputPad_trace h
  | fromFilterOutput => exact trace_made fun _ _ h => fromFilterOutput_trace h
  | markMapped id pad => exact markMapped_effects o id pad
  | appendChain => exact trace_made fun _ _ h => appendToGraph_trace h
  | extendGraph graph chains =>
      simp only [perform]
      split
      · exact extendGraph_trace
      · exact .refl o
  | addInputOptions => exact trace_changed fun _ h => .quiet (addInputOptions_quiet h)
  | addOutputOptions => exact trace_changed fun _ h => .quiet (addOutputOptions_quiet h)
  | inputStream => exact trace_made fun _ _ h => .quiet (inputStream_quiet h)
  | fromInput => exact trace_made fun _ _ h => .quiet (fromInput_quiet h)
  | addInput =>
      refine trace_ofExcept fun _ _ h => ?_
      obtain ⟨⟨o₁, n⟩, hn, heq⟩ := map_ok.mp h
      cases heq
      exact commandAddInput_trace hn
  | addGraph => exact trace_made fun _ _ h => commandAddGraph_trace h
  | addOutput | map => cases hrecords
  | mappingValue command source index => exact mappingValue_effects hs command source index

/-- **Every call is a sequence of steps.**  What it takes directly comes first, then the streams that
it maps; no call does both. -/
theorem perform_trace (hs : Sound o) {a : Action} (h : ∀ v, a ≠ .copy v) :
    ∃ specifiers, Trace o (o.directEffects a ++ mapEffects specifiers) (o.perform a).objects := by
  cases hrecords : a.records with
  | false => exact ⟨[], by simpa [mapEffects] using perform_still hs h hrecords⟩
  | true =>
    cases a with
    | addOutput command output mappings =>
        rcases commandAddOutput_cases hs command output mappings with
          ⟨f, -, hobjects⟩ | ⟨id, -, ⟨specifiers, trace⟩, -⟩
        · exact ⟨[], .of_eq hobjects⟩
        · exact ⟨specifiers, trace⟩
    | map command output source index =>
        rcases commandMap_cases hs command output source index with
          ⟨f, -, hobjects⟩ | ⟨track, -, ⟨specifiers, trace⟩, -⟩
        · exact ⟨[], .of_eq hobjects⟩
        · exact ⟨specifiers, trace⟩
    | _ => cases hrecords

end Objects

end MediaCommand
