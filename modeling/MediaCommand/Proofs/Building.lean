/-
Building chains and graphs.

The calls that make filters, chains and graphs and connect them reach neither outputs nor commands, so
what is entered there stays as it is.  They also never make a filter without a name, and a filter with a
name has a text that shows: a graph that holds a chain is never written as nothing.

`Builds` says both of a change.  It is shown of each function that makes or connects objects and of what
resolves a mapping source, since a source is resolved before anything is entered.
-/
import MediaCommand.Proofs.Tracks

namespace MediaCommand

/-- Whether a call reaches neither outputs nor commands. -/
def Action.builds : Action → Bool
  | .newOutput _ _ => false
  | .newCommand _ _ => false
  | .copy _ => false
  | .addOutputOptions _ _ => false
  | .addInput _ _ => false
  | .addGraph _ _ _ => false
  | .addOutput _ _ _ => false
  | .map _ _ _ _ => false
  | _ => true

namespace Objects

variable {o o' o₁ : Objects}

/-- No filter is without a name. -/
structure Named (o : Objects) : Prop where
  filters : ∀ f ∈ o.filters, f.name ≠ ""
  chains : ∀ c ∈ o.chains, ∀ f ∈ c.filters, f.name ≠ ""

/-- Outputs and commands stay as they are, and filters have names if they had. -/
structure Builds (o o' : Objects) : Prop where
  outputs : o'.outputs = o.outputs
  commands : o'.commands = o.commands
  named : o.Named → o'.Named

namespace Builds

theorem refl (o : Objects) : Builds o o := ⟨rfl, rfl, id⟩

theorem trans (h : Builds o o₁) (h' : Builds o₁ o') : Builds o o' :=
  ⟨h'.outputs.trans h.outputs, h'.commands.trans h.commands, fun named => h'.named (h.named named)⟩

/-- A change of nothing but graphs, inputs and specifiers. -/
theorem of_lists (houtputs : o'.outputs = o.outputs) (hcommands : o'.commands = o.commands)
    (hfilters : o'.filters = o.filters) (hchains : o'.chains = o.chains) : Builds o o' where
  outputs := houtputs
  commands := hcommands
  named := fun h => ⟨hfilters ▸ h.filters, hchains ▸ h.chains⟩

/-- A chain may be exchanged for one of the same filters and of others that are there. -/
theorem setChain {id : ChainId} {c c' : Chain} (hc : o.chain? id = some c)
    (hfilters : ∀ f ∈ c'.filters, f ∈ c.filters ∨ f ∈ o.filters) : Builds o (o.setChain id c') where
  outputs := rfl
  commands := rfl
  named := fun h => by
    refine ⟨h.filters, fun x hx f hf => ?_⟩
    rcases mem_setChain hx with hold | rfl
    · exact h.chains x hold f hf
    · rcases hfilters f hf with hin | hin
      · exact h.chains c (mem_chains hc) f hin
      · exact h.filters f hin

theorem addChain {c : Chain} (hfilters : ∀ f ∈ c.filters, f ∈ o.filters) :
    Builds o (o.addChain c).1 where
  outputs := rfl
  commands := rfl
  named := fun h => by
    refine ⟨h.filters, fun x hx f hf => ?_⟩
    rcases List.mem_append.mp hx with hold | hnew
    · exact h.chains x hold f hf
    · rw [List.mem_singleton.mp hnew] at hf
      exact h.filters f (hfilters f hf)

theorem modifyChain (o : Objects) (id : ChainId) {f : Chain → Chain}
    (hf : ∀ c, (f c).filters = c.filters) : Builds o (o.modifyChain id f) := by
  unfold Objects.modifyChain
  split
  · rename_i c hc
    exact setChain hc fun x hx => Or.inl (hf c ▸ hx)
  · exact refl o

end Builds

/-! ### Making objects -/

theorem filter_mem {id : FilterId} {f : Filter} (h : o.filter id = .ok f) : f ∈ o.filters :=
  List.mem_of_getElem? (mem_found h)

theorem filtersOf_mem {items : List Value} :
    ∀ {fs : List Filter}, o.filtersOf items = .ok fs → ∀ f ∈ fs, f ∈ o.filters := by
  induction items with
  | nil =>
      intro fs h f hf
      cases h
      cases hf
  | cons v rest ih =>
      intro fs h f hf
      unfold filtersOf at h
      split at h
      · cases ‹_ :: _ = []›
      · rename_i id items heq
        cases heq
        obtain ⟨x, hx, h⟩ := bind_ok.mp h
        obtain ⟨xs, hxs, h⟩ := bind_ok.mp h
        cases h
        rcases List.mem_cons.mp hf with rfl | hrest
        · exact filter_mem hx
        · exact ih hxs f hrest
      · cases h

theorem newFilter_builds {name options input output : Value} {id : FilterId}
    (h : o.newFilter name options input output = .ok (o', id)) : Builds o o' := by
  unfold newFilter at h
  split at h
  · cases h
    exact .refl o
  · dsimp only at h
    split at h
    · cases h
    · rename_i hname
      obtain ⟨options', -, h⟩ := bind_ok.mp h
      obtain ⟨input', -, h⟩ := bind_ok.mp h
      obtain ⟨output', -, h⟩ := bind_ok.mp h
      cases h
      refine ⟨rfl, rfl, fun named => ⟨fun f hf => ?_, named.chains⟩⟩
      rcases List.mem_append.mp hf with hold | hnew
      · exact named.filters f hold
      · rw [List.mem_singleton.mp hnew]
        exact fun hempty => hname (String.isEmpty_iff.mpr hempty)
  · cases h

theorem chainOf_builds {fs : List Filter} {id : ChainId} (hfs : ∀ f ∈ fs, f ∈ o.filters)
    (h : o.chainOf fs = .ok (o', id)) : Builds o o' := by
  unfold chainOf at h
  split at h
  · cases h
  · cases h
    exact .addChain hfs

theorem chainOf_one_builds {f : Filter} {filter : FilterId} {id : ChainId}
    (hf : o.filter filter = .ok f) (h : o.chainOf [f] = .ok (o', id)) : Builds o o' :=
  chainOf_builds (fun _ hx => List.mem_singleton.mp hx ▸ filter_mem hf) h

theorem newChain_builds {filters : Value} {id : ChainId}
    (h : o.newChain filters = .ok (o', id)) : Builds o o' := by
  unfold newChain at h
  split at h
  · obtain ⟨f, hf, h⟩ := bind_ok.mp h
    exact chainOf_one_builds hf h
  · cases h
  · split at h
    · cases h
    · split at h
      · cases h
      · obtain ⟨fs, hfs, h⟩ := bind_ok.mp h
        exact chainOf_builds (filtersOf_mem hfs) h

theorem add_builds {a b v : Value} (h : o.add a b = .ok (o', v)) : Builds o o' := by
  unfold add at h
  split at h
  · obtain ⟨f, hf, h⟩ := bind_ok.mp h
    obtain ⟨g, hg, h⟩ := bind_ok.mp h
    obtain ⟨⟨o₁, id⟩, hc, h⟩ := bind_ok.mp h
    cases h
    refine chainOf_builds (fun x hx => ?_) hc
    rcases List.mem_cons.mp hx with rfl | hlast
    · exact filter_mem hf
    · exact List.mem_singleton.mp hlast ▸ filter_mem hg
  · cases h
  · obtain ⟨x, -, hx⟩ := map_ok.mp h
    cases hx
    exact .refl o

theorem wrap_builds {expected : Expected} {v : Value} {id : ChainId}
    (h : o.wrap expected v = .ok (o', id)) : Builds o o' := by
  unfold wrap at h
  split at h
  · obtain ⟨f, hf, h⟩ := bind_ok.mp h
    exact chainOf_one_builds hf h
  · cases h
    exact .refl o
  · cases h

theorem newInput_builds {url options : Value} {id : InputId}
    (h : o.newInput url options = .ok (o', id)) : Builds o o' := by
  obtain ⟨url', -, h⟩ := bind_ok.mp h
  obtain ⟨options', -, h⟩ := bind_ok.mp h
  cases h
  exact .of_lists rfl rfl rfl rfl

theorem addInputOptions_builds {id : InputId} {options : Value}
    (h : o.addInputOptions id options = .ok o') : Builds o o' := by
  obtain ⟨i, -, h⟩ := bind_ok.mp h
  obtain ⟨more, -, h⟩ := bind_ok.mp h
  cases h
  exact .of_lists rfl rfl rfl rfl

theorem inputStream_builds {id : InputId} {track : Value} {s : Specifier}
    (h : o.inputStream id track = .ok (o', s)) : Builds o o' := by
  obtain ⟨i, -, h⟩ := bind_ok.mp h
  obtain ⟨track', -, h⟩ := bind_ok.mp h
  cases h
  exact .of_lists rfl rfl rfl rfl

theorem fromInput_builds {input track : Value} {s : Specifier}
    (h : o.fromInput input track = .ok (o', s)) : Builds o o' := by
  unfold fromInput at h
  split at h
  · exact inputStream_builds h
  · cases h

/-! ### Connecting chains -/

theorem builds_referTo (o : Objects) (id : ChainId) (pad : Nat) :
    Builds o (o.referTo id pad).1 := by
  have hrefer : Builds o (o.modifyChain id (·.addReference pad)) := .modifyChain o id fun _ => rfl
  exact hrefer.trans (.of_lists rfl rfl rfl rfl)

theorem outputPad_builds {id : ChainId} {selector : Value} {s : Specifier}
    (h : o.outputPad id selector = .ok (o', s)) : Builds o o' := by
  obtain ⟨c, -, h⟩ := bind_ok.mp h
  obtain ⟨pad, -, h⟩ := bind_ok.mp h
  cases h
  exact builds_referTo o id pad

theorem fromFilterOutput_builds {chain selector : Value} {s : Specifier}
    (h : o.fromFilterOutput chain selector = .ok (o', s)) : Builds o o' := by
  unfold fromFilterOutput at h
  split at h
  · exact outputPad_builds h
  · cases h
  · cases h

theorem markMapped_builds {id : ChainId} {v : Value} (h : o.markMapped id v = .ok o') :
    Builds o o' := by
  obtain ⟨c, hc, -, -, rfl⟩ := markMapped_ok h
  exact .setChain hc fun _ hf => Or.inl hf

theorem builds_bindPads (specifiers : List Specifier) :
    ∀ o : Objects, Builds o (specifiers.foldl bindPad o) := by
  induction specifiers with
  | nil => exact .refl
  | cons s rest ih =>
      intro o
      have hbind : Builds o (o.bindPad s) := by
        unfold bindPad
        split
        · exact .modifyChain o _ fun _ => rfl
        · exact .refl o
      exact hbind.trans (ih _)

theorem addInputs_builds (o : Objects) (id : ChainId) (inputs : Value) :
    Builds o (o.addInputs id inputs).objects := by
  unfold addInputs
  split
  · exact .refl o
  · exact (builds_bindPads _ o).trans (.modifyChain _ id fun _ => rfl)

theorem appendNodes_builds {id : ChainId} {nodes : List Value}
    (h : o.appendNodes id nodes = .ok o') : Builds o o' := by
  obtain ⟨c, hc, h⟩ := bind_ok.mp h
  obtain ⟨fs, hfs, h⟩ := bind_ok.mp h
  split at h
  · cases h
    exact .refl o
  · split at h
    · cases h
    · cases h
      refine .setChain (chain_ok.mp hc) fun f hf => ?_
      exact (List.mem_append.mp hf).imp_right (filtersOf_mem hfs f)

theorem prependNodes_builds (o : Objects) (id : ChainId) (nodes : List Value) :
    Builds o (o.prependNodes id nodes).objects := by
  unfold prependNodes
  dsimp only
  split
  · exact .refl o
  · exact .refl o
  · rename_i c' h
    obtain ⟨c, hc, h⟩ := bind_ok.mp h
    obtain ⟨fs, hfs, h⟩ := bind_ok.mp h
    split at h
    · cases h
    · split at h
      · cases h
        refine .setChain (chain_ok.mp hc) fun f hf => ?_
        exact (List.mem_append.mp hf).symm.imp_right (filtersOf_mem hfs f)
      · cases h

/-! ### Giving chains their places -/

theorem takeChain_builds {taken : List ChainId} {v : Value} {id : ChainId}
    (h : o.takeChain taken v = .ok (o', id)) : Builds o o' := by
  obtain ⟨⟨o₁, id'⟩, hwrap, h⟩ := bind_ok.mp h
  obtain ⟨o₂, hplace, h⟩ := bind_ok.mp h
  cases h
  obtain ⟨c, hc, -, rfl⟩ := place_ok hplace
  exact (wrap_builds hwrap).trans (.setChain hc fun _ hf => Or.inl hf)

theorem appendToGraph_builds {graph : GraphId} {v : Value} {id : ChainId}
    (h : o.appendToGraph graph v = .ok (o', id)) : Builds o o' := by
  obtain ⟨g, -, h⟩ := bind_ok.mp h
  obtain ⟨⟨o₁, id'⟩, htake, h⟩ := bind_ok.mp h
  cases h
  exact (takeChain_builds htake).trans (.of_lists rfl rfl rfl rfl)

theorem extendGraph_builds {graph : GraphId} (items : List Value) :
    ∀ o : Objects, Builds o (o.extendGraph graph items).objects := by
  induction items with
  | nil => exact .refl
  | cons v rest ih =>
      intro o
      unfold extendGraph
      split
      · rename_i o₁ id h
        exact (appendToGraph_builds h).trans (ih o₁)
      · exact .refl o

theorem takeChains_builds (items : List Value) :
    ∀ (o : Objects) (taken : List ChainId), Builds o (o.takeChains taken items).objects := by
  induction items with
  | nil => exact fun o _ => .refl o
  | cons v rest ih =>
      intro o taken
      unfold takeChains
      split
      · rename_i o₁ id h
        exact (takeChain_builds h).trans (ih o₁ _)
      · exact .refl o

theorem newGraph_builds (o : Objects) (chains : Value) : Builds o (o.newGraph chains).objects := by
  unfold newGraph
  split
  · exact .refl o
  · rename_i items _
    have htaken := takeChains_builds items o []
    dsimp only
    split
    · exact htaken
    · exact htaken.trans (.of_lists rfl rfl rfl rfl)

/-! ### Resolving mapping sources -/

theorem Resolves.builds {c : Command} {r : Resolved} (h : Resolves o c o' r) : Builds o o' := by
  cases h with
  | givenStream => exact .refl o
  | givenPad made on member hch => exact .setChain hch fun _ hf => Or.inl hf
  | input => exact .of_lists rfl rfl rfl rfl
  | chain member hch hpad hmarked hfed =>
      rename_i id pad ch
      have hmark : Builds o (o.setChain id (ch.addMark (.int pad))) :=
        .setChain hch fun _ hf => Or.inl hf
      exact hmark.trans (builds_referTo _ id pad)

theorem resolveEntries_builds {c : Command} {entries : List Value} :
    ∀ {o : Objects} {done : List Resolved} {specifiers : List Specifier},
      (o.resolveEntries c done entries).result = .ok specifiers →
      Builds o (o.resolveEntries c done entries).objects := by
  induction entries with
  | nil => exact fun {o done specifiers} _ => .refl o
  | cons entry rest ih =>
      intro o done specifiers h
      simp only [resolveEntries] at h ⊢
      split at h
      · rename_i o₁ r hr
        exact (resolveEntry_ok hr).builds.trans (ih h)
      · cases h

theorem mappingValue_builds (hs : Sound o) (command : CommandId) (source index : Value) :
    Builds o (o.mappingValue command source index).objects := by
  rcases mappingValue_cases hs command source index with
    ⟨f, -, hobjects⟩ | ⟨c, r, text, -, -, hresolve, -⟩
  · rw [hobjects]
    exact .refl o
  · exact (resolveSource_ok hresolve).builds

/-! ### Calls -/

theorem builds_ofExcept {α : Type} {r : Except Error (Objects × α)}
    (h : ∀ o' a, r = .ok (o', a) → Builds o o') : Builds o (Outcome.ofExcept o r).objects :=
  objects_ofExcept (.refl o) h

theorem builds_made {α : Type} {toObject : α → Object} {r : Except Error (Objects × α)}
    (h : ∀ o' a, r = .ok (o', a) → Builds o o') :
    Builds o (Outcome.ofExcept o (made toObject r)).objects :=
  objects_made (.refl o) h

theorem builds_changed {r : Except Error Objects} (h : ∀ o', r = .ok o' → Builds o o') :
    Builds o (Outcome.ofExcept o (changed r)).objects :=
  objects_changed (.refl o) h

/-- **Calls that build reach neither outputs nor commands**, and every filter has a name. -/
theorem perform_builds (hs : Sound o) {a : Action} (h : a.builds = true) :
    Builds o (o.perform a).objects := by
  cases a with
  | newFilter => exact builds_made fun _ _ h => newFilter_builds h
  | newChain => exact builds_made fun _ _ h => newChain_builds h
  | add => exact builds_ofExcept fun _ _ h => add_builds h
  | wrap => exact builds_made fun _ _ h => wrap_builds h
  | newGraph chains => exact newGraph_builds o chains
  | newInput => exact builds_made fun _ _ h => newInput_builds h
  | appendNodes => exact builds_changed fun _ h => appendNodes_builds h
  | prependNodes id nodes => exact prependNodes_builds o id nodes
  | addInputs id inputs => exact addInputs_builds o id inputs
  | outputPad => exact builds_made fun _ _ h => outputPad_builds h
  | fromFilterOutput => exact builds_made fun _ _ h => fromFilterOutput_builds h
  | markMapped => exact builds_changed fun _ h => markMapped_builds h
  | appendChain => exact builds_made fun _ _ h => appendToGraph_builds h
  | extendGraph graph chains =>
      simp only [perform]
      split
      · exact extendGraph_builds _ o
      · exact .refl o
  | addInputOptions => exact builds_changed fun _ h => addInputOptions_builds h
  | inputStream => exact builds_made fun _ _ h => inputStream_builds h
  | fromInput => exact builds_made fun _ _ h => fromInput_builds h
  | mappingValue command source index => exact mappingValue_builds hs command source index
  | newOutput | newCommand | copy | addOutputOptions | addInput | addGraph | addOutput | map =>
      cases h

/-! ### Names of filters throughout a session -/

namespace Named

/-- Filters stay as they are where neither filters nor chains change. -/
theorem of_lists (h : Named o) (hfilters : o'.filters = o.filters) (hchains : o'.chains = o.chains) :
    Named o' :=
  ⟨hfilters ▸ h.filters, hchains ▸ h.chains⟩

theorem renew (h : Named o) (new : Value) : Named (o.renew new) := by
  constructor
  · intro f hf
    obtain ⟨f', hf', rfl⟩ := List.mem_map.mp hf
    exact h.filters f' hf'
  · intro c hc f hf
    obtain ⟨c', hc', rfl⟩ := List.mem_map.mp hc
    obtain ⟨f', hf', rfl⟩ := List.mem_map.mp hf
    exact h.chains c' hc' f' hf'

/-- A copy of a filter has its name. -/
theorem withCopies (h : Named o) (m : Members) : Named (o.withCopies m) := by
  constructor
  · intro f hf
    rcases List.mem_append.mp hf with hold | hnew
    · exact h.filters f hold
    · obtain ⟨f', hf', rfl⟩ := List.mem_map.mp hnew
      obtain ⟨id, -, hid⟩ := List.mem_filterMap.mp hf'
      exact h.filters f' (List.mem_of_getElem? hid)
  · intro c hc f hf
    rcases List.mem_append.mp hc with hold | hnew
    · exact h.chains c hold f hf
    · obtain ⟨c', hc', rfl⟩ := List.mem_map.mp hnew
      obtain ⟨id, -, hid⟩ := List.mem_filterMap.mp hc'
      obtain ⟨f', hf', rfl⟩ := List.mem_map.mp hf
      exact h.chains c' (List.mem_of_getElem? hid) f' hf'

/-- Recording what entries are resolved to touches no filter. -/
theorem mapEntries (h : Named o) (hs : Sound o) {command : CommandId} {c : Command}
    {output : OutputId} (hc : o.command? command = some c) (hout : (o.output? output).isSome)
    (entries : List Value) : Named (o.mapEntries command c output entries).objects := by
  obtain ⟨out, hout⟩ := Option.isSome_iff_exists.mp hout
  have hends := mapEntries_ends hs hc hout entries
  cases hresult : (o.resolveEntries c [] entries).result with
  | error f =>
      rw [hresult] at hends
      rw [hends.2]
      exact h
  | ok specifiers =>
      rw [hresult] at hends
      rw [hends.2]
      exact ((resolveEntries_builds hresult).named h).of_lists rfl rfl

theorem commandMap (h : Named o) (hs : Sound o) (command : CommandId)
    (output source index : Value) : Named (o.commandMap command output source index).objects := by
  unfold Objects.commandMap
  dsimp only
  split
  · exact h
  · rename_i c id hchecked
    obtain ⟨c₁, hc, hchecked⟩ := bind_ok.mp hchecked
    obtain ⟨id₁, hid, hchecked⟩ := bind_ok.mp hchecked
    cases hchecked
    exact h.mapEntries hs (command_ok.mp hc) (commandOutput_ok hid) [.tuple [source, index]]

theorem enterOutput (h : Named o) (command : CommandId) (output : OutputId) :
    Named (o.enterOutput command output) := by
  unfold Objects.enterOutput
  split
  · exact h.of_lists rfl rfl
  · exact h

theorem commandAddOutput (h : Named o) (hs : Sound o) (command : CommandId)
    (output mappings : Value) : Named (o.commandAddOutput command output mappings).objects := by
  unfold Objects.commandAddOutput
  dsimp only
  split
  · exact h
  · rename_i c id entries hchecked
    obtain ⟨c₁, hc, hchecked⟩ := bind_ok.mp hchecked
    obtain ⟨id₁, hid, hchecked⟩ := bind_ok.mp hchecked
    have heq : c₁ = c ∧ id₁ = id := by
      split at hchecked
      · cases hchecked
        exact ⟨rfl, rfl⟩
      · obtain ⟨entries', -, hchecked⟩ := bind_ok.mp hchecked
        cases hchecked
        exact ⟨rfl, rfl⟩
    obtain ⟨rfl, rfl⟩ := heq
    have hmapped := h.mapEntries hs (command_ok.mp hc) (newCommandOutput_ok hid).1 entries
    split
    · exact hmapped
    · exact hmapped.enterOutput command id₁

end Named

/-! ### What the other calls leave -/

theorem newOutput_ok {url options : Value} {id : OutputId}
    (h : o.newOutput url options = .ok (o', id)) : ∃ out, o' = (o.addOutput out).1 := by
  obtain ⟨url', -, h⟩ := bind_ok.mp h
  obtain ⟨options', -, h⟩ := bind_ok.mp h
  cases h
  exact ⟨_, rfl⟩

theorem newCommand_ok {options : Value} {executable : Option String} {id : CommandId}
    (h : o.newCommand options executable = .ok (o', id)) :
    ∃ c : Command, c.Fresh ∧ o' = (o.addCommand c).1 ∧ id = (o.addCommand c).2 := by
  unfold newCommand at h
  split at h
  · cases h
    exact ⟨_, ⟨rfl, rfl, rfl, rfl, rfl⟩, rfl, rfl⟩
  · split at h
    · cases h
      exact ⟨_, ⟨rfl, rfl, rfl, rfl, rfl⟩, rfl, rfl⟩
    · cases h

theorem addOutputOptions_ok {id : OutputId} {options : Value}
    (h : o.addOutputOptions id options = .ok o') : ∃ out, o' = o.setOutput id out := by
  obtain ⟨out, -, h⟩ := bind_ok.mp h
  obtain ⟨more, -, h⟩ := bind_ok.mp h
  cases h
  exact ⟨_, rfl⟩

theorem commandAddInput_ok {command : CommandId} {input : Value} {n : Nat}
    (h : o.commandAddInput command input = .ok (o', n)) :
    ∃ c id i, o.command? command = some c ∧ o' = (o.setInput id i).setCommand command
      { c with inputs := c.inputs ++ [id] } := by
  obtain ⟨c, hc, h⟩ := bind_ok.mp h
  split at h
  · obtain ⟨i, -, h⟩ := bind_ok.mp h
    split at h
    · cases h
    · cases h
      exact ⟨c, _, _, command_ok.mp hc, rfl⟩
  · cases h

/-- A graph is added to a command that does not have it, and may become the filter of an output. -/
inductive Adopts (o : Objects) (command : CommandId) (g : GraphId) :
    Option OutputId → Objects → Prop
  | whole {c : Command} (hc : o.command? command = some c) (new : g ∉ c.graphs) :
      Adopts o command g none (o.setCommand command { c with graphs := c.graphs ++ [g] })
  | output {c : Command} {target : OutputId} {out : Output} (hc : o.command? command = some c)
      (new : g ∉ c.graphs) (hout : o.output? target = some out) :
      Adopts o command g (some target)
        ((o.setOutput target
          { out with options := Dict.put out.options "filter" (.object (.graph g)) }).setCommand
            command
            { c with graphs := c.graphs ++ [g], attached := c.attached ++ [(g, target)] })

theorem commandAddGraph_ok {command : CommandId} {graph onOutput : Value} {id : GraphId}
    (h : o.commandAddGraph command graph onOutput = .ok (o', id)) :
    ∃ target, o.graphTarget onOutput = .ok target ∧ Adopts o command id target o' := by
  obtain ⟨c, hc, h⟩ := bind_ok.mp h
  split at h
  · rename_i added _
    dsimp only at h
    split at h
    · cases h
    · rename_i hnew
      have hfresh : added ∉ c.graphs := by simpa using hnew
      obtain ⟨target, htarget, h⟩ := bind_ok.mp h
      obtain ⟨⟨⟩, -, h⟩ := bind_ok.mp h
      refine ⟨target, htarget, ?_⟩
      cases target with
      | none =>
          cases h
          exact .whole (command_ok.mp hc) hfresh
      | some out =>
          obtain ⟨o₁, hoptions, h⟩ := bind_ok.mp h
          cases h
          obtain ⟨x, hx, hoptions⟩ := bind_ok.mp hoptions
          obtain ⟨more, hmore, hoptions⟩ := bind_ok.mp hoptions
          cases hmore
          cases hoptions
          exact .output (command_ok.mp hc) hfresh (output_ok.mp hx)
  · cases h

end Objects

end MediaCommand
