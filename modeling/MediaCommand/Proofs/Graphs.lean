/-
Making objects and connecting them, step by step.

Each function that makes or connects objects is taken apart into elementary steps, so nothing it
does to the objects is seen but through these.  None of them moves a pad among the mappings: only
marking a pad by hand has an effect, the pad that it takes.

A graph is made of chains that are given their places first.  While that goes on, the chains taken
so far stand at their places and in no graph that is there; that is what the step which makes the
graph of them asks for.
-/
import MediaCommand.Proofs.Batch

namespace MediaCommand.Objects

variable {o o' : Objects}

/-! ### Making objects -/

theorem newFilter_quiet {name options input output : Value} {id : FilterId}
    (h : o.newFilter name options input output = .ok (o', id)) : Quiet o o' := by
  unfold newFilter at h
  split at h
  · cases h
    exact .refl o
  · dsimp only at h
    split at h
    · cases h
    · obtain ⟨options', -, h⟩ := bind_ok.mp h
      obtain ⟨input', -, h⟩ := bind_ok.mp h
      obtain ⟨output', -, h⟩ := bind_ok.mp h
      cases h
      exact quiet_addFilter o _ _ _ _
  · cases h

theorem chainOf_quiet {fs : List Filter} {id : ChainId} (h : o.chainOf fs = .ok (o', id)) :
    Quiet o o' := by
  unfold chainOf at h
  split at h
  · cases h
  · cases h
    exact quiet_addChain o ⟨rfl, rfl, rfl, rfl, rfl⟩

theorem newChain_quiet {filters : Value} {id : ChainId}
    (h : o.newChain filters = .ok (o', id)) : Quiet o o' := by
  unfold newChain at h
  split at h
  · obtain ⟨f, -, h⟩ := bind_ok.mp h
    exact chainOf_quiet h
  · cases h
  · split at h
    · cases h
    · split at h
      · cases h
      · obtain ⟨fs, -, h⟩ := bind_ok.mp h
        exact chainOf_quiet h

theorem add_quiet {a b v : Value} (h : o.add a b = .ok (o', v)) : Quiet o o' := by
  unfold add at h
  split at h
  · obtain ⟨f, -, h⟩ := bind_ok.mp h
    obtain ⟨g, -, h⟩ := bind_ok.mp h
    obtain ⟨⟨o₁, id⟩, hc, h⟩ := bind_ok.mp h
    cases h
    exact chainOf_quiet hc
  · cases h
  · obtain ⟨x, -, hx⟩ := map_ok.mp h
    cases hx
    exact .refl o

theorem wrap_quiet {expected : Expected} {v : Value} {id : ChainId}
    (h : o.wrap expected v = .ok (o', id)) : Quiet o o' := by
  unfold wrap at h
  split at h
  · obtain ⟨f, -, h⟩ := bind_ok.mp h
    exact chainOf_quiet h
  · cases h
    exact .refl o
  · cases h

theorem newInput_quiet {url options : Value} {id : InputId}
    (h : o.newInput url options = .ok (o', id)) : Quiet o o' := by
  obtain ⟨url', -, h⟩ := bind_ok.mp h
  obtain ⟨options', -, h⟩ := bind_ok.mp h
  cases h
  exact quiet_addInput o rfl

theorem newOutput_quiet {url options : Value} {id : OutputId}
    (h : o.newOutput url options = .ok (o', id)) : Quiet o o' := by
  obtain ⟨url', -, h⟩ := bind_ok.mp h
  obtain ⟨options', -, h⟩ := bind_ok.mp h
  cases h
  exact quiet_addOutput o rfl

theorem newCommand_quiet {options : Value} {executable : Option String} {id : CommandId}
    (h : o.newCommand options executable = .ok (o', id)) : Quiet o o' := by
  unfold newCommand at h
  split at h
  · cases h
    exact quiet_addCommand o ⟨rfl, rfl, rfl, rfl, rfl⟩
  · split at h
    · cases h
      exact quiet_addCommand o ⟨rfl, rfl, rfl, rfl, rfl⟩
    · cases h

theorem addInputOptions_quiet {id : InputId} {options : Value}
    (h : o.addInputOptions id options = .ok o') : Quiet o o' := by
  obtain ⟨i, hi, h⟩ := bind_ok.mp h
  obtain ⟨more, -, h⟩ := bind_ok.mp h
  cases h
  exact quiet_setInput _ (input_ok.mp hi)

theorem addOutputOptions_quiet {id : OutputId} {options : Value}
    (h : o.addOutputOptions id options = .ok o') : Quiet o o' := by
  obtain ⟨out, hout, h⟩ := bind_ok.mp h
  obtain ⟨more, -, h⟩ := bind_ok.mp h
  cases h
  exact quiet_setOutput _ (output_ok.mp hout)

theorem inputStream_quiet {id : InputId} {track : Value} {s : Specifier}
    (h : o.inputStream id track = .ok (o', s)) : Quiet o o' := by
  obtain ⟨i, hi, h⟩ := bind_ok.mp h
  obtain ⟨track', -, h⟩ := bind_ok.mp h
  cases h
  exact quiet_addSpecifier track' (Option.isSome_iff_exists.mpr ⟨i, input_ok.mp hi⟩)

theorem fromInput_quiet {input track : Value} {s : Specifier}
    (h : o.fromInput input track = .ok (o', s)) : Quiet o o' := by
  unfold fromInput at h
  split at h
  · exact inputStream_quiet h
  · cases h

/-! ### Connecting chains -/

theorem outputPad_trace {id : ChainId} {selector : Value} {s : Specifier}
    (h : o.outputPad id selector = .ok (o', s)) : Trace o [] o' := by
  obtain ⟨c, hc, h⟩ := bind_ok.mp h
  obtain ⟨pad, hpad, h⟩ := bind_ok.mp h
  cases h
  exact .single (.refer (chain_ok.mp hc) (Chain.resolvePad_hasPad hpad))

theorem fromFilterOutput_trace {chain selector : Value} {s : Specifier}
    (h : o.fromFilterOutput chain selector = .ok (o', s)) : Trace o [] o' := by
  unfold fromFilterOutput at h
  split at h
  · exact outputPad_trace h
  · cases h
  · cases h

theorem markMapped_trace {id : ChainId} {v : Value} (h : o.markMapped id v = .ok o') :
    Trace o [.take id v] o' := by
  obtain ⟨c, hc, hmark, hfed, rfl⟩ := markMapped_ok h
  exact .single (.take hc hmark hfed)

theorem specifiersOf_mem {items : List Value} :
    ∀ {specifiers : List Specifier}, o.specifiersOf items = .ok specifiers →
      ∀ s ∈ specifiers, s ∈ o.specifiers := by
  induction items with
  | nil =>
      intro specifiers h s hs
      cases h
      cases hs
  | cons v rest ih =>
      intro specifiers h s hs
      unfold specifiersOf at h
      split at h
      · cases ‹_ :: _ = []›
      · rename_i id items heq
        cases heq
        obtain ⟨x, hx, h⟩ := bind_ok.mp h
        obtain ⟨xs, hxs, h⟩ := bind_ok.mp h
        cases h
        rcases List.mem_cons.mp hs with rfl | hrest
        · exact specifier?_mem (specifier_ok.mp hx)
        · exact ih hxs s hrest
      · cases h

theorem addInputs_cases (o : Objects) (id : ChainId) (inputs : Value) :
    (∃ f, (o.addInputs id inputs).result = .error f ∧ (o.addInputs id inputs).objects = o) ∨
    ((o.addInputs id inputs).result = .ok () ∧
      (o.addInputs id inputs).events = (o.addInputs id inputs).objects.underconnected id ∧
      Trace o [] (o.addInputs id inputs).objects) := by
  unfold addInputs
  split
  · exact Or.inl ⟨_, rfl, rfl⟩
  · rename_i specifiers h
    refine Or.inr ⟨rfl, rfl, ?_⟩
    obtain ⟨c, hc, h⟩ := bind_ok.mp h
    obtain ⟨items, -, h⟩ := bind_ok.mp h
    obtain ⟨xs, hxs, h⟩ := bind_ok.mp h
    obtain ⟨⟨⟩, hfree, h⟩ := bind_ok.mp h
    dsimp only at h
    split at h
    · rename_i fits
      cases h
      exact .single (.bind (chain_ok.mp hc) (specifiersOf_mem hxs) hfree (by exact_mod_cast fits))
    · cases h

theorem appendNodes_trace {id : ChainId} {nodes : List Value}
    (h : o.appendNodes id nodes = .ok o') : Trace o [] o' := by
  obtain ⟨c, hc, h⟩ := bind_ok.mp h
  obtain ⟨fs, -, h⟩ := bind_ok.mp h
  split at h
  · cases h
    exact .refl o
  · rename_i f hlast
    split at h
    · cases h
    · rename_i hlost
      cases h
      exact .single (.append (chain_ok.mp hc) hlast hlost)

theorem prependNodes_cases (o : Objects) (id : ChainId) (nodes : List Value) :
    (∃ f, (o.prependNodes id nodes).result = .error f ∧
      (o.prependNodes id nodes).objects = o) ∨
    ((o.prependNodes id nodes).result = .ok () ∧
      ((o.prependNodes id nodes).events = [] ∨
        (o.prependNodes id nodes).events = (o.prependNodes id nodes).objects.underconnected id) ∧
      Trace o [] (o.prependNodes id nodes).objects) := by
  unfold prependNodes
  dsimp only
  split
  · exact Or.inl ⟨_, rfl, rfl⟩
  · exact Or.inr ⟨rfl, Or.inl rfl, .refl o⟩
  · rename_i c' h
    refine Or.inr ⟨rfl, Or.inr rfl, ?_⟩
    obtain ⟨c, hc, h⟩ := bind_ok.mp h
    obtain ⟨fs, -, h⟩ := bind_ok.mp h
    split at h
    · cases h
    · rename_i f hhead
      split at h
      · rename_i fits
        cases h
        exact .single (.prepend (chain_ok.mp hc) hhead fits)
      · cases h

/-! ### Giving chains their places -/

theorem place_ok {id : ChainId} {position : Nat} (h : o.place id position = .ok o') :
    ∃ c, o.chain? id = some c ∧ c.position = none ∧
      o' = o.setChain id { c with position := some position } := by
  obtain ⟨c, hc, h⟩ := bind_ok.mp h
  split at h
  · cases h
  · rename_i hfree
    cases h
    exact ⟨c, chain_ok.mp hc, hfree, rfl⟩

theorem takeChain_ok {taken : List ChainId} {v : Value} {id : ChainId}
    (h : o.takeChain taken v = .ok (o', id)) :
    ∃ o₁ c, Quiet o o₁ ∧ o₁.chain? id = some c ∧ c.position = none ∧
      o' = o₁.setChain id { c with position := some taken.length } := by
  obtain ⟨⟨o₁, id'⟩, hwrap, h⟩ := bind_ok.mp h
  obtain ⟨o₂, hplace, h⟩ := bind_ok.mp h
  cases h
  obtain ⟨c, hc, hfree, rfl⟩ := place_ok hplace
  exact ⟨o₁, c, wrap_quiet hwrap, hc, hfree, rfl⟩

theorem appendToGraph_trace {graph : GraphId} {v : Value} {id : ChainId}
    (h : o.appendToGraph graph v = .ok (o', id)) : Trace o [] o' := by
  obtain ⟨g, hg, h⟩ := bind_ok.mp h
  obtain ⟨⟨o₁, id'⟩, htake, h⟩ := bind_ok.mp h
  cases h
  obtain ⟨o₂, c, quiet, hc, hfree, rfl⟩ := takeChain_ok htake
  have hg₂ : o₂.graph? graph = some g := by
    rw [graph?, quiet.graphs]
    exact graph_ok.mp hg
  exact (Trace.quiet quiet).step (.join hg₂ hc hfree)

theorem extendGraph_trace {graph : GraphId} {items : List Value} :
    ∀ {o : Objects}, Trace o [] (o.extendGraph graph items).objects := by
  induction items with
  | nil => exact fun {o} => .refl o
  | cons v rest ih =>
      intro o
      unfold extendGraph
      split
      · rename_i o₁ id h
        exact (appendToGraph_trace h).trans ih
      · exact .refl o

/-- A chain without a place stands in no graph. -/
theorem Sound.not_mem_of_unplaced (h : Sound o) {id : ChainId} {c : Chain}
    (hc : o.chain? id = some c) (hfree : c.position = none) :
    ∀ g ∈ o.graphs, id ∉ g.chains := by
  intro g hg hin
  obtain ⟨k, hk⟩ := List.mem_iff_getElem?.mp hin
  obtain ⟨c', hc', hposition⟩ := (h.graphs g hg).placed k id hk
  obtain rfl : c = c' := Option.some.inj (hc.symm.trans hc')
  rw [hfree] at hposition
  cases hposition

/-- Chains taken for a graph stand at their places and in no graph that is there. -/
structure Taken (o : Objects) (taken : List ChainId) : Prop where
  placed : ∀ (k : Nat) (id : ChainId), taken[k]? = some id →
    ∃ c, o.chain? id = some c ∧ c.position = some k
  new : ∀ id ∈ taken, ∀ g ∈ o.graphs, id ∉ g.chains

theorem takeChains_spec (items : List Value) :
    ∀ {o : Objects} {taken : List ChainId}, Sound o → Taken o taken →
      Trace o [] (o.takeChains taken items).objects ∧
      ∀ all, (o.takeChains taken items).result = .ok all →
        Taken (o.takeChains taken items).objects all := by
  induction items with
  | nil =>
      intro o taken hs htaken
      refine ⟨.refl o, fun all h => ?_⟩
      cases h
      exact htaken
  | cons v rest ih =>
      intro o taken hs htaken
      unfold takeChains
      split
      · rename_i o₁ id h
        obtain ⟨o₂, c, quiet, hc, hfree, rfl⟩ := takeChain_ok h
        have trace := (Trace.quiet quiet).step (.place taken.length hc hfree)
        have hnew : ∀ g ∈ o₂.graphs, id ∉ g.chains := (hs.quiet quiet).not_mem_of_unplaced hc hfree
        have htaken' : Taken (o₂.setChain id { c with position := some taken.length })
            (taken ++ [id]) := by
          refine ⟨fun k id' hid => ?_, fun id' hid g hg => ?_⟩
          · rcases getElem?_concat hid with hold | ⟨hk, rfl⟩
            · obtain ⟨x, hx, hposition⟩ := htaken.placed k id' hold
              obtain ⟨x', hx', hkeeps⟩ := trace.keeps.chain id' x hx
              exact ⟨x', hx', hkeeps.position k hposition⟩
            · exact ⟨_, chain?_setChain_self _ hc, congrArg some hk.symm⟩
          · rcases List.mem_append.mp hid with hold | hlast
            · exact htaken.new id' hold g (quiet.graphs ▸ hg)
            · rw [List.mem_singleton.mp hlast]
              exact hnew g hg
        obtain ⟨trace', hall⟩ := ih (trace.sound hs) htaken'
        exact ⟨trace.trans trace', hall⟩
      · exact ⟨.refl o, fun _ h => nomatch h⟩

theorem newGraph_trace (hs : Sound o) (chains : Value) : Trace o [] (o.newGraph chains).objects := by
  unfold newGraph
  split
  · exact .refl o
  · rename_i items _
    have hnone : Taken o [] := ⟨by simp, by simp⟩
    obtain ⟨trace, htaken⟩ := takeChains_spec items hs hnone
    dsimp only
    split
    · exact trace
    · rename_i taken h
      exact trace.step (.gather (htaken taken h).placed (htaken taken h).new)

end MediaCommand.Objects
