/-
What holds of the objects of every session.

Objects that hold each other agree.  Every pad referred to is a pad of its chain, every chain of a
graph knows its place, every input of a command knows its number, and every stream that is bound,
mapped or merely held by a caller is still there.  Each of these is said of one object and the
objects around it; what a step leaves alone stays as it was because nothing is taken away, so only
the objects that a step makes or exchanges are looked at.
-/
import MediaCommand.Proofs.Keeps

namespace MediaCommand

/-! ### One object among the others -/

/-- A chain refers to pads that it has, and what feeds it is there. -/
structure Chain.SoundIn (o : Objects) (c : Chain) : Prop where
  range : ∀ pad ∈ c.references, c.outputArity.hasPad pad = true
  fed : ∀ s ∈ c.inputs, o.Refers s.source

/-- The chains of a graph stand at their places. -/
structure Graph.SoundIn (o : Objects) (g : Graph) : Prop where
  placed : ∀ (k : Nat) (id : ChainId), g.chains[k]? = some id →
    ∃ c, o.chain? id = some c ∧ c.position = some k

/-- The inputs of a command carry their numbers, its graphs are there, and so is what it maps. -/
structure Command.SoundIn (o : Objects) (c : Command) : Prop where
  labelled : ∀ (k : Nat) (id : InputId), c.inputs[k]? = some id →
    ∃ i, o.input? id = some i ∧ i.label = some k
  graphs : ∀ id ∈ c.graphs, (o.graph? id).isSome
  mapped : ∀ m ∈ c.mappings, o.Refers m.source.source

variable {o o' : Objects}

theorem Chain.SoundIn.keeps {c : Chain} (h : c.SoundIn o) (k : o.Keeps o') : c.SoundIn o' :=
  ⟨h.range, fun s hs => k.refers (h.fed s hs)⟩

theorem Graph.SoundIn.keeps {g : Graph} (h : g.SoundIn o) (k : o.Keeps o') : g.SoundIn o' where
  placed := fun i id hid => by
    obtain ⟨c, hc, hposition⟩ := h.placed i id hid
    obtain ⟨c', hc', hk⟩ := k.chain id c hc
    exact ⟨c', hc', hk.position i hposition⟩

theorem Objects.Keeps.graph_isSome (k : o.Keeps o') {id : GraphId}
    (h : (o.graph? id).isSome) : (o'.graph? id).isSome := by
  obtain ⟨g, hg⟩ := Option.isSome_iff_exists.mp h
  obtain ⟨g', hg', -⟩ := k.graph id g hg
  exact Option.isSome_iff_exists.mpr ⟨g', hg'⟩

theorem Command.SoundIn.keeps {c : Command} (h : c.SoundIn o) (k : o.Keeps o') :
    c.SoundIn o' where
  labelled := fun n id hid => by
    obtain ⟨i, hi, hlabel⟩ := h.labelled n id hid
    obtain ⟨i', hi', hl⟩ := k.input id i hi
    exact ⟨i', hi', hl n hlabel⟩
  graphs := fun id hid => k.graph_isSome (h.graphs id hid)
  mapped := fun m hm => k.refers (h.mapped m hm)

theorem Chain.SoundIn.of_bare {c c' : Chain} (h : c.SoundIn o) (hbare : c'.bare = c.bare) :
    c'.SoundIn o := by
  obtain ⟨hinputs, hreferences, -, -, -⟩ := connections_of_bare hbare
  refine ⟨?_, ?_⟩
  · rw [hreferences, outputArity_of_bare hbare]
    exact h.range
  · rw [hinputs]
    exact h.fed

theorem Command.SoundIn.of_bare {c c' : Command} (h : c.SoundIn o) (hbare : c'.bare = c.bare) :
    c'.SoundIn o := by
  simp only [bare, mk.injEq] at hbare
  obtain ⟨-, -, hinputs, -, hgraphs, -, hmappings⟩ := hbare
  exact ⟨hinputs ▸ h.labelled, hgraphs ▸ h.graphs, hmappings ▸ h.mapped⟩

/-- A chain that nothing is connected to is sound anywhere. -/
theorem Chain.Fresh.soundIn {c : Chain} (h : c.Fresh) (o : Objects) : c.SoundIn o where
  range := fun pad hpad => by
    rw [h.references] at hpad
    cases hpad
  fed := fun s hs => by
    rw [h.inputs] at hs
    cases hs

theorem Command.Fresh.soundIn {c : Command} (h : c.Fresh) (o : Objects) : c.SoundIn o where
  labelled := fun k id hid => by
    rw [h.inputs] at hid
    cases hid
  graphs := fun id hid => by
    rw [h.graphs] at hid
    cases hid
  mapped := fun m hm => by
    rw [h.mappings] at hm
    cases hm

namespace Objects

/-! ### All objects -/

/-- All objects agree with the others. -/
structure Sound (o : Objects) : Prop where
  chains : ∀ c ∈ o.chains, c.SoundIn o
  graphs : ∀ g ∈ o.graphs, g.SoundIn o
  commands : ∀ c ∈ o.commands, c.SoundIn o
  specifiers : ∀ s ∈ o.specifiers, o.Refers s.source

/-- Without objects there is nothing to agree on. -/
theorem sound_empty : Sound {} where
  chains := by simp
  graphs := by simp
  commands := by simp
  specifiers := by simp

namespace Sound

variable (h : Sound o)

include h

theorem chain {id : ChainId} {c : Chain} (hc : o.chain? id = some c) : c.SoundIn o :=
  h.chains c (mem_chains hc)

theorem graph {id : GraphId} {g : Graph} (hg : o.graph? id = some g) : g.SoundIn o :=
  h.graphs g (List.mem_of_getElem? hg)

theorem command {id : CommandId} {c : Command} (hc : o.command? id = some c) : c.SoundIn o :=
  h.commands c (List.mem_of_getElem? hc)

/-- What no step has exchanged or made is sound still. -/
theorem of_keeps (k : o.Keeps o') (hchains : ∀ c ∈ o'.chains, c ∈ o.chains ∨ c.SoundIn o')
    (hgraphs : ∀ g ∈ o'.graphs, g ∈ o.graphs ∨ g.SoundIn o')
    (hcommands : ∀ c ∈ o'.commands, c ∈ o.commands ∨ c.SoundIn o')
    (hspecifiers : ∀ s ∈ o'.specifiers, s ∈ o.specifiers ∨ o'.Refers s.source) : Sound o' where
  chains := fun c hc => (hchains c hc).elim (fun hold => (h.chains c hold).keeps k) id
  graphs := fun g hg => (hgraphs g hg).elim (fun hold => (h.graphs g hold).keeps k) id
  commands := fun c hc => (hcommands c hc).elim (fun hold => (h.commands c hold).keeps k) id
  specifiers := fun s hs => (hspecifiers s hs).elim (fun hold => k.refers (h.specifiers s hold)) id

theorem quiet (q : Quiet o o') : Sound o' := by
  have k := q.keeps
  refine h.of_keeps k ?_ ?_ ?_ ?_
  · intro c' hc'
    rcases q.mem_chains hc' with ⟨c, hc, hbare⟩ | ⟨c, hfresh, hbare⟩
    · exact Or.inr (((h.chains c hc).keeps k).of_bare hbare)
    · exact Or.inr ((hfresh.soundIn o').of_bare hbare)
  · intro g hg
    exact Or.inl (q.graphs ▸ hg)
  · intro c' hc'
    rcases q.mem_commands hc' with ⟨c, hc, hbare⟩ | ⟨c, hfresh, hbare⟩
    · exact Or.inr (((h.commands c hc).keeps k).of_bare hbare)
    · exact Or.inr ((hfresh.soundIn o').of_bare hbare)
  · intro s hs
    obtain ⟨more, hmore, heq⟩ := q.specifiers
    rw [heq] at hs
    rcases List.mem_append.mp hs with hold | hnew
    · exact Or.inl hold
    · obtain ⟨id, track, hsource, hthere⟩ := hmore s hnew
      refine Or.inr (k.refers ?_)
      rw [hsource]
      exact hthere

theorem setChain {id : ChainId} {c c' : Chain} (hc : o.chain? id = some c) (hk : c.Keeps c')
    (hs : c'.SoundIn (o.setChain id c')) : Sound (o.setChain id c') := by
  refine h.of_keeps (.setChain hc hk) ?_ (fun _ hg => Or.inl hg) (fun _ hm => Or.inl hm)
    (fun _ hs => Or.inl hs)
  intro x hx
  rcases mem_setChain hx with hold | rfl
  · exact Or.inl hold
  · exact Or.inr hs

/-- A chain that keeps what feeds it and refers to pads that it has may take the place of one. -/
theorem exchange {id : ChainId} {c c' : Chain} (hc : o.chain? id = some c) (hk : c.Keeps c')
    (hinputs : c'.inputs = c.inputs)
    (hrange : ∀ pad ∈ c'.references, c'.outputArity.hasPad pad = true) :
    Sound (o.setChain id c') := by
  refine h.setChain hc hk ⟨hrange, ?_⟩
  rw [hinputs]
  exact ((h.chain hc).keeps (.setChain hc hk)).fed

theorem setCommand (id : CommandId) {c : Command} (hs : c.SoundIn o) :
    Sound (o.setCommand id c) := by
  have k := Keeps.setCommand o id c
  refine h.of_keeps k (fun _ hx => Or.inl hx) (fun _ hg => Or.inl hg) ?_ (fun _ hs => Or.inl hs)
  intro x hx
  rcases List.mem_or_eq_of_mem_set hx with hold | rfl
  · exact Or.inl hold
  · exact Or.inr (hs.keeps k)

theorem setGraph {id : GraphId} {g g' : Graph} (hg : o.graph? id = some g)
    (hp : g.chains <+: g'.chains) (hs : g'.SoundIn o) : Sound (o.setGraph id g') := by
  have k := Keeps.setGraph hg hp
  refine h.of_keeps k (fun _ hx => Or.inl hx) ?_ (fun _ hm => Or.inl hm) (fun _ hs => Or.inl hs)
  intro x hx
  rcases List.mem_or_eq_of_mem_set hx with hold | rfl
  · exact Or.inl hold
  · exact Or.inr (hs.keeps k)

theorem setInput {id : InputId} {i : Input} (k : o.Keeps (o.setInput id i)) :
    Sound (o.setInput id i) :=
  h.of_keeps k (fun _ hx => Or.inl hx) (fun _ hg => Or.inl hg) (fun _ hm => Or.inl hm)
    (fun _ hs => Or.inl hs)

theorem setOutput (id : OutputId) (out : Output) : Sound (o.setOutput id out) :=
  h.of_keeps (.setOutput o id out) (fun _ hx => Or.inl hx) (fun _ hg => Or.inl hg)
    (fun _ hm => Or.inl hm) (fun _ hs => Or.inl hs)

theorem addSpecifier {source : Source} (hr : o.Refers source) :
    Sound (o.addSpecifier source).1 := by
  have k := Keeps.addSpecifier o source
  refine h.of_keeps k (fun _ hx => Or.inl hx) (fun _ hg => Or.inl hg) (fun _ hm => Or.inl hm) ?_
  intro s hs
  rcases List.mem_append.mp hs with hold | hnew
  · exact Or.inl hold
  · rw [List.mem_singleton.mp hnew]
    exact Or.inr (k.refers hr)

theorem addGraph {g : Graph} (hs : g.SoundIn o) : Sound (o.addGraph g).1 := by
  have k := Keeps.addGraph o g
  refine h.of_keeps k (fun _ hx => Or.inl hx) ?_ (fun _ hm => Or.inl hm) (fun _ hs => Or.inl hs)
  intro x hx
  rcases List.mem_append.mp hx with hold | hnew
  · exact Or.inl hold
  · rw [List.mem_singleton.mp hnew]
    exact Or.inr (hs.keeps k)

theorem modifyChain (id : ChainId) {f : Chain → Chain} (hk : ∀ c : Chain, c.Keeps (f c))
    (hs : ∀ c : Chain, c.SoundIn o → (f c).SoundIn o) : Sound (o.modifyChain id f) := by
  unfold Objects.modifyChain
  split
  · rename_i c hc
    exact h.setChain hc (hk c) ((hs c (h.chain hc)).keeps (.setChain hc (hk c)))
  · exact h

omit h in
theorem bindPads (specifiers : List Specifier) :
    ∀ {o : Objects}, Sound o → Sound (specifiers.foldl bindPad o) := by
  induction specifiers with
  | nil => exact id
  | cons s rest ih =>
      intro o h
      refine ih ?_
      unfold bindPad
      split
      · exact h.modifyChain _ (fun c => .addBound c _) fun c hc => ⟨hc.range, hc.fed⟩
      · exact h

theorem bindInputs (id : ChainId) {specifiers : List Specifier}
    (made : ∀ s ∈ specifiers, s ∈ o.specifiers) : Sound (o.bindInputs id specifiers) := by
  have k := keeps_bindPads specifiers o
  refine (bindPads specifiers h).modifyChain id
    (fun _ => ⟨fun _ hp => hp, fun _ hk => hk, fun _ hp => hp⟩) fun c hc => ⟨hc.range, ?_⟩
  intro s hs
  rcases List.mem_append.mp hs with hold | hnew
  · exact hc.fed s hold
  · exact k.refers (h.specifiers s (made s hnew))

theorem referTo {id : ChainId} {c : Chain} {pad : Nat} (hc : o.chain? id = some c)
    (hpad : c.outputArity.hasPad pad = true) : Sound (o.referTo id pad).1 := by
  unfold Objects.referTo
  rw [modifyChain_eq _ hc]
  refine (h.exchange hc (.addReference c pad) rfl ?_).addSpecifier
    ⟨c.addReference pad, chain?_setChain_self _ hc, List.mem_cons_self⟩
  intro p hp
  rcases List.mem_cons.mp hp with rfl | hold
  · exact hpad
  · exact (h.chain hc).range p hold

end Sound

/-! ### Every step leaves the objects sound -/

/-- A pad that no arity loses is a pad of that arity. -/
theorem hasPad_of_lostPad? {references : List Nat} {arity : Arity}
    (h : lostPad? references arity = none) : ∀ pad ∈ references, arity.hasPad pad = true := by
  intro pad hpad
  have hnone : references.filter (fun (p : Nat) => !arity.hasPad p) = [] :=
    List.max?_eq_none_iff.mp h
  simpa using List.filter_eq_nil_iff.mp hnone pad hpad

theorem last_append {c : Chain} {fs : List Filter} {f : Filter} (h : fs.getLast? = some f) :
    (c.append fs).last = f := by
  have hlast : (c.filters ++ fs).getLast? = some f := by
    rw [List.getLast?_append, h]
    rfl
  have hget := List.getLast?_eq_some_getLast (c.append fs).nonempty
  exact Option.some.inj (hget.symm.trans hlast)

theorem last_prepend (c : Chain) (fs : List Filter) : (c.prepend fs).last = c.last :=
  List.getLast_append_of_ne_nil _ c.nonempty

theorem Step.sound {e : List Effect} (h : Step o e o') (hs : Sound o) : Sound o' := by
  cases h with
  | quiet h => exact hs.quiet h
  | refer hc hpad => exact hs.referTo hc hpad
  | take hc => exact hs.exchange hc (.addMark _ _) rfl (hs.chain hc).range
  | bind hc made => exact hs.bindInputs _ made
  | append hc hlast hlost =>
      refine hs.exchange hc ⟨fun _ h => h, fun _ h => h, fun _ h => h⟩ rfl ?_
      unfold Chain.outputArity
      rw [last_append hlast]
      exact hasPad_of_lostPad? hlost
  | prepend hc =>
      refine hs.exchange hc ⟨fun _ h => h, fun _ h => h, fun _ h => h⟩ rfl ?_
      unfold Chain.outputArity
      rw [last_prepend]
      exact (hs.chain hc).range
  | place position hc hfree =>
      exact hs.exchange hc (.place hfree position) rfl (hs.chain hc).range
  | join hg hc hfree =>
      rename_i graph g id c
      have hplaced := hs.exchange hc (.place hfree g.chains.length) rfl (hs.chain hc).range
      refine hplaced.setGraph hg (List.prefix_append _ _) ⟨?_⟩
      intro k id' hid
      rcases getElem?_concat hid with hold | ⟨hk, rfl⟩
      · exact (hplaced.graph hg).placed k id' hold
      · exact ⟨_, chain?_setChain_self _ hc, congrArg some hk.symm⟩
  | gather placed => exact hs.addGraph ⟨placed⟩
  | label hc hi hfree =>
      rename_i command c id i
      have k : Keeps o (o.setInput id { i with label := some c.inputs.length }) :=
        .setInput hi fun k hk => by rw [hfree] at hk; cases hk
      have hold := (hs.command hc).keeps k
      refine (hs.setInput k).setCommand command ⟨?_, hold.graphs, hold.mapped⟩
      intro k id' hid
      rcases getElem?_concat hid with hold' | ⟨hk, rfl⟩
      · exact hold.labelled k id' hold'
      · exact ⟨_, getElem?_set_eq_of_some _ hi, congrArg some hk.symm⟩
  | adopt targets hc hg new =>
      have hold := hs.command hc
      refine hs.setCommand _ ⟨hold.labelled, ?_, hold.mapped⟩
      intro id hid
      rcases List.mem_append.mp hid with hin | hin
      · exact hold.graphs id hin
      · rw [List.mem_singleton.mp hin]
        exact hg
  | enter hc hout known refers =>
      rename_i command c output out s
      have k := Keeps.setOutput o output { out with maps := out.maps ++ [s] }
      have hold := (hs.command hc).keeps k
      refine (hs.setOutput _ _).setCommand _ ⟨hold.labelled, hold.graphs, ?_⟩
      intro m hm
      rcases List.mem_append.mp hm with hin | hin
      · exact hold.mapped m hin
      · rw [List.mem_singleton.mp hin]
        exact k.refers refers
  | list hc =>
      have hold := hs.command hc
      exact hs.setCommand _ ⟨hold.labelled, hold.graphs, hold.mapped⟩

theorem Trace.sound {es : List Effect} (h : Trace o es o') (hs : Sound o) : Sound o' := by
  induction h with
  | refl => exact hs
  | step _ s ih => exact s.sound ih

end Objects

end MediaCommand
