/-
Nothing is ever taken away.

A chain keeps the references to its pads, its place in a graph and the pads taken of it, an input
keeps its number, and graphs and the list of specifiers only grow.  What a caller was handed and
what is bound or mapped is therefore still there after any number of calls.  Each elementary step is
shown to keep, and the rest follows by induction.
-/
import MediaCommand.Proofs.Step

namespace MediaCommand

/-! ### What is kept -/

/-- A chain afterwards still has what was connected to it. -/
structure Chain.Keeps (c c' : Chain) : Prop where
  references : ∀ pad ∈ c.references, pad ∈ c'.references
  position : ∀ k, c.position = some k → c'.position = some k
  consumed : ∀ pad : Nat, c.isConsumed pad = true → c'.isConsumed pad = true

theorem Chain.Keeps.refl (c : Chain) : c.Keeps c := ⟨fun _ h => h, fun _ h => h, fun _ h => h⟩

theorem Chain.Keeps.trans {c₁ c₂ c₃ : Chain} (h : c₁.Keeps c₂) (h' : c₂.Keeps c₃) :
    c₁.Keeps c₃ :=
  ⟨fun p hp => h'.references p (h.references p hp), fun k hk => h'.position k (h.position k hk),
    fun p hp => h'.consumed p (h.consumed p hp)⟩

/-- Options play no part in how a chain is connected. -/
theorem Chain.Keeps.of_bare {c c' : Chain} (h : c'.bare = c.bare) : c.Keeps c' := by
  obtain ⟨-, hreferences, hmapped, hbound, hposition⟩ := connections_of_bare h
  refine ⟨?_, ?_, ?_⟩
  · rw [hreferences]
    exact fun _ hp => hp
  · rw [hposition]
    exact fun _ hk => hk
  · simp only [isConsumed, isMapped, isBound, hmapped, hbound]
    exact fun _ hp => hp

namespace Objects

/-- Objects afterwards still hold what they held. -/
structure Keeps (o o' : Objects) : Prop where
  chain : ∀ id c, o.chain? id = some c → ∃ c', o'.chain? id = some c' ∧ c.Keeps c'
  input : ∀ id i, o.input? id = some i →
    ∃ i', o'.input? id = some i' ∧ ∀ k, i.label = some k → i'.label = some k
  graph : ∀ id g, o.graph? id = some g → ∃ g', o'.graph? id = some g' ∧ g.chains <+: g'.chains
  specifiers : o.specifiers <+: o'.specifiers

namespace Keeps

variable {o o' o₁ o₂ : Objects}

theorem refl (o : Objects) : Keeps o o where
  chain := fun _ c h => ⟨c, h, .refl c⟩
  input := fun _ i h => ⟨i, h, fun _ hk => hk⟩
  graph := fun _ g h => ⟨g, h, List.prefix_refl _⟩
  specifiers := List.prefix_refl _

theorem trans (h : Keeps o o₁) (h' : Keeps o₁ o₂) : Keeps o o₂ where
  chain := fun id c hc => by
    obtain ⟨c₁, hc₁, hk⟩ := h.chain id c hc
    obtain ⟨c₂, hc₂, hk'⟩ := h'.chain id c₁ hc₁
    exact ⟨c₂, hc₂, hk.trans hk'⟩
  input := fun id i hi => by
    obtain ⟨i₁, hi₁, hk⟩ := h.input id i hi
    obtain ⟨i₂, hi₂, hk'⟩ := h'.input id i₁ hi₁
    exact ⟨i₂, hi₂, fun k hl => hk' k (hk k hl)⟩
  graph := fun id g hg => by
    obtain ⟨g₁, hg₁, hp⟩ := h.graph id g hg
    obtain ⟨g₂, hg₂, hp'⟩ := h'.graph id g₁ hg₁
    exact ⟨g₂, hg₂, hp.trans hp'⟩
  specifiers := h.specifiers.trans h'.specifiers

/-- What a specifier refers to stays there. -/
theorem refers (h : Keeps o o') {s : Source} (hs : o.Refers s) : o'.Refers s := by
  cases s with
  | input id track =>
      obtain ⟨i, hi⟩ := Option.isSome_iff_exists.mp hs
      obtain ⟨i', hi', -⟩ := h.input id i hi
      exact Option.isSome_iff_exists.mpr ⟨i', hi'⟩
  | pad id pad =>
      obtain ⟨c, hc, hpad⟩ := hs
      obtain ⟨c', hc', hk⟩ := h.chain id c hc
      exact ⟨c', hc', hk.references pad hpad⟩

theorem chainInGraphs (h : Keeps o o') {graphs graphs' : List GraphId} {id : ChainId}
    (hsub : ∀ g ∈ graphs, g ∈ graphs') (hin : o.chainInGraphs graphs id = true) :
    o'.chainInGraphs graphs' id = true := by
  simp only [Objects.chainInGraphs, List.any_eq_true] at hin ⊢
  obtain ⟨g, hg, hin⟩ := hin
  refine ⟨g, hsub g hg, ?_⟩
  split at hin
  · rename_i gr hgr
    obtain ⟨g', hg', hp⟩ := h.graph g gr hgr
    simp only [hg', List.contains_eq_mem, decide_eq_true_eq] at hin ⊢
    exact hp.subset hin
  · cases hin

/-- A stream stays known to a command that loses no input and no graph. -/
theorem known_grown (h : Keeps o o') {c c' : Command} {s : Source}
    (hinputs : ∀ id ∈ c.inputs, id ∈ c'.inputs) (hgraphs : ∀ g ∈ c.graphs, g ∈ c'.graphs)
    (known : o.Known c s) : o'.Known c' s := by
  cases s with
  | input id track => exact hinputs id known
  | pad id pad => exact h.chainInGraphs hgraphs known

theorem known (h : Keeps o o') {c : Command} {s : Source} (known : o.Known c s) : o'.Known c s :=
  h.known_grown (fun _ hi => hi) (fun _ hg => hg) known

/-- Exchanging a chain for one that still has what was connected to it. -/
theorem setChain {id : ChainId} {c c' : Chain} (hc : o.chain? id = some c) (hk : c.Keeps c') :
    Keeps o (o.setChain id c') :=
  { refl o with
    chain := fun id' x hx => by
      by_cases h : id' = id
      · subst h
        obtain rfl : c = x := Option.some.inj (hc.symm.trans hx)
        exact ⟨c', chain?_setChain_self c' hc, hk⟩
      · exact ⟨x, (chain?_setChain_ne c' h).trans hx, .refl x⟩ }

theorem setCommand (o : Objects) (id : CommandId) (c : Command) : Keeps o (o.setCommand id c) :=
  { refl o with }

theorem setOutput (o : Objects) (id : OutputId) (out : Output) : Keeps o (o.setOutput id out) :=
  { refl o with }

theorem setInput {id : InputId} {i i' : Input} (hi : o.input? id = some i)
    (hl : ∀ k, i.label = some k → i'.label = some k) : Keeps o (o.setInput id i') :=
  { refl o with
    input := fun id' x hx => by
      by_cases h : id' = id
      · subst h
        obtain rfl : i = x := Option.some.inj (hi.symm.trans hx)
        exact ⟨i', getElem?_set_eq_of_some i' hi, hl⟩
      · exact ⟨x, (List.getElem?_set_ne (Id.index_ne h).symm).trans hx, fun _ hk => hk⟩ }

theorem setGraph {id : GraphId} {g g' : Graph} (hg : o.graph? id = some g)
    (hp : g.chains <+: g'.chains) : Keeps o (o.setGraph id g') :=
  { refl o with
    graph := fun id' x hx => by
      by_cases h : id' = id
      · subst h
        obtain rfl : g = x := Option.some.inj (hg.symm.trans hx)
        exact ⟨g', getElem?_set_eq_of_some g' hg, hp⟩
      · exact ⟨x, (List.getElem?_set_ne (Id.index_ne h).symm).trans hx, List.prefix_refl _⟩ }

theorem addGraph (o : Objects) (g : Graph) : Keeps o (o.addGraph g).1 :=
  { refl o with
    graph := fun id x hx => by
      obtain ⟨hlt, -⟩ := List.getElem?_eq_some_iff.mp hx
      exact ⟨x, (List.getElem?_append_left hlt).trans hx, List.prefix_refl _⟩ }

theorem addSpecifier (o : Objects) (s : Source) : Keeps o (o.addSpecifier s).1 :=
  { refl o with specifiers := List.prefix_append _ _ }

end Keeps

/-! ### What stands in a list after quiet changes -/

namespace Quiet

variable {o o' : Objects}

theorem chain? (h : Quiet o o') {id : ChainId} {c : Chain} (hc : o.chain? id = some c) :
    ∃ c', o'.chain? id = some c' ∧ c'.bare = c.bare := by
  obtain ⟨fresh, -, heq⟩ := h.chains
  have hget : (o'.chains.map Chain.bare)[id.index]? = some c.bare := by
    obtain ⟨hlt, -⟩ := List.getElem?_eq_some_iff.mp hc
    rw [heq, List.getElem?_map, List.getElem?_append_left hlt, show o.chains[id.index]? = some c
      from hc]
    rfl
  rw [List.getElem?_map, Option.map_eq_some_iff] at hget
  exact hget

theorem mem_chains (h : Quiet o o') {c' : Chain} (hc : c' ∈ o'.chains) :
    (∃ c ∈ o.chains, c'.bare = c.bare) ∨ (∃ c : Chain, c.Fresh ∧ c'.bare = c.bare) := by
  obtain ⟨fresh, hfresh, heq⟩ := h.chains
  have hmem : c'.bare ∈ (o.chains ++ fresh).map Chain.bare := heq ▸ List.mem_map_of_mem hc
  obtain ⟨c, hc, hbare⟩ := List.mem_map.mp hmem
  rcases List.mem_append.mp hc with hold | hnew
  · exact Or.inl ⟨c, hold, hbare.symm⟩
  · exact Or.inr ⟨c, hfresh c hnew, hbare.symm⟩

theorem mem_commands (h : Quiet o o') {c' : Command} (hc : c' ∈ o'.commands) :
    (∃ c ∈ o.commands, c'.bare = c.bare) ∨ (∃ c : Command, c.Fresh ∧ c'.bare = c.bare) := by
  obtain ⟨fresh, hfresh, heq⟩ := h.commands
  have hmem : c'.bare ∈ (o.commands ++ fresh).map Command.bare := heq ▸ List.mem_map_of_mem hc
  obtain ⟨c, hc, hbare⟩ := List.mem_map.mp hmem
  rcases List.mem_append.mp hc with hold | hnew
  · exact Or.inl ⟨c, hold, hbare.symm⟩
  · exact Or.inr ⟨c, hfresh c hnew, hbare.symm⟩

theorem input? (h : Quiet o o') {id : InputId} {i : Input} (hi : o.input? id = some i) :
    ∃ i', o'.input? id = some i' ∧ i'.label = i.label := by
  obtain ⟨n, heq⟩ := h.inputs
  obtain ⟨hlt, -⟩ := List.getElem?_eq_some_iff.mp hi
  have hget : (o'.inputs.map Input.label)[id.index]? = some i.label := by
    rw [heq, List.getElem?_append_left (by simpa using hlt), List.getElem?_map,
      show o.inputs[id.index]? = some i from hi]
    rfl
  rw [List.getElem?_map, Option.map_eq_some_iff] at hget
  exact hget

theorem keeps (h : Quiet o o') : Keeps o o' where
  chain := fun id c hc => by
    obtain ⟨c', hc', hbare⟩ := h.chain? hc
    exact ⟨c', hc', .of_bare hbare⟩
  input := fun id i hi => by
    obtain ⟨i', hi', hl⟩ := h.input? hi
    exact ⟨i', hi', fun k hk => hl.trans hk⟩
  graph := fun id g hg => ⟨g, by rw [Objects.graph?, h.graphs]; exact hg, List.prefix_refl _⟩
  specifiers := by
    obtain ⟨more, -, heq⟩ := h.specifiers
    rw [heq]
    exact List.prefix_append _ _

end Quiet

/-! ### Every step keeps -/

end Objects

namespace Chain.Keeps

theorem addReference (c : Chain) (pad : Nat) : c.Keeps (c.addReference pad) :=
  ⟨fun _ h => List.mem_cons_of_mem pad h, fun _ h => h, fun _ h => h⟩

theorem addMark (c : Chain) (v : Value) : c.Keeps (c.addMark v) where
  references := fun _ h => h
  position := fun _ h => h
  consumed := fun pad h => by
    simp only [isConsumed, isMapped, Chain.addMark, List.any_cons, Bool.or_eq_true] at h ⊢
    rcases h with hmapped | hbound
    · exact Or.inl (Or.inr hmapped)
    · exact Or.inr hbound

theorem mem_addBound {c : Chain} {pad p : Nat} (h : p ∈ c.bound) : p ∈ (c.addBound pad).bound := by
  unfold Chain.addBound
  split
  · exact h
  · exact List.mem_cons_of_mem pad h

theorem addBound (c : Chain) (pad : Nat) : c.Keeps (c.addBound pad) where
  references := fun _ h => h
  position := fun _ h => h
  consumed := fun p h => by
    simp only [isConsumed, isBound, Bool.or_eq_true, List.any_eq_true] at h ⊢
    rcases h with hmapped | ⟨b, hb, hbp⟩
    · exact Or.inl hmapped
    · exact Or.inr ⟨b, mem_addBound hb, hbp⟩

/-- A chain without a place keeps everything when it is given one. -/
theorem place {c : Chain} (h : c.position = none) (position : Nat) :
    c.Keeps { c with position := some position } where
  references := fun _ h => h
  position := fun k hk => by
    rw [h] at hk
    cases hk
  consumed := fun _ h => h

end Chain.Keeps

namespace Objects

variable {o o' : Objects}

theorem keeps_modifyChain (o : Objects) (id : ChainId) {f : Chain → Chain}
    (hf : ∀ c : Chain, c.Keeps (f c)) : Keeps o (o.modifyChain id f) := by
  unfold modifyChain
  split
  · rename_i c hc
    exact .setChain hc (hf c)
  · exact .refl o

theorem keeps_bindPad (o : Objects) (s : Specifier) : Keeps o (o.bindPad s) := by
  unfold bindPad
  split
  · exact keeps_modifyChain o _ fun c => .addBound c _
  · exact .refl o

theorem keeps_bindPads (specifiers : List Specifier) :
    ∀ o : Objects, Keeps o (specifiers.foldl bindPad o) := by
  induction specifiers with
  | nil => exact fun o => .refl o
  | cons s rest ih => exact fun o => (keeps_bindPad o s).trans (ih _)

theorem keeps_bindInputs (o : Objects) (id : ChainId) (specifiers : List Specifier) :
    Keeps o (o.bindInputs id specifiers) :=
  (keeps_bindPads specifiers o).trans
    (keeps_modifyChain _ id fun _ => ⟨fun _ h => h, fun _ h => h, fun _ h => h⟩)

theorem keeps_referTo (o : Objects) (id : ChainId) (pad : Nat) : Keeps o (o.referTo id pad).1 :=
  (keeps_modifyChain o id fun c => .addReference c pad).trans (.addSpecifier _ _)

theorem Step.keeps {e : List Effect} (h : Step o e o') : Keeps o o' := by
  cases h with
  | quiet h => exact h.keeps
  | refer => exact keeps_referTo o _ _
  | take hc => exact .setChain hc (.addMark _ _)
  | bind => exact keeps_bindInputs o _ _
  | append hc | prepend hc => exact .setChain hc ⟨fun _ h => h, fun _ h => h, fun _ h => h⟩
  | place position hc hfree => exact .setChain hc (.place hfree position)
  | join hg hc hfree =>
      rename_i graph g id c
      have hgraph : (o.setChain id { c with position := some g.chains.length }).graph? graph
          = some g := hg
      exact (Keeps.setChain hc (.place hfree _)).trans (.setGraph hgraph (List.prefix_append _ _))
  | gather => exact .addGraph o _
  | label hc hi hfree =>
      refine (Keeps.setInput hi fun k hk => ?_).trans (.setCommand _ _ _)
      rw [hfree] at hk
      cases hk
  | adopt | list => exact .setCommand o _ _
  | enter => exact (Keeps.setOutput o _ _).trans (.setCommand _ _ _)

theorem Trace.keeps {es : List Effect} (h : Trace o es o') : Keeps o o' := by
  induction h with
  | refl => exact .refl _
  | step _ s ih => exact ih.trans s.keeps

end Objects

end MediaCommand
