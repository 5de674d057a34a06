/-
What a call can do to the objects.

Every call is a sequence of elementary steps, and a constructor of `Step` says all that such a step
does, together with what the call has made sure of before.  Whatever these steps keep is kept by
every call, so the invariants are proved of them and of nothing else.

The options of filters, files and commands play no part in how the objects are connected.  All
steps that only change options, or add objects that nothing refers to yet, are therefore one: they
are `Quiet`.

Two kinds of steps move output pads from hand to hand.  Taking a pad and entering a stream among
the mappings of a command leave an effect in the trace, and the account of a pad is kept by
counting these.
-/
import MediaCommand.Objects.Action
import MediaCommand.Objects.Grow
import MediaCommand.Proofs.PadValue

namespace MediaCommand

/-! ### Objects without their options -/

/-- A filter without its options. -/
def Filter.bare (f : Filter) : Filter := { f with options := [] }

/-- A chain whose filters have no options. -/
def Chain.bare (c : Chain) : Chain :=
  { c with
    filters := c.filters.map Filter.bare
    nonempty := fun h => c.nonempty (List.map_eq_nil_iff.mp h) }

/-- A command without its options. -/
def Command.bare (c : Command) : Command := { c with options := [] }

namespace Chain

theorem last_bare (c : Chain) : c.bare.last = c.last.bare := by
  simp only [last, bare, List.getLast_map]

theorem outputArity_of_bare {c c' : Chain} (h : c'.bare = c.bare) :
    c'.outputArity = c.outputArity := by
  have hlast : c'.bare.last.outputArity = c.bare.last.outputArity := by rw [h]
  rw [last_bare, last_bare] at hlast
  exact hlast

/-- Chains that differ in options only are connected alike. -/
theorem connections_of_bare {c c' : Chain} (h : c'.bare = c.bare) :
    c'.inputs = c.inputs ∧ c'.references = c.references ∧ c'.mapped = c.mapped ∧
      c'.bound = c.bound ∧ c'.position = c.position := by
  simp only [bare, mk.injEq] at h
  exact h.2

/-- A chain that nothing is connected to. -/
structure Fresh (c : Chain) : Prop where
  inputs : c.inputs = []
  references : c.references = []
  mapped : c.mapped = []
  bound : c.bound = []
  position : c.position = none

end Chain

/-- A command in which nothing is entered. -/
structure Command.Fresh (c : Command) : Prop where
  inputs : c.inputs = []
  outputs : c.outputs = []
  graphs : c.graphs = []
  attached : c.attached = []
  mappings : c.mappings = []

namespace Objects

/-! ### Quiet changes -/

/-- Every specifier carries the place at which it was made. -/
def Indexed (o : Objects) : Prop :=
  ∀ (k : Nat) (s : Specifier), o.specifiers[k]? = some s → s.id = ⟨k⟩

theorem Indexed.of_eq {o o' : Objects} (h : o.Indexed) (hs : o'.specifiers = o.specifiers) :
    o'.Indexed := by
  unfold Indexed
  rw [hs]
  exact h

theorem Indexed.addSpecifier {o : Objects} (h : o.Indexed) (source : Source) :
    (o.addSpecifier source).1.Indexed := by
  intro k s hs
  rcases getElem?_concat hs with hold | ⟨rfl, rfl⟩
  · exact h k s hold
  · rfl

/-- Only options change, and objects are added that nothing refers to. -/
structure Quiet (o o' : Objects) : Prop where
  chains : ∃ fresh : List Chain, (∀ c ∈ fresh, c.Fresh) ∧
    o'.chains.map Chain.bare = (o.chains ++ fresh).map Chain.bare
  graphs : o'.graphs = o.graphs
  inputs : ∃ n, o'.inputs.map Input.label = o.inputs.map Input.label ++ List.replicate n none
  outputs : ∃ n, o'.outputs.map Output.maps = o.outputs.map Output.maps ++ List.replicate n []
  commands : ∃ fresh : List Command, (∀ c ∈ fresh, c.Fresh) ∧
    o'.commands.map Command.bare = (o.commands ++ fresh).map Command.bare
  /-- New specifiers refer to streams of inputs that are there. -/
  specifiers : ∃ more : List Specifier,
    (∀ s ∈ more, ∃ id track, s.source = .input id track ∧ (o.input? id).isSome) ∧
    o'.specifiers = o.specifiers ++ more
  indexed : o.Indexed → o'.Indexed

/-! ### Steps -/

/-- Whether what a specifier refers to is there: the input, or the chain with the reference to its
pad. -/
def Refers (o : Objects) : Source → Prop
  | .input id _ => (o.input? id).isSome
  | .pad id pad => ∃ c, o.chain? id = some c ∧ pad ∈ c.references

/-- Whether a stream is one of an input of the command or of a chain in one of its graphs. -/
def Known (o : Objects) (c : Command) : Source → Prop
  | .input id _ => id ∈ c.inputs
  | .pad id _ => o.chainInGraphs c.graphs id = true

/-- What a step does to the account of an output pad. -/
inductive Effect
  /-- The pad that a value names is taken. -/
  | take (chain : ChainId) (pad : Value)
  /-- A stream is entered among the mappings of a command. -/
  | enter (s : Specifier)

/-- The objects after a mapping is recorded. -/
def record (o : Objects) (command : CommandId) (c : Command) (output : OutputId) (out : Output)
    (s : Specifier) : Objects :=
  (o.setOutput output { out with maps := out.maps ++ [s] }).setCommand command
    { c with mappings := c.mappings ++ [⟨output, out.maps.length, s⟩] }

/-- An elementary step and its effects. -/
inductive Step : Objects → List Effect → Objects → Prop
  | quiet {o o' : Objects} (h : Quiet o o') : Step o [] o'
  /-- A specifier is made for a pad of a chain. -/
  | refer {o : Objects} {id : ChainId} {c : Chain} {pad : Nat} (hc : o.chain? id = some c)
      (hpad : c.outputArity.hasPad pad = true) : Step o [] (o.referTo id pad).1
  /-- A pad that is neither mapped nor fed to a chain is marked as mapped. -/
  | take {o : Objects} {id : ChainId} {c : Chain} {pad : Value} (hc : o.chain? id = some c)
      (hmark : o.isMarked c pad = false) (hfed : isFed c pad = false) :
      Step o [.take id pad] (o.setChain id (c.addMark pad))
  /-- Streams are bound to the next inputs of a chain. -/
  | bind {o : Objects} {id : ChainId} {c : Chain} {specifiers : List Specifier}
      (hc : o.chain? id = some c) (made : ∀ s ∈ specifiers, s ∈ o.specifiers)
      (free : o.checkPadsFree specifiers specifiers = .ok ())
      (fits : c.inputArity.accepts (c.inputs.length + specifiers.length) = true) :
      Step o [] (o.bindInputs id specifiers)
  /-- Filters are added at the end of a chain without losing a pad referred to. -/
  | append {o : Objects} {id : ChainId} {c : Chain} {fs : List Filter} {f : Filter}
      (hc : o.chain? id = some c) (hlast : fs.getLast? = some f)
      (hlost : lostPad? c.references f.outputArity = none) : Step o [] (o.setChain id (c.append fs))
  /-- Filters are added in front of a chain with room for its bound inputs. -/
  | prepend {o : Objects} {id : ChainId} {c : Chain} {fs : List Filter} {f : Filter}
      (hc : o.chain? id = some c) (hhead : fs.head? = some f)
      (fits : f.inputArity.accepts c.inputs.length = true) :
      Step o [] (o.setChain id (c.prepend fs))
  /-- A chain without a place is given one in a graph still to be made. -/
  | place {o : Objects} {id : ChainId} {c : Chain} (position : Nat) (hc : o.chain? id = some c)
      (hfree : c.position = none) : Step o [] (o.setChain id { c with position := some position })
  /-- A chain without a place is added to a graph. -/
  | join {o : Objects} {graph : GraphId} {g : Graph} {id : ChainId} {c : Chain}
      (hg : o.graph? graph = some g) (hc : o.chain? id = some c) (hfree : c.position = none) :
      Step o [] ((o.setChain id { c with position := some g.chains.length }).setGraph graph
        { g with chains := g.chains ++ [id] })
  /-- A graph is made of chains that stand at their places and in no other graph. -/
  | gather {o : Objects} {taken : List ChainId}
      (placed : ∀ (k : Nat) (id : ChainId), taken[k]? = some id →
        ∃ c, o.chain? id = some c ∧ c.position = some k)
      (new : ∀ id ∈ taken, ∀ g ∈ o.graphs, id ∉ g.chains) :
      Step o [] (o.addGraph { chains := taken }).1
  /-- An input without a number is added to a command. -/
  | label {o : Objects} {command : CommandId} {c : Command} {id : InputId} {i : Input}
      (hc : o.command? command = some c) (hi : o.input? id = some i) (hfree : i.label = none) :
      Step o [] ((o.setInput id { i with label := some c.inputs.length }).setCommand command
        { c with inputs := c.inputs ++ [id] })
  /-- A graph is added to a command, for all of it or for outputs. -/
  | adopt {o : Objects} {command : CommandId} {c : Command} {graph : GraphId}
      (targets : List OutputId) (hc : o.command? command = some c)
      (hg : (o.graph? graph).isSome) (new : graph ∉ c.graphs) :
      Step o [] (o.setCommand command
        { c with
          graphs := c.graphs ++ [graph]
          attached := c.attached ++ targets.map (graph, ·) })
  /-- A stream that the command knows is put on the next track of an output. -/
  | enter {o : Objects} {command : CommandId} {c : Command} {output : OutputId} {out : Output}
      {s : Specifier} (hc : o.command? command = some c) (hout : o.output? output = some out)
      (known : o.Known c s.source) (refers : o.Refers s.source) :
      Step o [.enter s] (o.record command c output out s)
  /-- An output is added to a command. -/
  | list {o : Objects} {command : CommandId} {c : Command} {output : OutputId}
      (hc : o.command? command = some c) (hout : (o.output? output).isSome)
      (new : output ∉ c.outputs) :
      Step o [] (o.setCommand command { c with outputs := c.outputs ++ [output] })

/-- Steps one after the other, with their effects in order. -/
inductive Trace : Objects → List Effect → Objects → Prop
  | refl (o : Objects) : Trace o [] o
  | step {o o₁ o₂ : Objects} {es e : List Effect} (h : Trace o es o₁) (s : Step o₁ e o₂) :
      Trace o (es ++ e) o₂

theorem Trace.of_eq {o o' : Objects} (h : o' = o) : Trace o [] o' := h ▸ .refl o

theorem Trace.single {o o' : Objects} {e : List Effect} (h : Step o e o') : Trace o e o' :=
  (Trace.refl o).step h

theorem Trace.trans {o o₁ o₂ : Objects} {es fs : List Effect} (h : Trace o es o₁)
    (h' : Trace o₁ fs o₂) : Trace o (es ++ fs) o₂ := by
  induction h' with
  | refl => rwa [List.append_nil]
  | step _ s ih =>
      rw [← List.append_assoc]
      exact ih.step s

theorem Trace.quiet {o o' : Objects} (h : Quiet o o') : Trace o [] o' := Trace.single (.quiet h)

/-! ### Which changes are quiet -/

/-- What is the same in all lists that matter is a quiet change. -/
theorem Quiet.of_eq {o o' : Objects} (hc : o'.chains = o.chains) (hg : o'.graphs = o.graphs)
    (hi : o'.inputs.map Input.label = o.inputs.map Input.label)
    (ho : o'.outputs.map Output.maps = o.outputs.map Output.maps)
    (hm : o'.commands = o.commands) (hs : o'.specifiers = o.specifiers) : Quiet o o' where
  chains := ⟨[], by simp, by rw [hc, List.append_nil]⟩
  graphs := hg
  inputs := ⟨0, by simpa using hi⟩
  outputs := ⟨0, by simpa using ho⟩
  commands := ⟨[], by simp, by rw [hm, List.append_nil]⟩
  specifiers := ⟨[], by simp, by rw [hs, List.append_nil]⟩
  indexed := fun h => h.of_eq hs

theorem Quiet.refl (o : Objects) : Quiet o o := .of_eq rfl rfl rfl rfl rfl rfl

theorem quiet_keep (o : Objects) (v : Value) : Quiet o (o.keep v).1 :=
  .of_eq rfl rfl rfl rfl rfl rfl

theorem quiet_addFilter (o : Objects) (name : String) (options : List (String × Value))
    (input output : Arity × Option Nat) : Quiet o (o.addFilter name options input output).1 :=
  .of_eq rfl rfl rfl rfl rfl rfl

theorem quiet_addChain (o : Objects) {c : Chain} (h : c.Fresh) : Quiet o (o.addChain c).1 :=
  { Quiet.refl o with chains := ⟨[c], by simpa using h, rfl⟩ }

theorem quiet_addInput (o : Objects) {i : Input} (h : i.label = none) :
    Quiet o (o.addInput i).1 :=
  { Quiet.refl o with
    inputs := ⟨1, by simp [addInput, h]⟩ }

theorem quiet_addOutput (o : Objects) {out : Output} (h : out.maps = []) :
    Quiet o (o.addOutput out).1 :=
  { Quiet.refl o with
    outputs := ⟨1, by simp [addOutput, h]⟩ }

theorem quiet_addCommand (o : Objects) {c : Command} (h : c.Fresh) :
    Quiet o (o.addCommand c).1 :=
  { Quiet.refl o with commands := ⟨[c], by simpa using h, rfl⟩ }

theorem quiet_addSpecifier {o : Objects} {id : InputId} (track : Option Track)
    (h : (o.input? id).isSome) : Quiet o (o.addSpecifier (.input id track)).1 :=
  { Quiet.refl o with
    specifiers := ⟨[⟨⟨o.specifiers.length⟩, .input id track⟩], by simpa using h, rfl⟩
    indexed := fun h => h.addSpecifier _ }

theorem map_set_eq {α β : Type} {f : α → β} {l : List α} {i : Nat} {x y : α}
    (h : l[i]? = some x) (hf : f y = f x) : (l.set i y).map f = l.map f := by
  rw [List.map_set, hf]
  exact set_eq_self (by rw [List.getElem?_map, h]; rfl)

theorem quiet_setInput {o : Objects} {id : InputId} {i : Input}
    (options : List (String × Value)) (h : o.input? id = some i) :
    Quiet o (o.setInput id { i with options }) :=
  .of_eq rfl rfl (map_set_eq h rfl) rfl rfl rfl

theorem quiet_setOutput {o : Objects} {id : OutputId} {out : Output}
    (options : List (String × Value)) (h : o.output? id = some out) :
    Quiet o (o.setOutput id { out with options }) :=
  .of_eq rfl rfl rfl (map_set_eq h rfl) rfl rfl

theorem bare_renewChain (new : Value) (c : Chain) : (renewChain new c).bare = c.bare := by
  simp only [Chain.bare, renewChain, List.map_map]
  rfl

/-- A list that grows changes options only. -/
theorem quiet_renew (o : Objects) (new : Value) : Quiet o (o.renew new) where
  chains := ⟨[], by simp, by
    rw [List.append_nil]
    show (o.chains.map (renewChain new)).map Chain.bare = o.chains.map Chain.bare
    rw [List.map_map]
    exact List.map_congr_left fun c _ => bare_renewChain new c⟩
  graphs := rfl
  inputs := ⟨0, by simp [renew, Function.comp_def]⟩
  outputs := ⟨0, by simp [renew, Function.comp_def]⟩
  commands := ⟨[], by simp, by simp [renew, Function.comp_def, Command.bare]⟩
  specifiers := ⟨[], by simp, by simp [renew]⟩
  indexed := fun h => h.of_eq rfl

end Objects

end MediaCommand
