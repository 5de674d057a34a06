/-
What a command maps belongs to it.

A stream is entered among the mappings of a command only if the command knows it, and a command only
ever gains inputs and graphs, and a graph chains.  So every recorded stream is known at any later time.
What a copied command knows depends on what was met on the walk through it, so sessions with copies
are left out.
-/
import MediaCommand.Proofs.Calls

namespace MediaCommand.Objects

variable {o o' : Objects}

/-- Every stream that a command has recorded is known to it. -/
def MapsKnown (o : Objects) : Prop :=
  ∀ c ∈ o.commands, ∀ m ∈ c.mappings, o.Known c m.source.source

/-- A command afterwards records the same streams and has lost nothing they may come from. -/
structure Grown (c c' : Command) : Prop where
  mappings : c'.mappings = c.mappings
  inputs : ∀ id ∈ c.inputs, id ∈ c'.inputs
  graphs : ∀ g ∈ c.graphs, g ∈ c'.graphs

theorem Grown.refl (c : Command) : Grown c c := ⟨rfl, fun _ hi => hi, fun _ hg => hg⟩

theorem Grown.of_bare {c c' : Command} (h : c'.bare = c.bare) : Grown c c' := by
  simp only [Command.bare, Command.mk.injEq] at h
  obtain ⟨-, -, hinputs, -, hgraphs, -, hmappings⟩ := h
  exact ⟨hmappings, hinputs ▸ fun _ hi => hi, hgraphs ▸ fun _ hg => hg⟩

namespace MapsKnown

variable (h : MapsKnown o)

include h

/-- Commands that record the same, or only what they know, keep the property. -/
theorem of_keeps (k : o.Keeps o') (hcommands : ∀ c' ∈ o'.commands,
    (∃ c ∈ o.commands, Grown c c') ∨ ∀ m ∈ c'.mappings, o'.Known c' m.source.source) :
    MapsKnown o' := by
  intro c' hc' m hm
  rcases hcommands c' hc' with ⟨c, hc, grown⟩ | hown
  · rw [grown.mappings] at hm
    exact k.known_grown grown.inputs grown.graphs (h c hc m hm)
  · exact hown m hm

/-- A command that records the same may take the place of one. -/
theorem setCommand {command : CommandId} {c c' : Command} {o₁ : Objects} (k : o.Keeps o₁)
    (hsame : o₁.commands = o.commands) (hc : o.command? command = some c) (grown : Grown c c') :
    MapsKnown (o₁.setCommand command c') := by
  refine h.of_keeps (k.trans (.setCommand o₁ command c')) fun x hx => Or.inl ?_
  rcases List.mem_or_eq_of_mem_set hx with hold | rfl
  · exact ⟨x, hsame ▸ hold, .refl x⟩
  · exact ⟨c, List.mem_of_getElem? hc, grown⟩

theorem quiet (q : Quiet o o') : MapsKnown o' := by
  refine h.of_keeps q.keeps fun c' hc' => ?_
  rcases q.mem_commands hc' with ⟨c, hc, hbare⟩ | ⟨c, hfresh, hbare⟩
  · exact Or.inl ⟨c, hc, .of_bare hbare⟩
  · refine Or.inr fun m hm => ?_
    rw [(Grown.of_bare hbare).mappings, hfresh.mappings] at hm
    cases hm

/-- A stream that the command knows is recorded. -/
theorem record {command : CommandId} {c : Command} {output : OutputId} {out : Output}
    {s : Specifier} (hc : o.command? command = some c) (known : o.Known c s.source) :
    MapsKnown (o.record command c output out s) := by
  have k := (Keeps.setOutput o output { out with maps := out.maps ++ [s] }).trans
    (.setCommand _ command { c with mappings := c.mappings ++ [⟨output, out.maps.length, s⟩] })
  refine h.of_keeps k fun x hx => ?_
  rcases List.mem_or_eq_of_mem_set hx with hold | rfl
  · exact Or.inl ⟨x, hold, .refl x⟩
  · refine Or.inr fun m hm => k.known_grown (c := c) (fun _ hi => hi) (fun _ hg => hg) ?_
    rcases List.mem_append.mp hm with hin | hin
    · exact h c (List.mem_of_getElem? hc) m hin
    · rw [List.mem_singleton.mp hin]
      exact known

end MapsKnown

/-- Commands, inputs, outputs and graphs stay as they are. -/
structure ChainsOnly (o o' : Objects) : Prop where
  commands : o'.commands = o.commands
  inputs : o'.inputs = o.inputs
  outputs : o'.outputs = o.outputs
  graphs : o'.graphs = o.graphs

theorem modifyChain_chains (o : Objects) (id : ChainId) (f : Chain → Chain) :
    ∃ chains, o.modifyChain id f = { o with chains } := by
  unfold modifyChain
  split
  · exact ⟨_, rfl⟩
  · exact ⟨o.chains, rfl⟩

/-- Binding streams changes chains and nothing else. -/
theorem bindInputs_chains (o : Objects) (id : ChainId) (specifiers : List Specifier) :
    ∃ chains, o.bindInputs id specifiers = { o with chains } := by
  have hpads : ∀ o : Objects, ∃ chains, specifiers.foldl bindPad o = { o with chains } := by
    induction specifiers with
    | nil => exact fun o => ⟨o.chains, rfl⟩
    | cons s rest ih =>
        intro o
        obtain ⟨chains, hbind⟩ : ∃ chains, o.bindPad s = { o with chains } := by
          unfold bindPad
          split
          · exact modifyChain_chains o _ _
          · exact ⟨o.chains, rfl⟩
        rw [List.foldl_cons, hbind]
        exact ih { o with chains }
  obtain ⟨chains, hbound⟩ := hpads o
  unfold bindInputs
  rw [hbound]
  exact modifyChain_chains _ id _

theorem chainsOnly_modifyChain (o : Objects) (id : ChainId) (f : Chain → Chain) :
    ChainsOnly o (o.modifyChain id f) := by
  obtain ⟨chains, heq⟩ := modifyChain_chains o id f
  rw [heq]
  exact ⟨rfl, rfl, rfl, rfl⟩

theorem chainsOnly_referTo (o : Objects) (id : ChainId) (pad : Nat) :
    ChainsOnly o (o.referTo id pad).1 := by
  obtain ⟨hcommands, hinputs, houtputs, hgraphs⟩ := chainsOnly_modifyChain o id (·.addReference pad)
  exact ⟨hcommands, hinputs, houtputs, hgraphs⟩

theorem chainsOnly_bindInputs (o : Objects) (id : ChainId) (specifiers : List Specifier) :
    ChainsOnly o (o.bindInputs id specifiers) := by
  obtain ⟨chains, heq⟩ := bindInputs_chains o id specifiers
  rw [heq]
  exact ⟨rfl, rfl, rfl, rfl⟩

/-- Every step keeps what commands map known to them. -/
theorem Step.mapsKnown {e : List Effect} (step : Step o e o') (h : MapsKnown o) :
    MapsKnown o' := by
  have k := step.keeps
  -- Most steps leave the commands as they are, and then only what is known can have grown.
  have same : o'.commands = o.commands → MapsKnown o' := fun heq =>
    h.of_keeps k fun c hc => Or.inl ⟨c, heq ▸ hc, .refl c⟩
  cases step with
  | quiet q => exact h.quiet q
  | take | append | prepend | place | join | gather => exact same rfl
  | refer => exact same (chainsOnly_referTo o _ _).commands
  | bind => exact same (chainsOnly_bindInputs o _ _).commands
  | label hc hi hfree =>
      rename_i command c id i
      exact h.setCommand (.setInput hi fun k hk => by rw [hfree] at hk; cases hk) rfl hc
        ⟨rfl, fun _ hid => List.mem_append_left _ hid, fun _ hg => hg⟩
  | adopt targets hc =>
      exact h.setCommand (.refl o) rfl hc
        ⟨rfl, fun _ hid => hid, fun _ hg => List.mem_append_left _ hg⟩
  | enter hc hout known => exact h.record hc known
  | list hc => exact h.setCommand (.refl o) rfl hc ⟨rfl, fun _ hid => hid, fun _ hg => hg⟩

/-- What commands map is known to them throughout a session without copies. -/
theorem mapsKnown_afterCalls {calls : List Call} {o : Objects} (hs : Sound o) (h : MapsKnown o)
    (hcopies : ∀ call ∈ calls, call.copies = false) : MapsKnown (o.afterCalls calls) :=
  invariant_of_steps (fun step _ known => step.mapsKnown known) hcopies hs h

end MediaCommand.Objects
