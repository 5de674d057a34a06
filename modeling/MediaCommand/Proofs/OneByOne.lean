/-
Mapping a list of sources is mapping them one by one.

An output can be added together with a list of mappings, or without any and then be mapped to source by
source.  The list is resolved as a whole before anything is recorded, and default pads depend on what
the sources before them took, so the two runs are not the same step by step.  What relates them is that
resolving reads neither outputs nor what a command has recorded: halfway through, the objects of the
second run are those of the first with the sources so far recorded (`recordAll`).  At the end the first
run records all of them at once and meets the second.

A refused source is refused for the same cause in both runs.  Its wording shows the objects as they are
then, and may differ if it shows a command or an output, because in the second run the output has been
added by then and the first sources are recorded.
-/
import MediaCommand.Proofs.Failure
import MediaCommand.Proofs.Recording

namespace MediaCommand

namespace Objects

variable {o o' : Objects} {command : CommandId} {c : Command} {output : OutputId} {out : Output}

/-! ### Sources and entries -/

/-- The source and the index that an entry of a list of mappings gives: a stream, an input or a chain
stands for itself, and a tuple gives a source alone or with an index. -/
inductive Gives : Value → Value → Value → Prop
  | stream (id : SpecifierId) : Gives (.object (.specifier id)) (.object (.specifier id)) .null
  | input (id : InputId) : Gives (.object (.input id)) (.object (.input id)) .null
  | chain (id : ChainId) : Gives (.object (.chain id)) (.object (.chain id)) .null
  | source {entry source : Value} (h : entry.bare = .tuple [source]) : Gives entry source .null
  | sourceAt {entry source index : Value} (h : entry.bare = .tuple [source, index]) :
      Gives entry source index

theorem splitEntry_gives {entry source index : Value} (h : Gives entry source index) :
    splitEntry entry = .ok (source, index) := by
  cases h with
  | stream | input | chain => rfl
  | source h | sourceAt h => simp only [splitEntry, h]

theorem resolveEntry_gives {entry source index : Value} (h : Gives entry source index) :
    o.resolveEntry c entry = o.resolveSource c source index := by
  unfold resolveEntry
  rw [splitEntry_gives h]
  rfl

/-- What the check of a call that maps to an output of the command finds. -/
theorem commandOutput_member {c : Command} (hout : (o.output? output).isSome)
    (hin : output ∈ c.outputs) : o.commandOutput c (.object (.output output)) = .ok output := by
  obtain ⟨out, hout⟩ := Option.isSome_iff_exists.mp hout
  have hcontains : c.outputs.contains output = true := by simpa using hin
  simp only [commandOutput, hcontains, if_true, output_ok.mpr hout]
  rfl

section One

variable {source index : Value} {e : Error} {o₁ : Objects} {r : Resolved}

/-- A call that maps one source is refused as resolving the source is. -/
theorem perform_map_error (hc : o.command? command = some c) (hout : (o.output? output).isSome)
    (hin : output ∈ c.outputs) (h : o.resolveSource c source index = .error e) :
    (o.perform (.map command (.object (.output output)) source index)).result
      = .error ⟨e, o⟩ := by
  have hmember := commandOutput_member hout hin
  have hentry : o.resolveEntry c (.tuple [source, index]) = o.resolveSource c source index :=
    resolveEntry_gives (.sourceAt rfl)
  simp only [perform, commandMap, command_ok.mpr hc, hmember, mapEntries, resolveEntries, hentry,
    h, bind, Except.bind, pure, Except.pure, Outcome.map, Except.map]

/-- A call that maps one source records what the source is resolved to. -/
theorem perform_map_ok (hc : o.command? command = some c) (hout : o.output? output = some out)
    (hin : output ∈ c.outputs) (h : o.resolveSource c source index = .ok (o₁, r)) :
    ∃ v, (o.perform (.map command (.object (.output output)) source index)).result = .ok v ∧
      (o.perform (.map command (.object (.output output)) source index)).objects
        = o₁.recordAll command c output out [r.source] := by
  have hmember := commandOutput_member (by rw [hout]; rfl) hin
  have hentry : o.resolveEntry c (.tuple [source, index]) = o.resolveSource c source index :=
    resolveEntry_gives (.sourceAt rfl)
  obtain ⟨hcommands, houtputs⟩ := (resolveSource_ok h).files
  have hc₁ : o₁.command? command = some c := by
    rw [command?, hcommands]
    exact hc
  have hout₁ : o₁.output? output = some out := by
    rw [output?, houtputs]
    exact hout
  obtain ⟨events, hrecord⟩ := recordMappings_eq [r.source] hc₁ hout₁
  simp only [perform, commandMap, command_ok.mpr hc, hmember, mapEntries, resolveEntries, hentry,
    h, bind, Except.bind, pure, Except.pure, List.reverse_singleton, List.map_singleton,
    hrecord, Outcome.map, Except.map, and_true]
  exact ⟨_, rfl⟩

end One

/-- Halfway through the second run: an output has been added, and streams are recorded. -/
abbrev halfway (o : Objects) (command : CommandId) (c : Command) (output : OutputId) (out : Output)
    (specifiers : List Specifier) : Objects :=
  o.recordAll command (c.withOutput output) output out specifiers

/-- What the check of a call that adds an output finds. -/
theorem newCommandOutput_new {c : Command} (hout : (o.output? output).isSome)
    (hnew : output ∉ c.outputs) : o.newCommandOutput c (.object (.output output)) = .ok output := by
  obtain ⟨out, hout⟩ := Option.isSome_iff_exists.mp hout
  have hcontains : c.outputs.contains output = false := by simpa using hnew
  simp only [newCommandOutput, hcontains, Bool.false_eq_true, if_false, output_ok.mpr hout]
  rfl

/-- A call that adds an output maps the entries given with it, and then enters the output. -/
theorem commandAddOutput_entries {mappings : Value} {entries : List Value}
    (hc : o.command? command = some c) (hout : (o.output? output).isSome)
    (hnew : output ∉ c.outputs)
    (hentries : mappings = .null ∧ entries = [] ∨ o.mappingEntries mappings = .ok entries) :
    o.commandAddOutput command (.object (.output output)) mappings =
      match (o.mapEntries command c output entries).result with
      | .error f => ⟨(o.mapEntries command c output entries).objects, [], .error f⟩
      | .ok () => ⟨(o.mapEntries command c output entries).objects.enterOutput command output,
          (o.mapEntries command c output entries).events, .ok output⟩ := by
  have hchecked := newCommandOutput_new hout hnew
  rcases hentries with ⟨rfl, rfl⟩ | hentries
  · cases hresult : (o.mapEntries command c output []).result <;>
      simp only [commandAddOutput, command_ok.mpr hc, hchecked, hresult, bind, Except.bind, pure,
        Except.pure]
  · cases mappings with
    | null => cases hentries
    | _ =>
        cases hresult : (o.mapEntries command c output entries).result <;>
          simp only [commandAddOutput, command_ok.mpr hc, hchecked, hentries, hresult, bind,
            Except.bind, pure, Except.pure]

/-- Adding an output with sources resolves them all and records what they were resolved to, or is
refused as one of them is. -/
theorem perform_addOutput {mappings : Value} {entries : List Value}
    (hc : o.command? command = some c) (hout : o.output? output = some out)
    (hnew : output ∉ c.outputs) (hs : Sound o)
    (hentries : mappings = .null ∧ entries = [] ∨ o.mappingEntries mappings = .ok entries) :
    match (o.resolveEntries c [] entries).result with
    | .ok all =>
        (∃ v, (o.perform (.addOutput command (.object (.output output)) mappings)).result
          = .ok v) ∧
        (o.perform (.addOutput command (.object (.output output)) mappings)).objects =
          (o.resolveEntries c [] entries).objects.halfway command c output out all
    | .error f => (o.perform (.addOutput command (.object (.output output)) mappings)).result
        = .error f := by
  have hcall := commandAddOutput_entries hc (by rw [hout]; rfl) hnew hentries
  have hends := mapEntries_ends hs hc hout entries
  cases hresult : (o.resolveEntries c [] entries).result with
  | error f =>
      rw [hresult] at hends
      simp only [perform, hcall, hends.1, Outcome.map, Except.map]
  | ok all =>
      rw [hresult] at hends
      obtain ⟨-, -, -, ⟨hcommands, -⟩, -⟩ := resolveEntries_ok hs hresult
      have hc₁ : ((o.resolveEntries c [] entries).objects.command? command).isSome := by
        rw [command?, hcommands]
        exact Option.isSome_iff_exists.mpr ⟨c, hc⟩
      simp only [perform, hcall, hends.1, hends.2, Outcome.map, Except.map,
        enterOutput_recordAll all hc₁, and_true]
      exact ⟨_, rfl⟩

/-! ### Where a refusal is seen -/

variable {P : Object → Prop}

theorem OptionsHold.setChain (h : o.OptionsHold P) {id : ChainId} {ch ch' : Chain}
    (hch : o.chain? id = some ch) (hfilters : ch'.filters = ch.filters) :
    (o.setChain id ch').OptionsHold P where
  filters := h.filters
  chains := fun x hx => by
    rcases mem_setChain hx with hold | rfl
    · exact h.chains x hold
    · rw [hfilters]
      exact h.chains ch (mem_chains hch)

theorem Resolves.options {r : Resolved} (h : Resolves o c o' r) (hopts : o.OptionsHold P) :
    o'.OptionsHold P := by
  cases h with
  | givenStream => exact hopts
  | givenPad made on member hch => exact hopts.setChain hch rfl
  | input => exact ⟨hopts.filters, hopts.chains⟩
  | chain member hch =>
      rename_i id pad ch _ _ _
      have hmarked : (o.setChain id (ch.addMark (.int pad))).OptionsHold P := hopts.setChain hch rfl
      have hch₁ := chain?_setChain_self (ch.addMark (.int pad)) hch
      have hreferred : ((o.setChain id (ch.addMark (.int pad))).setChain id
          ((ch.addMark (.int pad)).addReference pad)).OptionsHold P := hmarked.setChain hch₁ rfl
      rw [referTo_eq _ hch₁]
      exact ⟨hreferred.filters, hreferred.chains⟩

end Objects

namespace Session

variable {s : Session}

/-- The failure of a session at objects seen earlier. -/
def explainAt (s : Session) (f : Failure) : Explained :=
  { s with objects := f.seen }.explain f.cause

theorem act_error {a : Action} {f : Failure} (h : (s.objects.perform a).result = .error f) :
    (s.act a).result = .error (s.explainAt f) := by
  simp only [act, h]
  rfl

/-- A call that records streams goes through if it does on the objects. -/
theorem act_ok_of_records (hs : s.objects.Sound) {a : Action} (ha : a.records = true) {v : Value}
    (h : (s.objects.perform a).result = .ok v) :
    (s.act a).result = .ok v ∧ (s.act a).session = s.after a := by
  have hcalm : a.isGradual = false ∧ a.mayWarn = false := by
    cases a with
    | addOutput | map => exact ⟨rfl, rfl⟩
    | _ => cases ha
  exact act_ok hs hcalm.1 hcalm.2 h

end Session

end MediaCommand
