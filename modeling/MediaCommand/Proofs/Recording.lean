/-
Resolving sources and recording them do not meet.

Resolving a source takes a pad and may make a specifier; it reads which inputs and graphs a command has,
but neither its mappings nor any output.  Recording changes nothing but one output and one command.  So
sources are resolved in the same way whatever has been recorded, and what a list of them leaves behind
can be written down at once: one output with more maps, and one command with more mappings.
-/
import MediaCommand.Proofs.Batch
import MediaCommand.Proofs.SameTexts

namespace MediaCommand

/-- A call made of two is looked at through its second half. -/
theorem bind_map {ε α β γ : Type} {x : Except ε α} {f : α → Except ε β} {g : β → γ} :
    (x >>= f).map g = x >>= fun a => (f a).map g := by
  cases x <;> rfl

/-- The entries for streams on the tracks of an output from a track on. -/
def entriesFrom (output : OutputId) : Nat → List Specifier → List Mapping
  | _, [] => []
  | track, s :: rest => ⟨output, track, s⟩ :: entriesFrom output (track + 1) rest

/-- The output with more maps. -/
def Output.withMaps (out : Output) (specifiers : List Specifier) : Output :=
  { out with maps := out.maps ++ specifiers }

/-- The command with more mappings to an output, from a track on. -/
def Command.withMaps (c : Command) (output : OutputId) (track : Nat)
    (specifiers : List Specifier) : Command :=
  { c with mappings := c.mappings ++ entriesFrom output track specifiers }

/-- The command with one more output. -/
def Command.withOutput (c : Command) (output : OutputId) : Command :=
  { c with outputs := c.outputs ++ [output] }

theorem entriesFrom_append (output : OutputId) (specifiers more : List Specifier) :
    ∀ track, entriesFrom output track (specifiers ++ more) =
      entriesFrom output track specifiers ++
        entriesFrom output (track + specifiers.length) more := by
  induction specifiers with
  | nil => exact fun track => rfl
  | cons s rest ih =>
      intro track
      rw [List.cons_append, entriesFrom, ih, entriesFrom, List.cons_append, List.length_cons,
        Nat.add_right_comm, Nat.add_assoc]

namespace Objects

variable {o o' : Objects}

/-! ### Resolving reads neither outputs nor recorded mappings -/

section Files

variable (outputs : List Output) (commands : List Command)

variable {c c' : Command}

end Files

/-! ### Recording -/

/-- The objects after streams are recorded on the next tracks of an output, given the command and the
output as they were before. -/
def recordAll (o : Objects) (command : CommandId) (c : Command) (output : OutputId) (out : Output)
    (specifiers : List Specifier) : Objects :=
  o.withFiles (o.outputs.set output.index (out.withMaps specifiers))
    (o.commands.set command.index (c.withMaps output out.maps.length specifiers))

variable {command : CommandId} {c : Command} {output : OutputId} {out : Output}

theorem recordAll_nil (hc : o.command? command = some c) (hout : o.output? output = some out) :
    o.recordAll command c output out [] = o := by
  have hmaps : out.withMaps [] = out := by simp only [Output.withMaps, List.append_nil]
  have hmappings : c.withMaps output out.maps.length [] = c := by
    simp only [Command.withMaps, entriesFrom, List.append_nil]
  unfold recordAll
  rw [hmaps, hmappings, set_eq_self hc, set_eq_self hout]
  rfl

theorem command?_recordAll (specifiers : List Specifier) (hc : (o.command? command).isSome) :
    (o.recordAll command c output out specifiers).command? command =
      some (c.withMaps output out.maps.length specifiers) := by
  obtain ⟨c', hc'⟩ := Option.isSome_iff_exists.mp hc
  exact getElem?_set_eq_of_some _ hc'

theorem output?_recordAll (specifiers : List Specifier) (hout : (o.output? output).isSome) :
    (o.recordAll command c output out specifiers).output? output =
      some (out.withMaps specifiers) := by
  obtain ⟨out', hout'⟩ := Option.isSome_iff_exists.mp hout
  exact getElem?_set_eq_of_some _ hout'

/-- Recording more streams after some is recording all of them. -/
theorem recordAll_recordAll (specifiers more : List Specifier) :
    (o.recordAll command c output out specifiers).recordAll command
        (c.withMaps output out.maps.length specifiers) output (out.withMaps specifiers) more =
      o.recordAll command c output out (specifiers ++ more) := by
  simp only [recordAll, withFiles, Command.withMaps, Output.withMaps, List.set_set,
    entriesFrom_append, List.length_append, List.append_assoc]

/-- Recording puts a command in the place of whatever stood there. -/
theorem recordAll_setCommand (c' : Command) (specifiers : List Specifier) :
    (o.setCommand command c').recordAll command c output out specifiers =
      o.recordAll command c output out specifiers := by
  simp only [recordAll, setCommand, withFiles, List.set_set]

/-- Entering an output after recording is recording in the command that has it. -/
theorem enterOutput_recordAll (specifiers : List Specifier) (hc : (o.command? command).isSome) :
    (o.recordAll command c output out specifiers).enterOutput command output =
      o.recordAll command (c.withOutput output) output out specifiers := by
  have hc' := @command?_recordAll o command c output out specifiers hc
  simp only [enterOutput, hc']
  simp only [recordAll, setCommand, withFiles, List.set_set]
  rfl

/-- Recording does not fail. -/
theorem recordMappings_eq (specifiers : List Specifier) :
    ∀ {o : Objects} {c : Command} {out : Output}, o.command? command = some c →
      o.output? output = some out → ∃ events, o.recordMappings command output specifiers =
        .ok (o.recordAll command c output out specifiers, events) := by
  induction specifiers with
  | nil =>
      intro o c out hc hout
      exact ⟨[], by rw [recordAll_nil hc hout]; rfl⟩
  | cons s rest ih =>
      intro o c out hc hout
      have hone : o.recordMapping command output s =
          .ok (o.recordAll command c output out [s],
            .mapped s.source output out.maps.length) := by
        simp only [recordMapping, command_ok.mpr hc, output_ok.mpr hout]
        rfl
      have hc₁ := @command?_recordAll o command c output out [s] (by rw [hc]; rfl)
      have hout₁ := @output?_recordAll o command c output out [s] (by rw [hout]; rfl)
      obtain ⟨events, hrest⟩ := ih hc₁ hout₁
      refine ⟨.mapped s.source output out.maps.length :: events, ?_⟩
      simp only [recordMappings, hone, bind, Except.bind, hrest, recordAll_recordAll]
      rfl

/-- **Mapping entries records what they are resolved to**, or changes nothing if one is refused. -/
theorem mapEntries_ends (hs : Sound o) (hc : o.command? command = some c)
    (hout : o.output? output = some out) (entries : List Value) :
    match (o.resolveEntries c [] entries).result with
    | .ok specifiers =>
        (o.mapEntries command c output entries).result = .ok () ∧
        (o.mapEntries command c output entries).objects =
          (o.resolveEntries c [] entries).objects.recordAll command c output out specifiers
    | .error f =>
        (o.mapEntries command c output entries).result = .error f ∧
        (o.mapEntries command c output entries).objects = o := by
  unfold mapEntries
  cases hresult : (o.resolveEntries c [] entries).result with
  | error f =>
      have hreleased : List.foldl release o [] = o := rfl
      simp only [hresult, resolveEntries_error hreleased hresult, and_self]
  | ok specifiers =>
      obtain ⟨-, -, -, ⟨hcommands, houtputs⟩, -⟩ := resolveEntries_ok hs hresult
      have hc₁ : (o.resolveEntries c [] entries).objects.command? command = some c := by
        rw [command?, hcommands]
        exact hc
      have hout₁ : (o.resolveEntries c [] entries).objects.output? output = some out := by
        rw [output?, houtputs]
        exact hout
      obtain ⟨events, hrecord⟩ := recordMappings_eq specifiers hc₁ hout₁
      simp only [hresult, hrecord, and_self]

/-! ### What a refusal shows -/

/-- A failure shows only values with a property. -/
def Shows {α : Type} (Q : Value → Prop) (r : Except Error α) : Prop :=
  ∀ e, r = .error e → ∀ v ∈ e.values, Q v

section Shows

variable {α β : Type} {Q : Value → Prop}

theorem Shows.ok (a : α) : Shows Q (.ok a) := fun _ h => nomatch h

theorem Shows.error {e : Error} (h : ∀ v ∈ e.values, Q v) : Shows Q (.error e : Except Error α) :=
  fun _ he => Except.error.inj he ▸ h

theorem Shows.found (x : Option α) : Shows Q (Objects.found x) := by
  cases x with
  | none => exact .error fun _ hv => nomatch hv
  | some a => exact .ok a

theorem Shows.bind {r : Except Error α} {f : α → Except Error β} (h : Shows Q r)
    (hf : ∀ a, Shows Q (f a)) : Shows Q (r >>= f) := by
  cases r with
  | error e => exact .error (h e rfl)
  | ok a => exact hf a

end Shows

end Objects

end MediaCommand
