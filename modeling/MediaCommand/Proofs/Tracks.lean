/-
What is mapped is written down twice.

A command keeps an entry for each stream that it maps: the output, the track and the stream.  An output
keeps the streams on its tracks in order.  One call writes both, but an output may belong to several
commands, and then its tracks hold what all of them map.

Three facts tie the two together in any session without copies.  Every entry stands on its track, the
entries of a command for an output have increasing tracks, and the entries of all commands for an output
are as many as it has tracks.  So the entries of a command are all tracks of an output, one for one, as
long as no other command maps to that output.
-/
import Mathlib.Data.List.Nodup
import Mathlib.Data.List.Perm.Subperm
import MediaCommand.Proofs.Consumption
import MediaCommand.Proofs.Mapped
import MediaCommand.Proofs.Recording

namespace MediaCommand

/-- The entries of a command for an output, in order. -/
def Command.entriesTo (c : Command) (output : OutputId) : List Mapping :=
  c.mappings.filter (·.output == output)

theorem Command.mem_entriesTo {c : Command} {output : OutputId} {m : Mapping} :
    m ∈ c.entriesTo output ↔ m ∈ c.mappings ∧ m.output = output := by
  rw [Command.entriesTo, List.mem_filter, beq_iff_eq]

/-! ### The entries of a batch -/

theorem mem_entriesFrom {output : OutputId} {m : Mapping} {specifiers : List Specifier} :
    ∀ {track : Nat}, m ∈ entriesFrom output track specifiers →
      m.output = output ∧ ∃ k, m.track = track + k ∧ specifiers[k]? = some m.source := by
  induction specifiers with
  | nil => intro track h; cases h
  | cons s rest ih =>
      intro track h
      rcases List.mem_cons.mp h with rfl | hrest
      · exact ⟨rfl, 0, rfl, rfl⟩
      · obtain ⟨houtput, k, htrack, hk⟩ := ih hrest
        exact ⟨houtput, k + 1, by omega, hk⟩

theorem tracks_entriesFrom (output : OutputId) (specifiers : List Specifier) :
    ∀ track, (entriesFrom output track specifiers).map Mapping.track =
      List.range' track specifiers.length := by
  induction specifiers with
  | nil => intro track; rfl
  | cons s rest ih =>
      intro track
      rw [entriesFrom, List.map_cons, ih, List.length_cons, List.range'_succ]

theorem length_entriesFrom (output : OutputId) (track : Nat) (specifiers : List Specifier) :
    (entriesFrom output track specifiers).length = specifiers.length := by
  have h := congrArg List.length (tracks_entriesFrom output specifiers track)
  rwa [List.length_map, List.length_range'] at h

/-- A batch is entered for its output and for no other. -/
theorem entriesTo_withMaps (c : Command) (output : OutputId) (track : Nat)
    (specifiers : List Specifier) (other : OutputId) :
    (c.withMaps output track specifiers).entriesTo other =
      c.entriesTo other ++ if output = other then entriesFrom output track specifiers else [] := by
  rw [Command.entriesTo, Command.withMaps, List.filter_append, Command.entriesTo]
  congr 1
  split
  · rename_i heq
    rw [List.filter_eq_self]
    intro m hm
    rw [(mem_entriesFrom hm).1, heq, beq_self_eq_true]
  · rename_i hne
    rw [List.filter_eq_nil_iff]
    intro m hm hother
    exact hne ((mem_entriesFrom hm).1.symm.trans (beq_iff_eq.mp hother))

/-- The outputs of a command are there, and none comes twice. -/
structure Command.OutputsIn (o : Objects) (c : Command) : Prop where
  distinct : c.outputs.Nodup
  there : ∀ output ∈ c.outputs, (o.output? output).isSome

theorem Command.OutputsIn.withOutput {o : Objects} {c : Command} {output : OutputId}
    (h : c.OutputsIn o) (hout : (o.output? output).isSome) (hnew : output ∉ c.outputs) :
    (c.withOutput output).OutputsIn o where
  distinct := by
    rw [Command.withOutput, List.nodup_append]
    refine ⟨h.distinct, List.nodup_singleton output, fun x hx y hy heq => ?_⟩
    rw [heq, List.mem_singleton.mp hy] at hx
    exact hnew hx
  there := fun x hx => by
    rcases List.mem_append.mp hx with hold | hlast
    · exact h.there x hold
    · rwa [List.mem_singleton.mp hlast]

namespace Objects

variable {o o' : Objects}

/-! ### The account of an output -/

/-- The streams on the tracks of an output, and none if it is not there. -/
def tracks (o : Objects) (output : OutputId) : List Specifier :=
  ((o.output? output).map Output.maps).getD []

/-- How many entries all commands have for an output. -/
def entryCount (o : Objects) (output : OutputId) : Nat :=
  (o.commands.map fun c => (c.entriesTo output).length).sum

/-- What the entries of commands and the tracks of outputs have to do with each other. -/
structure Booked (o : Objects) : Prop where
  placed : ∀ c ∈ o.commands, ∀ m ∈ c.mappings, (o.tracks m.output)[m.track]? = some m.source
  ordered : ∀ c ∈ o.commands, ∀ output,
    ((c.entriesTo output).map Mapping.track).Pairwise (· < ·)
  counted : ∀ output, o.entryCount output = (o.tracks output).length
  listed : ∀ c ∈ o.commands, ∀ m ∈ c.mappings, m.output ∈ c.outputs
  outputs : ∀ c ∈ o.commands, c.OutputsIn o

theorem booked_empty : Booked {} where
  placed := fun c hc => by cases hc
  ordered := fun c hc => by cases hc
  counted := fun _ => rfl
  listed := fun c hc => by cases hc
  outputs := fun c hc => by cases hc

theorem tracks_of_output? {output : OutputId} {out : Output} (h : o.output? output = some out) :
    o.tracks output = out.maps := by
  rw [tracks, h, Option.map_some, Option.getD_some]

/-- Quiet changes add outputs without tracks only. -/
theorem Quiet.tracks (h : Quiet o o') (output : OutputId) : o'.tracks output = o.tracks output := by
  obtain ⟨n, heq⟩ := h.outputs
  have hget : ∀ x : Objects, x.tracks output = ((x.outputs.map Output.maps)[output.index]?).getD [] := by
    intro x
    rw [Objects.tracks, output?, List.getElem?_map]
  rw [hget, hget, heq]
  rcases Nat.lt_or_ge output.index (o.outputs.map Output.maps).length with hlt | hge
  · rw [List.getElem?_append_left hlt]
  · rw [List.getElem?_append_right hge, List.getElem?_eq_none hge, List.getElem?_replicate]
    split <;> rfl

theorem output?_isSome {output : OutputId} :
    (o.output? output).isSome ↔ output.index < o.outputs.length := by
  simp [output?]

theorem Quiet.output? (h : Quiet o o') {output : OutputId} (hout : (o.output? output).isSome) :
    (o'.output? output).isSome := by
  obtain ⟨n, heq⟩ := h.outputs
  have hlength := congrArg List.length heq
  simp only [List.length_map, List.length_append, List.length_replicate] at hlength
  rw [output?_isSome] at hout ⊢
  omega

namespace Booked

variable (h : Booked o)

include h

/-- Commands that keep their entries, or have none and no outputs, keep the account. -/
theorem of_commands (htracks : ∀ output, o'.tracks output = o.tracks output)
    (hcounts : ∀ output, o'.entryCount output = o.entryCount output)
    (hcommands : ∀ c' ∈ o'.commands, c'.OutputsIn o' ∧ (c'.mappings = [] ∨
      ∃ c ∈ o.commands, c'.mappings = c.mappings ∧ ∀ output ∈ c.outputs, output ∈ c'.outputs)) :
    Booked o' where
  placed := fun c' hc' m hm => by
    rw [htracks]
    rcases (hcommands c' hc').2 with hnone | ⟨c, hc, hsame, -⟩
    · rw [hnone] at hm
      cases hm
    · exact h.placed c hc m (hsame ▸ hm)
  ordered := fun c' hc' output => by
    rw [Command.entriesTo]
    rcases (hcommands c' hc').2 with hnone | ⟨c, hc, hsame, -⟩
    · rw [hnone]
      exact List.Pairwise.nil
    · rw [hsame]
      exact h.ordered c hc output
  counted := fun output => by rw [hcounts, htracks, h.counted]
  listed := fun c' hc' m hm => by
    rcases (hcommands c' hc').2 with hnone | ⟨c, hc, hsame, houtputs⟩
    · rw [hnone] at hm
      cases hm
    · exact houtputs _ (h.listed c hc m (hsame ▸ hm))
  outputs := fun c' hc' => (hcommands c' hc').1

/-- The account is kept of outputs and commands only. -/
theorem of_files (hcommands : o'.commands = o.commands) (houtputs : o'.outputs = o.outputs) :
    Booked o' := by
  refine h.of_commands (fun output => ?_) (fun output => ?_) fun c hc => ?_
  · rw [tracks, output?, houtputs]
    rfl
  · rw [entryCount, hcommands]
    rfl
  · rw [hcommands] at hc
    obtain ⟨hdistinct, hthere⟩ := h.outputs c hc
    refine ⟨⟨hdistinct, fun output hin => ?_⟩, Or.inr ⟨c, hc, rfl, fun _ hin => hin⟩⟩
    rw [output?, houtputs]
    exact hthere output hin

theorem of_chainsOnly (same : ChainsOnly o o') : Booked o' :=
  h.of_files same.commands same.outputs

theorem quiet (q : Quiet o o') : Booked o' := by
  refine h.of_commands q.tracks (fun output => ?_) fun c' hc' => ?_
  · obtain ⟨fresh, hfresh, heq⟩ := q.commands
    refine sum_of_bare Command.bare (fun _ => rfl) (fun c hc => ?_) heq
    rw [Command.entriesTo, (hfresh c hc).mappings]
    rfl
  · rcases q.mem_commands hc' with ⟨c, hc, hbare⟩ | ⟨c, hfresh, hbare⟩
    · simp only [Command.bare, Command.mk.injEq] at hbare
      obtain ⟨-, -, -, houtputs, -, -, hmappings⟩ := hbare
      obtain ⟨hdistinct, hthere⟩ := h.outputs c hc
      refine ⟨⟨houtputs ▸ hdistinct, fun output hin => q.output? (hthere output (houtputs ▸ hin))⟩,
        Or.inr ⟨c, hc, hmappings, fun _ hin => houtputs ▸ hin⟩⟩
    · simp only [Command.bare, Command.mk.injEq] at hbare
      obtain ⟨-, -, -, houtputs, -, -, hmappings⟩ := hbare
      rw [hfresh.outputs] at houtputs
      refine ⟨⟨houtputs ▸ List.nodup_nil, fun output hin => ?_⟩,
        Or.inl (hmappings.trans hfresh.mappings)⟩
      rw [houtputs] at hin
      cases hin

/-- A command with the same entries may take the place of one if it has lost no output. -/
theorem setCommand {command : CommandId} {c c' : Command} (hc : o.command? command = some c)
    (hmappings : c'.mappings = c.mappings) (houtputs : ∀ output ∈ c.outputs, output ∈ c'.outputs)
    (hin : c'.OutputsIn o) : Booked (o.setCommand command c') := by
  refine h.of_commands (fun _ => rfl) (fun output => ?_) fun x hx => ?_
  · have hsum := sum_map_set (fun x : Command => (x.entriesTo output).length) c' hc
    have hsame : c'.entriesTo output = c.entriesTo output := by
      rw [Command.entriesTo, hmappings, Command.entriesTo]
    rw [hsame] at hsum
    exact Nat.add_right_cancel hsum
  · rcases List.mem_or_eq_of_mem_set hx with hold | rfl
    · obtain ⟨hdistinct, hthere⟩ := h.outputs x hold
      exact ⟨⟨hdistinct, hthere⟩, Or.inr ⟨x, hold, rfl, fun _ hin => hin⟩⟩
    · exact ⟨⟨hin.distinct, hin.there⟩, Or.inr ⟨c, List.mem_of_getElem? hc, hmappings, houtputs⟩⟩

end Booked

/-- Steps that enter no stream keep the account. -/
theorem Step.booked {e : List Effect} (step : Step o e o') (hstill : ∀ s, Effect.enter s ∉ e)
    (h : Booked o) : Booked o' := by
  cases step with
  | quiet q => exact h.quiet q
  | take | append | prepend | place | join | gather => exact h.of_files rfl rfl
  | refer => exact h.of_chainsOnly (chainsOnly_referTo o _ _)
  | bind => exact h.of_chainsOnly (chainsOnly_bindInputs o _ _)
  | label hc hi hfree =>
      rename_i command c id i
      have hnumber : Booked (o.setInput id { i with label := some c.inputs.length }) :=
        h.of_files rfl rfl
      obtain ⟨hdistinct, hthere⟩ := h.outputs c (List.mem_of_getElem? hc)
      exact hnumber.setCommand hc rfl (fun _ hin => hin) ⟨hdistinct, hthere⟩
  | adopt targets hc =>
      rename_i command c graph _ _
      obtain ⟨hdistinct, hthere⟩ := h.outputs c (List.mem_of_getElem? hc)
      exact h.setCommand hc rfl (fun _ hin => hin) ⟨hdistinct, hthere⟩
  | enter => exact absurd List.mem_cons_self (hstill _)
  | list hc hout hnew =>
      rename_i command c output
      have houtputs := (h.outputs c (List.mem_of_getElem? hc)).withOutput hout hnew
      exact h.setCommand hc rfl (fun _ hin => List.mem_append_left _ hin) houtputs

theorem Trace.booked {es : List Effect} (trace : Trace o es o')
    (hstill : ∀ s, Effect.enter s ∉ es) (h : Booked o) : Booked o' := by
  induction trace with
  | refl => exact h
  | step _ step ih =>
      have hfirst := ih fun s hs => hstill s (List.mem_append_left _ hs)
      exact step.booked (fun s hs => hstill s (List.mem_append_right _ hs)) hfirst

/-! ### Recording keeps the account -/

/-- Recording puts streams behind the tracks of an output. -/
theorem tracks_recordAll {command : CommandId} {c : Command} {output : OutputId} {out : Output}
    (specifiers : List Specifier) (hout : o.output? output = some out) (other : OutputId) :
    (o.recordAll command c output out specifiers).tracks other =
      o.tracks other ++ if output = other then specifiers else [] := by
  by_cases h : output = other
  · subst h
    have hself := @output?_recordAll o command c output out specifiers (by rw [hout]; rfl)
    rw [if_pos rfl, tracks_of_output? hself, tracks_of_output? hout]
    rfl
  · have hother : (o.recordAll command c output out specifiers).output? other = o.output? other :=
      List.getElem?_set_ne (Id.index_ne h)
    rw [if_neg h, List.append_nil, tracks, hother]
    rfl

/-- What stands on a track stays there when streams are recorded. -/
theorem getElem?_tracks_recordAll {command : CommandId} {c : Command} {output : OutputId}
    {out : Output} (specifiers : List Specifier) (hout : o.output? output = some out)
    {other : OutputId} {track : Nat} {s : Specifier} (h : (o.tracks other)[track]? = some s) :
    ((o.recordAll command c output out specifiers).tracks other)[track]? = some s := by
  obtain ⟨hlt, -⟩ := List.getElem?_eq_some_iff.mp h
  rw [tracks_recordAll specifiers hout, List.getElem?_append_left hlt]
  exact h

section RecordAll

variable {command : CommandId} {c : Command} {output : OutputId} {out : Output}

/-- The entries of a batch stand on the tracks that the output gains. -/
theorem placed_entriesFrom {specifiers : List Specifier} {m : Mapping}
    (hout : o.output? output = some out)
    (hm : m ∈ entriesFrom output out.maps.length specifiers) :
    ((o.recordAll command c output out specifiers).tracks m.output)[m.track]? = some m.source := by
  obtain ⟨houtput, k, htrack, hk⟩ := mem_entriesFrom hm
  rw [tracks_recordAll specifiers hout, houtput, if_pos rfl, tracks_of_output? hout, htrack,
    List.getElem?_append_right (Nat.le_add_right _ k), Nat.add_sub_cancel_left]
  exact hk

namespace Booked

variable (h : Booked o)

include h

/-- A command has entries for the tracks that an output has, and for no others. -/
theorem track_lt (hc : c ∈ o.commands) (hout : o.output? output = some out) {m : Mapping}
    (hm : m ∈ c.entriesTo output) : m.track < out.maps.length := by
  obtain ⟨hin, houtput⟩ := Command.mem_entriesTo.mp hm
  have hplaced := h.placed c hc m hin
  rw [houtput, tracks_of_output? hout] at hplaced
  exact (List.getElem?_eq_some_iff.mp hplaced).1

/-- The tracks of a batch come after those that the command has entries for. -/
theorem ordered_withMaps (hc : c ∈ o.commands) (hout : o.output? output = some out)
    (specifiers : List Specifier) (other : OutputId) :
    (((c.withMaps output out.maps.length specifiers).entriesTo other).map Mapping.track).Pairwise
      (· < ·) := by
  rw [entriesTo_withMaps]
  split
  · rename_i heq
    subst heq
    rw [List.map_append, tracks_entriesFrom, List.pairwise_append]
    refine ⟨h.ordered c hc output, List.pairwise_lt_range' 1, fun a ha b hb => ?_⟩
    obtain ⟨m, hm, rfl⟩ := List.mem_map.mp ha
    exact Nat.lt_of_lt_of_le (h.track_lt hc hout hm) (List.mem_range'_1.mp hb).1
  · rw [List.append_nil]
    exact h.ordered c hc other

/-- As many entries are made as the output gains tracks. -/
theorem counted_recordAll (hc : o.command? command = some c) (hout : o.output? output = some out)
    (specifiers : List Specifier) (other : OutputId) :
    (o.recordAll command c output out specifiers).entryCount other =
      ((o.recordAll command c output out specifiers).tracks other).length := by
  have hsum : (o.recordAll command c output out specifiers).entryCount other +
      (c.entriesTo other).length = o.entryCount other +
        ((c.withMaps output out.maps.length specifiers).entriesTo other).length :=
    sum_map_set (fun x : Command => (x.entriesTo other).length) _ hc
  rw [entriesTo_withMaps, List.length_append, h.counted other] at hsum
  rw [tracks_recordAll specifiers hout, List.length_append]
  split at hsum
  · rename_i heq
    rw [length_entriesFrom] at hsum
    rw [if_pos heq]
    omega
  · rename_i hne
    rw [if_neg hne]
    omega

/-- Recording for an output of a command keeps the account. -/
theorem recordAll (hc : o.command? command = some c) (hout : o.output? output = some out)
    (hlisted : output ∈ c.outputs) (specifiers : List Specifier) :
    Booked (o.recordAll command c output out specifiers) := by
  have hmember : c ∈ o.commands := List.mem_of_getElem? hc
  have hcommands : ∀ x ∈ (o.recordAll command c output out specifiers).commands,
      x ∈ o.commands ∨ x = c.withMaps output out.maps.length specifiers :=
    fun x hx => List.mem_or_eq_of_mem_set hx
  refine ⟨fun x hx m hm => ?_, fun x hx other => ?_, h.counted_recordAll hc hout specifiers,
    fun x hx m hm => ?_, fun x hx => ?_⟩
  · rcases hcommands x hx with hold | rfl
    · exact getElem?_tracks_recordAll specifiers hout (h.placed x hold m hm)
    · rcases List.mem_append.mp hm with hin | hin
      · exact getElem?_tracks_recordAll specifiers hout (h.placed c hmember m hin)
      · exact placed_entriesFrom hout hin
  · rcases hcommands x hx with hold | rfl
    · exact h.ordered x hold other
    · exact h.ordered_withMaps hmember hout specifiers other
  · rcases hcommands x hx with hold | rfl
    · exact h.listed x hold m hm
    · rcases List.mem_append.mp hm with hin | hin
      · exact h.listed c hmember m hin
      · rw [(mem_entriesFrom hin).1]
        exact hlisted
  · have hthere : ∀ id, (o.output? id).isSome →
        ((o.recordAll command c output out specifiers).output? id).isSome := by
      intro id hid
      rw [output?_isSome] at hid ⊢
      exact Nat.lt_of_lt_of_eq hid List.length_set.symm
    rcases hcommands x hx with hold | rfl
    · obtain ⟨hdistinct, hold⟩ := h.outputs x hold
      exact ⟨hdistinct, fun id hid => hthere id (hold id hid)⟩
    · obtain ⟨hdistinct, hold⟩ := h.outputs c hmember
      exact ⟨hdistinct, fun id hid => hthere id (hold id hid)⟩

end Booked

end RecordAll

/-! ### Calls that record -/

/-- The command that a call records in: it has the output, or is given it by the call. -/
inductive Opens (c : Command) (output : OutputId) : Command → Prop
  | listed (h : output ∈ c.outputs) : Opens c output c
  | added (h : output ∉ c.outputs) : Opens c output (c.withOutput output)

/-- What a call that records leaves: the objects as they were, or with streams resolved and recorded. -/
inductive Recorded (o : Objects) : Objects → Prop
  | refused : Recorded o o
  | done {command : CommandId} {c c' : Command} {output : OutputId} {out : Output} {o₁ : Objects}
      (hc : o.command? command = some c) (hout : o.output? output = some out)
      (opens : Opens c output c') (hcommands : o₁.commands = o.commands)
      (houtputs : o₁.outputs = o.outputs) (specifiers : List Specifier) :
      Recorded o (o₁.recordAll command c' output out specifiers)

section Records

variable {command : CommandId} {c : Command} {output : OutputId} {out : Output}

/-- Mapping entries changes nothing, or records streams once resolving has changed chains. -/
theorem mapEntries_objects (hs : Sound o) (hc : o.command? command = some c)
    (hout : o.output? output = some out) (entries : List Value) :
    (∃ f, (o.mapEntries command c output entries).result = .error f ∧
      (o.mapEntries command c output entries).objects = o) ∨
    ∃ (o₁ : Objects) (specifiers : List Specifier),
      (o.mapEntries command c output entries).result = .ok () ∧
      o₁.commands = o.commands ∧ o₁.outputs = o.outputs ∧
      (o.mapEntries command c output entries).objects =
        o₁.recordAll command c output out specifiers := by
  have hends := mapEntries_ends hs hc hout entries
  cases hresult : (o.resolveEntries c [] entries).result with
  | error f =>
      rw [hresult] at hends
      exact Or.inl ⟨f, hends⟩
  | ok specifiers =>
      rw [hresult] at hends
      obtain ⟨-, -, -, ⟨hcommands, houtputs⟩, -⟩ := resolveEntries_ok hs hresult
      exact Or.inr ⟨_, specifiers, hends.1, hcommands, houtputs, hends.2⟩

theorem commandOutput_listed {v : Value} (h : o.commandOutput c v = .ok output) :
    output ∈ c.outputs := by
  unfold commandOutput at h
  split at h
  · split at h
    · rename_i hlisted
      obtain ⟨out, -, rfl⟩ := map_ok.mp h
      simpa using hlisted
    · cases h
  · cases h

theorem commandMap_recorded (hs : Sound o) (command : CommandId) (output source index : Value) :
    Recorded o (o.commandMap command output source index).objects := by
  unfold commandMap
  dsimp only
  split
  · exact .refused
  · rename_i c id h
    obtain ⟨c₁, hc, h⟩ := bind_ok.mp h
    obtain ⟨id₁, hid, h⟩ := bind_ok.mp h
    cases h
    obtain ⟨out, hout⟩ := Option.isSome_iff_exists.mp (commandOutput_ok hid)
    show Recorded o (o.mapEntries command c id [.tuple [source, index]]).objects
    rcases mapEntries_objects hs (command_ok.mp hc) hout [.tuple [source, index]] with
      ⟨f, -, hobjects⟩ | ⟨o₁, specifiers, -, hcommands, houtputs, hobjects⟩
    · rw [hobjects]
      exact .refused
    · rw [hobjects]
      exact .done (command_ok.mp hc) hout (.listed (commandOutput_listed hid)) hcommands houtputs
        specifiers

theorem commandAddOutput_recorded (hs : Sound o) (command : CommandId) (output mappings : Value) :
    Recorded o (o.commandAddOutput command output mappings).objects := by
  unfold commandAddOutput
  dsimp only
  split
  · exact .refused
  · rename_i c id entries h
    obtain ⟨c₁, hc, h⟩ := bind_ok.mp h
    obtain ⟨id₁, hid, h⟩ := bind_ok.mp h
    obtain ⟨hthere, hnew⟩ := newCommandOutput_ok hid
    obtain ⟨out, hout⟩ := Option.isSome_iff_exists.mp hthere
    have heq : c₁ = c ∧ id₁ = id := by
      split at h
      · cases h
        exact ⟨rfl, rfl⟩
      · obtain ⟨entries', -, h⟩ := bind_ok.mp h
        cases h
        exact ⟨rfl, rfl⟩
    obtain ⟨rfl, rfl⟩ := heq
    rcases mapEntries_objects hs (command_ok.mp hc) hout entries with
      ⟨f, hf, hobjects⟩ | ⟨o₁, specifiers, hok, hcommands, houtputs, hobjects⟩
    · simp only [hf]
      rw [hobjects]
      exact .refused
    · have hc₁ : (o₁.command? command).isSome := by
        rw [command?, hcommands]
        exact Option.isSome_iff_exists.mpr ⟨c₁, command_ok.mp hc⟩
      simp only [hok]
      rw [hobjects, enterOutput_recordAll specifiers hc₁]
      exact .done (command_ok.mp hc) hout (.added hnew) hcommands houtputs specifiers

theorem perform_recorded (hs : Sound o) {a : Action} (ha : a.records = true) :
    Recorded o (o.perform a).objects := by
  cases a with
  | addOutput command output mappings => exact commandAddOutput_recorded hs command output mappings
  | map command output source index => exact commandMap_recorded hs command output source index
  | _ => cases ha

/-- Calls that record keep the account. -/
theorem Booked.recorded (h : Booked o) (r : Recorded o o') : Booked o' := by
  cases r with
  | refused => exact h
  | done hc hout opens hcommands houtputs specifiers =>
      rename_i command c c' output out o₁
      have h₁ : Booked o₁ := h.of_files hcommands houtputs
      have hc₁ : o₁.command? command = some c := by
        rw [command?, hcommands]
        exact hc
      have hout₁ : o₁.output? output = some out := by
        rw [output?, houtputs]
        exact hout
      cases opens with
      | listed hlisted => exact h₁.recordAll hc₁ hout₁ hlisted specifiers
      | added hnew =>
          -- The output is listed first, and then the call is one for an output of the command.
          have houtputs := (h₁.outputs c (List.mem_of_getElem? hc₁)).withOutput
            (Option.isSome_iff_exists.mpr ⟨out, hout₁⟩) hnew
          have hfirst : Booked (o₁.setCommand command (c.withOutput output)) :=
            h₁.setCommand hc₁ rfl (fun _ hin => List.mem_append_left _ hin) houtputs
          have hall := hfirst.recordAll (getElem?_set_eq_of_some _ hc₁) hout₁
            (List.mem_append_right _ (List.mem_singleton_self output)) specifiers
          rwa [recordAll_setCommand] at hall

end Records

/-! ### Whole sessions -/

/-- Every call but a copy keeps the account. -/
theorem Booked.afterCall (h : Booked o) (hs : Sound o) {call : Call} (hcopies : call.copies = false) :
    Booked (o.afterCall call) := by
  cases call with
  | act a =>
      cases hrecords : a.records with
      | true => exact h.recorded (perform_recorded hs hrecords)
      | false =>
          have trace := perform_still hs (a := a) (fun v hv => by rw [hv] at hcopies; cases hcopies)
            hrecords
          refine trace.booked (fun s hin => ?_) h
          obtain ⟨p, -, hp⟩ := List.mem_map.mp hin
          cases hp
  | keep v => exact h.quiet (quiet_keep o v)
  | extendList list items => exact h.quiet (afterCall_extendList_quiet o list items)

theorem booked_afterCalls {calls : List Call} : ∀ {o : Objects}, Sound o → Booked o →
    (∀ call ∈ calls, call.copies = false) → Booked (o.afterCalls calls) := by
  induction calls with
  | nil => intro o _ h _; exact h
  | cons call rest ih =>
      intro o hs h hcopies
      have hcall := h.afterCall hs (hcopies call List.mem_cons_self)
      exact ih (hs.afterCall call).1 hcall fun x hx => hcopies x (List.mem_cons_of_mem call hx)

/-! ### Outputs to which one command maps -/

/-- No other command maps to the output. -/
def Unshared (o : Objects) (command : CommandId) (output : OutputId) : Prop :=
  ∀ other c', o.command? other = some c' → other ≠ command → c'.entriesTo output = []

/-- Numbers below a bound that increase and are as many as there are below it are all of them. -/
theorem eq_range_of_increasing {l : List Nat} {n : Nat} (h : l.Pairwise (· < ·))
    (hlt : ∀ a ∈ l, a < n) (hlength : l.length = n) : l = List.range n := by
  have hnodup : l.Nodup := h.imp Nat.ne_of_lt
  have hsubset : l ⊆ List.range n := fun a ha => List.mem_range.mpr (hlt a ha)
  have hperm : l.Perm (List.range n) := by
    refine (hnodup.subperm hsubset).perm_of_length_le ?_
    rw [List.length_range]
    exact Nat.le_of_eq hlength.symm
  exact hperm.eq_of_pairwise (fun a b _ _ hab hba => absurd hab (Nat.lt_asymm hba)) h
    List.pairwise_lt_range

namespace Booked

variable {command : CommandId} {c : Command} {output : OutputId} {out : Output} (h : Booked o)

include h

/-- A command has an entry for every track of an output if and only if no other command maps to it. -/
theorem unshared_iff (hc : o.command? command = some c) :
    o.Unshared command output ↔ (c.entriesTo output).length = (o.tracks output).length := by
  -- What the other commands have is what is left when this one is emptied.
  let blank : Command := { options := [], executable := none }
  have hsum : ((o.commands.set command.index blank).map fun x => (x.entriesTo output).length).sum +
      (c.entriesTo output).length = o.entryCount output + 0 :=
    sum_map_set (fun x : Command => (x.entriesTo output).length) blank hc
  have hothers : ((o.commands.set command.index blank).map fun x =>
      (x.entriesTo output).length).sum = 0 ↔ o.Unshared command output := by
    rw [List.sum_eq_zero_iff_forall_eq_nat]
    refine ⟨fun hall other c' hc' hne => ?_, fun halone n hn => ?_⟩
    · have hstill : (o.commands.set command.index blank)[other.index]? = some c' :=
        (List.getElem?_set_ne (Id.index_ne hne).symm).trans hc'
      have hnone := hall _ (List.mem_map_of_mem (List.mem_of_getElem? hstill))
      exact List.length_eq_zero_iff.mp hnone
    · obtain ⟨x, hx, rfl⟩ := List.mem_map.mp hn
      obtain ⟨k, hk⟩ := List.mem_iff_getElem?.mp hx
      by_cases hsame : k = command.index
      · rw [hsame, getElem?_set_eq_of_some blank hc] at hk
        cases hk
        rfl
      · rw [List.getElem?_set_ne (Ne.symm hsame)] at hk
        have hne : (⟨k⟩ : CommandId) ≠ command := fun heq => hsame (congrArg Id.index heq)
        rw [halone ⟨k⟩ x hk hne]
        rfl
  rw [← hothers, ← h.counted output]
  omega

/-- Entries for every track of an output are its tracks, from the first to the last. -/
theorem entries_of_length (hc : c ∈ o.commands) (hout : o.output? output = some out)
    (hlength : (c.entriesTo output).length = out.maps.length) :
    (c.entriesTo output).map Mapping.source = out.maps ∧
      (c.entriesTo output).map Mapping.track = List.range out.maps.length := by
  have htracks : (c.entriesTo output).map Mapping.track = List.range out.maps.length := by
    refine eq_range_of_increasing (h.ordered c hc output) (fun a ha => ?_) ?_
    · obtain ⟨m, hm, rfl⟩ := List.mem_map.mp ha
      exact h.track_lt hc hout hm
    · rw [List.length_map, hlength]
  refine ⟨List.ext_getElem? fun k => ?_, htracks⟩
  rcases Nat.lt_or_ge k out.maps.length with hlt | hge
  · have hk := congrArg (·[k]?) htracks
    rw [List.getElem?_map, List.getElem?_range hlt] at hk
    obtain ⟨m, hm, htrack⟩ := Option.map_eq_some_iff.mp hk
    obtain ⟨hin, houtput⟩ := Command.mem_entriesTo.mp (List.mem_of_getElem? hm)
    have hplaced := h.placed c hc m hin
    rw [houtput, tracks_of_output? hout, htrack] at hplaced
    rw [List.getElem?_map, hm, hplaced, Option.map_some]
  · rw [List.getElem?_eq_none hge, List.getElem?_eq_none (by rwa [List.length_map, hlength])]

end Booked

end Objects

end MediaCommand
