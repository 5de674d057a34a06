/-
Two places for the maps of a command.

The maps of a command stand together before all outputs, or those of each output directly before it.  In
the first place they are read off the entries of the command, in the second off the tracks of its
outputs.  Both come to the same exactly as far as no other command maps to its outputs.

Everything else on the command line is the same in both places, and so are failures, because a stream
that a command maps always has a name.  The options may only not hold a command, whose own command line
is shown there with its own maps.
-/
import MediaCommand.Proofs.SameTexts
import MediaCommand.Proofs.Tracks

namespace MediaCommand

/-! ### Options that look the same -/

section Options

variable {P : Object → Prop} {t t' : Texts}

namespace Objects

theorem occurrence_same (h : Texts.Agree P t t') (key : String) {v : Value}
    (hv : ∀ x ∈ v.objects, P x) : Same (occurrence t key v) (occurrence t' key v) := by
  unfold occurrence
  split
  · exact .ok _
  · refine Same.map (fun text => [key, text]) ?_
    unfold optionValue
    split
    · exact .ok _
    · exact v.plain_same h hv

theorem optionArgs_same (h : Texts.Agree P t t') {key v : Value} (hkey : ∀ x ∈ key.objects, P x)
    (hv : ∀ x ∈ v.objects, P x) : Same (optionArgs t key v) (optionArgs t' key v) := by
  unfold optionArgs
  refine (key.plain_same h hkey).bind fun text _ => ?_
  split
  · rename_i items hitems
    refine Same.map List.flatten (.mapM fun w hw => ?_)
    exact occurrence_same h _ fun x hx => hv x (objects_of_repeated? hitems hw hx)
  · exact occurrence_same h _ hv

theorem optionsArgs_same (h : Texts.Agree P t t') {entries : List (Value × Value)}
    (hentries : ∀ e ∈ entries, (∀ x ∈ e.1.objects, P x) ∧ ∀ x ∈ e.2.objects, P x) :
    Same (optionsArgs t entries) (optionsArgs t' entries) := by
  refine Same.map List.flatten (.mapM fun e he => ?_)
  exact optionArgs_same h (hentries e he).1 (hentries e he).2

theorem fileOptionsArgs_same (h : Texts.Agree P t t') {entries : List (String × Value)}
    (hentries : ∀ e ∈ entries, ∀ x ∈ e.2.objects, P x) :
    Same (fileOptionsArgs t entries) (fileOptionsArgs t' entries) := by
  refine optionsArgs_same h fun e he => ?_
  obtain ⟨e', he', rfl⟩ := List.mem_map.mp he
  refine ⟨fun x hx => ?_, hentries e' he'⟩
  cases hx

end Objects

end Options

/-! ### The command line without its maps -/

/-- A command line without its maps: what stands in front of all maps, and the part of each output. -/
structure Layout where
  front : List Argument
  blocks : List (List Argument)

namespace Layout

/-- All maps before the first output. -/
def together (l : Layout) (maps : List Argument) : List Argument := l.front ++ maps ++ l.blocks.flatten

/-- The maps of each output directly before it. -/
def apart (l : Layout) (maps : List (List Argument)) : List Argument :=
  l.front ++ (List.zipWith (· ++ ·) maps l.blocks).flatten

end Layout

/-- Answers with something put in front of each. -/
theorem mapM_append {ε α β : Type} {f g : α → Except ε (List β)} {before : α → List β}
    {l : List α} (h : ∀ x ∈ l, f x = (g x).map (before x ++ ·)) :
    l.mapM f = (l.mapM g).map fun answers => List.zipWith (· ++ ·) (l.map before) answers := by
  induction l with
  | nil => rfl
  | cons a rest ih =>
      rw [List.mapM_cons, List.mapM_cons, h a List.mem_cons_self,
        ih fun x hx => h x (List.mem_cons_of_mem a hx)]
      cases g a with
      | error e => rfl
      | ok b => cases rest.mapM g <;> rfl

namespace Objects

variable {o : Objects} {t : Texts} {c : Command}

/-- The arguments of an output without its maps. -/
def outputPart (o : Objects) (t : Texts) (id : OutputId) : Except Error (List Argument) := do
  outputArgs t (← o.output id)

/-- The command line of a command without its maps. -/
def layout (o : Objects) (t : Texts) (c : Command) : Except Error Layout := do
  let options ← optionsArgs t c.options
  let inputs ← c.inputs.mapM fun id => do inputArgs t (← o.input id)
  let expression ← o.complexFilter t c
  let filter := if expression.isEmpty then [] else [.text "-filter_complex", .text expression]
  let blocks ← c.outputs.mapM (o.outputPart t)
  return ⟨options.map .text ++ inputs.flatten ++ filter, blocks⟩

theorem outputBlock_together (o : Objects) (t : Texts) : o.outputBlock t false = o.outputPart t := by
  funext id
  unfold outputBlock outputPart
  refine bind_congr fun out => ?_
  simp only [bind, Except.bind, Bool.false_eq_true, if_false]
  cases outputArgs t out <;> rfl

theorem outputBlock_apart {id : OutputId} {out : Output} {maps : List Argument}
    (hout : o.output? id = some out) (hmaps : o.mapArgs out.maps = .ok maps) :
    o.outputBlock t true id = (o.outputPart t id).map (maps ++ ·) := by
  simp only [outputBlock, outputPart, output_ok.mpr hout, if_true, hmaps, bind, Except.bind]
  cases outputArgs t out <;> rfl

/-- Maps that have names can stand together before all outputs. -/
theorem commandArgs_together {maps : List Argument}
    (hmaps : o.mapArgs (c.mappings.map Mapping.source) = .ok maps) :
    o.commandArgs t false c = (o.layout t c).map (·.together maps) := by
  unfold commandArgs layout
  rw [outputBlock_together, bind_map]
  refine bind_congr fun options => ?_
  rw [bind_map]
  refine bind_congr fun inputs => ?_
  rw [bind_map]
  refine bind_congr fun expression => ?_
  simp only [Bool.false_eq_true, if_false, hmaps]
  cases c.outputs.mapM (o.outputPart t) <;> rfl

/-- Maps that have names can stand each before its output. -/
theorem commandArgs_apart {mapsOf : OutputId → List Argument}
    (hmaps : ∀ id ∈ c.outputs, ∃ out, o.output? id = some out ∧
      o.mapArgs out.maps = .ok (mapsOf id)) :
    o.commandArgs t true c = (o.layout t c).map (·.apart (c.outputs.map mapsOf)) := by
  have hblocks : c.outputs.mapM (o.outputBlock t true) =
      (c.outputs.mapM (o.outputPart t)).map fun blocks =>
        List.zipWith (· ++ ·) (c.outputs.map mapsOf) blocks := by
    refine mapM_append fun id hid => ?_
    obtain ⟨out, hout, hnamed⟩ := hmaps id hid
    exact outputBlock_apart hout hnamed
  unfold commandArgs layout
  rw [hblocks, bind_map]
  refine bind_congr fun options => ?_
  rw [bind_map]
  refine bind_congr fun inputs => ?_
  rw [bind_map]
  refine bind_congr fun expression => ?_
  simp only [if_true]
  cases c.outputs.mapM (o.outputPart t) with
  | error e => rfl
  | ok blocks =>
      show Except.ok _ = Except.ok _
      rw [List.append_nil]
      rfl

/-! ### The same command line in two views -/

variable {P : Object → Prop} {t' : Texts}

/-- The options on a command line hold only objects that one may ask about. -/
structure LineHolds (P : Object → Prop) (o : Objects) (c : Command) : Prop where
  filters : o.OptionsHold P
  command : ∀ e ∈ c.options, (∀ x ∈ e.1.objects, P x) ∧ ∀ x ∈ e.2.objects, P x
  inputs : ∀ id ∈ c.inputs, ∀ i, o.input? id = some i → ∀ e ∈ i.options, ∀ x ∈ e.2.objects, P x
  outputs : ∀ id ∈ c.outputs, ∀ out, o.output? id = some out →
    ∀ e ∈ out.options, ∀ x ∈ e.2.objects, P x

theorem complexFilter_agree (h : Texts.Agree P t t') (hopts : o.OptionsHold P) (c : Command) :
    o.complexFilter t c = o.complexFilter t' c := by
  have htexts : ∀ graphs : List Graph,
      graphs.mapM (o.graphText t) = graphs.mapM (o.graphText t') :=
    fun graphs => (Same.mapM fun g _ => graphText_same h hopts g).eq
  unfold complexFilter
  simp only [htexts]

/-- Without its maps the command line is the same in views that agree. -/
theorem layout_agree (h : Texts.Agree P t t') (hline : o.LineHolds P c) :
    o.layout t c = o.layout t' c := by
  have hoptions := optionsArgs_same h hline.command
  have hinputs : Same (c.inputs.mapM fun id => do inputArgs t (← o.input id))
      (c.inputs.mapM fun id => do inputArgs t' (← o.input id)) := by
    refine .mapM fun id hid => (Same.found (o.input? id)).bind fun i hi => ?_
    exact Same.map _ (fileOptionsArgs_same h (hline.inputs id hid i (mem_found hi)))
  have hblocks : Same (c.outputs.mapM (o.outputPart t)) (c.outputs.mapM (o.outputPart t')) := by
    refine .mapM fun id hid => (Same.found (o.output? id)).bind fun out hout => ?_
    exact Same.map _ (fileOptionsArgs_same h (hline.outputs id hid out (mem_found hout)))
  unfold layout
  rw [hoptions.eq, hinputs.eq, hblocks.eq, complexFilter_agree h hline.filters]

/-! ### Maps with their names -/

/-- The arguments that map streams under given names. -/
def mapPairs (label : Specifier → String) (specifiers : List Specifier) : List Argument :=
  specifiers.flatMap fun s => [.text "-map", .text (label s)]

theorem mapArgs_named {label : Specifier → String} {specifiers : List Specifier}
    (h : ∀ s ∈ specifiers, o.specifierText s.source = .ok (label s)) :
    o.mapArgs specifiers = .ok (mapPairs label specifiers) := by
  unfold mapArgs
  rw [mapM_ok_map h]
  exact congrArg Except.ok (List.flatMap_map _ _ _)

/-- What a command maps has a name. -/
theorem exists_labels (hs : Sound o) (hmaps : MapsKnown o) (hc : c ∈ o.commands) :
    ∃ label : Specifier → String, ∀ m ∈ c.mappings,
      o.specifierText m.source.source = .ok (label m.source) := by
  have hall : ∀ s ∈ c.mappings.map Mapping.source, ∃ text, o.specifierText s.source = .ok text := by
    intro s hin
    obtain ⟨m, hm, rfl⟩ := List.mem_map.mp hin
    exact hs.specifierText_of_known (hs.commands c hc) (hmaps c hc m hm)
  obtain ⟨label, hlabel⟩ := exists_answers hall
  exact ⟨label, fun m hm => hlabel m.source (List.mem_map_of_mem hm)⟩

end Objects

/-- Sorting entries by outputs loses none and adds none. -/
theorem perm_entriesTo {c : Command} {outputs : List OutputId} (hdistinct : outputs.Nodup) :
    (outputs.flatMap c.entriesTo).Perm (c.mappings.filter fun m => outputs.contains m.output) := by
  induction outputs with
  | nil => simp
  | cons output rest ih =>
      obtain ⟨hnew, hrest⟩ := List.nodup_cons.mp hdistinct
      rw [List.flatMap_cons]
      have hparts := List.filter_append_perm (fun m : Mapping => m.output == output)
        (c.mappings.filter fun m => (output :: rest).contains m.output)
      refine List.Perm.trans ?_ hparts
      rw [List.filter_filter, List.filter_filter]
      have hfirst : (c.mappings.filter fun m =>
          m.output == output && (output :: rest).contains m.output) = c.entriesTo output := by
        refine List.filter_congr fun m _ => ?_
        by_cases h : m.output = output <;> simp [h]
      have hothers : (c.mappings.filter fun m =>
          !(m.output == output) && (output :: rest).contains m.output) =
            c.mappings.filter fun m => rest.contains m.output := by
        refine List.filter_congr fun m _ => ?_
        by_cases h : m.output = output <;> simp [h, hnew]
      rw [hfirst, hothers]
      exact (ih hrest).append_left _

/-- Whether an object is no command. -/
def Object.NoCommand : Object → Prop
  | .command _ => False
  | _ => True

namespace Scene

open Objects

variable {s : Scene}

/-- The scene with the maps of command lines before each output, or before all of them. -/
def placing (s : Scene) (mapsPerOutput : Bool) : Scene := { s with mapsPerOutput }

/-- The command line of a command. -/
def arguments (s : Scene) (c : Command) : Except Error (List Argument) :=
  s.objects.commandArgs s.texts s.mapsPerOutput c

/-- Where maps are placed shows on command lines only. -/
theorem texts_placing (hopts : s.objects.OptionsHold Object.NoCommand) :
    Texts.Agree Object.NoCommand (s.placing false).texts (s.placing true).texts := by
  have halike : Alike Object.NoCommand (s.placing false) (s.placing true) := by
    refine ⟨rfl, rfl, fun source => ?_, fun _ _ => rfl, fun _ h => h, hopts⟩
    cases source <;> trivial
  exact halike.texts

/-- With one name for each stream, the command line in both places is the same but for the place of the
maps. -/
theorem arguments_placing {c : Command} {label : Specifier → String}
    (hline : s.objects.LineHolds Object.NoCommand c)
    (hlabel : ∀ m ∈ c.mappings, s.objects.specifierText m.source.source = .ok (label m.source))
    (hfull : ∀ output ∈ c.outputs, ∃ out, s.objects.output? output = some out ∧
      (c.entriesTo output).map Mapping.source = out.maps) :
    (s.placing false).arguments c = (s.objects.layout (s.placing false).texts c).map
        (·.together (mapPairs label (c.mappings.map Mapping.source))) ∧
      (s.placing true).arguments c = (s.objects.layout (s.placing false).texts c).map
        (·.apart (c.outputs.map fun output =>
          mapPairs label ((c.entriesTo output).map Mapping.source))) := by
  have htogether : s.objects.mapArgs (c.mappings.map Mapping.source) =
      .ok (mapPairs label (c.mappings.map Mapping.source)) := by
    refine mapArgs_named fun x hx => ?_
    obtain ⟨m, hm, rfl⟩ := List.mem_map.mp hx
    exact hlabel m hm
  have hapart : ∀ output ∈ c.outputs, ∃ out, s.objects.output? output = some out ∧
      s.objects.mapArgs out.maps =
        .ok (mapPairs label ((c.entriesTo output).map Mapping.source)) := by
    intro output hin
    obtain ⟨out, hout, hmaps⟩ := hfull output hin
    refine ⟨out, hout, ?_⟩
    rw [← hmaps]
    refine mapArgs_named fun x hx => ?_
    obtain ⟨m, hm, rfl⟩ := List.mem_map.mp hx
    exact hlabel m (Command.mem_entriesTo.mp hm).1
  rw [layout_agree (texts_placing hline.filters) hline]
  refine ⟨?_, commandArgs_apart hapart⟩
  rw [← layout_agree (texts_placing hline.filters) hline]
  exact commandArgs_together htogether

/-- **Both places render the same maps as far as no other command maps to the outputs.**  The entries of
a command for an output always stand on their tracks there, in order, and they are all its tracks if and
only if no other command maps to it.  If that holds for all outputs of the command and no options hold a
command, the command line with the maps of each output before it is the one with all maps before all
outputs but for the place of the maps, with the same maps for each output in the same order and none
lost; and the one cannot be written for the same reason as the other. -/
theorem placements_agree_where_unshared {calls : List Call}
    (hcopies : ∀ call ∈ calls, call.copies = false) (hobjects : s.objects = afterCalls {} calls)
    {command : CommandId} {c : Command} (hc : s.objects.command? command = some c) :
    (∀ output ∈ c.outputs, ∃ out, s.objects.output? output = some out ∧
      (∀ m ∈ c.entriesTo output, out.maps[m.track]? = some m.source) ∧
      ((c.entriesTo output).map Mapping.track).Pairwise (· < ·) ∧
      ((c.entriesTo output).map Mapping.source = out.maps ∧
        (c.entriesTo output).map Mapping.track = List.range out.maps.length ↔
          s.objects.Unshared command output)) ∧
    (c.outputs.flatMap c.entriesTo).Perm c.mappings ∧
    ((∀ output ∈ c.outputs, s.objects.Unshared command output) →
      s.objects.LineHolds Object.NoCommand c → ∃ label : Specifier → String,
        (∀ m ∈ c.mappings, s.objects.specifierText m.source.source = .ok (label m.source)) ∧
        (s.placing false).arguments c = (s.objects.layout (s.placing false).texts c).map
          (·.together (mapPairs label (c.mappings.map Mapping.source))) ∧
        (s.placing true).arguments c = (s.objects.layout (s.placing false).texts c).map
          (·.apart (c.outputs.map fun output =>
            mapPairs label ((c.entriesTo output).map Mapping.source)))) := by
  have hs : s.objects.Sound := hobjects ▸ (sound_empty.afterCalls calls).1
  have hbooked : s.objects.Booked := hobjects ▸ booked_afterCalls sound_empty booked_empty hcopies
  have hmaps : s.objects.MapsKnown :=
    hobjects ▸ mapsKnown_afterCalls sound_empty (fun _ h => nomatch h) hcopies
  have hmember : c ∈ s.objects.commands := List.mem_of_getElem? hc
  obtain ⟨hdistinct, hthere⟩ := hbooked.outputs c hmember
  have hfull : ∀ output out, s.objects.output? output = some out →
      s.objects.Unshared command output → (c.entriesTo output).map Mapping.source = out.maps ∧
        (c.entriesTo output).map Mapping.track = List.range out.maps.length := by
    intro output out hout halone
    have hlength := (hbooked.unshared_iff hc).mp halone
    rw [tracks_of_output? hout] at hlength
    exact hbooked.entries_of_length hmember hout hlength
  refine ⟨fun output hin => ?_, ?_, fun halone hline => ?_⟩
  · obtain ⟨out, hout⟩ := Option.isSome_iff_exists.mp (hthere output hin)
    refine ⟨out, hout, fun m hm => ?_, hbooked.ordered c hmember output, fun h => ?_,
      hfull output out hout⟩
    · obtain ⟨hm, houtput⟩ := Command.mem_entriesTo.mp hm
      have hplaced := hbooked.placed c hmember m hm
      rwa [houtput, tracks_of_output? hout] at hplaced
    · have hlength := congrArg List.length h.1
      rw [List.length_map] at hlength
      rw [hbooked.unshared_iff hc, tracks_of_output? hout, hlength]
  · have hall : (c.mappings.filter fun m => c.outputs.contains m.output) = c.mappings := by
      rw [List.filter_eq_self]
      intro m hm
      simpa using hbooked.listed c hmember m hm
    have hperm := perm_entriesTo (c := c) hdistinct
    rwa [hall] at hperm
  · obtain ⟨label, hlabel⟩ := exists_labels hs hmaps hmember
    refine ⟨label, hlabel, arguments_placing hline hlabel fun output hin => ?_⟩
    obtain ⟨out, hout⟩ := Option.isSome_iff_exists.mp (hthere output hin)
    exact ⟨out, hout, (hfull output out hout (halone output hin)).1⟩

/-- A session in which one command maps to two outputs in turns, and two more commands map to a third
output both. -/
def sharingSession : List Call :=
  [.act (.newCommand .null none), .act (.newInput (.text "a.mp4") .null),
    .act (.addInput ⟨0⟩ (.object (.input ⟨0⟩))), .act (.newOutput (.text "x.mp4") .null),
    .act (.newOutput (.text "y.mp4") .null),
    .act (.addOutput ⟨0⟩ (.object (.output ⟨0⟩)) (.tuple [.tuple [.object (.input ⟨0⟩), .text "v"]])),
    .act (.addOutput ⟨0⟩ (.object (.output ⟨1⟩)) (.object (.input ⟨0⟩))),
    .act (.map ⟨0⟩ (.object (.output ⟨0⟩)) (.object (.input ⟨0⟩)) (.text "a")),
    .act (.newCommand .null none), .act (.newInput (.text "b.mp4") .null),
    .act (.addInput ⟨1⟩ (.object (.input ⟨1⟩))), .act (.newCommand .null none),
    .act (.newInput (.text "c.mp4") .null), .act (.addInput ⟨2⟩ (.object (.input ⟨2⟩))),
    .act (.newOutput (.text "z.mp4") .null),
    .act (.addOutput ⟨1⟩ (.object (.output ⟨2⟩)) (.object (.input ⟨1⟩))),
    .act (.addOutput ⟨2⟩ (.object (.output ⟨2⟩)) (.object (.input ⟨2⟩)))]

/-- The first command of the session has its outputs to itself, and its command line is the same in both
places but for the place of the maps.  The second shares its output, and has an entry for one of two
tracks. -/
theorem sharing_placements :
    ∃ s : Scene, s.objects = afterCalls {} sharingSession ∧ ∃ c d,
      s.objects.command? ⟨0⟩ = some c ∧ s.objects.command? ⟨1⟩ = some d ∧
      (∀ output ∈ c.outputs, s.objects.Unshared ⟨0⟩ output) ∧
      s.objects.LineHolds Object.NoCommand c ∧
      (∃ label, (s.placing false).arguments c = (s.objects.layout (s.placing false).texts c).map
          (·.together (mapPairs label (c.mappings.map Mapping.source))) ∧
        (s.placing true).arguments c = (s.objects.layout (s.placing false).texts c).map
          (·.apart (c.outputs.map fun output =>
            mapPairs label ((c.entriesTo output).map Mapping.source)))) ∧
      (s.placing false).arguments c = .ok (["-i", "a.mp4", "-map", "0:v", "-map", "0", "-map", "0:a",
        "x.mp4", "y.mp4"].map .text) ∧
      (s.placing true).arguments c = .ok (["-i", "a.mp4", "-map", "0:v", "-map", "0:a", "x.mp4",
        "-map", "0", "y.mp4"].map .text) ∧
      ¬ s.objects.Unshared ⟨1⟩ ⟨2⟩ := by
  have hcopies : ∀ call ∈ sharingSession, call.copies = false := by decide
  let s : Scene := ⟨afterCalls {} sharingSession, false, none⟩
  obtain ⟨c, hc⟩ : ∃ c, s.objects.command? ⟨0⟩ = some c := ⟨_, rfl⟩
  obtain ⟨d, hd⟩ : ∃ d, s.objects.command? ⟨1⟩ = some d := ⟨_, rfl⟩
  obtain ⟨houtputs, -, hlines⟩ := placements_agree_where_unshared (s := s) hcopies rfl hc
  obtain ⟨hshared, -, -⟩ := placements_agree_where_unshared (s := s) hcopies rfl hd
  have halone : ∀ output ∈ c.outputs, s.objects.Unshared ⟨0⟩ output := by
    intro output hin
    obtain ⟨out, hout, -, -, hiff⟩ := houtputs output hin
    refine hiff.mp ?_
    cases hc
    rcases List.mem_cons.mp hin with rfl | hin
    · cases hout
      exact ⟨rfl, rfl⟩
    · obtain rfl := List.mem_singleton.mp hin
      cases hout
      exact ⟨rfl, rfl⟩
  have hbare : s.objects.LineHolds Object.NoCommand c := by
    have hinputs : ∀ i ∈ s.objects.inputs, i.options.isEmpty = true := by decide
    have hfiles : ∀ out ∈ s.objects.outputs, out.options.isEmpty = true := by decide
    cases hc
    refine ⟨⟨fun f hf => ?_, fun ch hch => ?_⟩, fun e he => ?_, fun id _ i hi e he => ?_,
      fun id _ out hout e he => ?_⟩
    · cases hf
    · cases hch
    · cases he
    · rw [List.isEmpty_iff.mp (hinputs i (List.mem_of_getElem? hi))] at he
      cases he
    · rw [List.isEmpty_iff.mp (hfiles out (List.mem_of_getElem? hout))] at he
      cases he
  refine ⟨s, rfl, c, d, hc, hd, halone, hbare, ?_, ?_, ?_, fun h => ?_⟩
  · obtain ⟨label, -, hboth⟩ := hlines halone hbare
    exact ⟨label, hboth⟩
  · cases hc
    rfl
  · cases hc
    rfl
  · cases hd
    obtain ⟨out, hout, -, -, hiff⟩ := hshared ⟨2⟩ List.mem_cons_self
    cases hout
    exact absurd (congrArg List.length (hiff.mpr h).1) (by decide)

end Scene

end MediaCommand
