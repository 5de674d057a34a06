/-
What shows on a command line.

A command line can be written only if its parts can.  Read backwards, a command line that was written
shows them: the complex filter, unless it is empty, a map for each stream that is mapped, and the
arguments of each output.  A graph shows as the statements of its chains, whether it goes into the complex
filter or is the filter of an output.
-/
import MediaCommand.Proofs.ComplexFilter
import MediaCommand.Proofs.PadCounts
import MediaCommand.Proofs.Placement

namespace MediaCommand

/-- A command without the graphs that it applies to outputs. -/
def Command.unattached (c : Command) : Command :=
  { c with graphs := c.graphs.filter fun g => !c.attached.any (·.1 == g), attached := [] }

theorem Command.mem_unattached {c : Command} {g : GraphId} :
    g ∈ c.unattached.graphs ↔ g ∈ c.graphs ∧ ∀ output, (g, output) ∉ c.attached := by
  rw [Command.unattached, List.mem_filter, Bool.not_eq_true', List.any_eq_false]
  refine and_congr_right fun _ => ⟨fun h output hin => ?_, fun h e he heq => ?_⟩
  · exact h (g, output) hin (beq_self_eq_true g)
  · obtain rfl : e.1 = g := beq_iff_eq.mp heq
    exact h e.2 he

theorem Command.SoundIn.unattached {o : Objects} {c : Command} (h : c.SoundIn o) :
    c.unattached.SoundIn o :=
  ⟨h.labelled, fun g hg => h.graphs g (Command.mem_unattached.mp hg).1, h.mapped⟩

namespace Objects

variable {o : Objects}

theorem mem_of_unattached {c : Command} {id : ChainId} (h : id ∈ o.complexChains c.unattached) :
    id ∈ o.complexChains c := by
  obtain ⟨g, hg, gr, hgr, hid⟩ := mem_complexChains.mp h
  exact mem_complexChains.mpr ⟨g, (Command.mem_unattached.mp hg).1, gr, hgr, hid⟩

/-! ### Expressions of chains -/

/-- A graph that has a text is written as the statements of its chains. -/
theorem statements_of_graphText {t : Texts} {g : Graph} {text : String}
    (h : o.graphText t g = .ok text) : ∃ statements,
      g.chains.mapM (o.statement t) = .ok statements ∧
        text = ";".intercalate (statements.map Statement.text) := by
  obtain ⟨texts, htexts, -⟩ := bind_ok.mp h
  have hall : ∀ id ∈ g.chains, ∃ s, o.statement t id = .ok s := by
    intro id hid
    obtain ⟨text, -, htext⟩ := mem_of_mapM htexts hid
    obtain ⟨c, hc, hchain⟩ := bind_ok.mp htext
    obtain ⟨s, hs, -⟩ := labels_of_chainText (chain_ok.mp hc) hchain
    exact ⟨s, hs⟩
  obtain ⟨statementOf, hstatements⟩ := exists_answers hall
  refine ⟨g.chains.map statementOf, mapM_ok_map hstatements, ?_⟩
  have hwritten := graphText_of_statements hstatements
  rw [h] at hwritten
  rw [List.map_map]
  exact Except.ok.inj hwritten

/-- The graphs that go into the complex filter are those that the command applies to no output. -/
theorem complexGraphs_eq {c : Command} (hc : c.SoundIn o) :
    o.complexGraphs c = .ok (o.complexParts c.unattached) := by
  rw [← complexGraphs_unattached hc.unattached rfl]
  unfold complexGraphs Command.unattached
  simp

/-- A complex filter that can be written is the texts of the graphs that go into it. -/
theorem texts_of_complexFilter {t : Texts} {c : Command} (hc : c.SoundIn o) {text : String}
    (h : o.complexFilter t c = .ok text) : ∃ texts,
      (o.complexParts c.unattached).mapM (o.graphText t) = .ok texts ∧
        text = ";".intercalate texts := by
  obtain ⟨⟨⟩, -, hchecked⟩ := bind_ok.mp h
  obtain ⟨graphs, hgraphs, hlabels⟩ := bind_ok.mp hchecked
  rw [complexGraphs_eq hc] at hgraphs
  cases hgraphs
  obtain ⟨labels, -, hcheck⟩ := bind_ok.mp hlabels
  obtain ⟨⟨⟩, -, hwritten⟩ := bind_ok.mp hcheck
  obtain ⟨texts, htexts, htext⟩ := bind_ok.mp hwritten
  exact ⟨texts, htexts, (Except.ok.inj htext).symm⟩

/-- A complex filter that can be written is the statements of the chains that go into it. -/
theorem statements_of_complexFilter {t : Texts} {c : Command} (hc : c.SoundIn o) {text : String}
    (h : o.complexFilter t c = .ok text) : ∃ statements,
      (o.complexChains c.unattached).mapM (o.statement t) = .ok statements ∧
        text = ";".intercalate (statements.map Statement.text) := by
  obtain ⟨texts, htexts, rfl⟩ := texts_of_complexFilter hc h
  have hall : ∀ id ∈ o.complexChains c.unattached, ∃ s, o.statement t id = .ok s := by
    intro id hid
    rw [← flatMap_complexParts] at hid
    obtain ⟨g, hg, hin⟩ := List.mem_flatMap.mp hid
    obtain ⟨part, -, hpart⟩ := mem_of_mapM htexts hg
    obtain ⟨statements, hstatements, -⟩ := statements_of_graphText hpart
    obtain ⟨s, -, hs⟩ := mem_of_mapM hstatements hin
    exact ⟨s, hs⟩
  obtain ⟨statementOf, hstatements⟩ := exists_answers hall
  refine ⟨_, mapM_ok_map hstatements, ?_⟩
  obtain ⟨texts', htexts', hjoin⟩ := texts_complexParts hstatements
  rw [htexts] at htexts'
  cases htexts'
  rw [List.map_map]
  exact hjoin

/-- Among the statements of chains, the one of a chain with a place gives the name of a pad that is
referred to. -/
theorem exists_label {t : Texts} {ids : List ChainId} {statements : List Statement} {id : ChainId}
    {pad : Nat} (h : ids.mapM (o.statement t) = .ok statements) (hid : id ∈ ids)
    (placed : ∃ c k, o.chain? id = some c ∧ c.position = some k) (refers : o.Refers (.pad id pad)) :
    ∃ (k : Nat) (st : Statement) (label : String), ids[k]? = some id ∧ statements[k]? = some st ∧
      o.specifierText (.pad id pad) = .ok label ∧ label ≠ "" ∧ st.outputs[pad]? = some label := by
  obtain ⟨k, hk⟩ := List.mem_iff_getElem?.mp hid
  obtain ⟨st, hst, hstatement⟩ := getElem?_of_mapM h hk
  obtain ⟨c, position, hc, hposition⟩ := placed
  obtain ⟨c', hc', hpad⟩ := refers
  obtain rfl : c' = c := Option.some.inj (hc'.symm.trans hc)
  obtain ⟨label, hlabel, hne, hplace⟩ := name_of_statement hstatement hc hposition hpad
  exact ⟨k, st, label, hk, hst, hlabel, hne, hplace⟩

end Objects

/-! ### Parts of a command line -/

namespace Scene

open Objects

variable {s : Scene} {c : Command} {args : List Argument}

/-- The streams that the maps on a command line name. -/
def mapped (s : Scene) (c : Command) : List Specifier :=
  if s.mapsPerOutput then c.outputs.flatMap s.objects.tracks else c.mappings.map Mapping.source

/-- Where the graphs, the maps and the outputs of a command show on its command line. -/
structure LineParts (s : Scene) (c : Command) (args : List Argument) : Prop where
  complex : ∃ text, s.objects.complexFilter s.texts c = .ok text ∧
    (text ≠ "" → [.text "-filter_complex", .text text] <:+: args)
  maps : ∀ x ∈ s.mapped c, ∃ label, s.objects.specifierText x.source = .ok label ∧
    [.text "-map", .text label] <:+: args
  outputs : ∀ output ∈ c.outputs, ∃ out own, s.objects.output? output = some out ∧
    outputArgs s.texts out = .ok own ∧ own <:+: args

/-- The arguments that map streams name each of them. -/
theorem map_of_mapArgs {o : Objects} {specifiers : List Specifier} {maps : List Argument}
    {x : Specifier} (h : o.mapArgs specifiers = .ok maps) (hx : x ∈ specifiers) :
    ∃ label, o.specifierText x.source = .ok label ∧ [.text "-map", .text label] <:+: maps := by
  obtain ⟨labels, hlabels, h⟩ := bind_ok.mp h
  obtain rfl := Except.ok.inj h
  obtain ⟨label, hin, hlabel⟩ := mem_of_mapM hlabels hx
  refine ⟨label, hlabel, List.infix_of_mem_flatten ?_⟩
  exact List.mem_map_of_mem hin

theorem outputBlock_ok {o : Objects} {t : Texts} {mapsPerOutput : Bool} {id : OutputId}
    {block : List Argument} (h : o.outputBlock t mapsPerOutput id = .ok block) :
    ∃ out maps own, o.output? id = some out ∧
      (if mapsPerOutput then o.mapArgs out.maps else .ok []) = .ok maps ∧
      outputArgs t out = .ok own ∧ block = maps ++ own := by
  obtain ⟨out, hout, h⟩ := bind_ok.mp h
  dsimp only at h
  split at h <;> rename_i hmode
  · obtain ⟨maps, hmaps, h⟩ := bind_ok.mp h
    obtain ⟨own, hown, h⟩ := bind_ok.mp h
    refine ⟨out, maps, own, output_ok.mp hout, ?_, hown, (Except.ok.inj h).symm⟩
    rwa [if_pos hmode]
  · obtain ⟨maps, hmaps, h⟩ := bind_ok.mp h
    obtain ⟨own, hown, h⟩ := bind_ok.mp h
    refine ⟨out, maps, own, output_ok.mp hout, ?_, hown, (Except.ok.inj h).symm⟩
    rwa [if_neg hmode]

theorem commandArgs_ok {o : Objects} {t : Texts} {mapsPerOutput : Bool}
    (h : o.commandArgs t mapsPerOutput c = .ok args) :
    ∃ options inputs text maps blocks, optionsArgs t c.options = .ok options ∧
      c.inputs.mapM (fun id => do inputArgs t (← o.input id)) = .ok inputs ∧
      o.complexFilter t c = .ok text ∧
      (if mapsPerOutput then .ok [] else o.mapArgs (c.mappings.map Mapping.source)) = .ok maps ∧
      c.outputs.mapM (o.outputBlock t mapsPerOutput) = .ok blocks ∧
      args = options.map .text ++ inputs.flatten ++
        (if text.isEmpty then [] else [.text "-filter_complex", .text text]) ++ maps ++
          blocks.flatten := by
  obtain ⟨options, hoptions, h⟩ := bind_ok.mp h
  obtain ⟨inputs, hinputs, h⟩ := bind_ok.mp h
  obtain ⟨text, htext, h⟩ := bind_ok.mp h
  dsimp only at h
  split at h <;> rename_i hmode
  · obtain ⟨maps, hmaps, h⟩ := bind_ok.mp h
    obtain ⟨blocks, hblocks, h⟩ := bind_ok.mp h
    refine ⟨options, inputs, text, maps, blocks, hoptions, hinputs, htext, ?_, hblocks,
      (Except.ok.inj h).symm⟩
    rwa [if_pos hmode]
  · obtain ⟨maps, hmaps, h⟩ := bind_ok.mp h
    obtain ⟨blocks, hblocks, h⟩ := bind_ok.mp h
    refine ⟨options, inputs, text, maps, blocks, hoptions, hinputs, htext, ?_, hblocks,
      (Except.ok.inj h).symm⟩
    rwa [if_neg hmode]

theorem lineParts (h : s.arguments c = .ok args) : s.LineParts c args := by
  obtain ⟨options, inputs, text, maps, blocks, -, -, htext, hmaps, hblocks, rfl⟩ := commandArgs_ok h
  have hblock : ∀ output ∈ c.outputs, ∃ out before own, s.objects.output? output = some out ∧
      (if s.mapsPerOutput then s.objects.mapArgs out.maps else .ok []) = .ok before ∧
      outputArgs s.texts out = .ok own ∧ before ++ own <:+: blocks.flatten := by
    intro output hin
    obtain ⟨block, hmem, hblock⟩ := mem_of_mapM hblocks hin
    obtain ⟨out, before, own, hout, hbefore, hown, rfl⟩ := outputBlock_ok hblock
    exact ⟨out, before, own, hout, hbefore, hown, List.infix_of_mem_flatten hmem⟩
  refine ⟨⟨text, htext, fun hne => ?_⟩, fun x hx => ?_, fun output hin => ?_⟩
  · have hshown : text.isEmpty = false := String.isEmpty_eq_false_iff.mpr hne
    rw [hshown, List.append_assoc]
    exact List.infix_append _ _ _
  · unfold mapped at hx
    split at hx <;> rename_i hmode
    · obtain ⟨output, hin, htrack⟩ := List.mem_flatMap.mp hx
      obtain ⟨out, before, own, hout, hbefore, -, hstands⟩ := hblock output hin
      rw [tracks_of_output? hout] at htrack
      rw [if_pos hmode] at hbefore
      obtain ⟨label, hlabel, hnamed⟩ := map_of_mapArgs hbefore htrack
      refine ⟨label, hlabel, hnamed.trans ?_⟩
      exact ((List.prefix_append before own).isInfix.trans hstands).trans
        (List.suffix_append _ _).isInfix
    · rw [if_neg hmode] at hmaps
      obtain ⟨label, hlabel, hnamed⟩ := map_of_mapArgs hmaps hx
      exact ⟨label, hlabel, hnamed.trans (List.infix_append _ maps _)⟩
  · obtain ⟨out, before, own, hout, -, hown, hstands⟩ := hblock output hin
    refine ⟨out, own, hout, hown, ?_⟩
    exact ((List.suffix_append before own).isInfix.trans hstands).trans
      (List.suffix_append _ _).isInfix

/-- The text of a graph within a value is its expression, in a view of less depth. -/
theorem plain_graph {g : GraphId} {gr : Graph} {text : String} (hgr : s.objects.graph? g = some gr)
    (h : (Value.object (.graph g)).plain s.texts = .ok text) :
    ∃ t, s.objects.graphText t gr = .ok text := by
  obtain ⟨n, hn⟩ := s.exists_depth
  rw [texts, hn] at h
  obtain ⟨gr', hgr', htext⟩ := bind_ok.mp h
  obtain rfl : gr' = gr := Option.some.inj ((graph_ok.mp hgr').symm.trans hgr)
  exact ⟨_, htext⟩

/-- A graph that is the filter of an output has a text, which shows among the arguments of the
output. -/
theorem graphText_of_outputArgs {out : Output} {own : List Argument} {g : GraphId} {gr : Graph}
    (h : outputArgs s.texts out = .ok own) (hg : ("filter", .object (.graph g)) ∈ out.options)
    (hgr : s.objects.graph? g = some gr) : ∃ t text, s.objects.graphText t gr = .ok text ∧
      [.text "-filter", .text text] <:+: own := by
  obtain ⟨words, hwords, h⟩ := bind_ok.mp h
  obtain rfl := Except.ok.inj h
  obtain ⟨parts, hparts, hflat⟩ := bind_ok.mp hwords
  obtain rfl := Except.ok.inj hflat
  obtain ⟨part, hpart, hoption⟩ := mem_of_mapM hparts (List.mem_map_of_mem hg)
  obtain ⟨key, hkey, hrest⟩ := bind_ok.mp hoption
  obtain rfl := Except.ok.inj hkey
  obtain ⟨text, htext, hpair⟩ := bind_ok.mp hrest
  obtain ⟨t, hwritten⟩ := plain_graph hgr htext
  refine ⟨t, text, hwritten, ?_⟩
  have hstands : ["-filter", text] <:+: parts.flatten := by
    rw [← Except.ok.inj hpair] at hpart
    exact List.infix_of_mem_flatten hpart
  exact (hstands.map Argument.text).trans (List.prefix_append _ _).isInfix

end Scene

end MediaCommand
