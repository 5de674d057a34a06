/-
Graphs that are applied to one output.

The graphs of a command are written in several places: those applied to an output in the filter of that
output, the others together in the complex filter.  A label means something only in the place where it
is given.  The checks of a command look at all of its graphs at once, so they let a map, or a chain in
one place, name a pad whose label is given in another.

What is given where follows from the graphs alone.  A label stands beside its use exactly if the chain of
the pad is written in the same place, and that is so for the complex filter exactly if the chain is one
of the command and in no graph that is applied to an output.
-/
import MediaCommand.Proofs.CommandLine

namespace MediaCommand

namespace Objects

variable {o o' : Objects}

/-! ### No chain stands in two graphs -/

/-- Different graphs have different chains. -/
def GraphsApart (o : Objects) : Prop :=
  ∀ (g g' : GraphId) (gr gr' : Graph), o.graph? g = some gr → o.graph? g' = some gr' →
    ∀ id ∈ gr.chains, id ∈ gr'.chains → g = g'

theorem GraphsApart.of_graphs (h : GraphsApart o) (hsame : o'.graphs = o.graphs) :
    GraphsApart o' := by
  intro g g' gr gr' hg hg'
  rw [graph?, hsame] at hg hg'
  exact h g g' gr gr' hg hg'

/-- A chain in a graph after one is exchanged is the one it took in, or stood in that graph before. -/
theorem mem_chains_of_setGraph {graph : GraphId} {new : Graph} {added : ChainId}
    (hnew : ∀ id ∈ new.chains, id = added ∨ ∃ old, o.graph? graph = some old ∧ id ∈ old.chains)
    {g : GraphId} {gr : Graph} (hg : (o.setGraph graph new).graph? g = some gr) {id : ChainId}
    (hid : id ∈ gr.chains) :
    (g = graph ∧ id = added) ∨ ∃ old, o.graph? g = some old ∧ id ∈ old.chains := by
  by_cases hsame : g = graph
  · subst hsame
    have hthere : gr = new := by
      obtain ⟨hlt, hget⟩ := List.getElem?_eq_some_iff.mp hg
      rw [← hget]
      exact List.getElem_set_self _
    subst hthere
    rcases hnew id hid with rfl | hold
    · exact Or.inl ⟨rfl, rfl⟩
    · exact Or.inr hold
  · have hother : (o.setGraph graph new).graph? g = o.graph? g :=
      List.getElem?_set_ne (Id.index_ne hsame).symm
    exact Or.inr ⟨gr, hother ▸ hg, hid⟩

/-- A graph may take in a chain that stands in none. -/
theorem GraphsApart.setGraph (h : GraphsApart o) {graph : GraphId} {new : Graph} {added : ChainId}
    (hnew : ∀ id ∈ new.chains, id = added ∨ ∃ old, o.graph? graph = some old ∧ id ∈ old.chains)
    (hfree : ∀ g ∈ o.graphs, added ∉ g.chains) : GraphsApart (o.setGraph graph new) := by
  intro g g' gr gr' hg hg' id hid hid'
  rcases mem_chains_of_setGraph hnew hg hid with ⟨rfl, rfl⟩ | ⟨old, hold, hin⟩
  · rcases mem_chains_of_setGraph hnew hg' hid' with ⟨rfl, -⟩ | ⟨old', hold', hin'⟩
    · rfl
    · exact absurd hin' (hfree old' (List.mem_of_getElem? hold'))
  · rcases mem_chains_of_setGraph hnew hg' hid' with ⟨rfl, rfl⟩ | ⟨old', hold', hin'⟩
    · exact absurd hin (hfree old (List.mem_of_getElem? hold))
    · exact h g g' old old' hold hold' id hin hin'

/-- A graph may be made of chains that stand in none. -/
theorem GraphsApart.addGraph (h : GraphsApart o) {new : Graph}
    (hfree : ∀ id ∈ new.chains, ∀ g ∈ o.graphs, id ∉ g.chains) : GraphsApart (o.addGraph new).1 := by
  intro g g' gr gr' hg hg' id hid hid'
  rcases getElem?_concat hg with hold | ⟨hlast, rfl⟩
  · rcases getElem?_concat hg' with hold' | ⟨-, rfl⟩
    · exact h g g' gr gr' hold hold' id hid hid'
    · exact absurd hid (hfree id hid' gr (List.mem_of_getElem? hold))
  · rcases getElem?_concat hg' with hold' | ⟨hlast', -⟩
    · exact absurd hid' (hfree id hid gr' (List.mem_of_getElem? hold'))
    · by_contra hne
      exact Id.index_ne hne (hlast.trans hlast'.symm)

theorem Step.graphsApart {e : List Effect} (step : Step o e o') (hs : Sound o)
    (h : GraphsApart o) : GraphsApart o' := by
  cases step with
  | quiet q => exact h.of_graphs q.graphs
  | take | append | prepend | place | label | adopt | enter | list => exact h.of_graphs rfl
  | refer => exact h.of_graphs (chainsOnly_referTo o _ _).graphs
  | bind => exact h.of_graphs (chainsOnly_bindInputs o _ _).graphs
  | join hg hc hfree =>
      rename_i graph g id c
      have hplaced : GraphsApart (o.setChain id { c with position := some g.chains.length }) :=
        h.of_graphs rfl
      refine hplaced.setGraph (fun x hx => ?_) (hs.not_mem_of_unplaced hc hfree)
      rcases List.mem_append.mp hx with hold | hlast
      · exact Or.inr ⟨g, hg, hold⟩
      · exact Or.inl (List.mem_singleton.mp hlast)
  | gather placed new => exact h.addGraph new

/-- A chain stands in a graph that a command applies to an output. -/
def InAttached (o : Objects) (c : Command) (id : ChainId) : Prop :=
  ∃ g output gr, (g, output) ∈ c.attached ∧ o.graph? g = some gr ∧ id ∈ gr.chains

/-- The chains that go into the complex filter of a command are those of the command that stand in no
graph applied to an output. -/
theorem GraphsApart.mem_complexChains_unattached (h : GraphsApart o) {c : Command} {id : ChainId}
    (pad : Nat) : id ∈ o.complexChains c.unattached ↔
      o.Known c (.pad id pad) ∧ ¬o.InAttached c id := by
  rw [known_pad_iff, mem_complexChains, mem_complexChains]
  constructor
  · rintro ⟨g, hg, gr, hgr, hid⟩
    obtain ⟨hlisted, hfree⟩ := Command.mem_unattached.mp hg
    refine ⟨⟨g, hlisted, gr, hgr, hid⟩, ?_⟩
    rintro ⟨g', output, gr', hattached, hgr', hid'⟩
    rw [h g g' gr gr' hgr hgr' id hid hid'] at hfree
    exact hfree output hattached
  · rintro ⟨⟨g, hlisted, gr, hgr, hid⟩, hfree⟩
    refine ⟨g, Command.mem_unattached.mpr ⟨hlisted, fun output hattached => ?_⟩, gr, hgr, hid⟩
    exact hfree ⟨g, output, gr, hattached, hgr, hid⟩

/-! ### What is on a track is there -/

/-- Every stream on a track of an output is there. -/
def TracksThere (o : Objects) : Prop :=
  ∀ out ∈ o.outputs, ∀ s ∈ out.maps, o.Refers s.source

namespace TracksThere

variable (h : TracksThere o)

include h

/-- Outputs that keep their tracks, or gain streams that are there, keep the property. -/
theorem of_keeps (k : o.Keeps o') (houtputs : ∀ out' ∈ o'.outputs, ∀ s ∈ out'.maps,
    (∃ out ∈ o.outputs, s ∈ out.maps) ∨ o'.Refers s.source) : TracksThere o' := by
  intro out' hout' s hs
  rcases houtputs out' hout' s hs with ⟨out, hout, hold⟩ | hnew
  · exact k.refers (h out hout s hold)
  · exact hnew

theorem of_outputs (k : o.Keeps o') (hsame : o'.outputs = o.outputs) : TracksThere o' :=
  h.of_keeps k fun out hout _ hs => Or.inl ⟨out, hsame ▸ hout, hs⟩

theorem quiet (q : Quiet o o') : TracksThere o' := by
  refine h.of_keeps q.keeps fun out' hout' s hs => Or.inl ?_
  obtain ⟨n, hmaps⟩ := q.outputs
  have hin : out'.maps ∈ o'.outputs.map Output.maps := List.mem_map_of_mem hout'
  rw [hmaps] at hin
  rcases List.mem_append.mp hin with hold | hnew
  · obtain ⟨out, hout, heq⟩ := List.mem_map.mp hold
    exact ⟨out, hout, heq ▸ hs⟩
  · rw [List.eq_of_mem_replicate hnew] at hs
    cases hs

theorem withCopies {m : Members} (hm : m.In o) : TracksThere (o.withCopies m) := by
  intro x hx s hs
  rcases List.mem_append.mp hx with hold | hnew
  · exact (keeps_withCopies o m).refers (h x hold s hs)
  · obtain ⟨out, hout, rfl⟩ := List.mem_map.mp hnew
    obtain ⟨id, -, hid⟩ := List.mem_filterMap.mp hout
    obtain ⟨s', hs', rfl⟩ := List.mem_map.mp hs
    exact refers_copied hm (h out (List.mem_of_getElem? hid) s' hs')

end TracksThere

theorem Step.tracksThere {e : List Effect} (step : Step o e o') (h : TracksThere o) :
    TracksThere o' := by
  have k := step.keeps
  cases step with
  | quiet q => exact h.quiet q
  | take | append | prepend | place | join | gather | label | adopt | list =>
      exact h.of_outputs k rfl
  | refer => exact h.of_outputs k (chainsOnly_referTo o _ _).outputs
  | bind => exact h.of_outputs k (chainsOnly_bindInputs o _ _).outputs
  | enter hc hout known refers =>
      refine h.of_keeps k fun x hx s hs => ?_
      rcases List.mem_or_eq_of_mem_set hx with hold | rfl
      · exact Or.inl ⟨x, hold, hs⟩
      · rcases List.mem_append.mp hs with hold | hlast
        · exact Or.inl ⟨_, List.mem_of_getElem? hout, hold⟩
        · rw [List.mem_singleton.mp hlast]
          exact Or.inr (k.refers refers)

/-- What is on a track is there, whatever was called. -/
theorem tracksThere_afterCalls (calls : List Call) : TracksThere (afterCalls {} calls) := by
  have hempty : TracksThere {} := fun out hout => by cases hout
  refine invariant_afterCalls (fun step _ h => step.tracksThere h) ?_ sound_empty hempty
  intro _ _ _ o m hm h
  exact h.withCopies hm

theorem TracksThere.of_track (h : TracksThere o) {output : OutputId} {s : Specifier}
    (hs : s ∈ o.tracks output) : o.Refers s.source := by
  unfold tracks at hs
  cases hout : o.output? output with
  | none =>
      rw [hout] at hs
      cases hs
  | some out =>
      rw [hout] at hs
      exact h out (List.mem_of_getElem? hout) s hs

/-! ### Feeding chains, and telling them apart -/

/-- A stream feeds one of the chains. -/
def Feeds (o : Objects) (ids : List ChainId) (source : Source) : Prop :=
  ∃ id ∈ ids, ∃ chain, o.chain? id = some chain ∧ ∃ s ∈ chain.inputs, s.source = source

theorem Sound.refers_of_feeds (hs : Sound o) {ids : List ChainId} {source : Source}
    (h : o.Feeds ids source) : o.Refers source := by
  obtain ⟨id, -, chain, hchain, s, hin, rfl⟩ := h
  exact (hs.chain hchain).fed s hin

/-- A graph of a command is the filter of one of its outputs. -/
def AppliedTo (o : Objects) (c : Command) (output : OutputId) (g : GraphId) : Prop :=
  g ∈ c.graphs ∧ output ∈ c.outputs ∧ ∃ out, o.output? output = some out ∧
    ("filter", .object (.graph g)) ∈ out.options

/-- If the chains of a command give no label twice, a label tells its chain. -/
theorem eq_of_label {c : Command} (apart : (o.complexLabels c).Nodup) {id id' : ChainId}
    {label : String} (hid : id ∈ o.complexChains c) (hid' : id' ∈ o.complexChains c)
    (hlabel : label ∈ o.labelsAt id) (hlabel' : label ∈ o.labelsAt id') : id' = id := by
  rw [complexLabels, List.flatMap_def] at apart
  obtain ⟨k, hk⟩ := List.mem_iff_getElem?.mp hid
  obtain ⟨k', hk'⟩ := List.mem_iff_getElem?.mp hid'
  obtain ⟨i, hi⟩ := List.mem_iff_getElem?.mp hlabel
  obtain ⟨i', hi'⟩ := List.mem_iff_getElem?.mp hlabel'
  have hat : ((o.complexChains c).map o.labelsAt)[k]? = some (o.labelsAt id) := by
    rw [List.getElem?_map, hk, Option.map_some]
  have hat' : ((o.complexChains c).map o.labelsAt)[k']? = some (o.labelsAt id') := by
    rw [List.getElem?_map, hk', Option.map_some]
  obtain ⟨rfl, -⟩ := place_unique apart hat hat' hi hi'
  exact Option.some.inj (hk'.symm.trans hk)

/-- A chain whose statement has the name of a pad among its labels is the chain of the pad, if the
chains of the command give no label twice. -/
theorem Sound.chain_of_name (hs : Sound o) {c : Command} (apart : (o.complexLabels c).Nodup)
    {t : Texts} {id id' : ChainId} {pad : Nat} {st : Statement} {label : String}
    (hid : id ∈ o.complexChains c) (refers : o.Refers (.pad id pad))
    (hname : o.specifierText (.pad id pad) = .ok label) (hid' : id' ∈ o.complexChains c)
    (hst : o.statement t id' = .ok st) (hgiven : label ∈ st.outputs) : id' = id := by
  obtain ⟨chain, k, hchain, hposition⟩ := hs.placed_of_complexChains hid
  obtain ⟨chain', k', hchain', hposition'⟩ := hs.placed_of_complexChains hid'
  obtain ⟨referred, hreferred, hpad⟩ := refers
  obtain rfl : referred = chain := Option.some.inj (hreferred.symm.trans hchain)
  rw [specifierText_placed pad hchain hposition] at hname
  rw [outputs_of_statement hst hchain' hposition', ← Except.ok.inj hname] at hgiven
  obtain ⟨name, hmem, hsame⟩ := List.mem_map.mp hgiven
  obtain rfl : name = padName referred k pad := inBrackets_injective hsame
  refine eq_of_label apart hid hid' ?_ hmem
  rw [labelsAt_placed hchain hposition]
  exact List.mem_of_getElem? (getElem?_labels k hpad)

end Objects

/-! ### Labels on a command line -/

namespace Scene

open Objects

variable {s : Scene} {c : Command} {args : List Argument}

/-- The value of an option among arguments is an expression of chains: the statement of each, between
semicolons. -/
structure Expresses (s : Scene) (args : List Argument) (option : String) (ids : List ChainId)
    (statements : List Statement) : Prop where
  made : ∃ t, ids.mapM (s.objects.statement t) = .ok statements
  written : [.text option, .text (";".intercalate (statements.map Statement.text))] <:+: args

/-- A label stands behind the filters of a chain in the value of an option. -/
def GivesLabel (s : Scene) (args : List Argument) (option : String) (ids : List ChainId)
    (label : String) : Prop :=
  ∃ statements, s.Expresses args option ids statements ∧ ∃ st ∈ statements, label ∈ st.outputs

/-- The label of a pad is given in the value of an option by the statement of the chain of the pad, at
the place of the pad. -/
def GivesPad (s : Scene) (args : List Argument) (option : String) (ids : List ChainId)
    (id : ChainId) (pad : Nat) : Prop :=
  ∃ (statements : List Statement) (k : Nat) (st : Statement) (label : String),
    s.Expresses args option ids statements ∧ ids[k]? = some id ∧ statements[k]? = some st ∧
      s.objects.specifierText (.pad id pad) = .ok label ∧ st.outputs[pad]? = some label

/-- The label of a pad stands in the value of an option if the chain of the pad is written there.  If
another chain of the command is meant, the label is not there, as long as the chains of the command give
no label twice. -/
structure StandsWithChain (s : Scene) (c : Command) (args : List Argument) (option : String)
    (ids : List ChainId) (id : ChainId) (pad : Nat) : Prop where
  given : id ∈ ids → s.GivesPad args option ids id pad
  missing : id ∉ ids → s.objects.Known c (.pad id pad) → (s.objects.complexLabels c).Nodup →
    ∀ label, s.objects.specifierText (.pad id pad) = .ok label → ¬s.GivesLabel args option ids label

/-- A label that a value gives is that of a chain written there. -/
theorem not_givesLabel (hs : s.objects.Sound) {option : String} {ids : List ChainId} {id : ChainId}
    {pad : Nat} {label : String} (hids : ∀ x ∈ ids, x ∈ s.objects.complexChains c)
    (refers : s.objects.Refers (.pad id pad)) (hid : id ∉ ids)
    (known : s.objects.Known c (.pad id pad)) (apart : (s.objects.complexLabels c).Nodup)
    (hname : s.objects.specifierText (.pad id pad) = .ok label) :
    ¬s.GivesLabel args option ids label := by
  rintro ⟨statements, ⟨⟨t, hmade⟩, -⟩, st, hst, hgiven⟩
  obtain ⟨k, hk⟩ := List.mem_iff_getElem?.mp hst
  obtain ⟨id', hid', hstatement⟩ := item_of_mapM hmade hk
  have hmem := List.mem_of_getElem? hid'
  have hsame := hs.chain_of_name apart (known_pad_iff.mp known) refers hname (hids id' hmem)
    hstatement hgiven
  exact hid (hsame ▸ hmem)

/-- The complex filter on a command line gives the labels of the pads of its chains that are referred
to. -/
theorem givesPad_complex (hs : s.objects.Sound) (hc : c.SoundIn s.objects)
    (hline : s.LineParts c args) {id : ChainId} {pad : Nat}
    (hid : id ∈ s.objects.complexChains c.unattached) (refers : s.objects.Refers (.pad id pad)) :
    s.GivesPad args "-filter_complex" (s.objects.complexChains c.unattached) id pad := by
  obtain ⟨text, htext, hshown⟩ := hline.complex
  obtain ⟨statements, hmade, rfl⟩ := statements_of_complexFilter hc htext
  obtain ⟨k, st, label, hk, hst, hlabel, hne, hplace⟩ :=
    exists_label hmade hid (hs.placed_of_complexChains hid) refers
  have hwritten : st.text ≠ "" := Statement.text_ne_empty (List.mem_of_getElem? hplace) hne
  have hmem : st.text ∈ statements.map Statement.text :=
    List.mem_map_of_mem (List.mem_of_getElem? hst)
  have hexpresses := hshown (ne_empty_of_intercalate hmem hwritten)
  exact ⟨statements, k, st, label, ⟨⟨_, hmade⟩, hexpresses⟩, hk, hst, hlabel, hplace⟩

/-- The filter of an output gives the labels of the pads of its chains that are referred to. -/
theorem givesPad_filter (hs : s.objects.Sound) (hline : s.LineParts c args) {output : OutputId}
    {g : GraphId} {gr : Graph} (happlied : s.objects.AppliedTo c output g)
    (hgr : s.objects.graph? g = some gr) {id : ChainId} {pad : Nat} (hid : id ∈ gr.chains)
    (refers : s.objects.Refers (.pad id pad)) : s.GivesPad args "-filter" gr.chains id pad := by
  obtain ⟨-, hlisted, out, hout, hoption⟩ := happlied
  obtain ⟨out', own, hout', hown, hstands⟩ := hline.outputs output hlisted
  obtain rfl : out' = out := Option.some.inj (hout'.symm.trans hout)
  obtain ⟨t, text, htext, hfilter⟩ := graphText_of_outputArgs hown hoption hgr
  obtain ⟨statements, hmade, rfl⟩ := statements_of_graphText htext
  obtain ⟨k, st, label, hk, hst, hlabel, -, hplace⟩ :=
    exists_label hmade hid (hs.placed (List.mem_of_getElem? hgr) id hid) refers
  exact ⟨statements, k, st, label, ⟨⟨t, hmade⟩, hfilter.trans hstands⟩, hk, hst, hlabel, hplace⟩

/-- A stream stands on the command line outside the graphs that are applied to outputs: a map names it,
or it feeds a chain that goes into the complex filter. -/
def UsedOutside (s : Scene) (c : Command) (source : Source) : Prop :=
  (∃ x ∈ s.mapped c, x.source = source) ∨
    s.objects.Feeds (s.objects.complexChains c.unattached) source

theorem refers_of_usedOutside (hs : s.objects.Sound) (hc : c.SoundIn s.objects)
    (htracks : s.objects.TracksThere) {source : Source} (h : s.UsedOutside c source) :
    s.objects.Refers source := by
  rcases h with ⟨x, hx, rfl⟩ | hfeeds
  · unfold mapped at hx
    split at hx
    · obtain ⟨output, -, htrack⟩ := List.mem_flatMap.mp hx
      exact htracks.of_track htrack
    · obtain ⟨m, hm, rfl⟩ := List.mem_map.mp hx
      exact hc.mapped m hm
  · exact hs.refers_of_feeds hfeeds

/-- **A label stands beside its use exactly where graphs are isolated.**  If a command line can be
written, its maps, its complex filter and its outputs show on it, and what feeds a chain of any graph is
known to the command.  The label of a pad that a map names, or that feeds a chain in the complex filter,
stands in the complex filter if its chain does; and the label of a pad that feeds a chain of a graph
applied to an output stands in the filter of the output if its chain is in the same graph.  Otherwise the
label is missing there.  Without copies, what goes into the complex filter is what stands in a graph of
the command and in no graph applied to an output, and all that the command maps stands in its graphs. -/
theorem label_beside_use_iff_isolated {calls : List Call}
    (hobjects : s.objects = afterCalls {} calls) (hc : c ∈ s.objects.commands)
    (hargs : s.arguments c = .ok args) :
    s.LineParts c args ∧
    (∀ source, s.objects.Bound c source → s.objects.Known c source) ∧
    (∀ id pad, s.UsedOutside c (.pad id pad) → s.StandsWithChain c args "-filter_complex"
      (s.objects.complexChains c.unattached) id pad) ∧
    (∀ output g gr, s.objects.AppliedTo c output g → s.objects.graph? g = some gr → ∀ id pad,
      s.objects.Feeds gr.chains (.pad id pad) →
        s.StandsWithChain c args "-filter" gr.chains id pad) ∧
    ((∀ call ∈ calls, call.copies = false) →
      (∀ m ∈ c.mappings, s.objects.Known c m.source.source) ∧
      ∀ id pad, id ∈ s.objects.complexChains c.unattached ↔
        s.objects.Known c (.pad id pad) ∧ ¬s.objects.InAttached c id) := by
  have hs : s.objects.Sound := hobjects ▸ (sound_empty.afterCalls calls).1
  have htracks : s.objects.TracksThere := hobjects ▸ tracksThere_afterCalls calls
  have hsound := hs.commands c hc
  have hline := lineParts hargs
  refine ⟨hline, ?_, ?_, ?_, fun hcopies => ⟨?_, ?_⟩⟩
  · obtain ⟨text, htext, -⟩ := hline.complex
    obtain ⟨⟨⟩, hbindings, -⟩ := bind_ok.mp htext
    exact (hs.checkBindings_ok hsound).mp hbindings
  · intro id pad hused
    have refers := refers_of_usedOutside hs hsound htracks hused
    refine ⟨fun hid => givesPad_complex hs hsound hline hid refers, fun hid known apart label => ?_⟩
    exact not_givesLabel hs (fun x hx => mem_of_unattached hx) refers hid known apart
  · intro output g gr happlied hgr id pad hfeeds
    have refers := hs.refers_of_feeds hfeeds
    refine ⟨fun hid => givesPad_filter hs hline happlied hgr hid refers,
      fun hid known apart label => ?_⟩
    have hwithin : ∀ x ∈ gr.chains, x ∈ s.objects.complexChains c := fun x hx =>
      mem_complexChains.mpr ⟨g, happlied.1, gr, hgr, hx⟩
    exact not_givesLabel hs hwithin refers hid known apart
  · have hmaps : s.objects.MapsKnown :=
      hobjects ▸ mapsKnown_afterCalls sound_empty (fun _ h => nomatch h) hcopies
    exact hmaps c hc
  · have happart : s.objects.GraphsApart := by
      rw [hobjects]
      refine invariant_of_steps Step.graphsApart hcopies sound_empty ?_
      intro g g' gr gr' hg
      cases hg
    intro id pad
    exact happart.mem_complexChains_unattached pad

/-- A session with a graph applied to an output and one for the complex filter.  The latter takes a pad
of a chain in the former. -/
def crossingSession : List Call :=
  [.act (.newCommand .null none), .act (.newOutput (.text "out.mp4") .null),
    .act (.newFilter (.text "split") .null (.int 1) (.int 2)),
    .act (.newChain (.object (.filter ⟨0⟩))), .act (.outputPad ⟨0⟩ (.int 0)),
    .act (.newFilter (.text "null") .null (.int 1) (.int 1)),
    .act (.newChain (.object (.filter ⟨1⟩))),
    .act (.addInputs ⟨1⟩ (.list [.object (.specifier ⟨0⟩)])),
    .act (.newGraph (.list [.object (.chain ⟨0⟩), .object (.chain ⟨1⟩)])),
    .act (.addGraph ⟨0⟩ (.object (.graph ⟨0⟩)) (.object (.output ⟨0⟩))),
    .act (.newFilter (.text "hflip") .null (.int 1) (.int 1)),
    .act (.newChain (.object (.filter ⟨2⟩))), .act (.outputPad ⟨0⟩ (.int 1)),
    .act (.newFilter (.text "vflip") .null (.int 1) (.int 1)),
    .act (.newChain (.object (.filter ⟨3⟩))),
    .act (.addInputs ⟨3⟩ (.list [.object (.specifier ⟨1⟩)])),
    .act (.newGraph (.list [.object (.chain ⟨2⟩), .object (.chain ⟨3⟩)])),
    .act (.addGraph ⟨0⟩ (.object (.graph ⟨1⟩)) .null),
    .act (.addOutput ⟨0⟩ (.object (.output ⟨0⟩)) (.object (.chain ⟨2⟩)))]

set_option maxRecDepth 2048 in
/-- In this session the label of the mapped pad stands in the complex filter and that of the pad inside
the applied graph in the filter of the output, but the complex filter lacks the label of the pad that it
takes from there. -/
theorem crossing_label_missing :
    ∃ s : Scene, s.objects = afterCalls {} crossingSession ∧
      ∃ c ∈ s.objects.commands, ∃ args, s.arguments c = .ok args ∧
        args = ["-filter_complex", "hflip[chain0_hflip_0];[chain0_split_1]vflip",
          "-map", "[chain0_hflip_0]",
          "-filter", "split[chain0_split_0][chain0_split_1];[chain0_split_0]null",
          "out.mp4"].map .text ∧
        s.GivesPad args "-filter_complex" (s.objects.complexChains c.unattached) ⟨2⟩ 0 ∧
        s.GivesPad args "-filter" [⟨0⟩, ⟨1⟩] ⟨0⟩ 0 ∧
        ¬s.GivesLabel args "-filter_complex" (s.objects.complexChains c.unattached)
          "[chain0_split_1]" := by
  let s : Scene := ⟨afterCalls {} crossingSession, false, none⟩
  obtain ⟨c, hc⟩ : ∃ c, s.objects.command? ⟨0⟩ = some c := ⟨_, rfl⟩
  have hmember := List.mem_of_getElem? hc
  obtain ⟨args, hargs⟩ : ∃ args, s.arguments c = .ok args := by
    cases hc
    exact ⟨_, rfl⟩
  obtain ⟨-, -, houtside, hinside, -⟩ :=
    label_beside_use_iff_isolated (rfl : s.objects = afterCalls {} crossingSession) hmember hargs
  have hmapped : s.UsedOutside c (.pad ⟨2⟩ 0) := by
    cases hc
    exact Or.inl ⟨_, List.mem_cons_self, rfl⟩
  have htaken : s.UsedOutside c (.pad ⟨0⟩ 1) := by
    cases hc
    exact Or.inr ⟨⟨3⟩, by decide, _, rfl, _, List.mem_cons_self, rfl⟩
  have happlied : s.objects.AppliedTo c ⟨0⟩ ⟨0⟩ := by
    cases hc
    exact ⟨by decide, by decide, _, rfl, List.mem_cons_self⟩
  have hfeeds : s.objects.Feeds [⟨0⟩, ⟨1⟩] (.pad ⟨0⟩ 0) :=
    ⟨⟨1⟩, by decide, _, rfl, _, List.mem_cons_self, rfl⟩
  have hname : s.objects.specifierText (.pad ⟨0⟩ 1) = .ok "[chain0_split_1]" := rfl
  have hknown : s.objects.Known c (.pad ⟨0⟩ 1) := by
    cases hc
    rfl
  have hdistinct : (s.objects.complexLabels c).Nodup := by
    cases hc
    decide
  have hcomplex : s.objects.complexChains c.unattached = [⟨2⟩, ⟨3⟩] := by
    cases hc
    rfl
  refine ⟨s, rfl, c, hmember, args, hargs, ?_, ?_, ?_, ?_⟩
  · cases hc
    cases hargs
    rfl
  · refine (houtside ⟨2⟩ 0 hmapped).given ?_
    rw [hcomplex]
    decide
  · exact (hinside ⟨0⟩ ⟨0⟩ _ happlied rfl ⟨0⟩ 0 hfeeds).given (by decide)
  · refine (houtside ⟨0⟩ 1 htaken).missing ?_ hknown hdistinct _ hname
    rw [hcomplex]
    decide

end Scene

end MediaCommand
