/-
The complex filter: when it can be written, and where its labels come from.

Writing the complex filter of a command can fail for three reasons only.  A stream that feeds a chain
comes from an input that the command lacks, or from a chain that stands in none of its graphs, or two
graphs give the same label.  Everything else that could go wrong is ruled out by what holds of every
session: the graphs and their chains are there, the chains have places, and the inputs of the command
have numbers.

The options of filters are an exception.  A specifier or a command among them is put into words
together with the filter, and that may fail for reasons of its own, so options that hold objects other
than files are left out.
-/
import MediaCommand.Proofs.Mapped
import MediaCommand.Proofs.Statements

namespace MediaCommand.Objects

variable {o : Objects}

/-! ### What goes into the complex filter -/

/-- The chains in the graphs of a command, graph by graph. -/
def complexChains (o : Objects) (c : Command) : List ChainId :=
  (c.graphs.filterMap o.graph?).flatMap Graph.chains

/-- The labels that these chains give. -/
def complexLabels (o : Objects) (c : Command) : List String :=
  (o.complexChains c).flatMap o.labelsAt

/-- A stream feeds one of these chains. -/
def Bound (o : Objects) (c : Command) (source : Source) : Prop :=
  ∃ id ∈ o.complexChains c, ∃ chain, o.chain? id = some chain ∧
    ∃ s ∈ chain.inputs, s.source = source

/-- The three reasons for which a complex filter cannot be written. -/
inductive ComplexError (o : Objects) : Error → Prop
  | input (url : Option Argument) : ComplexError o (.inputNotFound url)
  | chain {id : ChainId} (h : (o.chain? id).isSome) : ComplexError o (.chainNotFound id)
  | label (label : String) : ComplexError o (.duplicateLabel label)

theorem mem_complexChains {c : Command} {id : ChainId} :
    id ∈ o.complexChains c ↔ ∃ g ∈ c.graphs, ∃ gr, o.graph? g = some gr ∧ id ∈ gr.chains := by
  simp only [complexChains, List.mem_flatMap, List.mem_filterMap]
  exact ⟨fun ⟨gr, ⟨g, hg, hgr⟩, hid⟩ => ⟨g, hg, gr, hgr, hid⟩,
    fun ⟨g, hg, gr, hgr, hid⟩ => ⟨gr, ⟨g, hg, hgr⟩, hid⟩⟩

/-- The chains that a pad may come from are those that go into the complex filter. -/
theorem known_pad_iff {c : Command} {id : ChainId} {pad : Nat} :
    o.Known c (.pad id pad) ↔ id ∈ o.complexChains c := by
  rw [mem_complexChains]
  simp only [Known, chainInGraphs, List.any_eq_true]
  refine exists_congr fun g => and_congr_right fun _ => ?_
  cases o.graph? g with
  | none => simp
  | some gr => simp

/-! ### Looking at the bound inputs -/

/-- A bound input is accepted if and only if the command knows it. -/
theorem checkBinding_ok {c : Command} {s : Specifier} :
    o.checkBinding c c.graphs s = .ok () ↔ o.Known c s.source := by
  unfold checkBinding
  cases s.source with
  | input id track => exact checkInput_ok
  | pad id pad => exact checkChain_ok

/-- A bound input that is there is refused for a reason. -/
theorem checkBinding_error {c : Command} {s : Specifier} {e : Error} (there : o.Refers s.source)
    (h : o.checkBinding c c.graphs s = .error e) : o.ComplexError e := by
  unfold checkBinding at h
  cases hsource : s.source with
  | input id track =>
      rw [hsource] at there h
      obtain ⟨i, hi⟩ := Option.isSome_iff_exists.mp there
      simp only [checkInput, input_ok.mpr hi] at h
      split at h
      · cases h
      · cases h
        exact .input i.url
  | pad id pad =>
      rw [hsource] at there h
      obtain ⟨chain, hchain, -⟩ := there
      simp only [checkChain] at h
      split at h
      · cases h
      · cases h
        exact .chain (Option.isSome_iff_exists.mpr ⟨chain, hchain⟩)

/-- The bound inputs of the graphs of a command are accepted if and only if it knows all of them. -/
theorem Sound.checkBindings_ok (hs : Sound o) {c : Command} (hc : c.SoundIn o) :
    o.checkBindings c c.graphs c.graphs = .ok () ↔
      ∀ source, o.Bound c source → o.Known c source := by
  refine ⟨?_, fun known => forM_ok.mpr fun g hg => ?_⟩
  · rintro h source ⟨id, hid, chain, hchain, s, hin, rfl⟩
    obtain ⟨g, hg, gr, hgr, hmember⟩ := mem_complexChains.mp hid
    obtain ⟨gr', hgr', hchains⟩ := bind_ok.mp (forM_ok.mp h g hg)
    obtain rfl : gr' = gr := Option.some.inj ((graph_ok.mp hgr').symm.trans hgr)
    obtain ⟨chain', hchain', hinputs⟩ := bind_ok.mp (forM_ok.mp hchains id hmember)
    obtain rfl : chain' = chain := Option.some.inj ((chain_ok.mp hchain').symm.trans hchain)
    exact checkBinding_ok.mp (forM_ok.mp hinputs s hin)
  · obtain ⟨gr, hgr⟩ := Option.isSome_iff_exists.mp (hc.graphs g hg)
    refine bind_ok.mpr ⟨gr, graph_ok.mpr hgr, forM_ok.mpr fun id hid => ?_⟩
    obtain ⟨k, hk⟩ := List.mem_iff_getElem?.mp hid
    obtain ⟨chain, hchain, -⟩ := (hs.graph hgr).placed k id hk
    refine bind_ok.mpr ⟨chain, chain_ok.mpr hchain, forM_ok.mpr fun s hin => ?_⟩
    have hbound : o.Bound c s.source :=
      ⟨id, mem_complexChains.mpr ⟨g, hg, gr, hgr, hid⟩, chain, hchain, s, hin, rfl⟩
    exact checkBinding_ok.mpr (known s.source hbound)

theorem Sound.checkBindings_error (hs : Sound o) {c : Command} (hc : c.SoundIn o) {e : Error}
    (h : o.checkBindings c c.graphs c.graphs = .error e) : o.ComplexError e := by
  obtain ⟨g, hg, h⟩ := forM_error h
  obtain ⟨gr, hgr⟩ := Option.isSome_iff_exists.mp (hc.graphs g hg)
  rw [graph_ok.mpr hgr] at h
  obtain ⟨id, hid, h⟩ := forM_error (l := gr.chains) h
  obtain ⟨k, hk⟩ := List.mem_iff_getElem?.mp hid
  obtain ⟨chain, hchain, -⟩ := (hs.graph hgr).placed k id hk
  rw [chain_ok.mpr hchain] at h
  obtain ⟨s, hin, h⟩ := forM_error (l := chain.inputs) h
  exact checkBinding_error ((hs.chain hchain).fed s hin) h

/-! ### Looking at the labels -/

/-- Labels are accepted if and only if none comes twice or came before. -/
theorem checkLabels_ok {labels : List String} : ∀ {seen : List String},
    checkLabels seen labels = .ok () ↔ labels.Nodup ∧ ∀ l ∈ labels, l ∉ seen := by
  induction labels with
  | nil => exact fun {seen} => ⟨fun _ => ⟨List.nodup_nil, by simp⟩, fun _ => rfl⟩
  | cons l rest ih =>
      intro seen
      unfold checkLabels
      split
      · rename_i hseen
        refine ⟨(nomatch ·), fun h => absurd ?_ (h.2 l List.mem_cons_self)⟩
        simpa using hseen
      · rename_i hseen
        have hl : l ∉ seen := by simpa using hseen
        rw [ih]
        refine ⟨fun ⟨hnodup, hnew⟩ => ?_, fun ⟨hnodup, hnew⟩ => ?_⟩
        · refine ⟨List.nodup_cons.mpr ⟨fun hin => hnew l hin List.mem_cons_self, hnodup⟩, ?_⟩
          intro x hx
          rcases List.mem_cons.mp hx with rfl | hrest
          · exact hl
          · exact fun hin => hnew x hrest (List.mem_cons_of_mem l hin)
        · obtain ⟨hout, hrest⟩ := List.nodup_cons.mp hnodup
          refine ⟨hrest, fun x hx hin => ?_⟩
          rcases List.mem_cons.mp hin with rfl | hold
          · exact hout hx
          · exact hnew x (List.mem_cons_of_mem l hx) hold

theorem checkLabels_error {labels : List String} {e : Error} :
    ∀ {seen : List String}, checkLabels seen labels = .error e → ∃ l, e = .duplicateLabel l := by
  induction labels with
  | nil => exact fun h => nomatch h
  | cons l rest ih =>
      intro seen h
      unfold checkLabels at h
      split at h
      · cases h
        exact ⟨l, rfl⟩
      · exact ih h

/-! ### Writing it -/

private theorem mapM_graph {graphs : List GraphId} :
    (∀ g ∈ graphs, (o.graph? g).isSome) → graphs.mapM o.graph = .ok (graphs.filterMap o.graph?) := by
  induction graphs with
  | nil => exact fun _ => rfl
  | cons g rest ih =>
      intro h
      obtain ⟨gr, hgr⟩ := Option.isSome_iff_exists.mp (h g List.mem_cons_self)
      rw [List.mapM_cons, graph_ok.mpr hgr, ih fun x hx => h x (List.mem_cons_of_mem g hx),
        List.filterMap_cons_some hgr]
      rfl

/-- The graphs that go into the complex filter of a command. -/
def complexParts (o : Objects) (c : Command) : List Graph :=
  (c.graphs.filterMap o.graph?).filter fun g => !g.chains.isEmpty

theorem complexGraphs_unattached {c : Command} (hc : c.SoundIn o) (hattached : c.attached = []) :
    o.complexGraphs c = .ok (o.complexParts c) := by
  have hall : (c.graphs.filter fun g => !c.attached.any (·.1 == g)) = c.graphs := by
    simp [hattached]
  simp only [complexGraphs, hall, mapM_graph hc.graphs, bind, Except.bind]
  rfl

theorem nonempty_of_complexParts {c : Command} {g : Graph} (hg : g ∈ o.complexParts c) :
    g.chains ≠ [] := by
  have hkept := (List.mem_filter.mp hg).2
  rintro hnil
  rw [hnil] at hkept
  cases hkept

theorem there_of_complexParts {c : Command} {g : Graph} (hg : g ∈ o.complexParts c) :
    g ∈ o.graphs := by
  obtain ⟨id, -, hget⟩ := List.mem_filterMap.mp (List.mem_filter.mp hg).1
  exact List.mem_of_getElem? hget

/-- An empty graph has no chain, so leaving it out leaves out none. -/
theorem flatMap_complexParts (o : Objects) (c : Command) :
    (o.complexParts c).flatMap Graph.chains = o.complexChains c := by
  unfold complexParts complexChains
  induction c.graphs.filterMap o.graph? with
  | nil => rfl
  | cons g rest ih =>
      by_cases hempty : g.chains = []
      · simp [hempty, ih]
      · simp [hempty, ih]

/-- The labels of the graphs, looked at one after the other, are those of the chains. -/
theorem Sound.complexLabels_ok (hs : Sound o) (c : Command) :
    ∃ labels, (o.complexParts c).mapM o.graphLabels = .ok labels ∧
      labels.flatten = o.complexLabels c := by
  refine ⟨_, mapM_ok_map fun g hg => graphLabels_placed (hs.placed (there_of_complexParts hg)), ?_⟩
  rw [complexLabels, ← flatMap_complexParts, List.flatMap_assoc, List.flatMap_def]
  simp only [List.flatMap_def]

/-- The chains that go into the complex filter have places. -/
theorem Sound.placed_of_complexChains (hs : Sound o) {c : Command} {id : ChainId}
    (h : id ∈ o.complexChains c) : ∃ chain k, o.chain? id = some chain ∧ chain.position = some k := by
  obtain ⟨g, -, gr, hgr, hid⟩ := mem_complexChains.mp h
  exact hs.placed (List.mem_of_getElem? hgr) id hid

/-- The chains that go into the complex filter have statements if the command knows what feeds them
and their filters have texts. -/
theorem Sound.exists_statements (hs : Sound o) {t : Texts} {c : Command} (hc : c.SoundIn o)
    (hfilters : ∀ chain ∈ o.chains, ∃ text, filtersText t chain = .ok text)
    (known : ∀ source, o.Bound c source → o.Known c source) :
    ∃ statementOf : ChainId → Statement,
      ∀ id ∈ o.complexChains c, o.statement t id = .ok (statementOf id) := by
  refine exists_answers fun id hid => ?_
  obtain ⟨chain, k, hchain, hposition⟩ := hs.placed_of_complexChains hid
  refine statement_answers hchain hposition (fun s hin => ?_) (hfilters chain (mem_chains hchain))
  exact hs.specifierText_of_known hc (known s.source ⟨id, hid, chain, hchain, s, hin, rfl⟩)

/-- The texts of the graphs, one after the other, are the statements of their chains between
semicolons. -/
theorem texts_complexParts {t : Texts} {c : Command} {statementOf : ChainId → Statement}
    (hstatements : ∀ id ∈ o.complexChains c, o.statement t id = .ok (statementOf id)) :
    ∃ texts, (o.complexParts c).mapM (o.graphText t) = .ok texts ∧
      ";".intercalate texts =
        ";".intercalate ((o.complexChains c).map fun id => (statementOf id).text) := by
  refine ⟨(o.complexParts c).map fun g =>
    ";".intercalate (g.chains.map fun id => (statementOf id).text), ?_, ?_⟩
  · refine mapM_ok_map fun g hg => graphText_of_statements fun id hid => hstatements id ?_
    rw [← flatMap_complexParts]
    exact List.mem_flatMap.mpr ⟨g, hg, hid⟩
  · rw [← flatMap_complexParts, List.flatMap_def, ← intercalate_flatten, List.map_map]
    · rfl
    · intro l hl
      obtain ⟨g, hg, rfl⟩ := List.mem_map.mp hl
      exact nonempty_of_complexParts hg

/-- The complex filter is the statements of the chains between semicolons. -/
theorem Sound.complexFilter_eq (hs : Sound o) {t : Texts} {c : Command} (hc : c.SoundIn o)
    (hattached : c.attached = []) {statementOf : ChainId → Statement}
    (known : ∀ source, o.Bound c source → o.Known c source) (apart : (o.complexLabels c).Nodup)
    (hstatements : ∀ id ∈ o.complexChains c, o.statement t id = .ok (statementOf id)) :
    o.complexFilter t c =
      .ok (";".intercalate ((o.complexChains c).map fun id => (statementOf id).text)) := by
  obtain ⟨labels, hlabels, hflatten⟩ := hs.complexLabels_ok c
  have hcheck : checkLabels [] labels.flatten = .ok () :=
    checkLabels_ok.mpr ⟨hflatten ▸ apart, by simp⟩
  obtain ⟨texts, htexts, hjoin⟩ := texts_complexParts hstatements
  simp only [complexFilter, (hs.checkBindings_ok hc).mpr known,
    complexGraphs_unattached hc hattached, hlabels, hcheck, htexts, bind, Except.bind]
  exact congrArg Except.ok hjoin

/-- Without one of the three reasons the complex filter can be written. -/
theorem Sound.complexFilter_ok (hs : Sound o) {t : Texts} {c : Command} (hc : c.SoundIn o)
    (hattached : c.attached = [])
    (hfilters : ∀ chain ∈ o.chains, ∃ text, filtersText t chain = .ok text) :
    (∃ text, o.complexFilter t c = .ok text) ↔
      (∀ source, o.Bound c source → o.Known c source) ∧ (o.complexLabels c).Nodup := by
  refine ⟨fun ⟨text, h⟩ => ?_, fun ⟨known, apart⟩ => ?_⟩
  · obtain ⟨⟨⟩, hbindings, h⟩ := bind_ok.mp h
    obtain ⟨gs, hgs, h⟩ := bind_ok.mp h
    obtain ⟨labels, hlabels, h⟩ := bind_ok.mp h
    obtain ⟨⟨⟩, hcheck, -⟩ := bind_ok.mp h
    rw [complexGraphs_unattached hc hattached] at hgs
    cases hgs
    obtain ⟨labels', hlabels', hflatten⟩ := hs.complexLabels_ok c
    rw [hlabels] at hlabels'
    cases hlabels'
    exact ⟨(hs.checkBindings_ok hc).mp hbindings, hflatten ▸ (checkLabels_ok.mp hcheck).1⟩
  · obtain ⟨statementOf, hstatements⟩ := hs.exists_statements hc hfilters known
    exact ⟨_, hs.complexFilter_eq hc hattached known apart hstatements⟩

theorem Sound.complexFilter_error (hs : Sound o) {t : Texts} {c : Command} (hc : c.SoundIn o)
    (hattached : c.attached = [])
    (hfilters : ∀ chain ∈ o.chains, ∃ text, filtersText t chain = .ok text) {e : Error}
    (h : o.complexFilter t c = .error e) : o.ComplexError e := by
  -- Each check is passed before the next is made, and a filter that passes both has a text.
  cases hbindings : o.checkBindings c c.graphs c.graphs with
  | error e' =>
      simp only [complexFilter, hbindings, bind, Except.bind] at h
      cases h
      exact hs.checkBindings_error hc hbindings
  | ok u =>
      obtain ⟨labels, hlabels, hflatten⟩ := hs.complexLabels_ok c
      cases hcheck : checkLabels [] labels.flatten with
      | error e' =>
          simp only [complexFilter, hbindings, complexGraphs_unattached hc hattached, hlabels,
            hcheck, bind, Except.bind] at h
          cases h
          obtain ⟨l, rfl⟩ := checkLabels_error hcheck
          exact .label l
      | ok u =>
          obtain ⟨text, htext⟩ := (hs.complexFilter_ok hc hattached hfilters).mpr
            ⟨(hs.checkBindings_ok hc).mp hbindings, hflatten ▸ (checkLabels_ok.mp hcheck).1⟩
          rw [htext] at h
          cases h

/-! ### Where a label comes from -/

theorem inBrackets_injective : Function.Injective fun l : String => "[" ++ l ++ "]" := by
  intro a b h
  simpa using h

/-- A pad that is referred to has a label, and its chain gives it, there only. -/
theorem Sound.given_once (hs : Sound o) {t : Texts} {c : Command}
    {statementOf : ChainId → Statement}
    (hstatements : ∀ id ∈ o.complexChains c, o.statement t id = .ok (statementOf id))
    (apart : (o.complexLabels c).Nodup) {id : ChainId} {pad : Nat} (hid : id ∈ o.complexChains c)
    (refers : o.Refers (.pad id pad)) :
    ∃ label k, o.specifierText (.pad id pad) = .ok label ∧ (o.complexChains c)[k]? = some id ∧
      GivenOnce ((o.complexChains c).map statementOf) label k pad := by
  have houtputs : ∀ id ∈ o.complexChains c,
      (statementOf id).outputs = (o.labelsAt id).map fun l => "[" ++ l ++ "]" := by
    intro id hid
    obtain ⟨chain, k, hchain, hposition⟩ := hs.placed_of_complexChains hid
    exact outputs_of_statement (hstatements id hid) hchain hposition
  have hmap : ((o.complexChains c).map statementOf).map Statement.outputs
      = (o.complexChains c).map fun id => (o.labelsAt id).map fun l => "[" ++ l ++ "]" := by
    rw [List.map_map]
    exact List.map_congr_left houtputs
  -- Brackets around labels leave different ones different.
  have hnodup : (((o.complexChains c).map statementOf).map Statement.outputs).flatten.Nodup := by
    rw [hmap, ← List.flatMap_def, ← List.map_flatMap]
    exact apart.map inBrackets_injective
  obtain ⟨k, hk⟩ := List.mem_iff_getElem?.mp hid
  obtain ⟨chain, hchain, hpad⟩ := refers
  obtain ⟨chain', position, hchain', hposition⟩ := hs.placed_of_complexChains hid
  obtain rfl : chain' = chain := Option.some.inj (hchain'.symm.trans hchain)
  obtain ⟨label, hlabel, -, hplace⟩ := name_of_statement (hstatements id hid) hchain hposition hpad
  refine ⟨label, k, hlabel, hk, givenOnce_of_nodup hnodup ?_ hplace⟩
  rw [List.getElem?_map, hk, Option.map_some]

end MediaCommand.Objects

namespace MediaCommand.Scene

open Objects

variable {s : Scene}

/-- A reason for which a complex filter cannot be written has a wording, so it is what is reported. -/
theorem report_complexError (hfiles : s.objects.OptionsHoldFiles) {e : Error}
    (h : s.objects.ComplexError e) : ∃ words, s.report e = (e, some words) := by
  obtain ⟨words, hwords⟩ : ∃ words, s.objects.describe s.texts e = .ok (some words) := by
    cases h with
    | input url => exact ⟨_, rfl⟩
    | chain hthere =>
        obtain ⟨chain, hchain⟩ := Option.isSome_iff_exists.mp hthere
        obtain ⟨filters, hfilters⟩ := filtersText_answers hfiles (mem_chains hchain)
        refine ⟨"Filter chain '" ++ filters ++
          "' is not a part of any filtergraph of the command", ?_⟩
        simp only [describe, describeGraphError, describeCommandError,
          namedFilters_of_chain s.texts hchain, hfilters, bind, Except.bind]
        rfl
    | label l => exact ⟨_, rfl⟩
  obtain ⟨n, hn⟩ := s.exists_depth
  refine ⟨words, ?_⟩
  unfold Scene.report
  rw [hn]
  simp only [Objects.report, hwords]

/-- **The complex filter fails for three reasons only, and gives each label once.**  It can be written
if and only if the command knows every stream that feeds a chain of its graphs and no label comes
twice.  What is written is one statement for each chain, and a pad that feeds a chain or is mapped has
its label from the statement of its chain, at the place of the pad, and from nowhere else. -/
theorem complexFilter_gives_labels_once {calls : List Call} {c : Command}
    (hcopies : ∀ call ∈ calls, call.copies = false) (hobjects : s.objects = afterCalls {} calls)
    (hfiles : s.objects.OptionsHoldFiles) (hc : c ∈ s.objects.commands)
    (hattached : c.attached = []) :
    ((∃ text, s.objects.complexFilter s.texts c = .ok text) ↔
        (∀ source, s.objects.Bound c source → s.objects.Known c source) ∧
          (s.objects.complexLabels c).Nodup) ∧
      (∀ e, s.objects.complexFilter s.texts c = .error e →
        s.objects.ComplexError e ∧ ∃ words, s.report e = (e, some words)) ∧
      ∀ text, s.objects.complexFilter s.texts c = .ok text → ∃ statements,
        (s.objects.complexChains c).mapM (s.objects.statement s.texts) = .ok statements ∧
        text = ";".intercalate (statements.map Statement.text) ∧
        ∀ id pad, s.objects.Bound c (.pad id pad) ∨
            (∃ m ∈ c.mappings, m.source.source = .pad id pad) →
          ∃ label k, s.objects.specifierText (.pad id pad) = .ok label ∧
            (s.objects.complexChains c)[k]? = some id ∧ GivenOnce statements label k pad := by
  have hs : s.objects.Sound := hobjects ▸ (sound_empty.afterCalls calls).1
  have hmaps : s.objects.MapsKnown :=
    hobjects ▸ mapsKnown_afterCalls sound_empty (fun _ h => nomatch h) hcopies
  have hsound := hs.commands c hc
  have hfilters : ∀ chain ∈ s.objects.chains, ∃ text, filtersText s.texts chain = .ok text :=
    fun _ hchain => filtersText_answers hfiles hchain
  have hiff := hs.complexFilter_ok (t := s.texts) hsound hattached hfilters
  refine ⟨hiff, fun e he => ?_, fun text htext => ?_⟩
  · have hreason := hs.complexFilter_error hsound hattached hfilters he
    exact ⟨hreason, report_complexError hfiles hreason⟩
  · obtain ⟨known, apart⟩ := hiff.mp ⟨text, htext⟩
    obtain ⟨statementOf, hall⟩ := hs.exists_statements hsound hfilters known
    rw [hs.complexFilter_eq hsound hattached known apart hall] at htext
    cases htext
    refine ⟨(s.objects.complexChains c).map statementOf, mapM_ok_map hall, ?_, ?_⟩
    · rw [List.map_map]
      rfl
    · intro id pad hlisted
      have hboth : s.objects.Known c (.pad id pad) ∧ s.objects.Refers (.pad id pad) := by
        rcases hlisted with hbound | ⟨m, hm, hsource⟩
        · have hknown := known _ hbound
          obtain ⟨_, -, chain, hchain, specifier, hin, hsource⟩ := hbound
          exact ⟨hknown, hsource ▸ (hs.chain hchain).fed specifier hin⟩
        · exact ⟨hsource ▸ hmaps c hc m hm, hsource ▸ hsound.mapped m hm⟩
      exact hs.given_once hall apart (known_pad_iff.mp hboth.1) hboth.2

/-- In the session with the split chain the complex filter can be written, and the labels of the mapped
pad and of the bound one each come from one place. -/
theorem split_complexFilter_gives_labels_once :
    ∃ s : Scene, s.objects = afterCalls {} splitSession ∧ s.objects.OptionsHoldFiles ∧
      ∃ c ∈ s.objects.commands, c.attached = [] ∧
        s.objects.complexFilter s.texts c =
          .ok "split[chain0_split_0][chain0_split_1];[chain0_split_1]null[chain1_null_0]" ∧
        ∃ statements, (s.objects.complexChains c).mapM (s.objects.statement s.texts)
            = .ok statements ∧
          (∃ label k, s.objects.specifierText (.pad ⟨1⟩ 0) = .ok label ∧
            (s.objects.complexChains c)[k]? = some ⟨1⟩ ∧ GivenOnce statements label k 0) ∧
          ∃ label k, s.objects.specifierText (.pad ⟨0⟩ 1) = .ok label ∧
            (s.objects.complexChains c)[k]? = some ⟨0⟩ ∧ GivenOnce statements label k 1 := by
  have hcopies : ∀ call ∈ splitSession, call.copies = false := by decide
  let s : Scene := ⟨afterCalls {} splitSession, false, none⟩
  have hbare : ∀ c ∈ s.objects.chains, ∀ f ∈ c.filters, f.options.isEmpty = true := by decide
  have hfiles : s.objects.OptionsHoldFiles := by
    intro c hc f hf e he
    rw [List.isEmpty_iff.mp (hbare c hc f hf)] at he
    cases he
  obtain ⟨c, hc⟩ : ∃ c, s.objects.command? ⟨0⟩ = some c := ⟨_, rfl⟩
  have hmember := List.mem_of_getElem? hc
  have htext : s.objects.complexFilter s.texts c =
      .ok "split[chain0_split_0][chain0_split_1];[chain0_split_1]null[chain1_null_0]" := by
    cases hc
    rfl
  have hattached : c.attached = [] := by
    cases hc
    rfl
  obtain ⟨-, -, hlabels⟩ :=
    complexFilter_gives_labels_once hcopies (rfl : s.objects = _) hfiles hmember hattached
  obtain ⟨statements, hstatements, -, honce⟩ := hlabels _ htext
  refine ⟨s, rfl, hfiles, c, hmember, hattached, htext, statements, hstatements,
    honce ⟨1⟩ 0 (Or.inr ?_), honce ⟨0⟩ 1 (Or.inl ?_)⟩
  · cases hc
    exact ⟨_, List.mem_cons_self, rfl⟩
  · cases hc
    exact ⟨⟨1⟩, List.mem_cons_of_mem _ List.mem_cons_self, _, rfl, _, List.mem_cons_self, rfl⟩

/-! ### Options that have no text -/

/-- Whether an object is a part of a graph, or a graph. -/
def isGraphObject : Object → Bool
  | .filter _ => true
  | .chain _ => true
  | .graph _ => true
  | _ => false

/-- A session in which a graph is added to a command, and the only filter of the graph has an object
among its options. -/
def optionSession (making : List Call) (x : Object) : List Call :=
  .act (.newCommand .null none) :: making ++
    [.act (.newFilter (.text "null") (.dict [(.text "k", .object x)]) (.int 1) (.int 1)),
      .act (.newChain (.object (.filter ⟨0⟩))),
      .act (.newGraph (.list [.object (.chain ⟨0⟩)])),
      .act (.addGraph ⟨0⟩ (.object (.graph ⟨0⟩)) .null)]

/-- A session with a stream of an input that no command has numbered among the options. -/
def streamOptionSession : List Call :=
  optionSession [.act (.newInput (.text "a.mp4") .null), .act (.inputStream ⟨0⟩ .null)]
    (.specifier ⟨0⟩)

/-- A session with a command among the options that has no command line to show, because its output is
named by bytes. -/
def commandOptionSession : List Call :=
  optionSession [.act (.newCommand .null none), .act (.newOutput (.bytes [120]) .null),
    .act (.addOutput ⟨1⟩ (.object (.output ⟨0⟩)) .null)] (.command ⟨1⟩)

/-- The complex filter of a command fails although the command knows whatever feeds its chains, no
label comes twice, and the options hold no filters, chains or graphs. -/
def FailsForOptions (calls : List Call) (e : Error) : Prop :=
  ∃ s : Scene, s.objects = afterCalls {} calls ∧
    (∀ c ∈ s.objects.chains, ∀ f ∈ c.filters, ∀ e ∈ f.options, ∀ x ∈ e.2.objects,
      isGraphObject x = false) ∧
    ∃ c ∈ s.objects.commands, c.attached = [] ∧
      (∀ source, s.objects.Bound c source → s.objects.Known c source) ∧
      (s.objects.complexLabels c).Nodup ∧ s.objects.complexFilter s.texts c = .error e

theorem known_of_unfed (h : ∀ c ∈ s.objects.chains, c.inputs.isEmpty = true) {c : Command}
    (source : Source) (hbound : s.objects.Bound c source) : s.objects.Known c source := by
  obtain ⟨_, -, chain, hchain, _, hin, -⟩ := hbound
  rw [List.isEmpty_iff.mp (h chain (mem_chains hchain))] at hin
  cases hin

/-- A stream or a command among the options keeps the complex filter from being written: the one for
an input that feeds no chain, the other for none of the three reasons. -/
theorem complexFilter_fails_for_options :
    FailsForOptions streamOptionSession (.inputNotFound (some (.text "a.mp4"))) ∧
      FailsForOptions commandOptionSession (.fault .wrongType) ∧
      ∀ o : Objects, ¬o.ComplexError (.fault .wrongType) := by
  refine ⟨⟨⟨_, false, none⟩, rfl, by decide, _, List.mem_cons_self, rfl,
      known_of_unfed (by decide), by decide, rfl⟩,
    ⟨⟨_, false, none⟩, rfl, by decide, _, List.mem_cons_self, rfl,
      known_of_unfed (by decide), by decide, rfl⟩, fun o h => ?_⟩
  cases h

end MediaCommand.Scene
