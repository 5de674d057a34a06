/-
Where the graphs of a command are written.

A graph goes into the complex filter, or it is written as the filter of the output that it is attached
to; an empty graph has nothing to write.  Whether a graph is attached is looked up among the notes of the
command, and what an output writes is looked up in its options, and the two do not always agree.  A graph
that was displaced from its output is still noted as attached, so it is written nowhere.  An empty graph
is kept out of the complex filter, but an output does not ask whether its filter is empty.

Apart from these two, and from graphs that reach an output of the command in another way, each graph is
written exactly once, where it belongs.
-/
import MediaCommand.Proofs.Attachment
import MediaCommand.Proofs.CommandLine

namespace MediaCommand

/-- The output that a command notes for a graph. -/
def Command.target? (c : Command) (g : GraphId) : Option OutputId :=
  (c.attached.find? fun e => e.1 == g).map (·.2)

theorem Command.mem_of_target? {c : Command} {g : GraphId} {output : OutputId}
    (h : c.target? g = some output) : (g, output) ∈ c.attached := by
  obtain ⟨e, he, rfl⟩ := Option.map_eq_some_iff.mp h
  obtain rfl : e.1 = g := by simpa using List.find?_some he
  exact List.mem_of_find?_eq_some he

/-- A command that notes each graph once notes nothing else for it. -/
theorem Command.Tidy.target? {c : Command} (h : c.Tidy) {g : GraphId} {output : OutputId}
    (hin : (g, output) ∈ c.attached) : c.target? g = some output := by
  cases htarget : c.target? g with
  | none =>
      rw [Command.target?, Option.map_eq_none_iff] at htarget
      simpa using List.find?_eq_none.mp htarget (g, output) hin
  | some other =>
      have hother := Command.mem_of_target? htarget
      have hdistinct : (c.attached.map Prod.fst).Nodup := h.attached.nodup h.graphs
      have hsame := List.inj_on_of_nodup_map hdistinct hother hin rfl
      cases hsame
      rfl

theorem Command.target?_eq_none {c : Command} {g : GraphId} (h : ∀ output, (g, output) ∉ c.attached) :
    c.target? g = none := by
  cases htarget : c.target? g with
  | none => rfl
  | some output => exact absurd (Command.mem_of_target? htarget) (h output)

namespace Objects

variable {o : Objects}

/-! ### What is written -/

/-- Whether a graph is there and not empty. -/
def hasChains (o : Objects) (g : GraphId) : Bool :=
  match o.graph? g with
  | some gr => !gr.chains.isEmpty
  | none => false

/-- The graphs that go into the complex filter of a command. -/
def complexIds (o : Objects) (c : Command) : List GraphId := c.unattached.graphs.filter o.hasChains

/-- The graphs that an output has as its filter. -/
def filtering (o : Objects) (output : OutputId) : List GraphId :=
  (o.filterValues output).filterMap fun v =>
    match v with
    | .object (.graph g) => some g
    | _ => none

/-- The graphs on the command line of a command, in their order: those in the complex filter, and those
that are filters, each with its output. -/
def written (o : Objects) (c : Command) : List (GraphId × Option OutputId) :=
  (o.complexIds c).map (·, none) ++
    c.outputs.flatMap fun output => (o.filtering output).map (·, some output)

/-- Each graph of a command is written once, in the complex filter or for the output that it is attached
to, and an empty one is not written. -/
def WrittenOnce (o : Objects) (c : Command) : Prop :=
  ∀ g ∈ c.graphs, (o.written c).filter (·.1 == g) =
    if o.hasChains g then [(g, c.target? g)] else []

theorem mem_complexIds {c : Command} {g : GraphId} : g ∈ o.complexIds c ↔
    g ∈ c.graphs ∧ (∀ output, (g, output) ∉ c.attached) ∧ o.hasChains g := by
  rw [complexIds, List.mem_filter, Command.mem_unattached, and_assoc]

theorem mem_written {c : Command} {g : GraphId} {target : Option OutputId} :
    (g, target) ∈ o.written c ↔ (target = none ∧ g ∈ o.complexIds c) ∨
      ∃ output ∈ c.outputs, target = some output ∧ g ∈ o.filtering output := by
  simp only [written, List.mem_append, List.mem_map, List.mem_flatMap, Prod.mk.injEq]
  constructor
  · rintro (⟨x, hx, rfl, rfl⟩ | ⟨output, hin, x, hx, rfl, rfl⟩)
    · exact Or.inl ⟨rfl, hx⟩
    · exact Or.inr ⟨output, hin, rfl, hx⟩
  · rintro (⟨rfl, hx⟩ | ⟨output, hin, rfl, hx⟩)
    · exact Or.inl ⟨g, hx, rfl, rfl⟩
    · exact Or.inr ⟨output, hin, g, hx, rfl, rfl⟩

/-- An output whose filter is a graph, or that has none, has that graph and no other. -/
theorem Filtered.filtering {output : OutputId} {g? : Option GraphId} (h : o.Filtered output g?) :
    o.filtering output = g?.toList := by
  rw [Objects.filtering, h]
  cases g? <;> rfl

/-- The places at which a graph is written. -/
theorem filter_written (o : Objects) (c : Command) (g : GraphId) :
    (o.written c).filter (·.1 == g) =
      ((o.complexIds c).filter (· == g)).map (·, none) ++
        c.outputs.flatMap fun output => ((o.filtering output).filter (· == g)).map (·, some output) := by
  rw [written, List.filter_append, List.filter_map, List.filter_flatMap]
  congr 1
  refine List.flatMap_congr fun output _ => ?_
  rw [List.filter_map]
  rfl

theorem filter_eq_nil_of_not_mem {l : List GraphId} {g : GraphId} (h : g ∉ l) :
    l.filter (· == g) = [] :=
  List.filter_eq_nil_iff.mpr fun _ hx heq => h (beq_iff_eq.mp heq ▸ hx)

theorem filter_eq_of_nodup {l : List GraphId} {g : GraphId} (h : l.Nodup) (hg : g ∈ l) :
    l.filter (· == g) = [g] := by
  rw [List.filter_beq, List.count_eq_one_of_mem h hg, List.replicate_one]

/-- Where only one item of a list gives anything, it gives all. -/
theorem flatMap_of_single {α β : Type} {f : α → List β} {a : α} {l : List α} :
    l.Nodup → a ∈ l → (∀ x ∈ l, x ≠ a → f x = []) → l.flatMap f = f a := by
  induction l with
  | nil => exact fun _ ha => nomatch ha
  | cons x rest ih =>
      intro hnodup ha hother
      obtain ⟨hnew, hrest⟩ := List.nodup_cons.mp hnodup
      rw [List.flatMap_cons]
      rcases List.mem_cons.mp ha with rfl | hin
      · have hnone : rest.flatMap f = [] := List.flatMap_eq_nil_iff.mpr fun y hy =>
          hother y (List.mem_cons_of_mem a hy) fun heq => hnew (heq ▸ hy)
        rw [hnone, List.append_nil]
      · have hfirst : f x = [] := hother x List.mem_cons_self fun heq => hnew (heq ▸ hin)
        rw [hfirst, List.nil_append]
        exact ih hrest hin fun y hy => hother y (List.mem_cons_of_mem x hy)

/-- A graph that is noted for an output, and is the filter of no other, is written as often as it is the
filter of that one. -/
theorem filter_written_attached {c : Command} (tidy : c.Tidy) {g : GraphId} {output : OutputId}
    (hin : (g, output) ∈ c.attached) (hlisted : output ∈ c.outputs)
    (hown : ∀ x ∈ c.outputs, g ∈ o.filtering x → (g, x) ∈ c.attached) :
    (o.written c).filter (·.1 == g) =
      ((o.filtering output).filter (· == g)).map (·, some output) := by
  have hcomplex : g ∉ o.complexIds c := fun hmem => (mem_complexIds.mp hmem).2.1 output hin
  have hothers : ∀ x ∈ c.outputs, x ≠ output →
      ((o.filtering x).filter (· == g)).map (·, some x) = [] := by
    intro x hx hne
    have hnot : g ∉ o.filtering x := fun hmem => by
      have htarget := (tidy.target? (hown x hx hmem)).symm.trans (tidy.target? hin)
      exact hne (Option.some.inj htarget)
    rw [filter_eq_nil_of_not_mem hnot, List.map_nil]
  rw [filter_written, filter_eq_nil_of_not_mem hcomplex, List.map_nil, List.nil_append]
  exact flatMap_of_single tidy.outputs hlisted hothers

/-- A graph that is noted for no output, and is the filter of none, is written in the complex filter
unless it is empty. -/
theorem filter_written_unattached {c : Command} (tidy : c.Tidy) {g : GraphId} (hg : g ∈ c.graphs)
    (hfree : ∀ output, (g, output) ∉ c.attached) (hown : ∀ x ∈ c.outputs, g ∉ o.filtering x) :
    (o.written c).filter (·.1 == g) = if o.hasChains g then [(g, none)] else [] := by
  have hnone : (c.outputs.flatMap fun output =>
      ((o.filtering output).filter (· == g)).map (·, some output)) = [] := by
    refine List.flatMap_eq_nil_iff.mpr fun output hout => ?_
    rw [filter_eq_nil_of_not_mem (hown output hout), List.map_nil]
  rw [filter_written, hnone, List.append_nil]
  by_cases hchains : o.hasChains g = true
  · have hdistinct : (o.complexIds c).Nodup := (tidy.graphs.filter _).filter _
    rw [if_pos hchains, filter_eq_of_nodup hdistinct (mem_complexIds.mpr ⟨hg, hfree, hchains⟩)]
    rfl
  · have hnot : g ∉ o.complexIds c := fun hmem => hchains (mem_complexIds.mp hmem).2.2
    rw [if_neg hchains, filter_eq_nil_of_not_mem hnot, List.map_nil]

/-- A graph that is written once is so if it is not empty, at its place and nowhere else. -/
theorem WrittenOnce.mem_iff {c : Command} (h : o.WrittenOnce c) {g : GraphId} (hg : g ∈ c.graphs)
    {target : Option OutputId} :
    (g, target) ∈ o.written c ↔ o.hasChains g = true ∧ target = c.target? g := by
  have hmem : (g, target) ∈ o.written c ↔ (g, target) ∈ (o.written c).filter (·.1 == g) := by
    rw [List.mem_filter]
    exact ⟨fun hin => ⟨hin, beq_self_eq_true g⟩, And.left⟩
  rw [hmem, h g hg]
  split <;> simp_all

/-- **Each graph is written once, where it belongs, just if the notes and the options agree**: a graph
that is noted for an output is its filter unless it is empty, and no graph of the command is the filter of
an output that it is not noted for. -/
theorem writtenOnce_iff {c : Command} (tidy : c.Tidy) (hadded : ∀ e ∈ c.attached, e.2 ∈ c.outputs)
    (last : OutputId → Option GraphId) (hlast : ∀ e ∈ c.attached, o.Filtered e.2 (last e.2)) :
    o.WrittenOnce c ↔
      (∀ e ∈ c.attached, last e.2 = some e.1 ↔ o.hasChains e.1 = true) ∧
        ∀ output ∈ c.outputs, ∀ g ∈ o.filtering output, g ∈ c.graphs → (g, output) ∈ c.attached := by
  constructor
  · intro h
    refine ⟨fun e he => ?_, fun output hout g hg hin => ?_⟩
    · have hgraph : e.1 ∈ c.graphs := tidy.attached.mem (List.mem_map_of_mem he)
      have hshown : (e.1, some e.2) ∈ o.written c ↔ last e.2 = some e.1 := by
        rw [mem_written, ← Option.mem_toList, ← (hlast e he).filtering]
        refine ⟨?_, fun hg => Or.inr ⟨e.2, hadded e he, rfl, hg⟩⟩
        rintro (⟨hnone, -⟩ | ⟨output, -, heq, hg⟩)
        · cases hnone
        · cases heq
          exact hg
      rw [← hshown, h.mem_iff hgraph, tidy.target? he]
      exact and_iff_left rfl
    · have hshown : (g, some output) ∈ o.written c := mem_written.mpr (Or.inr ⟨output, hout, rfl, hg⟩)
      exact Command.mem_of_target? ((h.mem_iff hin).mp hshown).2.symm
  · rintro ⟨hkept, hown⟩ g hg
    by_cases hattached : ∃ output, (g, output) ∈ c.attached
    · obtain ⟨output, hin⟩ := hattached
      rw [filter_written_attached tidy hin (hadded _ hin) fun x hx hmem => hown x hx g hmem hg,
        tidy.target? hin, (hlast _ hin).filtering]
      by_cases hchains : o.hasChains g = true
      · rw [if_pos hchains, (hkept _ hin).mpr hchains]
        simp
      · have hnot : g ∉ (last output).toList := fun hmem =>
          hchains ((hkept _ hin).mp (Option.mem_toList.mp hmem))
        rw [if_neg hchains, filter_eq_nil_of_not_mem hnot, List.map_nil]
    · have hfree : ∀ output, (g, output) ∉ c.attached := fun output hin => hattached ⟨output, hin⟩
      rw [Command.target?_eq_none hfree]
      exact filter_written_unattached tidy hg hfree fun x hx hmem =>
        hfree x (hown x hx g hmem hg)

/-! ### Texts of graphs -/

/-- The text of filters that have names is not empty. -/
theorem filtersText_ne_empty {t : Texts} {c : Chain} {text : String}
    (named : ∀ f ∈ c.filters, f.name ≠ "") (h : filtersText t c = .ok text) : text ≠ "" := by
  obtain ⟨texts, htexts, h⟩ := bind_ok.mp h
  obtain ⟨f, hf⟩ := List.exists_mem_of_ne_nil c.filters c.nonempty
  obtain ⟨expression, hin, hexpression⟩ := mem_of_mapM htexts hf
  rw [← Except.ok.inj h]
  refine ne_empty_of_intercalate hin ?_
  unfold Filter.expression Expression.filter at hexpression
  split at hexpression
  · rw [← Except.ok.inj hexpression]
    exact named f hf
  · obtain ⟨options, -, hexpression⟩ := bind_ok.mp hexpression
    rw [← Except.ok.inj hexpression]
    intro hempty
    exact named f hf (String.append_eq_empty_iff.mp (String.append_eq_empty_iff.mp hempty).1).1

/-- The text of a graph with a chain is not empty. -/
theorem Named.graphText_ne_empty (named : o.Named) {t : Texts} {g : Graph} {text : String}
    (hchains : g.chains ≠ []) (h : o.graphText t g = .ok text) : text ≠ "" := by
  obtain ⟨statements, hstatements, rfl⟩ := statements_of_graphText h
  obtain ⟨id, hid⟩ := List.exists_mem_of_ne_nil g.chains hchains
  obtain ⟨st, hin, hst⟩ := mem_of_mapM hstatements hid
  refine ne_empty_of_intercalate (List.mem_map_of_mem hin) ?_
  obtain ⟨c, inputs, filters, outputs, hc, -, hfilters, -, rfl⟩ := statement_ok.mp hst
  have hwritten := filtersText_ne_empty (named.chains c (mem_chains hc)) hfilters
  intro hempty
  exact hwritten (String.append_eq_empty_iff.mp (String.append_eq_empty_iff.mp hempty).1).2

/-- The graphs that go into the complex filter are those that are looked at when it is written. -/
theorem complexParts_eq (o : Objects) (c : Command) :
    o.complexParts c.unattached = (o.complexIds c).filterMap o.graph? := by
  unfold complexParts complexIds
  induction c.unattached.graphs with
  | nil => rfl
  | cons g rest ih =>
      cases hg : o.graph? g with
      | none => simp [hasChains, hg, ih]
      | some gr => cases hempty : gr.chains.isEmpty <;> simp [hasChains, hg, hempty, ih]

/-- What is done with the objects that are there is done for their identities. -/
theorem forall₂_filterMap {α β γ : Type} {look : α → Option β} {R : β → γ → Prop} {ids : List α} :
    ∀ {ys : List γ}, (∀ id ∈ ids, (look id).isSome) → List.Forall₂ R (ids.filterMap look) ys →
      List.Forall₂ (fun id y => ∃ x, look id = some x ∧ R x y) ids ys := by
  induction ids with
  | nil =>
      intro ys _ h
      rw [List.filterMap_nil, List.forall₂_nil_left_iff] at h
      rw [h]
      exact .nil
  | cons id rest ih =>
      intro ys hthere h
      obtain ⟨x, hx⟩ := Option.isSome_iff_exists.mp (hthere id List.mem_cons_self)
      rw [List.filterMap_cons_some hx] at h
      obtain ⟨y, more, hy, hmore, rfl⟩ := List.forall₂_cons_left_iff.mp h
      exact .cons ⟨x, hx, hy⟩ (ih (fun id' hid => hthere id' (List.mem_cons_of_mem id hid)) hmore)

end Objects

/-! ### The command line -/

namespace Scene

open Objects

variable {s : Scene} {c : Command} {args : List Argument}

/-- A graph has a text, in the view of the scene or in one of less depth. -/
def GraphText (s : Scene) (g : GraphId) (text : String) : Prop :=
  ∃ gr n, s.objects.graph? g = some gr ∧ s.objects.graphText (s.textsTo n) gr = .ok text

/-- An option of an output is written under its key, and a graph that is the filter as its text. -/
structure OptionArgs (s : Scene) (entry : String × Value) (own : List Argument) : Prop where
  key : ∀ a ∈ own.head?, a = .text ("-" ++ entry.1)
  filter : ∀ g, entry = ("filter", .object (.graph g)) →
    ∃ text, s.GraphText g text ∧ own = [.text "-filter", .text text]

/-- The part of an output on a command line: maps, the options one after the other, and the file. -/
def OutputArgs (s : Scene) (output : OutputId) (part : List Argument) : Prop :=
  ∃ (out : Output) (labels : List String) (groups : List (List Argument)),
    s.objects.output? output = some out ∧ List.Forall₂ s.OptionArgs out.options groups ∧
    part = labels.flatMap (fun label => [.text "-map", .text label]) ++ groups.flatten ++
      [urlArg out.url]

/-- The option for the complex filter: the texts of graphs between semicolons, if there are any. -/
def complexOption (texts : List String) : List Argument :=
  if texts = [] then [] else [.text "-filter_complex", .text (";".intercalate texts)]

/-- How the graphs of a command show on its command line: behind its options and its inputs the texts of
those in the complex filter, then maps, and the outputs, each with its filter among its options. -/
def ShowsGraphs (s : Scene) (c : Command) (args : List Argument) : Prop :=
  ∃ (options : List String) (inputs : List (List Argument)) (texts labels : List String)
      (parts : List (List Argument)),
    optionsArgs s.texts c.options = .ok options ∧
    c.inputs.mapM (fun id => do inputArgs s.texts (← s.objects.input id)) = .ok inputs ∧
    List.Forall₂ s.GraphText (s.objects.complexIds c) texts ∧
    List.Forall₂ s.OutputArgs c.outputs parts ∧
    args = options.map .text ++ inputs.flatten ++ complexOption texts ++
      labels.flatMap (fun label => [.text "-map", .text label]) ++ parts.flatten

/-- The text of a graph within a value is its text in a view of less depth. -/
theorem graphText_of_plain {g : GraphId} {text : String}
    (h : (Value.object (.graph g)).plain s.texts = .ok text) : s.GraphText g text := by
  obtain ⟨n, hn⟩ := s.exists_depth
  rw [texts, hn] at h
  obtain ⟨gr, hgr, htext⟩ := bind_ok.mp h
  refine ⟨gr, n, graph_ok.mp hgr, ?_⟩
  cases n <;> exact htext

/-- Each occurrence of an option begins with its key. -/
theorem head_of_occurrence {t : Texts} {key : String} {v : Value} {words : List String}
    (h : occurrence t key v = .ok words) : words.head? = some key := by
  unfold occurrence at h
  split at h
  · rw [← Except.ok.inj h]
    rfl
  · obtain ⟨value, -, h⟩ := bind_ok.mp h
    rw [← Except.ok.inj h]
    rfl

theorem head_of_optionArgs {t : Texts} {key : String} {v : Value} {words : List String}
    (h : optionArgs t (.text key) v = .ok words) : ∀ a ∈ words.head?, a = "-" ++ key := by
  obtain ⟨key', hkey, h⟩ := bind_ok.mp h
  cases hkey
  dsimp only at h
  split at h
  · rename_i items hitems
    obtain ⟨lists, hlists, h⟩ := bind_ok.mp h
    rw [← Except.ok.inj h]
    cases items with
    | nil =>
        cases hlists
        exact fun _ h => nomatch h
    | cons v rest =>
        obtain ⟨first, more, hfirst, -, rfl⟩ := List.forall₂_cons_left_iff.mp (mapM_ok.mp hlists)
        rw [List.flatten_cons, List.head?_append, head_of_occurrence hfirst]
        exact fun a ha => (Option.some.inj ha).symm
  · rw [head_of_occurrence h]
    exact fun a ha => (Option.some.inj ha).symm

theorem optionArgs_shown {entry : String × Value} {words : List String}
    (h : optionArgs s.texts (.text entry.1) entry.2 = .ok words) :
    s.OptionArgs entry (words.map .text) := by
  constructor
  · intro a ha
    rw [List.head?_map] at ha
    obtain ⟨word, hword, rfl⟩ := Option.map_eq_some_iff.mp ha
    rw [head_of_optionArgs h word hword]
  · rintro g rfl
    obtain ⟨key, hkey, h⟩ := bind_ok.mp h
    cases hkey
    obtain ⟨text, htext, h⟩ := bind_ok.mp h
    rw [← Except.ok.inj h]
    exact ⟨text, graphText_of_plain htext, rfl⟩

theorem outputBlock_shown {output : OutputId} {part : List Argument}
    (h : s.objects.outputBlock s.texts s.mapsPerOutput output = .ok part) :
    s.OutputArgs output part := by
  obtain ⟨out, maps, own, hout, hmaps, hown, rfl⟩ := outputBlock_ok h
  obtain ⟨labels, rfl⟩ : ∃ labels : List String,
      maps = labels.flatMap fun label => [.text "-map", .text label] := by
    split at hmaps
    · obtain ⟨labels, -, hmaps⟩ := bind_ok.mp hmaps
      exact ⟨labels, (Except.ok.inj hmaps).symm⟩
    · exact ⟨[], (Except.ok.inj hmaps).symm⟩
  obtain ⟨words, hwords, hown⟩ := bind_ok.mp hown
  obtain ⟨groups, hgroups, hwords⟩ := bind_ok.mp hwords
  have hshown : List.Forall₂ s.OptionArgs out.options (groups.map (List.map Argument.text)) := by
    rw [List.forall₂_map_right_iff]
    exact (List.forall₂_map_left_iff.mp (mapM_ok.mp hgroups)).imp fun _ _ h => optionArgs_shown h
  refine ⟨out, labels, _, hout, hshown, ?_⟩
  rw [← Except.ok.inj hown, ← Except.ok.inj hwords, List.map_flatten, List.append_assoc]

/-- Nothing hides a complex filter that has a text. -/
theorem complexOption_eq {texts : List String} (h : ∀ text ∈ texts, text ≠ "") :
    (if (";".intercalate texts).isEmpty then []
      else [Argument.text "-filter_complex", .text (";".intercalate texts)]) = complexOption texts := by
  unfold complexOption
  cases texts with
  | nil => rfl
  | cons text rest =>
      have hne : ";".intercalate (text :: rest) ≠ "" :=
        ne_empty_of_intercalate List.mem_cons_self (h text List.mem_cons_self)
      rw [String.isEmpty_eq_false_iff.mpr hne, if_neg (by simp), if_neg (by simp)]

/-- A command line that was written shows the graphs of the command. -/
theorem showsGraphs (named : s.objects.Named) (hc : c.SoundIn s.objects)
    (h : s.arguments c = .ok args) : s.ShowsGraphs c args := by
  obtain ⟨options, inputs, text, maps, parts, hoptions, hinputs, htext, hmaps, hparts, rfl⟩ :=
    commandArgs_ok h
  obtain ⟨labels, rfl⟩ : ∃ labels : List String,
      maps = labels.flatMap fun label => [.text "-map", .text label] := by
    split at hmaps
    · exact ⟨[], (Except.ok.inj hmaps).symm⟩
    · obtain ⟨labels, -, hmaps⟩ := bind_ok.mp hmaps
      exact ⟨labels, (Except.ok.inj hmaps).symm⟩
  obtain ⟨texts, htexts, rfl⟩ := texts_of_complexFilter hc htext
  have hshown : ∀ text ∈ texts, text ≠ "" := by
    intro text hin
    obtain ⟨k, hk⟩ := List.mem_iff_getElem?.mp hin
    obtain ⟨g, hg, hwritten⟩ := item_of_mapM htexts hk
    exact named.graphText_ne_empty (nonempty_of_complexParts (List.mem_of_getElem? hg)) hwritten
  have hthere : ∀ id ∈ s.objects.complexIds c, (s.objects.graph? id).isSome :=
    fun id hid => hc.graphs id (mem_complexIds.mp hid).1
  rw [complexParts_eq] at htexts
  refine ⟨options, inputs, texts, labels, parts, hoptions, hinputs, ?_, ?_, ?_⟩
  · refine (forall₂_filterMap hthere (mapM_ok.mp htexts)).imp fun id text hid => ?_
    obtain ⟨gr, hgr, hwritten⟩ := hid
    exact ⟨gr, s.depth, hgr, hwritten⟩
  · exact (mapM_ok.mp hparts).imp fun _ _ hpart => outputBlock_shown hpart
  · rw [complexOption_eq hshown]

/-- **Graphs are written once unless one is displaced or an empty one attached.**  The command line
shows the graphs that are not attached, unless they are empty, in the complex filter, and on an output
with attached graphs the one attached last.  So each graph of the command is written once, in the complex
filter or for its output, and an empty one nowhere, if and only if an attached graph is the last one on its
output just when it is not empty, and no output of the command has one of its graphs as a filter without
the command having attached it there. -/
theorem graphs_written_once_iff {calls : List Call} {command : CommandId}
    (hobjects : s.objects = afterCalls {} calls) (hmade : MadeBy calls command)
    (hc : s.objects.command? command = some c) (hadded : ∀ e ∈ c.attached, e.2 ∈ c.outputs)
    (hfree : ∀ e ∈ c.attached, filterSet {} e.2 calls = false) (hargs : s.arguments c = .ok args) :
    s.ShowsGraphs c args ∧
      (∀ e ∈ c.attached, s.objects.filtering e.2 = (lastAttached {} e.2 calls).toList) ∧
      (s.objects.WrittenOnce c ↔
        (∀ e ∈ c.attached, lastAttached {} e.2 calls = some e.1 ↔ s.objects.hasChains e.1 = true) ∧
          ∀ output ∈ c.outputs, ∀ g ∈ s.objects.filtering output, g ∈ c.graphs →
            (g, output) ∈ c.attached) := by
  have hs : s.objects.Sound := hobjects ▸ (sound_empty.afterCalls calls).1
  have named : s.objects.Named := hobjects ▸ named_afterCalls calls
  obtain ⟨c', hc', tidy⟩ : s.objects.Tidy command := hobjects ▸ hmade.tidy
  obtain rfl : c = c' := Option.some.inj (hc.symm.trans hc')
  have hlast : ∀ e ∈ c.attached, s.objects.Filtered e.2 (lastAttached {} e.2 calls) := by
    intro e he
    have hnone : Filtered {} e.2 none := rfl
    have hfiltered := filtered_afterCalls calls sound_empty (hfree e he) hnone
    rwa [Option.or_none, ← hobjects] at hfiltered
  exact ⟨showsGraphs named (hs.command hc) hargs, fun e he => (hlast e he).filtering,
    writtenOnce_iff tidy hadded (fun output => lastAttached {} output calls) hlast⟩

/-- A session with a command, an output, two graphs of one filter each, and an empty graph. -/
def graphsSession (attaching : List Call) : List Call :=
  [.act (.newCommand .null none), .act (.newOutput (.text "out.mp4") .null),
    .act (.newFilter (.text "null") .null (.int 1) (.int 1)),
    .act (.newGraph (.object (.filter ⟨0⟩))),
    .act (.newFilter (.text "hflip") .null (.int 1) (.int 1)),
    .act (.newGraph (.object (.filter ⟨1⟩))),
    .act (.newGraph .null)] ++ attaching ++
    [.act (.addOutput ⟨0⟩ (.object (.output ⟨0⟩)) .null)]

/-- A session in which one graph is attached to an output, and one, and an empty one, to none. -/
def attachingSession : List Call :=
  graphsSession [.act (.addGraph ⟨0⟩ (.object (.graph ⟨0⟩)) (.object (.output ⟨0⟩))),
    .act (.addGraph ⟨0⟩ (.object (.graph ⟨1⟩)) .null),
    .act (.addGraph ⟨0⟩ (.object (.graph ⟨2⟩)) .null)]

set_option maxRecDepth 2048 in
/-- In this session both graphs are written where they belong, and the empty one is not. -/
theorem attached_graph_written_beside :
    ∃ s : Scene, s.objects = afterCalls {} attachingSession ∧
      ∃ c, s.objects.command? ⟨0⟩ = some c ∧ s.arguments c =
        .ok (["-filter_complex", "hflip", "-filter", "null", "out.mp4"].map .text) ∧
      s.ShowsGraphs c (["-filter_complex", "hflip", "-filter", "null", "out.mp4"].map .text) ∧
      s.objects.WrittenOnce c := by
  let s : Scene := ⟨afterCalls {} attachingSession, false, none⟩
  obtain ⟨c, hc⟩ : ∃ c, s.objects.command? ⟨0⟩ = some c := ⟨_, rfl⟩
  have hargs : s.arguments c =
      .ok (["-filter_complex", "hflip", "-filter", "null", "out.mp4"].map .text) := by
    cases hc
    rfl
  have hmade : MadeBy attachingSession ⟨0⟩ := ⟨[], .null, none, _, _, rfl, rfl⟩
  have hattached : ∀ e ∈ c.attached, e = (⟨0⟩, ⟨0⟩) := by
    cases hc
    decide
  have hadded : ∀ e ∈ c.attached, e.2 ∈ c.outputs := by
    cases hc
    decide
  have hfree : ∀ e ∈ c.attached, filterSet {} e.2 attachingSession = false := by
    intro e he
    rw [hattached e he]
    rfl
  obtain ⟨hshows, -, hiff⟩ := graphs_written_once_iff rfl hmade hc hadded hfree hargs
  refine ⟨s, rfl, c, hc, hargs, hshows, hiff.mpr ⟨fun e he => ?_, ?_⟩⟩
  · rw [hattached e he]
    exact ⟨fun _ => rfl, fun _ => rfl⟩
  · cases hc
    decide

/-- A command of a session has such a command line, on which not each graph is written once where it
belongs. -/
def Miswrites (calls : List Call) (command : CommandId) (args : List String) : Prop :=
  ∃ s : Scene, s.objects = afterCalls {} calls ∧
    ∃ c, s.objects.command? command = some c ∧ (∀ e ∈ c.attached, e.2 ∈ c.outputs) ∧
      s.arguments c = .ok (args.map .text) ∧ ¬s.objects.WrittenOnce c

/-- Two graphs attached to one output. -/
def displacingSession : List Call :=
  graphsSession [.act (.addGraph ⟨0⟩ (.object (.graph ⟨0⟩)) (.object (.output ⟨0⟩))),
    .act (.addGraph ⟨0⟩ (.object (.graph ⟨1⟩)) (.object (.output ⟨0⟩)))]

/-- An empty graph attached to an output. -/
def blankSession : List Call :=
  graphsSession [.act (.addGraph ⟨0⟩ (.object (.graph ⟨2⟩)) (.object (.output ⟨0⟩)))]

/-- A command copied after a graph was attached. -/
def copyingSession : List Call :=
  graphsSession [.act (.addGraph ⟨0⟩ (.object (.graph ⟨0⟩)) (.object (.output ⟨0⟩)))] ++
    [.act (.copy (.object (.command ⟨0⟩)))]

set_option maxRecDepth 4096 in
/-- Of two graphs attached to one output the first is lost, an empty graph that is attached leaves an
empty argument, and a copied command writes an attached graph twice. -/
theorem attached_graphs_miswritten :
    Miswrites displacingSession ⟨0⟩ ["-filter", "hflip", "out.mp4"] ∧
      Miswrites blankSession ⟨0⟩ ["-filter", "", "out.mp4"] ∧
      Miswrites copyingSession ⟨1⟩ ["-filter_complex", "null", "-filter", "null", "out.mp4"] := by
  refine ⟨⟨⟨_, false, none⟩, rfl, _, rfl, by decide, rfl, fun h => ?_⟩,
    ⟨⟨_, false, none⟩, rfl, _, rfl, by decide, rfl, fun h => ?_⟩,
    ⟨⟨_, false, none⟩, rfl, _, rfl, by decide, rfl, fun h => ?_⟩⟩
  · exact absurd (h ⟨0⟩ (by decide)) (by decide)
  · exact absurd (h ⟨2⟩ (by decide)) (by decide)
  · exact absurd (h ⟨3⟩ (by decide)) (by decide)

end Scene

end MediaCommand
