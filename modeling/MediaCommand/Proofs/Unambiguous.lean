/-
What the text of a graph tells.

A graph is written as what a reader should find in it: each chain with the labels of its bound inputs,
its filters and their options, and the labels that it gives.  Whether the reader does find it has been
settled for any such chains; what is left is that the chains of a graph are as a reader expects them.
Their labels stand in brackets, whatever the names in these are, and the labels that they give are made
of a number, the name of a filter and a number.

The names of streams of inputs are chosen by the caller, and so are values.  Those are the places where
a character of the structure may stand, and neither is escaped for it.
-/
import MediaCommand.Proofs.ReadingBack

namespace MediaCommand

open Letter

/-! ### Graphs -/

/-- A filter with a name, and without separators and backslashes in its name and keys. -/
structure Filter.Clean (f : Filter) : Prop where
  nonempty : f.name ≠ ""
  name : ∀ c ∈ f.name.toList, (isSeparator c || isStructure c) = false
  keys : ∀ entry ∈ f.options, ∀ c ∈ entry.1.toList, (isSeparator c || isStructure c) = false

namespace Objects

variable {o : Objects} {t : Texts}

/-- What a reader should find of a chain: the labels of its bound inputs, its filters with their options,
and the labels that it gives. -/
def reading (o : Objects) (t : Texts) (id : ChainId) : Except Error Reading := do
  let c ← o.chain id
  let inputs ← c.inputs.mapM fun s => o.inputLabel s.source
  let filters ← c.filters.mapM (Filter.content t)
  let outputs ← padLabels id c
  return ⟨inputs, filters, outputs.map labelText⟩

theorem chainText_eq (o : Objects) (t : Texts) (id : ChainId) :
    (do o.chainText t id (← o.chain id)) = (o.reading t id).map Reading.text := by
  unfold chainText reading
  cases o.chain id with
  | error e => rfl
  | ok c =>
      simp only [bind, Except.bind, filtersText_eq]
      cases c.inputs.mapM fun s => o.inputLabel s.source with
      | error e => rfl
      | ok inputs =>
          cases c.filters.mapM (Filter.content t) with
          | error e => rfl
          | ok filters => cases padLabels id c <;> rfl

/-- A graph is written as what a reader should find. -/
theorem graphText_eq (o : Objects) (t : Texts) (g : Graph) :
    o.graphText t g = (g.chains.mapM (o.reading t)).map readingsText := by
  unfold graphText
  rw [funext (chainText_eq o t), mapM_map]
  cases g.chains.mapM (o.reading t) <;> rfl

/-! ### Labels of a graph -/

theorem not_reserved_of_isDigit {c : Char} (h : c.isDigit = true) : isReserved c = false := by
  by_contra hreserved
  rw [Bool.not_eq_false] at hreserved
  simp only [isReserved, isStructure, Bool.or_eq_true, beq_iff_eq] at hreserved
  rcases hreserved with ((rfl | rfl) | rfl) | rfl <;> exact absurd h (by decide)

theorem mem_toString {n : Nat} {c : Char} (h : c ∈ (toString n).toList) : c.isDigit = true := by
  rw [show toString n = n.repr from rfl, Nat.toList_repr] at h
  exact Nat.isDigit_of_mem_toDigits (by decide) (by decide) h

/-- A numeral begins with a digit. -/
theorem toString_head (n : Nat) : ∃ d ds, (toString n).toList = d :: ds ∧ d.isDigit = true := by
  obtain ⟨d, ds, hdigits⟩ := List.exists_cons_of_ne_nil (Nat.toDigits_ne_nil (n := n) (b := 10))
  rw [← Nat.toList_repr] at hdigits
  exact ⟨d, ds, hdigits, mem_toString (n := n) (hdigits ▸ List.mem_cons_self)⟩

/-- A name of a pad holds nothing reserved if the name of the filter does not. -/
theorem not_reserved_padName {c : Chain} (h : c.last.Clean) (k pad : Nat) :
    ∀ x ∈ (padName c k pad).toList, isReserved x = false := by
  intro x hx
  have hfixed : ∀ y ∈ "chain_".toList, isReserved y = false := by simp [isReserved, isStructure]
  simp only [padName, String.toList_append, List.mem_append] at hx
  rcases hx with ((((hx | hx) | hx) | hx) | hx) | hx
  · exact hfixed x (List.mem_of_mem_take (l := "chain_".toList) (i := 5) hx)
  · exact not_reserved_of_isDigit (mem_toString hx)
  · exact hfixed x (List.mem_of_mem_drop (l := "chain_".toList) (i := 5) hx)
  · have hname := h.name x hx
    simp only [isSeparator, Bool.or_eq_false_iff] at hname
    simp only [isReserved, Bool.or_eq_false_iff]
    exact ⟨hname.2, hname.1.2⟩
  · exact hfixed x (List.mem_of_mem_drop (l := "chain_".toList) (i := 5) hx)
  · exact not_reserved_of_isDigit (mem_toString hx)

/-- The labels that a chain gives hold nothing reserved if the name of its last filter does not. -/
theorem not_reserved_label {id : ChainId} {c : Chain} {labels : List String} (h : c.last.Clean)
    (hlabels : padLabels id c = .ok labels) :
    ∀ label ∈ labels, ∀ x ∈ label.toList, isReserved x = false := by
  intro label hlabel
  unfold padLabels at hlabels
  split at hlabels
  · split at hlabels
    · cases hlabels
      cases hlabel
    · cases hlabels
  · rename_i k hposition
    obtain ⟨i, hi⟩ := List.mem_iff_getElem?.mp hlabel
    obtain ⟨pad, -, hpad⟩ := item_of_mapM hlabels hi
    rw [padLabel_placed id _ hposition] at hpad
    cases hpad
    exact not_reserved_padName h k pad

/-- What begins with a number is in no brackets. -/
theorem inBrackets?_number (k : Nat) (rest : String) :
    Expression.inBrackets? (toString k ++ rest).toList = none := by
  unfold Expression.inBrackets?
  split
  · rename_i more hchars
    obtain ⟨d, ds, hdigits, hdigit⟩ := toString_head k
    rw [String.toList_append, hdigits] at hchars
    rw [(List.cons_eq_cons.mp hchars).1] at hdigit
    exact absurd hdigit (by decide)
  · rfl

/-- What an input or a pad is called where it feeds a chain stands in brackets. -/
theorem inputLabel_bracketed {source : Source} {l : String} (h : o.inputLabel source = .ok l) :
    ∃ body, l = labelText body := by
  obtain ⟨text, htext, heq⟩ := bind_ok.mp h
  cases heq
  unfold Expression.bracket
  split
  · rename_i hsome
    cases source with
    | pad id pad =>
        obtain ⟨c, -, htext⟩ := bind_ok.mp htext
        obtain ⟨label, -, heq⟩ := bind_ok.mp htext
        cases heq
        exact ⟨label, rfl⟩
    | input id track =>
        obtain ⟨i, -, htext⟩ := bind_ok.mp htext
        split at htext
        · cases htext
        · rename_i k _ _
          cases htext
          have hnone := inBrackets?_number k ""
          rw [String.append_empty] at hnone
          rw [hnone] at hsome
          cases hsome
        · rename_i k track _
          cases htext
          rw [String.append_assoc, inBrackets?_number] at hsome
          cases hsome
  · exact ⟨text, rfl⟩

/-- The options of a filter and what they say have the same keys. -/
theorem content_entry {f : Filter} {content : FilterContent} (h : f.content t = .ok content) :
    content.name = f.name ∧
      ∀ entry ∈ content.options, ∃ e ∈ f.options, entry.1 = e.1 := by
  obtain ⟨options, hoptions, heq⟩ := bind_ok.mp h
  cases heq
  refine ⟨rfl, fun entry hentry => ?_⟩
  obtain ⟨k, hk⟩ := List.mem_iff_getElem?.mp hentry
  obtain ⟨e, he, hcontent⟩ := item_of_mapM hoptions hk
  refine ⟨e, List.mem_of_getElem? he, ?_⟩
  unfold entryContent at hcontent
  split at hcontent
  · cases hcontent
    rfl
  · obtain ⟨raw, -, heq⟩ := bind_ok.mp hcontent
    cases heq
    rfl

/-- What a reader should find of a chain is well formed if its filters have clean names and keys. -/
theorem reading_wellFormed {id : ChainId} {r : Reading} (h : o.reading t id = .ok r)
    (clean : ∀ c, o.chain? id = some c → ∀ f ∈ c.filters, f.Clean) : r.WellFormed := by
  obtain ⟨c, hc, h⟩ := bind_ok.mp h
  obtain ⟨inputs, hinputs, h⟩ := bind_ok.mp h
  obtain ⟨filters, hfilters, h⟩ := bind_ok.mp h
  obtain ⟨outputs, houtputs, h⟩ := bind_ok.mp h
  cases h
  have hclean := clean c (chain_ok.mp hc)
  have hcontent : ∀ content ∈ filters, ∃ f ∈ c.filters, f.content t = .ok content := by
    intro content hmem
    obtain ⟨k, hk⟩ := List.mem_iff_getElem?.mp hmem
    obtain ⟨f, hf, hanswer⟩ := item_of_mapM hfilters hk
    exact ⟨f, List.mem_of_getElem? hf, hanswer⟩
  constructor
  · intro l hl
    obtain ⟨k, hk⟩ := List.mem_iff_getElem?.mp hl
    obtain ⟨s, -, hlabel⟩ := item_of_mapM hinputs hk
    exact inputLabel_bracketed hlabel
  · intro content hmem
    obtain ⟨f, hf, hanswer⟩ := hcontent content hmem
    rw [(content_entry hanswer).1]
    exact (hclean f hf).nonempty
  · intro content hmem
    obtain ⟨f, hf, hanswer⟩ := hcontent content hmem
    obtain ⟨hname, hkeys⟩ := content_entry hanswer
    refine ⟨fun x hx => (hclean f hf).name x (hname ▸ hx), fun entry hentry x hx => ?_⟩
    obtain ⟨e, he, hkey⟩ := hkeys entry hentry
    exact (hclean f hf).keys e he x (hkey ▸ hx)
  · intro hnil
    have hnone : filters = [] := hnil
    have hlength := (mapM_ok.mp hfilters).length_eq
    rw [hnone] at hlength
    exact c.nonempty (List.length_eq_zero_iff.mp hlength)
  · intro l hl
    obtain ⟨label, hlabel, rfl⟩ := List.mem_map.mp hl
    refine ⟨label, rfl, ?_⟩
    exact not_reserved_label (hclean c.last (List.getLast_mem c.nonempty)) houtputs label hlabel

/-- **A graph is read back exactly if nothing in it looks like its structure.**  Let a graph have a text,
and let the names and keys of its filters be without separators.  A reader splits the text into chains at
semicolons, takes the labels in brackets off both ends of each, and reads the filters between them; a
backslash makes a letter of the character after it.  It finds the chains of the graph, each with the
labels of its bound inputs, its filters and options, and the labels that it gives, if and only if no
option value holds a semicolon or a bracket, and no label of a bound input holds one of these or a
backslash between its brackets. -/
theorem graph_read_back_iff {g : Graph} {text : String} (htext : o.graphText t g = .ok text)
    (clean : ∀ id ∈ g.chains, ∀ c, o.chain? id = some c → ∀ f ∈ c.filters, f.Clean) :
    ∃ readings, g.chains.mapM (o.reading t) = .ok readings ∧ readings.length = g.chains.length ∧
      (readGraph text = some readings ↔ ∀ r ∈ readings, r.Clear) := by
  rw [graphText_eq] at htext
  obtain ⟨readings, hreadings, rfl⟩ := map_ok.mp htext
  have hwell : ∀ r ∈ readings, r.WellFormed := by
    intro r hr
    obtain ⟨k, hk⟩ := List.mem_iff_getElem?.mp hr
    obtain ⟨id, hid, hreading⟩ := item_of_mapM hreadings hk
    exact reading_wellFormed hreading (clean id (List.mem_of_getElem? hid))
  exact ⟨readings, hreadings, (mapM_ok.mp hreadings).length_eq.symm, clear_of_readGraph hwell,
    readGraph_of_clear hwell⟩

/-- A session with a graph of two chains.  The first has an input and a value full of separators, the
second is fed by the first. -/
def labelledSession : List Call :=
  [.act (.newCommand .null none), .act (.newInput (.text "in.mp4") .null),
    .act (.addInput ⟨0⟩ (.object (.input ⟨0⟩))), .act (.inputStream ⟨0⟩ (.text "v")),
    .act (.newFilter (.text "split") (.dict [(.text "k", .text "a:b,c=d\\")]) (.int 1) (.int 2)),
    .act (.newChain (.object (.filter ⟨0⟩))),
    .act (.addInputs ⟨0⟩ (.list [.object (.specifier ⟨0⟩)])), .act (.outputPad ⟨0⟩ (.int 0)),
    .act (.newFilter (.text "null") .null (.int 1) (.int 1)),
    .act (.newChain (.object (.filter ⟨1⟩))),
    .act (.addInputs ⟨1⟩ (.list [.object (.specifier ⟨1⟩)])),
    .act (.newGraph (.list [.object (.chain ⟨0⟩), .object (.chain ⟨1⟩)]))]

set_option maxRecDepth 4096 in
/-- In this session the graph is read back. -/
theorem labelled_graph_read_back : ∃ (s : Scene) (g : Graph) (text : String),
    s.objects = afterCalls {} labelledSession ∧ s.objects.graph? ⟨0⟩ = some g ∧
    s.objects.graphText s.texts g = .ok text ∧
    text = "[0:v]split=k=a\\:b\\,c=d\\\\[chain0_split_0];[chain0_split_0]null" ∧
    readGraph text = some [⟨["[0:v]"], [⟨"split", [("k", some "a:b,c=d\\")]⟩], ["[chain0_split_0]"]⟩,
      ⟨["[chain0_split_0]"], [⟨"null", []⟩], []⟩] := by
  let s : Scene := ⟨afterCalls {} labelledSession, false, none⟩
  obtain ⟨g, hg⟩ : ∃ g, s.objects.graph? ⟨0⟩ = some g := ⟨_, rfl⟩
  obtain ⟨text, htext⟩ : ∃ text, s.objects.graphText s.texts g = .ok text := by
    cases hg
    exact ⟨_, rfl⟩
  have hclean : ∀ id ∈ g.chains, ∀ c, s.objects.chain? id = some c → ∀ f ∈ c.filters, f.Clean := by
    cases hg
    rintro id (_ | ⟨_, _ | ⟨_, ⟨⟩⟩⟩) c hc
    · cases hc
      rintro f (_ | ⟨_, ⟨⟩⟩)
      refine ⟨by decide, none_of_any rfl, ?_⟩
      rintro entry (_ | ⟨_, ⟨⟩⟩)
      exact none_of_any rfl
    · cases hc
      rintro f (_ | ⟨_, ⟨⟩⟩)
      exact ⟨by decide, none_of_any rfl, fun entry hentry => nomatch hentry⟩
  obtain ⟨readings, hreadings, -, hread⟩ := graph_read_back_iff htext hclean
  have hexpected : readings
      = [⟨["[0:v]"], [⟨"split", [("k", some "a:b,c=d\\")]⟩], ["[chain0_split_0]"]⟩,
        ⟨["[chain0_split_0]"], [⟨"null", []⟩], []⟩] := by
    cases hg
    cases hreadings
    rfl
  refine ⟨s, g, text, rfl, hg, htext, ?_, ?_⟩
  · cases hg
    cases htext
    rfl
  · rw [← hexpected, hread, hexpected]
    have hbody : ∀ body label, labelText body ∈ [labelText label] → body = label := by
      intro body label hmem
      have hsame : labelText body = labelText label := List.mem_singleton.mp hmem
      simpa [labelText] using hsame
    rintro r (_ | ⟨_, _ | ⟨_, ⟨⟩⟩⟩)
    · refine ⟨fun body hmem => ?_, ?_⟩
      · obtain rfl := hbody body "0:v" hmem
        exact none_of_any rfl
      · rintro f (_ | ⟨_, ⟨⟩⟩) entry (_ | ⟨_, ⟨⟩⟩) value hvalue
        cases hvalue
        exact none_of_any rfl
    · refine ⟨fun body hmem => ?_, ?_⟩
      · obtain rfl := hbody body "chain0_split_0" hmem
        exact none_of_any rfl
      · rintro f (_ | ⟨_, ⟨⟩⟩) entry hentry
        cases hentry

/-- A session with a graph of one chain whose value holds a semicolon and brackets. -/
def semicolonSession : List Call :=
  [.act (.newFilter (.text "null") (.dict [(.text "k", .text "a;b[c]")]) (.int 1) (.int 1)),
    .act (.newChain (.object (.filter ⟨0⟩))), .act (.newGraph (.list [.object (.chain ⟨0⟩)]))]

/-- A session with a graph of one chain that is fed by a stream with a bracket in its name. -/
def bracketSession : List Call :=
  [.act (.newCommand .null none), .act (.newInput (.text "in.mp4") .null),
    .act (.addInput ⟨0⟩ (.object (.input ⟨0⟩))), .act (.inputStream ⟨0⟩ (.text "m:a]b")),
    .act (.newFilter (.text "null") .null (.int 1) (.int 1)),
    .act (.newChain (.object (.filter ⟨0⟩))),
    .act (.addInputs ⟨0⟩ (.list [.object (.specifier ⟨0⟩)])),
    .act (.newGraph (.list [.object (.chain ⟨0⟩)]))]

set_option maxRecDepth 4096 in
/-- A semicolon and brackets in a value add a chain and a label, and a bracket in the name of a stream
leaves nothing to be read, though names and keys are clean and all values are texts. -/
theorem structure_read_into_values :
    (∃ (s : Scene) (g : Graph) (c : Chain) (text : String),
      s.objects = afterCalls {} semicolonSession ∧ s.objects.graph? ⟨0⟩ = some g ∧
      g.chains = [⟨0⟩] ∧ s.objects.chain? ⟨0⟩ = some c ∧ (∀ f ∈ c.filters, f.Clean ∧ f.Plain) ∧
      s.objects.graphText s.texts g = .ok text ∧ text = "null=k=a;b[c]" ∧
      g.chains.mapM (s.objects.reading s.texts)
        = .ok [⟨[], [⟨"null", [("k", some "a;b[c]")]⟩], []⟩] ∧
      readGraph text = some [⟨[], [⟨"null", [("k", some "a")]⟩], []⟩,
        ⟨[], [⟨"b", []⟩], ["[c]"]⟩]) ∧
    (∃ (s : Scene) (g : Graph) (c : Chain) (text : String),
      s.objects = afterCalls {} bracketSession ∧ s.objects.graph? ⟨0⟩ = some g ∧
      g.chains = [⟨0⟩] ∧ s.objects.chain? ⟨0⟩ = some c ∧ (∀ f ∈ c.filters, f.Clean ∧ f.Plain) ∧
      s.objects.graphText s.texts g = .ok text ∧ text = "[0:m:a]b]null" ∧
      g.chains.mapM (s.objects.reading s.texts) = .ok [⟨["[0:m:a]b]"], [⟨"null", []⟩], []⟩] ∧
      readGraph text = none) := by
  constructor
  · refine ⟨⟨afterCalls {} semicolonSession, false, none⟩, _, _, _, rfl, rfl, rfl, rfl, ?_, rfl, rfl,
      rfl, ?_⟩
    · rintro f (_ | ⟨_, ⟨⟩⟩)
      refine ⟨⟨by decide, none_of_any rfl, ?_⟩, none_of_any rfl, ?_, ?_⟩ <;> rintro entry (_ | ⟨_, ⟨⟩⟩)
      · exact none_of_any rfl
      · exact none_of_any rfl
      · exact Or.inr ⟨_, rfl⟩
    · rfl
  · refine ⟨⟨afterCalls {} bracketSession, false, none⟩, _, _, _, rfl, rfl, rfl, rfl, ?_, rfl, rfl,
      rfl, ?_⟩
    · rintro f (_ | ⟨_, ⟨⟩⟩)
      exact ⟨⟨by decide, none_of_any rfl, fun e he => nomatch he⟩, none_of_any rfl,
        (fun e he => nomatch he), fun e he => nomatch he⟩
    · rfl

end Objects

end MediaCommand
