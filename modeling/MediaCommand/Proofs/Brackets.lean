/-
The two sides of a pad.

The chain that a pad belongs to writes its label behind its filters, and the chain that the pad feeds
writes the same label in front of its own.  The first puts the label in brackets as it is; the second
starts from the text of a specifier, which for a pad has brackets already and for a stream of an input
has none, and adds what is missing.  Whether something is missing is seen from the text alone, and a
text with brackets around it does not count as one `InBrackets` if a line ends between them.

A label is made of two numbers and the name of a filter, so the sides agree exactly if no line ends in
that name.  Where one does, the second side has brackets twice, and names a pad that no chain has: a
label begins with a letter.
-/
import MediaCommand.Proofs.LabelClashes

namespace MediaCommand

/-! ### Texts in brackets -/

theorem labelText_injective {body body' : String} (h : labelText body = labelText body') :
    body = body' := by
  have hchars := congrArg String.toList h
  rw [toList_labelText, toList_labelText] at hchars
  exact String.toList_inj.mp (List.append_cancel_right (List.tail_eq_of_cons_eq hchars))

theorem labelText_ne_self (s : String) : labelText s ≠ s := fun h => by
  have hlength := congrArg (fun s => s.toList.length) h
  simp only [toList_labelText, List.length_cons, List.length_append, List.length_nil] at hlength
  omega

namespace Expression

/-- A text is in brackets: no line ends between them, and at most one ends behind them. -/
def InBrackets (s : String) : Prop :=
  ∃ body : String, '\n' ∉ body.toList ∧ (s = labelText body ∨ s = labelText body ++ "\n")

/-- What ends with a bracket and holds no end of a line has none in front of the bracket. -/
theorem closed_iff {body : List Char} : body.getLast? = some ']' ∧ '\n' ∉ body ↔
    ∃ inner, '\n' ∉ inner ∧ body = inner ++ [']'] := by
  constructor
  · rintro ⟨hlast, hline⟩
    obtain ⟨inner, rfl⟩ := List.getLast?_eq_some_iff.mp hlast
    exact ⟨inner, fun hin => hline (List.mem_append_left _ hin), rfl⟩
  · rintro ⟨inner, hline, rfl⟩
    exact ⟨List.getLast?_concat, by simpa using hline⟩

theorem inBrackets?_isSome {cs : List Char} : (inBrackets? cs).isSome = true ↔
    ∃ inner : List Char, '\n' ∉ inner ∧
      (cs = '[' :: (inner ++ [']']) ∨ cs = '[' :: (inner ++ [']'] ++ ['\n'])) := by
  constructor
  · intro h
    obtain ⟨rest, rfl⟩ : ∃ rest, cs = '[' :: rest := by
      unfold inBrackets? at h
      split at h
      · exact ⟨_, rfl⟩
      · cases h
    by_cases hend : rest.getLast? = some '\n'
    · obtain ⟨body, rfl⟩ := List.getLast?_eq_some_iff.mp hend
      have hclosed : body.getLast? = some ']' ∧ '\n' ∉ body := by simpa [inBrackets?] using h
      obtain ⟨inner, hline, rfl⟩ := closed_iff.mp hclosed
      exact ⟨inner, hline, Or.inr rfl⟩
    · have hclosed : rest.getLast? = some ']' ∧ '\n' ∉ rest := by
        simpa [inBrackets?, hend] using h
      obtain ⟨inner, hline, rfl⟩ := closed_iff.mp hclosed
      exact ⟨inner, hline, Or.inl rfl⟩
  · rintro ⟨inner, hline, rfl | rfl⟩
    · simp [inBrackets?, hline]
    · simp [inBrackets?, hline]

theorem inBrackets_iff {s : String} : InBrackets s ↔ (inBrackets? s.toList).isSome = true := by
  rw [inBrackets?_isSome]
  constructor
  · rintro ⟨body, hline, rfl | rfl⟩
    · exact ⟨body.toList, hline, Or.inl (toList_labelText body)⟩
    · exact ⟨body.toList, hline, Or.inr (by simp [labelText])⟩
  · rintro ⟨body, hline, h | h⟩
    · exact ⟨String.ofList body, by simpa using hline,
        Or.inl (String.toList_inj.mp (by simpa [labelText] using h))⟩
    · exact ⟨String.ofList body, by simpa using hline,
        Or.inr (String.toList_inj.mp (by simpa [labelText] using h))⟩

/-- A text in brackets stays as it is. -/
theorem bracket_of_inBrackets {s : String} (h : InBrackets s) : bracket s = s :=
  if_pos (inBrackets_iff.mp h)

/-- Any other text is put in brackets. -/
theorem bracket_of_not_inBrackets {s : String} (h : ¬InBrackets s) : bracket s = labelText s :=
  if_neg fun hsome => h (inBrackets_iff.mpr hsome)

theorem bracket_eq_self {s : String} : bracket s = s ↔ InBrackets s := by
  refine ⟨fun h => ?_, bracket_of_inBrackets⟩
  by_contra hnot
  rw [bracket_of_not_inBrackets hnot] at h
  exact labelText_ne_self s h

/-- What has been put in brackets is in brackets unless a line ends in it. -/
theorem inBrackets_labelText {s : String} : InBrackets (labelText s) ↔ '\n' ∉ s.toList := by
  refine ⟨?_, fun h => ⟨s, h, Or.inl rfl⟩⟩
  rintro ⟨body, hline, h | h⟩
  · rwa [labelText_injective h]
  · have hlast := congrArg (fun s => s.toList.getLast?) h
    rw [String.toList_append, toList_labelText, List.getLast?_concat,
      show "\n".toList = ['\n'] from rfl, List.getLast?_concat] at hlast
    cases hlast

/-- Brackets are put around a text once, unless a line ends in it and it is not in brackets. -/
theorem bracket_bracket {s : String} :
    bracket (bracket s) = bracket s ↔ InBrackets s ∨ '\n' ∉ s.toList := by
  rw [bracket_eq_self]
  by_cases h : InBrackets s
  · rw [bracket_of_inBrackets h]
    exact ⟨Or.inl, fun _ => h⟩
  · rw [bracket_of_not_inBrackets h, inBrackets_labelText]
    exact ⟨Or.inr, fun hor => hor.resolve_left h⟩

end Expression

namespace Objects

open Expression

variable {o : Objects}

/-! ### The side of the chain that has the pad -/

/-- A chain gives a label to a pad, and whenever it has a text, its labels in brackets end it. -/
def Emits (o : Objects) (id : ChainId) (c : Chain) (pad : Nat) (label : String) : Prop :=
  ∃ labels, padLabels id c = .ok labels ∧ labels[pad]? = some label ∧
    ∀ t text, o.chainText t id c = .ok text →
      ∃ front, text = front ++ String.join (labels.map labelText)

theorem emits_padName {id : ChainId} {c : Chain} {k pad : Nat} (hposition : c.position = some k)
    (hpad : pad ∈ c.references) : o.Emits id c pad (padName c k pad) := by
  refine ⟨_, padLabels_placed id hposition, getElem?_labels k hpad, fun t text htext => ?_⟩
  obtain ⟨inputs, filters, outputs, -, -, houtputs, rfl⟩ := chainText_ok htext
  rw [padLabels_placed id hposition] at houtputs
  cases houtputs
  exact ⟨String.join inputs ++ filters, rfl⟩

theorem line_mem_padName {c : Chain} {k pad : Nat} :
    '\n' ∈ (padName c k pad).toList ↔ '\n' ∈ c.last.name.toList := by
  have hnumber : ∀ n : Nat, '\n' ∉ (toString n).toList := fun n h =>
    absurd (mem_toString h) (by decide)
  simp only [padName, String.toList_append, List.mem_append, hnumber, or_false]
  simp

/-- A label in brackets is no label of a chain. -/
theorem Sound.labelText_not_mem_labelsOf (hs : Sound o) {g : Graph} (hg : g ∈ o.graphs)
    (label : String) : labelText label ∉ o.labelsOf g := by
  intro h
  obtain ⟨k, id, c, pad, -, -, -, hname⟩ := (hs.mem_labelsOf hg).mp h
  have hchars := congrArg String.toList hname
  rw [toList_labelText] at hchars
  simp [padName] at hchars

/-! ### The side of the chain that is fed -/

/-- What a source is called in front of every chain that it feeds: whenever the chain has a text, that
text begins with labels, and this is the one at the place of the source. -/
def CalledInFront (o : Objects) (source : Source) (label : String) : Prop :=
  o.inputLabel source = .ok label ∧
    ∀ (t : Texts) (id : ChainId) (c : Chain) (i : Nat) (text : String),
      (c.inputs.map fun s => s.source)[i]? = some source → o.chainText t id c = .ok text →
        ∃ labels rest, labels[i]? = some label ∧ text = String.join labels ++ rest

theorem calledInFront_of_inputLabel {source : Source} {label : String}
    (h : o.inputLabel source = .ok label) : o.CalledInFront source label := by
  refine ⟨h, fun t id c i text hi htext => ?_⟩
  obtain ⟨inputs, filters, outputs, hinputs, -, -, rfl⟩ := chainText_ok htext
  rw [List.getElem?_map, Option.map_eq_some_iff] at hi
  obtain ⟨s, hs, hsource⟩ := hi
  obtain ⟨l, hl, hlabel⟩ := getElem?_of_mapM hinputs hs
  rw [hsource, h] at hlabel
  cases hlabel
  exact ⟨inputs, _, hl, String.append_assoc⟩

theorem calledInFront_of_specifierText {source : Source} {text : String}
    (h : o.specifierText source = .ok text) : o.CalledInFront source (bracket text) := by
  refine calledInFront_of_inputLabel ?_
  rw [inputLabel, h]
  rfl

/-- The text of a stream of a numbered input is in no brackets. -/
theorem specifierText_numbered {id : InputId} {i : Input} {k : Nat} (track : Option Track)
    (hi : o.input? id = some i) (hlabel : i.label = some k) :
    ∃ text, o.specifierText (.input id track) = .ok text ∧ ¬InBrackets text := by
  refine ⟨_, specifierText_input track hi hlabel, ?_⟩
  rw [inBrackets_iff]
  cases track with
  | none =>
      have hnone := inBrackets?_number k ""
      rw [String.append_empty] at hnone
      simp only [hnone, Option.isSome_none, Bool.false_eq_true, not_false_iff]
  | some track =>
      simp only [String.append_assoc, inBrackets?_number, Option.isSome_none, Bool.false_eq_true,
        not_false_iff]

/-! ### Both sides -/

/-- **A pad is called alike on both sides unless a line ends in the name of its filter.**  A pad that is
referred to, of a chain in a graph, has a specifier whose text is the label in brackets that the chain
writes for it.  A chain fed by the pad writes the same, except where a line ends in the name of the last
filter: then it writes the label in brackets twice, and no chain of any graph gives what stands between
the outer ones.  A stream of a numbered input is called in front of a chain by its text in brackets once.
In general brackets are put around a text once, unless a line ends in it and it is in none. -/
theorem pad_called_alike (h : o.Reachable) :
    (∀ (id : ChainId) (c : Chain) (pad : Nat) (g : Graph) (k : Nat), o.chain? id = some c →
      pad ∈ c.references → g ∈ o.graphs → g.chains[k]? = some id →
      ∃ label, o.Emits id c pad label ∧ label ∈ o.labelsOf g ∧
        o.specifierText (.pad id pad) = .ok (labelText label) ∧
        ('\n' ∉ c.last.name.toList → o.CalledInFront (.pad id pad) (labelText label)) ∧
        ('\n' ∈ c.last.name.toList →
          o.CalledInFront (.pad id pad) (labelText (labelText label)) ∧
          ∀ g' ∈ o.graphs, labelText label ∉ o.labelsOf g')) ∧
    (∀ (id : InputId) (i : Input) (k : Nat) (track : Option Track), o.input? id = some i →
      i.label = some k → ∃ text, o.specifierText (.input id track) = .ok text ∧
        ¬InBrackets text ∧ o.CalledInFront (.input id track) (labelText text)) ∧
    ∀ s, bracket (bracket s) = bracket s ↔ InBrackets s ∨ '\n' ∉ s.toList := by
  have hs := h.sound
  refine ⟨?_, ?_, fun s => bracket_bracket⟩
  · intro id c pad g k hc hpad hg hk
    obtain ⟨c', hc', hposition⟩ := (hs.graphs g hg).placed k id hk
    obtain rfl : c' = c := Option.some.inj (hc'.symm.trans hc)
    have htext := specifierText_placed pad hc hposition
    have hfront := calledInFront_of_specifierText htext
    have hbrackets : InBrackets (labelText (padName c' k pad)) ↔ '\n' ∉ c'.last.name.toList :=
      inBrackets_labelText.trans (not_congr line_mem_padName)
    refine ⟨padName c' k pad, emits_padName hposition hpad,
      (hs.mem_labelsOf hg).mpr ⟨k, id, c', pad, hk, hc, lt_labeledCount hpad, rfl⟩, htext,
      fun hline => ?_, fun hline => ⟨?_, fun g' hg' => hs.labelText_not_mem_labelsOf hg' _⟩⟩
    · rwa [← labelText, bracket_of_inBrackets (hbrackets.mpr hline)] at hfront
    · rwa [← labelText, bracket_of_not_inBrackets fun hin => hbrackets.mp hin hline] at hfront
  · intro id i k track hi hlabel
    obtain ⟨text, htext, hnot⟩ := specifierText_numbered track hi hlabel
    have hfront := calledInFront_of_specifierText htext
    rw [bracket_of_not_inBrackets hnot] at hfront
    exact ⟨text, htext, hnot, hfront⟩

/-- A session with a graph of three chains, one behind the other, the first fed by a stream of an input.
A line ends in the name of the filter of the second. -/
def brokenNameSession : List Call :=
  [.act (.newCommand .null none), .act (.newInput (.text "in.mp4") .null),
    .act (.addInput ⟨0⟩ (.object (.input ⟨0⟩))), .act (.inputStream ⟨0⟩ (.text "v")),
    .act (.newFilter (.text "null") .null (.int 1) (.int 1)),
    .act (.newFilter (.text "a\nb") .null (.int 1) (.int 1)),
    .act (.newChain (.object (.filter ⟨0⟩))), .act (.newChain (.object (.filter ⟨1⟩))),
    .act (.newChain (.object (.filter ⟨0⟩))),
    .act (.newGraph (.list [.object (.chain ⟨0⟩), .object (.chain ⟨1⟩), .object (.chain ⟨2⟩)])),
    .act (.addInputs ⟨0⟩ (.list [.object (.specifier ⟨0⟩)])), .act (.outputPad ⟨0⟩ (.int 0)),
    .act (.addInputs ⟨1⟩ (.list [.object (.specifier ⟨1⟩)])), .act (.outputPad ⟨1⟩ (.int 0)),
    .act (.addInputs ⟨2⟩ (.list [.object (.specifier ⟨2⟩)]))]

set_option maxRecDepth 4096 in
/-- In this session the third chain has brackets twice in front of it, where the second gives its label
once; the second calls the pad of the first as the first does, and the first its stream in brackets. -/
theorem broken_name_in_two_brackets :
    (afterCalls {} brokenNameSession).Reachable ∧
    (∃ c, (afterCalls {} brokenNameSession).chain? ⟨0⟩ = some c ∧
      (afterCalls {} brokenNameSession).Emits ⟨0⟩ c 0 "chain0_null_0") ∧
    (afterCalls {} brokenNameSession).CalledInFront (.pad ⟨0⟩ 0) "[chain0_null_0]" ∧
    (∃ c, (afterCalls {} brokenNameSession).chain? ⟨1⟩ = some c ∧
      (afterCalls {} brokenNameSession).Emits ⟨1⟩ c 0 "chain1_a\nb_0") ∧
    (afterCalls {} brokenNameSession).CalledInFront (.pad ⟨1⟩ 0) "[[chain1_a\nb_0]]" ∧
    (∃ s, (afterCalls {} brokenNameSession).specifier? ⟨0⟩ = some s ∧
      (afterCalls {} brokenNameSession).CalledInFront s.source "[0:v]") ∧
    bracket (bracket "a\nb") ≠ bracket "a\nb" := by
  have hreachable : (afterCalls {} brokenNameSession).Reachable := ⟨_, rfl⟩
  obtain ⟨hpad, hinput, hbracket⟩ := pad_called_alike hreachable
  have hlabel : ∀ {source : Source} {label name : String},
      (afterCalls {} brokenNameSession).specifierText source = .ok (labelText label) →
      (afterCalls {} brokenNameSession).specifierText source = .ok (labelText name) → label = name :=
    fun h h' => labelText_injective (Except.ok.inj (h.symm.trans h'))
  obtain ⟨g, hg, hchains⟩ : ∃ g ∈ (afterCalls {} brokenNameSession).graphs,
      g.chains = [⟨0⟩, ⟨1⟩, ⟨2⟩] := ⟨_, List.mem_cons_self, rfl⟩
  obtain ⟨first, hfirst, hfirstpad, hfirstname⟩ :
      ∃ c, (afterCalls {} brokenNameSession).chain? ⟨0⟩ = some c ∧ 0 ∈ c.references ∧
        c.last.name = "null" := ⟨_, rfl, List.mem_cons_self, rfl⟩
  obtain ⟨second, hsecond, hsecondpad, hsecondname⟩ :
      ∃ c, (afterCalls {} brokenNameSession).chain? ⟨1⟩ = some c ∧ 0 ∈ c.references ∧
        c.last.name = "a\nb" := ⟨_, rfl, List.mem_cons_self, rfl⟩
  obtain ⟨plain, hplain, -, hplaintext, halike, -⟩ :=
    hpad ⟨0⟩ first 0 g 0 hfirst hfirstpad hg (by rw [hchains]; rfl)
  obtain rfl : plain = "chain0_null_0" := hlabel hplaintext rfl
  obtain ⟨broken, hbroken, -, hbrokentext, -, htwice⟩ :=
    hpad ⟨1⟩ second 0 g 1 hsecond hsecondpad hg (by rw [hchains]; rfl)
  obtain rfl : broken = "chain1_a\nb_0" := hlabel hbrokentext rfl
  obtain ⟨stream, hstream, -, hfront⟩ := hinput ⟨0⟩ _ 0 (some (.selector "v")) rfl rfl
  obtain rfl : stream = "0:v" := (Except.ok.inj hstream).symm
  refine ⟨hreachable, ⟨first, hfirst, hplain⟩, halike (hfirstname ▸ by decide),
    ⟨second, hsecond, hbroken⟩, (htwice (hsecondname ▸ by decide)).1, ⟨_, rfl, hfront⟩, fun h => ?_⟩
  rcases (hbracket "a\nb").mp h with hin | hline
  · rw [inBrackets_iff] at hin
    cases hin
  · exact hline (by decide)

end Objects

end MediaCommand
