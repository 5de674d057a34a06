/-
The numbers of inputs and the places of chains.

An input is given its number by the command that takes it in, and a chain its place by the graph.  Both
are written on the object while the list that they count belongs to another, so they are only right if
nobody ever does the one without the other, and only tell objects apart if none is taken in twice.

An object is taken in only while it carries no number, and whatever stands in a list carries one.  So an
object in a list is never taken in again, by whatever command or graph.  Copies stand in commands and
graphs of their own, which were not filled one object at a time; they are left out.
-/
import MediaCommand.Proofs.Isolation

namespace MediaCommand

namespace Objects

variable {o o' : Objects}

/-! ### Who stands where -/

/-- An input stands in a command at a place. -/
def InputAt (o : Objects) (command : CommandId) (k : Nat) (id : InputId) : Prop :=
  ∃ c, o.command? command = some c ∧ c.inputs[k]? = some id

/-- A chain stands in a graph at a place. -/
def ChainAt (o : Objects) (graph : GraphId) (k : Nat) (id : ChainId) : Prop :=
  ∃ g, o.graph? graph = some g ∧ g.chains[k]? = some id

theorem InputAt.of_commands {command : CommandId} {k : Nat} {id : InputId}
    (hsame : o'.commands = o.commands) : o'.InputAt command k id ↔ o.InputAt command k id := by
  simp only [InputAt, command?, hsame]

/-- A command that takes no input in may take the place of one. -/
theorem InputAt.setCommand {m command : CommandId} {c c' : Command} {k : Nat} {id : InputId}
    (hc : o.command? m = some c) (hinputs : c'.inputs = c.inputs) :
    (o.setCommand m c').InputAt command k id ↔ o.InputAt command k id := by
  by_cases hsame : command = m
  · subst hsame
    have hnew : (o.setCommand command c').command? command = some c' :=
      getElem?_set_eq_of_some c' hc
    simp only [InputAt, hnew, hc, Option.some.injEq, exists_eq_left', hinputs]
  · have hother : (o.setCommand m c').command? command = o.command? command :=
      List.getElem?_set_ne (Id.index_ne hsame).symm
    simp only [InputAt, hother]

/-- An input in a command after it took one in is that one or stood there before. -/
theorem InputAt.of_taken {m command : CommandId} {c : Command} {k : Nat} {added id : InputId}
    (hc : o.command? m = some c)
    (h : (o.setCommand m { c with inputs := c.inputs ++ [added] }).InputAt command k id) :
    (command = m ∧ id = added) ∨ o.InputAt command k id := by
  obtain ⟨x, hx, hk⟩ := h
  by_cases hsame : command = m
  · subst hsame
    have hnew := hx.symm.trans (getElem?_set_eq_of_some _ hc)
    cases hnew
    rcases getElem?_concat hk with hold | ⟨-, rfl⟩
    · exact Or.inr ⟨c, hc, hold⟩
    · exact Or.inl ⟨rfl, rfl⟩
  · have hother : (o.setCommand m { c with inputs := c.inputs ++ [added] }).command? command
        = o.command? command := List.getElem?_set_ne (Id.index_ne hsame).symm
    exact Or.inr ⟨x, hother ▸ hx, hk⟩

theorem InputAt.taken {m command : CommandId} {c : Command} {k : Nat} {id : InputId}
    (added : InputId) (hc : o.command? m = some c) (h : o.InputAt command k id) :
    (o.setCommand m { c with inputs := c.inputs ++ [added] }).InputAt command k id := by
  obtain ⟨x, hx, hk⟩ := h
  by_cases hsame : command = m
  · subst hsame
    obtain rfl : c = x := Option.some.inj (hc.symm.trans hx)
    obtain ⟨hlt, -⟩ := List.getElem?_eq_some_iff.mp hk
    exact ⟨_, getElem?_set_eq_of_some _ hc, (List.getElem?_append_left hlt).trans hk⟩
  · have hother : (o.setCommand m { c with inputs := c.inputs ++ [added] }).command? command
        = o.command? command := List.getElem?_set_ne (Id.index_ne hsame).symm
    exact ⟨x, hother.trans hx, hk⟩

/-- Commands that are only added are empty. -/
theorem Quiet.inputAt (q : Quiet o o') {command : CommandId} {k : Nat} {id : InputId} :
    o'.InputAt command k id ↔ o.InputAt command k id := by
  obtain ⟨fresh, hfresh, hcommands⟩ := q.commands
  have hlists : o'.commands.map Command.inputs = (o.commands ++ fresh).map Command.inputs := by
    have hbare := congrArg (List.map Command.inputs) hcommands
    rw [List.map_map, List.map_map] at hbare
    exact hbare
  have hat : ∀ ox : Objects, ox.InputAt command k id ↔
      ∃ ids, (ox.commands.map Command.inputs)[command.index]? = some ids ∧ ids[k]? = some id := by
    intro ox
    simp only [InputAt, command?, List.getElem?_map, Option.map_eq_some_iff]
    constructor
    · rintro ⟨c, hc, hk⟩
      exact ⟨_, ⟨c, hc, rfl⟩, hk⟩
    · rintro ⟨_, ⟨c, hc, rfl⟩, hk⟩
      exact ⟨c, hc, hk⟩
  rw [hat o', hat o, hlists, List.map_append]
  constructor
  · rintro ⟨ids, hids, hk⟩
    rcases Nat.lt_or_ge command.index (o.commands.map Command.inputs).length with hlt | hge
    · exact ⟨ids, (List.getElem?_append_left hlt).symm.trans hids, hk⟩
    · rw [List.getElem?_append_right hge] at hids
      obtain ⟨c, hc, rfl⟩ := List.mem_map.mp (List.mem_of_getElem? hids)
      rw [(hfresh c hc).inputs] at hk
      cases hk
  · rintro ⟨ids, hids, hk⟩
    obtain ⟨hlt, -⟩ := List.getElem?_eq_some_iff.mp hids
    exact ⟨ids, (List.getElem?_append_left hlt).trans hids, hk⟩

/-! ### No input stands in two commands -/

/-- Commands and inputs agree on who stands where. -/
structure Enlisted (o : Objects) : Prop where
  /-- No input stands in two commands. -/
  apart : ∀ {m m' : CommandId} {k k' : Nat} {id : InputId},
    o.InputAt m k id → o.InputAt m' k' id → m = m'
  /-- An input that carries a number stands in a command. -/
  listed : ∀ {id : InputId} {i : Input} {n : Nat}, o.input? id = some i → i.label = some n →
    ∃ m k, o.InputAt m k id

namespace Enlisted

/-- Commands that take in no input, and inputs that are given no number, agree as before. -/
theorem of_same (h : Enlisted o)
    (hat : ∀ {m : CommandId} {k : Nat} {id : InputId}, o'.InputAt m k id ↔ o.InputAt m k id)
    (hlabels : ∀ {id : InputId} {i' : Input} {n : Nat}, o'.input? id = some i' →
      i'.label = some n → ∃ i, o.input? id = some i ∧ i.label = some n) : Enlisted o' where
  apart := fun hm hm' => h.apart (hat.mp hm) (hat.mp hm')
  listed := fun hi' hn => by
    obtain ⟨i, hi, hlabel⟩ := hlabels hi' hn
    obtain ⟨m, k, hm⟩ := h.listed hi hlabel
    exact ⟨m, k, hat.mpr hm⟩

theorem quiet (h : Enlisted o) (q : Quiet o o') : Enlisted o' := by
  refine h.of_same q.inputAt fun {id i' n} hi' hn => ?_
  obtain ⟨count, hlabels⟩ := q.inputs
  have hget : (o'.inputs.map Input.label)[id.index]? = some (some n) := by
    rw [List.getElem?_map, show o'.inputs[id.index]? = some i' from hi', Option.map_some, hn]
  rw [hlabels] at hget
  rcases Nat.lt_or_ge id.index (o.inputs.map Input.label).length with hlt | hge
  · rw [List.getElem?_append_left hlt, List.getElem?_map, Option.map_eq_some_iff] at hget
    exact hget
  · rw [List.getElem?_append_right hge] at hget
    cases List.eq_of_mem_replicate (List.mem_of_getElem? hget)

/-- Changes that leave commands and inputs alone leave their agreement. -/
theorem of_lists (h : Enlisted o) (hcommands : o'.commands = o.commands)
    (hinputs : o'.inputs = o.inputs) : Enlisted o' := by
  refine h.of_same (InputAt.of_commands hcommands) fun {id i' n} hi' hn => ⟨i', ?_, hn⟩
  rw [input?, ← hinputs]
  exact hi'

/-- A command that takes no input in may take the place of one. -/
theorem setCommand (h : Enlisted o) {m : CommandId} {c c' : Command}
    (hc : o.command? m = some c) (hinputs : c'.inputs = c.inputs) :
    Enlisted (o.setCommand m c') :=
  h.of_same (InputAt.setCommand hc hinputs) fun {_ i' _} hi' hn => ⟨i', hi', hn⟩

/-- A command may take in an input without a number. -/
theorem label (h : Enlisted o) (hs : Sound o) {m : CommandId} {c : Command} {added : InputId}
    {i : Input} (hc : o.command? m = some c) (hi : o.input? added = some i) (hfree : i.label = none) :
    Enlisted ((o.setInput added { i with label := some c.inputs.length }).setCommand m
      { c with inputs := c.inputs ++ [added] }) := by
  have hnew : ∀ {m' : CommandId} {k : Nat}, ¬o.InputAt m' k added := by
    rintro m' k ⟨c', hc', hk⟩
    obtain ⟨i', hi', hlabel⟩ := (hs.command hc').labelled k added hk
    obtain rfl : i = i' := Option.some.inj (hi.symm.trans hi')
    rw [hfree] at hlabel
    cases hlabel
  have hc' : (o.setInput added { i with label := some c.inputs.length }).command? m = some c := hc
  constructor
  · intro m₁ m₂ k₁ k₂ id h₁ h₂
    rcases InputAt.of_taken hc' h₁ with ⟨rfl, rfl⟩ | hold₁
    · rcases InputAt.of_taken hc' h₂ with ⟨rfl, -⟩ | hold₂
      · rfl
      · exact absurd hold₂ hnew
    · rcases InputAt.of_taken hc' h₂ with ⟨rfl, rfl⟩ | hold₂
      · exact absurd hold₁ hnew
      · exact h.apart hold₁ hold₂
  · intro id i' n hi' hn
    by_cases hsame : id = added
    · subst hsame
      exact ⟨m, c.inputs.length, _, getElem?_set_eq_of_some _ hc, List.getElem?_concat_length⟩
    · have hother : o.input? id = some i' :=
        (List.getElem?_set_ne (Id.index_ne hsame).symm).symm.trans hi'
      obtain ⟨m', k, hm'⟩ := h.listed hother hn
      exact ⟨m', k, InputAt.taken added hc' hm'⟩

end Enlisted

theorem Step.enlisted {e : List Effect} (step : Step o e o') (hs : Sound o) (h : Enlisted o) :
    Enlisted o' := by
  cases step with
  | quiet q => exact h.quiet q
  | take | append | prepend | place | join | gather => exact h.of_lists rfl rfl
  | refer => exact h.of_lists (chainsOnly_referTo o _ _).commands (chainsOnly_referTo o _ _).inputs
  | bind => exact h.of_lists (chainsOnly_bindInputs o _ _).commands (chainsOnly_bindInputs o _ _).inputs
  | label hc hi hfree => exact h.label hs hc hi hfree
  | adopt targets hc => exact h.setCommand hc rfl
  | enter hc hout known refers =>
      rename_i command c output out s
      have hplain : Enlisted (o.setOutput output { out with maps := out.maps ++ [s] }) :=
        h.of_lists rfl rfl
      exact hplain.setCommand hc rfl
  | list hc => exact h.setCommand hc rfl

/-! ### Identities -/

/-- Inputs and chains carry the places at which they stand, and stand nowhere else. -/
structure Identified (o : Objects) : Prop where
  label : ∀ {m : CommandId} {k : Nat} {id : InputId}, o.InputAt m k id →
    ∃ i, o.input? id = some i ∧ i.label = some k
  input_once : ∀ {m m' : CommandId} {k k' : Nat} {id : InputId}, o.InputAt m k id →
    o.InputAt m' k' id → m = m' ∧ k = k'
  unlisted : ∀ {id : InputId} {i : Input}, o.input? id = some i →
    (∀ m k, ¬o.InputAt m k id) → i.label = none
  position : ∀ {g : GraphId} {k : Nat} {id : ChainId}, o.ChainAt g k id →
    ∃ c, o.chain? id = some c ∧ c.position = some k
  chain_once : ∀ {g g' : GraphId} {k k' : Nat} {id : ChainId}, o.ChainAt g k id →
    o.ChainAt g' k' id → g = g' ∧ k = k'

/-- Sound objects whose lists have nothing in common carry the places at which they stand. -/
theorem Sound.identified (hs : Sound o) (enlisted : Enlisted o) (apart : GraphsApart o) :
    Identified o := by
  have hlabel : ∀ {m : CommandId} {k : Nat} {id : InputId}, o.InputAt m k id →
      ∃ i, o.input? id = some i ∧ i.label = some k := by
    rintro m k id ⟨c, hc, hk⟩
    exact (hs.command hc).labelled k id hk
  have hposition : ∀ {g : GraphId} {k : Nat} {id : ChainId}, o.ChainAt g k id →
      ∃ c, o.chain? id = some c ∧ c.position = some k := by
    rintro g k id ⟨gr, hg, hk⟩
    exact (hs.graph hg).placed k id hk
  refine ⟨hlabel, ?_, ?_, hposition, ?_⟩
  · intro m m' k k' id h h'
    obtain ⟨i, hi, hnumber⟩ := hlabel h
    obtain ⟨i', hi', hnumber'⟩ := hlabel h'
    obtain rfl : i = i' := Option.some.inj (hi.symm.trans hi')
    exact ⟨enlisted.apart h h', Option.some.inj (hnumber.symm.trans hnumber')⟩
  · intro id i hi hnowhere
    by_contra hlabelled
    obtain ⟨n, hn⟩ := Option.ne_none_iff_exists'.mp hlabelled
    obtain ⟨m, k, hm⟩ := enlisted.listed hi hn
    exact hnowhere m k hm
  · intro g g' k k' id h h'
    obtain ⟨c, hc, hplace⟩ := hposition h
    obtain ⟨c', hc', hplace'⟩ := hposition h'
    obtain rfl : c = c' := Option.some.inj (hc.symm.trans hc')
    obtain ⟨gr, hg, hk⟩ := h
    obtain ⟨gr', hg', hk'⟩ := h'
    exact ⟨apart g g' gr gr' hg hg' id (List.mem_of_getElem? hk) (List.mem_of_getElem? hk'),
      Option.some.inj (hplace.symm.trans hplace')⟩

theorem identified_afterCalls {calls : List Call} (hcopies : ∀ call ∈ calls, call.copies = false) :
    Identified (afterCalls {} calls) := by
  refine (sound_empty.afterCalls calls).1.identified ?_ ?_
  · refine invariant_of_steps Step.enlisted hcopies sound_empty ⟨?_, ?_⟩
    · rintro m m' k k' id ⟨c, hc, -⟩
      cases hc
    · intro id i n hi
      cases hi
  · refine invariant_of_steps Step.graphsApart hcopies sound_empty ?_
    intro g g' gr gr' hg
    cases hg

/-- Numbers and places that are set are the same later. -/
structure Lasting (o o' : Objects) : Prop where
  label : ∀ {id : InputId} {i : Input} {k : Nat}, o.input? id = some i → i.label = some k →
    ∃ i', o'.input? id = some i' ∧ i'.label = some k
  position : ∀ {id : ChainId} {c : Chain} {k : Nat}, o.chain? id = some c → c.position = some k →
    ∃ c', o'.chain? id = some c' ∧ c'.position = some k

theorem Keeps.lasting (keeps : o.Keeps o') : Lasting o o' where
  label := fun {id i k} hi hlabel => by
    obtain ⟨i', hi', hkept⟩ := keeps.input id i hi
    exact ⟨i', hi', hkept k hlabel⟩
  position := fun {id c k} hc hposition => by
    obtain ⟨c', hc', hkept⟩ := keeps.chain id c hc
    exact ⟨c', hc', hkept.position k hposition⟩

/-! ### Numbers in names of streams -/

/-- The number at the beginning of the name of a stream. -/
def inputNumber (text : String) : Nat :=
  Nat.ofDigitChars 10 (text.toList.takeWhile Char.isDigit) 0

/-- What follows the number of an input does not begin with a digit. -/
theorem inputNumber_append (k : Nat) {rest : String}
    (hrest : rest.toList.takeWhile Char.isDigit = []) : inputNumber (toString k ++ rest) = k := by
  have hdigits : ∀ c ∈ Nat.toDigits 10 k, c.isDigit = true := fun c hc =>
    Nat.isDigit_of_mem_toDigits (by decide) (by decide) hc
  have htext : (toString k ++ rest).toList = Nat.toDigits 10 k ++ rest.toList := by
    rw [String.toList_append, show toString k = k.repr from rfl, Nat.toList_repr]
  rw [inputNumber, htext, List.takeWhile_append_of_pos hdigits, hrest, List.append_nil,
    Nat.ofDigitChars_ten_toDigits]

/-- The name of a stream of an input begins with the number of the input. -/
theorem inputNumber_specifierText {id : InputId} {i : Input} {k : Nat} (track : Option Track)
    (hi : o.input? id = some i) (hlabel : i.label = some k) :
    ∃ text, o.specifierText (.input id track) = .ok text ∧ inputNumber text = k := by
  refine ⟨_, specifierText_input track hi hlabel, ?_⟩
  cases track with
  | none =>
      show inputNumber (toString k) = k
      rw [← String.append_empty (s := toString k)]
      exact inputNumber_append k rfl
  | some track =>
      show inputNumber (toString k ++ ":" ++ track.text) = k
      rw [String.append_assoc]
      refine inputNumber_append k ?_
      rw [String.toList_append]
      exact List.takeWhile_cons_of_neg (by decide)

/-- **Numbers and places are lasting identities.**  In a session without copies every input of a command
carries its place there as its number and stands in no other command and at no other place; an input
outside all commands has no number; and every chain of a graph carries its place there and stands in no
other graph and at no other place.  Whatever is called later, refused or not, numbers and places stay as
they are.  So the names of the streams of two inputs of a command begin with different numbers, and all
names of the pads of a chain hold the place of the chain in its graph. -/
theorem identities_last {calls : List Call} (hcopies : ∀ call ∈ calls, call.copies = false) :
    (afterCalls {} calls).Identified ∧
    (∀ more, (afterCalls {} calls).Lasting (afterCalls {} (calls ++ more))) ∧
    (∀ {m : CommandId} {k k' : Nat} {id id' : InputId}, (afterCalls {} calls).InputAt m k id →
      (afterCalls {} calls).InputAt m k' id' → id ≠ id' → ∀ track track', ∃ text text',
        (afterCalls {} calls).specifierText (.input id track) = .ok text ∧
        (afterCalls {} calls).specifierText (.input id' track') = .ok text' ∧
        inputNumber text = k ∧ inputNumber text' = k' ∧ k ≠ k') ∧
    (∀ {g : GraphId} {k : Nat} {id : ChainId} {c : Chain}, (afterCalls {} calls).ChainAt g k id →
      (afterCalls {} calls).chain? id = some c →
        padLabels id c = .ok (c.labeledPads.map (padName c k)) ∧
        ∀ pad, (afterCalls {} calls).specifierText (.pad id pad)
          = .ok ("[" ++ padName c k pad ++ "]")) := by
  have identified := identified_afterCalls hcopies
  refine ⟨identified, ?_, ?_, ?_⟩
  · intro more
    rw [afterCalls_append]
    exact ((sound_empty.afterCalls calls).1.afterCalls more).2.lasting
  · intro m k k' id id' hat hat' hne track track'
    obtain ⟨i, hi, hlabel⟩ := identified.label hat
    obtain ⟨i', hi', hlabel'⟩ := identified.label hat'
    obtain ⟨text, htext, hnumber⟩ := inputNumber_specifierText track hi hlabel
    obtain ⟨text', htext', hnumber'⟩ := inputNumber_specifierText track' hi' hlabel'
    refine ⟨text, text', htext, htext', hnumber, hnumber', ?_⟩
    -- What stands at one place of a command is one input.
    rintro rfl
    obtain ⟨c, hc, hk⟩ := hat
    obtain ⟨c', hc', hk'⟩ := hat'
    obtain rfl : c = c' := Option.some.inj (hc.symm.trans hc')
    exact hne (Option.some.inj (hk.symm.trans hk'))
  · intro g k id c hat hc
    obtain ⟨c', hc', hposition⟩ := identified.position hat
    obtain rfl : c = c' := Option.some.inj (hc.symm.trans hc')
    exact ⟨padLabels_placed id hposition, fun pad => specifierText_placed pad hc hposition⟩

/-- A session with two commands and a graph, in which an input of the first command is refused by the
second and a chain of the graph by another. -/
def refusalSession : List Call :=
  [.act (.newCommand .null none), .act (.newCommand .null none),
    .act (.newInput (.text "a.mp4") .null), .act (.newInput (.text "b.mp4") .null),
    .act (.newInput (.text "c.mp4") .null),
    .act (.addInput ⟨0⟩ (.object (.input ⟨1⟩))), .act (.addInput ⟨0⟩ (.object (.input ⟨0⟩))),
    .act (.addInput ⟨1⟩ (.object (.input ⟨0⟩))),
    .act (.newFilter (.text "null") .null (.int 1) (.int 1)),
    .act (.newChain (.object (.filter ⟨0⟩))),
    .act (.newFilter (.text "hflip") .null (.int 1) (.int 1)),
    .act (.newChain (.object (.filter ⟨1⟩))),
    .act (.newGraph (.list [.object (.chain ⟨0⟩), .object (.chain ⟨1⟩)])),
    .act (.newGraph (.list [.object (.chain ⟨1⟩)]))]

/-- In this session the refused input stays the second of the first command and the refused chain the
second of the first graph, and the third input has no number. -/
theorem refusals_leave_identities :
    (afterCalls {} refusalSession).InputAt ⟨0⟩ 1 ⟨0⟩ ∧
    (∀ m k, (afterCalls {} refusalSession).InputAt m k ⟨0⟩ → ⟨0⟩ = m ∧ 1 = k) ∧
    (∃ i, (afterCalls {} refusalSession).input? ⟨2⟩ = some i ∧ i.label = none) ∧
    (∀ more, ∃ i, (afterCalls {} (refusalSession ++ more)).input? ⟨0⟩ = some i ∧ i.label = some 1) ∧
    (∃ text text', (afterCalls {} refusalSession).specifierText (.input ⟨1⟩ none) = .ok text ∧
      (afterCalls {} refusalSession).specifierText (.input ⟨0⟩ none) = .ok text' ∧
      inputNumber text ≠ inputNumber text') ∧
    (∀ g k, (afterCalls {} refusalSession).ChainAt g k ⟨1⟩ → ⟨0⟩ = g ∧ 1 = k) ∧
    (afterCalls {} refusalSession).specifierText (.pad ⟨1⟩ 0) = .ok "[chain1_hflip_0]" := by
  have hcopies : ∀ call ∈ refusalSession, call.copies = false := by decide
  obtain ⟨identified, lasting, names, pads⟩ := identities_last hcopies
  have hfirst : (afterCalls {} refusalSession).InputAt ⟨0⟩ 0 ⟨1⟩ := ⟨_, rfl, rfl⟩
  have hsecond : (afterCalls {} refusalSession).InputAt ⟨0⟩ 1 ⟨0⟩ := ⟨_, rfl, rfl⟩
  have hchain : (afterCalls {} refusalSession).ChainAt ⟨0⟩ 1 ⟨1⟩ := ⟨_, rfl, rfl⟩
  obtain ⟨text, text', htext, htext', hnumber, hnumber', hne⟩ :=
    names hfirst hsecond (by decide) none none
  refine ⟨hsecond, fun m k h => identified.input_once hsecond h, ⟨_, rfl, rfl⟩, fun more => ?_,
    ⟨text, text', htext, htext', by rwa [hnumber, hnumber']⟩,
    fun g k h => identified.chain_once hchain h, (pads hchain rfl).2 0⟩
  obtain ⟨i, hi, hlabel⟩ := identified.label hsecond
  exact (lasting more).label hi hlabel

end Objects

end MediaCommand
