/-
A specifier for a pad never goes stale.

A specifier refers to a chain and an index, and its text is put together anew each time from the
chain as it is then.  Filters added at the end change the name of the chain and its number of pads,
graphs give it a place, and refused mappings take references back.  That a specifier handed out stays
good through all of this rests on two facts: the reference it stands for is never taken back by
anything but the call that made it, and no call leaves a reference to a pad that the chain lacks.
-/
import MediaCommand.Proofs.Calls

namespace MediaCommand

namespace Objects

variable {o : Objects}

/-- A call hands out a specifier for a pad: it answers it, or the specifier is among the mappings of a
command afterwards. -/
def HandsOut (o : Objects) (a : Action) (id : ChainId) (pad : Nat) : Prop :=
  (∃ specifier s, (o.perform a).result = .ok (.object (.specifier specifier)) ∧
    (o.perform a).objects.specifier? specifier = some s ∧ s.source = .pad id pad) ∨
  ∃ c ∈ (o.perform a).objects.commands, ∃ m ∈ c.mappings, m.source.source = .pad id pad

theorem specifier?_addSpecifier (o : Objects) (source : Source) :
    (o.addSpecifier source).1.specifier? (o.addSpecifier source).2.id
      = some (o.addSpecifier source).2 := by
  show (o.specifiers ++ [_])[o.specifiers.length]? = _
  simp
  rfl

theorem outputPad_ok {o' : Objects} {id : ChainId} {selector : Value} {s : Specifier}
    (h : o.outputPad id selector = .ok (o', s)) :
    o'.specifier? s.id = some s ∧ ∃ pad, s.source = .pad id pad := by
  obtain ⟨c, hc, h⟩ := bind_ok.mp h
  obtain ⟨pad, hpad, h⟩ := bind_ok.mp h
  cases h
  exact ⟨specifier?_addSpecifier _ _, pad, rfl⟩

/-- Asking a chain for a pad hands out what it answers. -/
theorem handsOut_outputPad {id : ChainId} {selector v : Value}
    (h : (o.perform (.outputPad id selector)).result = .ok v) :
    ∃ pad, o.HandsOut (.outputPad id selector) id pad := by
  unfold HandsOut
  simp only [perform, madeSpecifier, made] at h ⊢
  cases hmade : o.outputPad id selector with
  | error e =>
      rw [hmade] at h
      cases h
  | ok x =>
      obtain ⟨hthere, pad, hsource⟩ := outputPad_ok hmade
      exact ⟨pad, Or.inl ⟨x.2.id, x.2, rfl, hthere, hsource⟩⟩

/-- Asking for a pad of the chain that a value names hands out what it answers. -/
theorem handsOut_fromFilterOutput {chain selector v : Value}
    (h : (o.perform (.fromFilterOutput chain selector)).result = .ok v) :
    ∃ id pad, o.HandsOut (.fromFilterOutput chain selector) id pad := by
  unfold HandsOut
  simp only [perform, madeSpecifier, made] at h ⊢
  cases hmade : o.fromFilterOutput chain selector with
  | error e =>
      rw [hmade] at h
      cases h
  | ok x =>
      have hpad : ∃ id, o.outputPad id selector = .ok x := by
        unfold fromFilterOutput at hmade
        split at hmade
        · exact ⟨_, hmade⟩
        · cases hmade
        · cases hmade
      obtain ⟨id, hpad⟩ := hpad
      obtain ⟨hthere, pad, hsource⟩ := outputPad_ok hpad
      exact ⟨id, pad, Or.inl ⟨x.2.id, x.2, rfl, hthere, hsource⟩⟩

/-- A specifier for a pad of the chain at a place in a graph has the name that the graph gives to the
pad: it stands among the labels of the graph, after those of the chains before, and it is the label
with the number of the pad behind the filters whenever the chain has a text. -/
def NamedIn (o : Objects) (id : ChainId) (pad : Nat) (c : Chain) (g : Graph) (k : Nat) : Prop :=
  ∃ name front own back, o.specifierText (.pad id pad) = .ok ("[" ++ name ++ "]") ∧
    o.graphLabels g = .ok (front ++ own ++ back) ∧
    o.graphLabels { chains := g.chains.take k } = .ok front ∧
    padLabels id c = .ok own ∧ own[pad]? = some name ∧
    ∀ t text, o.chainText t id c = .ok text → ∃ inputs filters,
      c.inputs.mapM (fun s => o.inputLabel s.source) = .ok inputs ∧
      filtersText t c = .ok filters ∧
      text = String.join inputs ++ filters ++ String.join (own.map fun l => "[" ++ l ++ "]")

/-- A specifier for a pad is as good as when it was handed out. -/
structure Current (o : Objects) (id : ChainId) (pad : Nat) (c : Chain) : Prop where
  there : o.chain? id = some c
  inRange : c.outputArity.hasPad pad = true
  labelled : pad ∈ c.labeledPads
  named : ∀ g ∈ o.graphs, ∀ k : Nat, g.chains[k]? = some id → o.NamedIn id pad c g k
  /-- Without a place neither the specifier nor the chain has a text. -/
  unplaced : c.position = none → o.specifierText (.pad id pad) = .error (.unplaced id) ∧
    ∀ t, ∃ e, o.chainText t id c = .error e

theorem chainText_ok {t : Texts} {id : ChainId} {c : Chain} {text : String}
    (h : o.chainText t id c = .ok text) : ∃ inputs filters outputs,
      c.inputs.mapM (fun s => o.inputLabel s.source) = .ok inputs ∧
      filtersText t c = .ok filters ∧ padLabels id c = .ok outputs ∧
      text = String.join inputs ++ filters ++
        String.join (outputs.map fun l => "[" ++ l ++ "]") := by
  obtain ⟨inputs, hinputs, h⟩ := bind_ok.mp h
  obtain ⟨filters, hfilters, h⟩ := bind_ok.mp h
  obtain ⟨outputs, houtputs, h⟩ := bind_ok.mp h
  exact ⟨inputs, filters, outputs, hinputs, hfilters, houtputs, (Except.ok.inj h).symm⟩

/-- A chain in a graph gives its labels after those of the chains before it. -/
theorem Sound.namedIn (hs : Sound o) {id : ChainId} {pad : Nat} {c : Chain} {g : Graph} {k : Nat}
    (hc : o.chain? id = some c) (hpad : pad ∈ c.references) (hg : g ∈ o.graphs)
    (hk : g.chains[k]? = some id) : o.NamedIn id pad c g k := by
  obtain ⟨c', hc', hposition⟩ := (hs.graphs g hg).placed k id hk
  obtain rfl : c' = c := Option.some.inj (hc'.symm.trans hc)
  have hall := hs.placed hg
  obtain ⟨hlt, hget⟩ := List.getElem?_eq_some_iff.mp hk
  have hsplit : (g.chains.map o.labelsAt).flatten
      = ((g.chains.take k ++ id :: g.chains.drop (k + 1)).map o.labelsAt).flatten := by
    rw [← hget, ← List.drop_eq_getElem_cons hlt, List.take_append_drop]
  refine ⟨padName c' k pad, ((g.chains.take k).map o.labelsAt).flatten,
    c'.labeledPads.map (padName c' k), ((g.chains.drop (k + 1)).map o.labelsAt).flatten,
    specifierText_placed pad hc hposition, ?_, ?_, padLabels_placed id hposition,
    getElem?_labels k hpad, ?_⟩
  · rw [graphLabels_placed hall, hsplit, List.map_append, List.map_cons, List.flatten_append,
      List.flatten_cons, labelsAt_placed hc hposition, List.append_assoc]
  · exact graphLabels_placed fun x hx => hall x (List.mem_of_mem_take hx)
  · intro t text htext
    obtain ⟨inputs, filters, outputs, hinputs, hfilters, houtputs, rfl⟩ := chainText_ok htext
    rw [padLabels_placed id hposition] at houtputs
    cases houtputs
    exact ⟨inputs, filters, hinputs, hfilters, rfl⟩

theorem padLabels_unplaced {id : ChainId} {c : Chain} {pad : Nat} (h : c.position = none)
    (hpad : pad ∈ c.references) : padLabels id c = .error (.unplaced id) := by
  have hcount : (c.labeledCount == 0) = false :=
    beq_eq_false_iff_ne.mpr (Nat.ne_of_gt (Nat.zero_lt_of_lt (lt_labeledCount hpad)))
  simp only [padLabels, h, hcount, Bool.false_eq_true, if_false]

/-- A specifier whose reference is there is as good as it was. -/
theorem Sound.current (hs : Sound o) {id : ChainId} {pad : Nat} (h : o.Refers (.pad id pad)) :
    ∃ c, o.Current id pad c := by
  obtain ⟨c, hc, hpad⟩ := h
  refine ⟨c, hc, (hs.chain hc).range pad hpad, mem_labeledPads hpad,
    fun g hg k hk => hs.namedIn hc hpad hg hk, fun hposition => ⟨?_, fun t => ?_⟩⟩
  · rw [specifierText_pad pad hc, padLabel_unplaced id _ hposition]
    rfl
  · cases htext : o.chainText t id c with
    | error e => exact ⟨e, rfl⟩
    | ok text =>
        obtain ⟨inputs, filters, outputs, -, -, houtputs, -⟩ := chainText_ok htext
        rw [padLabels_unplaced hposition hpad] at houtputs
        cases houtputs

/-- **A specifier handed out never goes stale.**  Whatever was called before, and whatever is called
after a call that handed it out, the pad is one of its chain and carries a label, and the specifier has
the name that a graph with the chain gives to the pad. -/
theorem specifier_never_stale (before after : List Call) {a : Action} {id : ChainId} {pad : Nat}
    (h : (afterCalls {} before).HandsOut a id pad) :
    ∃ c, (afterCalls {} (before ++ .act a :: after)).Current id pad c := by
  have hs := (sound_empty.afterCalls before).1
  have hsound := (hs.afterCall (.act a)).1
  have hrefers : ((afterCalls {} before).afterCall (.act a)).Refers (.pad id pad) := by
    rcases h with ⟨specifier, s, -, hspecifier, hsource⟩ | ⟨c, hc, m, hm, hsource⟩
    · rw [← hsource]
      exact hsound.specifiers s (specifier?_mem hspecifier)
    · rw [← hsource]
      exact (hsound.commands c hc).mapped m hm
  rw [afterCalls_append]
  obtain ⟨hs', k⟩ := hsound.afterCalls after
  exact hs'.current (k.refers hrefers)

/-- In the session above the second pad of the first chain is handed out before the chain has a place,
and is called by the place of its chain, its filter and its index at the end. -/
theorem split_pad_never_stale :
    (afterCalls {} (splitSession.take 3)).HandsOut (.outputPad ⟨0⟩ (.int 1)) ⟨0⟩ 1 ∧
      (∃ c, (afterCalls {} splitSession).Current ⟨0⟩ 1 c) ∧
      (afterCalls {} splitSession).specifierText (.pad ⟨0⟩ 1) = .ok "[chain0_split_1]" := by
  have h : (afterCalls {} (splitSession.take 3)).HandsOut (.outputPad ⟨0⟩ (.int 1)) ⟨0⟩ 1 :=
    Or.inl ⟨⟨0⟩, ⟨⟨0⟩, .pad ⟨0⟩ 1⟩, rfl, rfl, rfl⟩
  exact ⟨h, specifier_never_stale (splitSession.take 3) (splitSession.drop 4) h, rfl⟩

end Objects

end MediaCommand
