/-
Connections fit the pads that are there.

How many pads a chain has is read off the filter that is first or last at the moment, and filters may
be added at both ends while the chain is connected.  Two things are kept by every call: the bound
inputs, if there are any, are no more than the first filter takes, and every pad that feeds a chain
is one that a specifier refers to.  Pads referred to are pads of the chain, so everything connected to
a chain is connected to a pad that it has, and a chain never has more labels than pads.

A chain that nothing is connected to says nothing about its filters.  A count below zero, which no
checked filter has, would leave no room even for no inputs at all.
-/
import MediaCommand.Proofs.Consumption
import MediaCommand.Proofs.Specifiers
import MediaCommand.Proofs.Statements

namespace MediaCommand

/-! ### Counts of pads -/

/-- A count of pads is not below zero. -/
def Arity.Counts : Arity → Prop
  | .fixed count => 0 ≤ count
  | .unbounded => True

theorem Arity.accepts_zero {a : Arity} (h : a.Counts) : a.accepts 0 = true := by
  cases a with
  | fixed count => exact decide_eq_true h
  | unbounded => rfl

/-- As many pads as there are up to one that there is can be taken. -/
theorem Arity.accepts_of_hasPad {a : Arity} {pad : Nat} (h : a.hasPad pad = true) :
    a.accepts (pad + 1) = true := by
  cases a with
  | fixed count =>
      simp only [hasPad, Bool.and_eq_true, decide_eq_true_eq] at h
      simp only [accepts, decide_eq_true_eq]
      omega
  | unbounded => rfl

/-! ### Chains that fit -/

/-- A chain has room for its inputs, and every pad that feeds another chain is referred to. -/
structure Chain.Fits (c : Chain) : Prop where
  room : c.inputs ≠ [] → c.inputArity.accepts c.inputs.length = true
  bound : ∀ pad ∈ c.bound, pad ∈ c.references

namespace Chain

theorem first_bare (c : Chain) : c.bare.first = c.first.bare := by
  simp only [first, bare, List.head_map]

theorem inputArity_of_bare {c c' : Chain} (h : c'.bare = c.bare) :
    c'.inputArity = c.inputArity := by
  have hfirst : c'.bare.first.inputArity = c.bare.first.inputArity := by rw [h]
  rw [first_bare, first_bare] at hfirst
  exact hfirst

theorem first_append (c : Chain) (fs : List Filter) : (c.append fs).first = c.first :=
  List.head_append_of_ne_nil c.nonempty

theorem first_prepend {c : Chain} {fs : List Filter} {f : Filter} (h : fs.head? = some f) :
    (c.prepend fs).first = f := by
  have hhead : (fs ++ c.filters).head? = some f := by
    rw [List.head?_append, h]
    rfl
  have hget := List.head?_eq_some_head (c.prepend fs).nonempty
  exact Option.some.inj (hget.symm.trans hhead)

theorem mem_bound_of_addBound {c : Chain} {pad p : Nat} (h : p ∈ (c.addBound pad).bound) :
    p = pad ∨ p ∈ c.bound := by
  unfold addBound at h
  dsimp only at h
  split at h
  · exact Or.inr h
  · exact List.mem_cons.mp h

theorem Fits.of_bare {c c' : Chain} (h : c.Fits) (hbare : c'.bare = c.bare) : c'.Fits := by
  obtain ⟨hinputs, hreferences, -, hbound, -⟩ := connections_of_bare hbare
  refine ⟨?_, ?_⟩
  · rw [hinputs, inputArity_of_bare hbare]
    exact h.room
  · rw [hbound, hreferences]
    exact h.bound

theorem Fresh.fits {c : Chain} (h : c.Fresh) : c.Fits where
  room := fun hne => absurd h.inputs hne
  bound := fun pad hpad => by
    rw [h.bound] at hpad
    cases hpad

/-- A chain with the same first filter and inputs, and no more pads that feed a chain, fits as well. -/
theorem Fits.of_grown {c c' : Chain} (h : c.Fits) (hfirst : c'.first = c.first)
    (hinputs : c'.inputs = c.inputs) (hbound : ∀ pad ∈ c'.bound, pad ∈ c.bound)
    (hreferences : ∀ pad ∈ c.references, pad ∈ c'.references) : c'.Fits := by
  refine ⟨?_, fun pad hpad => hreferences pad (h.bound pad (hbound pad hpad))⟩
  unfold inputArity
  rw [hfirst, hinputs]
  exact h.room

end Chain

/-- The specifiers of a pad refer to it. -/
theorem Specifier.pad?_eq_some {s : Specifier} {id : ChainId} {pad : Nat} :
    s.pad? = some (id, pad) ↔ s.source = .pad id pad := by
  unfold Specifier.pad?
  cases s.source <;> simp

namespace Objects

variable {o o' : Objects}

/-- All chains fit. -/
def Fitted (o : Objects) : Prop := ∀ c ∈ o.chains, c.Fits

theorem Fitted.chain (h : Fitted o) {id : ChainId} {c : Chain} (hc : o.chain? id = some c) :
    c.Fits := h c (mem_chains hc)

theorem Fitted.setChain (h : Fitted o) (id : ChainId) {c : Chain} (hc : c.Fits) :
    Fitted (o.setChain id c) := by
  intro x hx
  rcases mem_setChain hx with hold | rfl
  · exact h x hold
  · exact hc

theorem Fitted.quiet (h : Fitted o) (q : Quiet o o') : Fitted o' := by
  intro c' hc'
  rcases q.mem_chains hc' with ⟨c, hc, hbare⟩ | ⟨c, hfresh, hbare⟩
  · exact (h c hc).of_bare hbare
  · exact hfresh.fits.of_bare hbare

/-! ### Binding streams -/

/-- Listing a pad that is referred to leaves a chain that fits. -/
theorem Fitted.bindPad (h : Fitted o) {s : Specifier} (hs : o.Refers s.source) :
    Fitted (o.bindPad s) := by
  unfold Objects.bindPad
  split
  · rename_i id pad hpad
    rw [Specifier.pad?_eq_some.mp hpad] at hs
    obtain ⟨c, hc, hin⟩ := hs
    rw [modifyChain_eq _ hc]
    refine h.setChain id ⟨(h.chain hc).room, fun p hp => ?_⟩
    rcases Chain.mem_bound_of_addBound hp with rfl | hold
    · exact hin
    · exact (h.chain hc).bound p hold
  · exact h

theorem Fitted.bindPads (specifiers : List Specifier) :
    ∀ {o : Objects}, Fitted o → (∀ s ∈ specifiers, o.Refers s.source) →
      Fitted (specifiers.foldl Objects.bindPad o) := by
  induction specifiers with
  | nil => exact fun h _ => h
  | cons s rest ih =>
      intro o h hall
      refine ih (h.bindPad (hall s List.mem_cons_self)) fun x hx => ?_
      exact (keeps_bindPad o s).refers (hall x (List.mem_cons_of_mem s hx))

/-- Listing pads leaves the filters and the inputs of every chain. -/
theorem chain?_bindPad (s : Specifier) {id : ChainId} {c : Chain} (hc : o.chain? id = some c) :
    ∃ c', (o.bindPad s).chain? id = some c' ∧ c'.first = c.first ∧ c'.inputs = c.inputs := by
  unfold bindPad
  split
  · rename_i x pad _
    unfold modifyChain
    split
    · rename_i cx hx
      by_cases h : id = x
      · subst h
        obtain rfl : cx = c := Option.some.inj (hx.symm.trans hc)
        exact ⟨_, chain?_setChain_self _ hc, rfl, rfl⟩
      · exact ⟨c, (chain?_setChain_ne _ h).trans hc, rfl, rfl⟩
    · exact ⟨c, hc, rfl, rfl⟩
  · exact ⟨c, hc, rfl, rfl⟩

theorem chain?_bindPads (specifiers : List Specifier) :
    ∀ {o : Objects} {id : ChainId} {c : Chain}, o.chain? id = some c →
      ∃ c', (specifiers.foldl bindPad o).chain? id = some c' ∧ c'.first = c.first ∧
        c'.inputs = c.inputs := by
  induction specifiers with
  | nil => exact fun {o id c} hc => ⟨c, hc, rfl, rfl⟩
  | cons s rest ih =>
      intro o id c hc
      obtain ⟨c₁, hc₁, hfirst, hinputs⟩ := chain?_bindPad s hc
      obtain ⟨c₂, hc₂, hfirst', hinputs'⟩ := ih hc₁
      exact ⟨c₂, hc₂, hfirst'.trans hfirst, hinputs'.trans hinputs⟩

theorem Fitted.bindInputs (h : Fitted o) {id : ChainId} {c : Chain} {specifiers : List Specifier}
    (hc : o.chain? id = some c) (hall : ∀ s ∈ specifiers, o.Refers s.source)
    (fits : c.inputArity.accepts (c.inputs.length + specifiers.length) = true) :
    Fitted (o.bindInputs id specifiers) := by
  obtain ⟨c', hc', hfirst, hinputs⟩ := chain?_bindPads specifiers hc
  have hfitted := h.bindPads specifiers hall
  unfold Objects.bindInputs
  rw [modifyChain_eq _ hc']
  refine hfitted.setChain id ⟨fun _ => ?_, (hfitted.chain hc').bound⟩
  show c'.first.inputArity.accepts (c'.inputs ++ specifiers).length = true
  rw [hfirst, hinputs, List.length_append]
  exact_mod_cast fits

/-! ### Every step leaves chains that fit -/

theorem Step.fitted {e : List Effect} (h : Step o e o') (hs : Sound o) (hf : Fitted o) :
    Fitted o' := by
  cases h with
  | quiet h => exact hf.quiet h
  | refer hc hpad =>
      rename_i id c pad
      rw [referTo_eq pad hc]
      exact hf.setChain id ((hf.chain hc).of_grown rfl rfl (fun _ hp => hp)
        fun p hp => List.mem_cons_of_mem pad hp)
  | take hc =>
      exact hf.setChain _ ((hf.chain hc).of_grown rfl rfl (fun _ hp => hp) fun _ hp => hp)
  | bind hc made free fits =>
      exact hf.bindInputs hc (fun s hs' => hs.specifiers s (made s hs')) fits
  | append hc =>
      exact hf.setChain _ ((hf.chain hc).of_grown (Chain.first_append _ _) rfl (fun _ hp => hp)
        fun _ hp => hp)
  | prepend hc hhead fits =>
      refine hf.setChain _ ⟨fun _ => ?_, (hf.chain hc).bound⟩
      unfold Chain.inputArity
      rw [Chain.first_prepend hhead]
      exact fits
  | place position hc hfree =>
      exact hf.setChain _ ((hf.chain hc).of_grown rfl rfl (fun _ hp => hp) fun _ hp => hp)
  | join hg hc hfree =>
      exact hf.setChain _ ((hf.chain hc).of_grown rfl rfl (fun _ hp => hp) fun _ hp => hp)
  | gather | label | adopt | enter | list => exact hf

theorem copyChain_first (o : Objects) (m : Members) (c : Chain) :
    (o.copyChain m c).first = o.copyFilter m c.first := by
  simp only [Chain.first, copyChain, List.head_map]

/-- A copy of a chain that fits does. -/
theorem Fitted.withCopies (hf : Fitted o) (m : Members) : Fitted (o.withCopies m) := by
  intro x hx
  rcases List.mem_append.mp hx with hold | hnew
  · exact hf x hold
  · obtain ⟨c, hc, rfl⟩ := List.mem_map.mp hnew
    obtain ⟨id, -, hid⟩ := List.mem_filterMap.mp hc
    have hfits := hf.chain hid
    refine ⟨fun hne => ?_, hfits.bound⟩
    have hroom := hfits.room fun hnil => hne (by simp only [copyChain, hnil, List.map_nil])
    unfold Chain.inputArity
    rw [copyChain_first]
    show c.inputArity.accepts (c.inputs.map (o.copySpecifier m)).length = true
    rwa [List.length_map]

theorem Fitted.afterCalls (calls : List Call) (hf : Fitted o) (hs : Sound o) :
    Fitted (o.afterCalls calls) :=
  invariant_afterCalls Step.fitted (fun _ _ _ {_ m} _ fitted => fitted.withCopies m) hs hf

/-! ### Pads that a command maps -/

/-- What was entered among the mappings is there. -/
theorem Trace.refers_entered {es : List Effect} {s : Specifier} (h : Trace o es o')
    (he : .enter s ∈ es) : o'.Refers s.source := by
  induction h with
  | refl => cases he
  | step t st ih =>
      rcases List.mem_append.mp he with hold | hnew
      · exact st.keeps.refers (ih hold)
      · cases st with
        | enter hc hout known refers =>
            obtain rfl : s = _ := Effect.enter.inj (List.mem_singleton.mp hnew)
            exact (Step.enter hc hout known refers).keeps.refers refers
        | take => cases List.mem_singleton.mp hnew
        | _ => cases hnew

/-- Mapping streams marks the pads of streams that are there, and no other pads. -/
structure Marks (id : ChainId) (pad : Nat) (o o' : Objects) (specifiers : List Specifier) :
    Prop where
  refers : ∀ s ∈ specifiers, o'.Refers s.source
  marks : o'.marks id pad = o.marks id pad + specifiers.countP (·.isOn id pad)

theorem Marks.refers_pad {id : ChainId} {pad : Nat} {specifiers : List Specifier}
    (h : Marks id pad o o' specifiers) (hmore : o.marks id pad < o'.marks id pad) :
    o'.Refers (.pad id pad) := by
  have hmarks := h.marks
  have hpos : 0 < specifiers.countP (·.isOn id pad) := by omega
  obtain ⟨s, hs, hon⟩ := List.countP_pos_iff.mp hpos
  have hrefers := h.refers s hs
  rwa [Specifier.pad?_eq_some.mp (beq_iff_eq.mp hon)] at hrefers

end Objects

/-- Whether a call maps streams: with an output that it adds, to a track, or to a text. -/
def Action.maps : Action → Bool
  | .addOutput _ _ _ => true
  | .map _ _ _ _ => true
  | .mappingValue _ _ _ => true
  | _ => false

namespace Objects

variable {o o' : Objects}

/-- A call that maps streams marks their pads. -/
theorem perform_marks (hs : Sound o) {a : Action} (ha : a.maps = true) (id : ChainId)
    (pad : Nat) : ∃ specifiers, Marks id pad o (o.perform a).objects specifiers := by
  have hentered : (∀ v, a ≠ .copy v) → o.directEffects a = [] →
      ∃ specifiers, Marks id pad o (o.perform a).objects specifiers := by
    intro hcopy hdirect
    obtain ⟨specifiers, trace⟩ := perform_trace hs hcopy
    rw [hdirect, List.nil_append] at trace
    have hmoves : Moves id pad o (mapEffects specifiers) (o.perform a).objects := trace.moves
    have hmarks := hmoves.marks
    rw [mapEffects_takes] at hmarks
    refine ⟨specifiers, fun s hs => trace.refers_entered ?_, hmarks⟩
    exact List.mem_append_right _ (List.mem_map_of_mem hs)
  cases a with
  | addOutput command output mappings => exact hentered (fun _ => Action.noConfusion) rfl
  | map command output source index => exact hentered (fun _ => Action.noConfusion) rfl
  | mappingValue command source index =>
      show ∃ specifiers, Marks id pad o (o.mappingValue command source index).objects specifiers
      rcases mappingValue_cases hs command source index with
        ⟨f, -, hobjects⟩ | ⟨c, r, text, -, -, hresolve, -⟩
      · exact ⟨[], by simp, by rw [hobjects]; rfl⟩
      · obtain ⟨trace, -, refers⟩ := (resolveSource_ok hresolve).spec hs
        have hmoves : Moves id pad o (takenBy r.source) _ := trace.moves
        have hmarks := hmoves.marks
        rw [takenBy_takes] at hmarks
        exact ⟨[r.source], by simpa using refers, by rw [hmarks, List.countP_singleton]⟩
  | _ => cases ha

/-- The chain that stands for a chain after a value is copied: its copy, if it is one of the objects
copied. -/
def copiedChain (o : Objects) (v : Value) (id : ChainId) : ChainId :=
  let w := o.walk v
  if w.stuck then id
  else copiedIndex (membersOf (w.met.reverse.filter o.has) w.hollow).chains o.chains.length id

theorem refers_copiedChain {v : Value} {id : ChainId} {pad : Nat} (h : o.Refers (.pad id pad)) :
    (o.perform (.copy v)).objects.Refers (.pad (o.copiedChain v id) pad) := by
  simp only [perform, copy, copiedChain]
  split
  · exact h
  · exact refers_copied (membersOf_in o _ _) h

/-- In a session, a call of a command has put a mark on an output pad, or on the pad of the chain that
it was copied from. -/
inductive MappedByCommand : List Call → ChainId → Nat → Prop
  | maps {calls : List Call} {a : Action} {id : ChainId} {pad : Nat} (ha : a.maps = true)
      (marked : (afterCalls {} calls).marks id pad <
        ((afterCalls {} calls).afterCall (.act a)).marks id pad) :
      MappedByCommand (calls ++ [.act a]) id pad
  | stays {calls : List Call} {id : ChainId} {pad : Nat} (call : Call)
      (h : MappedByCommand calls id pad) : MappedByCommand (calls ++ [call]) id pad
  | copied {calls : List Call} {id : ChainId} {pad : Nat} (v : Value)
      (h : MappedByCommand calls id pad) :
      MappedByCommand (calls ++ [.act (.copy v)]) ((afterCalls {} calls).copiedChain v id) pad

/-- A pad that a command maps is referred to. -/
theorem MappedByCommand.refers {calls : List Call} {id : ChainId} {pad : Nat}
    (h : MappedByCommand calls id pad) : (afterCalls {} calls).Refers (.pad id pad) := by
  induction h with
  | maps ha marked =>
      rename_i calls a id pad
      obtain ⟨specifiers, hmarks⟩ := perform_marks (sound_empty.afterCalls calls).1 ha id pad
      rw [afterCalls_append]
      exact hmarks.refers_pad marked
  | stays call h ih =>
      rename_i calls id pad
      rw [afterCalls_append]
      exact ((sound_empty.afterCalls calls).1.afterCall call).2.refers ih
  | copied v h ih =>
      rw [afterCalls_append]
      exact refers_copiedChain ih

end Objects

/-! ### No more labels than pads -/

namespace Chain

/-- The greatest of successors is what was there before or one of them. -/
theorem foldl_max_attained (references : List Nat) :
    ∀ n : Nat, references.foldl (fun n pad => max n (pad + 1)) n = n ∨
      ∃ pad ∈ references, references.foldl (fun n pad => max n (pad + 1)) n = pad + 1 := by
  induction references with
  | nil => exact fun n => Or.inl rfl
  | cons p rest ih =>
      intro n
      rw [List.foldl_cons]
      rcases ih (max n (p + 1)) with heq | ⟨pad, hpad, heq⟩
      · rw [heq]
        rcases Nat.le_total n (p + 1) with hle | hle
        · exact Or.inr ⟨p, List.mem_cons_self, Nat.max_eq_right hle⟩
        · exact Or.inl (Nat.max_eq_left hle)
      · exact Or.inr ⟨pad, List.mem_cons_of_mem p hpad, heq⟩

/-- The labels go up to a pad that is referred to. -/
theorem labeledCount_cases (c : Chain) :
    c.labeledCount = 0 ∨ ∃ pad ∈ c.references, c.labeledCount = pad + 1 :=
  foldl_max_attained c.references 0

/-- A chain that refers to its own pads has a pad for each label. -/
theorem accepts_labeledCount {c : Chain} (hout : c.outputArity.Counts)
    (h : ∀ pad ∈ c.references, c.outputArity.hasPad pad = true) :
    c.outputArity.accepts c.labeledCount = true := by
  rcases c.labeledCount_cases with hzero | ⟨pad, hpad, hcount⟩
  · rw [hzero]
    exact Arity.accepts_zero hout
  · rw [hcount]
    exact_mod_cast Arity.accepts_of_hasPad (h pad hpad)

theorem Fits.accepts {c : Chain} (h : c.Fits) (hin : c.inputArity.Counts) :
    c.inputArity.accepts c.inputs.length = true := by
  by_cases hnil : c.inputs = []
  · rw [hnil]
    exact Arity.accepts_zero hin
  · exact h.room hnil

end Chain

namespace Objects

variable {o : Objects}

theorem length_padLabels {id : ChainId} {c : Chain} {labels : List String}
    (h : padLabels id c = .ok labels) : labels.length = c.labeledCount := by
  cases hposition : c.position with
  | some k =>
      rw [padLabels_placed id hposition] at h
      cases h
      rw [List.length_map, Chain.labeledPads, List.length_range]
  | none =>
      simp only [padLabels, hposition] at h
      split at h
      · rename_i hzero
        cases h
        exact (beq_iff_eq.mp hzero).symm
      · cases h

/-- The text of a chain has a label for each of its inputs, and one for each pad that carries one. -/
theorem labels_of_chainText {t : Texts} {id : ChainId} {c : Chain} {text : String}
    (hc : o.chain? id = some c) (h : o.chainText t id c = .ok text) :
    ∃ s, o.statement t id = .ok s ∧ s.text = text ∧ s.inputs.length = c.inputs.length ∧
      s.outputs.length = c.labeledCount := by
  obtain ⟨inputs, filters, outputs, hinputs, hfilters, houtputs, rfl⟩ := chainText_ok h
  refine ⟨_, statement_ok.mpr ⟨c, inputs, filters, outputs, hc, hinputs, hfilters, houtputs, rfl⟩,
    rfl, (mapM_ok.mp hinputs).length_eq.symm, ?_⟩
  rw [List.length_map]
  exact length_padLabels houtputs

/-- **What is connected to a chain fits the pads that it has.**  Whatever was called before, and
whatever became of it, the inputs bound to a chain are no more than its first filter takes; a pad that
is referred to, that feeds another chain or that a command has mapped is one of its last filter; and
the text of the chain has no more labels in front and behind than the chain has pads. -/
theorem connections_fit (calls : List Call) {id : ChainId} {c : Chain}
    (hc : (afterCalls {} calls).chain? id = some c) (hin : c.inputArity.Counts)
    (hout : c.outputArity.Counts) :
    c.inputArity.accepts c.inputs.length = true ∧
      (∀ pad : Nat, c.consumers pad ≠ 0 ∨ c.isBound pad = true ∨ MappedByCommand calls id pad →
        c.outputArity.hasPad pad = true) ∧
      ∀ t text, (afterCalls {} calls).chainText t id c = .ok text →
        ∃ s, (afterCalls {} calls).statement t id = .ok s ∧ s.text = text ∧
          c.inputArity.accepts s.inputs.length = true ∧
          c.outputArity.accepts s.outputs.length = true := by
  have hs := (sound_empty.afterCalls calls).1
  have hempty : Fitted {} := by simp [Fitted]
  have hfits := (hempty.afterCalls calls sound_empty).chain hc
  have hrange := (hs.chain hc).range
  have hroom := hfits.accepts hin
  refine ⟨hroom, fun pad hpad => hrange pad ?_, fun t text htext => ?_⟩
  · rcases hpad with hconsumers | hbound | hmapped
    · exact List.count_pos_iff.mp (Nat.pos_of_ne_zero hconsumers)
    · obtain ⟨p, hp, heq⟩ := List.any_eq_true.mp hbound
      obtain rfl : p = pad := Int.ofNat_inj.mp (beq_iff_eq.mp heq)
      exact hfits.bound p hp
    · obtain ⟨c', hc', href⟩ := hmapped.refers
      obtain rfl : c' = c := Option.some.inj (hc'.symm.trans hc)
      exact href
  · obtain ⟨s, hstatement, htext, hinputs, houtputs⟩ := labels_of_chainText hc htext
    refine ⟨s, hstatement, htext, ?_, ?_⟩
    · rw [hinputs]
      exact hroom
    · rw [houtputs]
      exact Chain.accepts_labeledCount hout hrange

/-- In the session above the second chain has one input, which the first feeds, and one output pad, which
the command maps. -/
theorem split_connections_fit :
    ∃ c, (afterCalls {} splitSession).chain? ⟨1⟩ = some c ∧ c.inputArity = .fixed 1 ∧
      c.outputArity = .fixed 1 ∧ c.inputs.length = 1 ∧ MappedByCommand splitSession ⟨1⟩ 0 ∧
      c.inputArity.accepts c.inputs.length = true ∧ c.outputArity.hasPad 0 = true := by
  have hmarked : MappedByCommand (splitSession.take 12) ⟨1⟩ 0 :=
    @MappedByCommand.maps (splitSession.take 11) _ _ _ rfl (by decide)
  have hmapped : MappedByCommand splitSession ⟨1⟩ 0 := hmarked.stays _
  have h := @connections_fit splitSession ⟨1⟩ _ rfl (Int.zero_le_ofNat 1) (Int.zero_le_ofNat 1)
  exact ⟨_, rfl, rfl, rfl, rfl, hmapped, h.1, h.2.1 0 (Or.inr (Or.inr hmapped))⟩

end Objects

end MediaCommand
