/-
What a text does not show plays no part in it.

The text of an object is put together from the objects in it.  Two views of a session therefore give
the same texts to everything in which no object stands that the views tell apart: outputs and commands
may have changed meanwhile, or maps may go to another place on command lines.

A text can be missing, and then the failure takes its place and may be put into words in turn.  That
comes to the same in both views because a failure that arises from a text shows no value; only a
failure that a call answers does.
-/
import MediaCommand.Proofs.Wording

namespace MediaCommand

/-! ### Results that agree -/

/-- The value that the wording of a refusal shows. -/
def Refusal.value : Refusal → Value
  | .notBool got => got
  | .notPath got => got

/-- The values that the wording of a failure shows. -/
def Error.values : Error → List Value
  | .invalidObject _ got => [got]
  | .padTaken _ pad => [pad]
  | .padSelector got => [got]
  | .track got _ => [got]
  | .unknownSource got => [got]
  | .refused why => [why.value]
  | .unknownSetting key => [key]
  | .fixedSetting key => [key]
  | .settingRefused _ why => [why.value]
  | _ => []

/-- Two results are the same, and a failure shows no value. -/
structure Same {α : Type} (r r' : Except Error α) : Prop where
  eq : r = r'
  silent : ∀ e, r = .error e → e.values = []

namespace Same

variable {α β : Type}

theorem ok (a : α) : Same (.ok a) (.ok a) := ⟨rfl, fun _ h => nomatch h⟩

theorem error {e : Error} (h : e.values = []) : Same (.error e : Except Error α) (.error e) :=
  ⟨rfl, fun _ he => Except.error.inj he ▸ h⟩

theorem found (x : Option α) : Same (Objects.found x) (Objects.found x) := by
  cases x with
  | none => exact .error rfl
  | some a => exact .ok a

theorem bind {r r' : Except Error α} {f f' : α → Except Error β} (h : Same r r')
    (hf : ∀ a, r = .ok a → Same (f a) (f' a)) : Same (r >>= f) (r' >>= f') := by
  obtain ⟨rfl, hsilent⟩ := h
  cases r with
  | error e => exact .error (hsilent e rfl)
  | ok a => exact hf a rfl

theorem map {r r' : Except Error α} (f : α → β) (h : Same r r') :
    Same (do return f (← r)) (do return f (← r')) :=
  h.bind fun _ _ => .ok _

theorem mapM {f f' : α → Except Error β} {l : List α} (h : ∀ a ∈ l, Same (f a) (f' a)) :
    Same (l.mapM f) (l.mapM f') := by
  induction l with
  | nil => exact .ok []
  | cons a rest ih =>
      rw [List.mapM_cons, List.mapM_cons]
      refine (h a List.mem_cons_self).bind fun b _ => ?_
      exact (ih fun x hx => h x (List.mem_cons_of_mem a hx)).map (b :: ·)

end Same

/-- The objects that one may ask about have the same texts, and are the same sequences. -/
structure Texts.Agree (P : Object → Prop) (t t' : Texts) : Prop where
  plain : ∀ within x, P x → Same (t.plainWithin within x) (t'.plainWithin within x)
  shown : ∀ within x, P x → Same (t.shownWithin within x) (t'.shownWithin within x)
  items : ∀ x, P x → t.items? x = t'.items? x
  held : ∀ x, P x → ∀ items, t.items? x = some items → ∀ v ∈ items, ∀ y ∈ v.objects, P y
  within : t.within = t'.within

variable {P : Object → Prop} {t t' : Texts}

theorem Texts.Agree.at (h : Texts.Agree P t t') (within : List Nat) :
    Texts.Agree P { t with within } { t' with within } :=
  ⟨h.plain, h.shown, h.items, h.held, rfl⟩

theorem Texts.Agree.inside (h : Texts.Agree P t t') (mark : Nat) :
    Texts.Agree P (t.inside mark) (t'.inside mark) :=
  ⟨h.plain, h.shown, h.items, h.held, congrArg (mark :: ·) h.within⟩

/-! ### Values -/

namespace Value

mutual

theorem shown_same : ∀ {t t' : Texts} (v : Value), Texts.Agree P t t' →
    (∀ x ∈ v.objects, P x) → Same (v.shown t) (v.shown t')
  | t, t', .list items, h, hv => by
      simp only [shown]
      exact (shownItems_same items h hv).map _
  | t, t', .tuple items, h, hv => by
      simp only [shown]
      exact (shownItems_same items h hv).bind fun texts _ => by
        split <;> exact .ok _
  | t, t', .dict entries, h, hv => by
      simp only [shown]
      exact (shownEntries_same entries h hv).map _
  | t, t', .object x, h, hv => by
      simp only [shown, Texts.shown, h.within]
      exact h.shown _ x (hv x List.mem_cons_self)
  | t, t', .marked mark v, h, hv => by
      simp only [shown, h.within]
      split
      · exact .ok _
      · exact shown_same v (h.inside mark) hv
  | _, _, .null, _, _ | _, _, .bool _, _, _ | _, _, .int _, _, _ | _, _, .text _, _, _
  | _, _, .float _, _, _ | _, _, .bytes _, _, _ | _, _, .path _, _, _ | _, _, .arity _, _, _ =>
      .ok _

theorem shownItems_same : ∀ {t t' : Texts} (items : List Value), Texts.Agree P t t' →
    (∀ x ∈ itemObjects items, P x) → Same (shownItems t items) (shownItems t' items)
  | _, _, [], _, _ => .ok []
  | t, t', v :: rest, h, hv => by
      simp only [shownItems]
      refine (shown_same v h fun x hx => hv x (List.mem_append_left _ hx)).bind fun text _ => ?_
      exact (shownItems_same rest h fun x hx => hv x (List.mem_append_right _ hx)).map _

theorem shownEntries_same : ∀ {t t' : Texts} (entries : List (Value × Value)),
    Texts.Agree P t t' → (∀ x ∈ entryObjects entries, P x) →
    Same (shownEntries t entries) (shownEntries t' entries)
  | _, _, [], _, _ => .ok []
  | t, t', (k, v) :: rest, h, hv => by
      have hkv : ∀ x ∈ k.objects ++ v.objects, P x := fun x hx => hv x (List.mem_append_left _ hx)
      simp only [shownEntries]
      refine (shown_same k h fun x hx => hkv x (List.mem_append_left _ hx)).bind fun key _ => ?_
      refine (shown_same v h fun x hx => hkv x (List.mem_append_right _ hx)).bind fun text _ => ?_
      exact (shownEntries_same rest h fun x hx => hv x (List.mem_append_right _ hx)).map _

end

theorem plain_same (v : Value) (h : Texts.Agree P t t') (hv : ∀ x ∈ v.objects, P x) :
    Same (v.plain t) (v.plain t') := by
  match v with
  | .text _ | .path _ | .arity _ => exact .ok _
  | .object x =>
      simp only [plain, Texts.plain, h.within]
      exact h.plain _ x (hv x List.mem_cons_self)
  | .marked _ (.path _) | .marked _ (.arity _) => exact .ok _
  | .null | .bool _ | .int _ | .float _ | .list _ | .tuple _ | .dict _ | .bytes _
  | .marked mark .null | .marked mark (.bool _) | .marked mark (.int _) | .marked mark (.text _)
  | .marked mark (.float _) | .marked mark (.list _) | .marked mark (.tuple _)
  | .marked mark (.dict _) | .marked mark (.bytes _) | .marked mark (.object _)
  | .marked mark (.marked _ _) => exact shown_same _ h hv

end Value

/-! ### Filters, chains and graphs -/

namespace Expression

/-- The items of a sequence are the same, and hold nothing that the sequence does not hold. -/
theorem sequence?_agree (h : Texts.Agree P t t') {v : Value} (hv : ∀ x ∈ v.objects, P x) :
    sequence? t v = sequence? t' v ∧
      ∀ items, sequence? t v = some items → ∀ w ∈ items, ∀ x ∈ w.objects, P x := by
  rcases sequence?_cases v with ⟨y, hbare, hsequence⟩ | hsequence
  · have hy : P y := by
      refine hv y ?_
      rw [← v.objects_bare, hbare]
      exact List.mem_cons_self
    rw [hsequence, hsequence]
    exact ⟨h.items y hy, h.held y hy⟩
  · rw [hsequence, hsequence]
    refine ⟨rfl, fun items hitems w hw x hx => ?_⟩
    exact hv x (Objects.objects_of_repeated? hitems hw hx)

theorem rawValue_same (h : Texts.Agree P t t') {v : Value} (hv : ∀ x ∈ v.objects, P x) :
    Same (rawValue t v) (rawValue t' v) := by
  obtain ⟨hsequence, hheld⟩ := sequence?_agree h hv
  unfold rawValue
  rw [← hsequence]
  split
  · exact .ok _
  · split
    · rename_i items hitems
      have hall : Same (Value.plainAll t items) (Value.plainAll t' items) :=
        .mapM fun w hw => w.plain_same h (hheld items hitems w hw)
      exact hall.map _
    · exact v.plain_same h hv

theorem option_same (h : Texts.Agree P t t') (key : String) {v : Value}
    (hv : ∀ x ∈ v.objects, P x) : Same (option t key v) (option t' key v) := by
  unfold option
  split
  · exact .ok _
  · exact ((rawValue_same h hv).map _).map _

end Expression

theorem Filter.expression_same (h : Texts.Agree P t t') {f : Filter}
    (hf : ∀ e ∈ f.options, ∀ x ∈ e.2.objects, P x) : Same (f.expression t) (f.expression t') := by
  unfold expression Expression.filter
  split
  · exact .ok _
  · have hall : Same (f.options.mapM fun e => Expression.option t e.1 e.2)
        (f.options.mapM fun e => Expression.option t' e.1 e.2) :=
      .mapM fun e he => Expression.option_same h e.1 (hf e he)
    exact (hall.map _).map _

namespace Objects

variable {o : Objects}

/-- The options of all filters hold only objects that one may ask about. -/
structure OptionsHold (P : Object → Prop) (o : Objects) : Prop where
  filters : ∀ f ∈ o.filters, ∀ e ∈ f.options, ∀ x ∈ e.2.objects, P x
  chains : ∀ c ∈ o.chains, ∀ f ∈ c.filters, ∀ e ∈ f.options, ∀ x ∈ e.2.objects, P x

/-- Filters without options hold nothing among them. -/
theorem OptionsHold.of_isEmpty {P : Object → Prop}
    (hfilters : ∀ f ∈ o.filters, f.options.isEmpty = true)
    (hchains : ∀ c ∈ o.chains, ∀ f ∈ c.filters, f.options.isEmpty = true) : o.OptionsHold P where
  filters := fun f hf e he => by
    rw [List.isEmpty_iff.mp (hfilters f hf)] at he
    cases he
  chains := fun c hc f hf e he => by
    rw [List.isEmpty_iff.mp (hchains c hc f hf)] at he
    cases he

theorem padLabel_same (id : ChainId) (c : Chain) (pad : String) :
    Same (padLabel id c pad) (padLabel id c pad) := by
  unfold padLabel
  split
  · exact .ok _
  · exact .error rfl

theorem padLabels_same (id : ChainId) (c : Chain) : Same (padLabels id c) (padLabels id c) := by
  unfold padLabels
  split
  · split
    · exact .ok _
    · exact .error rfl
  · exact .mapM fun pad _ => padLabel_same id c _

theorem specifierText_same (o : Objects) (s : Source) :
    Same (o.specifierText s) (o.specifierText s) := by
  cases s with
  | input id track =>
      refine (Same.found (o.input? id)).bind fun i _ => ?_
      split
      · exact .error rfl
      · exact .ok _
      · exact .ok _
  | pad id pad =>
      refine (Same.found (o.chain? id)).bind fun c _ => ?_
      exact (padLabel_same id c _).map _

theorem filtersText_same (h : Texts.Agree P t t') {c : Chain}
    (hc : ∀ f ∈ c.filters, ∀ e ∈ f.options, ∀ x ∈ e.2.objects, P x) :
    Same (filtersText t c) (filtersText t' c) := by
  have hall : Same (c.filters.mapM (Filter.expression t)) (c.filters.mapM (Filter.expression t')) :=
    .mapM fun f hf => f.expression_same h (hc f hf)
  exact hall.map _

theorem chainText_same (h : Texts.Agree P t t') (hopts : o.OptionsHold P) {id : ChainId}
    {c : Chain} (hc : c ∈ o.chains) : Same (o.chainText t id c) (o.chainText t' id c) := by
  have hinputs : Same (c.inputs.mapM fun s => o.inputLabel s.source)
      (c.inputs.mapM fun s => o.inputLabel s.source) :=
    .mapM fun s _ => (o.specifierText_same s.source).map _
  refine hinputs.bind fun inputs _ => ?_
  refine (filtersText_same h (hopts.chains c hc)).bind fun filters _ => ?_
  exact (padLabels_same id c).map _

/-- What is done with a chain that is there. -/
theorem chain_same {α : Type} {f f' : Chain → Except Error α} (id : ChainId)
    (h : ∀ c ∈ o.chains, Same (f c) (f' c)) :
    Same (do f (← o.chain id)) (do f' (← o.chain id)) :=
  (Same.found (o.chain? id)).bind fun c hc => h c (mem_chains (chain_ok.mp hc))

theorem graphText_same (h : Texts.Agree P t t') (hopts : o.OptionsHold P) (g : Graph) :
    Same (o.graphText t g) (o.graphText t' g) := by
  have hall : Same (g.chains.mapM fun id => do o.chainText t id (← o.chain id))
      (g.chains.mapM fun id => do o.chainText t' id (← o.chain id)) :=
    .mapM fun id _ => chain_same id fun c hc => chainText_same h hopts hc
  exact hall.map _

/-! ### Failures -/

theorem namedFilters_same (h : Texts.Agree P t t') (hopts : o.OptionsHold P) (id : ChainId) :
    Same (o.namedFilters t id) (o.namedFilters t' id) :=
  chain_same id fun c hc => filtersText_same h (hopts.chains c hc)

theorem describeGraphError_same (h : Texts.Agree P t t') (hopts : o.OptionsHold P) {e : Error}
    (he : ∀ v ∈ e.values, ∀ x ∈ v.objects, P x) :
    Same (o.describeGraphError t e) (o.describeGraphError t' e) := by
  cases e with
  | invalidObject expected got => exact (got.shown_same h (he got List.mem_cons_self)).map _
  | padSelector got => exact (got.shown_same h (he got List.mem_cons_self)).map _
  | alreadyPlaced id position => exact (namedFilters_same h hopts id).map _
  | unplaced id => exact (namedFilters_same h hopts id).map _
  | padTaken id pad =>
      have hpad := pad.plain_same h (he pad List.mem_cons_self)
      unfold describeGraphError
      dsimp only
      split
      · exact (namedFilters_same h hopts id).map _
      · exact hpad.bind fun _ _ => (namedFilters_same h hopts id).map _
  | _ => exact .ok _

theorem describeCommandError_same (h : Texts.Agree P t t') (hopts : o.OptionsHold P) {e : Error}
    (he : ∀ v ∈ e.values, ∀ x ∈ v.objects, P x) :
    Same (o.describeCommandError t e) (o.describeCommandError t' e) := by
  cases e with
  | track got why => exact (got.shown_same h (he got List.mem_cons_self)).map _
  | unknownSource got => exact (got.shown_same h (he got List.mem_cons_self)).map _
  | chainNotFound id => exact (namedFilters_same h hopts id).map _
  | _ => exact .ok _

theorem refusalText_same (h : Texts.Agree P t t') {why : Refusal}
    (hwhy : ∀ x ∈ why.value.objects, P x) : Same (refusalText t why) (refusalText t' why) := by
  cases why with
  | notBool got => exact (got.shown_same h hwhy).map _
  | notPath got => exact (got.shown_same h hwhy).map _

theorem describeProgramError_same (h : Texts.Agree P t t') {e : Error}
    (he : ∀ v ∈ e.values, ∀ x ∈ v.objects, P x) :
    Same (describeProgramError t e) (describeProgramError t' e) := by
  cases e with
  | refused why => exact (refusalText_same h (he _ List.mem_cons_self)).map _
  | unknownSetting key => exact (key.plain_same h (he key List.mem_cons_self)).map _
  | fixedSetting key => exact (key.plain_same h (he key List.mem_cons_self)).map _
  | settingRefused key why => exact (refusalText_same h (he _ List.mem_cons_self)).map _
  | _ => exact .ok _

theorem describe_same (h : Texts.Agree P t t') (hopts : o.OptionsHold P) {e : Error}
    (he : ∀ v ∈ e.values, ∀ x ∈ v.objects, P x) : Same (o.describe t e) (o.describe t' e) := by
  refine (describeGraphError_same h hopts he).bind fun first _ => ?_
  split
  · exact .ok _
  · refine (describeCommandError_same h hopts he).bind fun second _ => ?_
    split
    · exact .ok _
    · exact describeProgramError_same h he

/-- The values of a failure that shows none may be asked about. -/
theorem values_of_silent {e : Error} (h : e.values = []) : ∀ v ∈ e.values, ∀ x ∈ v.objects, P x := by
  rw [h]
  exact fun v hv => nomatch hv

/-- A failure is put into the same words, or the same failure arises from that. -/
theorem report_same (h : Texts.Agree P t t') (hopts : o.OptionsHold P) (n : Nat) :
    ∀ {e : Error}, (∀ v ∈ e.values, ∀ x ∈ v.objects, P x) →
      o.report t n e = o.report t' n e ∧ (e.values = [] → (o.report t n e).1.values = []) := by
  induction n with
  | zero => exact fun _ => ⟨rfl, fun _ => rfl⟩
  | succ n ih =>
      intro e he
      obtain ⟨heq, hsilent⟩ := describe_same h hopts he
      unfold report
      rw [← heq]
      cases hdescribe : o.describe t e with
      | ok text => exact ⟨rfl, id⟩
      | error e' =>
          have hvalues := hsilent e' hdescribe
          obtain ⟨hreport, hlater⟩ := ih (values_of_silent hvalues)
          exact ⟨hreport, fun _ => hlater hvalues⟩

theorem showGraphObject_same (h : Texts.Agree P t t') (hopts : o.OptionsHold P) (depth : Nat)
    (typeName : String) {r r' : Except Error String} (hr : Same r r') :
    Same (o.showGraphObject t depth typeName r) (o.showGraphObject t' depth typeName r') := by
  obtain ⟨rfl, hsilent⟩ := hr
  cases r with
  | ok s => exact .ok _
  | error e =>
      have hvalues := hsilent e rfl
      obtain ⟨hreport, hlater⟩ := report_same h hopts depth (values_of_silent hvalues)
      have hlast := hlater hvalues
      unfold showGraphObject
      dsimp only
      rw [← hreport]
      split
      · exact .ok _
      · exact .error hlast

end Objects

/-! ### Views of a session -/

/-- The objects with other outputs and commands. -/
def Objects.withFiles (o : Objects) (outputs : List Output) (commands : List Command) : Objects :=
  { o with outputs, commands }

/-- The wording of a failure does not ask for outputs and commands themselves. -/
theorem Objects.report_withFiles (o : Objects) (outputs : List Output) (commands : List Command)
    (t : Texts) (n : Nat) : ∀ e : Error, (o.withFiles outputs commands).report t n e = o.report t n e := by
  induction n with
  | zero => exact fun _ => rfl
  | succ n ih =>
      intro e
      have hdescribe : (o.withFiles outputs commands).describe t e = o.describe t e := rfl
      unfold report
      rw [hdescribe]
      cases o.describe t e with
      | ok text => rfl
      | error e' => exact ih e'

theorem Objects.showGraphObject_withFiles (o : Objects) (outputs : List Output)
    (commands : List Command) (t : Texts) (depth : Nat) (typeName : String)
    (r : Except Error String) : (o.withFiles outputs commands).showGraphObject t depth typeName r =
      o.showGraphObject t depth typeName r := by
  cases r with
  | ok s => rfl
  | error e =>
      unfold showGraphObject
      dsimp only
      rw [report_withFiles]

/-- Two views differ in outputs and commands only, and those that one may ask about are the same. -/
structure Scene.Alike (P : Object → Prop) (s s' : Scene) : Prop where
  rest : s'.objects = s.objects.withFiles s'.objects.outputs s'.objects.commands
  depth : s.depth = s'.depth
  anchors : ∀ source : Source, P source.anchor
  outputs : ∀ id, P (.output id) → s.objects.output? id = s'.objects.output? id
  commands : ∀ id, ¬P (.command id)
  options : s.objects.OptionsHold P

namespace Scene

variable {s s' : Scene}

theorem Alike.plainObject (h : s.Alike P s') (ht : Texts.Agree P t t') {x : Object} (hx : P x) :
    Same (s.plainObject t x) (s'.plainObject t' x) := by
  unfold Scene.plainObject
  dsimp only
  cases x with
  | command id => exact absurd hx (h.commands id)
  | output id =>
      have hout : s'.objects.output id = s.objects.output id :=
        congrArg Objects.found (h.outputs id hx).symm
      dsimp only
      rw [hout]
      exact (Same.found (s.objects.output? id)).map _
  | filter id =>
      rw [h.rest]
      refine (Same.found (s.objects.filter? id)).bind fun f hf => ?_
      exact f.expression_same ht (h.options.filters f (List.mem_of_getElem? (Objects.mem_found hf)))
  | chain id =>
      rw [h.rest]
      exact Objects.chain_same id fun c hc => Objects.chainText_same ht h.options hc
  | graph id =>
      rw [h.rest]
      exact (Same.found (s.objects.graph? id)).bind fun g _ => Objects.graphText_same ht h.options g
  | input id =>
      rw [h.rest]
      exact (Same.found (s.objects.input? id)).map _
  | specifier id =>
      rw [h.rest]
      exact (Same.found (s.objects.specifier? id)).bind fun sp _ =>
        s.objects.specifierText_same sp.source

theorem showSpecifier_same (ht : Texts.Agree P t t') {source : Source} (hs : P source.anchor) :
    Same (Objects.showSpecifier t source) (Objects.showSpecifier t' source) := by
  cases source with
  | input id track =>
      have hanchor : Same (t.shown (.input id)) (t'.shown (.input id)) := by
        simp only [Texts.shown, ht.within]
        exact ht.shown _ _ hs
      refine hanchor.bind fun anchor _ => ?_
      refine (Value.shown_same _ ht ?_).map _
      rcases track with - | n | sel <;> exact fun x hx => nomatch hx
  | pad id pad =>
      have hanchor : Same (t.shown (.chain id)) (t'.shown (.chain id)) := by
        simp only [Texts.shown, ht.within]
        exact ht.shown _ _ hs
      exact hanchor.map _

theorem Alike.shownObject (h : s.Alike P s') (ht : Texts.Agree P t t') (depth : Nat) {x : Object}
    (hx : P x) : Same (s.shownObject t depth x) (s'.shownObject t' depth x) := by
  unfold Scene.shownObject
  dsimp only
  cases x with
  | command id => exact absurd hx (h.commands id)
  | output id =>
      have hout : s'.objects.output id = s.objects.output id :=
        congrArg Objects.found (h.outputs id hx).symm
      dsimp only
      rw [hout]
      exact (Same.found (s.objects.output? id)).map _
  | filter id =>
      rw [h.rest]
      refine (Same.found (s.objects.filter? id)).bind fun f hf => ?_
      rw [Objects.showGraphObject_withFiles]
      refine Objects.showGraphObject_same ht h.options depth _ (f.expression_same ht ?_)
      exact h.options.filters f (List.mem_of_getElem? (Objects.mem_found hf))
  | chain id =>
      rw [h.rest]
      refine Objects.chain_same id fun c hc => ?_
      rw [Objects.showGraphObject_withFiles]
      exact Objects.showGraphObject_same ht h.options depth _
        (Objects.chainText_same ht h.options hc)
  | graph id =>
      rw [h.rest]
      refine (Same.found (s.objects.graph? id)).bind fun g _ => ?_
      rw [Objects.showGraphObject_withFiles]
      exact Objects.showGraphObject_same ht h.options depth _
        (Objects.graphText_same ht h.options g)
  | input id =>
      rw [h.rest]
      exact (Same.found (s.objects.input? id)).map _
  | specifier id =>
      rw [h.rest]
      exact (Same.found (s.objects.specifier? id)).bind fun sp _ =>
        showSpecifier_same ht (h.anchors sp.source)

theorem mem_entryObjects {options : List (String × Value)} {x : Object}
    (hx : x ∈ Value.entryObjects (options.map fun (k, v) => (.text k, v))) :
    ∃ e ∈ options, x ∈ e.2.objects := by
  induction options with
  | nil => cases hx
  | cons e rest ih =>
      rcases List.mem_append.mp hx with hfirst | hrest
      · exact ⟨e, List.mem_cons_self, hfirst⟩
      · obtain ⟨e', he', hx'⟩ := ih hrest
        exact ⟨e', List.mem_cons_of_mem e he', hx'⟩

/-- The parts of a filter hold nothing but what its options hold. -/
theorem objects_of_parts {f : Filter} (hf : ∀ e ∈ f.options, ∀ x ∈ e.2.objects, P x) :
    ∀ v ∈ f.parts, ∀ x ∈ v.objects, P x := by
  intro v hv x hx
  simp only [Filter.parts, Filter.optionsValue, Filter.inputValue, Filter.outputValue,
    List.mem_cons, List.not_mem_nil, or_false] at hv
  rcases hv with rfl | rfl | rfl | rfl
  · cases hx
  · obtain ⟨e, he, hin⟩ := mem_entryObjects hx
    exact hf e he x hin
  · cases hx
  · cases hx

theorem Alike.objectItems? (h : s.Alike P s') (x : Object) :
    s.objectItems? x = s'.objectItems? x ∧
      ∀ items, s.objectItems? x = some items → ∀ v ∈ items, ∀ y ∈ v.objects, P y := by
  unfold Scene.objectItems?
  rw [h.rest]
  refine ⟨rfl, fun items hitems => ?_⟩
  cases x with
  | filter id =>
      obtain ⟨f, hf, rfl⟩ := Option.map_eq_some_iff.mp hitems
      exact objects_of_parts (h.options.filters f (List.mem_of_getElem? hf))
  | chain | graph | input | output | specifier | command => cases hitems

/-- **Views that agree on what one may ask about give the same texts.** -/
theorem Alike.textsTo (h : s.Alike P s') (n : Nat) : Texts.Agree P (s.textsTo n) (s'.textsTo n) := by
  induction n with
  | zero =>
      exact ⟨fun _ _ _ => .error rfl, fun _ _ _ => .error rfl, fun x _ => (h.objectItems? x).1,
        fun x _ => (h.objectItems? x).2, rfl⟩
  | succ n ih =>
      exact ⟨fun within x hx => h.plainObject (ih.at within) hx,
        fun within x hx => h.shownObject (ih.at within) (n + 1) hx,
        fun x _ => (h.objectItems? x).1, fun x _ => (h.objectItems? x).2, rfl⟩

theorem Alike.texts (h : s.Alike P s') : Texts.Agree P s.texts s'.texts := by
  unfold Scene.texts
  rw [← h.depth]
  exact h.textsTo s.depth

/-- A failure about values that one may ask about has the same wording in both. -/
theorem Alike.report (h : s.Alike P s') {e : Error} (he : ∀ v ∈ e.values, ∀ x ∈ v.objects, P x) :
    s.report e = s'.report e := by
  unfold Scene.report
  rw [← h.depth, h.rest, Objects.report_withFiles]
  exact (Objects.report_same h.texts h.options s.depth he).1

end Scene

end MediaCommand
