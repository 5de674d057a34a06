/-
What objects have no text for.

A text is put together from names and from other texts.  It fails where a name is missing: an input
without a number, a chain without a place, something that a command does not have.  It fails where a label
is given twice, and for faults.  It never fails for what a call may be refused for, such as a pad that is
taken; nor does putting such a failure into words lead to anything but another one of the kind.
-/
import MediaCommand.Proofs.Showing

namespace MediaCommand

/-- A failure that keeps objects from having a text. -/
inductive Error.Wordless : Error → Prop
  | input (url : Option Argument) : Wordless (.inputNotFound url)
  | chain (id : ChainId) : Wordless (.chainNotFound id)
  | place (id : ChainId) : Wordless (.unplaced id)
  | label (label : String) : Wordless (.duplicateLabel label)
  | fault (f : Fault) : Wordless (.fault f)

namespace OnlyFails

variable {α β : Type} {P : Error → Prop}

theorem mapM {f : α → Except Error β} {l : List α} (h : ∀ x, OnlyFails P (f x)) :
    OnlyFails P (l.mapM f) := by
  induction l with
  | nil => exact .ok []
  | cons x rest ih =>
      rw [List.mapM_cons]
      exact (h x).bind fun y => ih.bind fun ys => .ok (y :: ys)

theorem forM {f : α → Except Error PUnit} {l : List α} (h : ∀ x, OnlyFails P (f x)) :
    OnlyFails P (l.forM f) := by
  induction l with
  | nil => exact .ok ()
  | cons x rest ih =>
      show OnlyFails P (f x >>= fun _ => rest.forM f)
      exact (h x).bind fun _ => ih

end OnlyFails

/-- The texts of objects fail for nothing else. -/
structure Texts.Plausible (t : Texts) : Prop where
  plain : ∀ within x, OnlyFails Error.Wordless (t.plainWithin within x)
  shown : ∀ within x, OnlyFails Error.Wordless (t.shownWithin within x)

variable {t : Texts}

/-! ### Values -/

theorem Value.plain_wordless (ht : t.Plausible) (v : Value) : OnlyFails Error.Wordless (v.plain t) := by
  unfold plain
  split
  · exact .ok _
  · exact .ok _
  · exact .ok _
  · exact ht.plain t.within _
  · split
    · exact .ok _
    · exact .ok _
    · exact shown_onlyFails t _ ht.shown
  · exact shown_onlyFails t v ht.shown

namespace Expression

theorem value_wordless (ht : t.Plausible) (v : Value) : OnlyFails Error.Wordless (value t v) := by
  have hraw : OnlyFails Error.Wordless (rawValue t v) := by
    unfold rawValue
    split
    · exact .ok _
    · split
      · exact (OnlyFails.mapM (Value.plain_wordless ht)).bind fun _ => .ok _
      · exact v.plain_wordless ht
  exact hraw.bind fun _ => .ok _

theorem options_wordless (ht : t.Plausible) (entries : List (String × Value)) :
    OnlyFails Error.Wordless (options t entries) := by
  have hoption : ∀ e : String × Value, OnlyFails Error.Wordless (option t e.1 e.2) := by
    intro e
    unfold option
    split
    · exact .ok _
    · exact (value_wordless ht e.2).bind fun _ => .ok _
  exact (OnlyFails.mapM hoption).bind fun _ => .ok _

end Expression

theorem Filter.expression_wordless (ht : t.Plausible) (f : Filter) :
    OnlyFails Error.Wordless (f.expression t) := by
  unfold Filter.expression Expression.filter
  split
  · exact .ok _
  · exact (Expression.options_wordless ht f.options).bind fun _ => .ok _

namespace Objects

variable (o : Objects)

theorem found_wordless {α : Type} (x : Option α) : OnlyFails Error.Wordless (found x) :=
  found_onlyFails (.fault _) x

/-! ### Chains and graphs -/

theorem filtersText_wordless (ht : t.Plausible) (c : Chain) :
    OnlyFails Error.Wordless (filtersText t c) :=
  (OnlyFails.mapM (Filter.expression_wordless ht)).bind fun _ => .ok _

theorem padLabel_wordless (id : ChainId) (c : Chain) (pad : String) :
    OnlyFails Error.Wordless (padLabel id c pad) := by
  unfold padLabel
  split
  · exact .ok _
  · rintro e h
    cases h
    exact .place id

theorem padLabels_wordless (id : ChainId) (c : Chain) : OnlyFails Error.Wordless (padLabels id c) := by
  unfold padLabels
  split
  · split
    · exact .ok _
    · rintro e h
      cases h
      exact .place id
  · exact .mapM fun pad => padLabel_wordless id c (toString pad)

theorem specifierText_wordless (source : Source) :
    OnlyFails Error.Wordless (o.specifierText source) := by
  cases source with
  | input id track =>
      refine (found_wordless _).bind fun input => ?_
      split
      · rintro e h
        cases h
        exact .input input.url
      · exact .ok _
      · exact .ok _
  | pad id pad =>
      exact (found_wordless _).bind fun c =>
        (padLabel_wordless id c (toString pad)).bind fun _ => .ok _

theorem chainText_wordless (ht : t.Plausible) (id : ChainId) (c : Chain) :
    OnlyFails Error.Wordless (o.chainText t id c) := by
  have hlabel : ∀ s : Specifier, OnlyFails Error.Wordless (o.inputLabel s.source) := fun s =>
    (o.specifierText_wordless s.source).bind fun _ => .ok _
  exact (OnlyFails.mapM hlabel).bind fun _ => (filtersText_wordless ht c).bind fun _ =>
    (padLabels_wordless id c).bind fun _ => .ok _

theorem graphLabels_wordless (g : Graph) : OnlyFails Error.Wordless (o.graphLabels g) :=
  (OnlyFails.mapM fun id => (found_wordless _).bind fun c =>
    padLabels_wordless id c).bind fun _ => .ok _

theorem graphText_wordless (ht : t.Plausible) (g : Graph) :
    OnlyFails Error.Wordless (o.graphText t g) :=
  (OnlyFails.mapM fun id => (found_wordless _).bind fun c =>
    o.chainText_wordless ht id c).bind fun _ => .ok _

/-! ### Commands -/

theorem optionsArgs_wordless (ht : t.Plausible) (entries : List (Value × Value)) :
    OnlyFails Error.Wordless (optionsArgs t entries) := by
  have hoccurrence : ∀ (key : String) (v : Value), OnlyFails Error.Wordless (occurrence t key v) := by
    intro key v
    unfold occurrence
    split
    · exact .ok _
    · refine OnlyFails.bind ?_ fun _ => .ok _
      unfold optionValue
      split
      · exact .ok _
      · exact v.plain_wordless ht
  have hoption : ∀ e : Value × Value, OnlyFails Error.Wordless (optionArgs t e.1 e.2) := by
    intro e
    refine (e.1.plain_wordless ht).bind fun _ => ?_
    dsimp only
    split
    · exact (OnlyFails.mapM (hoccurrence _)).bind fun _ => .ok _
    · exact hoccurrence _ _
  exact (OnlyFails.mapM hoption).bind fun _ => .ok _

theorem checkBindings_wordless (c : Command) (graphs known : List GraphId) :
    OnlyFails Error.Wordless (o.checkBindings c graphs known) := by
  have hbinding : ∀ s : Specifier, OnlyFails Error.Wordless (o.checkBinding c known s) := by
    intro s
    unfold checkBinding
    split
    · unfold checkInput
      split
      · exact .ok _
      · refine (found_wordless _).bind fun i e h => ?_
        cases h
        exact .input i.url
    · unfold checkChain
      split
      · exact .ok _
      · rintro e h
        cases h
        exact .chain _
  exact .forM fun g => (found_wordless _).bind fun graph => .forM fun id =>
    (found_wordless _).bind fun chain => .forM hbinding

theorem checkLabels_wordless (labels : List String) :
    ∀ seen, OnlyFails Error.Wordless (checkLabels seen labels) := by
  induction labels with
  | nil => exact fun _ => .ok _
  | cons l rest ih =>
      intro seen
      unfold checkLabels
      split
      · rintro e h
        cases h
        exact .label l
      · exact ih _

theorem complexFilter_wordless (ht : t.Plausible) (c : Command) :
    OnlyFails Error.Wordless (o.complexFilter t c) := by
  have hgraphs : OnlyFails Error.Wordless (o.complexGraphs c) :=
    (OnlyFails.mapM fun _ => found_wordless _).bind fun _ => .ok _
  exact (o.checkBindings_wordless c c.graphs c.graphs).bind fun _ => hgraphs.bind fun graphs =>
    (OnlyFails.mapM o.graphLabels_wordless).bind fun labels =>
      (checkLabels_wordless labels.flatten []).bind fun _ =>
        (OnlyFails.mapM (o.graphText_wordless ht)).bind fun _ => .ok _

theorem mapArgs_wordless (specifiers : List Specifier) :
    OnlyFails Error.Wordless (o.mapArgs specifiers) :=
  (OnlyFails.mapM fun s : Specifier => o.specifierText_wordless s.source).bind fun _ => .ok _

theorem outputBlock_wordless (ht : t.Plausible) (mapsPerOutput : Bool) (id : OutputId) :
    OnlyFails Error.Wordless (o.outputBlock t mapsPerOutput id) := by
  have hargs : ∀ out : Output, OnlyFails Error.Wordless (outputArgs t out) := fun out =>
    (optionsArgs_wordless ht _).bind fun _ => .ok _
  refine (found_wordless _).bind fun out => ?_
  dsimp only
  split
  · exact (o.mapArgs_wordless out.maps).bind fun _ => (hargs out).bind fun _ => .ok _
  · exact OnlyFails.bind (.ok _) fun _ => (hargs out).bind fun _ => .ok _

theorem commandText_wordless (ht : t.Plausible) (mapsPerOutput : Bool) (program : Option String)
    (c : Command) : OnlyFails Error.Wordless (o.commandText t mapsPerOutput program c) := by
  have hinput : ∀ i : Input, OnlyFails Error.Wordless (inputArgs t i) := fun i =>
    (optionsArgs_wordless ht _).bind fun _ => .ok _
  have hargs : OnlyFails Error.Wordless (o.commandArgs t mapsPerOutput c) := by
    refine (optionsArgs_wordless ht c.options).bind fun _ =>
      (OnlyFails.mapM fun id => (found_wordless _).bind hinput).bind fun _ =>
        (o.complexFilter_wordless ht c).bind fun _ => ?_
    have houtputs := OnlyFails.mapM (l := c.outputs) (o.outputBlock_wordless ht mapsPerOutput)
    dsimp only
    split
    · exact OnlyFails.bind (.ok _) fun _ => houtputs.bind fun _ => .ok _
    · exact (o.mapArgs_wordless _).bind fun _ => houtputs.bind fun _ => .ok _
  have hdisplay : ∀ a, OnlyFails Error.Wordless (displayArg a) := by
    intro a
    unfold displayArg
    split
    · exact .ok _
    · rintro e h
      cases h
      exact .fault _
  exact hargs.bind fun _ => (OnlyFails.mapM hdisplay).bind fun _ => .ok _

/-! ### Failures -/

/-- Putting such a failure into words fails for such a one. -/
theorem describe_wordless (ht : t.Plausible) {e : Error} (he : e.Wordless) :
    OnlyFails Error.Wordless (o.describe t e) := by
  have hnamed : ∀ id, OnlyFails Error.Wordless (o.namedFilters t id) := fun id =>
    (found_wordless _).bind fun c => filtersText_wordless ht c
  cases he with
  | input url | label label | fault f => exact .ok _
  | chain id | place id =>
      cases hfilters : o.namedFilters t id with
      | ok text =>
          simp only [describe, describeGraphError, describeCommandError, hfilters, bind, Except.bind]
          exact .ok _
      | error why =>
          simp only [describe, describeGraphError, describeCommandError, hfilters, bind, Except.bind]
          rintro e h
          cases h
          exact hnamed id _ hfilters

theorem report_wordless (ht : t.Plausible) (n : Nat) :
    ∀ {e : Error}, e.Wordless → (o.report t n e).1.Wordless := by
  induction n with
  | zero => exact fun _ => .fault _
  | succ n ih =>
      intro e he
      unfold report
      cases hdescribe : o.describe t e with
      | ok words => exact he
      | error why => exact ih (o.describe_wordless ht he why hdescribe)

theorem showGraphObject_wordless (ht : t.Plausible) (depth : Nat) (typeName : String)
    {expression : Except Error String} (h : OnlyFails Error.Wordless expression) :
    OnlyFails Error.Wordless (o.showGraphObject t depth typeName expression) := by
  unfold showGraphObject
  split
  · exact .ok _
  · rename_i e
    dsimp only
    split
    · exact .ok _
    · rintro why hwhy
      cases hwhy
      exact o.report_wordless ht depth (h e rfl)

end Objects

namespace Scene

open Objects

variable (s : Scene)

/-! ### Scenes -/

theorem plainObject_wordless (ht : t.Plausible) (x : Object) :
    OnlyFails Error.Wordless (s.plainObject t x) := by
  cases x with
  | filter id => exact (found_wordless _).bind fun f => f.expression_wordless ht
  | chain id => exact (found_wordless _).bind fun c => s.objects.chainText_wordless ht id c
  | graph id => exact (found_wordless _).bind fun g => s.objects.graphText_wordless ht g
  | input id | output id => exact (found_wordless _).bind fun _ => .ok _
  | specifier id =>
      exact (found_wordless _).bind fun made => s.objects.specifierText_wordless made.source
  | command id =>
      exact (found_wordless _).bind fun c => s.objects.commandText_wordless ht _ _ c

theorem shownObject_wordless (ht : t.Plausible) (depth : Nat) (x : Object) :
    OnlyFails Error.Wordless (s.shownObject t depth x) := by
  cases x with
  | filter id =>
      exact (found_wordless _).bind fun f =>
        s.objects.showGraphObject_wordless ht depth "Filter" (f.expression_wordless ht)
  | chain id =>
      exact (found_wordless _).bind fun c =>
        s.objects.showGraphObject_wordless ht depth "Chain" (s.objects.chainText_wordless ht id c)
  | graph id =>
      exact (found_wordless _).bind fun g =>
        s.objects.showGraphObject_wordless ht depth "Graph" (s.objects.graphText_wordless ht g)
  | input id | output id | command id => exact (found_wordless _).bind fun _ => .ok _
  | specifier id =>
      refine (found_wordless _).bind fun made => ?_
      cases made.source with
      | input input track =>
          exact (ht.shown _ _).bind fun _ => (Value.shown_onlyFails t _ ht.shown).bind fun _ => .ok _
      | pad chain pad => exact (ht.shown _ _).bind fun _ => .ok _

/-- **Objects have a text or fail for a name, a label or a fault**, whatever stands in them and around
them. -/
theorem texts_plausible : s.texts.Plausible := by
  have hlevel : ∀ n, (s.textsTo n).Plausible := by
    intro n
    induction n with
    | zero => constructor <;> exact fun _ _ e h => by cases h; exact .fault _
    | succ n ih =>
        have hwithin : ∀ within, Texts.Plausible { s.textsTo n with within } := fun _ =>
          ⟨ih.plain, ih.shown⟩
        exact ⟨fun within => s.plainObject_wordless (hwithin within),
          fun within => s.shownObject_wordless (hwithin within) (n + 1)⟩
  exact hlevel s.depth

end Scene

/-- A failure that has no words for such a reason is told as such a one. -/
theorem Session.explain_wordless {s : Session} {e why : Error}
    (h : s.scene.objects.describe s.scene.texts e = .error why) (hwhy : why.Wordless) :
    (s.explain e).cause.Wordless := by
  obtain ⟨n, hn⟩ := s.scene.exists_depth
  have hreport := s.scene.objects.report_wordless s.scene.texts_plausible n hwhy
  unfold explain Scene.report
  simp only [hn, Objects.report, h]
  exact hreport

end MediaCommand
