/-
Showing objects, and refusing an object of the wrong kind.

A filter, a chain and a graph are shown by their expression.  If there is none the reason is shown in its
place, as long as it is about filters, chains and graphs; any other failure is passed on.  What feeds a
chain is named before anything else, so it is the first stream without a name that decides: a pad of a
chain without a place is a reason that can be shown, an input without a number is none.

A call that refuses an object of the wrong kind shows it.  So the refusal is told as such if the object
can be shown, and otherwise the failure to show it takes its place.
-/
import MediaCommand.Proofs.PadSelectors

namespace MediaCommand

/-! ### Calls that end as told -/

/-- A call ends as told: with a failure, or with an answer. -/
def EndsWith {α : Type} (r : Except Error α) : Option Error → Prop
  | some e => r = .error e
  | none => ∃ a, r = .ok a

namespace EndsWith

variable {α β : Type}

theorem ok (a : α) : EndsWith (.ok a : Except Error α) none := ⟨a, rfl⟩

theorem bind {r : Except Error α} {k : α → Except Error β} {p q : Option Error} (h : EndsWith r p)
    (hk : ∀ a, EndsWith (k a) q) : EndsWith (r >>= k) (p.or q) := by
  cases p with
  | some e =>
      obtain rfl : r = .error e := h
      exact rfl
  | none =>
      obtain ⟨a, rfl⟩ := h
      exact hk a

/-- Calls made for each item of a list end with the first failure among them. -/
theorem mapM {f : α → Except Error β} {p : α → Option Error} {l : List α}
    (h : ∀ x ∈ l, EndsWith (f x) (p x)) : EndsWith (l.mapM f) (l.findSome? p) := by
  induction l with
  | nil => exact ok []
  | cons x rest ih =>
      have hrest := ih fun y hy => h y (List.mem_cons_of_mem x hy)
      have hall := (h x List.mem_cons_self).bind fun y => hrest.bind fun ys => ok (y :: ys)
      rw [List.mapM_cons, List.findSome?_cons]
      rw [Option.or_none] at hall
      cases hx : p x <;> rw [hx] at hall <;> exact hall

end EndsWith

theorem findSome?_flatMap {α β γ : Type} {p : β → Option γ} {f : α → List β} {l : List α} :
    (l.flatMap f).findSome? p = l.findSome? fun x => (f x).findSome? p := by
  induction l with
  | nil => rfl
  | cons x rest ih =>
      rw [List.flatMap_cons, List.findSome?_append, List.findSome?_cons, ih]
      cases (f x).findSome? p <;> rfl

/-- A call fails only in a certain way. -/
def OnlyFails {α : Type} (P : Error → Prop) (r : Except Error α) : Prop := ∀ e, r = .error e → P e

namespace OnlyFails

variable {α β : Type} {P : Error → Prop}

theorem ok (a : α) : OnlyFails P (.ok a : Except Error α) := fun _ h => nomatch h

theorem bind {r : Except Error α} {k : α → Except Error β} (h : OnlyFails P r)
    (hk : ∀ a, OnlyFails P (k a)) : OnlyFails P (r >>= k) := by
  cases r with
  | error e => exact fun e' he' => h e' (congrArg Except.error (Except.error.inj he'))
  | ok a => exact hk a

end OnlyFails

/-- An object that is not there is told as such. -/
theorem Objects.found_onlyFails {α : Type} {P : Error → Prop} (hP : P (.fault .noSuchObject))
    (x : Option α) : OnlyFails P (found x) := by
  intro e h
  cases x with
  | none =>
      cases h
      exact hP
  | some a => cases h

namespace Value

variable {P : Error → Prop}

mutual

/-- Showing a value fails only as showing the objects in it does. -/
theorem shown_onlyFails : ∀ (t : Texts) (v : Value),
    (∀ within x, OnlyFails P (t.shownWithin within x)) → OnlyFails P (v.shown t)
  | t, .list items, h => (shownItems_onlyFails t items h).bind fun _ => .ok _
  | t, .tuple items, h => (shownItems_onlyFails t items h).bind fun texts => by
      split
      · exact .ok _
      · exact .ok _
  | t, .dict entries, h => (shownEntries_onlyFails t entries h).bind fun _ => .ok _
  | t, .object x, h => h t.within x
  | t, .marked mark v, h => by
      simp only [shown]
      split
      · exact .ok _
      · exact shown_onlyFails (t.inside mark) v h
  | _, .null, _ | _, .bool _, _ | _, .int _, _ | _, .text _, _ | _, .float _, _ | _, .bytes _, _
  | _, .path _, _ | _, .arity _, _ => .ok _

theorem shownItems_onlyFails : ∀ (t : Texts) (items : List Value),
    (∀ within x, OnlyFails P (t.shownWithin within x)) → OnlyFails P (shownItems t items)
  | _, [], _ => .ok _
  | t, v :: rest, h => (shown_onlyFails t v h).bind fun _ =>
      (shownItems_onlyFails t rest h).bind fun _ => .ok _

theorem shownEntries_onlyFails : ∀ (t : Texts) (entries : List (Value × Value)),
    (∀ within x, OnlyFails P (t.shownWithin within x)) → OnlyFails P (shownEntries t entries)
  | _, [], _ => .ok _
  | t, (k, v) :: rest, h => (shown_onlyFails t k h).bind fun _ =>
      (shown_onlyFails t v h).bind fun _ =>
        (shownEntries_onlyFails t rest h).bind fun _ => .ok _

end

end Value

namespace Objects

variable {o o' : Objects}

/-! ### Streams without a name -/

/-- What asking a stream for its name fails for: its input carries no number, or its chain has no
place. -/
def lack? (o : Objects) : Source → Option Error
  | .input id _ => (o.input? id).bind fun i =>
      if i.label.isNone then some (.inputNotFound i.url) else none
  | .pad id _ => (o.chain? id).bind fun c => if c.position.isNone then some (.unplaced id) else none

/-- A failure to name a stream: an input without a number, or a chain that is there without a place. -/
inductive Unnamed (o : Objects) : Error → Prop
  | input (url : Option Argument) : Unnamed o (.inputNotFound url)
  | chain {id : ChainId} {c : Chain} (hc : o.chain? id = some c) : Unnamed o (.unplaced id)

theorem unnamed_of_lack? {source : Source} {e : Error} (h : o.lack? source = some e) :
    o.Unnamed e := by
  cases source with
  | input id track =>
      obtain ⟨i, -, h⟩ := Option.bind_eq_some_iff.mp h
      split at h
      · cases h
        exact .input i.url
      · cases h
  | pad id pad =>
      obtain ⟨c, hc, h⟩ := Option.bind_eq_some_iff.mp h
      split at h
      · cases h
        exact .chain hc
      · cases h

theorem inputLabel_ends {source : Source} (h : o.Refers source) :
    EndsWith (o.inputLabel source) (o.lack? source) := by
  cases source with
  | input id track =>
      obtain ⟨i, hi⟩ := Option.isSome_iff_exists.mp h
      cases hlabel : i.label with
      | none =>
          simp only [lack?, hi, Option.bind_some, hlabel, Option.isNone_none, if_true, EndsWith,
            inputLabel, specifierText, input_ok.mpr hi, bind, Except.bind]
      | some k =>
          simp only [lack?, hi, Option.bind_some, hlabel, Option.isNone_some, Bool.false_eq_true,
            if_false, EndsWith, inputLabel, specifierText_input track hi hlabel, bind, Except.bind]
          exact ⟨_, rfl⟩
  | pad id pad =>
      obtain ⟨c, hc, -⟩ := h
      cases hposition : c.position with
      | none =>
          simp only [lack?, hc, Option.bind_some, hposition, Option.isNone_none, if_true, EndsWith,
            inputLabel, specifierText_pad pad hc, padLabel_unplaced id _ hposition, Except.map, bind,
            Except.bind]
      | some k =>
          simp only [lack?, hc, Option.bind_some, hposition, Option.isNone_some, Bool.false_eq_true,
            if_false, EndsWith, inputLabel, specifierText_placed pad hc hposition, bind, Except.bind]
          exact ⟨_, rfl⟩

/-! ### Expressions -/

/-- The streams that feed a chain. -/
def feedingChain (o : Objects) (id : ChainId) : List Source :=
  ((o.chain? id).map fun c => c.inputs.map Specifier.source).getD []

/-- The streams that are named where an object is shown: those that feed the chain, or the chains of the
graph.  A specifier is shown with the chain of its pad. -/
def feeding (o : Objects) : Object → List Source
  | .chain id => o.feedingChain id
  | .graph id => ((o.graph? id).map fun g => g.chains.flatMap o.feedingChain).getD []
  | .specifier id =>
    match (o.specifier? id).map Specifier.source with
    | some (.pad id _) => o.feedingChain id
    | _ => []
  | _ => []

/-- What the labels of a chain itself fail for. -/
def ownLack? (id : ChainId) (c : Chain) : Option Error :=
  if c.position.isNone && c.labeledCount != 0 then some (.unplaced id) else none

theorem padLabels_ends (id : ChainId) (c : Chain) : EndsWith (padLabels id c) (ownLack? id c) := by
  cases hposition : c.position with
  | some k =>
      rw [padLabels_placed id hposition]
      simp only [ownLack?, hposition, Option.isNone_some, Bool.false_and, Bool.false_eq_true, if_false]
      exact .ok _
  | none =>
      by_cases hcount : c.labeledCount = 0
      · simp only [padLabels, ownLack?, hposition, hcount, Option.isNone_none, bne_self_eq_false,
          Bool.and_false, Bool.false_eq_true, if_false, BEq.rfl, if_true]
        exact .ok _
      · simp [padLabels, ownLack?, hposition, hcount, EndsWith]

/-- A chain has an expression unless a stream that feeds it has no name, or it has no place for its own
labels. -/
theorem Sound.chainText_ends (hs : Sound o) {t : Texts} {id : ChainId} {c : Chain}
    (hc : o.chain? id = some c) (hfilters : ∃ text, filtersText t c = .ok text) :
    EndsWith (o.chainText t id c) (((o.feedingChain id).findSome? o.lack?).or (ownLack? id c)) := by
  have hinputs : EndsWith (c.inputs.mapM fun s => o.inputLabel s.source)
      ((o.feedingChain id).findSome? o.lack?) := by
    rw [feedingChain, hc, Option.map_some, Option.getD_some, List.findSome?_map]
    exact .mapM fun s hin => inputLabel_ends ((hs.chain hc).fed s hin)
  have htext := hinputs.bind fun inputs => EndsWith.bind (p := none) hfilters fun filters =>
    (padLabels_ends id c).bind fun outputs => EndsWith.ok (String.join inputs ++ filters ++
      String.join (outputs.map fun l => "[" ++ l ++ "]"))
  rwa [Option.or_none, Option.none_or] at htext

/-- A graph has an expression unless a stream that feeds one of its chains has no name. -/
theorem Sound.graphText_ends (hs : Sound o) {t : Texts} {id : GraphId} {g : Graph}
    (hg : o.graph? id = some g)
    (hfilters : ∀ c ∈ o.chains, ∃ text, filtersText t c = .ok text) :
    EndsWith (o.graphText t g) ((o.feeding (.graph id)).findSome? o.lack?) := by
  have hchain : ∀ id ∈ g.chains, EndsWith (do o.chainText t id (← o.chain id))
      ((o.feedingChain id).findSome? o.lack?) := by
    intro id hid
    obtain ⟨k, hk⟩ := List.mem_iff_getElem?.mp hid
    obtain ⟨c, hc, hposition⟩ := (hs.graph hg).placed k id hk
    have htext := hs.chainText_ends hc (hfilters c (mem_chains hc))
    have hown : ownLack? id c = none := by simp [ownLack?, hposition]
    rw [hown, Option.or_none] at htext
    rw [chain_ok.mpr hc]
    exact htext
  have htexts := (EndsWith.mapM hchain).bind fun chains => EndsWith.ok (";".intercalate chains)
  rw [Option.or_none, ← findSome?_flatMap] at htexts
  rwa [feeding, hg, Option.map_some, Option.getD_some]

theorem unnamed_of_findSome? {sources : List Source} {e : Error}
    (h : sources.findSome? o.lack? = some e) : o.Unnamed e := by
  obtain ⟨source, -, hlack⟩ := List.exists_of_findSome?_eq_some h
  exact unnamed_of_lack? hlack

theorem unnamed_of_chain {id : ChainId} {c : Chain} (hc : o.chain? id = some c) {e : Error}
    (h : ((o.feedingChain id).findSome? o.lack?).or (ownLack? id c) = some e) : o.Unnamed e := by
  rcases Option.or_eq_some_iff.mp h with hfirst | ⟨-, hown⟩
  · exact unnamed_of_findSome? hfirst
  · unfold ownLack? at hown
    split at hown
    · cases hown
      exact .chain hc
    · cases hown

/-! ### Showing -/

/-- What showing an object fails for: the first stream that feeds it and has no name, unless the failure
is one that can be shown. -/
def shownFailure? (o : Objects) (x : Object) : Option Error :=
  ((o.feeding x).findSome? o.lack?).filter fun e => !e.isGraphError

/-- An object is shown with streams the first of which without a name is one of an input. -/
def FedUnnumbered (o : Objects) (x : Object) (url : Option Argument) : Prop :=
  (o.feeding x).findSome? o.lack? = some (.inputNotFound url)

theorem shownFailure?_of_fedUnnumbered {x : Object} {url : Option Argument}
    (h : o.FedUnnumbered x url) : o.shownFailure? x = some (.inputNotFound url) := by
  rw [shownFailure?, h]
  rfl

theorem shownFailure?_of_free {x : Object} (h : ∀ url, ¬o.FedUnnumbered x url) :
    o.shownFailure? x = none := by
  unfold shownFailure?
  cases hfirst : (o.feeding x).findSome? o.lack? with
  | none => rfl
  | some e =>
      cases unnamed_of_findSome? hfirst with
      | input url => exact absurd hfirst (h url)
      | chain => rfl

/-- That its own labels are missing does not keep a chain from being shown. -/
theorem filter_or_ownLack? (p : Option Error) (id : ChainId) (c : Chain) :
    (p.or (ownLack? id c)).filter (fun e => !e.isGraphError) = p.filter fun e => !e.isGraphError := by
  cases p with
  | some e => rfl
  | none =>
      unfold ownLack?
      split <;> rfl

/-- An object of a graph is shown by its expression, or by the reason for which it has none if that is
about graphs. -/
theorem showGraphObject_ends {t : Texts} (n : Nat) (typeName : String)
    {expression : Except Error String} {p : Option Error}
    (hfilters : ∀ c ∈ o.chains, ∃ text, filtersText t c = .ok text)
    (hp : ∀ e, p = some e → o.Unnamed e) (h : EndsWith expression p) :
    EndsWith (o.showGraphObject t (n + 1) typeName expression) (p.filter fun e => !e.isGraphError) := by
  cases p with
  | none =>
      obtain ⟨text, rfl⟩ := h
      exact .ok _
  | some e =>
      obtain rfl : expression = .error e := h
      cases hp e rfl with
      | input url => exact rfl
      | @chain id c hc =>
          obtain ⟨text, htext⟩ := hfilters c (mem_chains hc)
          have hnamed := (namedFilters_of_chain t hc).trans htext
          have hreport : ∃ words, o.report t (n + 1) (.unplaced id) = (.unplaced id, some words) := by
            simp only [report, describe, describeGraphError, hnamed, bind, Except.bind, pure,
              Except.pure]
            exact ⟨_, rfl⟩
          obtain ⟨words, hreport⟩ := hreport
          refine ⟨graphObjectText typeName ("<not composable: " ++ words ++ ">"), ?_⟩
          simp only [showGraphObject, hreport, Error.isGraphError, if_true, Option.getD_some]

end Objects

namespace Scene

open Objects

variable {s : Scene}

/-- Filters, chains, graphs, files and commands are shown unless a stream that feeds them keeps them from
it. -/
theorem shownObject_ends (hs : s.objects.Sound) (hopts : s.objects.OptionsHold s.objects.IsFile)
    {t : Texts} (ht : ∀ x, s.objects.IsFile x → t.Writes x) (n : Nat) {x : Object}
    (hx : s.objects.has x = true) (hspecifier : ∀ id, x ≠ .specifier id) :
    EndsWith (s.shownObject t (n + 1) x) (s.objects.shownFailure? x) := by
  have hfilters : ∀ c ∈ s.objects.chains, ∃ text, filtersText t c = .ok text := fun c hc =>
    Objects.filtersText_answers fun f hf e he y hy => ht y (hopts.chains c hc f hf e he y hy)
  cases x with
  | filter id =>
      obtain ⟨f, hf⟩ := Option.isSome_iff_exists.mp hx
      obtain ⟨text, htext⟩ := f.expression_answers fun e he y hy =>
        ht y (hopts.filters f (List.mem_of_getElem? hf) e he y hy)
      simp only [shownObject, filter_ok.mpr hf, htext, showGraphObject, bind, Except.bind]
      exact .ok _
  | chain id =>
      obtain ⟨c, hc⟩ := Option.isSome_iff_exists.mp hx
      have htext := hs.chainText_ends (t := t) hc (hfilters c (mem_chains hc))
      have hshown := showGraphObject_ends n "Chain" hfilters
        (fun _ => unnamed_of_chain hc) htext
      rw [filter_or_ownLack?] at hshown
      simp only [shownObject, chain_ok.mpr hc, bind, Except.bind]
      exact hshown
  | graph id =>
      obtain ⟨g, hg⟩ := Option.isSome_iff_exists.mp hx
      have htext := hs.graphText_ends (t := t) hg hfilters
      have hshown := showGraphObject_ends n "Graph" hfilters
        (fun _ => unnamed_of_findSome?) htext
      simp only [shownObject, graph_ok.mpr hg, bind, Except.bind]
      exact hshown
  | input id =>
      obtain ⟨i, hi⟩ := Option.isSome_iff_exists.mp hx
      simp only [shownObject, input_ok.mpr hi, bind, Except.bind]
      exact .ok _
  | output id =>
      obtain ⟨out, hout⟩ := Option.isSome_iff_exists.mp hx
      simp only [shownObject, output_ok.mpr hout, bind, Except.bind]
      exact .ok _
  | command id =>
      obtain ⟨c, hc⟩ := Option.isSome_iff_exists.mp hx
      simp only [shownObject, command_ok.mpr hc, bind, Except.bind]
      exact .ok _
  | specifier id => exact absurd rfl (hspecifier id)

/-- A specifier is shown unless the chain of its pad cannot be. -/
theorem showSpecifier_ends (hs : s.objects.Sound) {t : Texts}
    (ht : ∀ x, s.objects.has x = true → (∀ id, x ≠ .specifier id) →
      EndsWith (t.shown x) (s.objects.shownFailure? x)) (n : Nat) {id : SpecifierId}
    (hid : s.objects.has (.specifier id) = true) :
    EndsWith (s.shownObject t n (.specifier id)) (s.objects.shownFailure? (.specifier id)) := by
  obtain ⟨made, hmade⟩ := Option.isSome_iff_exists.mp hid
  have hrefers := hs.specifiers made (specifier?_mem hmade)
  simp only [shownObject, specifier_ok.mpr hmade, bind, Except.bind]
  cases hsource : made.source with
  | input input track =>
      rw [hsource] at hrefers
      obtain ⟨text, htext⟩ := ht (.input input) hrefers (by simp)
      have htrack : ∃ words, ((track.map Track.toValue).getD .null).shown t = .ok words := by
        rcases track with _ | _ | _ <;> exact ⟨_, rfl⟩
      obtain ⟨words, hwords⟩ := htrack
      have hnone : s.objects.shownFailure? (.specifier id) = none := by
        simp [shownFailure?, feeding, hmade, hsource]
      rw [hnone]
      simp only [showSpecifier, htext, hwords, bind, Except.bind]
      exact .ok _
  | pad chain pad =>
      rw [hsource] at hrefers
      obtain ⟨c, hc, -⟩ := hrefers
      have hsame : s.objects.shownFailure? (.specifier id) = s.objects.shownFailure? (.chain chain) := by
        simp only [shownFailure?, feeding, hmade, Option.map_some, hsource]
      have hchain := ht (.chain chain) (by simp [has, hc]) (by simp)
      have hshown := hchain.bind fun text => EndsWith.ok
        ("<ffmpegcmd.stream_spec.FilterPadSpecifier anchor=" ++ text ++ " selector=" ++ toString pad ++
          ">")
      rw [Option.or_none] at hshown
      rw [hsame]
      exact hshown

/-- There are levels enough to show a specifier, a chain behind it and the files in that. -/
theorem exists_depth_of_has {x : Object} (hx : s.objects.has x = true) : ∃ n, s.depth = n + 3 := by
  have hcount : 1 ≤ s.objects.count := by
    have hlength : ∀ {α : Type} {l : List α} {k : Nat}, (l[k]?).isSome = true → 1 ≤ l.length := by
      intro α l k h
      obtain ⟨a, ha⟩ := Option.isSome_iff_exists.mp h
      exact List.length_pos_of_mem (List.mem_of_getElem? ha)
    unfold Objects.count
    cases x <;> have hpos := hlength hx <;> omega
  have hdepth : 3 ≤ s.depth := by
    unfold depth
    calc 3 = 3 * 1 := rfl
      _ ≤ (s.objects.count + 2) * (s.objects.containerCount + 1) :=
        Nat.mul_le_mul (by omega) (by omega)
  exact ⟨s.depth - 3, by omega⟩

/-- An object that is there is shown unless a stream that feeds it keeps it from that. -/
theorem shownWithin_ends (hs : s.objects.Sound) (hopts : s.objects.OptionsHold s.objects.IsFile)
    {x : Object} (hx : s.objects.has x = true) (within : List Nat) :
    EndsWith (s.texts.shownWithin within x) (s.objects.shownFailure? x) := by
  obtain ⟨n, hn⟩ := exists_depth_of_has hx
  have hwrites : ∀ (n : Nat) (within : List Nat) (x : Object), s.objects.IsFile x →
      ({ s.textsTo (n + 1) with within } : Texts).Writes x :=
    fun n within x hfile => (writes_file_above hfile n).within within
  unfold texts
  rw [hn]
  show EndsWith (s.shownObject { s.textsTo (n + 2) with within } (n + 3) x) _
  cases x with
  | specifier id =>
      refine showSpecifier_ends hs (fun x hx hspecifier => ?_) (n + 3) hx
      exact shownObject_ends hs hopts (hwrites n within) (n + 1) hx hspecifier
  | filter | chain | graph | input | output | command =>
      exact shownObject_ends hs hopts (hwrites (n + 1) within) (n + 2) hx (by simp)

/-- A value is shown if no stream keeps an object in it from being shown. -/
theorem shown_of_free (hs : s.objects.Sound) (hopts : s.objects.OptionsHold s.objects.IsFile)
    {v : Value} (hthere : ∀ x ∈ v.objects, s.objects.has x = true)
    (hfree : ∀ x ∈ v.objects, ∀ url, ¬s.objects.FedUnnumbered x url) :
    ∃ text, s.shown v = .ok text := by
  refine v.shown_answers s.texts fun x hx within => ?_
  have hends := shownWithin_ends hs hopts (hthere x hx) within
  rwa [shownFailure?_of_free (hfree x hx)] at hends

/-- An object that such a stream feeds is not shown, and the input is told. -/
theorem shown_of_fedUnnumbered (hs : s.objects.Sound)
    (hopts : s.objects.OptionsHold s.objects.IsFile) {x : Object} (hx : s.objects.has x = true)
    {url : Option Argument} (hfed : s.objects.FedUnnumbered x url) :
    s.shown (.object x) = .error (.inputNotFound url) := by
  have hends := shownWithin_ends hs hopts hx s.texts.within
  rwa [shownFailure?_of_fedUnnumbered hfed] at hends

/-! ### Failures to show -/

theorem showGraphObject_onlyFails (o : Objects) (t : Texts) (n : Nat) (typeName : String)
    (expression : Except Error String) :
    OnlyFails (fun e => e.isGraphError = false) (o.showGraphObject t n typeName expression) := by
  intro e h
  unfold showGraphObject at h
  split at h
  · cases h
  · dsimp only at h
    split at h
    · cases h
    · rename_i hgraph
      cases h
      simpa using hgraph

/-- Showing an object fails for no graph if showing the objects behind it does not. -/
theorem shownObject_onlyFails {t : Texts}
    (ht : ∀ within x, OnlyFails (fun e => e.isGraphError = false) (t.shownWithin within x)) (n : Nat)
    (x : Object) : OnlyFails (fun e => e.isGraphError = false) (s.shownObject t n x) := by
  have hfound : ∀ {α : Type} (x : Option α), OnlyFails (fun e => e.isGraphError = false) (found x) :=
    found_onlyFails (P := fun e => e.isGraphError = false) rfl
  cases x with
  | filter id =>
      exact (hfound _).bind fun f => showGraphObject_onlyFails _ t n "Filter" _
  | chain id =>
      exact (hfound _).bind fun c => showGraphObject_onlyFails _ t n "Chain" _
  | graph id =>
      exact (hfound _).bind fun g => showGraphObject_onlyFails _ t n "Graph" _
  | input | output | command => exact (hfound _).bind fun _ => .ok _
  | specifier id =>
      refine (hfound _).bind fun made => ?_
      cases made.source with
      | input input track =>
          exact (ht _ _).bind fun _ => (Value.shown_onlyFails t _ ht).bind fun _ => .ok _
      | pad chain pad => exact (ht _ _).bind fun _ => .ok _

/-- Whatever is shown, showing it fails for no graph. -/
theorem shown_onlyFails (v : Value) : OnlyFails (fun e => e.isGraphError = false) (s.shown v) := by
  have hlevel : ∀ (n : Nat) (within : List Nat) (x : Object),
      OnlyFails (fun e => e.isGraphError = false) ((s.textsTo n).shownWithin within x) := by
    intro n
    induction n with
    | zero =>
        intro within x e h
        cases h
        rfl
    | succ n ih => exact fun within x =>
        shownObject_onlyFails (t := { s.textsTo n with within }) (fun _ => ih _) (n + 1) x
  exact Value.shown_onlyFails s.texts v (hlevel s.depth)

end Scene

namespace Objects

variable {o o' : Objects}

/-! ### Objects of the wrong kind -/

/-- A value is no mapping source: no specifier, no input and no chain. -/
structure NoSource (v : Value) : Prop where
  specifier : ∀ id, v ≠ .object (.specifier id)
  input : ∀ id, v ≠ .object (.input id)
  chain : ∀ id, v ≠ .object (.chain id)

theorem resolveSource_noSource {c : Command} {v index : Value} (h : NoSource v) :
    o.resolveSource c v index = .error (.unknownSource v) := by
  unfold resolveSource
  split
  · exact absurd rfl (h.specifier _)
  · exact absurd rfl (h.input _)
  · exact absurd rfl (h.chain _)
  · rfl

/-- A value of the wrong kind is given to a call, with the error that the call has for it and the objects
that are there when the call comes to it. -/
inductive Misgiven (o : Objects) : Action → Value → Error → Objects → Prop
  | addGraph {m : CommandId} {v onOutput : Value} (hm : (o.command? m).isSome)
      (hv : ∀ id, v ≠ .object (.graph id)) :
      Misgiven o (.addGraph m v onOutput) v (.invalidObject .graph v) o
  | appendChain {g : GraphId} {v : Value} (hg : (o.graph? g).isSome)
      (hfilter : ∀ id, v ≠ .object (.filter id)) (hchain : ∀ id, v ≠ .object (.chain id)) :
      Misgiven o (.appendChain g v) v (.invalidObject .chainOrFilter v) o
  | inputs {id : ChainId} {v : Value} (hc : (o.chain? id).isSome) (htext : ∀ s, v ≠ .text s)
      (hitems : o.items? v = none) :
      Misgiven o (.addInputs id v) v (.invalidObject .specifierSequence v) o
  | input {id : ChainId} {inputs v : Value} {before after : List Value} {bound : List Specifier}
      (hc : (o.chain? id).isSome) (hitems : o.inputItems inputs = .ok (before ++ v :: after))
      (hbefore : o.specifiersOf before = .ok bound) (hv : ∀ id, v ≠ .object (.specifier id)) :
      Misgiven o (.addInputs id inputs) v (.invalidObject .specifier v) o
  | filters {v : Value} (hfilter : ∀ id, v.bare ≠ .object (.filter id))
      (hitems : (∃ data, v.bare = .bytes data) ∨ o.items? v = none) :
      Misgiven o (.newChain v) v (.invalidObject .filterSequence v) o
  | filter {filters v : Value} {before after : List Value} {taken : List Filter}
      (hfilter : ∀ id, filters.bare ≠ .object (.filter id)) (hbytes : ∀ data, filters.bare ≠ .bytes data)
      (hitems : o.items? filters = some (before ++ v :: after))
      (hbefore : o.filtersOf before = .ok taken) (hv : ∀ id, v ≠ .object (.filter id)) :
      Misgiven o (.newChain filters) v (.invalidObject .filter v) o
  | addOutput {m : CommandId} {command : Command} {output : OutputId} {mappings entry v : Value}
      {before after : List Value} {specifiers : List Specifier} (hcommand : o.command? m = some command)
      (hout : (o.output? output).isSome) (hnew : output ∉ command.outputs)
      (hentries : o.mappingEntries mappings = .ok (before ++ entry :: after))
      (hbefore : (o.resolveEntries command [] before).result = .ok specifiers)
      (hentry : splitEntry entry = .error (.unknownSource v) ∨
        ∃ index, splitEntry entry = .ok (v, index) ∧ NoSource v) :
      Misgiven o (.addOutput m (.object (.output output)) mappings) v (.unknownSource v)
        (o.resolveEntries command [] before).objects
  | map {m : CommandId} {command : Command} {output : OutputId} {v index : Value}
      (hcommand : o.command? m = some command) (hout : (o.output? output).isSome)
      (hin : output ∈ command.outputs) (hv : NoSource v) :
      Misgiven o (.map m (.object (.output output)) v index) v (.unknownSource v) o
  | mappingValue {m : CommandId} {v index : Value} (hm : (o.command? m).isSome) (hv : NoSource v) :
      Misgiven o (.mappingValue m v index) v (.unknownSource v) o

/-- An error is about the kind of a value. -/
inductive OfKind (v : Value) : Error → Prop
  | object (expected : Expected) : OfKind v (.invalidObject expected v)
  | source : OfKind v (.unknownSource v)

theorem specifiersOf_refused {before after : List Value} {v : Value}
    (hv : ∀ id, v ≠ .object (.specifier id)) : ∀ {bound : List Specifier},
      o.specifiersOf before = .ok bound →
      o.specifiersOf (before ++ v :: after) = .error (.invalidObject .specifier v) := by
  induction before with
  | nil =>
      intro bound _
      rw [List.nil_append, specifiersOf]
      exact hv
  | cons x rest ih =>
      intro bound h
      unfold specifiersOf at h
      split at h
      · cases ‹_ :: _ = []›
      · rename_i id items heq
        cases heq
        obtain ⟨s, hs, h⟩ := bind_ok.mp h
        obtain ⟨more, hmore, -⟩ := bind_ok.mp h
        simp only [List.cons_append, specifiersOf, hs, ih hmore, bind, Except.bind]
      · cases h

theorem filtersOf_refused {before after : List Value} {v : Value}
    (hv : ∀ id, v ≠ .object (.filter id)) : ∀ {taken : List Filter},
      o.filtersOf before = .ok taken →
      o.filtersOf (before ++ v :: after) = .error (.invalidObject .filter v) := by
  induction before with
  | nil =>
      intro taken _
      rw [List.nil_append, filtersOf]
      exact hv
  | cons x rest ih =>
      intro taken h
      unfold filtersOf at h
      split at h
      · cases ‹_ :: _ = []›
      · rename_i id items heq
        cases heq
        obtain ⟨f, hf, h⟩ := bind_ok.mp h
        obtain ⟨more, hmore, -⟩ := bind_ok.mp h
        simp only [List.cons_append, filtersOf, hf, ih hmore, bind, Except.bind]
      · cases h

namespace Misgiven

variable {a : Action} {v : Value} {e : Error} {seen : Objects}

theorem ofKind (h : Misgiven o a v e seen) : OfKind v e := by
  cases h with
  | addGraph | appendChain | inputs | input | filters | filter => exact .object _
  | addOutput | map | mappingValue => exact .source

theorem isGradual (h : Misgiven o a v e seen) : a.isGradual = false := by
  cases h <;> rfl

/-- The call is refused with the error. -/
theorem refused (h : Misgiven o a v e seen) (hs : Sound o) :
    (o.perform a).result = .error ⟨e, seen⟩ := by
  cases h with
  | @addGraph m v onOutput hm hv =>
      obtain ⟨c, hc⟩ := Option.isSome_iff_exists.mp hm
      have hrefused : o.commandAddGraph m v onOutput = .error (.invalidObject .graph v) := by
        simp only [commandAddGraph, command_ok.mpr hc, bind, Except.bind]
      simp only [perform, hrefused]
      rfl
  | @appendChain g v hg hfilter hchain =>
      obtain ⟨graph, hgraph⟩ := Option.isSome_iff_exists.mp hg
      have hrefused : o.wrap .chainOrFilter v = .error (.invalidObject .chainOrFilter v) := by
        unfold wrap
        split
        · exact absurd rfl (hfilter _)
        · exact absurd rfl (hchain _)
        · rfl
      simp only [perform, appendToGraph, graph_ok.mpr hgraph, takeChain, hrefused, bind, Except.bind]
      rfl
  | @inputs id v hc htext hitems =>
      obtain ⟨c, hc⟩ := Option.isSome_iff_exists.mp hc
      have hrefused : o.inputItems v = .error (.invalidObject .specifierSequence v) := by
        unfold inputItems
        split
        · exact absurd rfl (htext _)
        · rw [hitems]
      simp only [perform, Objects.addInputs, validateInputs, chain_ok.mpr hc, hrefused, bind,
        Except.bind, Outcome.map, Except.map]
  | input hc hitems hbefore hv =>
      obtain ⟨c, hc⟩ := Option.isSome_iff_exists.mp hc
      simp only [perform, Objects.addInputs, validateInputs, chain_ok.mpr hc, hitems,
        specifiersOf_refused hv hbefore, bind, Except.bind, Outcome.map, Except.map]
  | filters hfilter hitems =>
      have hrefused : o.newChain v = .error (.invalidObject .filterSequence v) := by
        unfold newChain
        split
        · exact absurd ‹_› (hfilter _)
        · rfl
        · rename_i hbytes
          rw [hitems.resolve_left (not_exists.mpr hbytes)]
      simp only [perform, hrefused]
      rfl
  | @filter filters v before after taken hfilter hbytes hitems hbefore hv =>
      have hrefused : o.newChain filters = .error (.invalidObject .filter v) := by
        unfold newChain
        split
        · exact absurd ‹_› (hfilter _)
        · exact absurd ‹_› (hbytes _)
        · have hsome : (before ++ v :: after).isEmpty = false := by simp
          simp only [hitems, hsome, Bool.false_eq_true, if_false, filtersOf_refused hv hbefore, bind,
            Except.bind]
      simp only [perform, hrefused]
      rfl
  | addOutput hcommand hout hnew hentries hbefore hentry =>
      refine perform_addOutput_error hs hcommand hout hnew hentries hbefore ?_
      unfold resolveEntry
      rcases hentry with hsplit | ⟨index, hsplit, hv⟩
      · rw [hsplit]
        rfl
      · rw [hsplit]
        exact resolveSource_noSource hv
  | map hcommand hout hin hv =>
      exact perform_map_error hcommand hout hin (resolveSource_noSource hv)
  | mappingValue hm hv =>
      obtain ⟨c, hc⟩ := Option.isSome_iff_exists.mp hm
      simp only [perform, Objects.mappingValue, command_ok.mpr hc, resolveSource_noSource hv,
        Outcome.map, Except.map, bind, Except.bind]

theorem takesPads (h : Misgiven o a v e seen) : TakesPads o seen := by
  cases h with
  | addOutput hcommand hout hnew hentries hbefore => exact resolveEntries_takesPads hbefore
  | _ => exact .refl o

theorem sound (h : Misgiven o a v e seen) (hs : Sound o) : Sound seen := by
  cases h with
  | addOutput hcommand hout hnew hentries hbefore =>
      obtain ⟨new, -, trace, -, -⟩ := resolveEntries_ok hs hbefore
      exact trace.sound hs
  | _ => exact hs

end Misgiven

/-! ### What resolved sources leave -/

namespace TakesPads

theorem isFile (h : TakesPads o o') {x : Object} (hx : o.IsFile x) : o'.IsFile x := by
  cases x with
  | input id => exact (congrArg (fun l => (l[id.index]?).isSome = true) h.inputs).mpr hx
  | output id => exact (congrArg (fun l => (l[id.index]?).isSome = true) h.outputs).mpr hx
  | filter | chain | graph | specifier | command => exact hx.elim

theorem optionsHold (h : TakesPads o o') (hopts : o.OptionsHold o.IsFile) :
    o'.OptionsHold o'.IsFile where
  filters := fun f hf e he x hx => h.isFile (hopts.filters f (h.filters ▸ hf) e he x hx)
  chains := fun c' hc' f hf e he x hx => by
    have hmem : c'.withoutPads ∈ o.chains.map Chain.withoutPads :=
      h.chains ▸ List.mem_map_of_mem hc'
    obtain ⟨c, hc, hsame⟩ := List.mem_map.mp hmem
    simp only [Chain.withoutPads, Chain.mk.injEq] at hsame
    exact h.isFile (hopts.chains c hc f (hsame.1 ▸ hf) e he x hx)

theorem specifier? (h : TakesPads o o') {id : SpecifierId} {s : Specifier}
    (hs : o.specifier? id = some s) : o'.specifier? id = some s := by
  obtain ⟨more, hmore⟩ := h.specifiers
  obtain ⟨hlt, -⟩ := List.getElem?_eq_some_iff.mp hs
  rw [Objects.specifier?, hmore, List.getElem?_append_left hlt]
  exact hs

theorem has (h : TakesPads o o') {x : Object} (hx : o.has x = true) : o'.has x = true := by
  cases x with
  | specifier id =>
      obtain ⟨s, hs⟩ := Option.isSome_iff_exists.mp hx
      exact Option.isSome_iff_exists.mpr ⟨s, h.specifier? hs⟩
  | chain id =>
      obtain ⟨c, hc⟩ := Option.isSome_iff_exists.mp hx
      obtain ⟨c', hc', -⟩ := h.chain hc
      exact Option.isSome_iff_exists.mpr ⟨c', hc'⟩
  | filter id => exact (congrArg (fun l => (l[id.index]?).isSome = true) h.filters).mpr hx
  | graph id => exact (congrArg (fun l => (l[id.index]?).isSome = true) h.graphs).mpr hx
  | input id => exact (congrArg (fun l => (l[id.index]?).isSome = true) h.inputs).mpr hx
  | output id => exact (congrArg (fun l => (l[id.index]?).isSome = true) h.outputs).mpr hx
  | command id => exact (congrArg (fun l => (l[id.index]?).isSome = true) h.commands).mpr hx

theorem feedingChain (h : TakesPads o o') (id : ChainId) :
    o'.feedingChain id = o.feedingChain id := by
  have hmap := congrArg (Option.map fun c : Chain => c.inputs.map Specifier.source) (h.chain? id)
  rw [Option.map_map, Option.map_map] at hmap
  exact congrArg (·.getD []) hmap

/-- The same streams feed what was there. -/
theorem feeding (h : TakesPads o o') {x : Object} (hx : o.has x = true) :
    o'.feeding x = o.feeding x := by
  cases x with
  | chain id => exact h.feedingChain id
  | graph id => simp only [Objects.feeding, Objects.graph?, h.graphs, funext h.feedingChain]
  | specifier id =>
      obtain ⟨s, hs⟩ := Option.isSome_iff_exists.mp hx
      simp only [Objects.feeding, hs, h.specifier? hs, h.feedingChain]
  | filter | input | output | command => rfl

theorem lack? (h : TakesPads o o') (source : Source) : o'.lack? source = o.lack? source := by
  cases source with
  | input id track => simp only [Objects.lack?, Objects.input?, h.inputs]
  | pad id pad =>
      have hmap := congrArg (Option.bind · fun c : Chain =>
        if c.position.isNone then some (Error.unplaced id) else none) (h.chain? id)
      rw [Option.bind_map, Option.bind_map] at hmap
      exact hmap

theorem fedUnnumbered_iff (h : TakesPads o o') {x : Object} (hx : o.has x = true)
    {url : Option Argument} : o'.FedUnnumbered x url ↔ o.FedUnnumbered x url := by
  rw [FedUnnumbered, FedUnnumbered, h.feeding hx, funext h.lack?]

end TakesPads

end Objects

namespace Session

open Objects

variable {s : Session} {a : Action} {v : Value} {e : Error}

/-- An error about the kind of a value is told as such if the value can be shown. -/
theorem explain_shown (hkind : OfKind v e) {text : String} (h : s.scene.shown v = .ok text) :
    ∃ words, s.explain e = ⟨e, some words⟩ := by
  have hshown : v.shown s.scene.texts = .ok text := h
  cases hkind with
  | object expected =>
      exact ⟨_, explain_described (by
        simp only [describe, describeGraphError, hshown, bind, Except.bind]; rfl)⟩
  | source =>
      exact ⟨_, explain_described (by
        simp only [describe, describeGraphError, describeCommandError, hshown, bind, Except.bind]
        rfl)⟩

/-- What is said of an input that is not part of a command. -/
def notFoundWords (url : Option Argument) : String :=
  "Input file is not a part of the command: " ++ plainUrl url

/-- An error that cannot be put into words gives way to the reason for that, if this one has words. -/
theorem explain_failing {why : Error} {words : Option String}
    (h : s.scene.objects.describe s.scene.texts e = .error why)
    (hwhy : s.scene.objects.describe s.scene.texts why = .ok words) : s.explain e = ⟨why, words⟩ := by
  obtain ⟨n, hn⟩ : ∃ n, s.scene.depth = n + 2 := by
    refine ⟨s.scene.depth - 2, ?_⟩
    have hdepth : 2 * 1 ≤ s.scene.depth := Nat.mul_le_mul (by omega) (by omega)
    omega
  unfold explain Scene.report
  simp only [hn, report, h, hwhy]

/-- If the value cannot be shown for an input without a number, the error gives way to that. -/
theorem explain_unshown (hkind : OfKind v e) {url : Option Argument}
    (h : s.scene.shown v = .error (.inputNotFound url)) :
    s.explain e = ⟨.inputNotFound url, some (notFoundWords url)⟩ := by
  have hshown : v.shown s.scene.texts = .error (.inputNotFound url) := h
  refine explain_failing ?_ rfl
  cases hkind <;>
    simp only [describe, describeGraphError, describeCommandError, hshown, bind, Except.bind]

/-- **Everything is shown unless it is fed by an input without a number.**  Showing a value never fails
for filters, chains and graphs themselves.  A call that is given a value of the wrong kind changes
nothing, and answers the error that it has for that whenever the value can be shown.  If the options of
filters hold no objects but files, an object can be shown exactly if the first stream that feeds it and
has no name, if there is any, is a pad.  If that stream is one of an input, showing the object fails for
the input, and so does every call that should refuse the object for its kind. -/
theorem shown_unless_fed_unnumbered (h : s.objects.Reachable) :
    (∀ v e, s.scene.shown v = .error e → e.isGraphError = false) ∧
    (∀ a v e seen, Misgiven s.objects a v e seen → (s.act a).session = s ∧
      ∀ text, ({ s with objects := seen } : Session).scene.shown v = .ok text →
        ∃ words, (s.act a).result = .error ⟨e, some words⟩) ∧
    (s.objects.OptionsHold s.objects.IsFile →
      (∀ x, s.objects.has x = true →
        (∀ url, s.objects.FedUnnumbered x url →
          s.scene.shown (.object x) = .error (.inputNotFound url)) ∧
        ((∀ url, ¬s.objects.FedUnnumbered x url) →
          ∃ text, s.scene.shown (.object x) = .ok text)) ∧
      ∀ a v e seen, Misgiven s.objects a v e seen → (∀ x ∈ v.objects, s.objects.has x = true) →
        ((∀ x ∈ v.objects, ∀ url, ¬s.objects.FedUnnumbered x url) →
          ∃ words, (s.act a).result = .error ⟨e, some words⟩) ∧
        ∀ x url, v = .object x → s.objects.FedUnnumbered x url →
          (s.act a).result = .error ⟨.inputNotFound url, some (notFoundWords url)⟩) := by
  have hs := h.sound
  have htold : ∀ a v e seen, Misgiven s.objects a v e seen → (s.act a).session = s ∧
      (s.act a).result = .error (({ s with objects := seen } : Session).explain e) :=
    fun a v e seen hgiven => act_refused_same hs hgiven.isGradual (hgiven.refused hs)
  refine ⟨fun v => s.scene.shown_onlyFails v, fun a v e seen hgiven => ?_,
    fun hopts => ⟨fun x hx => ⟨fun url hfed => ?_, fun hfree => ?_⟩, ?_⟩⟩
  · obtain ⟨hsession, hresult⟩ := htold a v e seen hgiven
    refine ⟨hsession, fun text htext => ?_⟩
    obtain ⟨words, hwords⟩ := explain_shown hgiven.ofKind htext
    exact ⟨words, hwords ▸ hresult⟩
  · exact Scene.shown_of_fedUnnumbered (s := s.scene) hs hopts hx hfed
  · refine Scene.shown_of_free (s := s.scene) hs hopts (fun y hy => ?_) fun y hy => ?_
    · exact List.mem_singleton.mp hy ▸ hx
    · exact List.mem_singleton.mp hy ▸ hfree
  · intro a v e seen hgiven hthere
    have htakes := hgiven.takesPads
    have hs' := hgiven.sound hs
    have hopts' := htakes.optionsHold hopts
    obtain ⟨-, hresult⟩ := htold a v e seen hgiven
    constructor
    · intro hfree
      obtain ⟨text, htext⟩ := Scene.shown_of_free (s := ({ s with objects := seen } : Session).scene)
        hs' hopts' (fun x hx => htakes.has (hthere x hx)) fun x hx url hfed =>
          hfree x hx url ((htakes.fedUnnumbered_iff (hthere x hx)).mp hfed)
      obtain ⟨words, hwords⟩ := explain_shown hgiven.ofKind htext
      exact ⟨words, hwords ▸ hresult⟩
    · rintro x url rfl hfed
      have hx := hthere x List.mem_cons_self
      have hunshown := Scene.shown_of_fedUnnumbered
        (s := ({ s with objects := seen } : Session).scene) hs' hopts' (htakes.has hx)
        ((htakes.fedUnnumbered_iff hx).mpr hfed)
      rw [hresult, explain_unshown hgiven.ofKind hunshown]

/-- A session with two chains that are in no graph.  The first is fed by a stream of an input that no
command has numbered; the pad of the second is referred to. -/
def unnumberedSession : Session where
  objects := Objects.afterCalls {}
    [.act (.newInput (.text "in.mp4") .null), .act (.inputStream ⟨0⟩ .null),
      .act (.newFilter (.text "null") .null (.int 1) (.int 1)),
      .act (.newChain (.object (.filter ⟨0⟩))),
      .act (.addInputs ⟨0⟩ (.list [.object (.specifier ⟨0⟩)])),
      .act (.newChain (.object (.filter ⟨0⟩))), .act (.outputPad ⟨1⟩ .null),
      .act (.newCommand .null none)]

/-- In this session the first chain cannot be shown, and a command that is given it for a graph tells of
the input; the second chain is shown, and refused for what it is. -/
theorem unnumbered_chain_not_shown :
    unnumberedSession.objects.Reachable ∧
    unnumberedSession.scene.shown (.object (.chain ⟨0⟩))
      = .error (.inputNotFound (some (.text "in.mp4"))) ∧
    (unnumberedSession.act (.addGraph ⟨0⟩ (.object (.chain ⟨0⟩)) .null)).result
      = .error ⟨.inputNotFound (some (.text "in.mp4")),
          some "Input file is not a part of the command: in.mp4"⟩ ∧
    (∃ text, unnumberedSession.scene.shown (.object (.chain ⟨1⟩)) = .ok text) ∧
    ∃ words, (unnumberedSession.act (.addGraph ⟨0⟩ (.object (.chain ⟨1⟩)) .null)).result
      = .error ⟨.invalidObject .graph (.object (.chain ⟨1⟩)), some words⟩ := by
  have hreachable : unnumberedSession.objects.Reachable := ⟨_, rfl⟩
  have hopts : unnumberedSession.objects.OptionsHold unnumberedSession.objects.IsFile :=
    .of_isEmpty (by decide) (by decide)
  obtain ⟨-, -, hfiles⟩ := shown_unless_fed_unnumbered hreachable
  obtain ⟨hshown, hrefused⟩ := hfiles hopts
  have hgiven : ∀ id, Misgiven unnumberedSession.objects (.addGraph ⟨0⟩ (.object (.chain id)) .null)
      (.object (.chain id)) (.invalidObject .graph (.object (.chain id)))
      unnumberedSession.objects := fun id => .addGraph rfl (by simp)
  have hthere : ∀ id : ChainId, unnumberedSession.objects.has (.chain id) = true →
      ∀ x ∈ (Value.object (.chain id)).objects, unnumberedSession.objects.has x = true :=
    fun id hid x hx => List.mem_singleton.mp hx ▸ hid
  have hfed : unnumberedSession.objects.FedUnnumbered (.chain ⟨0⟩) (some (.text "in.mp4")) := rfl
  have hfree : ∀ url, ¬unnumberedSession.objects.FedUnnumbered (.chain ⟨1⟩) url := by
    intro url h
    cases h
  refine ⟨hreachable, (hshown _ rfl).1 _ hfed, ?_, (hshown _ rfl).2 hfree, ?_⟩
  · exact (hrefused _ _ _ _ (hgiven ⟨0⟩) (hthere ⟨0⟩ rfl)).2 _ _ rfl hfed
  · exact (hrefused _ _ _ _ (hgiven ⟨1⟩) (hthere ⟨1⟩ rfl)).1 fun x hx =>
      List.mem_singleton.mp hx ▸ hfree

end Session

end MediaCommand
