/-
Labels that come twice.

A label is the place of a chain, the name of its last filter and the index of a pad, with underscores
between them.  The name may hold anything, but a number holds no underscore, so all three can be read
back from the label (`padName_injective`).  The chains of one graph have different places, hence a graph
gives no label twice.  Two graphs give a label in common exactly if at some place both have a chain that
gives labels, and the names agree: the labels of a chain begin with that of its first pad.

The check of a command refuses exactly such graphs.  What is written afterwards can fail only with one of
the filters, and a filter may fail for a label that comes twice as well: a command among its options is
put into words by its own command line.
-/
import Mathlib.Data.List.Pairwise
import MediaCommand.Proofs.CommandLine
import MediaCommand.Proofs.Unambiguous

namespace MediaCommand

/-! ### Reading a label back -/

/-- Where a character comes for the first time a text is cut in one way. -/
theorem eq_of_first_cut {c : Char} {x y : List Char} :
    ∀ {a b : List Char}, c ∉ a → c ∉ b → a ++ c :: x = b ++ c :: y → a = b ∧ x = y := by
  intro a
  induction a with
  | nil =>
      intro b _ hb h
      cases b with
      | nil => exact ⟨rfl, List.tail_eq_of_cons_eq h⟩
      | cons d b =>
          obtain ⟨rfl, -⟩ := List.cons_eq_cons.mp h
          exact absurd List.mem_cons_self hb
  | cons d a ih =>
      intro b ha hb h
      cases b with
      | nil =>
          obtain ⟨rfl, -⟩ := List.cons_eq_cons.mp h
          exact absurd List.mem_cons_self ha
      | cons d' b =>
          obtain ⟨rfl, hrest⟩ := List.cons_eq_cons.mp h
          obtain ⟨rfl, rfl⟩ := ih (fun hc => ha (List.mem_cons_of_mem d hc))
            (fun hc => hb (List.mem_cons_of_mem d hc)) hrest
          exact ⟨rfl, rfl⟩

/-- Where a character comes for the last time a text is cut in one way. -/
theorem eq_of_last_cut {c : Char} {a b x y : List Char} (hx : c ∉ x) (hy : c ∉ y)
    (h : a ++ c :: x = b ++ c :: y) : a = b ∧ x = y := by
  have hreverse : x.reverse ++ c :: a.reverse = y.reverse ++ c :: b.reverse := by
    have := congrArg List.reverse h
    simpa using this
  obtain ⟨hxy, hab⟩ := eq_of_first_cut (by simpa using hx) (by simpa using hy) hreverse
  exact ⟨List.reverse_injective hab, List.reverse_injective hxy⟩

namespace Objects

theorem underscore_not_mem_toString (n : Nat) : '_' ∉ (toString n).toList := fun h =>
  absurd (mem_toString h) (by decide)

theorem toString_injective {m n : Nat} (h : (toString m).toList = (toString n).toList) : m = n := by
  rw [show toString m = m.repr from rfl, show toString n = n.repr from rfl, Nat.toList_repr,
    Nat.toList_repr] at h
  rw [← @Nat.ofDigitChars_ten_toDigits m, h, Nat.ofDigitChars_ten_toDigits]

/-- The place, the name and the index can be read back from a label. -/
theorem padName_injective {c c' : Chain} {k k' pad pad' : Nat}
    (h : padName c k pad = padName c' k' pad') :
    k = k' ∧ c.last.name = c'.last.name ∧ pad = pad' := by
  have hchars : (toString k).toList ++ '_' :: (c.last.name.toList ++ '_' :: (toString pad).toList)
      = (toString k').toList ++ '_' :: (c'.last.name.toList ++ '_' :: (toString pad').toList) := by
    have hlists := congrArg String.toList h
    simpa [padName] using hlists
  obtain ⟨hk, hrest⟩ := eq_of_first_cut (underscore_not_mem_toString k)
    (underscore_not_mem_toString k') hchars
  obtain ⟨hname, hpad⟩ := eq_of_last_cut (underscore_not_mem_toString pad)
    (underscore_not_mem_toString pad') hrest
  exact ⟨toString_injective hk, String.toList_inj.mp hname, toString_injective hpad⟩

variable {o o' : Objects}

/-! ### The labels of one graph -/

/-- The labels that the chains of a graph give. -/
def labelsOf (o : Objects) (g : Graph) : List String := (g.chains.map o.labelsAt).flatten

/-- A label of a graph tells the place of its chain, and that something refers to the chain. -/
theorem Sound.mem_labelsOf (hs : Sound o) {g : Graph} (hg : g ∈ o.graphs) {label : String} :
    label ∈ o.labelsOf g ↔ ∃ (k : Nat) (id : ChainId) (c : Chain) (pad : Nat),
      g.chains[k]? = some id ∧ o.chain? id = some c ∧ pad < c.labeledCount ∧
        label = padName c k pad := by
  rw [labelsOf, ← List.flatMap_def, List.mem_flatMap]
  constructor
  · rintro ⟨id, hid, hlabel⟩
    obtain ⟨k, hk⟩ := List.mem_iff_getElem?.mp hid
    obtain ⟨c, hc, hposition⟩ := (hs.graphs g hg).placed k id hk
    rw [labelsAt_placed hc hposition] at hlabel
    obtain ⟨pad, hpad, rfl⟩ := List.mem_map.mp hlabel
    exact ⟨k, id, c, pad, hk, hc, List.mem_range.mp hpad, rfl⟩
  · rintro ⟨k, id, c, pad, hk, hc, hpad, rfl⟩
    obtain ⟨c', hc', hposition⟩ := (hs.graphs g hg).placed k id hk
    obtain rfl : c' = c := Option.some.inj (hc'.symm.trans hc)
    refine ⟨id, List.mem_of_getElem? hk, ?_⟩
    rw [labelsAt_placed hc hposition]
    exact List.mem_map_of_mem (List.mem_range.mpr hpad)

/-- A graph gives no label twice. -/
theorem Sound.nodup_labelsOf (hs : Sound o) {g : Graph} (hg : g ∈ o.graphs) :
    (o.labelsOf g).Nodup := by
  have hat : ∀ (k : Nat) (hk : k < g.chains.length), ∃ c : Chain,
      o.labelsAt g.chains[k] = c.labeledPads.map (padName c k) := by
    intro k hk
    obtain ⟨c, hc, hposition⟩ := (hs.graphs g hg).placed k _ (List.getElem?_eq_getElem hk)
    exact ⟨c, labelsAt_placed hc hposition⟩
  rw [labelsOf, List.nodup_flatten]
  constructor
  · intro labels hlabels
    obtain ⟨id, hid, rfl⟩ := List.mem_map.mp hlabels
    obtain ⟨k, hk, rfl⟩ := List.mem_iff_getElem.mp hid
    obtain ⟨c, hlabels⟩ := hat k hk
    rw [hlabels]
    exact List.nodup_range.map fun pad pad' h => (padName_injective h).2.2
  · rw [List.pairwise_map, List.pairwise_iff_getElem]
    intro k k' hk hk' hlt label hlabel hlabel'
    obtain ⟨c, hlabels⟩ := hat k hk
    obtain ⟨c', hlabels'⟩ := hat k' hk'
    rw [hlabels] at hlabel
    rw [hlabels'] at hlabel'
    obtain ⟨pad, -, rfl⟩ := List.mem_map.mp hlabel
    obtain ⟨pad', -, hsame⟩ := List.mem_map.mp hlabel'
    exact absurd (padName_injective hsame).1.symm (Nat.ne_of_lt hlt)

/-! ### Two graphs with a label in common -/

/-- At some place both graphs have a chain that something refers to, and the last filters of the two
chains have the same name. -/
def Clashing (o : Objects) (g h : Graph) : Prop :=
  ∃ (k : Nat) (id id' : ChainId) (c c' : Chain), g.chains[k]? = some id ∧ h.chains[k]? = some id' ∧
    o.chain? id = some c ∧ o.chain? id' = some c' ∧ c.last.name = c'.last.name ∧
    c.references ≠ [] ∧ c'.references ≠ []

/-- Two different graphs of a command that it applies to no output clash. -/
def Clash (o : Objects) (c : Command) : Prop :=
  ∃ g h gr hr, g ≠ h ∧ o.graph? g = some gr ∧ o.graph? h = some hr ∧
    (g ∈ c.graphs ∧ ∀ output, (g, output) ∉ c.attached) ∧
    (h ∈ c.graphs ∧ ∀ output, (h, output) ∉ c.attached) ∧ o.Clashing gr hr

/-- A chain gives labels exactly if something refers to it. -/
theorem labeledCount_pos_iff {c : Chain} : 0 < c.labeledCount ↔ c.references ≠ [] := by
  constructor
  · rintro hpos hnil
    simp [Chain.labeledCount, hnil] at hpos
  · intro hne
    obtain ⟨pad, hpad⟩ := List.exists_mem_of_ne_nil _ hne
    exact Nat.zero_lt_of_lt (lt_labeledCount hpad)

/-- Two graphs give a label in common exactly if they clash. -/
theorem Sound.clashing_iff (hs : Sound o) {g h : Graph} (hg : g ∈ o.graphs) (hh : h ∈ o.graphs) :
    o.Clashing g h ↔ ¬(o.labelsOf g).Disjoint (o.labelsOf h) := by
  rw [List.disjoint_left]
  push Not
  constructor
  · rintro ⟨k, id, id', c, c', hk, hk', hc, hc', hname, hne, hne'⟩
    refine ⟨padName c k 0, ?_, ?_⟩
    · exact (hs.mem_labelsOf hg).mpr ⟨k, id, c, 0, hk, hc, labeledCount_pos_iff.mpr hne, rfl⟩
    · refine (hs.mem_labelsOf hh).mpr ⟨k, id', c', 0, hk', hc', labeledCount_pos_iff.mpr hne', ?_⟩
      rw [padName, hname]
      rfl
  · rintro ⟨label, hlabel, hlabel'⟩
    obtain ⟨k, id, c, pad, hk, hc, hpad, rfl⟩ := (hs.mem_labelsOf hg).mp hlabel
    obtain ⟨k', id', c', pad', hk', hc', hpad', hsame⟩ := (hs.mem_labelsOf hh).mp hlabel'
    obtain ⟨rfl, hname, -⟩ := padName_injective hsame
    exact ⟨k, id, id', c, c', hk, hk', hc, hc', hname,
      labeledCount_pos_iff.mp (Nat.zero_lt_of_lt hpad),
      labeledCount_pos_iff.mp (Nat.zero_lt_of_lt hpad')⟩

/-! ### No graph is listed twice -/

/-- No command lists a graph twice. -/
def GraphsOnce (o : Objects) : Prop := ∀ c ∈ o.commands, c.graphs.Nodup

theorem GraphsOnce.of_commands (h : GraphsOnce o) (hsame : o'.commands = o.commands) :
    GraphsOnce o' := fun c hc => h c (hsame ▸ hc)

theorem GraphsOnce.command (h : GraphsOnce o) {command : CommandId} {c : Command}
    (hc : o.command? command = some c) : c.graphs.Nodup := h c (List.mem_of_getElem? hc)

theorem GraphsOnce.setCommand (h : GraphsOnce o) (command : CommandId) {c : Command}
    (hc : c.graphs.Nodup) : GraphsOnce (o.setCommand command c) := by
  intro x hx
  rcases List.mem_or_eq_of_mem_set hx with hold | rfl
  · exact h x hold
  · exact hc

theorem graphs_of_bare {c c' : Command} (h : c'.bare = c.bare) : c'.graphs = c.graphs := by
  simp only [Command.bare, Command.mk.injEq] at h
  exact h.2.2.2.2.1

theorem Step.graphsOnce {e : List Effect} (step : Step o e o') (h : GraphsOnce o) :
    GraphsOnce o' := by
  cases step with
  | quiet q =>
      intro c' hc'
      rcases q.mem_commands hc' with ⟨c, hc, hbare⟩ | ⟨c, hfresh, hbare⟩
      · exact graphs_of_bare hbare ▸ h c hc
      · rw [graphs_of_bare hbare, hfresh.graphs]
        exact List.nodup_nil
  | take | append | prepend | place | join | gather => exact h.of_commands rfl
  | refer => exact h.of_commands (chainsOnly_referTo o _ _).commands
  | bind => exact h.of_commands (chainsOnly_bindInputs o _ _).commands
  | label hc =>
      have hnodup := h.command hc
      exact GraphsOnce.setCommand (h.of_commands rfl) _ hnodup
  | adopt targets hc hg new =>
      refine h.setCommand _ ((h.command hc).append (List.nodup_singleton _) ?_)
      simpa using new
  | enter hc =>
      have hnodup := h.command hc
      exact GraphsOnce.setCommand (h.of_commands rfl) _ hnodup
  | list hc =>
      have hnodup := h.command hc
      exact h.setCommand _ hnodup

/-- Different objects that are there have different copies. -/
theorem copiedIndex_injective {k : Kind} {ids : List (Id k)} {count : Nat} {id id' : Id k}
    (hid : id.index < count) (hid' : id'.index < count)
    (h : copiedIndex ids count id = copiedIndex ids count id') : id = id' := by
  unfold copiedIndex at h
  split at h
  · rename_i i hi
    split at h
    · rename_i i' hi'
      obtain ⟨hlt, hget, -⟩ := List.idxOf?_eq_some_iff.mp hi
      obtain ⟨hlt', hget', -⟩ := List.idxOf?_eq_some_iff.mp hi'
      have hindex : count + i = count + i' := congrArg Id.index h
      obtain rfl : i = i' := by omega
      exact hget.symm.trans hget'
    · have hindex : count + i = id'.index := congrArg Id.index h
      omega
  · split at h
    · rename_i i' _
      have hindex : id.index = count + i' := congrArg Id.index h
      omega
    · exact h

theorem GraphsOnce.withCopies (h : GraphsOnce o) (hs : Sound o) (m : Members) :
    GraphsOnce (o.withCopies m) := by
  intro x hx
  rcases List.mem_append.mp hx with hold | hnew
  · exact h x hold
  · obtain ⟨c, hc, rfl⟩ := List.mem_map.mp hnew
    obtain ⟨id, -, hid⟩ := List.mem_filterMap.mp hc
    have hmember := List.mem_of_getElem? hid
    have hthere : ∀ g ∈ c.graphs, g.index < o.graphs.length := by
      intro g hg
      obtain ⟨gr, hgr⟩ := Option.isSome_iff_exists.mp ((hs.commands c hmember).graphs g hg)
      exact (List.getElem?_eq_some_iff.mp hgr).1
    exact (h c hmember).map_on fun g hg g' hg' hsame =>
      copiedIndex_injective (hthere g hg) (hthere g' hg') hsame

/-- No command lists a graph twice, whatever was called. -/
theorem graphsOnce_afterCalls (calls : List Call) : GraphsOnce (afterCalls {} calls) := by
  have hempty : Sound {} ∧ GraphsOnce {} := ⟨sound_empty, fun c hc => by cases hc⟩
  refine (invariant_afterCalls (I := fun o => Sound o ∧ GraphsOnce o)
    (fun step _ h => ⟨step.sound h.1, step.graphsOnce h.2⟩) ?_ sound_empty hempty).2
  intro _ _ _ o m hm h
  exact ⟨h.1.withCopies hm, h.2.withCopies h.1 m⟩

/-! ### The labels of a command -/

/-- The labels of a graph, and none if it is not there. -/
def labelsOfId (o : Objects) (g : GraphId) : List String := ((o.graph? g).map o.labelsOf).getD []

theorem complexLabels_eq (o : Objects) (c : Command) :
    o.complexLabels c = c.graphs.flatMap o.labelsOfId := by
  unfold complexLabels complexChains
  induction c.graphs with
  | nil => rfl
  | cons g rest ih =>
      rw [List.flatMap_cons, ← ih]
      cases hg : o.graph? g with
      | none => simp [labelsOfId, hg]
      | some gr => simp [labelsOfId, labelsOf, hg, List.flatMap_def]

/-- The graphs of a command that go into the complex filter give no label twice exactly if no two of
them clash. -/
theorem Sound.nodup_complexLabels (hs : Sound o) {c : Command} (hc : c.SoundIn o)
    (once : c.graphs.Nodup) : (o.complexLabels c.unattached).Nodup ↔ ¬o.Clash c := by
  have hthere : ∀ g ∈ c.unattached.graphs, ∃ gr, o.graph? g = some gr ∧ gr ∈ o.graphs ∧
      o.labelsOfId g = o.labelsOf gr := by
    intro g hg
    obtain ⟨gr, hgr⟩ := Option.isSome_iff_exists.mp (hc.unattached.graphs g hg)
    exact ⟨gr, hgr, List.mem_of_getElem? hgr, by simp only [labelsOfId, hgr]; rfl⟩
  have hown : ∀ g ∈ c.unattached.graphs, (o.labelsOfId g).Nodup := by
    intro g hg
    obtain ⟨gr, -, hmember, heq⟩ := hthere g hg
    rw [heq]
    exact hs.nodup_labelsOf hmember
  have honce : c.unattached.graphs.Nodup := once.filter _
  rw [complexLabels_eq, List.nodup_flatMap]
  constructor
  · rintro ⟨-, hapart⟩ ⟨g, h, gr, hr, hne, hgr, hhr, hg, hh, hclash⟩
    have hg' := Command.mem_unattached.mpr hg
    have hh' := Command.mem_unattached.mpr hh
    refine (hs.clashing_iff (List.mem_of_getElem? hgr) (List.mem_of_getElem? hhr)).mp hclash ?_
    have : Std.Symm (Function.onFun List.Disjoint o.labelsOfId) :=
      ⟨fun _ _ hdisjoint _ hleft hright => hdisjoint hright hleft⟩
    have hdisjoint : (o.labelsOfId g).Disjoint (o.labelsOfId h) := hapart.forall hg' hh' hne
    simpa only [labelsOfId, hgr, hhr, Option.map_some, Option.getD_some] using hdisjoint
  · intro hnone
    refine ⟨hown, honce.pairwise_of_forall_ne fun g hg h hh hne => ?_⟩
    obtain ⟨gr, hgr, hmember, heq⟩ := hthere g hg
    obtain ⟨hr, hhr, hmember', heq'⟩ := hthere h hh
    show (o.labelsOfId g).Disjoint (o.labelsOfId h)
    by_contra hcommon
    rw [heq, heq'] at hcommon
    exact hnone ⟨g, h, gr, hr, hne, hgr, hhr, Command.mem_unattached.mp hg,
      Command.mem_unattached.mp hh, (hs.clashing_iff hmember hmember').mpr hcommon⟩

/-! ### Writing what has passed the checks -/

/-- The filters of a chain, and none if it is not there. -/
def filtersAt (o : Objects) (id : ChainId) : List Filter :=
  ((o.chain? id).map Chain.filters).getD []

theorem filtersAt_of_chain? {id : ChainId} {c : Chain} (hc : o.chain? id = some c) :
    o.filtersAt id = c.filters := by
  rw [filtersAt, hc]
  rfl

/-- The filters of the chains that go into the complex filter of a command, in the order in which they
are written. -/
def complexFilters (o : Objects) (c : Command) : List Filter :=
  (o.complexChains c.unattached).flatMap o.filtersAt

/-- Calls made for each item fail as those for all their parts, one after the other, if each call does
so. -/
theorem mapM_error_flatMap {ε α β γ δ : Type} {f : α → Except ε β} {parts : α → List γ}
    {p : γ → Except ε δ} {l : List α} {e : ε} :
    (∀ x ∈ l, ∀ e, f x = .error e ↔ (parts x).mapM p = .error e) →
      (l.mapM f = .error e ↔ (l.flatMap parts).mapM p = .error e) := by
  induction l with
  | nil => exact fun _ => iff_of_false nofun nofun
  | cons a rest ih =>
      intro h
      have hrest := ih fun x hx => h x (List.mem_cons_of_mem a hx)
      have ha := h a List.mem_cons_self
      rw [List.mapM_cons, List.flatMap_cons, List.mapM_append]
      cases hf : f a with
      | error e' =>
          rw [(ha e').mp hf]
          exact ⟨fun h => congrArg Except.error (Except.error.inj h),
            fun h => congrArg Except.error (Except.error.inj h)⟩
      | ok b =>
          cases hparts : (parts a).mapM p with
          | error e' =>
              have hfails := (ha e').mpr hparts
              rw [hf] at hfails
              cases hfails
          | ok ds =>
              cases hl : rest.mapM f <;> cases hr : (rest.flatMap parts).mapM p <;>
                simp_all [bind, Except.bind, pure, Except.pure]

/-- What is made of an answer fails as the call for the answer does. -/
theorem bind_pure_error {ε α β : Type} {x : Except ε α} {f : α → β} {e : ε} :
    (do return f (← x)) = .error e ↔ x = .error e := by
  cases x with
  | ok a => exact iff_of_false nofun nofun
  | error e' => exact ⟨fun h => congrArg Except.error (Except.error.inj h),
      fun h => congrArg Except.error (Except.error.inj h)⟩

/-- A chain with a place, fed by streams that have names, fails as its filters do. -/
theorem chainText_error {t : Texts} {id : ChainId} {c : Chain} {k : Nat}
    (hc : o.chain? id = some c) (hposition : c.position = some k)
    (hnamed : ∀ s ∈ c.inputs, ∃ text, o.specifierText s.source = .ok text) {e : Error} :
    (do o.chainText t id (← o.chain id)) = .error e ↔
      (o.filtersAt id).mapM (Filter.expression t) = .error e := by
  obtain ⟨inputs, hinputs⟩ := inputLabels_answer hnamed
  have htext : o.chainText t id c = do
      return (fun filters : List String => String.join inputs ++ ",".intercalate filters ++
        String.join ((c.labeledPads.map (padName c k)).map fun l => "[" ++ l ++ "]"))
          (← c.filters.mapM (Filter.expression t)) := by
    simp only [chainText, hinputs, filtersText, padLabels_placed id hposition]
    cases c.filters.mapM (Filter.expression t) <;> rfl
  rw [chain_ok.mpr hc, filtersAt_of_chain? hc]
  show o.chainText t id c = _ ↔ _
  rw [htext]
  exact bind_pure_error

/-- Graphs that have passed the checks fail as the filters of their chains do. -/
theorem Sound.complexTexts_error (hs : Sound o) {t : Texts} {c : Command} (hc : c.SoundIn o)
    (known : ∀ source, o.Bound c source → o.Known c source) {e : Error} :
    (o.complexParts c.unattached).mapM (o.graphText t) = .error e ↔
      (o.complexFilters c).mapM (Filter.expression t) = .error e := by
  have hflat : o.complexFilters c =
      (o.complexParts c.unattached).flatMap fun g => g.chains.flatMap o.filtersAt := by
    rw [complexFilters, ← flatMap_complexParts, List.flatMap_assoc]
  rw [hflat]
  refine mapM_error_flatMap fun g hg e => ?_
  have hgraph : o.graphText t g = .error e ↔
      (g.chains.mapM fun id => do o.chainText t id (← o.chain id)) = .error e := bind_pure_error
  rw [hgraph]
  refine mapM_error_flatMap fun id hid e => ?_
  have hin : id ∈ o.complexChains c := by
    refine mem_of_unattached ?_
    rw [← flatMap_complexParts]
    exact List.mem_flatMap.mpr ⟨g, hg, hid⟩
  obtain ⟨chain, k, hchain, hposition⟩ := hs.placed_of_complexChains hin
  refine chainText_error hchain hposition fun s hs' => ?_
  exact hs.specifierText_of_known hc (known s.source ⟨id, hin, chain, hchain, s, hs', rfl⟩)

/-- If a command knows what feeds its chains its labels are looked at next, and then its filters are
written. -/
theorem Sound.complexFilter_of_known (hs : Sound o) {t : Texts} {c : Command} (hc : c.SoundIn o)
    (known : ∀ source, o.Bound c source → o.Known c source) : o.complexFilter t c = do
      checkLabels [] (o.complexLabels c.unattached)
      return ";".intercalate (← (o.complexParts c.unattached).mapM (o.graphText t)) := by
  obtain ⟨labels, hlabels, hflatten⟩ := hs.complexLabels_ok c.unattached
  simp only [complexFilter, (hs.checkBindings_ok hc).mpr known, complexGraphs_eq hc, hlabels,
    ← hflatten, bind, Except.bind]

/-- The complex filter of a command that knows what feeds its chains fails for a label exactly if two
graphs clash or one of the filters fails for a label. -/
theorem Sound.duplicateLabel_iff (hs : Sound o) {t : Texts} {c : Command} (hc : c.SoundIn o)
    (once : c.graphs.Nodup) (known : ∀ source, o.Bound c source → o.Known c source) :
    (∃ l, o.complexFilter t c = .error (.duplicateLabel l)) ↔ o.Clash c ∨
      ∃ l, (o.complexFilters c).mapM (Filter.expression t) = .error (.duplicateLabel l) := by
  rw [hs.complexFilter_of_known hc known]
  cases hcheck : checkLabels [] (o.complexLabels c.unattached) with
  | error e =>
      obtain ⟨l, rfl⟩ := checkLabels_error hcheck
      refine iff_of_true ⟨l, rfl⟩ (Or.inl ?_)
      by_contra hnone
      have hapart := (hs.nodup_complexLabels hc once).mpr hnone
      rw [checkLabels_ok.mpr ⟨hapart, by simp⟩] at hcheck
      cases hcheck
  | ok u =>
      have hnone := (hs.nodup_complexLabels hc once).mp (checkLabels_ok.mp hcheck).1
      rw [or_iff_right hnone]
      refine exists_congr fun l => ?_
      rw [← hs.complexTexts_error hc known]
      exact bind_pure_error

end Objects

namespace Scene

open Objects

variable {s : Scene}

/-- **Labels are unique within a graph, and the check over several graphs is exact.**  Whatever was
called, a graph gives no label twice, whatever the names of its filters.  The complex filter of a command
that knows what feeds its chains fails for a label that comes twice exactly if two different graphs of
the command, which it applies to no output, have at one place chains that something refers to and whose
last filters have one name; or if one of the filters that are written fails so.  Filters without objects
but files among their options do not fail. -/
theorem duplicate_label_iff_clash {calls : List Call} (hobjects : s.objects = afterCalls {} calls) :
    (∀ g ∈ s.objects.graphs, ∃ labels, s.objects.graphLabels g = .ok labels ∧ labels.Nodup) ∧
    ∀ c ∈ s.objects.commands, (∀ source, s.objects.Bound c source → s.objects.Known c source) →
      ((∃ l, s.objects.complexFilter s.texts c = .error (.duplicateLabel l)) ↔
        s.objects.Clash c ∨ ∃ l, (s.objects.complexFilters c).mapM (Filter.expression s.texts)
          = .error (.duplicateLabel l)) ∧
      (s.objects.OptionsHoldFiles →
        ((∃ l, s.objects.complexFilter s.texts c = .error (.duplicateLabel l)) ↔
          s.objects.Clash c)) := by
  have hs : s.objects.Sound := hobjects ▸ (sound_empty.afterCalls calls).1
  have honce : s.objects.GraphsOnce := hobjects ▸ graphsOnce_afterCalls calls
  refine ⟨fun g hg => ⟨_, graphLabels_placed (hs.placed hg), hs.nodup_labelsOf hg⟩,
    fun c hc known => ?_⟩
  have hiff := hs.duplicateLabel_iff (t := s.texts) (hs.commands c hc) (honce c hc) known
  refine ⟨hiff, fun hfiles => hiff.trans (or_iff_left ?_)⟩
  -- The filters are those of chains, and these have texts.
  have hanswers : ∀ f ∈ s.objects.complexFilters c, ∃ text, f.expression s.texts = .ok text := by
    intro f hf
    obtain ⟨id, hid, hin⟩ := List.mem_flatMap.mp hf
    obtain ⟨chain, k, hchain, -⟩ := hs.placed_of_complexChains hid
    rw [filtersAt_of_chain? hchain] at hin
    obtain ⟨text, htext⟩ := filtersText_answers hfiles (mem_chains hchain)
    obtain ⟨texts, htexts, -⟩ := bind_ok.mp htext
    obtain ⟨text, -, hwritten⟩ := mem_of_mapM htexts hin
    exact ⟨text, hwritten⟩
  obtain ⟨texts, htexts⟩ := mapM_answers hanswers
  rintro ⟨l, hfails⟩
  rw [htexts] at hfails
  cases hfails

/-- A session in which a command has two graphs, each of one chain that something refers to. -/
def clashSession : List Call :=
  [.act (.newCommand .null none),
    .act (.newFilter (.text "null") .null (.int 1) (.int 1)),
    .act (.newChain (.object (.filter ⟨0⟩))), .act (.outputPad ⟨0⟩ .null),
    .act (.newGraph (.list [.object (.chain ⟨0⟩)])),
    .act (.addGraph ⟨0⟩ (.object (.graph ⟨0⟩)) .null),
    .act (.newFilter (.text "null") .null (.int 1) (.int 1)),
    .act (.newChain (.object (.filter ⟨1⟩))), .act (.outputPad ⟨1⟩ .null),
    .act (.newGraph (.list [.object (.chain ⟨1⟩)])),
    .act (.addGraph ⟨0⟩ (.object (.graph ⟨1⟩)) .null)]

/-- The same session with a second command, whose only graph has the first command among the options of
its filter. -/
def quotingSession : List Call :=
  clashSession ++ [.act (.newCommand .null none),
    .act (.newFilter (.text "null") (.dict [(.text "k", .object (.command ⟨0⟩))]) (.int 1) (.int 1)),
    .act (.newGraph (.object (.filter ⟨2⟩))),
    .act (.addGraph ⟨1⟩ (.object (.graph ⟨2⟩)) .null)]

/-- In the session with two graphs the command cannot be written for a label that comes twice. -/
theorem two_graphs_clash :
    ∃ s : Scene, s.objects = afterCalls {} clashSession ∧ ∃ c ∈ s.objects.commands,
      (∀ source, s.objects.Bound c source → s.objects.Known c source) ∧ s.objects.Clash c ∧
        ∃ l, s.objects.complexFilter s.texts c = .error (.duplicateLabel l) := by
  let s : Scene := ⟨afterCalls {} clashSession, false, none⟩
  obtain ⟨c, hc⟩ : ∃ c, s.objects.command? ⟨0⟩ = some c := ⟨_, rfl⟩
  have hmember := List.mem_of_getElem? hc
  have hclash : s.objects.Clash c := by
    cases hc
    exact ⟨⟨0⟩, ⟨1⟩, _, _, by decide, rfl, rfl, ⟨by decide, by simp⟩, ⟨by decide, by simp⟩,
      0, ⟨0⟩, ⟨1⟩, _, _, rfl, rfl, rfl, rfl, rfl, by decide, by decide⟩
  have known : ∀ source, s.objects.Bound c source → s.objects.Known c source :=
    known_of_unfed (by decide)
  have hiff := (duplicate_label_iff_clash (rfl : s.objects = _)).2 c hmember known
  exact ⟨s, rfl, c, hmember, known, hclash, hiff.1.mpr (Or.inl hclash)⟩

/-- The second command cannot be written for a label that comes twice either, although it has one graph
only. -/
theorem duplicate_label_without_clash :
    ∃ s : Scene, s.objects = afterCalls {} quotingSession ∧ ∃ c ∈ s.objects.commands,
      (∀ source, s.objects.Bound c source → s.objects.Known c source) ∧ ¬s.objects.Clash c ∧
        s.objects.complexFilter s.texts c = .error (.duplicateLabel "chain0_null_0") := by
  let s : Scene := ⟨afterCalls {} quotingSession, false, none⟩
  obtain ⟨c, hc⟩ : ∃ c, s.objects.command? ⟨1⟩ = some c := ⟨_, rfl⟩
  refine ⟨s, rfl, c, List.mem_of_getElem? hc, known_of_unfed (by decide), ?_, ?_⟩
  · rintro ⟨g, h, -, -, hne, -, -, ⟨hg, -⟩, ⟨hh, -⟩, -⟩
    have hgraphs : c.graphs = [⟨2⟩] := by
      cases hc
      rfl
    rw [hgraphs, List.mem_singleton] at hg hh
    exact hne (hg.trans hh.symm)
  · cases hc
    rfl

end Scene

end MediaCommand
