/-
Graphs that could not be made.

A graph takes the items of a list one after the other, and each chain is given its place as soon as it is
taken.  Nothing takes that back when a later item is refused: the chains before it stay where they were
put, in no graph if a new one was to be made of them, and in the graph that was to be extended.

What taking one item changes (`TakesOne`) leaves all other chains alone, and no chain is taken twice, so
what a list of items changes is said item by item (`Takes`).  A failed call has taken the items before
the one that it was refused (`StopsAt`), and from that follows when it has changed nothing.
-/
import MediaCommand.Proofs.Calls

namespace MediaCommand.Objects

variable {o o₁ o' : Objects}

/-! ### Taking one item -/

/-- How an item was taken: a chain has its place, and a filter has become a new chain there. -/
inductive TakenAs (o o' : Objects) (place : Nat) : Value → ChainId → Prop
  | chain {id : ChainId} {c : Chain} (there : o.chain? id = some c) (free : c.position = none)
      (placed : o'.chain? id = some { c with position := some place }) :
      TakenAs o o' place (.object (.chain id)) id
  | filter {x : FilterId} {f : Filter} {id : ChainId} (there : o.filter? x = some f)
      (new : o.chain? id = none)
      (placed : o'.chain? id = some
        { filters := [f], nonempty := List.cons_ne_nil f [], position := some place }) :
      TakenAs o o' place (.object (.filter x)) id

/-- Only chains and graphs are different afterwards. -/
def SameButGraphs (o o' : Objects) : Prop := { o' with chains := o.chains, graphs := o.graphs } = o

theorem SameButGraphs.filters (h : SameButGraphs o o') : o'.filters = o.filters := by
  unfold SameButGraphs at h
  have hfilters := congrArg Objects.filters h
  exact hfilters

theorem SameButGraphs.trans (h : SameButGraphs o o₁) (h' : SameButGraphs o₁ o') :
    SameButGraphs o o' := by
  unfold SameButGraphs at h h' ⊢
  exact (congrArg (fun x : Objects => { x with chains := o.chains, graphs := o.graphs }) h').trans h

/-- What taking one item does to chains. -/
structure TakesOne (o : Objects) (place : Nat) (v : Value) (id : ChainId) (o' : Objects) : Prop where
  item : TakenAs o o' place v id
  others : ∀ x, x ≠ id → o'.chain? x = o.chain? x
  same : SameButGraphs o o'

/-- What was taken has its place. -/
theorem TakenAs.exists_placed {place : Nat} {v : Value} {id : ChainId}
    (h : TakenAs o o' place v id) : ∃ c, o'.chain? id = some c ∧ c.position = some place := by
  cases h with
  | chain _ _ placed => exact ⟨_, placed, rfl⟩
  | filter _ _ placed => exact ⟨_, placed, rfl⟩

/-- What has a place is not taken. -/
theorem TakenAs.not_placed {place k : Nat} {v : Value} {id : ChainId} {c : Chain}
    (h : TakenAs o o' place v id) (hc : o.chain? id = some c) : c.position ≠ some k := by
  intro hposition
  cases h with
  | chain there free =>
      obtain rfl := Option.some.inj (there.symm.trans hc)
      rw [free] at hposition
      cases hposition
  | filter _ new =>
      rw [new] at hc
      cases hc

/-- An item is taken alike if the chain that it becomes was, and is, alike. -/
theorem TakenAs.of_same {place : Nat} {v : Value} {id : ChainId} {o₀ o₂ : Objects}
    (h : TakenAs o o' place v id) (hfilters : o.filters = o₀.filters)
    (hbefore : o.chain? id = o₀.chain? id) (hafter : o₂.chain? id = o'.chain? id) :
    TakenAs o₀ o₂ place v id := by
  cases h with
  | chain there free placed =>
      exact .chain (hbefore.symm.trans there) free (hafter.trans placed)
  | filter there new placed =>
      rw [filter?, hfilters] at there
      exact .filter there (hbefore.symm.trans new) (hafter.trans placed)

theorem chain?_addChain_ne {c : Chain} {x : ChainId} (h : x ≠ (o.addChain c).2) :
    (o.addChain c).1.chain? x = o.chain? x := by
  have hne : x.index ≠ o.chains.length := Id.index_ne h
  show (o.chains ++ [c])[x.index]? = o.chains[x.index]?
  rcases Nat.lt_or_ge x.index o.chains.length with hlt | hge
  · exact List.getElem?_append_left hlt
  · rw [List.getElem?_eq_none hge, List.getElem?_eq_none]
    rw [List.length_append, List.length_singleton]
    omega

theorem chain?_addChain_self (o : Objects) (c : Chain) :
    (o.addChain c).1.chain? (o.addChain c).2 = some c :=
  List.getElem?_concat_length

/-- An item that is taken is a chain without a place or a filter, and only its chain changes. -/
theorem takeChain_takes {taken : List ChainId} {v : Value} {id : ChainId}
    (h : o.takeChain taken v = .ok (o', id)) :
    TakesOne o taken.length v id o' ∧ o'.graphs = o.graphs := by
  obtain ⟨⟨o₁, id'⟩, hwrap, h⟩ := bind_ok.mp h
  obtain ⟨o₂, hplace, h⟩ := bind_ok.mp h
  cases h
  obtain ⟨c, hc, hfree, rfl⟩ := place_ok hplace
  have hself := chain?_setChain_self { c with position := some taken.length } hc
  unfold wrap at hwrap
  split at hwrap
  · rename_i x
    obtain ⟨f, hf, hwrap⟩ := bind_ok.mp hwrap
    cases hwrap
    obtain rfl := Option.some.inj ((chain?_addChain_self o _).symm.trans hc)
    have hnew : o.chain? ⟨o.chains.length⟩ = none := List.getElem?_eq_none (Nat.le_refl _)
    refine ⟨⟨.filter (mem_found hf) hnew hself, fun x hx => ?_, rfl⟩, rfl⟩
    exact (chain?_setChain_ne _ hx).trans (chain?_addChain_ne hx)
  · cases hwrap
    exact ⟨⟨.chain hc hfree hself, fun x hx => chain?_setChain_ne _ hx, rfl⟩, rfl⟩
  · cases hwrap

/-! ### Taking several -/

/-- What taking items one after the other does to chains, from a place on. -/
structure Takes (o : Objects) (first : Nat) (items : List Value) (ids : List ChainId)
    (o' : Objects) : Prop where
  length : ids.length = items.length
  each : ∀ (k : Nat) (v : Value) (id : ChainId), items[k]? = some v → ids[k]? = some id →
    TakenAs o o' (first + k) v id
  others : ∀ x, x ∉ ids → o'.chain? x = o.chain? x
  same : SameButGraphs o o'

namespace Takes

variable {first : Nat} {items : List Value} {ids : List ChainId}

theorem nil (o : Objects) (first : Nat) : Takes o first [] [] o where
  length := rfl
  each := fun k v id hv => by simp at hv
  others := fun _ _ => rfl
  same := rfl

/-- What was taken is one of the items. -/
theorem exists_item (h : Takes o first items ids o') {id : ChainId} (hid : id ∈ ids) :
    ∃ k v, items[k]? = some v ∧ TakenAs o o' (first + k) v id := by
  obtain ⟨k, hk⟩ := List.mem_iff_getElem?.mp hid
  obtain ⟨hlt, -⟩ := List.getElem?_eq_some_iff.mp hk
  have hv := List.getElem?_eq_getElem (h.length ▸ hlt)
  exact ⟨k, _, hv, h.each k _ id hv hk⟩

theorem cons {v : Value} {id : ChainId} (h : TakesOne o first v id o₁)
    (more : Takes o₁ (first + 1) items ids o') : Takes o first (v :: items) (id :: ids) o' := by
  -- A chain that has its place is not taken again.
  have hout : id ∉ ids := by
    intro hin
    obtain ⟨k, w, -, htaken⟩ := more.exists_item hin
    obtain ⟨c, hc, hposition⟩ := h.item.exists_placed
    exact htaken.not_placed hc hposition
  refine ⟨congrArg Nat.succ more.length, fun k w x hw hx => ?_, fun x hx => ?_,
    h.same.trans more.same⟩
  · cases k with
    | zero =>
        cases hw
        cases hx
        exact h.item.of_same rfl rfl (more.others id hout)
    | succ k =>
        have htaken := more.each k w x hw hx
        have hne : x ≠ id := fun heq => hout (heq ▸ List.mem_of_getElem? hx)
        rw [show first + (k + 1) = first + 1 + k by omega]
        exact htaken.of_same h.same.filters (h.others x hne) rfl
  · have hne : x ≠ id := fun heq => hx (heq ▸ List.mem_cons_self)
    exact (more.others x fun hin => hx (List.mem_cons_of_mem id hin)).trans (h.others x hne)

/-- The chains have the positions that they had exactly if no chain was taken. -/
theorem positions_iff (h : Takes o first items ids o') :
    (∀ id c, o.chain? id = some c → ∃ c', o'.chain? id = some c' ∧ c'.position = c.position) ↔
      ∀ id, .object (.chain id) ∉ items := by
  constructor
  · intro hsame id hin
    obtain ⟨k, hk⟩ := List.mem_iff_getElem?.mp hin
    obtain ⟨hlt, -⟩ := List.getElem?_eq_some_iff.mp hk
    obtain ⟨x, hx⟩ : ∃ x, ids[k]? = some x :=
      ⟨_, List.getElem?_eq_getElem (h.length.symm ▸ hlt)⟩
    cases h.each k _ x hk hx with
    | chain there free placed =>
        obtain ⟨c', hc', hposition⟩ := hsame id _ there
        rw [placed] at hc'
        cases hc'
        rw [free] at hposition
        cases hposition
  · intro hnone id c hc
    by_cases hin : id ∈ ids
    · obtain ⟨k, v, hv, htaken⟩ := h.exists_item hin
      cases htaken with
      | chain => exact absurd (List.mem_of_getElem? hv) (hnone id)
      | filter _ new =>
          rw [new] at hc
          cases hc
    · exact ⟨c, (h.others id hin).trans hc, rfl⟩

end Takes

/-! ### Being refused an item -/

/-- A call that takes items behind the chains that a graph has was refused one, with those before it
taken. -/
structure StopsAt (o : Objects) (taken : List ChainId) (items before : List Value)
    (ids : List ChainId) (f : Failure) (o' : Objects) : Prop where
  refused : ∃ v rest, items = before ++ v :: rest ∧ o'.takeChain (taken ++ ids) v = .error f.cause
  takes : Takes o taken.length before ids o'

theorem StopsAt.cons {taken ids : List ChainId} {items before : List Value} {v : Value}
    {id : ChainId} {f : Failure} (h : TakesOne o taken.length v id o₁)
    (more : StopsAt o₁ (taken ++ [id]) items before ids f o') :
    StopsAt o taken (v :: items) (v :: before) (id :: ids) f o' := by
  obtain ⟨⟨w, rest, rfl, hrefused⟩, htakes⟩ := more
  rw [List.append_assoc] at hrefused
  rw [List.length_append, List.length_singleton] at htakes
  exact ⟨⟨w, rest, rfl, hrefused⟩, .cons h htakes⟩

theorem takeChains_stops (items : List Value) :
    ∀ {o : Objects} {taken : List ChainId} {f : Failure},
      (o.takeChains taken items).result = .error f →
      (o.takeChains taken items).objects.graphs = o.graphs ∧ ∃ before ids,
        StopsAt o taken items before ids f (o.takeChains taken items).objects := by
  induction items with
  | nil => exact fun h => nomatch h
  | cons v rest ih =>
      intro o taken f h
      unfold takeChains at h ⊢
      split at h
      · rename_i o₁ id htake
        obtain ⟨htakes, hgraphs⟩ := takeChain_takes htake
        obtain ⟨hmore, before, ids, hstops⟩ := ih h
        exact ⟨hmore.trans hgraphs, v :: before, id :: ids, hstops.cons htakes⟩
      · rename_i e htake
        cases h
        refine ⟨rfl, [], [], ⟨v, rest, rfl, ?_⟩, .nil o _⟩
        rw [List.append_nil]
        exact htake

/-- A graph that took items has their chains behind those that it had, and the other graphs are as
they were. -/
structure Extends (o : Objects) (graph : GraphId) (g : Graph) (ids : List ChainId)
    (o' : Objects) : Prop where
  extended : o'.graph? graph = some { chains := g.chains ++ ids }
  others : ∀ x, x ≠ graph → o'.graph? x = o.graph? x

/-- A graph is appended to by taking the item behind its chains. -/
theorem appendToGraph_eq {graph : GraphId} {g : Graph} (hg : o.graph? graph = some g) (v : Value) :
    o.appendToGraph graph v = (o.takeChain g.chains v).map fun taken =>
      (taken.1.setGraph graph { chains := g.chains ++ [taken.2] }, taken.2) := by
  rw [appendToGraph, graph_ok.mpr hg]
  show (o.takeChain g.chains v >>= _) = _
  cases o.takeChain g.chains v <;> rfl

theorem extendGraph_stops {graph : GraphId} (items : List Value) :
    ∀ {o : Objects} {g : Graph} {f : Failure}, o.graph? graph = some g →
      (o.extendGraph graph items).result = .error f → ∃ before ids,
        StopsAt o g.chains items before ids f (o.extendGraph graph items).objects ∧
          Extends o graph g ids (o.extendGraph graph items).objects := by
  induction items with
  | nil => exact fun _ h => nomatch h
  | cons v rest ih =>
      intro o g f hg h
      unfold extendGraph at h ⊢
      rw [appendToGraph_eq hg] at h ⊢
      cases htake : o.takeChain g.chains v with
      | ok taken =>
          obtain ⟨o₁, id⟩ := taken
          rw [htake] at h
          obtain ⟨htakes, hgraphs⟩ := takeChain_takes htake
          have hthere : o₁.graph? graph = some g := by
            rw [graph?, hgraphs]
            exact hg
          have hset : (o₁.setGraph graph { chains := g.chains ++ [id] }).graph? graph
              = some { chains := g.chains ++ [id] } := getElem?_set_eq_of_some _ hthere
          obtain ⟨before, ids, hstops, hextends⟩ := ih hset h
          -- Setting a graph leaves what taking the item did to the chains.
          have hone : TakesOne o g.chains.length v id
              (o₁.setGraph graph { chains := g.chains ++ [id] }) :=
            ⟨htakes.item.of_same rfl rfl rfl, htakes.others, htakes.same⟩
          refine ⟨v :: before, id :: ids, hstops.cons hone, ?_, fun x hx => ?_⟩
          · refine hextends.extended.trans ?_
            rw [List.append_assoc]
            rfl
          · have hother : (o₁.setGraph graph { chains := g.chains ++ [id] }).graph? x
                = o₁.graph? x := List.getElem?_set_ne (Id.index_ne hx).symm
            refine (hextends.others x hx).trans (hother.trans ?_)
            rw [graph?, hgraphs]
            rfl
      | error e =>
          rw [htake] at h
          cases h
          refine ⟨[], [], ⟨⟨v, rest, rfl, ?_⟩, .nil o _⟩, ?_, fun _ _ => rfl⟩
          · rw [List.append_nil]
            exact htake
          · rw [List.append_nil]
            exact hg

/-- The graph and all chains are as they were exactly if the first item was refused. -/
theorem StopsAt.unchanged_iff {graph : GraphId} {g : Graph} {items before : List Value}
    {ids : List ChainId} {f : Failure} (h : StopsAt o g.chains items before ids f o')
    (hextends : Extends o graph g ids o') :
    (o'.graph? graph = some g ∧ ∀ id, o'.chain? id = o.chain? id) ↔ before = [] := by
  constructor
  · rintro ⟨hgraph, -⟩
    rw [hextends.extended] at hgraph
    have hchains : g.chains ++ ids = g.chains := congrArg Graph.chains (Option.some.inj hgraph)
    rw [← List.length_eq_zero_iff, ← h.takes.length, List.append_right_eq_self.mp hchains]
    rfl
  · rintro rfl
    obtain rfl : ids = [] := List.length_eq_zero_iff.mp h.takes.length
    refine ⟨?_, fun id => h.takes.others id List.not_mem_nil⟩
    rw [hextends.extended, List.append_nil]

theorem result_of_map {α β : Type} {r : Outcome α} {g : α → β} {f : Failure}
    (h : (r.map g).result = .error f) : r.result = .error f := by
  cases hresult : r.result with
  | error f' =>
      simp only [Outcome.map, hresult, Except.map] at h
      cases h
      rfl
  | ok a =>
      simp only [Outcome.map, hresult, Except.map] at h
      cases h

/-- **A graph that could not be made or extended keeps what it took.**  If making a graph fails, either
there was nothing to loop over and nothing has changed, or an item was refused: then each chain before it
had no place and has its index in the list as its place now, and all other chains are as they were.  So
the chains have the positions that they had exactly if no chain stands before the item refused.  If
extending a graph fails, the items before the one refused are in the graph besides, so the graph and all
chains are as they were exactly if it was the first. -/
theorem failed_graph_keeps_taken (o : Objects) :
    (∀ chains f, (o.perform (.newGraph chains)).result = .error f →
      ((o.perform (.newGraph chains)).objects = o ∧ ∃ e, o.chainsGiven chains = .error e) ∨
      ∃ items before ids, o.chainsGiven chains = .ok items ∧
        StopsAt o [] items before ids f (o.perform (.newGraph chains)).objects ∧
        (o.perform (.newGraph chains)).objects.graphs = o.graphs ∧
        ((∀ id c, o.chain? id = some c → ∃ c',
            (o.perform (.newGraph chains)).objects.chain? id = some c' ∧
              c'.position = c.position) ↔
          ∀ id, .object (.chain id) ∉ before)) ∧
    ∀ graph g chains f, o.graph? graph = some g →
      (o.perform (.extendGraph graph chains)).result = .error f →
      ((o.perform (.extendGraph graph chains)).objects = o ∧ ∃ e, o.elements chains = .error e) ∨
      ∃ items before ids, o.elements chains = .ok items ∧
        StopsAt o g.chains items before ids f (o.perform (.extendGraph graph chains)).objects ∧
        Extends o graph g ids (o.perform (.extendGraph graph chains)).objects ∧
        (((o.perform (.extendGraph graph chains)).objects.graph? graph = some g ∧
            ∀ id, (o.perform (.extendGraph graph chains)).objects.chain? id = o.chain? id) ↔
          before = []) := by
  refine ⟨fun chains f h => ?_, fun graph g chains f hg h => ?_⟩
  · show (o.newGraph chains).objects = o ∧ _ ∨ _
    have hmade : (o.newGraph chains).result = .error f := result_of_map h
    simp only [perform, Outcome.map]
    unfold newGraph at hmade ⊢
    cases hgiven : o.chainsGiven chains with
    | error e => exact Or.inl ⟨rfl, e, rfl⟩
    | ok items =>
        simp only [hgiven] at hmade
        cases hresult : (o.takeChains [] items).result with
        | ok taken =>
            simp only [hresult] at hmade
            cases hmade
        | error f' =>
            simp only [hresult] at hmade
            cases hmade
            obtain ⟨hgraphs, before, ids, hstops⟩ := takeChains_stops items hresult
            simp only [hresult]
            exact Or.inr ⟨items, before, ids, rfl, hstops, hgraphs, hstops.takes.positions_iff⟩
  · simp only [perform] at h ⊢
    cases helements : o.elements chains with
    | error e => exact Or.inl ⟨rfl, e, rfl⟩
    | ok items =>
        simp only [helements] at h ⊢
        obtain ⟨before, ids, hstops, hextends⟩ := extendGraph_stops items hg (result_of_map h)
        exact Or.inr ⟨items, before, ids, rfl, hstops, hextends, hstops.unchanged_iff hextends⟩

/-- A session with a chain and an empty graph. -/
def looseSession : List Call :=
  [.act (.newFilter (.text "hflip") .null (.int 1) (.int 1)),
    .act (.newChain (.object (.filter ⟨0⟩))), .act (.newGraph .null)]

/-- The chain in this session, with a number behind it. -/
def chainAndNumber : Value := .list [.object (.chain ⟨0⟩), .int 5]

/-- Making a graph of the two fails and takes the chain, which stands in no graph then but cannot be put
into one.  Extending the empty graph by the two fails and changes it. -/
theorem chain_taken_by_failed_graph :
    ∃ o : Objects, o = afterCalls {} looseSession ∧
      (∃ f before ids, (o.perform (.newGraph chainAndNumber)).result = .error f ∧
        StopsAt o [] [.object (.chain ⟨0⟩), .int 5] before ids f
          (o.perform (.newGraph chainAndNumber)).objects ∧
        (∃ id, .object (.chain id) ∈ before) ∧
        (o.perform (.newGraph chainAndNumber)).objects.graphs = o.graphs ∧
        ∃ f', ((o.perform (.newGraph chainAndNumber)).objects.perform
          (.newGraph (.object (.chain ⟨0⟩)))).result = .error f') ∧
      ∃ f before ids, (o.perform (.extendGraph ⟨0⟩ chainAndNumber)).result = .error f ∧
        StopsAt o [] [.object (.chain ⟨0⟩), .int 5] before ids f
          (o.perform (.extendGraph ⟨0⟩ chainAndNumber)).objects ∧ before ≠ [] := by
  refine ⟨_, rfl, ?_, ?_⟩
  · have h := (failed_graph_keeps_taken (afterCalls {} looseSession)).1 chainAndNumber _ rfl
    rcases h with ⟨-, e, he⟩ | ⟨items, before, ids, hitems, hstops, hgraphs, hiff⟩
    · cases he
    · cases hitems
      refine ⟨_, before, ids, rfl, hstops, ?_, hgraphs, _, rfl⟩
      by_contra hnone
      obtain ⟨c', hc', hposition⟩ := hiff.mpr (not_exists.mp hnone) ⟨0⟩ _ rfl
      cases hc'
      cases hposition
  · have h := (failed_graph_keeps_taken (afterCalls {} looseSession)).2 ⟨0⟩ _ chainAndNumber _ rfl rfl
    rcases h with ⟨-, e, he⟩ | ⟨items, before, ids, hitems, hstops, -, hiff⟩
    · cases he
    · cases hitems
      refine ⟨_, before, ids, rfl, hstops, fun hnil => ?_⟩
      have hsame := (hiff.mpr hnil).1
      cases hsame

end MediaCommand.Objects
