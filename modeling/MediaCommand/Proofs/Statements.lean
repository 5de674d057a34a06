/-
Expressions taken apart.

The expression of a graph is made of statements, one for each chain, and a statement has labels in
front, filters, and labels behind.  A label behind says where a stream comes from.  That it comes from
one place only is a fact about the statements, because the text alone does not tell a label from what
looks like one in a filter.
-/
import Mathlib.Data.List.Nodup
import MediaCommand.Proofs.Labels
import MediaCommand.Proofs.Wording

namespace MediaCommand

/-- A chain as it stands in an expression: the labels of its inputs, its filters, and the labels of its
outputs. -/
structure Statement where
  inputs : List String
  filters : String
  outputs : List String
  deriving Inhabited

/-- The text of a statement. -/
def Statement.text (s : Statement) : String :=
  String.join s.inputs ++ s.filters ++ String.join s.outputs

/-- Among statements, a label is given by one of them only, and there at one place only. -/
def GivenOnce (statements : List Statement) (label : String) (k place : Nat) : Prop :=
  ∀ k' place' : Nat, (∃ s, statements[k']? = some s ∧ s.outputs[place']? = some label) ↔
    k' = k ∧ place' = place

/-! ### One place for each label -/

/-- In lists without a repetition an item has one place. -/
theorem place_unique {α : Type} {ls : List (List α)} (h : ls.flatten.Nodup) {l l' : List α}
    {k k' i i' : Nat} {x : α} (hk : ls[k]? = some l) (hk' : ls[k']? = some l')
    (hi : l[i]? = some x) (hi' : l'[i']? = some x) : k' = k ∧ i' = i := by
  obtain ⟨heach, hapart⟩ := List.nodup_flatten.mp h
  obtain ⟨hlt, rfl⟩ := List.getElem?_eq_some_iff.mp hk
  obtain ⟨hlt', rfl⟩ := List.getElem?_eq_some_iff.mp hk'
  have hsame : k' = k := by
    rcases Nat.lt_trichotomy k' k with hless | heq | hmore
    · exact absurd (List.mem_of_getElem? hi)
        (List.disjoint_left.mp (List.pairwise_iff_getElem.mp hapart k' k hlt' hlt hless)
          (List.mem_of_getElem? hi'))
    · exact heq
    · exact absurd (List.mem_of_getElem? hi')
        (List.disjoint_left.mp (List.pairwise_iff_getElem.mp hapart k k' hlt hlt' hmore)
          (List.mem_of_getElem? hi))
  subst hsame
  obtain ⟨hbound, -⟩ := List.getElem?_eq_some_iff.mp hi'
  exact ⟨rfl, List.getElem?_inj hbound (heach _ (List.getElem_mem hlt)) |>.mp (hi'.trans hi.symm)⟩

/-- A label that is given at a place is given there only, if no label is given twice. -/
theorem givenOnce_of_nodup {statements : List Statement} {s : Statement} {label : String}
    {k place : Nat} (h : (statements.map Statement.outputs).flatten.Nodup)
    (hk : statements[k]? = some s) (hplace : s.outputs[place]? = some label) :
    GivenOnce statements label k place := by
  intro k' place'
  refine ⟨fun ⟨s', hk', hplace'⟩ => ?_, ?_⟩
  · have hat : (statements.map Statement.outputs)[k]? = some s.outputs := by
      rw [List.getElem?_map, hk, Option.map_some]
    have hat' : (statements.map Statement.outputs)[k']? = some s'.outputs := by
      rw [List.getElem?_map, hk', Option.map_some]
    exact place_unique h hat hat' hplace hplace'
  · rintro ⟨rfl, rfl⟩
    exact ⟨s, hk, hplace⟩

/-! ### Texts that are not empty -/

theorem ne_empty_of_intercalate {separator x : String} {l : List String} (hx : x ∈ l)
    (hne : x ≠ "") : separator.intercalate l ≠ "" := by
  induction l with
  | nil => cases hx
  | cons a rest ih =>
      cases rest with
      | nil =>
          rw [String.intercalate_singleton, ← List.mem_singleton.mp hx]
          exact hne
      | cons b more =>
          intro hempty
          rw [String.intercalate_cons_of_ne_nil (List.cons_ne_nil b more)] at hempty
          obtain ⟨hfront, hrest⟩ := String.append_eq_empty_iff.mp hempty
          rcases List.mem_cons.mp hx with rfl | hin
          · exact hne (String.append_eq_empty_iff.mp hfront).1
          · exact ih hin hrest

theorem ne_empty_of_join {x : String} {l : List String} (hx : x ∈ l) (hne : x ≠ "") :
    String.join l ≠ "" := by
  induction l with
  | nil => cases hx
  | cons a rest ih =>
      intro hempty
      rw [String.join_cons] at hempty
      obtain ⟨hfirst, hrest⟩ := String.append_eq_empty_iff.mp hempty
      rcases List.mem_cons.mp hx with rfl | hin
      · exact hne hfirst
      · exact ih hin hrest

/-- A statement that gives a label has a text. -/
theorem Statement.text_ne_empty {s : Statement} {label : String} (h : label ∈ s.outputs)
    (hne : label ≠ "") : s.text ≠ "" := by
  intro hempty
  exact ne_empty_of_join h hne (String.append_eq_empty_iff.mp hempty).2

namespace Objects

variable {o : Objects}

/-! ### Texts from statements -/

/-- The statement of a chain. -/
def statement (o : Objects) (t : Texts) (id : ChainId) : Except Error Statement := do
  let c ← o.chain id
  let inputs ← c.inputs.mapM fun s => o.inputLabel s.source
  let filters ← filtersText t c
  let outputs ← padLabels id c
  return ⟨inputs, filters, outputs.map fun l => "[" ++ l ++ "]"⟩

theorem statement_ok {t : Texts} {id : ChainId} {s : Statement} :
    o.statement t id = .ok s ↔ ∃ c inputs filters outputs, o.chain? id = some c ∧
      c.inputs.mapM (fun s => o.inputLabel s.source) = .ok inputs ∧
      filtersText t c = .ok filters ∧ padLabels id c = .ok outputs ∧
      s = ⟨inputs, filters, outputs.map fun l => "[" ++ l ++ "]"⟩ := by
  refine ⟨fun h => ?_, ?_⟩
  · obtain ⟨c, hc, h⟩ := bind_ok.mp h
    obtain ⟨inputs, hinputs, h⟩ := bind_ok.mp h
    obtain ⟨filters, hfilters, h⟩ := bind_ok.mp h
    obtain ⟨outputs, houtputs, h⟩ := bind_ok.mp h
    cases h
    exact ⟨c, inputs, filters, outputs, chain_ok.mp hc, hinputs, hfilters, houtputs, rfl⟩
  · rintro ⟨c, inputs, filters, outputs, hc, hinputs, hfilters, houtputs, rfl⟩
    simp only [statement, chain_ok.mpr hc, hinputs, hfilters, houtputs, bind, Except.bind]
    rfl

/-- The text of a chain is that of its statement. -/
theorem chainText_of_statement {t : Texts} {id : ChainId} {s : Statement}
    (h : o.statement t id = .ok s) : (do o.chainText t id (← o.chain id)) = .ok s.text := by
  obtain ⟨c, inputs, filters, outputs, hc, hinputs, hfilters, houtputs, rfl⟩ := statement_ok.mp h
  simp only [chainText, chain_ok.mpr hc, hinputs, hfilters, houtputs, bind, Except.bind]
  rfl

theorem graphText_of_statements {t : Texts} {g : Graph} {statementOf : ChainId → Statement}
    (h : ∀ id ∈ g.chains, o.statement t id = .ok (statementOf id)) :
    o.graphText t g = .ok (";".intercalate (g.chains.map fun id => (statementOf id).text)) := by
  unfold graphText
  rw [mapM_ok_map fun id hid => chainText_of_statement (h id hid)]
  rfl

/-- Expressions that are not empty, one after the other, are all their statements. -/
theorem intercalate_flatten {α : Type} (f : α → String) {ls : List (List α)} :
    (∀ l ∈ ls, l ≠ []) → ";".intercalate (ls.map fun l => ";".intercalate (l.map f))
      = ";".intercalate (ls.flatten.map f) := by
  induction ls with
  | nil => exact fun _ => rfl
  | cons l rest ih =>
      intro h
      have hrest := ih fun x hx => h x (List.mem_cons_of_mem l hx)
      have hl : l.map f ≠ [] := fun hnil => h l List.mem_cons_self (List.map_eq_nil_iff.mp hnil)
      cases rest with
      | nil => simp
      | cons l' more =>
          have hmore : (l' :: more).flatten.map f ≠ [] := by
            intro hnil
            have hempty := List.map_eq_nil_iff.mp hnil
            exact h l' (List.mem_cons_of_mem l List.mem_cons_self)
              (List.append_eq_nil_iff.mp hempty).1
          have hsplit : (l :: l' :: more).flatten.map f = l.map f ++ (l' :: more).flatten.map f :=
            List.map_append
          rw [List.map_cons, String.intercalate_cons_of_ne_nil (by simp), hrest, hsplit,
            String.intercalate_append_of_ne_nil hl hmore]

/-! ### Chains with a statement -/

/-- Streams that have names have labels. -/
theorem inputLabels_answer {specifiers : List Specifier}
    (h : ∀ s ∈ specifiers, ∃ text, o.specifierText s.source = .ok text) :
    ∃ labels, specifiers.mapM (fun s => o.inputLabel s.source) = .ok labels := by
  refine mapM_answers fun s hs => ?_
  obtain ⟨text, htext⟩ := h s hs
  exact ⟨Expression.bracket text, by simp only [inputLabel, htext, bind, Except.bind]; rfl⟩

/-- A chain with a place has a statement if its inputs have names and its filters a text. -/
theorem statement_answers {t : Texts} {id : ChainId} {c : Chain} {k : Nat}
    (hc : o.chain? id = some c) (hposition : c.position = some k)
    (hinputs : ∀ s ∈ c.inputs, ∃ text, o.specifierText s.source = .ok text)
    (hfilters : ∃ text, filtersText t c = .ok text) : ∃ s, o.statement t id = .ok s := by
  obtain ⟨filters, hfilters⟩ := hfilters
  obtain ⟨inputs, hinputs⟩ := inputLabels_answer hinputs
  exact ⟨_, statement_ok.mpr ⟨c, inputs, filters, _, hc, hinputs, hfilters,
    padLabels_placed id hposition, rfl⟩⟩

/-- The statement of a chain with a place gives the labels of the chain. -/
theorem outputs_of_statement {t : Texts} {id : ChainId} {s : Statement} {c : Chain} {k : Nat}
    (h : o.statement t id = .ok s) (hc : o.chain? id = some c) (hposition : c.position = some k) :
    s.outputs = (o.labelsAt id).map fun l => "[" ++ l ++ "]" := by
  obtain ⟨c', inputs, filters, outputs, hc', -, -, houtputs, rfl⟩ := statement_ok.mp h
  obtain rfl : c' = c := Option.some.inj (hc'.symm.trans hc)
  rw [padLabels_placed id hposition] at houtputs
  cases houtputs
  rw [labelsAt_placed hc hposition]

/-- The statement of a chain with a place gives the name of a pad that is referred to, at the place of
the pad. -/
theorem name_of_statement {t : Texts} {id : ChainId} {s : Statement} {c : Chain} {k pad : Nat}
    (h : o.statement t id = .ok s) (hc : o.chain? id = some c) (hposition : c.position = some k)
    (hpad : pad ∈ c.references) :
    ∃ label, o.specifierText (.pad id pad) = .ok label ∧ label ≠ "" ∧
      s.outputs[pad]? = some label := by
  refine ⟨_, specifierText_placed pad hc hposition, fun hempty => ?_, ?_⟩
  · have hfront := (String.append_eq_empty_iff.mp hempty).1
    exact absurd (String.append_eq_empty_iff.mp hfront).1 (by decide)
  · rw [outputs_of_statement h hc hposition, labelsAt_placed hc hposition, List.getElem?_map,
      getElem?_labels k hpad, Option.map_some]

end Objects

end MediaCommand
