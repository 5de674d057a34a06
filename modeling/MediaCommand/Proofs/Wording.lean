/-
What can be put into words.

The text of a value depends on the session only through the objects in it.  So a value has a text as
soon as each of these has one, however deep they stand and whichever containers around them are left
out.  Files always have a text.  Filters, chains, graphs, specifiers and commands may have none, and
so may the options that hold them.
-/
import MediaCommand.Proofs.Lookup
import MediaCommand.Scene

namespace MediaCommand

/-- An object has both texts, whatever stands around it, and is not itself taken for a sequence. -/
structure Texts.Writes (t : Texts) (x : Object) : Prop where
  plain : ∀ within, ∃ text, t.plainWithin within x = .ok text
  shown : ∀ within, ∃ text, t.shownWithin within x = .ok text
  single : t.items? x = none

theorem Texts.Writes.within {t : Texts} {x : Object} (h : t.Writes x) (within : List Nat) :
    { t with within }.Writes x :=
  ⟨h.plain, h.shown, h.single⟩

namespace Value

mutual

/-- A value can be shown if the objects in it can. -/
theorem shown_answers : ∀ (t : Texts) (v : Value),
    (∀ x ∈ v.objects, ∀ within, ∃ text, t.shownWithin within x = .ok text) →
    ∃ text, v.shown t = .ok text
  | t, .list items, h => by
      obtain ⟨texts, htexts⟩ := shownItems_answers t items h
      exact ⟨_, by simp only [shown, htexts, bind, Except.bind]; rfl⟩
  | t, .tuple items, h => by
      obtain ⟨texts, htexts⟩ := shownItems_answers t items h
      simp only [shown, htexts, bind, Except.bind]
      split
      · exact ⟨_, rfl⟩
      · exact ⟨_, rfl⟩
  | t, .dict entries, h => by
      obtain ⟨texts, htexts⟩ := shownEntries_answers t entries h
      exact ⟨_, by simp only [shown, htexts, bind, Except.bind]; rfl⟩
  | t, .object x, h => h x List.mem_cons_self t.within
  | t, .marked mark v, h => by
      simp only [shown]
      split
      · exact ⟨_, rfl⟩
      · exact shown_answers (t.inside mark) v h
  | _, .null, _ | _, .bool _, _ | _, .int _, _ | _, .text _, _ | _, .float _, _ | _, .bytes _, _
  | _, .path _, _ | _, .arity _, _ => ⟨_, rfl⟩

theorem shownItems_answers : ∀ (t : Texts) (items : List Value),
    (∀ x ∈ itemObjects items, ∀ within, ∃ text, t.shownWithin within x = .ok text) →
    ∃ texts, shownItems t items = .ok texts
  | _, [], _ => ⟨[], rfl⟩
  | t, v :: rest, h => by
      obtain ⟨text, htext⟩ := shown_answers t v fun x hx => h x (List.mem_append_left _ hx)
      obtain ⟨texts, htexts⟩ :=
        shownItems_answers t rest fun x hx => h x (List.mem_append_right _ hx)
      exact ⟨_, by simp only [shownItems, htext, htexts, bind, Except.bind]; rfl⟩

theorem shownEntries_answers : ∀ (t : Texts) (entries : List (Value × Value)),
    (∀ x ∈ entryObjects entries, ∀ within, ∃ text, t.shownWithin within x = .ok text) →
    ∃ texts, shownEntries t entries = .ok texts
  | _, [], _ => ⟨[], rfl⟩
  | t, (k, v) :: rest, h => by
      have hkv : ∀ x ∈ k.objects ++ v.objects, ∀ within, ∃ text, t.shownWithin within x = .ok text :=
        fun x hx => h x (List.mem_append_left _ hx)
      obtain ⟨key, hkey⟩ := shown_answers t k fun x hx => hkv x (List.mem_append_left _ hx)
      obtain ⟨text, htext⟩ := shown_answers t v fun x hx => hkv x (List.mem_append_right _ hx)
      obtain ⟨texts, htexts⟩ :=
        shownEntries_answers t rest fun x hx => h x (List.mem_append_right _ hx)
      exact ⟨_, by simp only [shownEntries, hkey, htext, htexts, bind, Except.bind]; rfl⟩

end

/-- A value has a plain text if the objects in it have texts. -/
theorem plain_answers (t : Texts) (v : Value) (h : ∀ x ∈ v.objects, t.Writes x) :
    ∃ text, v.plain t = .ok text := by
  unfold plain
  split
  · exact ⟨_, rfl⟩
  · exact ⟨_, rfl⟩
  · exact ⟨_, rfl⟩
  · exact (h _ List.mem_cons_self).plain t.within
  · split
    · exact ⟨_, rfl⟩
    · exact ⟨_, rfl⟩
    · exact shown_answers t _ fun x hx => (h x hx).shown
  · exact shown_answers t v fun x hx => (h x hx).shown

theorem mem_itemObjects {items : List Value} {v : Value} {x : Object} (hv : v ∈ items)
    (hx : x ∈ v.objects) : x ∈ itemObjects items := by
  induction items with
  | nil => cases hv
  | cons w rest ih =>
      rcases List.mem_cons.mp hv with rfl | hin
      · exact List.mem_append_left _ hx
      · exact List.mem_append_right _ (ih hin)

theorem objects_bare (v : Value) : v.bare.objects = v.objects := by
  match v with
  | .marked mark v =>
      simp only [bare, objects]
      exact objects_bare v
  | .null | .bool _ | .int _ | .text _ | .float _ | .list _ | .tuple _ | .dict _ | .bytes _
  | .path _ | .arity _ | .object _ => rfl

end Value

/-- The items of a value that repeats its option hold nothing that the value does not hold. -/
theorem Objects.objects_of_repeated? {v w : Value} {items : List Value} {x : Object}
    (hitems : repeated? v = some items) (hw : w ∈ items) (hx : x ∈ w.objects) : x ∈ v.objects := by
  rw [← v.objects_bare]
  unfold repeated? at hitems
  split at hitems
  · rename_i hbare
    cases hitems
    rw [hbare]
    exact Value.mem_itemObjects hw hx
  · rename_i hbare
    cases hitems
    rw [hbare]
    exact Value.mem_itemObjects hw hx
  -- The items of bytes and of an arity are numbers, in which there is no object.
  · cases hitems
    obtain ⟨b, -, rfl⟩ := List.mem_map.mp hw
    cases hx
  · rename_i a _
    cases hitems
    obtain rfl := List.mem_singleton.mp hw
    cases a <;> cases hx
  · cases hitems

namespace Expression

/-- A sequence is an object that is one, or what repeats an option. -/
theorem sequence?_cases (v : Value) :
    (∃ x, v.bare = .object x ∧ ∀ t, sequence? t v = t.items? x) ∨
      ∀ t, sequence? t v = Objects.repeated? v := by
  cases hbare : v.bare with
  | object x => exact Or.inl ⟨x, rfl, fun t => by simp only [sequence?, hbare]⟩
  | _ => exact Or.inr fun t => by simp only [sequence?, Objects.repeated?, hbare]

/-- The items of a sequence hold nothing that the sequence does not hold. -/
theorem objects_of_sequence? {t : Texts} {v w : Value} {items : List Value} {x : Object}
    (h : ∀ x ∈ v.objects, t.Writes x) (hitems : sequence? t v = some items) (hw : w ∈ items)
    (hx : x ∈ w.objects) : x ∈ v.objects := by
  rcases sequence?_cases v with ⟨y, hbare, hsequence⟩ | hsequence
  · have hy : y ∈ v.objects := by
      rw [← v.objects_bare, hbare]
      exact List.mem_cons_self
    rw [hsequence, (h y hy).single] at hitems
    cases hitems
  · rw [hsequence] at hitems
    exact Objects.objects_of_repeated? hitems hw hx

theorem rawValue_answers {t : Texts} {v : Value} (h : ∀ x ∈ v.objects, t.Writes x) :
    ∃ text, rawValue t v = .ok text := by
  unfold rawValue
  split
  · exact ⟨_, rfl⟩
  · split
    · rename_i items hitems
      obtain ⟨texts, htexts⟩ : ∃ texts, Value.plainAll t items = .ok texts :=
        mapM_answers fun w hw => w.plain_answers t fun x hx =>
          h x (objects_of_sequence? h hitems hw hx)
      exact ⟨_, by simp only [htexts, bind, Except.bind]; rfl⟩
    · exact v.plain_answers t h

theorem option_answers {t : Texts} (key : String) {v : Value} (h : ∀ x ∈ v.objects, t.Writes x) :
    ∃ text, option t key v = .ok text := by
  unfold option
  split
  · exact ⟨_, rfl⟩
  · obtain ⟨text, htext⟩ := rawValue_answers h
    exact ⟨_, by simp only [value, htext, bind, Except.bind]; rfl⟩

theorem options_answers {t : Texts} {entries : List (String × Value)}
    (h : ∀ e ∈ entries, ∀ x ∈ e.2.objects, t.Writes x) : ∃ text, options t entries = .ok text := by
  have hall : ∀ e ∈ entries, ∃ text, option t e.1 e.2 = .ok text :=
    fun e he => option_answers e.1 (h e he)
  obtain ⟨texts, htexts⟩ := mapM_answers hall
  exact ⟨":".intercalate texts, bind_ok.mpr ⟨texts, htexts, rfl⟩⟩

end Expression

/-- A filter has an expression if the objects among its options have texts. -/
theorem Filter.expression_answers {t : Texts} {f : Filter}
    (h : ∀ e ∈ f.options, ∀ x ∈ e.2.objects, t.Writes x) : ∃ text, f.expression t = .ok text := by
  unfold expression Expression.filter
  split
  · exact ⟨_, rfl⟩
  · obtain ⟨text, htext⟩ := Expression.options_answers h
    exact ⟨_, by simp only [htext, bind, Except.bind]; rfl⟩

namespace Objects

variable {o : Objects}

/-- Whether an object is an input or an output that is there. -/
def IsFile (o : Objects) : Object → Prop
  | .input id => (o.input? id).isSome
  | .output id => (o.output? id).isSome
  | _ => False

/-- Among the options of filters there are no objects but files. -/
def OptionsHoldFiles (o : Objects) : Prop :=
  ∀ c ∈ o.chains, ∀ f ∈ c.filters, ∀ e ∈ f.options, ∀ x ∈ e.2.objects, o.IsFile x

/-- The filters of a chain have a text if the objects among their options have texts. -/
theorem filtersText_answers {t : Texts} {c : Chain}
    (h : ∀ f ∈ c.filters, ∀ e ∈ f.options, ∀ x ∈ e.2.objects, t.Writes x) :
    ∃ text, filtersText t c = .ok text := by
  obtain ⟨texts, htexts⟩ : ∃ texts, c.filters.mapM (Filter.expression t) = .ok texts :=
    mapM_answers fun f hf => f.expression_answers (h f hf)
  exact ⟨_, by simp only [filtersText, htexts, bind, Except.bind]; rfl⟩

/-- A wording shows the filters of a chain that is there. -/
theorem namedFilters_of_chain (t : Texts) {id : ChainId} {c : Chain} (hc : o.chain? id = some c) :
    o.namedFilters t id = filtersText t c := by
  simp only [namedFilters, chain_ok.mpr hc, bind, Except.bind]

end Objects

namespace Scene

variable {s : Scene}

theorem exists_depth (s : Scene) : ∃ n, s.depth = n + 1 := by
  refine Nat.exists_eq_succ_of_ne_zero (Nat.ne_of_gt ?_)
  exact Nat.mul_pos (Nat.succ_pos _) (Nat.succ_pos _)

/-- Files have texts at every level but the lowest. -/
theorem writes_file_above {x : Object} (h : s.objects.IsFile x) (n : Nat) :
    (s.textsTo (n + 1)).Writes x := by
  cases x with
  | input id =>
      obtain ⟨i, hi⟩ := Option.isSome_iff_exists.mp h
      have hok := Objects.input_ok.mpr hi
      refine ⟨fun _ => ⟨Objects.showInput i, ?_⟩, fun _ => ⟨Objects.showInput i, ?_⟩, rfl⟩
      · simp only [textsTo, plainObject, hok, bind, Except.bind]
        rfl
      · simp only [textsTo, shownObject, hok, bind, Except.bind]
        rfl
  | output id =>
      obtain ⟨out, hout⟩ := Option.isSome_iff_exists.mp h
      have hok := Objects.output_ok.mpr hout
      refine ⟨fun _ => ⟨Objects.showOutput out, ?_⟩, fun _ => ⟨Objects.showOutput out, ?_⟩, rfl⟩
      · simp only [textsTo, plainObject, hok, bind, Except.bind]
        rfl
      · simp only [textsTo, shownObject, hok, bind, Except.bind]
        rfl
  | filter | chain | graph | specifier | command => exact False.elim h

/-- Files have texts. -/
theorem writes_file {x : Object} (h : s.objects.IsFile x) : s.texts.Writes x := by
  obtain ⟨n, hn⟩ := s.exists_depth
  unfold texts
  rw [hn]
  exact writes_file_above h n

/-- Filters with no objects but files among their options have a text. -/
theorem filtersText_answers (h : s.objects.OptionsHoldFiles) {c : Chain}
    (hc : c ∈ s.objects.chains) : ∃ text, Objects.filtersText s.texts c = .ok text :=
  Objects.filtersText_answers fun f hf e he x hx => writes_file (h c hc f hf e he x hx)

end Scene

end MediaCommand
