/-
Options read back from their arguments.

Options are written as one occurrence for each value, and one without a value for a flag.  Where every
value is a text that does not look like an option, and a list holds at least two of them, the
occurrences tell the options: those of one option stand together, each option has its own name, and one
value is told from a list by its number.  A list of one text would come back as the text, and an empty
list not at all.

What comes back is the dictionary that was written, with the same keys in the same order.  A list in it
is a new one, which is equal to the one that was written.
-/
import Mathlib.Tactic.Choose
import MediaCommand.Proofs.Occurrences

namespace MediaCommand

/-! ### What is written -/

/-- The occurrences of an option that was given something. -/
def Given.occurrences (name : String) : Given → List Occurrence
  | .flag => [⟨name, none⟩]
  | .one value => [⟨name, some value⟩]
  | .several values => values.map fun value => ⟨name, some value⟩

/-- A value of an option, and what is found when it is read back. -/
inductive Value.Legible : Value → Given → Prop
  | flag : Legible .null .flag
  | one {value : String} (h : Options.isOption value = false) : Legible (.text value) (.one value)
  | several {v : Value} {values : List String} (hv : v.bare = .list (values.map .text))
      (hlength : 2 ≤ values.length) (h : ∀ value ∈ values, Options.isOption value = false) :
      Legible v (.several values)

namespace Value.Legible

variable {v : Value} {given : Given}

theorem bare_eq (h : v.Legible given) : v.bare = given.toValue := by
  cases h with
  | flag => rfl
  | one => rfl
  | several hv => exact hv

theorem proper (h : v.Legible given) (name : String) : ∀ x ∈ given.occurrences name, x.Proper := by
  cases h with
  | flag => simp [Given.occurrences, Occurrence.Proper]
  | one hvalue => simpa [Given.occurrences, Occurrence.Proper] using hvalue
  | several _ _ hvalues => simpa [Given.occurrences, Occurrence.Proper] using hvalues

/-- A value is written as its occurrences. -/
theorem optionArgs (h : v.Legible given) (t : Texts) (name : String) :
    Objects.optionArgs t (.text name) v
      = .ok ((given.occurrences name).flatMap Occurrence.args) := by
  cases h with
  | flag => rfl
  | one => rfl
  | @several v values hv =>
      have hrepeated : Objects.repeated? v = some (values.map .text) := by
        simp only [Objects.repeated?, hv]
      have hitems : (values.map Value.text).mapM (Objects.occurrence t ("-" ++ name))
          = .ok (values.map fun value => ["-" ++ name, value]) := by
        rw [List.mapM_map]
        exact mapM_ok_map fun value _ => rfl
      unfold Objects.optionArgs
      simp only [hrepeated]
      show ((values.map Value.text).mapM (Objects.occurrence t ("-" ++ name)) >>= _) = _
      rw [hitems, Given.occurrences, List.flatMap_map]
      rfl

end Value.Legible

namespace Options

/-! ### What is read -/

variable {found : List (String × Given)} {name : String}

theorem add_new (hname : name ∉ found.map Prod.fst) (value : Option String) :
    add found ⟨name, value⟩ = .ok (found ++ [(name, .ofValues value.toList)]) := by
  cases value with
  | none => exact congrArg Except.ok (Dict.put_of_not_mem hname _)
  | some value =>
      simp only [add, Dict.get?_of_not_mem hname, Given.add?, Dict.put_of_not_mem hname]
      rfl

theorem add_known (hname : name ∉ found.map Prod.fst) {given given' : Given} {value : String}
    (h : Given.add? value (some given) = some given') :
    add (found ++ [(name, given)]) ⟨name, some value⟩ = .ok (found ++ [(name, given')]) := by
  have hget : Dict.get? (found ++ [(name, given)]) name = some given := by
    rw [Dict.get?_append hname, Dict.get?_cons, if_pos (beq_self_eq_true name)]
  have hput : Dict.put (found ++ [(name, given)]) name given' = found ++ [(name, given')] := by
    rw [Dict.put_append hname, Dict.put, if_pos (beq_self_eq_true name)]
  simp only [add, hget, h, hput]

/-- Further values of an option with several are added to these. -/
theorem foldlM_more (hname : name ∉ found.map Prod.fst) (more : List String) :
    ∀ values, (more.map (Occurrence.mk name ∘ some)).foldlM add (found ++ [(name, .several values)])
      = .ok (found ++ [(name, .several (values ++ more))]) := by
  induction more with
  | nil => exact fun values => by rw [List.append_nil]; rfl
  | cons value rest ih =>
      intro values
      rw [List.map_cons, List.foldlM_cons]
      show add _ ⟨name, some value⟩ >>= _ = _
      rw [add_known hname (show Given.add? value (some (.several values))
        = some (.several (values ++ [value])) from rfl)]
      refine (ih (values ++ [value])).trans ?_
      rw [List.append_assoc]
      rfl

/-- Entering the occurrences of a new option enters what it was given. -/
theorem foldlM_occurrences (hname : name ∉ found.map Prod.fst) {v : Value} {given : Given}
    (h : v.Legible given) :
    (given.occurrences name).foldlM add found = .ok (found ++ [(name, given)]) := by
  cases h with
  | flag => exact (bind_pure _).trans (add_new hname none)
  | one => exact (bind_pure _).trans (add_new hname (some _))
  | @several v values hv hlength =>
      match values, hlength with
      | first :: second :: more, _ =>
          show (add found ⟨name, some first⟩ >>= fun found => add found ⟨name, some second⟩ >>=
            (more.map (Occurrence.mk name ∘ some)).foldlM add) = _
          rw [add_new hname (some first)]
          show (add (found ++ [(name, .one first)]) ⟨name, some second⟩ >>= _) = _
          rw [add_known hname (show Given.add? second (some (.one first))
            = some (.several [first, second]) from rfl)]
          exact foldlM_more hname more [first, second]

/-- Entering the occurrences of options with names of their own enters the options. -/
theorem foldlM_options {α : Type} {name : α → String} {given : α → Given} {options : List α}
    (h : ∀ e ∈ options, ∃ v : Value, v.Legible (given e)) :
    ∀ {found : List (String × Given)}, (found.map Prod.fst ++ options.map name).Nodup →
      (options.flatMap fun e => (given e).occurrences (name e)).foldlM add found
        = .ok (found ++ options.map fun e => (name e, given e)) := by
  induction options with
  | nil => exact fun _ => by rw [List.map_nil, List.append_nil]; rfl
  | cons e rest ih =>
      intro found hnodup
      obtain ⟨v, hv⟩ := h e List.mem_cons_self
      have hname : name e ∉ found.map Prod.fst := fun hmem =>
        (List.nodup_append.mp hnodup).2.2 _ hmem _ List.mem_cons_self rfl
      have hnext : ((found ++ [(name e, given e)]).map Prod.fst ++ rest.map name).Nodup := by
        rwa [List.map_append, List.append_assoc]
      rw [List.flatMap_cons, List.foldlM_append, foldlM_occurrences hname hv]
      refine (ih (fun x hx => h x (List.mem_cons_of_mem e hx)) hnext).trans ?_
      rw [List.append_assoc]
      rfl

end Options

/-! ### Equal dictionaries -/

namespace Value

/-- A value without objects stays as it is when its objects are exchanged, marked or not. -/
theorem bindObjects_eq_self (f : Object → Value) {v : Value} (h : v.bare.bindObjects f = v.bare) :
    v.bindObjects f = v := by
  match v with
  | .marked mark v => exact congrArg (marked mark) (bindObjects_eq_self f (v := v) h)
  | .null | .bool _ | .int _ | .text _ | .float _ | .list _ | .tuple _ | .dict _ | .bytes _ | .path _
  | .arity _ | .object _ => exact h

theorem bindItemObjects_texts (f : Object → Value) (texts : List String) :
    bindItemObjects f (texts.map .text) = texts.map .text := by
  induction texts with
  | nil => rfl
  | cons s rest ih => exact congrArg (text s :: ·) ih

theorem bindEntryObjects_eq_self {f : Object → Value} {α : Type} {name : α → String} {b : α → Value}
    {entries : List α} (h : ∀ e ∈ entries, (b e).bindObjects f = b e) :
    bindEntryObjects f (entries.map fun e => (.text (name e), b e))
      = entries.map fun e => (.text (name e), b e) := by
  induction entries with
  | nil => rfl
  | cons e rest ih =>
      have hrest := ih fun x hx => h x (List.mem_cons_of_mem e hx)
      rw [List.map_cons, bindEntryObjects, hrest, h e List.mem_cons_self]
      rfl

theorem bindObjects_toValue (f : Object → Value) (given : Given) :
    given.toValue.bindObjects f = given.toValue := by
  cases given with
  | flag => rfl
  | one => rfl
  | several values => exact congrArg list (bindItemObjects_texts f values)

theorem Legible.bindObjects {v : Value} {given : Given} (h : v.Legible given) (f : Object → Value) :
    v.bindObjects f = v := by
  apply bindObjects_eq_self
  rw [h.bare_eq, bindObjects_toValue]

theorem equalItems_texts (texts : List String) :
    equalItems (texts.map .text) (texts.map .text) = true := by
  induction texts with
  | nil => rfl
  | cons s rest ih =>
      have hs : (text s).equal (.text s) = true := beq_self_eq_true s
      simp [equalItems, hs, ih]

/-- What is read back equals what was written. -/
theorem Legible.equal {v : Value} {given : Given} (h : v.Legible given) :
    given.toValue.equal v = true := by
  cases h with
  | flag => rfl
  | one => exact beq_self_eq_true _
  | @several v values hv =>
      have hitems := equalItems_texts values
      simpa [Given.toValue, Value.equal, hv] using hitems

variable {α : Type} {name : α → String} {a b : α → Value}

/-- In a dictionary whose keys are different texts, a key finds its entry. -/
theorem find?_text {entries : List α} (hnodup : (entries.map name).Nodup) {e : α} (he : e ∈ entries) :
    (entries.map fun e => (text (name e), b e)).find?
      (fun e' => sameMark (text (name e)) e'.1 || (text (name e)).equal e'.1)
      = some (text (name e), b e) := by
  induction entries with
  | nil => cases he
  | cons x rest ih =>
      obtain ⟨hnot, hrest⟩ := List.nodup_cons.mp hnodup
      rw [List.map_cons, List.find?_cons]
      show (match name e == name x with | true => _ | false => _) = _
      rcases List.mem_cons.mp he with rfl | hin
      · rw [beq_self_eq_true]
      · have hne : name e ≠ name x := fun hsame => hnot (hsame ▸ List.mem_map_of_mem hin)
        rw [beq_false_of_ne hne]
        exact ih hrest hin

/-- Two dictionaries with the same texts as keys are equal if the values of each key are. -/
theorem equal_dicts {entries : List α} (hnodup : (entries.map name).Nodup)
    (h : ∀ e ∈ entries, (a e).equal (b e) = true) {v : Value}
    (hv : v.bare = .dict (entries.map fun e => (.text (name e), b e))) :
    (dict (entries.map fun e => (.text (name e), a e))).equal v = true := by
  have hentries : ∀ part : List α, (∀ e ∈ part, e ∈ entries) →
      equalEntries (part.map fun e => (text (name e), a e))
        (entries.map fun e => (text (name e), b e)) = true := by
    intro part hpart
    induction part with
    | nil => rfl
    | cons e rest ih =>
        have he := hpart e List.mem_cons_self
        simp [equalEntries, find?_text hnodup he, h e he,
          ih fun x hx => hpart x (List.mem_cons_of_mem e hx)]
  simp [Value.equal, hv, hentries entries fun _ he => he]

end Value

/-! ### Options read back -/

namespace Session

/-- A dictionary of legible values is written as the occurrences of its options. -/
theorem optionArgs_legible (s : Session) {options : Value} {entries : List (String × Value)}
    (hoptions : options.bare = .dict (entries.map fun e => (.text e.1, e.2)))
    {given : String × Value → Given} (h : ∀ e ∈ entries, e.2.Legible (given e)) :
    s.optionArgs options = .ok
      ((entries.flatMap fun e => (given e).occurrences e.1).flatMap Occurrence.args) := by
  have hentries : entries.mapM (fun e => Objects.optionArgs s.scene.texts (.text e.1) e.2)
      = .ok (entries.map fun e => ((given e).occurrences e.1).flatMap Occurrence.args) :=
    mapM_ok_map fun e he => (h e he).optionArgs s.scene.texts e.1
  have hargs : Objects.optionsArgs s.scene.texts (entries.map fun e => (.text e.1, e.2)) = .ok
      ((entries.flatMap fun e => (given e).occurrences e.1).flatMap Occurrence.args) := by
    simp only [Objects.optionsArgs, List.mapM_map, Function.comp_def, hentries]
    rw [List.flatMap_assoc, List.flatMap_def]
    rfl
  cases entries with
  | nil => simp [Session.optionArgs, Objects.truth, hoptions]
  | cons e rest => simpa [Session.optionArgs, Objects.truth, hoptions] using hargs

/-- A dictionary whose values hold no objects is what it is equal to. -/
theorem canonical_dict (o : Objects) {α : Type} {name : α → String} {b : α → Value} {entries : List α}
    {v : Value} (hv : v.bare = .dict (entries.map fun e => (.text (name e), b e)))
    (h : ∀ e ∈ entries, ∀ f, (b e).bindObjects f = b e) : o.canonical v = v := by
  apply Value.bindObjects_eq_self
  rw [hv]
  exact congrArg Value.dict (Value.bindEntryObjects_eq_self fun e he => h e he _)

/-- **Options are read back from their arguments.**  Let a dictionary have different texts for keys,
whatever characters are in them, and for values nothing, texts that do not begin with a dash, and lists
of at least two such texts.  Then it is written as arguments, these are read, and the dictionary found is
the one that was written: it has the same keys in the same order, and under each the same value. -/
theorem options_read_back (s : Session) {v : Value} {entries : List (String × Value)}
    (hoptions : v.bare = .dict (entries.map fun e => (.text e.1, e.2)))
    (distinct : (entries.map Prod.fst).Nodup)
    (legible : ∀ e ∈ entries, ∃ given, e.2.Legible given) :
    ∃ args found, s.optionArgs v = .ok args ∧
      s.readOptions (.list (args.map .text)) = .ok found ∧
      Options.toValue found = .dict (entries.map fun e => (.text e.1, e.2.bare)) ∧
      s.objects.equal (Options.toValue found) v = true := by
  have : Nonempty Given := ⟨.flag⟩
  choose! given hgiven using legible
  -- One occurrence after the other, entry by entry.
  let xs := entries.flatMap fun e => (given e).occurrences e.1
  let found : List (String × Given) := entries.map fun e => (e.1, given e)
  have hproper : ∀ x ∈ xs, x.Proper := by
    intro x hx
    obtain ⟨e, he, hx⟩ := List.mem_flatMap.mp hx
    exact (hgiven e he).proper e.1 x hx
  have hwritten : s.optionArgs v = .ok (xs.flatMap Occurrence.args) :=
    s.optionArgs_legible hoptions hgiven
  have hread : s.readOptions (.list ((xs.flatMap Occurrence.args).map .text))
      = .ok (Options.named found) := by
    have hadd : xs.foldlM Options.add [] = .ok found :=
      Options.foldlM_options (fun e he => ⟨e.2, hgiven e he⟩) distinct
    rw [Options.readOptions_args s hproper rfl, hadd]
    rfl
  have hvalue : Options.toValue (Options.named found)
      = .dict (entries.map fun e => (.text e.1, (given e).toValue)) := by
    simp [Options.toValue, Options.named, found]
  refine ⟨_, _, hwritten, hread, ?_, ?_⟩
  · rw [hvalue]
    refine congrArg Value.dict (List.map_congr_left fun e he => ?_)
    rw [(hgiven e he).bare_eq]
  · have hoptions' : s.objects.canonical v = v :=
      canonical_dict s.objects hoptions fun e he => (hgiven e he).bindObjects
    have hfound : s.objects.canonical (Options.toValue (Options.named found))
        = Options.toValue (Options.named found) :=
      canonical_dict s.objects (by rw [hvalue]; rfl) fun e _ f => Value.bindObjects_toValue f (given e)
    rw [Objects.equal, hfound, hoptions', hvalue]
    exact Value.equal_dicts distinct (fun e he => (hgiven e he).equal) hoptions

/-- Options whose keys are empty or begin with a dash, and whose values are empty or none. -/
def oddOptions : List (String × Value) :=
  [("y", .null), ("", .text ""), ("-x", .text "a -b"),
    ("metadata", .marked 300 (.list [.text "title=a", .text ""])), ("-", .null)]

/-- These options are read back. -/
theorem odd_options_read_back :
    (oddOptions.map Prod.fst).Nodup ∧ (∀ e ∈ oddOptions, ∃ given, e.2.Legible given) ∧
    ∃ args found,
      ({} : Session).optionArgs (.dict (oddOptions.map fun e => (.text e.1, e.2))) = .ok args ∧
      args = ["-y", "-", "", "--x", "a -b", "-metadata", "title=a", "-metadata", "", "--"] ∧
      ({} : Session).readOptions (.list (args.map .text)) = .ok found ∧
      Options.toValue found = .dict [(.text "y", .null), (.text "", .text ""), (.text "-x", .text "a -b"),
        (.text "metadata", .list [.text "title=a", .text ""]), (.text "-", .null)] := by
  have hdistinct : (oddOptions.map Prod.fst).Nodup := by decide
  have hlegible : ∀ e ∈ oddOptions, ∃ given, e.2.Legible given := by
    intro e he
    simp only [oddOptions, List.mem_cons, List.not_mem_nil, or_false] at he
    rcases he with rfl | rfl | rfl | rfl | rfl
    · exact ⟨_, .flag⟩
    · exact ⟨_, .one (by decide)⟩
    · exact ⟨_, .one (by decide)⟩
    · exact ⟨_, .several (show _ = Value.list (["title=a", ""].map .text) from rfl) (by decide) (by decide)⟩
    · exact ⟨_, .flag⟩
  obtain ⟨args, found, hargs, hread, hvalue, -⟩ :=
    options_read_back {} (v := .dict _) rfl hdistinct hlegible
  refine ⟨hdistinct, hlegible, args, found, hargs, ?_, hread, hvalue⟩
  cases hargs
  rfl

end Session

end MediaCommand
