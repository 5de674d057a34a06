/-
Reading graphs.

The text of a graph puts semicolons between its chains and brackets around their labels.  A value takes no
backslash for any of the three, and nothing in a label takes one at all.  So the structure is found again
if none of the three stands in a value or between the brackets of a label, and no backslash between
brackets: a semicolon would end a chain, a bracket would begin or end a label, and a backslash would hide
what is written behind it.  Chains without these are called clear here, and are read back.
-/
import MediaCommand.Proofs.Reading
import MediaCommand.Proofs.Statements

namespace MediaCommand

open Letter

/-! ### The reader -/

/-- A chain as a reader finds it: the labels in front of it, its filters, and the labels behind it. -/
structure Reading where
  inputs : List String
  filters : List FilterContent
  outputs : List String
  deriving DecidableEq

/-- Whether a letter is a bracket by itself. -/
def isBracket (l : Letter) : Bool := l == .bare '[' || l == .bare ']'

/-- A label in brackets. -/
def labelText (body : String) : String := "[" ++ body ++ "]"

/-- Reads labels up to where something else begins.  Inside a label, what has been read of it is given. -/
def readLabels : Option (List Letter) → List Letter → Option (List String × List Letter)
  | none, [] => some ([], [])
  | some _, [] => none
  | none, l :: rest =>
    if l = .bare '[' then readLabels (some []) rest else some ([], l :: rest)
  | some read, l :: rest =>
    if l = .bare ']' then
      (readLabels none rest).map fun (labels, rest) => (labelText (plain read) :: labels, rest)
    else if l = .bare '[' then none
    else readLabels (some (read ++ [l])) rest

/-- Reads a chain: labels, filters up to the next bracket, and labels to the end. -/
def readStatement (ls : List Letter) : Option Reading := do
  let (inputs, rest) ← readLabels none ls
  let (outputs, left) ← readLabels none (rest.dropWhile fun l => !isBracket l)
  if left = [] then
    return ⟨inputs, readFilters (rest.takeWhile fun l => !isBracket l), outputs⟩
  else none

/-- Reads chains between semicolons.  Nothing is written of no chain. -/
def readStatements (ls : List Letter) : Option (List Reading) :=
  if ls = [] then some [] else (ls.splitOn (.bare ';')).mapM readStatement

/-- Reads the text of a graph. -/
def readGraph (text : String) : Option (List Reading) := readStatements (ofChars text.toList)

/-! ### What is written -/

/-- The text of a chain. -/
def Reading.text (r : Reading) : String :=
  String.join r.inputs ++ contentText r.filters ++ String.join r.outputs

/-- The letters of labels without a backslash. -/
def labelsLetters (labels : List String) : List Letter :=
  labels.flatMap fun l => l.toList.map .bare

/-- The letters of a chain without a backslash in its labels. -/
def Reading.letters (r : Reading) : List Letter :=
  labelsLetters r.inputs ++ contentLetters r.filters ++ labelsLetters r.outputs

/-- The characters that separate chains and labels. -/
def isStructure (c : Char) : Bool := c == ';' || c == '[' || c == ']'

/-- The characters that a label cannot hold. -/
def isReserved (c : Char) : Bool := isStructure c || c == '\\'

/-- What is known of a chain in any graph whose filters have clean names and keys: its labels are in
brackets, and those behind it hold nothing reserved. -/
structure Reading.WellFormed (r : Reading) : Prop where
  inputs : ∀ l ∈ r.inputs, ∃ body, l = labelText body
  names : ∀ f ∈ r.filters, f.name ≠ ""
  filters : ∀ f ∈ r.filters, f.Avoids fun c => isSeparator c || isStructure c
  nonempty : r.filters ≠ []
  outputs : ∀ l ∈ r.outputs, ∃ body, l = labelText body ∧ ∀ c ∈ body.toList, isReserved c = false

/-- A chain without anything that a reader takes for a part of the structure: nothing reserved between the
brackets of its input labels, and no semicolon or bracket in a value. -/
structure Reading.Clear (r : Reading) : Prop where
  labels : ∀ body, labelText body ∈ r.inputs → ∀ c ∈ body.toList, isReserved c = false
  values : ∀ f ∈ r.filters, ∀ entry ∈ f.options, ∀ value, entry.2 = some value →
    ∀ c ∈ value.toList, isStructure c = false

theorem toList_labelText (body : String) : (labelText body).toList = '[' :: body.toList ++ [']'] := by
  simp [labelText]

theorem mem_labelText {body : String} {c : Char} :
    c ∈ (labelText body).toList ↔ c = '[' ∨ c ∈ body.toList ∨ c = ']' := by
  simp [toList_labelText]

/-! ### Reading labels -/

/-- Letters other than brackets are read into the label they stand in. -/
theorem readLabels_inside {ls : List Letter} (h : ∀ l ∈ ls, isBracket l = false)
    (read rest : List Letter) :
    readLabels (some read) (ls ++ .bare ']' :: rest) =
      (readLabels none rest).map fun (labels, rest) =>
        (labelText (plain (read ++ ls)) :: labels, rest) := by
  induction ls generalizing read with
  | nil =>
      rw [List.nil_append, List.append_nil, readLabels, if_pos rfl]
  | cons l more ih =>
      have hl := h l List.mem_cons_self
      rw [isBracket, Bool.or_eq_false_iff, beq_eq_false_iff_ne, beq_eq_false_iff_ne] at hl
      rw [List.cons_append, readLabels, if_neg hl.2, if_neg hl.1,
        ih (fun x hx => h x (List.mem_cons_of_mem l hx)), List.append_assoc, List.singleton_append]

/-- Reading labels stops where no label begins. -/
theorem readLabels_stop {rest : List Letter} (h : rest.head? ≠ some (.bare '[')) :
    readLabels none rest = some ([], rest) := by
  cases rest with
  | nil => rfl
  | cons l more =>
      have hl : l ≠ .bare '[' := fun heq => h (congrArg some heq)
      rw [readLabels, if_neg hl]

theorem isBracket_bare {c : Char} (h : isReserved c = false) : isBracket (.bare c) = false := by
  simp only [isReserved, isStructure, Bool.or_eq_false_iff, beq_eq_false_iff_ne] at h
  simp only [isBracket, Bool.or_eq_false_iff, beq_eq_false_iff_ne, ne_eq, Letter.bare.injEq]
  exact ⟨h.1.1.2, h.1.2⟩

/-- Labels are read if nothing reserved stands in them and no further label follows. -/
theorem readLabels_letters {labels : List String} {rest : List Letter}
    (h : ∀ l ∈ labels, ∃ body, l = labelText body ∧ ∀ c ∈ body.toList, isReserved c = false)
    (hrest : rest.head? ≠ some (.bare '[')) :
    readLabels none (labelsLetters labels ++ rest) = some (labels, rest) := by
  induction labels with
  | nil => exact readLabels_stop hrest
  | cons l more ih =>
      obtain ⟨body, rfl, hbody⟩ := h l List.mem_cons_self
      have hinside : ∀ x ∈ body.toList.map Letter.bare, isBracket x = false := by
        intro x hx
        obtain ⟨c, hc, rfl⟩ := List.mem_map.mp hx
        exact isBracket_bare (hbody c hc)
      have hletters : labelsLetters (labelText body :: more) ++ rest
          = .bare '[' :: (body.toList.map .bare ++ .bare ']' :: (labelsLetters more ++ rest)) := by
        simp only [labelsLetters, List.flatMap_cons, toList_labelText, List.map_append, List.map_cons,
          List.map_nil, List.cons_append, List.append_assoc, List.nil_append]
      rw [hletters, readLabels, if_pos rfl, readLabels_inside hinside, List.nil_append, plain_bare,
        ih fun x hx => h x (List.mem_cons_of_mem _ hx)]
      rfl

/-! ### Letters by themselves -/

theorem mem_labelsLetters {labels : List String} {d : Char} :
    Letter.bare d ∈ labelsLetters labels ↔ ∃ l ∈ labels, d ∈ l.toList := by
  simp only [labelsLetters, List.mem_flatMap, List.mem_map, Letter.bare.injEq, exists_eq_right]

theorem mem_intercalate_iff {α : Type} {sep x : α} {ls : List (List α)} (hne : x ≠ sep) :
    x ∈ [sep].intercalate ls ↔ ∃ l ∈ ls, x ∈ l := by
  refine ⟨fun h => (mem_intercalate h).resolve_left hne, ?_⟩
  induction ls with
  | nil => exact fun ⟨_, hl, _⟩ => nomatch hl
  | cons l more ih =>
      rintro ⟨l', hl', hx⟩
      by_cases hmore : more = []
      · subst hmore
        rw [List.intercalate_singleton, ← List.mem_singleton.mp hl']
        exact hx
      · rw [List.intercalate_cons_of_ne_nil hmore, List.mem_append, List.mem_append]
        rcases List.mem_cons.mp hl' with rfl | hin
        · exact Or.inl (Or.inl hx)
        · exact Or.inr (ih ⟨l', hin, hx⟩)

theorem ofValue_eq_bare {c d : Char} (h : Expression.isSpecial d = false) :
    ofValue c = .bare d ↔ c = d := by
  unfold ofValue
  constructor
  · intro heq
    split at heq <;> cases heq
    rfl
  · rintro rfl
    rw [if_neg (by simp [h])]

theorem not_special_of_structure {d : Char} (h : isStructure d = true) :
    Expression.isSpecial d = false ∧ isSeparator d = false := by
  simp only [isStructure, Bool.or_eq_true, beq_iff_eq] at h
  rcases h with (rfl | rfl) | rfl <;> decide

section

variable {d : Char} (hd : isStructure d = true)

include hd

theorem bare_ne_separator {c : Char} (hc : isSeparator c = true) : Letter.bare d ≠ .bare c := by
  intro heq
  cases heq
  rw [(not_special_of_structure hd).2] at hc
  cases hc

theorem not_mem_of_clean {s : String}
    (h : ∀ c ∈ s.toList, (isSeparator c || isStructure c) = false) :
    Letter.bare d ∉ s.toList.map .bare := by
  intro hmem
  obtain ⟨c, hc, heq⟩ := List.mem_map.mp hmem
  cases heq
  have hfree := h d hc
  rw [hd, Bool.or_true] at hfree
  cases hfree

/-- A semicolon or bracket stands by itself in an option with a clean key exactly if it stands in the
value. -/
theorem mem_optionLetters {entry : String × Option String}
    (h : ∀ c ∈ entry.1.toList, (isSeparator c || isStructure c) = false) :
    Letter.bare d ∈ optionLetters entry ↔ ∃ value, entry.2 = some value ∧ d ∈ value.toList := by
  obtain ⟨key, value⟩ := entry
  have hkey := not_mem_of_clean hd h
  cases value with
  | none => simpa [optionLetters] using hkey
  | some value =>
      have hequals : Letter.bare d ≠ .bare '=' := bare_ne_separator hd (by decide)
      simp only [optionLetters, List.mem_append, hkey, List.mem_cons, hequals, false_or,
        List.mem_map, ofValue_eq_bare (not_special_of_structure hd).1, exists_eq_right,
        Option.some.injEq, exists_eq_left']

theorem FilterContent.mem_letters {f : FilterContent}
    (h : f.Avoids fun c => isSeparator c || isStructure c) :
    Letter.bare d ∈ f.letters ↔ ∃ entry ∈ f.options, ∃ value,
      entry.2 = some value ∧ d ∈ value.toList := by
  obtain ⟨name, options⟩ := f
  have hname := not_mem_of_clean hd h.name
  cases options with
  | nil => simpa [letters] using hname
  | cons entry more =>
      have hequals : Letter.bare d ≠ .bare '=' := bare_ne_separator hd (by decide)
      have hcolon : Letter.bare d ≠ .bare ':' := bare_ne_separator hd (by decide)
      simp only [letters, List.mem_append, hname, List.mem_cons, hequals, false_or,
        mem_intercalate_iff hcolon, List.mem_map]
      constructor
      · rintro ⟨_, ⟨e, he, rfl⟩, hmem⟩
        exact ⟨e, he, (mem_optionLetters hd (h.keys e (List.mem_cons.mpr he))).mp hmem⟩
      · rintro ⟨e, he, hmem⟩
        exact ⟨_, ⟨e, he, rfl⟩, (mem_optionLetters hd (h.keys e (List.mem_cons.mpr he))).mpr hmem⟩

/-- A semicolon or bracket stands by itself in filters with clean names and keys exactly if it stands in a
value. -/
theorem mem_contentLetters {fs : List FilterContent}
    (h : ∀ f ∈ fs, f.Avoids fun c => isSeparator c || isStructure c) :
    Letter.bare d ∈ contentLetters fs ↔ ∃ f ∈ fs, ∃ entry ∈ f.options, ∃ value,
      entry.2 = some value ∧ d ∈ value.toList := by
  rw [contentLetters, mem_intercalate_iff (bare_ne_separator hd (by decide))]
  simp only [List.mem_map, exists_exists_and_eq_and]
  exact exists_congr fun f => and_congr_right fun hf => FilterContent.mem_letters hd (h f hf)

end

/-! ### Clear chains are read -/

namespace Reading

variable {r : Reading}

/-- The labels of a clear chain hold nothing reserved between their brackets. -/
theorem Clear.inputs (clear : r.Clear) (h : r.WellFormed) :
    ∀ l ∈ r.inputs, ∃ body, l = labelText body ∧ ∀ c ∈ body.toList, isReserved c = false := by
  intro l hl
  obtain ⟨body, rfl⟩ := h.inputs l hl
  exact ⟨body, rfl, clear.labels body hl⟩

/-- No semicolon or bracket stands by itself in the filters of a clear chain. -/
theorem Clear.not_mem_contentLetters (clear : r.Clear) (h : r.WellFormed) {d : Char}
    (hd : isStructure d = true) : Letter.bare d ∉ contentLetters r.filters := by
  intro hmem
  obtain ⟨f, hf, entry, hentry, value, hvalue, hc⟩ := (mem_contentLetters hd h.filters).mp hmem
  rw [clear.values f hf entry hentry value hvalue d hc] at hd
  cases hd

theorem Clear.not_bracket (clear : r.Clear) (h : r.WellFormed) :
    ∀ l ∈ contentLetters r.filters, isBracket l = false := by
  intro l hl
  rw [isBracket, Bool.or_eq_false_iff, beq_eq_false_iff_ne, beq_eq_false_iff_ne]
  constructor
  · rintro rfl
    exact clear.not_mem_contentLetters h (by decide) hl
  · rintro rfl
    exact clear.not_mem_contentLetters h (by decide) hl

theorem WellFormed.avoids (h : r.WellFormed) : ∀ f ∈ r.filters, f.Avoids isSeparator := by
  intro f hf
  have havoids := h.filters f hf
  refine ⟨fun c hc => (Bool.or_eq_false_iff.mp (havoids.name c hc)).1, fun e he c hc => ?_⟩
  exact (Bool.or_eq_false_iff.mp (havoids.keys e he c hc)).1

theorem WellFormed.contentLetters_ne_nil (h : r.WellFormed) : contentLetters r.filters ≠ [] := by
  obtain ⟨f, more, hfilters⟩ := List.exists_cons_of_ne_nil h.nonempty
  have hname := h.names f (hfilters ▸ List.mem_cons_self)
  have hletters : f.letters ≠ [] := by
    intro hnil
    have hchars := List.map_eq_nil_iff.mp (List.append_eq_nil_iff.mp hnil).1
    exact hname (String.toList_eq_nil_iff.mp hchars)
  intro hnil
  rw [contentLetters, hfilters, List.map_cons] at hnil
  by_cases hmore : more = []
  · subst hmore
    rw [List.map_nil, List.intercalate_singleton] at hnil
    exact hletters hnil
  · rw [List.intercalate_cons_of_ne_nil (by simpa using hmore)] at hnil
    exact hletters (List.append_eq_nil_iff.mp (List.append_eq_nil_iff.mp hnil).1).1

/-- Labels are nothing or begin with a bracket. -/
theorem head?_labelsLetters {labels : List String} (h : ∀ l ∈ labels, ∃ body, l = labelText body) :
    labelsLetters labels = [] ∨ ∃ rest, labelsLetters labels = .bare '[' :: rest := by
  cases labels with
  | nil => exact Or.inl rfl
  | cons l more =>
      obtain ⟨body, rfl⟩ := h l List.mem_cons_self
      refine Or.inr ⟨(body.toList ++ [']']).map .bare ++ labelsLetters more, ?_⟩
      rw [labelsLetters, List.flatMap_cons, toList_labelText]
      rfl

/-- A clear chain is read from its letters. -/
theorem readStatement_letters (h : r.WellFormed) (clear : r.Clear) :
    readStatement r.letters = some r := by
  have hcontent : ∀ l ∈ contentLetters r.filters, (!isBracket l) = true := by
    intro l hl
    rw [clear.not_bracket h l hl]
    rfl
  have hbodies : ∀ l ∈ r.outputs, ∃ body, l = labelText body :=
    fun l hl => (h.outputs l hl).imp fun _ hbody => hbody.1
  have houtputs := head?_labelsLetters hbodies
  have hdrop : (labelsLetters r.outputs).dropWhile (fun l => !isBracket l)
      = labelsLetters r.outputs := by
    rcases houtputs with hnil | ⟨rest, hcons⟩
    · rw [hnil, List.dropWhile_nil]
    · rw [hcons, List.dropWhile_cons_of_neg (by decide)]
  have htake : (labelsLetters r.outputs).takeWhile (fun l => !isBracket l) = [] := by
    rcases houtputs with hnil | ⟨rest, hcons⟩
    · rw [hnil, List.takeWhile_nil]
    · rw [hcons, List.takeWhile_cons_of_neg (by decide)]
  have hfront : (contentLetters r.filters ++ labelsLetters r.outputs).head? ≠ some (.bare '[') := by
    obtain ⟨l, more, hl⟩ := List.exists_cons_of_ne_nil h.contentLetters_ne_nil
    rw [hl, List.cons_append, List.head?_cons]
    intro heq
    have hbracket := clear.not_bracket h l (hl ▸ List.mem_cons_self)
    rw [Option.some.inj heq] at hbracket
    cases hbracket
  have hbehind : readLabels none (labelsLetters r.outputs) = some (r.outputs, []) := by
    have hread : readLabels none (labelsLetters r.outputs ++ []) = some (r.outputs, []) :=
      readLabels_letters h.outputs (by simp)
    rwa [List.append_nil] at hread
  have hfilters : readFilters (contentLetters r.filters) = r.filters :=
    readFilters_letters h.avoids h.nonempty
  rw [readStatement, letters, List.append_assoc, readLabels_letters (clear.inputs h) hfront]
  simp only [Option.bind_eq_bind, Option.bind_some, List.dropWhile_append_of_pos hcontent,
    List.takeWhile_append_of_pos hcontent, hdrop, htake, hbehind, List.append_nil, hfilters, if_true]
  rfl

end Reading

end MediaCommand
