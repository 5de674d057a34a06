/-
When chains are read back.

Clear chains are read back, and no others.  That the others are not is a matter of counting.  The reader
loses nothing but backslashes, so if a label holds one, the reader finds fewer letters than the chains
have.  It finds a label for every two brackets that stand by themselves and a chain for every semicolon
and one more; so where one of these stands by itself in a value or a label, it finds a label or a chain
too many.
-/
import Mathlib.Algebra.GroupWithZero.Nat
import Mathlib.Algebra.Order.BigOperators.Group.List
import Mathlib.Algebra.Order.Group.Nat
import MediaCommand.Proofs.GraphReading

namespace MediaCommand

open Letter

/-! ### Sums over lists -/

/-- If no number is above another and the sums are the same, so are the numbers. -/
theorem eq_of_sum_eq {α : Type} {f g : α → Nat} {l : List α} (hle : ∀ x ∈ l, f x ≤ g x)
    (hsum : (l.map g).sum ≤ (l.map f).sum) : ∀ x ∈ l, f x = g x := by
  induction l with
  | nil => exact fun _ hx => nomatch hx
  | cons a rest ih =>
      have hrest : (rest.map f).sum ≤ (rest.map g).sum :=
        List.sum_le_sum fun x hx => hle x (List.mem_cons_of_mem a hx)
      have ha := hle a List.mem_cons_self
      rw [List.map_cons, List.map_cons, List.sum_cons, List.sum_cons] at hsum
      intro x hx
      rcases List.mem_cons.mp hx with rfl | hin
      · omega
      · exact ih (fun y hy => hle y (List.mem_cons_of_mem a hy)) (by omega) x hin

/-- What is counted in lists between separators that count. -/
theorem countP_intercalate {α : Type} {p : α → Bool} {sep : α} (hsep : p sep = true)
    (ls : List (List α)) :
    ([sep].intercalate ls).countP p = (ls.map (List.countP p)).sum + (ls.length - 1) := by
  induction ls with
  | nil => rfl
  | cons l more ih =>
      by_cases hmore : more = []
      · subst hmore
        simp
      · have hpos : 0 < more.length := List.length_pos_iff.mpr hmore
        rw [List.intercalate_cons_of_ne_nil hmore, List.countP_append, List.countP_append,
          List.countP_singleton, if_pos hsep, ih, List.map_cons, List.sum_cons, List.length_cons]
        omega

theorem length_intercalate {α : Type} (sep : α) (ls : List (List α)) :
    ([sep].intercalate ls).length = (ls.map List.length).sum + (ls.length - 1) := by
  have hcount : ([sep].intercalate ls).countP (fun _ => true) =
      (ls.map (List.countP fun _ => true)).sum + (ls.length - 1) := countP_intercalate rfl ls
  simpa only [List.countP_true] using hcount

/-- A list is split into one part more than it has separators. -/
theorem length_splitOn {α : Type} [BEq α] [LawfulBEq α] (sep : α) (l : List α) :
    (l.splitOn sep).length = l.count sep + 1 := by
  induction l with
  | nil => rfl
  | cons a rest ih =>
      rw [List.splitOn_cons_eq_if_modifyHead]
      by_cases ha : a = sep
      · subst ha
        rw [if_pos (beq_self_eq_true a), List.length_cons, ih, List.count_cons_self]
      · rw [if_neg (by simpa using ha), List.length_modifyHead, ih, List.count_cons_of_ne ha]

/-! ### The reader loses backslashes only -/

theorem length_plain (ls : List Letter) : (plain ls).toList.length = ls.length := by
  rw [plain, String.toList_ofList, List.length_map]

/-- A text is as long as what stands in front of the equals sign and behind it. -/
theorem length_cut (ls : List Letter) : ls.length = (cut ls).1.length +
    match (cut ls).2 with
    | none => 0
    | some rest => rest.length + 1 := by
  have hall := congrArg List.length (List.takeWhile_append_dropWhile (p := fun l : Letter =>
    l.char != '=') (l := ls))
  rw [List.length_append] at hall
  unfold cut
  cases hdrop : ls.dropWhile fun l => l.char != '=' with
  | nil => rfl
  | cons l rest =>
      rw [hdrop, List.length_cons] at hall
      exact hall.symm

theorem length_readOption (ls : List Letter) : (optionLetters (readOption ls)).length = ls.length := by
  rw [length_cut ls, readOption, optionLetters, List.length_append, List.length_map, length_plain]
  cases (cut ls).2 with
  | none => rfl
  | some rest =>
      simp only [Option.map_some, List.length_cons, List.length_map, length_plain]

/-- Parts that are written as long as they were read make up as much. -/
theorem length_intercalate_splitOn {α : Type} {read : List Letter → α} {written : α → List Letter}
    (h : ∀ ls, (written (read ls)).length = ls.length) (sep : Letter) (ls : List Letter) :
    ([sep].intercalate (((ls.splitOn sep).map read).map written)).length = ls.length := by
  have hjoin : [sep].intercalate (ls.splitOn sep) = ls := List.intercalate_splitOn sep
  conv_rhs => rw [← hjoin]
  rw [length_intercalate, length_intercalate, List.length_map, List.length_map, List.map_map,
    List.map_map]
  congr 2
  exact List.map_congr_left fun part _ => h part

theorem length_readFilter (ls : List Letter) : (readFilter ls).letters.length = ls.length := by
  rw [length_cut ls, FilterContent.letters, List.length_append, readFilter]
  dsimp only
  rw [List.length_map, length_plain]
  cases (cut ls).2 with
  | none => rfl
  | some rest =>
      have hoptions := length_intercalate_splitOn length_readOption (.bare ':') rest
      obtain ⟨part, parts, hparts⟩ :=
        List.exists_cons_of_ne_nil (List.splitOn_ne_nil (Letter.bare ':') rest)
      simp only [hparts, List.map_cons] at hoptions ⊢
      rw [List.length_cons, hoptions]

theorem length_readFilters (ls : List Letter) :
    (contentLetters (readFilters ls)).length = ls.length :=
  length_intercalate_splitOn length_readFilter (.bare ',') ls

theorem labelsLetters_cons (l : String) (labels : List String) :
    labelsLetters (l :: labels) = l.toList.map .bare ++ labelsLetters labels := List.flatMap_cons

/-- Labels read are as long as what was read. -/
theorem length_readLabels {ls : List Letter} : ∀ {inside : Option (List Letter)} {labels : List String}
    {rest : List Letter}, readLabels inside ls = some (labels, rest) →
      ls.length + (inside.map fun read => read.length + 1).getD 0
        = (labelsLetters labels).length + rest.length := by
  induction ls with
  | nil =>
      intro inside labels rest h
      cases inside with
      | none => cases h; rfl
      | some read => cases h
  | cons l more ih =>
      intro inside labels rest h
      cases inside with
      | none =>
          rw [readLabels] at h
          split at h
          · have hmore := ih h
            simpa only [Option.map_some, Option.map_none, Option.getD_some, Option.getD_none,
              List.length_nil, List.length_cons] using hmore
          · cases h
            simp [labelsLetters]
      | some read =>
          rw [readLabels] at h
          split at h
          · obtain ⟨⟨labels', rest'⟩, hread, heq⟩ := Option.map_eq_some_iff.mp h
            cases heq
            have hmore := ih hread
            simp only [Option.map_some, Option.map_none, Option.getD_some, Option.getD_none,
              labelsLetters_cons, List.length_append, List.length_map, toList_labelText,
              List.length_cons, List.length_nil, length_plain] at hmore ⊢
            omega
          · split at h
            · cases h
            · have hmore := ih h
              simp only [Option.map_some, Option.getD_some, List.length_append, List.length_cons,
                List.length_nil] at hmore ⊢
              omega

/-- Every bracket that stands by itself begins or ends a label. -/
theorem brackets_readLabels {ls : List Letter} : ∀ {inside : Option (List Letter)}
    {labels : List String} {rest : List Letter}, readLabels inside ls = some (labels, rest) →
      ls.countP isBracket + (inside.map fun _ => 1).getD 0
        = 2 * labels.length + rest.countP isBracket := by
  induction ls with
  | nil =>
      intro inside labels rest h
      cases inside with
      | none => cases h; rfl
      | some read => cases h
  | cons l more ih =>
      intro inside labels rest h
      cases inside with
      | none =>
          rw [readLabels] at h
          split at h
          · rename_i hl
            subst hl
            have hmore := ih h
            rw [List.countP_cons_of_pos (by decide)]
            simpa using hmore
          · cases h
            simp
      | some read =>
          rw [readLabels] at h
          split at h
          · rename_i hl
            subst hl
            obtain ⟨⟨labels', rest'⟩, hread, heq⟩ := Option.map_eq_some_iff.mp h
            cases heq
            have hmore := ih hread
            rw [List.countP_cons_of_pos (by decide), List.length_cons]
            simp only [Option.map_none, Option.map_some, Option.getD_none, Option.getD_some] at hmore ⊢
            omega
          · rename_i hclose
            split at h
            · cases h
            · rename_i hopen
              have hmore := ih h
              rw [List.countP_cons_of_neg (by simp [isBracket, hclose, hopen])]
              simpa using hmore

/-! ### What a reading tells of the letters -/

theorem readStatement_some {ls : List Letter} {r : Reading} (h : readStatement ls = some r) :
    ∃ rest, readLabels none ls = some (r.inputs, rest) ∧
      readLabels none (rest.dropWhile fun l => !isBracket l) = some (r.outputs, []) ∧
      r.filters = readFilters (rest.takeWhile fun l => !isBracket l) := by
  obtain ⟨⟨inputs, rest⟩, hinputs, h⟩ := Option.bind_eq_some_iff.mp h
  obtain ⟨⟨outputs, left⟩, houtputs, h⟩ := Option.bind_eq_some_iff.mp h
  dsimp only at houtputs h
  split at h
  · rename_i hleft
    subst hleft
    cases h
    exact ⟨rest, hinputs, houtputs, rfl⟩
  · cases h

/-- A chain has as many letters as were read. -/
theorem length_readStatement {ls : List Letter} {r : Reading} (h : readStatement ls = some r) :
    r.letters.length = ls.length := by
  obtain ⟨rest, hinputs, houtputs, hfilters⟩ := readStatement_some h
  have hfront := length_readLabels hinputs
  have hbehind := length_readLabels houtputs
  have hrest := congrArg List.length
    (List.takeWhile_append_dropWhile (p := fun l => !isBracket l) (l := rest))
  have hmiddle := length_readFilters (rest.takeWhile fun l => !isBracket l)
  rw [← hfilters] at hmiddle
  rw [List.length_append] at hrest
  rw [Reading.letters, List.length_append, List.length_append, hmiddle]
  simp only [Option.map_none, Option.getD_none, List.length_nil] at hfront hbehind
  omega

/-- Two brackets stand by themselves for each label that is read. -/
theorem brackets_readStatement {ls : List Letter} {r : Reading} (h : readStatement ls = some r) :
    ls.countP isBracket = 2 * (r.inputs.length + r.outputs.length) := by
  obtain ⟨rest, hinputs, houtputs, -⟩ := readStatement_some h
  have hfront := brackets_readLabels hinputs
  have hbehind := brackets_readLabels houtputs
  have hmiddle : (rest.takeWhile fun l => !isBracket l).countP isBracket = 0 := by
    rw [List.countP_eq_zero]
    intro l hl
    simpa using List.mem_takeWhile_imp hl
  have hrest := congrArg (List.countP isBracket)
    (List.takeWhile_append_dropWhile (p := fun l => !isBracket l) (l := rest))
  rw [List.countP_append, hmiddle] at hrest
  simp only [Option.map_none, Option.getD_none, List.countP_nil] at hfront hbehind
  omega

/-- Readings of all parts of a list are readings part by part. -/
theorem mapM_some {α β : Type} {f : α → Option β} {l : List α} :
    ∀ {ys : List β}, l.mapM f = some ys ↔ List.Forall₂ (fun x y => f x = some y) l ys := by
  induction l with
  | nil =>
      intro ys
      rw [List.mapM_nil, List.forall₂_nil_left_iff]
      exact ⟨fun h => (Option.some.inj h).symm, fun h => h ▸ rfl⟩
  | cons a rest ih =>
      intro ys
      rw [List.mapM_cons, List.forall₂_cons_left_iff]
      constructor
      · intro h
        obtain ⟨b, hb, h⟩ := Option.bind_eq_some_iff.mp h
        obtain ⟨bs, hbs, h⟩ := Option.bind_eq_some_iff.mp h
        exact ⟨b, bs, hb, ih.mp hbs, (Option.some.inj h).symm⟩
      · rintro ⟨b, bs, hb, hbs, rfl⟩
        exact Option.bind_eq_some_iff.mpr ⟨b, hb, Option.bind_eq_some_iff.mpr ⟨bs, ih.mpr hbs, rfl⟩⟩

/-- The letters of chains between semicolons. -/
def graphLetters (rs : List Reading) : List Letter :=
  [.bare ';'].intercalate (rs.map Reading.letters)

theorem readStatements_some {ls : List Letter} {rs : List Reading} (hne : rs ≠ [])
    (h : readStatements ls = some rs) :
    List.Forall₂ (fun part r => readStatement part = some r) (ls.splitOn (.bare ';')) rs := by
  unfold readStatements at h
  split at h
  · cases h
    exact absurd rfl hne
  · exact mapM_some.mp h

/-- A graph has as many letters as were read. -/
theorem length_readStatements {ls : List Letter} {rs : List Reading} (hne : rs ≠ [])
    (h : readStatements ls = some rs) : (graphLetters rs).length = ls.length := by
  have hparts := readStatements_some hne h
  have hlengths : (ls.splitOn (.bare ';')).map List.length = rs.map fun r => r.letters.length := by
    rw [← List.forall₂_eq_eq_eq, List.forall₂_map_left_iff, List.forall₂_map_right_iff]
    exact hparts.imp fun _ _ hread => (length_readStatement hread).symm
  have hjoin : [Letter.bare ';'].intercalate (ls.splitOn (.bare ';')) = ls :=
    List.intercalate_splitOn (Letter.bare ';')
  conv_rhs => rw [← hjoin]
  rw [graphLetters, length_intercalate, length_intercalate, List.map_map, List.length_map,
    hparts.length_eq, hlengths]
  rfl

/-- One semicolon less stands by itself than chains are read. -/
theorem count_readStatements {ls : List Letter} {rs : List Reading} (hne : rs ≠ [])
    (h : readStatements ls = some rs) : ls.count (.bare ';') + 1 = rs.length := by
  rw [← length_splitOn, (readStatements_some hne h).length_eq]

/-! ### Letters of labels -/

theorem tail_of_plain {c : Char} {more : List Char} (h : (c :: more).getLast? ≠ some '\\')
    (hplain : ∀ d tail, c = '\\' → more = d :: tail → False) :
    c ≠ '\\' ∧ more.getLast? ≠ some '\\' := by
  constructor
  · rintro rfl
    cases more with
    | nil => exact h rfl
    | cons d tail => exact hplain d tail rfl rfl
  · intro hlast
    refine h ?_
    rw [List.getLast?_cons, hlast]
    rfl

/-- Characters that do not end in a backslash are letters of their own, whatever follows. -/
theorem ofChars_append {cs : List Char} (h : cs.getLast? ≠ some '\\') (rest : List Char) :
    ofChars (cs ++ rest) = ofChars cs ++ ofChars rest := by
  induction cs using ofChars.induct with
  | case1 => rfl
  | case2 c more ih =>
      have hmore : more.getLast? ≠ some '\\' := by
        intro hlast
        refine h ?_
        rw [List.getLast?_cons, List.getLast?_cons, hlast]
        rfl
      rw [List.cons_append, List.cons_append, ofChars, ofChars, ih hmore, List.cons_append]
  | case3 c more hplain ih =>
      obtain ⟨hc, hmore⟩ := tail_of_plain h hplain
      rw [List.cons_append, ofChars_cons hc, ofChars_cons hc, ih hmore, List.cons_append]

theorem length_ofChars (cs : List Char) : (ofChars cs).length ≤ cs.length := by
  induction cs using ofChars.induct with
  | case1 => exact Nat.le_refl 0
  | case2 c more ih =>
      rw [ofChars, List.length_cons, List.length_cons, List.length_cons]
      omega
  | case3 c more hplain ih =>
      rw [ofChars, List.length_cons, List.length_cons]
      · omega
      · exact hplain

/-- Characters that are as many letters hold no backslash but at the end. -/
theorem not_mem_of_length {cs : List Char} (h : cs.getLast? ≠ some '\\')
    (hlength : (ofChars cs).length = cs.length) : '\\' ∉ cs := by
  induction cs using ofChars.induct with
  | case1 => simp
  | case2 c more ih =>
      have hle := length_ofChars more
      rw [ofChars, List.length_cons, List.length_cons, List.length_cons] at hlength
      omega
  | case3 c more hplain ih =>
      obtain ⟨hc, hmore⟩ := tail_of_plain h hplain
      rw [ofChars_cons hc, List.length_cons, List.length_cons] at hlength
      intro hmem
      rcases List.mem_cons.mp hmem with heq | hin
      · exact hc heq.symm
      · exact ih hmore (by omega) hin

theorem getLast?_labelText (body : String) : (labelText body).toList.getLast? ≠ some '\\' := by
  rw [toList_labelText, List.getLast?_concat]
  decide

/-- Labels one after the other are the letters of each. -/
theorem spells_labels {labels : List String} (h : ∀ l ∈ labels, ∃ body, l = labelText body) :
    Spells (String.join labels) (labels.flatMap fun l => ofChars l.toList) := by
  induction labels with
  | nil => exact fun _ => rfl
  | cons l more ih =>
      obtain ⟨body, rfl⟩ := h l List.mem_cons_self
      have hlabel : Spells (labelText body) (ofChars (labelText body).toList) :=
        ofChars_append (getLast?_labelText body)
      rw [String.join_cons, List.flatMap_cons]
      exact hlabel.append (ih fun x hx => h x (List.mem_cons_of_mem _ hx))

theorem not_mem_labelText {body : String} (h : ∀ c ∈ body.toList, isReserved c = false) :
    ∀ c ∈ (labelText body).toList, c ≠ '\\' := by
  rintro c hc rfl
  rcases mem_labelText.mp hc with hopen | hbody | hclose
  · exact absurd hopen (by decide)
  · exact absurd (h _ hbody) (by decide)
  · exact absurd hclose (by decide)

namespace Reading

variable {r : Reading}

/-- The letters of a chain. -/
def spelled (r : Reading) : List Letter :=
  (r.inputs.flatMap fun l => ofChars l.toList) ++ contentLetters r.filters ++ labelsLetters r.outputs

theorem WellFormed.spells (h : r.WellFormed) : Spells r.text r.spelled := by
  have houtputs : (r.outputs.flatMap fun l => ofChars l.toList) = labelsLetters r.outputs := by
    refine List.flatMap_congr fun l hl => ?_
    obtain ⟨body, rfl, hbody⟩ := h.outputs l hl
    exact (Spells.bare (not_mem_labelText hbody)).letters
  have hbehind : Spells (String.join r.outputs) (labelsLetters r.outputs) := by
    rw [← houtputs]
    refine spells_labels fun l hl => ?_
    obtain ⟨body, hbody, -⟩ := h.outputs l hl
    exact ⟨body, hbody⟩
  exact ((spells_labels h.inputs).append (spells_contents h.avoids)).append hbehind

/-- A chain has at most one letter for each character of its labels, and only fewer if one of them holds
a backslash. -/
theorem length_spelled (h : r.WellFormed) : r.spelled.length ≤ r.letters.length ∧
    (r.letters.length ≤ r.spelled.length → ∀ l ∈ r.inputs, '\\' ∉ l.toList) := by
  have hle : ∀ l ∈ r.inputs, (ofChars l.toList).length ≤ (l.toList.map Letter.bare).length := by
    intro l _
    rw [List.length_map]
    exact length_ofChars l.toList
  have hsum := List.sum_le_sum hle
  simp only [spelled, letters, labelsLetters, List.length_append, List.length_flatMap]
  refine ⟨by omega, fun hge l hl => ?_⟩
  have hsame := eq_of_sum_eq hle (by omega) l hl
  obtain ⟨body, rfl⟩ := h.inputs l hl
  rw [List.length_map] at hsame
  exact not_mem_of_length (getLast?_labelText body) hsame

theorem spelled_eq (h : ∀ l ∈ r.inputs, '\\' ∉ l.toList) : r.spelled = r.letters := by
  have hinputs : (r.inputs.flatMap fun l => ofChars l.toList) = labelsLetters r.inputs := by
    refine List.flatMap_congr fun l hl => ?_
    exact (Spells.bare fun c hc heq => h l hl (heq ▸ hc)).letters
  rw [spelled, letters, hinputs]

/-- The brackets of a label. -/
def brackets (l : String) : Nat := (l.toList.map Letter.bare).countP isBracket

theorem brackets_labelText (body : String) :
    brackets (labelText body) = 2 + (body.toList.map Letter.bare).countP isBracket := by
  rw [brackets, toList_labelText, List.cons_append, List.map_cons,
    List.countP_cons_of_pos (by decide), List.map_append, List.countP_append, List.map_singleton,
    List.countP_singleton, if_pos (by decide)]
  omega

/-- Labels have two brackets each, and no more only if no further bracket stands in one of them. -/
theorem two_brackets {labels : List String} (h : ∀ l ∈ labels, ∃ body, l = labelText body) :
    2 * labels.length ≤ (labelsLetters labels).countP isBracket ∧
      ((labelsLetters labels).countP isBracket ≤ 2 * labels.length → ∀ body,
        labelText body ∈ labels → (body.toList.map Letter.bare).countP isBracket = 0) := by
  have hle : ∀ l ∈ labels, (fun _ => 2) l ≤ brackets l := by
    intro l hl
    obtain ⟨body, rfl⟩ := h l hl
    rw [brackets_labelText]
    exact Nat.le_add_right 2 _
  have hsum := List.sum_le_sum hle
  have htwo : (labels.map fun _ => 2).sum = 2 * labels.length := by
    rw [List.map_const', List.sum_replicate_nat, Nat.mul_comm]
  have hcount : (labelsLetters labels).countP isBracket = (labels.map brackets).sum := by
    rw [labelsLetters, List.countP_flatMap]
    rfl
  rw [hcount]
  rw [htwo] at hsum
  refine ⟨hsum, fun hge body hbody => ?_⟩
  have hsame := eq_of_sum_eq hle (by rw [htwo]; exact hge) _ hbody
  rw [brackets_labelText] at hsame
  omega

/-- Letters without brackets and semicolons have no character of the structure by itself. -/
theorem not_structure_of_bare {ls : List Letter} {c : Char} (hbrackets : ls.countP isBracket = 0)
    (hsemicolon : Letter.bare ';' ∉ ls) (hmem : Letter.bare c ∈ ls) : isStructure c = false := by
  have hc := List.countP_eq_zero.mp hbrackets _ hmem
  have hne : c ≠ ';' := by
    rintro rfl
    exact hsemicolon hmem
  simp only [isBracket, Bool.or_eq_true, beq_iff_eq, Letter.bare.injEq, not_or] at hc
  simp [isStructure, hc, hne]

/-- A chain that is read from its letters is clear if no semicolon stands by itself and no backslash in a
label. -/
theorem clear_of_read (h : r.WellFormed) (hlabels : ∀ l ∈ r.inputs, '\\' ∉ l.toList)
    (hsemicolon : Letter.bare ';' ∉ r.letters) (hread : readStatement r.letters = some r) :
    r.Clear := by
  have hbrackets := brackets_readStatement hread
  obtain ⟨hinputs, hplain⟩ := two_brackets h.inputs
  have hbodies : ∀ l ∈ r.outputs, ∃ body, l = labelText body :=
    fun l hl => (h.outputs l hl).imp fun _ hbody => hbody.1
  obtain ⟨houtputs, -⟩ := two_brackets hbodies
  rw [letters, List.countP_append, List.countP_append] at hbrackets
  have hcontent : (contentLetters r.filters).countP isBracket = 0 := by omega
  rw [letters, List.mem_append, List.mem_append, not_or, not_or] at hsemicolon
  constructor
  · intro body hbody c hc
    have hsemicolons : Letter.bare ';' ∉ body.toList.map Letter.bare := by
      intro hmem
      obtain ⟨d, hd, heq⟩ := List.mem_map.mp hmem
      cases heq
      have hin : ';' ∈ (labelText body).toList := mem_labelText.mpr (Or.inr (Or.inl hd))
      exact hsemicolon.1.1 (mem_labelsLetters.mpr ⟨_, hbody, hin⟩)
    have hstructure : isStructure c = false :=
      not_structure_of_bare (hplain (by omega) body hbody) hsemicolons (List.mem_map_of_mem hc)
    have hslash : c ≠ '\\' := by
      rintro rfl
      exact hlabels _ hbody (mem_labelText.mpr (Or.inr (Or.inl hc)))
    simp [isReserved, hstructure, hslash]
  · intro f hf entry hentry value hvalue c hc
    by_contra hstructure
    rw [Bool.not_eq_false] at hstructure
    have hmem := (mem_contentLetters hstructure h.filters).mpr ⟨f, hf, entry, hentry, value, hvalue, hc⟩
    rw [not_structure_of_bare hcontent hsemicolon.1.2 hmem] at hstructure
    cases hstructure

end Reading

/-! ### Reading back is exact -/

/-- The text of chains between semicolons. -/
def readingsText (rs : List Reading) : String := ";".intercalate (rs.map Reading.text)

theorem letters_readingsText {rs : List Reading} (h : ∀ r ∈ rs, r.WellFormed) :
    ofChars (readingsText rs).toList = [.bare ';'].intercalate (rs.map Reading.spelled) := by
  have hsemicolon : Spells ";" [.bare ';'] := .bare (by simp)
  exact (spells_intercalate hsemicolon fun r hr => (h r hr).spells).letters

/-- Clear chains hold no semicolon by itself. -/
theorem Reading.Clear.not_mem_letters {r : Reading} (clear : r.Clear) (h : r.WellFormed) :
    Letter.bare ';' ∉ r.letters := by
  have hlabels : ∀ {labels : List String}, (∀ l ∈ labels, ∃ body, l = labelText body ∧
      ∀ c ∈ body.toList, isReserved c = false) → Letter.bare ';' ∉ labelsLetters labels := by
    intro labels hall hmem
    obtain ⟨l, hl, hc⟩ := mem_labelsLetters.mp hmem
    obtain ⟨body, rfl, hbody⟩ := hall l hl
    rcases mem_labelText.mp hc with hopen | hin | hclose
    · exact absurd hopen (by decide)
    · exact absurd (hbody _ hin) (by decide)
    · exact absurd hclose (by decide)
  rw [letters, List.mem_append, List.mem_append, not_or, not_or]
  exact ⟨⟨hlabels (clear.inputs h), clear.not_mem_contentLetters h (by decide)⟩, hlabels h.outputs⟩

/-- Chains that hold no semicolon by themselves are told apart at the semicolons between them. -/
theorem splitOn_graphLetters {rs : List Reading} (hne : rs ≠ [])
    (h : ∀ r ∈ rs, Letter.bare ';' ∉ r.letters) :
    (graphLetters rs).splitOn (.bare ';') = rs.map Reading.letters := by
  refine List.splitOn_intercalate _ (fun ls hls => ?_) (by simpa using hne)
  obtain ⟨r, hr, rfl⟩ := List.mem_map.mp hls
  exact h r hr

/-- Clear chains are read from their text. -/
theorem readGraph_of_clear {rs : List Reading} (h : ∀ r ∈ rs, r.WellFormed)
    (clear : ∀ r ∈ rs, r.Clear) : readGraph (readingsText rs) = some rs := by
  have hspelled : rs.map Reading.spelled = rs.map Reading.letters := by
    refine List.map_congr_left fun r hr => Reading.spelled_eq fun l hl hslash => ?_
    obtain ⟨body, rfl, hbody⟩ := (clear r hr).inputs (h r hr) l hl
    exact not_mem_labelText hbody _ hslash rfl
  rw [readGraph, letters_readingsText h, hspelled, ← graphLetters]
  by_cases hne : rs = []
  · subst hne
    rfl
  have hsplit := splitOn_graphLetters hne fun r hr => (clear r hr).not_mem_letters (h r hr)
  have hread : (rs.map Reading.letters).mapM readStatement = some rs := by
    rw [mapM_some, List.forall₂_map_left_iff, List.forall₂_same]
    exact fun r hr => Reading.readStatement_letters (h r hr) (clear r hr)
  unfold readStatements
  split
  · -- No chain has a text without letters.
    rename_i hnil
    rw [hnil] at hsplit
    obtain ⟨r, more, rfl⟩ := List.exists_cons_of_ne_nil hne
    obtain ⟨hfirst, -⟩ := List.cons_eq_cons.mp hsplit
    have hletters := (List.append_eq_nil_iff.mp (List.append_eq_nil_iff.mp hfirst.symm).1).2
    exact absurd hletters (h r List.mem_cons_self).contentLetters_ne_nil
  · rw [hsplit]
    exact hread

/-- If chains are written in as many letters as they have, no label of an input holds a backslash. -/
theorem no_backslash_of_length {rs : List Reading} (h : ∀ r ∈ rs, r.WellFormed)
    (hlength : (graphLetters rs).length = ([.bare ';'].intercalate (rs.map Reading.spelled)).length) :
    ∀ r ∈ rs, ∀ l ∈ r.inputs, '\\' ∉ l.toList := by
  rw [graphLetters, length_intercalate, length_intercalate, List.length_map, List.length_map,
    List.map_map, List.map_map] at hlength
  have hsum : (rs.map fun r => r.letters.length).sum ≤ (rs.map fun r => r.spelled.length).sum := by
    simpa [Function.comp_def] using hlength.le
  have hsame := eq_of_sum_eq (fun r hr => (Reading.length_spelled (h r hr)).1) hsum
  exact fun r hr => (Reading.length_spelled (h r hr)).2 (hsame r hr).ge

/-- If there are only the semicolons that separate chains, no chain holds one by itself. -/
theorem no_semicolon_of_count {rs : List Reading} (hne : rs ≠ [])
    (hcount : (graphLetters rs).count (.bare ';') + 1 = rs.length) :
    ∀ r ∈ rs, Letter.bare ';' ∉ r.letters := by
  rw [graphLetters, List.count_eq_countP, countP_intercalate (by decide), List.length_map,
    List.map_map] at hcount
  have hpos : 0 < rs.length := List.length_pos_iff.mpr hne
  have hsum : (rs.map (List.countP (· == Letter.bare ';') ∘ Reading.letters)).sum
      ≤ (rs.map fun _ => 0).sum := by omega
  have hzero := eq_of_sum_eq (fun _ _ => Nat.zero_le _) hsum
  intro r hr hmem
  exact List.countP_eq_zero.mp (hzero r hr).symm _ hmem (beq_self_eq_true _)

/-- Chains that are read from their text are clear. -/
theorem clear_of_readGraph {rs : List Reading} (h : ∀ r ∈ rs, r.WellFormed)
    (hread : readGraph (readingsText rs) = some rs) : ∀ r ∈ rs, r.Clear := by
  by_cases hne : rs = []
  · subst hne
    exact fun r hr => nomatch hr
  rw [readGraph, letters_readingsText h] at hread
  -- As many letters are read as the chains have, so the text is in the letters of the chains.
  have hlabels := no_backslash_of_length h (length_readStatements hne hread)
  have hspelled : rs.map Reading.spelled = rs.map Reading.letters :=
    List.map_congr_left fun r hr => Reading.spelled_eq (hlabels r hr)
  rw [hspelled, ← graphLetters] at hread
  -- As many semicolons stand by themselves as separate the chains, so the reader divides these.
  have hsemicolon := no_semicolon_of_count hne (count_readStatements hne hread)
  have hparts := readStatements_some hne hread
  rw [splitOn_graphLetters hne hsemicolon, List.forall₂_map_left_iff, List.forall₂_same] at hparts
  exact fun r hr => Reading.clear_of_read (h r hr) (hlabels r hr) (hsemicolon r hr) (hparts r hr)

end MediaCommand
