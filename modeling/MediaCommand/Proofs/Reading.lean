/-
Filters read back from their text.

The filters of a chain are written with three separators: commas between filters, colons between the
options of one, and equals signs between a name or key and what belongs to it.  A value may hold any of
these, and takes backslashes for it; a backslash of the value takes one as well.  So the text is read
letter by letter, a backslash and the character after it being one letter.  A separator that is written
between two parts is a letter by itself, and the same character in a value is not.

An equals sign takes no backslash.  It is found because it is the first: nothing but a name or a key
stands in front of it.
-/
import Mathlib.Data.List.TakeWhile
import MediaCommand.Proofs.Calls
import MediaCommand.Scene

namespace MediaCommand

/-! ### Letters -/

/-- A letter of a text: a character by itself, or one behind a backslash. -/
inductive Letter
  | bare (c : Char)
  | escaped (c : Char)
  deriving DecidableEq

namespace Letter

/-- The character of a letter. -/
def char : Letter → Char
  | bare c => c
  | escaped c => c

/-- The letters of characters.  A backslash at the end is a letter by itself. -/
def ofChars : List Char → List Letter
  | [] => []
  | '\\' :: c :: rest => escaped c :: ofChars rest
  | c :: rest => bare c :: ofChars rest

/-- Letters without their backslashes. -/
def plain (ls : List Letter) : String := String.ofList (ls.map char)

theorem ofChars_cons {c : Char} (h : c ≠ '\\') (rest : List Char) :
    ofChars (c :: rest) = bare c :: ofChars rest := by
  rw [ofChars]
  rintro d rest' rfl
  exact absurd rfl h

/-- A text is written in letters, whatever follows it. -/
def Spells (text : String) (ls : List Letter) : Prop :=
  ∀ rest, ofChars (text.toList ++ rest) = ls ++ ofChars rest

namespace Spells

variable {text text' : String} {ls ls' : List Letter}

theorem letters (h : Spells text ls) : ofChars text.toList = ls := by
  have hall := h []
  rwa [List.append_nil, ofChars, List.append_nil] at hall

theorem append (h : Spells text ls) (h' : Spells text' ls') :
    Spells (text ++ text') (ls ++ ls') := by
  intro rest
  rw [String.toList_append, List.append_assoc, h, h', List.append_assoc]

/-- Characters other than the backslash are letters by themselves. -/
theorem bare (h : ∀ c ∈ text.toList, c ≠ '\\') : Spells text (text.toList.map Letter.bare) := by
  intro rest
  generalize text.toList = cs at h
  induction cs with
  | nil => rfl
  | cons c more ih =>
      rw [List.cons_append, ofChars_cons (h c List.mem_cons_self),
        ih fun d hd => h d (List.mem_cons_of_mem c hd)]
      rfl

end Spells

/-- The letter in which a character of a value is written. -/
def ofValue (c : Char) : Letter := if Expression.isSpecial c then escaped c else bare c

theorem char_ofValue (c : Char) : (ofValue c).char = c := by
  unfold ofValue
  split <;> rfl

theorem char_bare (c : Char) : (bare c).char = c := rfl

theorem ofValue_ne_bare {c d : Char} (h : Expression.isSpecial d = true) : ofValue c ≠ bare d := by
  unfold ofValue
  split
  · exact fun heq => nomatch heq
  · rename_i hc
    intro heq
    cases heq
    exact hc h

/-- A value is written in the letters of its characters. -/
theorem spells_escape (s : String) : Spells (Expression.escape s) (s.toList.map ofValue) := by
  intro rest
  rw [Expression.escape, String.toList_ofList]
  generalize s.toList = cs
  induction cs with
  | nil => rfl
  | cons c more ih =>
      have hcons : Expression.escapeChars (c :: more)
          = (if Expression.isSpecial c then ['\\', c] else [c]) ++ Expression.escapeChars more :=
        List.flatMap_cons
      rw [hcons, List.map_cons, ofValue]
      by_cases hc : Expression.isSpecial c = true
      · rw [if_pos hc, if_pos hc, List.append_assoc, List.cons_append, List.cons_append, ofChars,
          List.nil_append, ih]
        rfl
      · have hne : c ≠ '\\' := by
          rintro rfl
          exact hc (by decide)
        rw [if_neg hc, if_neg hc, List.append_assoc, List.cons_append, ofChars_cons hne,
          List.nil_append, ih]
        rfl

/-- Texts between separators are written in their letters between separators. -/
theorem spells_intercalate {α : Type} {text : α → String} {ls : α → List Letter} {sep : String}
    {c : Char} (hsep : Spells sep [bare c]) {xs : List α} (h : ∀ x ∈ xs, Spells (text x) (ls x)) :
    Spells (sep.intercalate (xs.map text)) ([bare c].intercalate (xs.map ls)) := by
  induction xs with
  | nil => exact fun _ => rfl
  | cons x more ih =>
      have hx := h x List.mem_cons_self
      by_cases hmore : more = []
      · subst hmore
        rw [List.map_singleton, List.map_singleton, String.intercalate_singleton,
          List.intercalate_singleton]
        exact hx
      · have htexts : more.map text ≠ [] := fun hnil => hmore (List.map_eq_nil_iff.mp hnil)
        have hletters : more.map ls ≠ [] := fun hnil => hmore (List.map_eq_nil_iff.mp hnil)
        rw [List.map_cons, String.intercalate_cons_of_ne_nil htexts, List.map_cons,
          List.intercalate_cons_of_ne_nil hletters]
        exact (hx.append hsep).append (ih fun y hy => h y (List.mem_cons_of_mem x hy))

end Letter

open Letter

/-! ### The reader -/

/-- What a filter says: its name and its options, each a key with a value or without. -/
structure FilterContent where
  name : String
  options : List (String × Option String)
  deriving DecidableEq

/-- What stands in front of the first equals sign, and what stands behind it if there is one. -/
def cut (ls : List Letter) : List Letter × Option (List Letter) :=
  match ls.dropWhile fun l => l.char != '=' with
  | [] => (ls, none)
  | _ :: rest => (ls.takeWhile fun l => l.char != '=', some rest)

/-- Reads an option: a key, and behind an equals sign a value. -/
def readOption (ls : List Letter) : String × Option String :=
  (plain (cut ls).1, (cut ls).2.map plain)

/-- Reads a filter: a name, and behind an equals sign options between colons. -/
def readFilter (ls : List Letter) : FilterContent where
  name := plain (cut ls).1
  options :=
    match (cut ls).2 with
    | none => []
    | some rest => (rest.splitOn (.bare ':')).map readOption

/-- Reads filters between commas. -/
def readFilters (ls : List Letter) : List FilterContent := (ls.splitOn (.bare ',')).map readFilter

/-! ### What is written -/

/-- The letters of an option. -/
def optionLetters (entry : String × Option String) : List Letter :=
  entry.1.toList.map .bare ++
    match entry.2 with
    | none => []
    | some value => .bare '=' :: value.toList.map ofValue

namespace FilterContent

/-- The letters of a filter. -/
def letters (f : FilterContent) : List Letter :=
  f.name.toList.map .bare ++
    match f.options with
    | [] => []
    | options => .bare '=' :: [.bare ':'].intercalate (options.map optionLetters)

/-- Neither the name of a filter nor a key of its options holds a certain character. -/
structure Avoids (f : FilterContent) (p : Char → Bool) : Prop where
  name : ∀ c ∈ f.name.toList, p c = false
  keys : ∀ entry ∈ f.options, ∀ c ∈ entry.1.toList, p c = false

end FilterContent

/-- The letters of filters. -/
def contentLetters (fs : List FilterContent) : List Letter :=
  [.bare ','].intercalate (fs.map FilterContent.letters)

/-- The characters that separate filters, options, names and values, and the backslash. -/
def isSeparator (c : Char) : Bool := c == ',' || c == '=' || c == ':' || c == '\\'

/-- A search that finds nothing fails at each character. -/
theorem none_of_any {p : Char → Bool} {cs : List Char} (h : cs.any p = false) : ∀ c ∈ cs, p c = false :=
  fun c hc => Bool.eq_false_iff.mpr (List.any_eq_false.mp h c hc)

/-! ### Reading what is written -/

theorem plain_bare (s : String) : plain (s.toList.map .bare) = s := by
  rw [plain, List.map_map, show Letter.char ∘ Letter.bare = id from rfl, List.map_id,
    String.ofList_toList]

theorem plain_ofValue (s : String) : plain (s.toList.map ofValue) = s := by
  rw [plain, List.map_map, show Letter.char ∘ ofValue = id from funext char_ofValue, List.map_id,
    String.ofList_toList]

theorem bare_ne_equals {name : String} (h : ∀ c ∈ name.toList, isSeparator c = false) :
    ∀ l ∈ name.toList.map Letter.bare, (l.char != '=') = true := by
  intro l hl
  obtain ⟨c, hc, rfl⟩ := List.mem_map.mp hl
  rw [char_bare, bne_iff_ne]
  rintro rfl
  exact absurd (h '=' hc) (by decide)

/-- A text is cut at the equals sign behind a name. -/
theorem cut_named {name : String} (h : ∀ c ∈ name.toList, isSeparator c = false)
    (rest : List Letter) :
    cut (name.toList.map .bare ++ .bare '=' :: rest) = (name.toList.map .bare, some rest) := by
  have hname := bare_ne_equals h
  unfold cut
  rw [List.dropWhile_append_of_pos hname, List.takeWhile_append_of_pos hname,
    List.dropWhile_cons_of_neg (by decide), List.takeWhile_cons_of_neg (by decide), List.append_nil]

/-- A name by itself is not cut. -/
theorem cut_bare {name : String} (h : ∀ c ∈ name.toList, isSeparator c = false) :
    cut (name.toList.map .bare) = (name.toList.map .bare, none) := by
  unfold cut
  rw [List.dropWhile_eq_nil_iff.mpr (bare_ne_equals h)]

theorem readOption_letters {entry : String × Option String}
    (h : ∀ c ∈ entry.1.toList, isSeparator c = false) : readOption (optionLetters entry) = entry := by
  obtain ⟨key, value⟩ := entry
  cases value with
  | none =>
      simp only [optionLetters, List.append_nil, readOption, cut_bare h, plain_bare, Option.map_none]
  | some value =>
      simp only [optionLetters, readOption, cut_named h, plain_bare, Option.map_some, plain_ofValue]

/-- A character that is escaped in values stands by itself in no option whose key lacks it. -/
theorem bare_not_mem_optionLetters {d : Char} (hspecial : Expression.isSpecial d = true)
    {entry : String × Option String} (h : d ∉ entry.1.toList) (heq : d ≠ '=') :
    Letter.bare d ∉ optionLetters entry := by
  obtain ⟨key, value⟩ := entry
  intro hmem
  rcases List.mem_append.mp hmem with hkey | hvalue
  · obtain ⟨c, hc, hsame⟩ := List.mem_map.mp hkey
    cases hsame
    exact h hc
  · cases value with
    | none => cases hvalue
    | some value =>
        rcases List.mem_cons.mp hvalue with hsame | hin
        · cases hsame
          exact heq rfl
        · obtain ⟨c, -, hsame⟩ := List.mem_map.mp hin
          exact ofValue_ne_bare hspecial hsame

/-- What stands in lists between separators is a separator or stands in one of the lists. -/
theorem mem_intercalate {α : Type} {sep x : α} {ls : List (List α)}
    (h : x ∈ [sep].intercalate ls) : x = sep ∨ ∃ l ∈ ls, x ∈ l := by
  induction ls with
  | nil => cases h
  | cons l more ih =>
      by_cases hmore : more = []
      · subst hmore
        rw [List.intercalate_singleton] at h
        exact Or.inr ⟨l, List.mem_cons_self, h⟩
      · rw [List.intercalate_cons_of_ne_nil hmore] at h
        rcases List.mem_append.mp h with hfront | hback
        · rcases List.mem_append.mp hfront with hin | hsep
          · exact Or.inr ⟨l, List.mem_cons_self, hin⟩
          · exact Or.inl (List.mem_singleton.mp hsep)
        · exact (ih hback).imp_right fun ⟨l', hl', hx⟩ => ⟨l', List.mem_cons_of_mem l hl', hx⟩

namespace FilterContent

variable {f : FilterContent}

theorem readFilter_letters (h : f.Avoids isSeparator) : readFilter f.letters = f := by
  obtain ⟨name, options⟩ := f
  cases options with
  | nil =>
      have hcut : cut (FilterContent.mk name []).letters = (name.toList.map .bare, none) := by
        rw [letters, List.append_nil]
        exact cut_bare h.name
      rw [readFilter, hcut]
      simp only [plain_bare]
  | cons entry more =>
      have hcut := cut_named h.name ([.bare ':'].intercalate ((entry :: more).map optionLetters))
      have hcolons : ∀ ls ∈ (entry :: more).map optionLetters, Letter.bare ':' ∉ ls := by
        intro ls hls
        obtain ⟨e, he, rfl⟩ := List.mem_map.mp hls
        refine bare_not_mem_optionLetters (by decide) (fun hc => ?_) (by decide)
        exact absurd (h.keys e he ':' hc) (by decide)
      have hread : ((entry :: more).map optionLetters).map readOption = entry :: more := by
        rw [List.map_map]
        refine (List.map_congr_left fun e he => ?_).trans (List.map_id _)
        exact readOption_letters (h.keys e he)
      rw [readFilter, letters, hcut]
      simp only [plain_bare, List.splitOn_intercalate _ hcolons (List.cons_ne_nil _ _), hread]

/-- A character that is escaped in values stands by itself in no filter whose name and keys lack it,
colons and equals signs apart. -/
theorem bare_not_mem_letters {d : Char} (hspecial : Expression.isSpecial d = true)
    (hname : d ∉ f.name.toList) (hkeys : ∀ e ∈ f.options, d ∉ e.1.toList) (heq : d ≠ '=')
    (hcolon : d ≠ ':') : Letter.bare d ∉ f.letters := by
  obtain ⟨name, options⟩ := f
  intro hmem
  rcases List.mem_append.mp hmem with hin | hin
  · obtain ⟨c, hc, hsame⟩ := List.mem_map.mp hin
    cases hsame
    exact hname hc
  · cases options with
    | nil => cases hin
    | cons entry more =>
        rcases List.mem_cons.mp hin with hsame | hoptions
        · cases hsame
          exact heq rfl
        · rcases mem_intercalate hoptions with hsame | ⟨ls, hls, hl⟩
          · cases hsame
            exact hcolon rfl
          · obtain ⟨e, he, rfl⟩ := List.mem_map.mp hls
            exact bare_not_mem_optionLetters hspecial (hkeys e he) heq hl

end FilterContent

/-- Filters are read from their letters. -/
theorem readFilters_letters {fs : List FilterContent} (h : ∀ f ∈ fs, f.Avoids isSeparator)
    (hne : fs ≠ []) : readFilters (contentLetters fs) = fs := by
  have hcommas : ∀ ls ∈ fs.map FilterContent.letters, Letter.bare ',' ∉ ls := by
    intro ls hls
    obtain ⟨f, hf, rfl⟩ := List.mem_map.mp hls
    refine FilterContent.bare_not_mem_letters (by decide) (fun hc => ?_) (fun e he hc => ?_) (by decide)
      (by decide)
    · exact absurd ((h f hf).name ',' hc) (by decide)
    · exact absurd ((h f hf).keys e he ',' hc) (by decide)
  rw [readFilters, contentLetters, List.splitOn_intercalate _ hcommas (by simpa using hne),
    List.map_map]
  exact (List.map_congr_left fun f hf => FilterContent.readFilter_letters (h f hf)).trans (List.map_id _)

/-! ### From filters to texts -/

/-- The text of an option. -/
def optionText (entry : String × Option String) : String :=
  match entry.2 with
  | none => entry.1
  | some value => entry.1 ++ "=" ++ Expression.escape value

/-- The text of a filter. -/
def FilterContent.text (f : FilterContent) : String :=
  match f.options with
  | [] => f.name
  | options => f.name ++ "=" ++ ":".intercalate (options.map optionText)

/-- The text of filters. -/
def contentText (fs : List FilterContent) : String := ",".intercalate (fs.map FilterContent.text)

/-- What an option of a filter says: nothing, or the text of its value. -/
def entryContent (t : Texts) (entry : String × Value) : Except Error (String × Option String) :=
  match entry.2 with
  | .null => .ok (entry.1, none)
  | v => do return (entry.1, some (← Expression.rawValue t v))

/-- What a filter says. -/
def Filter.content (t : Texts) (f : Filter) : Except Error FilterContent := do
  return ⟨f.name, ← f.options.mapM (entryContent t)⟩

theorem mapM_map {ε α β γ : Type} (f : α → Except ε β) (g : β → γ) (l : List α) :
    l.mapM (fun x => (f x).map g) = (l.mapM f).map (List.map g) := by
  induction l with
  | nil => rfl
  | cons a rest ih =>
      rw [List.mapM_cons, List.mapM_cons, ih]
      cases f a with
      | error e => rfl
      | ok b => cases rest.mapM f <;> rfl

theorem option_eq (t : Texts) (entry : String × Value) :
    Expression.option t entry.1 entry.2 = (entryContent t entry).map optionText := by
  obtain ⟨key, v⟩ := entry
  cases v with
  | null => rfl
  | _ =>
      dsimp only [Expression.option, entryContent, Expression.value]
      generalize Expression.rawValue t _ = raw
      cases raw <;> rfl

/-- A filter is written as what it says. -/
theorem expression_eq (t : Texts) (f : Filter) :
    f.expression t = (f.content t).map FilterContent.text := by
  unfold Filter.expression Expression.filter Filter.content
  generalize f.options = options
  cases options with
  | nil => rfl
  | cons entry more =>
      rw [if_neg (by simp)]
      unfold Expression.options
      rw [show (fun e : String × Value => Expression.option t e.1 e.2)
        = fun e => (entryContent t e).map optionText from funext (option_eq t), mapM_map,
        List.mapM_cons]
      cases entryContent t entry with
      | error e => rfl
      | ok e => cases more.mapM (entryContent t) <;> rfl

theorem filtersText_eq (t : Texts) (c : Chain) :
    Objects.filtersText t c = (c.filters.mapM (Filter.content t)).map contentText := by
  unfold Objects.filtersText
  rw [funext (expression_eq t), mapM_map]
  cases c.filters.mapM (Filter.content t) <;> rfl

theorem ne_backslash {name : String} (h : ∀ c ∈ name.toList, isSeparator c = false) :
    ∀ c ∈ name.toList, c ≠ '\\' := by
  rintro c hc rfl
  exact absurd (h _ hc) (by decide)

theorem spells_equals : Spells "=" [.bare '='] := .bare (by simp)

theorem spells_option {entry : String × Option String}
    (h : ∀ c ∈ entry.1.toList, isSeparator c = false) :
    Spells (optionText entry) (optionLetters entry) := by
  obtain ⟨key, value⟩ := entry
  have hkey : Spells key (key.toList.map .bare) := .bare (ne_backslash h)
  cases value with
  | none => simpa only [optionText, optionLetters, List.append_nil] using hkey
  | some value =>
      simpa only [optionText, optionLetters, List.append_assoc, List.singleton_append]
        using (hkey.append spells_equals).append (spells_escape value)

theorem FilterContent.spells {f : FilterContent} (h : f.Avoids isSeparator) :
    Spells f.text f.letters := by
  obtain ⟨name, options⟩ := f
  have hname : Spells name (name.toList.map .bare) := .bare (ne_backslash h.name)
  cases options with
  | nil => simpa only [text, letters, List.append_nil] using hname
  | cons entry more =>
      have hcolon : Spells ":" [.bare ':'] := .bare (by simp)
      have hoptions := spells_intercalate hcolon fun e he => spells_option (h.keys e he)
      simpa only [text, letters, List.append_assoc, List.singleton_append]
        using (hname.append spells_equals).append hoptions

/-- Filters are written in their letters. -/
theorem spells_contents {fs : List FilterContent} (h : ∀ f ∈ fs, f.Avoids isSeparator) :
    Spells (contentText fs) (contentLetters fs) := by
  have hcomma : Spells "," [.bare ','] := .bare (by simp)
  exact spells_intercalate hcomma fun f hf => FilterContent.spells (h f hf)

/-! ### Filters read back -/

/-- Reads the filters of a text. -/
def readText (text : String) : List FilterContent := readFilters (Letter.ofChars text.toList)

/-- What filters say is read from their text if no separator stands in their names and keys. -/
theorem readText_contentText {fs : List FilterContent} (h : ∀ f ∈ fs, f.Avoids isSeparator)
    (hne : fs ≠ []) : readText (contentText fs) = fs := by
  rw [readText, (spells_contents h).letters, readFilters_letters h hne]

/-- The text of a value that is one. -/
def Value.text? : Value → Option String
  | .text s => some s
  | _ => none

namespace Filter

/-- A filter with no separator in its name and keys, and with texts or nothing for values. -/
structure Plain (f : Filter) : Prop where
  name : ∀ c ∈ f.name.toList, isSeparator c = false
  keys : ∀ entry ∈ f.options, ∀ c ∈ entry.1.toList, isSeparator c = false
  values : ∀ entry ∈ f.options, entry.2 = .null ∨ ∃ s, entry.2 = .text s

/-- The name of a filter, and its keys with their texts or nothing. -/
def plainContent (f : Filter) : FilterContent :=
  ⟨f.name, f.options.map fun entry => (entry.1, entry.2.text?)⟩

/-- An option with its value, or nothing for its value. -/
def plainEntry (entry : String × Option String) : String × Value :=
  (entry.1, (entry.2.map Value.text).getD .null)

namespace Plain

variable {f : Filter} (h : f.Plain)

include h

theorem content (t : Texts) : f.content t = .ok f.plainContent := by
  have hoptions : f.options.mapM (entryContent t)
      = .ok (f.options.map fun entry => (entry.1, entry.2.text?)) := by
    refine mapM_ok_map fun entry hentry => ?_
    obtain ⟨key, v⟩ := entry
    rcases h.values _ hentry with hnull | ⟨s, htext⟩
    · cases hnull
      rfl
    · cases htext
      rfl
  rw [Filter.content, hoptions]
  rfl

theorem avoids : f.plainContent.Avoids isSeparator where
  name := h.name
  keys := fun entry hentry => by
    obtain ⟨e, he, rfl⟩ := List.mem_map.mp hentry
    exact h.keys e he

/-- What a plain filter says tells its options. -/
theorem options_eq : f.options = f.plainContent.options.map plainEntry := by
  rw [plainContent, List.map_map]
  refine ((List.map_congr_left fun entry hentry => ?_).trans (List.map_id _)).symm
  obtain ⟨key, v⟩ := entry
  rcases h.values _ hentry with hnull | ⟨s, htext⟩
  · cases hnull
    rfl
  · cases htext
    rfl

end Plain

end Filter

namespace Objects

theorem filtersText_plain (t : Texts) {c : Chain} (h : ∀ f ∈ c.filters, f.Plain) :
    filtersText t c = .ok (contentText (c.filters.map Filter.plainContent)) := by
  rw [filtersText_eq, mapM_ok_map fun f hf => (h f hf).content t]
  rfl

/-- What the filters of a chain say is read from their text. -/
theorem readText_plain {c : Chain} (h : ∀ f ∈ c.filters, f.Plain) :
    readText (contentText (c.filters.map Filter.plainContent))
      = c.filters.map Filter.plainContent := by
  refine readText_contentText (fun f hf => ?_) fun hnil => c.nonempty (List.map_eq_nil_iff.mp hnil)
  obtain ⟨g, hg, rfl⟩ := List.mem_map.mp hf
  exact (h g hg).avoids

/-- **The text of filters tells the filters.**  The filters of a chain have a text if their values are
texts or nothing, whatever characters are in these.  If no separator stands in a name or a key, a reader
gets back every name and every option in order, with each value as it was before it was escaped, and
tells an empty value from none.  So filters with other names or options have another text. -/
theorem filters_read_back {t : Texts} {c : Chain} (plain : ∀ f ∈ c.filters, f.Plain) :
    (∃ text, filtersText t c = .ok text ∧ readText text = c.filters.map Filter.plainContent) ∧
    ∀ (t' : Texts) (c' : Chain) (text : String), (∀ f ∈ c'.filters, f.Plain) →
      filtersText t c = .ok text → filtersText t' c' = .ok text →
        (c'.filters.map fun f => (f.name, f.options)) = c.filters.map fun f => (f.name, f.options) := by
  refine ⟨⟨_, filtersText_plain t plain, readText_plain plain⟩, ?_⟩
  intro t' c' text plain' htext htext'
  rw [filtersText_plain t plain] at htext
  rw [filtersText_plain t' plain', ← Except.ok.inj htext] at htext'
  have hcontents : c'.filters.map Filter.plainContent = c.filters.map Filter.plainContent := by
    rw [← readText_plain plain, ← readText_plain plain', Except.ok.inj htext']
  have hback : ∀ {d : Chain}, (∀ f ∈ d.filters, f.Plain) →
      (d.filters.map fun f => (f.name, f.options)) = (d.filters.map Filter.plainContent).map
        fun content => (content.name, content.options.map Filter.plainEntry) := by
    intro d hd
    rw [List.map_map]
    refine List.map_congr_left fun f hf => ?_
    exact congrArg (Prod.mk f.name) (hd f hf).options_eq
  rw [hback plain, hback plain', hcontents]

/-- A session with a chain whose values hold backslashes in front of separators, equals signs, and
nothing. -/
def separatorSession : List Call :=
  [.act (.newFilter (.text "drawtext")
      (.dict [(.text "text", .text "a\\\\:b\\,c=d'"), (.text "x", .text ""), (.text "y", .null)])
      (.int 1) (.int 1)),
    .act (.newFilter (.text "null") .null (.int 1) (.int 1)),
    .act (.newChain (.list [.object (.filter ⟨0⟩), .object (.filter ⟨1⟩)]))]

/-- In this session the values are read back, and the empty one is told from none. -/
theorem separators_read_back : ∃ c text,
    (afterCalls {} separatorSession).chain? ⟨0⟩ = some c ∧
    filtersText (Scene.texts ⟨afterCalls {} separatorSession, false, none⟩) c = .ok text ∧
    text = "drawtext=text=a\\\\\\\\\\:b\\\\\\,c=d\\':x=:y,null" ∧
    readText text = [⟨"drawtext", [("text", some "a\\\\:b\\,c=d'"), ("x", some ""), ("y", none)]⟩,
      ⟨"null", []⟩] := by
  obtain ⟨c, hc⟩ : ∃ c, (afterCalls {} separatorSession).chain? ⟨0⟩ = some c := ⟨_, rfl⟩
  have hplain : ∀ f ∈ c.filters, f.Plain := by
    cases hc
    rintro f (_ | ⟨_, _ | ⟨_, ⟨⟩⟩⟩)
    · refine ⟨none_of_any rfl, ?_, ?_⟩ <;> rintro entry (_ | ⟨_, _ | ⟨_, _ | ⟨_, ⟨⟩⟩⟩⟩)
      · exact none_of_any rfl
      · exact none_of_any rfl
      · exact none_of_any rfl
      · exact Or.inr ⟨_, rfl⟩
      · exact Or.inr ⟨_, rfl⟩
      · exact Or.inl rfl
    · exact ⟨none_of_any rfl, (fun entry hentry => nomatch hentry), fun entry hentry => nomatch hentry⟩
  obtain ⟨⟨text, htext, hread⟩, -⟩ := filters_read_back
    (t := Scene.texts ⟨afterCalls {} separatorSession, false, none⟩) hplain
  refine ⟨c, text, hc, htext, ?_, ?_⟩
  · cases hc
    cases htext
    rfl
  · rw [hread]
    cases hc
    rfl

end Objects

end MediaCommand
