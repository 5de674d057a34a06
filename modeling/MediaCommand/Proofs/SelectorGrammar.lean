/-
The grammar of stream selectors.

A selector is cut at its colons.  Its parts are restrictions, one after the other, and behind them at
most one primary item; each takes between one and three parts.  What is meant by a part depends on the
ones before it: an `i` stands for a stream at one place and for a group at another, and behind an `m`
it is a name like any other.  Here the grammar is written down as what a list of parts says, item by
item, without any order of reading.

The reader takes one item after the other and never goes back.  One step of it undoes one item, so it
reads whatever is said (`parseParts_of_said`); and where it goes on or ends, there is an item for what
it took, but for line feeds behind the numbers (`said_of_parseParts`).  What it leaves behind is what
the items name: the fields in the order in which they come first, each with what was said of it last.
-/
import Mathlib.Data.List.Induction
import MediaCommand.Proofs.Dictionaries
import MediaCommand.Proofs.Numerals
import MediaCommand.Session.Compose

namespace MediaCommand.Selector

/-! ### The grammar -/

/-- Parts are a restriction, which sets a field. -/
inductive Restriction (limit : Option Nat) : List String → Field → Prop
  | mediaType {letter : String} (h : letter ∈ ["v", "a", "s", "d", "t", "V"]) :
      Restriction limit [letter] (.mediaType letter)
  | program {text : String} {n : Nat} (h : Numeral limit text.toList n) :
      Restriction limit ["p", text] (.programId n)
  | group {text : String} {n : Nat} (h : Numeral limit text.toList n) :
      Restriction limit ["g", text] (.groupIndex n)
  | groupById {text : String} {n : Nat} (h : Numeral limit text.toList n) :
      Restriction limit ["g", "i", text] (.groupId n)
  | groupByNumber {text : String} {n : Nat} (h : Numeral limit text.toList n) :
      Restriction limit ["g", "#" ++ text] (.groupId n)

/-- Parts are a primary item, which sets a field. -/
inductive Primary (limit : Option Nat) : List String → Field → Prop
  | index {text : String} {n : Nat} (h : Numeral limit text.toList n) :
      Primary limit [text] (.index n)
  | byNumber {text : String} {n : Nat} (h : Numeral limit text.toList n) :
      Primary limit ["#" ++ text] (.streamId n)
  | byId {text : String} {n : Nat} (h : Numeral limit text.toList n) :
      Primary limit ["i", text] (.streamId n)
  | usable : Primary limit ["u"] .usable
  | tag (key : String) : Primary limit ["m", key] (.tag key none)
  | tagValue (key value : String) : Primary limit ["m", key, value] (.tag key (some value))

/-- Parts are restrictions and behind them at most one primary item, which set fields one by one. -/
inductive Says (limit : Option Nat) : List String → List Field → Prop
  | nothing : Says limit [] []
  | primary {ps : List String} {f : Field} (h : Primary limit ps f) : Says limit ps [f]
  | restriction {ps qs : List String} {f : Field} {fs : List Field} (h : Restriction limit ps f)
      (rest : Says limit qs fs) : Says limit (ps ++ qs) (f :: fs)

/-- A line cut at every colon. -/
def atColons (line : String) : List String := (line.toList.splitOn ':').map String.ofList

/-- What was said last of the field with a name. -/
def lastOf (named : List Field) (key : String) : Option Field :=
  named.reverse.find? (·.key == key)

/-- The fields that were named in the order in which they came first, each as it was said last. -/
def gathered (named : List Field) : List Field :=
  (named.map Field.key).eraseDups.filterMap (lastOf named)

/-! ### Fields set one after the other -/

/-- A field as the entry of a dictionary. -/
def Field.entry (f : Field) : String × Option Field := (f.key, some f)

theorem map_entry_put (found : List Field) (f : Field) :
    (put found f).map Field.entry = Dict.put (found.map Field.entry) f.key (some f) := by
  induction found with
  | nil => rfl
  | cons g rest ih =>
      unfold put
      rw [apply_ite (List.map Field.entry), List.map_cons, List.map_cons, ih]
      show _ = if g.key == f.key then _ else _
      by_cases hkey : g.key = f.key
      · simp [hkey, Field.entry]
      · simp [hkey, Field.entry]

theorem lastOf_concat (named : List Field) (f : Field) (key : String) :
    lastOf (named ++ [f]) key = if f.key == key then some f else lastOf named key := by
  unfold lastOf
  rw [List.reverse_concat, List.find?_cons]
  cases f.key == key <;> rfl

theorem entries_foldl_put (named : List Field) :
    (named.foldl put []).map Field.entry
      = (named.map Field.key).eraseDups.map fun key => (key, lastOf named key) := by
  induction named using List.reverseRecOn with
  | nil => rfl
  | append_singleton named f ih =>
      rw [List.foldl_concat, map_entry_put, ih, List.map_append]
      have hlast : lastOf (named ++ [f]) f.key = some f := by
        rw [lastOf_concat, if_pos (beq_self_eq_true f.key)]
      rw [← hlast]
      apply Dict.put_eraseDups
      intro key hne
      rw [lastOf_concat, if_neg (by simpa using Ne.symm hne)]

/-- Setting the fields one after the other gathers them. -/
theorem foldl_put (named : List Field) : named.foldl put [] = gathered named := by
  have h := congrArg (List.filterMap Prod.snd) (entries_foldl_put named)
  rw [List.filterMap_map, List.filterMap_map] at h
  have hentry : Prod.snd ∘ Field.entry = some := rfl
  rw [hentry, List.filterMap_some] at h
  exact h

/-! ### Numerals and marks are different parts -/

variable {limit : Option Nat} {text : String} {n : Nat}

theorem afterNumberSign?_eq_some {part : String} :
    afterNumberSign? part = some text ↔ part = "#" ++ text := by
  have htext : ("#" ++ text).toList = '#' :: text.toList := by simp
  unfold afterNumberSign?
  constructor
  · intro h
    split at h
    · rename_i rest hpart
      cases h
      apply String.toList_injective
      rw [hpart, htext, String.toList_ofList]
    · cases h
  · rintro rfl
    rw [htext]
    simp

/-- A numeral is no word that begins with anything but a digit. -/
theorem Numeral.ne {word : String} (h : Numeral limit text.toList n)
    (hword : word.toList.head?.any Char.isDigit = false) : text ≠ word := by
  rintro rfl
  obtain ⟨c, rest, hcs, hc⟩ := h.head
  rw [hcs] at hword
  simp [hc] at hword

theorem Numeral.afterNumberSign? (h : Numeral limit text.toList n) :
    afterNumberSign? text = none := by
  unfold Selector.afterNumberSign?
  obtain ⟨c, rest, hcs, hc⟩ := h.head
  split
  · rename_i hsign
    rw [hcs] at hsign
    cases hsign
    cases hc
  · rfl

/-! ### Whatever is said is read -/

/-- Parts without line feeds. -/
def OneLine (ps : List String) : Prop := ∀ p ∈ ps, '\n' ∉ p.toList

theorem Loosely.sign {exact : String} (h : Loosely text exact) : Loosely ("#" ++ text) ("#" ++ exact) := by
  rcases h with rfl | rfl
  · exact .inl rfl
  · exact .inr (String.append_assoc ..).symm

theorem loosely_refl (ps : List String) : List.Forall₂ Loosely ps ps :=
  List.forall₂_same.mpr fun _ _ => .inl rfl

/-- Parts that end in no line feed are written exactly. -/
theorem eq_of_loosely {ps exact : List String} (h : List.Forall₂ Loosely ps exact)
    (hends : ∀ p ∈ ps, p.toList.getLast? ≠ some '\n') : ps = exact := by
  induction h with
  | nil => rfl
  | cons hpart _ ih =>
      rw [hpart.eq (hends _ List.mem_cons_self), ih fun p hp => hends p (List.mem_cons_of_mem _ hp)]

theorem not_mem_of_sign (h : '\n' ∉ ("#" ++ text).toList) : '\n' ∉ text.toList := by
  simpa using h

/-- A restriction is taken off in one step. -/
theorem parseParts_restriction {ps : List String} {f : Field} (h : Restriction limit ps f)
    (hline : OneLine ps) (found : List Field) (qs : List String) :
    parseParts limit found (ps ++ qs) = parseParts limit (put found f) qs := by
  cases h with
  | mediaType hletter =>
      rw [List.singleton_append, parseParts.eq_def]
      exact if_pos (by simpa [mediaTypes] using hletter)
  | @program text n h =>
      have hn : number limit "program_id" text = .ok n := (number_eq_ok (hline text (by simp))).mpr h
      simp [parseParts.eq_def limit found, mediaTypes, hn]
      rfl
  | @group text n h =>
      have hn : number limit "group index" text = .ok n := (number_eq_ok (hline text (by simp))).mpr h
      have hi : text ≠ "i" := h.ne rfl
      simp [parseParts.eq_def limit found, mediaTypes, hn, hi, h.afterNumberSign?]
      rfl
  | @groupById text n h =>
      have hn : number limit "group_id" text = .ok n := (number_eq_ok (hline text (by simp))).mpr h
      simp [parseParts.eq_def limit found, mediaTypes, hn]
      rfl
  | @groupByNumber text n h =>
      have hn : number limit "group_id" text = .ok n :=
        (number_eq_ok (not_mem_of_sign (hline ("#" ++ text) (by simp)))).mpr h
      have hsign : afterNumberSign? ("#" ++ text) = some text := afterNumberSign?_eq_some.mpr rfl
      have hi : "#" ++ text ≠ "i" := by
        intro hi
        rw [hi] at hsign
        cases hsign
      simp [parseParts.eq_def limit found, mediaTypes, hn, hi, hsign]
      rfl

/-- A primary item ends the reading. -/
theorem parseParts_primary {ps : List String} {f : Field} (h : Primary limit ps f)
    (hline : OneLine ps) (found : List Field) : parseParts limit found ps = .ok (put found f) := by
  cases h with
  | @index text n h =>
      have hn : number limit "index" text = .ok n := (number_eq_ok (hline text (by simp))).mpr h
      have hword : ∀ word ∈ ["v", "a", "s", "d", "t", "V", "p", "g", "i", "u", "m"], text ≠ word := by
        intro word hword
        apply h.ne
        revert word
        decide
      simp at hword
      simp [parseParts.eq_def limit found, parsePrimary, finish, mediaTypes, hword,
        h.afterNumberSign?, hn]
  | @byNumber text n h =>
      have hn : number limit "stream_id" text = .ok n :=
        (number_eq_ok (not_mem_of_sign (hline ("#" ++ text) (by simp)))).mpr h
      have hsign : afterNumberSign? ("#" ++ text) = some text := afterNumberSign?_eq_some.mpr rfl
      have hnone : ∀ word ∈ ["v", "a", "s", "d", "t", "V", "p", "g"], afterNumberSign? word = none := by
        decide
      have hword : ∀ word ∈ ["v", "a", "s", "d", "t", "V", "p", "g"], "#" ++ text ≠ word := by
        intro word hmem heq
        rw [heq, hnone word hmem] at hsign
        cases hsign
      simp at hword
      simp [parseParts.eq_def limit found, parsePrimary, finish, mediaTypes, hword, hsign, hn]
      rfl
  | @byId text n h =>
      have hn : number limit "stream_id" text = .ok n := (number_eq_ok (hline text (by simp))).mpr h
      simp [parseParts.eq_def limit found, parsePrimary, finish, mediaTypes, afterNumberSign?, hn]
      rfl
  | usable => rfl
  | tag key => rfl
  | tagValue key value => rfl

/-- Whatever is said is read. -/
theorem parseParts_of_said {ps : List String} {named : List Field} (h : Says limit ps named) :
    OneLine ps → ∀ found, parseParts limit found ps = .ok (named.foldl put found) := by
  induction h with
  | nothing =>
      intro _ found
      rfl
  | primary h =>
      intro hline found
      exact parseParts_primary h hline found
  | @restriction ps qs f fs h rest ih =>
      intro hline found
      rw [parseParts_restriction h fun p hp => hline p (List.mem_append_left qs hp)]
      exact ih (fun p hp => hline p (List.mem_append_right ps hp)) (put found f)

/-! ### Nothing else is read -/

theorem finish_eq_ok {found fields : List Field} {rest : List String} :
    finish found rest = .ok fields ↔ rest = [] ∧ fields = found := by
  cases rest with
  | nil => simp [finish, eq_comm]
  | cons part rest => simp [finish]

/-- What the reader takes as primary is a primary item, as far as line feeds behind numbers go. -/
theorem primary_of_parsePrimary_ok {found fields : List Field} {part : String} {rest : List String}
    (h : parsePrimary limit found part rest = .ok fields) :
    ∃ exact f, List.Forall₂ Loosely (part :: rest) exact ∧ Primary limit exact f ∧
      fields = put found f := by
  unfold parsePrimary at h
  split at h
  · rename_i text hsign
    obtain rfl := afterNumberSign?_eq_some.mp hsign
    obtain ⟨n, hn, hend⟩ := bind_ok.mp h
    obtain ⟨rfl, rfl⟩ := finish_eq_ok.mp hend
    obtain ⟨exact, hexact, hnumeral⟩ := number_eq_ok_loosely.mp hn
    exact ⟨["#" ++ exact], .streamId n, .cons hexact.sign .nil, .byNumber hnumeral, rfl⟩
  · split at h
    · rename_i hi
      obtain rfl := eq_of_beq hi
      split at h
      · cases h
      · rename_i text rest
        obtain ⟨n, hn, hend⟩ := bind_ok.mp h
        obtain ⟨rfl, rfl⟩ := finish_eq_ok.mp hend
        obtain ⟨exact, hexact, hnumeral⟩ := number_eq_ok_loosely.mp hn
        exact ⟨["i", exact], .streamId n, .cons (.inl rfl) (.cons hexact .nil), .byId hnumeral, rfl⟩
    · split at h
      · rename_i hu
        obtain rfl := eq_of_beq hu
        obtain ⟨rfl, rfl⟩ := finish_eq_ok.mp h
        exact ⟨["u"], .usable, loosely_refl _, .usable, rfl⟩
      · split at h
        · rename_i hm
          obtain rfl := eq_of_beq hm
          split at h
          · rename_i key
            cases h
            exact ⟨["m", key], .tag key none, loosely_refl _, .tag key, rfl⟩
          · rename_i key value
            cases h
            exact ⟨["m", key, value], .tag key (some value), loosely_refl _, .tagValue key value, rfl⟩
          · cases h
        · split at h
          · rename_i n hn
            obtain ⟨rfl, rfl⟩ := finish_eq_ok.mp h
            obtain ⟨exact, hexact, hnumeral⟩ := number_eq_ok_loosely.mp hn
            exact ⟨[exact], .index n, .cons hexact .nil, .index hnumeral, rfl⟩
          · cases h

/-- A restriction before what is said of the parts behind it. -/
theorem said_of_restriction {ps qs exact : List String} {f : Field} {found fields : List Field}
    (hexact : List.Forall₂ Loosely ps exact) (h : Restriction limit exact f)
    (hrest : ∃ more named, List.Forall₂ Loosely qs more ∧ Says limit more named ∧
      fields = named.foldl put (put found f)) :
    ∃ more named, List.Forall₂ Loosely (ps ++ qs) more ∧ Says limit more named ∧
      fields = named.foldl put found := by
  obtain ⟨more, named, hmore, hsaid, rfl⟩ := hrest
  exact ⟨exact ++ more, f :: named, List.rel_append hexact hmore, .restriction h hsaid, rfl⟩

/-- Whatever is read was said, but for line feeds behind the numbers. -/
theorem said_of_parseParts {ps : List String} {found fields : List Field}
    (h : parseParts limit found ps = .ok fields) :
    ∃ exact named, List.Forall₂ Loosely ps exact ∧ Says limit exact named ∧
      fields = named.foldl put found := by
  fun_induction parseParts limit found ps with
  | case1 found =>
      cases h
      exact ⟨[], [], .nil, .nothing, rfl⟩
  | case2 found letter rest hletter ih =>
      have hrestriction : Restriction limit [letter] (.mediaType letter) :=
        .mediaType (by simpa [mediaTypes] using hletter)
      exact said_of_restriction (loosely_refl [letter]) hrestriction (ih h)
  | case3 => cases h
  | case4 found part _ hp text rest ih =>
      obtain rfl := eq_of_beq hp
      obtain ⟨n, hn, h⟩ := bind_ok.mp h
      obtain ⟨exact, hexact, hnumeral⟩ := number_eq_ok_loosely.mp hn
      have hparts : List.Forall₂ Loosely ["p", text] ["p", exact] := .cons (.inl rfl) (.cons hexact .nil)
      exact said_of_restriction hparts (.program hnumeral) (ih n h)
  | case5 => cases h
  | case6 => cases h
  | case7 found part _ _ hg group hi text rest ih =>
      obtain rfl := eq_of_beq hg
      obtain rfl := eq_of_beq hi
      obtain ⟨n, hn, h⟩ := bind_ok.mp h
      obtain ⟨exact, hexact, hnumeral⟩ := number_eq_ok_loosely.mp hn
      have hparts : List.Forall₂ Loosely ["g", "i", text] ["g", "i", exact] :=
        .cons (.inl rfl) (.cons (.inl rfl) (.cons hexact .nil))
      exact said_of_restriction hparts (.groupById hnumeral) (ih n h)
  | case8 found part _ _ hg group rest _ text hsign ih =>
      obtain rfl := eq_of_beq hg
      obtain rfl := afterNumberSign?_eq_some.mp hsign
      obtain ⟨n, hn, h⟩ := bind_ok.mp h
      obtain ⟨exact, hexact, hnumeral⟩ := number_eq_ok_loosely.mp hn
      have hparts : List.Forall₂ Loosely ["g", "#" ++ text] ["g", "#" ++ exact] :=
        .cons (.inl rfl) (.cons hexact.sign .nil)
      exact said_of_restriction hparts (.groupByNumber hnumeral) (ih n h)
  | case9 found part _ _ hg group rest _ _ ih =>
      obtain rfl := eq_of_beq hg
      obtain ⟨n, hn, h⟩ := bind_ok.mp h
      obtain ⟨exact, hexact, hnumeral⟩ := number_eq_ok_loosely.mp hn
      have hparts : List.Forall₂ Loosely ["g", group] ["g", exact] := .cons (.inl rfl) (.cons hexact .nil)
      exact said_of_restriction hparts (.group hnumeral) (ih n h)
  | case10 found part rest =>
      obtain ⟨exact, f, hexact, hprimary, rfl⟩ := primary_of_parsePrimary_ok h
      exact ⟨exact, [f], hexact, .primary hprimary, rfl⟩

/-! ### Refusals -/

/-- A reading complains of a length only if it is beyond the limit. -/
def Refuses (limit : Option Nat) {α : Type} (x : Except Invalid α) : Prop :=
  ∀ digits most, x = .error (.tooLong digits most) → limit = some most ∧ most < digits

theorem Refuses.bind {α β : Type} {x : Except Invalid α} {f : α → Except Invalid β}
    (h : Refuses limit x) (hf : ∀ a, Refuses limit (f a)) : Refuses limit (x >>= f) := by
  cases x with
  | error why =>
      intro digits most herror
      cases herror
      exact h digits most rfl
  | ok a => exact hf a

theorem refuses_number (name : String) : Refuses limit (number limit name text) :=
  fun _ _ h => tooLong_of_number h

theorem refuses_finish (found : List Field) (rest : List String) : Refuses limit (finish found rest) := by
  intro digits most h
  unfold finish at h
  split at h <;> cases h

theorem refuses_parsePrimary (found : List Field) (part : String) (rest : List String) :
    Refuses limit (parsePrimary limit found part rest) := by
  unfold parsePrimary
  split
  · exact (refuses_number _).bind fun n => refuses_finish _ rest
  · split
    · split
      · exact fun _ _ h => nomatch h
      · rename_i text rest
        exact (refuses_number _).bind fun n => refuses_finish _ rest
    · split
      · exact refuses_finish _ rest
      · split
        · split <;> exact fun _ _ h => nomatch h
        · split
          · exact refuses_finish _ rest
          · exact fun _ _ h => nomatch h

theorem refuses_parseParts (found : List Field) (ps : List String) :
    Refuses limit (parseParts limit found ps) := by
  fun_induction parseParts limit found ps with
  | case1 => exact fun _ _ h => nomatch h
  | case2 _ _ _ _ ih => exact ih
  | case3 => exact fun _ _ h => nomatch h
  | case4 _ _ _ _ _ _ ih => exact (refuses_number _).bind ih
  | case5 => exact fun _ _ h => nomatch h
  | case6 => exact fun _ _ h => nomatch h
  | case7 _ _ _ _ _ _ _ _ _ ih => exact (refuses_number _).bind ih
  | case8 _ _ _ _ _ _ _ _ _ _ ih => exact (refuses_number _).bind ih
  | case9 _ _ _ _ _ _ _ _ _ ih => exact (refuses_number _).bind ih
  | case10 found part rest => exact refuses_parsePrimary found part rest

/-! ### Selectors -/

theorem parts_eq (selector : String) : parts selector = atColons selector := by
  rw [parts, Text.splitOnClass_eq, atColons]

/-- A piece of a list holds what the list holds. -/
theorem mem_of_mem_piece {cut : Char → Bool} {c : Char} {cs : List Char} :
    ∀ piece ∈ Text.splitOnClass cut cs, c ∈ piece → c ∈ cs := by
  induction cs with
  | nil =>
      intro piece hpiece hc
      rwa [List.mem_singleton.mp hpiece] at hc
  | cons d rest ih =>
      intro piece hpiece hc
      rw [Text.splitOnClass] at hpiece
      by_cases hcut : cut d = true
      · rw [if_pos hcut] at hpiece
        rcases List.mem_cons.mp hpiece with rfl | hpiece
        · cases hc
        · exact List.mem_cons_of_mem d (ih piece hpiece hc)
      · rw [if_neg hcut] at hpiece
        split at hpiece
        · rename_i first pieces hpieces
          rw [hpieces] at ih
          rcases List.mem_cons.mp hpiece with rfl | hpiece
          · rcases List.mem_cons.mp hc with rfl | hc
            · exact List.mem_cons_self
            · exact List.mem_cons_of_mem d (ih first List.mem_cons_self hc)
          · exact List.mem_cons_of_mem d (ih piece (List.mem_cons_of_mem first hpiece) hc)
        · rw [List.mem_singleton.mp hpiece] at hc
          exact List.mem_cons.mpr (.inl (List.mem_singleton.mp hc))

theorem oneLine_parts {selector : String} (h : '\n' ∉ selector.toList) : OneLine (parts selector) := by
  intro part hpart hmem
  obtain ⟨piece, hpiece, rfl⟩ := List.mem_map.mp hpart
  rw [String.toList_ofList] at hmem
  exact h (mem_of_mem_piece piece hpiece hmem)

/-- A line is read exactly if its parts say something, and what is read are the fields that they name. -/
theorem parseWithin_eq_ok {selector : String} {fields : List Field}
    (h : '\n' ∉ selector.toList) :
    parseWithin limit selector = .ok fields ↔
      ∃ named, Says limit (atColons selector) named ∧ fields = gathered named := by
  rw [← parts_eq]
  unfold parseWithin
  constructor
  · intro hok
    obtain ⟨exact, named, hexact, hsaid, rfl⟩ := said_of_parseParts hok
    obtain rfl := eq_of_loosely hexact fun p hp hend => oneLine_parts h p hp (List.mem_of_getLast? hend)
    exact ⟨named, hsaid, foldl_put named⟩
  · rintro ⟨named, hsaid, rfl⟩
    rw [parseParts_of_said hsaid (oneLine_parts h), foldl_put]

/-- A refusal of the reader is put into words; only a numeral beyond the limit, if there is one, is a
fault. -/
theorem refused_of_parseWithin_error {selector : String} {why : Invalid}
    (h : parseWithin limit selector = .error why) :
    Session.selectorError why = .selector why ∨
      limit.isSome ∧ Session.selectorError why = .fault .wrongValue := by
  cases why with
  | tooLong digits most =>
      obtain ⟨rfl, -⟩ := refuses_parseParts [] (parts selector) digits most h
      exact .inr ⟨rfl, rfl⟩
  | number | missing | unknown | unresolved | metadata | wrongType | negativeIndex => exact .inl rfl

/-- Something is said by every line that says anything, since it has a part. -/
theorem Says.ne_nil {selector : String} {named : List Field}
    (h : Says limit (atColons selector) named) : named ≠ [] := by
  rintro rfl
  have hparts : atColons selector = [] := by
    generalize atColons selector = ps at h
    cases h
    rfl
  rw [atColons, List.map_eq_nil_iff] at hparts
  exact List.splitOnP_ne_nil _ _ hparts

/-- Exactly the lines of the grammar are selectors.  The fields of one are those that its items name, in
the order in which they come first and each as it is said last.  Any other line is refused as no
selector, and nothing else can go wrong: asking whether a line is a selector always gets an answer. -/
theorem selector_read_iff_said (selector : String) (h : '\n' ∉ selector.toList) :
    (∀ limit fields, parseWithin limit selector = .ok fields ↔
      ∃ named, named ≠ [] ∧ Says limit (atColons selector) named ∧ fields = gathered named) ∧
    (∀ limit, (¬ ∃ named, named ≠ [] ∧ Says limit (atColons selector) named) →
      ∃ why, parseWithin limit selector = .error why ∧
        (Session.selectorError why = .selector why ∨
          limit.isSome ∧ Session.selectorError why = .fault .wrongValue)) ∧
    ∀ s : Session, s.isSelector (.text selector) = true ↔
      ∃ named, named ≠ [] ∧ Says (some Text.maxIntegerDigits) (atColons selector) named := by
  have hread : ∀ limit fields, parseWithin limit selector = .ok fields ↔
      ∃ named, named ≠ [] ∧ Says limit (atColons selector) named ∧ fields = gathered named := by
    intro limit fields
    rw [parseWithin_eq_ok h]
    constructor
    · rintro ⟨named, hsaid, hfields⟩
      exact ⟨named, hsaid.ne_nil, hsaid, hfields⟩
    · rintro ⟨named, -, hsaid, hfields⟩
      exact ⟨named, hsaid, hfields⟩
  refine ⟨hread, ?_, ?_⟩
  · intro limit hnot
    cases hparse : parseWithin limit selector with
    | ok fields =>
        obtain ⟨named, hne, hsaid, -⟩ := (hread limit fields).mp hparse
        exact absurd ⟨named, hne, hsaid⟩ hnot
    | error why => exact ⟨why, rfl, refused_of_parseWithin_error hparse⟩
  · intro s
    show (parseWithin (some Text.maxIntegerDigits) selector).isOk = true ↔ _
    constructor
    · intro hok
      cases hparse : parseWithin (some Text.maxIntegerDigits) selector with
      | ok fields =>
          obtain ⟨named, hne, hsaid, -⟩ := (hread _ fields).mp hparse
          exact ⟨named, hne, hsaid⟩
      | error why =>
          rw [hparse] at hok
          cases hok
    · rintro ⟨named, hne, hsaid⟩
      rw [(hread _ (gathered named)).mpr ⟨named, hne, hsaid, rfl⟩]
      rfl

/-- A selector whose media type is given twice, with a numeral of each kind. -/
theorem repeated_media_type_read :
    '\n' ∉ "v:g:#0x1F:p:017:a:i:90".toList ∧
      parseWithin none "v:g:#0x1F:p:017:a:i:90"
        = .ok [.mediaType "a", .groupId 31, .programId 15, .streamId 90] := by
  have hline : '\n' ∉ "v:g:#0x1F:p:017:a:i:90".toList := by decide
  have hhex : Numeral none "0x1F".toList 31 :=
    .hex (.inl rfl) (by decide) ⟨[1, 15], .cons (.inl rfl) (.cons (.inr rfl) .nil), by decide, rfl⟩
  have hoctal : Numeral none "017".toList 15 :=
    .octal ⟨[1, 7], .cons (.inl rfl) (.cons (.inl rfl) .nil), by decide, rfl⟩
  have hdecimal : Numeral none "90".toList 90 :=
    .decimal (by decide) (by decide) (by decide)
      ⟨[9, 0], .cons (.inl rfl) (.cons (.inl rfl) .nil), by decide, rfl⟩
  have hsaid : Says none (["v"] ++ (["g", "#" ++ "0x1F"] ++ (["p", "017"] ++ (["a"] ++ ["i", "90"]))))
      [.mediaType "v", .groupId 31, .programId 15, .mediaType "a", .streamId 90] :=
    .restriction (.mediaType (by decide)) (.restriction (.groupByNumber hhex)
      (.restriction (.program hoctal) (.restriction (.mediaType (by decide)) (.primary (.byId hdecimal)))))
  exact ⟨hline, ((selector_read_iff_said _ hline).1 none _).mpr ⟨_, by decide, hsaid, rfl⟩⟩

end MediaCommand.Selector
