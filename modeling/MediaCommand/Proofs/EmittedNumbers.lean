/-
Numbers in selectors, and what is written of them.

A selector is checked when a stream is chosen and is written into the arguments as it was given.  So what is
written of an index, a program, a group or a stream is the part that was taken for a number.  Such a part is
a numeral, or a numeral with one line feed behind it: the check for the end of the part lets that pass, and
the line feed is written as well.  Every other part is refused with the name of the field.
-/
import MediaCommand.Proofs.Labels
import MediaCommand.Proofs.SelectorGrammar

namespace MediaCommand.Selector

/-- Without a limit for digits a number is refused for what it is. -/
theorem number_cases (name text : String) :
    (∃ n, number none name text = .ok n) ∨ number none name text = .error (.number name text) := by
  unfold number
  cases number? text with
  | none => exact .inr rfl
  | some n => exact .inl ⟨n, rfl⟩

/-- A selector that is read says something, but for line feeds behind its numbers. -/
theorem says_of_parseWithin {limit : Option Nat} {selector : String} {fields : List Field}
    (h : parseWithin limit selector = .ok fields) :
    ∃ exact named, List.Forall₂ Loosely (atColons selector) exact ∧ Says limit exact named := by
  obtain ⟨exact, named, hexact, hsaid, -⟩ := said_of_parseParts h
  exact ⟨exact, named, parts_eq selector ▸ hexact, hsaid⟩

theorem mapError_eq_ok {α ε ε' : Type} {f : ε → ε'} {x : Except ε α} {a : α} :
    x.mapError f = .ok a ↔ x = .ok a := by
  cases x <;> simp [Except.mapError]

theorem trackOf_text (o : Objects) (selector : String) :
    o.trackOf (.text selector) = ((parseWithin (some Text.maxIntegerDigits) selector).mapError
      (Error.track (.text selector))).map fun _ => some (.selector selector) := by
  simp only [Objects.trackOf, Objects.selectorFields, parse]
  cases parseWithin (some Text.maxIntegerDigits) selector <;> rfl

/-- What is chosen of an input by a selector is called by that selector, which has been read. -/
theorem source_of_inputStream {o o' : Objects} {id : InputId} {selector : String} {sp : Specifier}
    (h : o.inputStream id (.text selector) = .ok (o', sp)) :
    sp.source = .input id (some (.selector selector)) ∧
      ∃ fields, parseWithin (some Text.maxIntegerDigits) selector = .ok fields := by
  obtain ⟨i, -, h⟩ := bind_ok.mp h
  obtain ⟨track, htrack, hmade⟩ := bind_ok.mp h
  rw [trackOf_text] at htrack
  obtain ⟨fields, hfields, rfl⟩ := map_ok.mp htrack
  cases hmade
  exact ⟨rfl, fields, mapError_eq_ok.mp hfields⟩

/-- **Numbers are exact but for a line feed behind them.**  A number is read from exactly the numerals and
the numerals with one line feed behind them, and any other text is refused with the name of the field; so
reading a text and being a numeral differ for these line feeds alone.  A selector that is accepted for an
input has numerals where numbers stand, again but for line feeds, and it is written as it was given: if no
part of it ends in a line feed, the numbers that are written are exact. -/
theorem numbers_exact_but_line_feed (name text : String) :
    (∀ n, number none name text = .ok n ↔ Numeral none text.toList n ∨
      ∃ exact, text = exact ++ "\n" ∧ Numeral none exact.toList n) ∧
    ((∀ n, number none name text ≠ .ok n) → ∃ why, number none name text = .error why ∧
      why.message = "Invalid " ++ name ++ " (" ++ text ++ ")") ∧
    ((∀ n, number none name text = .ok n ↔ Numeral none text.toList n) ↔
      ¬∃ exact n, text = exact ++ "\n" ∧ Numeral none exact.toList n) ∧
    ∀ (o o' : Objects) id selector sp, o.inputStream id (.text selector) = .ok (o', sp) →
      (∃ exact named, List.Forall₂ Loosely (atColons selector) exact ∧
        Says (some Text.maxIntegerDigits) exact named ∧
        ((∀ part ∈ atColons selector, part.toList.getLast? ≠ some '\n') → atColons selector = exact)) ∧
      ∀ (later : Objects) i k, later.input? id = some i → i.label = some k →
        later.specifierText sp.source = .ok (toString k ++ ":" ++ selector) := by
  have hread : ∀ n, number none name text = .ok n ↔ Numeral none text.toList n ∨
      ∃ exact, text = exact ++ "\n" ∧ Numeral none exact.toList n := by
    intro n
    rw [number_eq_ok_loosely]
    constructor
    · rintro ⟨exact, rfl | hfed, hnumeral⟩
      · exact .inl hnumeral
      · exact .inr ⟨exact, hfed, hnumeral⟩
    · rintro (hnumeral | ⟨exact, hfed, hnumeral⟩)
      · exact ⟨text, .inl rfl, hnumeral⟩
      · exact ⟨exact, .inr hfed, hnumeral⟩
  refine ⟨hread, ?_, ?_, ?_⟩
  · intro hrefused
    exact ⟨_, (number_cases name text).resolve_left fun ⟨n, hn⟩ => hrefused n hn, rfl⟩
  · constructor
    · rintro hexact ⟨exact, n, rfl, hnumeral⟩
      have hfed := (hexact n).mp ((hread n).mpr (.inr ⟨exact, rfl, hnumeral⟩))
      exact hfed.not_mem (by simp)
    · intro hunfed n
      rw [hread]
      exact ⟨fun h => h.resolve_right fun ⟨exact, hfed⟩ => hunfed ⟨exact, n, hfed⟩, .inl⟩
  · intro o o' id selector sp hmade
    obtain ⟨hsource, fields, hfields⟩ := source_of_inputStream hmade
    obtain ⟨exact, named, hexact, hsaid⟩ := says_of_parseWithin hfields
    refine ⟨⟨exact, named, hexact, hsaid, eq_of_loosely hexact⟩, ?_⟩
    intro later i k hi hlabel
    rw [hsource, Objects.specifierText_input _ hi hlabel]
    rfl

/-- The program five with a line feed behind it is read, and the line feed is written. -/
theorem line_feed_behind_program :
    number none "program_id" "5\n" = .ok 5 ∧ (¬∃ n, Numeral none "5\n".toList n) ∧
      ∃ o' sp, ({ inputs := [⟨some (.text "in.mp4"), [], some 0⟩] } : Objects).inputStream ⟨0⟩ (.text "p:5\n")
        = .ok (o', sp) ∧ o'.specifierText sp.source = .ok "0:p:5\n" := by
  have hfive : Numeral none "5".toList 5 :=
    .decimal (by decide) (by decide) nofun ⟨[5], .cons (.inl rfl) .nil, by decide, rfl⟩
  obtain ⟨hread, -, -, hwritten⟩ := numbers_exact_but_line_feed "program_id" "5\n"
  have hmade : ({ inputs := [⟨some (.text "in.mp4"), [], some 0⟩] } : Objects).inputStream ⟨0⟩ (.text "p:5\n")
      = .ok (_, _) := rfl
  refine ⟨(hread 5).mpr (.inr ⟨"5", rfl, hfive⟩), ?_, _, _, hmade, ?_⟩
  · rintro ⟨n, hn⟩
    exact hn.not_mem (by decide)
  · exact (hwritten _ _ _ _ _ hmade).2 _ _ 0 rfl rfl

end MediaCommand.Selector
