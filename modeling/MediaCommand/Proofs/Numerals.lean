/-
The numerals of stream selectors.

A number is written in base sixteen behind a zero and an `x`, in base eight behind any other zero, and
in base ten without a zero in front.  Here that is said of the characters and of what each of them is
worth.  The reader decides the base by the first two characters and then takes one digit after the
other, and it reads exactly the numerals, each as what it is worth.

A limit for the number of digits is a limit for numerals in base ten alone.  One line feed behind a
number is let pass (`number_eq_ok_loosely`).
-/
import Mathlib.Data.List.Forall2
import Mathlib.Data.Nat.Digits.Defs
import Mathlib.Tactic.IntervalCases
import Mathlib.Tactic.Ring
import MediaCommand.Proofs.Lookup
import MediaCommand.Selector.Basic

namespace MediaCommand.Selector

/-! ### Digits -/

/-- A character writes a digit: the digits from ten on are letters, small or capital. -/
def WritesDigit (c : Char) (d : Nat) : Prop :=
  "0123456789abcdef".toList[d]? = some c ∨ "0123456789ABCDEF".toList[d]? = some c

/-- Characters write a number in a base, the digit of most worth first. -/
def Writes (base : Nat) (cs : List Char) (n : Nat) : Prop :=
  ∃ ds, List.Forall₂ WritesDigit cs ds ∧ (∀ d ∈ ds, d < base) ∧ n = Nat.ofDigits base ds.reverse

/-- Characters from one on write the digits from some digit on, as far as the characters named do. -/
theorem writesDigit_of_range {c first last : Char} {d : Nat}
    (h : ∀ k < last.toNat - first.toNat + 1, WritesDigit (Char.ofNat (first.toNat + k)) (k + d))
    (hc : (first ≤ c && c ≤ last) = true) : WritesDigit c (c.toNat - first.toNat + d) := by
  rw [Bool.and_eq_true, decide_eq_true_eq, decide_eq_true_eq] at hc
  have hlo : first.toNat ≤ c.toNat := UInt32.le_iff_toNat_le.mp hc.1
  have hhi : c.toNat ≤ last.toNat := UInt32.le_iff_toNat_le.mp hc.2
  have hdigit := h (c.toNat - first.toNat) (by omega)
  rwa [Nat.add_sub_of_le hlo, Char.ofNat_toNat] at hdigit

theorem digitValue?_eq_some {c : Char} {d : Nat} : digitValue? c = some d ↔ WritesDigit c d := by
  constructor
  · intro h
    unfold digitValue? at h
    split at h
    · rename_i hdigit
      cases h
      have hc : ('0' ≤ c && c ≤ '9') = true := hdigit
      exact writesDigit_of_range (d := 0) (by unfold WritesDigit; decide) hc
    · split at h
      · rename_i hsmall
        cases h
        exact writesDigit_of_range (by unfold WritesDigit; decide) hsmall
      · split at h
        · rename_i hcapital
          cases h
          exact writesDigit_of_range (by unfold WritesDigit; decide) hcapital
        · cases h
  · intro h
    have hd : d < 16 := by
      rcases h with h | h <;> exact (List.getElem?_eq_some_iff.mp h).1
    interval_cases d <;> rcases h with h | h <;> cases h <;> rfl

/-- A digit read after a number is the digit of most worth among those still to be read. -/
theorem ofDigits_after (base acc d : Nat) (ds : List Nat) :
    (acc * base + d) * base ^ ds.length + Nat.ofDigits base ds.reverse
      = acc * base ^ (d :: ds).length + Nat.ofDigits base (d :: ds).reverse := by
  rw [List.reverse_cons, Nat.ofDigits_append, Nat.ofDigits_singleton, List.length_reverse,
    List.length_cons]
  ring

/-- Digits are read one by one, after a number that was read before. -/
theorem readBase_eq_some {base n : Nat} (cs : List Char) :
    ∀ acc, readBase base acc cs = some n ↔
      ∃ ds, List.Forall₂ WritesDigit cs ds ∧ (∀ d ∈ ds, d < base) ∧
        n = acc * base ^ ds.length + Nat.ofDigits base ds.reverse := by
  induction cs with
  | nil =>
      intro acc
      simp [readBase, eq_comm]
  | cons c rest ih =>
      intro acc
      rw [readBase, Option.bind_eq_some_iff]
      constructor
      · rintro ⟨d, hd, h⟩
        split at h
        · rename_i hlt
          obtain ⟨ds, hds, hall, rfl⟩ := (ih _).mp h
          refine ⟨d :: ds, .cons (digitValue?_eq_some.mp hd) hds, ?_, ofDigits_after base acc d ds⟩
          simpa [hlt] using hall
        · cases h
      · rintro ⟨ds, hds, hall, rfl⟩
        cases hds with
        | @cons _ d _ ds hd hds =>
            refine ⟨d, digitValue?_eq_some.mpr hd, ?_⟩
            rw [if_pos (hall d List.mem_cons_self)]
            exact (ih _).mpr
              ⟨ds, hds, fun x hx => hall x (List.mem_cons_of_mem d hx), (ofDigits_after base acc d ds).symm⟩

theorem readBase_zero {base n : Nat} {cs : List Char} :
    readBase base 0 cs = some n ↔ Writes base cs n := by
  rw [readBase_eq_some, Writes]
  simp

/-! ### Numerals -/

/-- Characters are the numeral of a number: in base sixteen, in base eight, or in base ten with at most
so many digits. -/
inductive Numeral (limit : Option Nat) : List Char → Nat → Prop
  | hex {x : Char} {digits : List Char} {n : Nat} (hx : x = 'x' ∨ x = 'X') (hne : digits ≠ [])
      (h : Writes 16 digits n) : Numeral limit ('0' :: x :: digits) n
  | octal {digits : List Char} {n : Nat} (h : Writes 8 digits n) : Numeral limit ('0' :: digits) n
  | decimal {digits : List Char} {n : Nat} (hne : digits ≠ []) (hfirst : digits.head? ≠ some '0')
      (hlimit : ∀ most, limit = some most → digits.length ≤ most) (h : Writes 10 digits n) :
      Numeral limit digits n

/-- A numeral begins with a digit below ten. -/
theorem Numeral.head {limit : Option Nat} {cs : List Char} {n : Nat} (h : Numeral limit cs n) :
    ∃ c rest, cs = c :: rest ∧ c.isDigit = true := by
  cases h with
  | hex => exact ⟨'0', _, rfl, rfl⟩
  | octal => exact ⟨'0', _, rfl, rfl⟩
  | decimal hne _ _ h =>
      obtain ⟨ds, hds, hbase, -⟩ := h
      cases hds with
      | nil => exact absurd rfl hne
      | @cons c d rest _ hd _ =>
          refine ⟨c, rest, rfl, ?_⟩
          have hten : d < 10 := hbase d List.mem_cons_self
          interval_cases d <;> rcases hd with hd | hd <;> cases hd <;> rfl

theorem not_writesDigit {c : Char} (h : digitValue? c = none) (d : Nat) : ¬ WritesDigit c d := by
  intro hd
  rw [digitValue?_eq_some.mpr hd] at h
  cases h

/-- No digit is a line feed. -/
theorem Writes.not_mem {base : Nat} {cs : List Char} {n : Nat} (h : Writes base cs n) : '\n' ∉ cs := by
  obtain ⟨ds, hds, -⟩ := h
  induction hds with
  | nil => nofun
  | cons hd _ ih =>
      rintro (_ | ⟨_, hmem⟩)
      · exact not_writesDigit rfl _ hd
      · exact ih hmem

theorem Numeral.not_mem {limit : Option Nat} {cs : List Char} {n : Nat} (h : Numeral limit cs n) :
    '\n' ∉ cs := by
  cases h with
  | hex hx _ h =>
      rcases hx with rfl | rfl <;> simpa using h.not_mem
  | octal h => simpa using h.not_mem
  | decimal _ _ _ h => exact h.not_mem

/-- The limit is one for numerals that do not begin with a zero. -/
theorem numeral_iff {limit : Option Nat} {cs : List Char} {n : Nat} :
    Numeral limit cs n ↔ Numeral none cs n ∧
      ∀ most, limit = some most → cs.head? ≠ some '0' → cs.length ≤ most := by
  constructor
  · intro h
    cases h with
    | hex hx hne h => exact ⟨.hex hx hne h, fun _ _ hhead => absurd rfl hhead⟩
    | octal h => exact ⟨.octal h, fun _ _ hhead => absurd rfl hhead⟩
    | decimal hne hfirst hlimit h =>
        exact ⟨.decimal hne hfirst (fun _ hmost => nomatch hmost) h, fun most hmost _ => hlimit most hmost⟩
  · rintro ⟨h, hlimit⟩
    cases h with
    | hex hx hne h => exact .hex hx hne h
    | octal h => exact .octal h
    | decimal hne hfirst _ h => exact .decimal hne hfirst (fun most hmost => hlimit most hmost hfirst) h

/-- Exactly the numerals are read, each as the number that it writes. -/
theorem literal?_eq_some {cs : List Char} {n : Nat} : literal? cs = some n ↔ Numeral none cs n := by
  constructor
  · intro h
    unfold literal? at h
    split at h
    · cases h
    · rename_i x rest
      split at h
      · rename_i hx
        split at h
        · cases h
        · rename_i hne
          exact .hex (by simpa using hx) (by simpa using hne) (readBase_zero.mp h)
      · exact .octal (readBase_zero.mp h)
    · rename_i hne hzero
      by_cases hfirst : cs.head? = some '0'
      · obtain ⟨rest, rfl⟩ := List.head?_eq_some_iff.mp hfirst
        cases rest with
        | nil =>
            cases h
            exact .octal ⟨[], .nil, by simp, rfl⟩
        | cons x rest => exact absurd rfl (hzero x rest)
      · exact .decimal hne hfirst (fun _ hmost => nomatch hmost) (readBase_zero.mp h)
  · intro h
    cases h with
    | @hex x digits _ hx hne h =>
        show (if x == 'x' || x == 'X' then if digits.isEmpty then none else readBase 16 0 digits
          else readBase 8 0 (x :: digits)) = some n
        rw [if_pos (by simpa using hx), if_neg (by simpa using hne)]
        exact readBase_zero.mpr h
    | @octal digits _ h =>
        cases digits with
        | nil =>
            obtain ⟨ds, hds, -, rfl⟩ := h
            cases hds
            rfl
        | cons x rest =>
            have hx : ¬ (x == 'x' || x == 'X') = true := by
              obtain ⟨ds, hds, -, -⟩ := h
              cases hds with
              | cons hd _ =>
                  intro hx
                  rw [Bool.or_eq_true, beq_iff_eq, beq_iff_eq] at hx
                  rcases hx with rfl | rfl <;> exact not_writesDigit rfl _ hd
            show (if x == 'x' || x == 'X' then _ else readBase 8 0 (x :: rest)) = some n
            rw [if_neg hx]
            exact readBase_zero.mpr h
    | decimal hne hfirst _ h =>
        rw [← readBase_zero] at h
        unfold literal?
        split
        · exact absurd rfl hne
        · exact absurd rfl hfirst
        · exact h

/-! ### Numbers in parts of a selector -/

variable {limit : Option Nat} {name text : String} {n : Nat}

/-- A part is written exactly, or with a line feed behind it. -/
def Loosely (part exact : String) : Prop := part = exact ∨ part = exact ++ "\n"

theorem Loosely.eq {part exact : String} (h : Loosely part exact)
    (hend : part.toList.getLast? ≠ some '\n') : part = exact := by
  refine h.resolve_right ?_
  rintro rfl
  exact hend (by rw [String.toList_append]; exact List.getLast?_concat)

theorem dropFinalLineFeed_eq (h : '\n' ∉ text.toList) : dropFinalLineFeed text.toList = text.toList := by
  unfold dropFinalLineFeed
  rw [if_neg]
  intro hlast
  exact h (List.mem_of_getLast? (eq_of_beq hlast))

theorem dropFinalLineFeed_append (exact : String) :
    dropFinalLineFeed (exact ++ "\n").toList = exact.toList := by
  rw [String.toList_append]
  show dropFinalLineFeed (exact.toList ++ ['\n']) = _
  unfold dropFinalLineFeed
  rw [List.getLast?_concat, List.dropLast_concat]
  rfl

theorem loosely_dropFinalLineFeed (text : String) :
    Loosely text (String.ofList (dropFinalLineFeed text.toList)) := by
  unfold dropFinalLineFeed
  split
  · rename_i hlast
    obtain ⟨front, hfront⟩ := List.getLast?_eq_some_iff.mp (eq_of_beq hlast)
    refine .inr (String.toList_inj.mp ?_)
    rw [hfront, List.dropLast_concat, String.toList_append, String.toList_ofList]
    rfl
  · exact .inl String.ofList_toList.symm

theorem checkLength_eq_ok : checkLength limit text = .ok () ↔ ∀ most, limit = some most →
    (dropFinalLineFeed text.toList).head? ≠ some '0' →
      (dropFinalLineFeed text.toList).length ≤ most := by
  unfold checkLength
  generalize dropFinalLineFeed text.toList = digits
  cases limit with
  | none => simp
  | some most =>
      by_cases hzero : digits.head? = some '0'
      · simp [hzero]
      · by_cases hlong : most < digits.length
        · simp [hzero, hlong]
        · simp [hzero, hlong, Nat.le_of_not_lt hlong]

theorem number_eq_ok_iff :
    number limit name text = .ok n ↔ Numeral limit (dropFinalLineFeed text.toList) n := by
  rw [numeral_iff, ← literal?_eq_some, ← checkLength_eq_ok]
  unfold number number?
  constructor
  · intro hok
    split at hok
    · rename_i hn
      obtain ⟨_, hcheck, rfl⟩ := map_ok.mp hok
      exact ⟨hn, hcheck⟩
    · cases hok
  · rintro ⟨hn, hcheck⟩
    rw [hn, hcheck]
    rfl

/-- A number is read from the numerals within the limit. -/
theorem number_eq_ok (h : '\n' ∉ text.toList) :
    number limit name text = .ok n ↔ Numeral limit text.toList n := by
  rw [number_eq_ok_iff, dropFinalLineFeed_eq h]

/-- A number is read from the numerals and from those with a line feed behind them. -/
theorem number_eq_ok_loosely :
    number limit name text = .ok n ↔ ∃ exact, Loosely text exact ∧ Numeral limit exact.toList n := by
  rw [number_eq_ok_iff]
  constructor
  · intro h
    exact ⟨_, loosely_dropFinalLineFeed text, by rwa [String.toList_ofList]⟩
  · rintro ⟨exact, rfl | rfl, h⟩
    · rwa [dropFinalLineFeed_eq h.not_mem]
    · rwa [dropFinalLineFeed_append]

/-- A length is complained of only if it is beyond a limit. -/
theorem tooLong_of_number {digits most : Nat}
    (h : number limit name text = .error (.tooLong digits most)) :
    limit = some most ∧ most < digits := by
  unfold number at h
  split at h
  · unfold checkLength at h
    cases limit with
    | none => cases h
    | some m =>
        simp only at h
        split at h
        · rename_i hlong
          cases h
          simp only [Bool.and_eq_true, decide_eq_true_eq] at hlong
          exact ⟨rfl, hlong.2⟩
        · cases h
  · cases h

end MediaCommand.Selector
