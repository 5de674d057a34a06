/-
Output pads that are named explicitly.

An output pad can be named by its index or by digits, which are read in base ten whatever script they
are from.  `Denotes` says which pad that is without mentioning how a selector is taken apart, and a
selector is resolved to the pad that it denotes if the chain has it.

What a text of digits is and which texts can be read are two questions.  A superscript or a circled
digit counts as a digit and stands in no numeral, and no numeral of more than 4300 digits is read.  Such
a text is `Illegible`; it is taken for digits, and reading it then fails without a word about the pad.
Every other selector fails for the pad that it names or for naming none.

A selector reaches a chain in several calls.  All of them are refused for the cause that resolving it
has, and a refused call leaves the session as it is.  Only a mapping asks for more: the pad must not be
taken.
-/
import Mathlib.Data.List.Pairwise
import MediaCommand.Objects.Query
import MediaCommand.Proofs.Handover
import MediaCommand.Proofs.Numerals
import MediaCommand.Proofs.OneByOne

namespace MediaCommand

namespace Text

/-! ### Digits of any script -/

/-- A character is the digit of a script that is worth so much. -/
def DigitOf (c : Char) (d : Nat) : Prop := d < 10 ∧ ∃ z ∈ decimalZeros, c.toNat = z + d

/-- Characters are the digits of a number in base ten, the digit of most worth first. -/
def ReadsAs (cs : List Char) (n : Nat) : Prop :=
  ∃ ds, List.Forall₂ DigitOf cs ds ∧ n = Nat.ofDigits 10 ds.reverse

/-- No two scripts share a digit. -/
theorem decimalZeros_apart {a b : Nat} (ha : a ∈ decimalZeros) (hb : b ∈ decimalZeros)
    (hne : a ≠ b) : a + 10 ≤ b ∨ b + 10 ≤ a := by
  have htrans : IsTrans Nat fun a b => a + 10 ≤ b := ⟨fun a b c hab hbc => by omega⟩
  have hsorted : decimalZeros.Pairwise fun a b => a + 10 ≤ b :=
    List.isChain_iff_pairwise.mp (by decide +kernel)
  have hsymm : Std.Symm fun a b => a + 10 ≤ b ∨ b + 10 ≤ a := ⟨fun _ _ => Or.symm⟩
  have hapart : decimalZeros.Pairwise fun a b => a + 10 ≤ b ∨ b + 10 ≤ a :=
    hsorted.imp fun h => Or.inl h
  exact hapart.forall ha hb hne

theorem decimalDigit?_eq_some {c : Char} {d : Nat} : decimalDigit? c = some d ↔ DigitOf c d := by
  unfold decimalDigit?
  rw [Option.map_eq_some_iff]
  constructor
  · rintro ⟨z, hfind, rfl⟩
    have hrange := List.find?_some hfind
    simp only [Bool.and_eq_true, decide_eq_true_eq] at hrange
    exact ⟨by omega, z, List.mem_of_find?_eq_some hfind, by omega⟩
  · rintro ⟨hd, z, hz, hc⟩
    cases hfind : decimalZeros.find? fun z => z ≤ c.toNat && c.toNat < z + 10 with
    | none =>
        have hout := List.find?_eq_none.mp hfind z hz
        simp only [Bool.and_eq_true, decide_eq_true_eq] at hout
        omega
    | some z' =>
        have hrange := List.find?_some hfind
        simp only [Bool.and_eq_true, decide_eq_true_eq] at hrange
        refine ⟨z', rfl, ?_⟩
        by_cases hsame : z' = z
        · omega
        · have hapart := decimalZeros_apart (List.mem_of_find?_eq_some hfind) hz hsame
          omega

/-- A digit of a numeral counts as a digit. -/
theorem isDigitLike_of_digitOf {c : Char} {d : Nat} (h : DigitOf c d) : isDigitLike c = true := by
  simp only [isDigitLike, decimalDigit?_eq_some.mpr h, Option.isSome_some, Bool.true_or]

/-- Digits are read one by one, after a number that was read before. -/
theorem readDigits_eq_some {n : Nat} (cs : List Char) :
    ∀ acc, readDigits acc cs = some n ↔
      ∃ ds, List.Forall₂ DigitOf cs ds ∧
        n = acc * 10 ^ ds.length + Nat.ofDigits 10 ds.reverse := by
  induction cs with
  | nil =>
      intro acc
      simp [readDigits, eq_comm]
  | cons c rest ih =>
      intro acc
      rw [readDigits, Option.bind_eq_some_iff]
      constructor
      · rintro ⟨d, hd, h⟩
        obtain ⟨ds, hds, rfl⟩ := (ih _).mp h
        exact ⟨d :: ds, .cons (decimalDigit?_eq_some.mp hd) hds,
          Selector.ofDigits_after 10 acc d ds⟩
      · rintro ⟨ds, hds, rfl⟩
        cases hds with
        | @cons _ d _ ds hd hds =>
            exact ⟨d, decimalDigit?_eq_some.mpr hd,
              (ih _).mpr ⟨ds, hds, (Selector.ofDigits_after 10 acc d ds).symm⟩⟩

theorem readDigits_zero {cs : List Char} {n : Nat} : readDigits 0 cs = some n ↔ ReadsAs cs n := by
  rw [readDigits_eq_some, ReadsAs]
  simp

/-- A numeral that is not too long is read as the number that its digits are. -/
theorem decimalNat?_eq_some {cs : List Char} {n : Nat} :
    decimalNat? cs = some n ↔ cs ≠ [] ∧ cs.length ≤ maxIntegerDigits ∧ ReadsAs cs n := by
  unfold decimalNat?
  split
  · rename_i hout
    simp only [Bool.or_eq_true, List.isEmpty_iff, decide_eq_true_eq] at hout
    refine ⟨(nomatch ·), fun ⟨hne, hlength, _⟩ => ?_⟩
    rcases hout with hnil | hlong
    · exact absurd hnil hne
    · exact absurd hlength (Nat.not_le_of_lt hlong)
  · rename_i hin
    simp only [Bool.or_eq_true, List.isEmpty_iff, decide_eq_true_eq, not_or, Nat.not_lt] at hin
    rw [readDigits_zero]
    exact ⟨fun h => ⟨hin.1, hin.2, h⟩, fun h => h.2.2⟩

/-- Characters that are all digits of numerals are the digits of some number. -/
theorem exists_readsAs {cs : List Char} (h : ∀ c ∈ cs, ∃ d, DigitOf c d) : ∃ n, ReadsAs cs n := by
  obtain ⟨ds, hds⟩ : ∃ ds, List.Forall₂ DigitOf cs ds := by
    induction cs with
    | nil => exact ⟨[], .nil⟩
    | cons c rest ih =>
        obtain ⟨d, hd⟩ := h c List.mem_cons_self
        obtain ⟨ds, hds⟩ := ih fun x hx => h x (List.mem_cons_of_mem c hx)
        exact ⟨d :: ds, .cons hd hds⟩
  exact ⟨_, ds, hds, rfl⟩

/-- Characters are the digits of one number. -/
theorem ReadsAs.unique {cs : List Char} {n n' : Nat} (h : ReadsAs cs n) (h' : ReadsAs cs n') :
    n = n' :=
  Option.some.inj ((readDigits_zero.mpr h).symm.trans (readDigits_zero.mpr h'))

theorem ReadsAs.digits {cs : List Char} {n : Nat} (h : ReadsAs cs n) {c : Char} (hc : c ∈ cs) :
    ∃ d, DigitOf c d := by
  obtain ⟨ds, hds, -⟩ := h
  induction hds with
  | nil => cases hc
  | @cons _ d _ _ hd _ ih =>
      rcases List.mem_cons.mp hc with rfl | hrest
      · exact ⟨d, hd⟩
      · exact ih hrest

end Text

/-! ### Selectors -/

namespace Value

/-- A value names an output pad by itself: a number, a truth value or a text. -/
inductive Explicit : Value → Prop
  | whole (n : Int) : Explicit (.int n)
  | truth (b : Bool) : Explicit (.bool b)
  | floating (x : Double) : Explicit (.float x)
  | text (s : String) : Explicit (.text s)

/-- The pad that a selector denotes: by its index, or by digits in base ten. -/
inductive Denotes : Value → Nat → Prop
  | index (n : Nat) : Denotes (.int n) n
  | digits {s : String} {n : Nat} (hne : s.toList ≠ []) (h : Text.ReadsAs s.toList n) :
      Denotes (.text s) n

/-- A selector counts as digits and cannot be read: one of them is no digit of a numeral, or there are
too many. -/
inductive Illegible : Value → Prop
  | ornamental {s : String} {c : Char} (hall : ∀ c ∈ s.toList, Text.isDigitLike c = true)
      (hc : c ∈ s.toList) (hnone : ∀ d, ¬Text.DigitOf c d) : Illegible (.text s)
  | long {s : String} (hall : ∀ c ∈ s.toList, Text.isDigitLike c = true)
      (hlong : Text.maxIntegerDigits < s.toList.length) : Illegible (.text s)

end Value

namespace Chain

/-- The failures for want of a pad: the selector names none, or one that the chain does not have. -/
inductive NoSuchPad (c : Chain) (selector : Value) : Error → Prop
  | unnamed : NoSuchPad c selector (.padSelector selector)
  | outside (index : Int) : NoSuchPad c selector (.padOutOfRange index c.last.name c.outputArity)

variable {c : Chain} {id : ChainId} {selector : Value} {pad : Nat}

theorem padAt_eq_ok {index : Int} :
    c.padAt index = .ok pad ↔ index = pad ∧ c.outputArity.hasPad pad = true := by
  unfold padAt
  split
  · rename_i hhas
    have hindex : (index.toNat : Int) = index :=
      Int.toNat_of_nonneg (Arity.nonneg_of_hasPad hhas)
    constructor
    · intro h
      cases h
      rw [hindex]
      exact ⟨rfl, hhas⟩
    · rintro ⟨rfl, -⟩
      rfl
  · rename_i hlacks
    exact ⟨(nomatch ·), fun ⟨hindex, hhas⟩ => absurd (hindex ▸ hhas) hlacks⟩

theorem padAt_error {index : Int} {e : Error} (h : c.padAt index = .error e) :
    c.NoSuchPad selector e := by
  unfold padAt at h
  split at h
  · cases h
  · cases h
    exact .outside index

/-- A text that does not count as digits is refused as it is. -/
theorem resolvePad_not_digits {s : String}
    (h : ¬(s.toList ≠ [] ∧ ∀ ch ∈ s.toList, Text.isDigitLike ch = true)) :
    c.resolvePad id (.text s) = .error (.padSelector (.text s)) := by
  have hdigits : (!s.toList.isEmpty && s.toList.all Text.isDigitLike) = false := by
    rw [Bool.eq_false_iff]
    simpa only [ne_eq, Bool.and_eq_true, Bool.not_eq_true', List.isEmpty_eq_false_iff,
      List.all_eq_true] using h
  simp only [resolvePad, hdigits, Bool.false_eq_true, if_false]

theorem resolvePad_digits {s : String} (hne : s.toList ≠ [])
    (hall : ∀ ch ∈ s.toList, Text.isDigitLike ch = true) :
    c.resolvePad id (.text s) = match Text.decimalNat? s.toList with
      | some n => c.padAt n
      | none => .error (.fault .wrongValue) := by
  have hdigits : (!s.toList.isEmpty && s.toList.all Text.isDigitLike) = true := by
    simpa only [Bool.and_eq_true, Bool.not_eq_true', List.isEmpty_eq_false_iff,
      List.all_eq_true] using ⟨hne, hall⟩
  cases hread : Text.decimalNat? s.toList <;> simp only [resolvePad, hdigits, if_true, hread]

/-- What counts as digits and cannot be read fails for that. -/
theorem resolvePad_illegible (h : selector.Illegible) :
    c.resolvePad id selector = .error (.fault .wrongValue) := by
  have hnone : ∀ {s : String}, s.toList ≠ [] → (∀ ch ∈ s.toList, Text.isDigitLike ch = true) →
      (∀ n, Text.decimalNat? s.toList ≠ some n) →
      c.resolvePad id (.text s) = .error (.fault .wrongValue) := by
    intro s hne hall hunread
    rw [resolvePad_digits hne hall, Option.eq_none_iff_forall_ne_some.mpr hunread]
  cases h with
  | ornamental hall hc hnodigit =>
      refine hnone (List.ne_nil_of_mem hc) hall fun n hn => ?_
      obtain ⟨d, hd⟩ := (Text.decimalNat?_eq_some.mp hn).2.2.digits hc
      exact hnodigit d hd
  | long hall hlong =>
      refine hnone (List.ne_nil_of_length_pos (Nat.zero_lt_of_lt hlong)) hall fun n hn => ?_
      exact absurd (Text.decimalNat?_eq_some.mp hn).2.1 (Nat.not_le_of_lt hlong)

/-- Digits that can be read are resolved to the pad with that index. -/
theorem resolvePad_legible (c : Chain) (id : ChainId) {s : String} (hne : s.toList ≠ [])
    (hall : ∀ ch ∈ s.toList, Text.isDigitLike ch = true) (h : ¬(Value.text s).Illegible) :
    ∃ n, Text.ReadsAs s.toList n ∧ c.resolvePad id (.text s) = c.padAt n := by
  have hdigits : ∀ ch ∈ s.toList, ∃ d, Text.DigitOf ch d := by
    intro ch hch
    by_contra hnone
    exact h (.ornamental hall hch (not_exists.mp hnone))
  have hlength : s.toList.length ≤ Text.maxIntegerDigits :=
    Nat.le_of_not_lt fun hlong => h (.long hall hlong)
  obtain ⟨n, hn⟩ := Text.exists_readsAs hdigits
  refine ⟨n, hn, ?_⟩
  rw [resolvePad_digits hne hall, Text.decimalNat?_eq_some.mpr ⟨hne, hlength, hn⟩]

/-- **A selector that can be read is resolved to the pad that it denotes**, if the chain has that pad,
and fails for the pad otherwise. -/
theorem resolvePad_explicit (hexplicit : selector.Explicit) (h : ¬selector.Illegible) :
    (∀ pad, c.resolvePad id selector = .ok pad ↔
      selector.Denotes pad ∧ c.outputArity.hasPad pad = true) ∧
      ∀ e, c.resolvePad id selector = .error e → c.NoSuchPad selector e := by
  have hrefused : ∀ {v : Value}, (∀ pad, ¬v.Denotes pad) →
      c.resolvePad id v = .error (.padSelector v) →
      (∀ pad, c.resolvePad id v = .ok pad ↔ v.Denotes pad ∧ c.outputArity.hasPad pad = true) ∧
        ∀ e, c.resolvePad id v = .error e → c.NoSuchPad v e := by
    intro v hnone hv
    rw [hv]
    refine ⟨fun pad => ⟨(nomatch ·), fun hd => absurd hd.1 (hnone pad)⟩, fun e he => ?_⟩
    cases he
    exact .unnamed
  cases hexplicit with
  | whole n =>
      refine ⟨fun pad => padAt_eq_ok.trans ?_, fun e he => padAt_error he⟩
      refine and_congr_left fun _ => ⟨fun hn => hn ▸ .index pad, fun hd => ?_⟩
      cases hd
      rfl
  | truth b => exact hrefused (fun _ hd => nomatch hd) rfl
  | floating x => exact hrefused (fun _ hd => nomatch hd) rfl
  | text s =>
      by_cases hdigits : s.toList ≠ [] ∧ ∀ ch ∈ s.toList, Text.isDigitLike ch = true
      · obtain ⟨n, hn, hread⟩ := resolvePad_legible c id hdigits.1 hdigits.2 h
        rw [hread]
        refine ⟨fun pad => padAt_eq_ok.trans ?_, fun e he => padAt_error he⟩
        refine and_congr_left fun _ => ⟨fun heq => ?_, fun hd => ?_⟩
        · obtain rfl : n = pad := Int.ofNat_inj.mp heq
          exact .digits hdigits.1 hn
        · cases hd with
          | digits _ hpad => exact Int.ofNat_inj.mpr (hn.unique hpad)
      · refine hrefused (fun pad hd => ?_) (resolvePad_not_digits hdigits)
        cases hd with
        | digits hne hpad =>
            refine hdigits ⟨hne, fun ch hch => ?_⟩
            obtain ⟨d, hd⟩ := hpad.digits hch
            exact Text.isDigitLike_of_digitOf hd

/-- What an explicit selector is resolved to depends on the filters alone. -/
theorem resolvePad_of_filters {c' : Chain} (hexplicit : selector.Explicit)
    (h : c'.filters = c.filters) : c'.resolvePad id selector = c.resolvePad id selector := by
  have hlast : c'.last = c.last := by simp only [last, h]
  have hat : ∀ index, c'.padAt index = c.padAt index := by
    intro index
    unfold padAt outputArity
    rw [hlast]
  cases hexplicit <;> simp only [resolvePad, hat]

/-- A chain without the pads that are taken for outputs and referred to. -/
def withoutPads (c : Chain) : Chain := { c with references := [], mapped := [] }

end Chain

namespace Objects

variable {o o' : Objects} {c : Chain} {id : ChainId} {selector : Value} {command : Command}

/-! ### A pair of a chain and a selector as a mapping source -/

/-- A chain with a selector is a source as far as the selector is resolved and the pad is not taken. -/
theorem resolveSource_chain (hc : o.chain? id = some c)
    (hin : o.chainInGraphs command.graphs id = true) :
    (∀ e, c.resolvePad id selector = .error e →
      o.resolveSource command (.object (.chain id)) selector = .error e) ∧
    ∀ pad, c.resolvePad id selector = .ok pad →
      (c.isConsumed pad = true → o.resolveSource command (.object (.chain id)) selector
        = .error (.padTaken id (.int pad))) ∧
      (c.isConsumed pad = false → ∃ o' r,
        o.resolveSource command (.object (.chain id)) selector = .ok (o', r) ∧
          r.source.source = .pad id pad) := by
  have hmember := checkChain_ok.mpr hin
  refine ⟨fun e he => ?_, fun pad hpad => ⟨fun htaken => ?_, fun hfree => ?_⟩⟩
  · simp only [resolveSource, hmember, chain_ok.mpr hc, he, bind, Except.bind]
  · simp only [resolveSource, hmember, chain_ok.mpr hc, hpad, markMapped_int hc, htaken, bind,
      Except.bind, if_true]
  · refine ⟨((o.setChain id (c.addMark (.int pad))).referTo id pad).1,
      ⟨((o.setChain id (c.addMark (.int pad))).referTo id pad).2, true⟩, ?_, rfl⟩
    simp only [resolveSource, hmember, chain_ok.mpr hc, hpad, markMapped_int hc, hfree, bind,
      Except.bind, Bool.false_eq_true, if_false]
    rfl

/-- Sources are resolved: pads of chains are taken and referred to, specifiers are made, and everything
else stays as it is. -/
structure TakesPads (o o' : Objects) : Prop where
  filters : o'.filters = o.filters
  specifiers : ∃ more, o'.specifiers = o.specifiers ++ more
  chains : o'.chains.map Chain.withoutPads = o.chains.map Chain.withoutPads
  graphs : o'.graphs = o.graphs
  inputs : o'.inputs = o.inputs
  outputs : o'.outputs = o.outputs
  commands : o'.commands = o.commands

namespace TakesPads

theorem refl (o : Objects) : TakesPads o o :=
  ⟨rfl, ⟨[], (List.append_nil _).symm⟩, rfl, rfl, rfl, rfl, rfl⟩

theorem trans {o₁ o₂ o₃ : Objects} (h : TakesPads o₁ o₂) (h' : TakesPads o₂ o₃) :
    TakesPads o₁ o₃ where
  filters := h'.filters.trans h.filters
  specifiers := by
    obtain ⟨more, hmore⟩ := h.specifiers
    obtain ⟨more', hmore'⟩ := h'.specifiers
    exact ⟨more ++ more', by rw [hmore', hmore, List.append_assoc]⟩
  chains := h'.chains.trans h.chains
  graphs := h'.graphs.trans h.graphs
  inputs := h'.inputs.trans h.inputs
  outputs := h'.outputs.trans h.outputs
  commands := h'.commands.trans h.commands

theorem chain? (h : TakesPads o o') (id : ChainId) :
    (o'.chain? id).map Chain.withoutPads = (o.chain? id).map Chain.withoutPads := by
  have hget := congrArg (fun l => l[id.index]?) h.chains
  simpa only [Objects.chain?, List.getElem?_map] using hget

/-- Every chain has the filters and inputs that it had, and its place. -/
theorem chain (h : TakesPads o o') (hc : o.chain? id = some c) : ∃ c', o'.chain? id = some c' ∧
    c'.filters = c.filters ∧ c'.inputs = c.inputs ∧ c'.position = c.position := by
  have hmap := h.chain? id
  rw [hc] at hmap
  obtain ⟨c', hc', hsame⟩ := Option.map_eq_some_iff.mp hmap
  simp only [Chain.withoutPads, Chain.mk.injEq] at hsame
  exact ⟨c', hc', hsame.1, hsame.2.1, hsame.2.2.2.2.2⟩

end TakesPads

theorem Resolves.takesPads {r : Resolved} (h : Resolves o command o' r) : TakesPads o o' := by
  cases h with
  | givenStream => exact .refl o
  | givenPad made on member hch =>
      exact ⟨rfl, ⟨[], (List.append_nil _).symm⟩, map_set_eq hch rfl, rfl, rfl, rfl, rfl⟩
  | input => exact ⟨rfl, ⟨_, rfl⟩, rfl, rfl, rfl, rfl, rfl⟩
  | chain member hch =>
      rename_i x pad ch _ _ _
      have hmarked := chain?_setChain_self (ch.addMark (.int pad)) hch
      rw [referTo_eq pad hmarked, setChain_setChain]
      exact ⟨rfl, ⟨_, rfl⟩, map_set_eq hch rfl, rfl, rfl, rfl, rfl⟩

theorem resolveEntries_takesPads {entries : List Value} {specifiers : List Specifier} :
    ∀ {o : Objects} {done : List Resolved},
      (o.resolveEntries command done entries).result = .ok specifiers →
      TakesPads o (o.resolveEntries command done entries).objects := by
  induction entries with
  | nil => exact fun _ => .refl _
  | cons entry rest ih =>
      intro o done h
      simp only [resolveEntries] at h ⊢
      split at h
      · rename_i o₁ r hr
        exact (resolveEntry_ok hr).takesPads.trans (ih h)
      · cases h

/-- The entries behind those that are resolved are resolved at the objects that these leave. -/
theorem resolveEntries_append (rest : List Value) {before : List Value}
    {specifiers : List Specifier} : ∀ {o : Objects} {done : List Resolved},
      (o.resolveEntries command done before).result = .ok specifiers →
      ∃ done', o.resolveEntries command done (before ++ rest) =
        (o.resolveEntries command done before).objects.resolveEntries command done' rest := by
  induction before with
  | nil => exact fun {_ done} _ => ⟨done, rfl⟩
  | cons entry before ih =>
      intro o done h
      simp only [resolveEntries, List.cons_append] at h ⊢
      split at h
      · exact ih h
      · cases h

/-- A call that adds an output is refused as the first entry is that cannot be resolved. -/
theorem perform_addOutput_error {m : CommandId} {output : OutputId} {mappings entry : Value}
    {before after : List Value} {specifiers : List Specifier} {e : Error} (hs : Sound o)
    (hcommand : o.command? m = some command) (hout : (o.output? output).isSome)
    (hnew : output ∉ command.outputs)
    (hentries : o.mappingEntries mappings = .ok (before ++ entry :: after))
    (hbefore : (o.resolveEntries command [] before).result = .ok specifiers)
    (he : (o.resolveEntries command [] before).objects.resolveEntry command entry = .error e) :
    (o.perform (.addOutput m (.object (.output output)) mappings)).result
      = .error ⟨e, (o.resolveEntries command [] before).objects⟩ := by
  obtain ⟨out, hout⟩ := Option.isSome_iff_exists.mp hout
  obtain ⟨done, happend⟩ := resolveEntries_append (entry :: after) hbefore
  have hall : (o.resolveEntries command [] (before ++ entry :: after)).result
      = .error ⟨e, (o.resolveEntries command [] before).objects⟩ := by
    rw [happend]
    simp only [resolveEntries, he]
  have hcall := perform_addOutput hcommand hout hnew hs (Or.inr hentries)
  rw [hall] at hcall
  exact hcall

/-! ### Calls that name a pad -/

/-- A call hands out a specifier for the pad of a chain that a selector names. -/
inductive AsksForPad (id : ChainId) (selector : Value) : Action → Prop
  | outputPad : AsksForPad id selector (.outputPad id selector)
  | fromFilterOutput : AsksForPad id selector (.fromFilterOutput (.object (.chain id)) selector)

/-- A call maps the pad of a chain in a graph of the command that a selector names: to an output of the
command, or with an output that it adds, behind entries that are resolved.  The selector is resolved at
the objects named last. -/
inductive MapsPad (o : Objects) (id : ChainId) (selector : Value) (command : Command) :
    Action → Objects → Prop
  | map {m : CommandId} {output : OutputId} (hcommand : o.command? m = some command)
      (hgraph : o.chainInGraphs command.graphs id = true) (hout : (o.output? output).isSome)
      (hin : output ∈ command.outputs) :
      MapsPad o id selector command (.map m (.object (.output output)) (.object (.chain id)) selector) o
  | addOutput {m : CommandId} {output : OutputId} {mappings entry : Value} {before after : List Value}
      {specifiers : List Specifier} (hcommand : o.command? m = some command)
      (hgraph : o.chainInGraphs command.graphs id = true) (hout : (o.output? output).isSome)
      (hnew : output ∉ command.outputs)
      (hentries : o.mappingEntries mappings = .ok (before ++ entry :: after))
      (hentry : entry.bare = .tuple [.object (.chain id), selector])
      (hbefore : (o.resolveEntries command [] before).result = .ok specifiers) :
      MapsPad o id selector command (.addOutput m (.object (.output output)) mappings)
        (o.resolveEntries command [] before).objects

variable {a : Action}

theorem AsksForPad.perform_eq (h : AsksForPad id selector a) :
    o.perform a = .ofExcept o (madeSpecifier (o.outputPad id selector)) := by
  cases h <;> rfl

/-- Handing out a specifier ends as resolving the selector does. -/
theorem AsksForPad.ends (h : AsksForPad id selector a) (hc : o.chain? id = some c) :
    (∀ e, c.resolvePad id selector = .error e → (o.perform a).result = .error ⟨e, o⟩) ∧
    ∀ pad, c.resolvePad id selector = .ok pad →
      ∃ made : Specifier, made.source = .pad id pad ∧ made ∈ (o.perform a).objects.specifiers ∧
        (o.perform a).result = .ok (.object (.specifier made.id)) ∧ (o.perform a).events = [] := by
  rw [h.perform_eq]
  refine ⟨fun e he => ?_, fun pad hpad => ?_⟩
  · have hrefused : o.outputPad id selector = .error e := by
      simp only [Objects.outputPad, chain_ok.mpr hc, he, bind, Except.bind]
    rw [hrefused]
    rfl
  · have hmade : o.outputPad id selector = .ok (o.referTo id pad) := by
      simp only [Objects.outputPad, chain_ok.mpr hc, hpad, bind, Except.bind]
      rfl
    rw [hmade]
    exact ⟨_, rfl, List.mem_append_right _ List.mem_cons_self, rfl, rfl⟩

namespace MapsPad

variable {o₁ : Objects}

theorem isGradual (h : MapsPad o id selector command a o₁) : a.isGradual = false := by
  cases h <;> rfl

/-- Where the selector is resolved the chain has the filters it had, and its graph is one of the
command. -/
theorem chain (h : MapsPad o id selector command a o₁) (hs : Sound o) (hc : o.chain? id = some c) :
    ∃ c₁, o₁.chain? id = some c₁ ∧ c₁.filters = c.filters ∧
      o₁.chainInGraphs command.graphs id = true := by
  cases h with
  | map hcommand hgraph => exact ⟨c, hc, rfl, hgraph⟩
  | addOutput hcommand hgraph hout hnew hentries hentry hbefore =>
      obtain ⟨c₁, hc₁, hfilters, -, -⟩ := (resolveEntries_takesPads hbefore).chain hc
      obtain ⟨new, -, trace, -, -⟩ := resolveEntries_ok hs hbefore
      exact ⟨c₁, hc₁, hfilters, trace.keeps.known (s := .pad id 0) hgraph⟩

/-- The call is refused as resolving the chain with the selector is. -/
theorem refused (h : MapsPad o id selector command a o₁) (hs : Sound o) {e : Error}
    (he : o₁.resolveSource command (.object (.chain id)) selector = .error e) :
    (o.perform a).result = .error ⟨e, o₁⟩ := by
  cases h with
  | map hcommand hgraph hout hin => exact perform_map_error hcommand hout hin he
  | addOutput hcommand hgraph hout hnew hentries hentry hbefore =>
      exact perform_addOutput_error hs hcommand hout hnew hentries hbefore
        ((resolveEntry_gives (.sourceAt hentry)).trans he)

end MapsPad

end Objects

namespace Session

open Objects

variable {s : Session} {c : Chain} {id : ChainId} {selector : Value} {a : Action}

/-- A call that is refused leaves the session as it is and answers the cause as it was put into words. -/
theorem act_refused_same (hs : s.objects.Sound) (ha : a.isGradual = false) {f : Failure}
    (h : (s.objects.perform a).result = .error f) :
    (s.act a).session = s ∧ (s.act a).result = .error (s.explainAt f) := by
  refine ⟨?_, act_error h⟩
  rw [(act_refused h).1, after, perform_refused hs ha h]

/-- What an explicit selector fails for has the same words whatever objects there are. -/
theorem explain_selector (hexplicit : selector.Explicit) {e : Error}
    (h : c.resolvePad id selector = .error e) : ∃ words, ∀ s : Session, s.explain e = ⟨e, words⟩ := by
  by_cases hlegible : selector.Illegible
  · rw [Chain.resolvePad_illegible hlegible] at h
    cases h
    exact ⟨none, fun s => explain_described rfl⟩
  · cases (Chain.resolvePad_explicit hexplicit hlegible).2 e h with
    | unnamed => cases hexplicit <;> exact ⟨_, fun s => explain_described rfl⟩
    | outside index => exact ⟨_, fun s => explain_described rfl⟩

/-- A pad that is taken is told of as such if the filters of its chain have a text. -/
theorem explain_padTaken {pad : Nat} (hc : s.objects.chain? id = some c) {text : String}
    (htext : filtersText s.scene.texts c = .ok text) :
    (s.explain (.padTaken id (.int pad))).cause = .padTaken id (.int pad) := by
  have hnamed : s.scene.objects.namedFilters s.scene.texts id = .ok text :=
    (namedFilters_of_chain s.scene.texts hc).trans htext
  rw [explain_described (by simp only [describe, describeGraphError, hnamed]; rfl)]

/-- Handing out a specifier in a session ends as resolving the selector does. -/
theorem act_asksForPad (h : AsksForPad id selector a) (hs : s.objects.Sound)
    (hc : s.objects.chain? id = some c) :
    (∀ e, c.resolvePad id selector = .error e →
      (s.act a).session = s ∧ (s.act a).result = .error (s.explain e)) ∧
    ∀ pad, c.resolvePad id selector = .ok pad →
      ∃ made : Specifier, made.source = .pad id pad ∧
        made ∈ (s.act a).session.objects.specifiers ∧
        (s.act a).result = .ok (.object (.specifier made.id)) := by
  have hgradual : a.isGradual = false := by cases h <;> rfl
  obtain ⟨hrefused, hmade⟩ := h.ends hc
  refine ⟨fun e he => act_refused_same hs hgradual (hrefused e he), fun pad hpad => ?_⟩
  obtain ⟨made, hsource, hin, hresult, hevents⟩ := hmade pad hpad
  obtain ⟨hsession, hanswer⟩ := act_done hresult
  rw [hevents] at hanswer
  refine ⟨made, hsource, ?_, hanswer⟩
  rw [hsession]
  exact hin

/-- A call is refused for a cause: it answers the cause, in words if it has any, and leaves the session
as it is. -/
def RefusedFor (s : Session) (a : Action) (e : Error) : Prop :=
  (s.act a).session = s ∧ ∃ words, (s.act a).result = .error ⟨e, words⟩

/-- A call maps the pad of a chain that a selector is resolved to unless the pad is taken when the call
comes to it. -/
structure MapsUnlessTaken (s : Session) (id : ChainId) (selector : Value) (pad : Nat)
    (command : Command) (a : Action) (o₁ : Objects) (c₁ : Chain) : Prop where
  /-- A pad that is taken keeps the call from changing anything. -/
  taken : c₁.isConsumed pad = true → (s.act a).session = s ∧
    (s.act a).result = .error (s.explainAt ⟨.padTaken id (.int pad), o₁⟩)
  /-- That is the cause that is answered, if the filters of the chain have a text. -/
  told : ∀ text, filtersText { s with objects := o₁ }.scene.texts c₁ = .ok text →
    (s.explainAt ⟨.padTaken id (.int pad), o₁⟩).cause = .padTaken id (.int pad)
  /-- Any other pad is resolved. -/
  free : c₁.isConsumed pad = false → ∃ o₂ r,
    o₁.resolveSource command (.object (.chain id)) selector = .ok (o₂, r) ∧ r.source.source = .pad id pad
  /-- A call that maps nothing else goes through then. -/
  single : c₁.isConsumed pad = false → ∀ m output source index, a = .map m output source index →
    ∃ v, (s.act a).result = .ok v

variable {command : Command} {o₁ : Objects}

theorem act_mapsPad_refused (h : MapsPad s.objects id selector command a o₁)
    (hexplicit : selector.Explicit) (hs : s.objects.Sound) (hc : s.objects.chain? id = some c)
    {e : Error} (he : c.resolvePad id selector = .error e) :
    (s.act a).session = s ∧ (s.act a).result = .error (s.explainAt ⟨e, o₁⟩) := by
  obtain ⟨c₁, hc₁, hfilters, hgraph⟩ := h.chain hs hc
  have he₁ := (Chain.resolvePad_of_filters hexplicit hfilters).trans he
  exact act_refused_same hs h.isGradual
    (h.refused hs ((resolveSource_chain hc₁ hgraph).1 e he₁))

theorem act_mapsPad (h : MapsPad s.objects id selector command a o₁) (hexplicit : selector.Explicit)
    (hs : s.objects.Sound) (hc : s.objects.chain? id = some c) {pad : Nat}
    (hpad : c.resolvePad id selector = .ok pad) :
    ∃ c₁, o₁.chain? id = some c₁ ∧ s.MapsUnlessTaken id selector pad command a o₁ c₁ := by
  obtain ⟨c₁, hc₁, hfilters, hgraph⟩ := h.chain hs hc
  have hpad₁ := (Chain.resolvePad_of_filters hexplicit hfilters).trans hpad
  obtain ⟨htaken, hfree⟩ := (resolveSource_chain hc₁ hgraph).2 pad hpad₁
  refine ⟨c₁, hc₁, fun hconsumed => ?_, fun text htext => explain_padTaken hc₁ htext, hfree,
    fun hunconsumed m output source index ha => ?_⟩
  · exact act_refused_same hs h.isGradual (h.refused hs (htaken hconsumed))
  · obtain ⟨o₂, r, hresolve, -⟩ := hfree hunconsumed
    cases h with
    | addOutput => cases ha
    | map hcommand _ hout hin =>
        obtain ⟨out, hout⟩ := Option.isSome_iff_exists.mp hout
        obtain ⟨v, hv, -⟩ := perform_map_ok hcommand hout hin hresolve
        exact ⟨v, (act_ok_of_records hs rfl hv).1⟩

theorem answer_resolvePad (hc : s.objects.chain? id = some c) :
    s.answer (s.objects.resolvePadAt id selector) = s.answer (c.resolvePad id selector) := by
  simp only [resolvePadAt, chain_ok.mpr hc, bind, Except.bind]

/-- **A selector that can be read fails for want of a pad and for nothing else.**  An explicit selector
is resolved to the pad that it denotes if the chain has it, and fails otherwise because it names none or
one that there is not; what counts as digits and cannot be read fails for that instead.  Every call that
names a pad by the selector is refused for the same cause and changes nothing, and goes through if the
selector is resolved, except that a pad that is taken cannot be mapped. -/
theorem explicit_selector_fails_for_pad (h : s.objects.Reachable) (hc : s.objects.chain? id = some c)
    (hexplicit : selector.Explicit) :
    (¬selector.Illegible →
      (∀ pad, c.resolvePad id selector = .ok pad ↔
        selector.Denotes pad ∧ c.outputArity.hasPad pad = true) ∧
      ∀ e, c.resolvePad id selector = .error e → c.NoSuchPad selector e) ∧
    (selector.Illegible → c.resolvePad id selector = .error (.fault .wrongValue)) ∧
    (∀ e, c.resolvePad id selector = .error e →
      (∃ words, s.answer (s.objects.resolvePadAt id selector) = ⟨s, [], .error ⟨e, words⟩⟩) ∧
      (∀ a, AsksForPad id selector a → s.RefusedFor a e) ∧
      ∀ command a o₁, MapsPad s.objects id selector command a o₁ → s.RefusedFor a e) ∧
    ∀ pad, c.resolvePad id selector = .ok pad →
      s.answer (s.objects.resolvePadAt id selector) = ⟨s, [], .ok pad⟩ ∧
      (∀ a, AsksForPad id selector a → ∃ made : Specifier, made.source = .pad id pad ∧
        made ∈ (s.act a).session.objects.specifiers ∧
        (s.act a).result = .ok (.object (.specifier made.id))) ∧
      ∀ command a o₁, MapsPad s.objects id selector command a o₁ →
        ∃ c₁, o₁.chain? id = some c₁ ∧ s.MapsUnlessTaken id selector pad command a o₁ c₁ := by
  refine ⟨Chain.resolvePad_explicit hexplicit, Chain.resolvePad_illegible, fun e he => ?_,
    fun pad hpad => ?_⟩
  · obtain ⟨words, hwords⟩ := explain_selector hexplicit he
    refine ⟨⟨words, ?_⟩, fun a ha => ?_, fun command a o₁ ha => ?_⟩
    · rw [answer_resolvePad hc, he, ← hwords s]
      rfl
    · obtain ⟨hsession, hresult⟩ := (act_asksForPad ha h.sound hc).1 e he
      exact ⟨hsession, words, hresult.trans (congrArg Except.error (hwords s))⟩
    · obtain ⟨hsession, hresult⟩ := act_mapsPad_refused ha hexplicit h.sound hc he
      exact ⟨hsession, words, hresult.trans (congrArg Except.error (hwords _))⟩
  · refine ⟨?_, fun a ha => (act_asksForPad ha h.sound hc).2 pad hpad,
      fun command a o₁ ha => act_mapsPad ha hexplicit h.sound hc hpad⟩
    rw [answer_resolvePad hc, hpad]
    rfl

/-- A session with a chain that has three output pads and stands in a graph of a command with an
output. -/
def threePadSession : Session where
  objects := Objects.afterCalls {}
    [.act (.newFilter (.text "split") .null (.int 1) (.int 3)),
      .act (.newChain (.object (.filter ⟨0⟩))),
      .act (.newGraph (.object (.chain ⟨0⟩))),
      .act (.newCommand .null none),
      .act (.addGraph ⟨0⟩ (.object (.graph ⟨0⟩)) .null),
      .act (.newOutput (.text "out.mp4") .null),
      .act (.addOutput ⟨0⟩ (.object (.output ⟨0⟩)) .null)]

/-- A raised two counts as a digit and cannot be read, neither where a pad is handed out nor where it is
mapped; a two of another script is read. -/
theorem raised_two_unreadable :
    ∃ c, threePadSession.objects.chain? ⟨0⟩ = some c ∧
      (Value.text "²").Illegible ∧ (Value.text "٢").Denotes 2 ∧
      c.resolvePad ⟨0⟩ (.text "²") = .error (.fault .wrongValue) ∧
      threePadSession.RefusedFor (.outputPad ⟨0⟩ (.text "²")) (.fault .wrongValue) ∧
      threePadSession.RefusedFor
        (.map ⟨0⟩ (.object (.output ⟨0⟩)) (.object (.chain ⟨0⟩)) (.text "²")) (.fault .wrongValue) ∧
      c.resolvePad ⟨0⟩ (.text "٢") = .ok 2 := by
  have hreachable : threePadSession.objects.Reachable := ⟨_, rfl⟩
  have hillegible : (Value.text "²").Illegible := by
    have hlike : Text.isDigitLike '²' = true := by decide
    have hnone : Text.decimalDigit? '²' = none := by decide
    refine .ornamental (c := '²') (fun ch hch => ?_) List.mem_cons_self fun d hd => ?_
    · obtain rfl : ch = '²' := List.mem_singleton.mp hch
      exact hlike
    · rw [Text.decimalDigit?_eq_some.mpr hd] at hnone
      cases hnone
  have hdigit : Text.DigitOf '٢' 2 := by unfold Text.DigitOf; decide
  have hdenotes : (Value.text "٢").Denotes 2 :=
    .digits (by decide) ⟨[2], .cons hdigit .nil, rfl⟩
  have hlegible : ¬(Value.text "٢").Illegible := by
    intro h
    cases h with
    | ornamental hall hc hnone =>
        obtain rfl : _ = '٢' := List.mem_singleton.mp hc
        exact hnone 2 hdigit
    | long hall hlong => exact absurd hlong (by decide)
  obtain ⟨-, hunread, hrefused, -⟩ := @explicit_selector_fails_for_pad threePadSession _ ⟨0⟩
    (.text "²") hreachable rfl (.text "²")
  obtain ⟨-, hhanded, hmapped⟩ := hrefused _ (hunread hillegible)
  obtain ⟨hread, -⟩ := (@explicit_selector_fails_for_pad threePadSession _ ⟨0⟩ (.text "٢")
    hreachable rfl (.text "٢")).1 hlegible
  exact ⟨_, rfl, hillegible, hdenotes, hunread hillegible, hhanded _ .outputPad,
    hmapped _ _ _ (.map rfl (by decide) rfl (by decide)), (hread 2).mpr ⟨hdenotes, by decide⟩⟩

end Session

end MediaCommand
