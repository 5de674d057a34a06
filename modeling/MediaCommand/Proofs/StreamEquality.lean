/-
Equal specifiers and equal texts.

Two specifiers are equal if they refer to the same object and select the same of it.  A specifier is equal to
the first one that refers to the same (`canonical_specifier`), and specifiers are told apart by their
identities, so nothing else makes two equal (`equal_specifiers_iff`).

The text of a specifier begins with the number of its input, or has the name of its pad in brackets.  Within a
command the numbers lead back to the inputs, and within a graph the names to the pads, so specifiers with one
text are equal, but for one case: a track is selected by its index or by a text, and the numeral of an index
is a text as well (`Track.Twins`).  Such twins have one text and are not equal, and a set of specifiers has
one element for each text exactly if it has none of them.
-/
import Mathlib.Data.Finset.Card
import MediaCommand.Proofs.Identities
import MediaCommand.Proofs.LabelClashes
import MediaCommand.Proofs.SpecifierPlaces

namespace MediaCommand

/-! ### Tracks -/

/-- The index of a track and the numeral of that. -/
inductive Track.Twins : Track → Track → Prop
  | numeral (n : Nat) : Twins (.index n) (.selector (toString n))
  | index (n : Nat) : Twins (.selector (toString n)) (.index n)

theorem Track.Twins.ne {t u : Track} (h : t.Twins u) : t ≠ u := by
  cases h <;> nofun

/-- Two tracks are written alike if they are the same, or an index and its numeral. -/
theorem Track.text_eq_iff {t u : Track} : t.text = u.text ↔ t = u ∨ t.Twins u := by
  constructor
  · intro h
    cases t with
    | index n =>
        cases u with
        | index n' => exact .inl (congrArg _ (Objects.toString_injective (congrArg String.toList h)))
        | selector s =>
            obtain rfl : toString n = s := h
            exact .inr (.numeral n)
    | selector s =>
        cases u with
        | index n =>
            obtain rfl : s = toString n := h
            exact .inr (.index n)
        | selector s' => exact .inl (congrArg _ h)
  · rintro (rfl | ⟨n⟩ | ⟨n⟩) <;> rfl

/-- One track of one input, selected once by its index and once by the numeral of that. -/
inductive Source.Twins : Source → Source → Prop
  | intro {id : InputId} {t u : Track} (h : t.Twins u) : Twins (.input id (some t)) (.input id (some u))

theorem Source.Twins.ne {a b : Source} (h : a.Twins b) : a ≠ b := by
  obtain ⟨h⟩ := h
  simpa using h.ne

theorem Source.twins_some_iff {id : InputId} {t u : Track} :
    (Source.input id (some t)).Twins (.input id (some u)) ↔ t.Twins u :=
  ⟨fun ⟨h⟩ => h, .intro⟩

/-- What a specifier refers to is given by the object and by what it selects of it. -/
theorem Source.eq_iff {a b : Source} : a = b ↔ a.anchor = b.anchor ∧ a.selection = b.selection := by
  refine ⟨by rintro rfl; exact ⟨rfl, rfl⟩, fun ⟨hanchor, hselection⟩ => ?_⟩
  cases a with
  | pad id n =>
      cases b with
      | input => cases hanchor
      | pad id' n' =>
          cases hanchor
          cases hselection
          rfl
  | input id track =>
      cases b with
      | pad => cases hanchor
      | input id' track' =>
          cases hanchor
          rcases track with _ | ⟨n | s⟩ <;> rcases track' with _ | ⟨n' | s'⟩ <;> cases hselection <;> rfl

namespace Objects

variable {o : Objects}

/-! ### Equality -/

/-- A specifier is equal to the first one that refers to the same. -/
theorem canonical_specifier {a : SpecifierId} {s : Specifier} (ha : o.specifier? a = some s) :
    ∃ t ∈ o.specifiers, t.source = s.source ∧
      o.specifiers.find? (·.source == s.source) = some t ∧
      o.canonical (.object (.specifier a)) = .object (.specifier t.id) := by
  have hin : s ∈ o.specifiers := List.mem_of_getElem? ha
  cases hfind : o.specifiers.find? (·.source == s.source) with
  | none => exact absurd (List.find?_eq_none.mp hfind s hin) (by simp)
  | some t =>
      refine ⟨t, List.mem_of_find?_eq_some hfind, by simpa using List.find?_some hfind, rfl, ?_⟩
      show o.canonicalTo (o.filters.length + 1) (.specifier a) = _
      rw [canonicalTo, ha]
      dsimp only
      rw [hfind]

/-- A collection takes two specifiers for one if they are equal. -/
theorem alike_specifiers {a b : SpecifierId} {s t : Specifier} (ha : o.specifier? a = some s)
    (hb : o.specifier? b = some t) :
    o.alike (.object (.specifier a)) (.object (.specifier b))
      = o.equal (.object (.specifier a)) (.object (.specifier b)) := by
  obtain ⟨_, -, -, -, hs⟩ := canonical_specifier ha
  obtain ⟨_, -, -, -, ht⟩ := canonical_specifier hb
  rw [alike, equal, hs, ht]
  rfl

/-- Specifiers are equal if they refer to the same. -/
theorem equal_specifiers_iff (h : o.Indexed) {a b : SpecifierId} {s t : Specifier}
    (ha : o.specifier? a = some s) (hb : o.specifier? b = some t) :
    o.equal (.object (.specifier a)) (.object (.specifier b)) = true ↔ s.source = t.source := by
  obtain ⟨s', hs', hsource, hfind, hs⟩ := canonical_specifier ha
  obtain ⟨t', ht', htarget, hfind', ht⟩ := canonical_specifier hb
  have hsame : o.equal (.object (.specifier a)) (.object (.specifier b)) = true ↔ s'.id = t'.id := by
    rw [equal, hs, ht]
    show (Object.specifier s'.id == Object.specifier t'.id) = true ↔ _
    simp
  rw [hsame]
  constructor
  · intro hid
    rw [← hsource, ← htarget, h.eq_of_id hs' ht' hid]
  · intro heq
    rw [heq, hfind'] at hfind
    cases hfind
    rfl

/-! ### Texts -/

/-- A stream of an input of a command, or of a chain in one graph of the command. -/
def StreamOf (o : Objects) (c : Command) (graph : GraphId) : Source → Prop
  | .input id _ => id ∈ c.inputs
  | .pad id _ => graph ∈ c.graphs ∧ ∃ g, o.graph? graph = some g ∧ id ∈ g.chains

/-- What a track adds to the number of its input. -/
def trackText : Option Track → String
  | none => ""
  | some track => ":" ++ track.text

theorem trackText_eq_iff {t u : Option Track} (id : InputId) : trackText t = trackText u ↔
    t = u ∨ (Source.input id t).Twins (.input id u) := by
  cases t with
  | none =>
      cases u with
      | none => exact iff_of_true rfl (.inl rfl)
      | some track =>
          refine iff_of_false (by simp [trackText]) ?_
          rintro (heq | heq) <;> cases heq
  | some track =>
      cases u with
      | none =>
          refine iff_of_false (by simp [trackText]) ?_
          rintro (heq | heq) <;> cases heq
      | some track' =>
          rw [Source.twins_some_iff, Option.some.injEq, ← Track.text_eq_iff]
          simp [trackText]

/-- The text of a stream of an input in a command is the place of the input there, with the track. -/
theorem inputText {c : Command} (hc : c.SoundIn o) {id : InputId} (h : id ∈ c.inputs) :
    ∃ k : Nat, c.inputs[k]? = some id ∧
      ∀ track, o.specifierText (.input id track) = .ok (toString k ++ trackText track) ∧
        inputNumber (toString k ++ trackText track) = k := by
  obtain ⟨k, hk⟩ := List.mem_iff_getElem?.mp h
  obtain ⟨i, hi, hlabel⟩ := hc.labelled k id hk
  refine ⟨k, hk, fun track => ?_⟩
  have htext : o.specifierText (.input id track) = .ok (toString k ++ trackText track) := by
    rw [specifierText_input track hi hlabel]
    cases track with
    | none => rw [trackText, String.append_empty]
    | some track => exact congrArg _ String.append_assoc
  obtain ⟨text, htext', hnumber⟩ := inputNumber_specifierText track hi hlabel
  obtain rfl : _ = text := Except.ok.inj (htext.symm.trans htext')
  exact ⟨htext, hnumber⟩

/-- The text of a pad of a chain in a graph is its name in brackets, with the place of the chain there. -/
theorem Sound.padText (hs : Sound o) {graph : GraphId} {g : Graph} (hg : o.graph? graph = some g)
    {id : ChainId} (h : id ∈ g.chains) :
    ∃ (k : Nat) (ch : Chain), g.chains[k]? = some id ∧
      ∀ pad, o.specifierText (.pad id pad) = .ok ("[" ++ padName ch k pad ++ "]") := by
  obtain ⟨k, hk⟩ := List.mem_iff_getElem?.mp h
  obtain ⟨ch, hch, hposition⟩ := (hs.graph hg).placed k id hk
  exact ⟨k, ch, hk, fun pad => specifierText_placed pad hch hposition⟩

/-- Streams of inputs of a command have one text if they are the same, or twins. -/
theorem inputTexts_eq_iff {c : Command} (hc : c.SoundIn o) {id id' : InputId} (h : id ∈ c.inputs)
    (h' : id' ∈ c.inputs) (t u : Option Track) :
    o.specifierText (.input id t) = o.specifierText (.input id' u) ↔
      Source.input id t = .input id' u ∨ (Source.input id t).Twins (.input id' u) := by
  obtain ⟨k, hk, htext⟩ := inputText hc h
  by_cases hid : id = id'
  · subst hid
    rw [(htext t).1, (htext u).1, Except.ok.injEq, Source.input.injEq, eq_self, true_and,
      ← trackText_eq_iff, ← String.toList_inj, String.toList_append, String.toList_append,
      List.append_cancel_left_eq, String.toList_inj]
  · -- The number would lead back to one input.
    obtain ⟨k', hk', htext'⟩ := inputText hc h'
    refine iff_of_false (fun heq => hid ?_) ?_
    · rw [(htext t).1, (htext' u).1, Except.ok.injEq] at heq
      have hnumber : k = k' := by rw [← (htext t).2, heq, (htext' u).2]
      rw [hnumber, hk'] at hk
      exact (Option.some.inj hk).symm
    · rintro (heq | heq) <;> cases heq <;> exact hid rfl

/-- Pads of chains in one graph have one text if they are the same. -/
theorem Sound.padTexts_eq_iff (hs : Sound o) {graph : GraphId} {g : Graph} (hg : o.graph? graph = some g)
    {id id' : ChainId} (h : id ∈ g.chains) (h' : id' ∈ g.chains) (pad pad' : Nat) :
    o.specifierText (.pad id pad) = o.specifierText (.pad id' pad') ↔
      Source.pad id pad = .pad id' pad' := by
  obtain ⟨k, ch, hk, htext⟩ := hs.padText hg h
  obtain ⟨k', ch', hk', htext'⟩ := hs.padText hg h'
  constructor
  · intro heq
    rw [htext, htext', Except.ok.injEq] at heq
    have hnames : padName ch k pad = padName ch' k' pad' := by simpa using heq
    obtain ⟨rfl, -, rfl⟩ := padName_injective hnames
    obtain rfl : id = id' := Option.some.inj (hk.symm.trans hk')
    rfl
  · intro heq
    rw [heq]

/-- Every stream of a command has a text. -/
theorem Sound.exists_streamText (hs : Sound o) {c : Command} {graph : GraphId} (hc : c.SoundIn o)
    {s : Source} (h : o.StreamOf c graph s) : ∃ text, o.specifierText s = .ok text := by
  cases s with
  | input id track =>
      obtain ⟨k, -, htext⟩ := inputText hc h
      exact ⟨_, (htext track).1⟩
  | pad id pad =>
      obtain ⟨-, g, hg, hin⟩ := h
      obtain ⟨k, ch, -, htext⟩ := hs.padText hg hin
      exact ⟨_, htext pad⟩

/-- A stream of an input and a pad have different texts: a number begins with a digit. -/
theorem Sound.inputText_ne_padText (hs : Sound o) {c : Command} (hc : c.SoundIn o) {id : InputId}
    (h : id ∈ c.inputs) {graph : GraphId} {g : Graph} (hg : o.graph? graph = some g) {chain : ChainId}
    (h' : chain ∈ g.chains) (track : Option Track) (pad : Nat) :
    o.specifierText (.input id track) ≠ o.specifierText (.pad chain pad) := by
  obtain ⟨k, -, htext⟩ := inputText hc h
  obtain ⟨k', ch, -, htext'⟩ := hs.padText hg h'
  intro heq
  rw [(htext track).1, htext', Except.ok.injEq, ← String.toList_inj] at heq
  obtain ⟨d, ds, hdigits, hdigit⟩ := toString_head k
  simp only [String.toList_append, hdigits] at heq
  obtain rfl : d = '[' := (List.cons_eq_cons.mp heq).1
  exact absurd hdigit (by decide)

/-- Streams of a command with one text are the same or twins. -/
theorem Sound.streamTexts_eq_iff (hs : Sound o) {c : Command} {graph : GraphId} (hc : c.SoundIn o)
    {s t : Source} (h : o.StreamOf c graph s) (h' : o.StreamOf c graph t) :
    o.specifierText s = o.specifierText t ↔ s = t ∨ s.Twins t := by
  cases s with
  | input id track =>
      cases t with
      | input id' track' => exact inputTexts_eq_iff hc h h' track track'
      | pad chain pad =>
          obtain ⟨-, g, hg, hin⟩ := h'
          refine iff_of_false (hs.inputText_ne_padText hc h hg hin track pad) ?_
          rintro (heq | heq) <;> cases heq
  | pad chain pad =>
      obtain ⟨-, g, hg, hin⟩ := h
      cases t with
      | input id track =>
          refine iff_of_false (hs.inputText_ne_padText hc h' hg hin track pad).symm ?_
          rintro (heq | heq) <;> cases heq
      | pad chain' pad' =>
          obtain ⟨-, g', hg', hin'⟩ := h'
          obtain rfl : g = g' := Option.some.inj (hg.symm.trans hg')
          rw [hs.padTexts_eq_iff hg hin hin']
          exact ⟨.inl, fun heq => heq.resolve_right nofun⟩

/-! ### Sets of specifiers -/

theorem allHashable_specifierValues (specifiers : List Specifier) :
    Value.allHashable (specifierValues specifiers) = true := by
  induction specifiers with
  | nil => rfl
  | cons s rest ih => exact ih

/-- A set takes in a specifier only if none in it refers to the same. -/
theorem length_foldl_distinct (h : o.Indexed) {specifiers : List Specifier}
    (hspecifiers : ∀ s ∈ specifiers, o.specifier? s.id = some s) :
    ∀ seen : List Specifier, (∀ s ∈ seen, o.specifier? s.id = some s) →
      (seen.map Specifier.source).Nodup →
      ((specifierValues specifiers).foldl (fun seen v => if seen.any (o.alike · v) then seen else v :: seen)
        (specifierValues seen)).length
        = ((seen ++ specifiers).map Specifier.source).toFinset.card := by
  induction specifiers with
  | nil =>
      intro seen _ hnodup
      rw [List.append_nil, List.toFinset_card_of_nodup hnodup]
      simp [specifierValues]
  | cons s rest ih =>
      intro seen hseen hnodup
      have hs := hspecifiers s List.mem_cons_self
      have hrest := fun t ht => hspecifiers t (List.mem_cons_of_mem s ht)
      have htaken : (specifierValues seen).any (o.alike · (.object (.specifier s.id))) = true ↔
          s.source ∈ seen.map Specifier.source := by
        rw [specifierValues, List.any_map, List.any_eq_true, List.mem_map]
        refine exists_congr fun t => and_congr_right fun ht => ?_
        rw [Function.comp, alike_specifiers (hseen t ht) hs, equal_specifiers_iff h (hseen t ht) hs]
      rw [show specifierValues (s :: rest) = .object (.specifier s.id) :: specifierValues rest from rfl,
        List.foldl_cons]
      by_cases hin : s.source ∈ seen.map Specifier.source
      · rw [if_pos (htaken.mpr hin)]
        refine (ih hrest seen hseen hnodup).trans (congrArg Finset.card (Finset.ext fun x => ?_))
        simp only [List.mem_toFinset, List.map_append, List.mem_append, List.map_cons, List.mem_cons]
        constructor
        · exact Or.imp_right .inr
        · rintro (hold | rfl | hmore)
          · exact .inl hold
          · exact .inl hin
          · exact .inr hmore
      · rw [if_neg (mt htaken.mp hin)]
        refine (ih hrest (s :: seen) ?_ (List.nodup_cons.mpr ⟨hin, hnodup⟩)).trans
          (congrArg Finset.card (Finset.ext fun x => ?_))
        · intro t ht
          rcases List.mem_cons.mp ht with rfl | hold
          · exact hs
          · exact hseen t hold
        · simp only [List.mem_toFinset, List.map_append, List.mem_append, List.map_cons, List.mem_cons,
            List.cons_append]
          tauto

/-- A set of specifiers has one element for each stream. -/
theorem distinctCount_specifiers (h : o.Indexed) {specifiers : List Specifier}
    (hspecifiers : ∀ s ∈ specifiers, o.specifier? s.id = some s) :
    o.distinctCount (specifierValues specifiers) = .ok (specifiers.map Specifier.source).toFinset.card := by
  rw [distinctCount, if_pos (allHashable_specifierValues specifiers)]
  exact congrArg _ (length_foldl_distinct h hspecifiers [] nofun List.nodup_nil)

/-- Specifiers of streams have one text for each stream exactly if no two of them are twins. -/
theorem Sound.texts_of_streams (hs : Sound o) {c : Command} {graph : GraphId} (hc : c.SoundIn o)
    {specifiers : List Specifier} (h : ∀ s ∈ specifiers, o.StreamOf c graph s.source) :
    ∃ texts, specifiers.mapM (fun s => o.specifierText s.source) = .ok texts ∧
      texts.toFinset.card ≤ (specifiers.map Specifier.source).toFinset.card ∧
      (texts.toFinset.card = (specifiers.map Specifier.source).toFinset.card ↔
        ∀ s ∈ specifiers, ∀ t ∈ specifiers, ¬s.source.Twins t.source) := by
  let text := fun source => (o.specifierText source).toOption.getD ""
  have htext : ∀ s ∈ specifiers, o.specifierText s.source = .ok (text s.source) := by
    intro s hin
    obtain ⟨t, ht⟩ := hs.exists_streamText hc (h s hin)
    show _ = Except.ok ((o.specifierText s.source).toOption.getD "")
    rw [ht]
    rfl
  have himage : (specifiers.map fun s => text s.source).toFinset
      = (specifiers.map Specifier.source).toFinset.image text := by
    ext t
    simp
  refine ⟨specifiers.map fun s => text s.source, mapM_ok_map htext, ?_, ?_⟩
  · rw [himage]
    exact Finset.card_image_le
  · rw [himage, Finset.card_image_iff]
    have heq : ∀ s ∈ specifiers, ∀ t ∈ specifiers,
        text s.source = text t.source ↔ s.source = t.source ∨ s.source.Twins t.source := by
      intro s hin t hin'
      rw [← hs.streamTexts_eq_iff hc (h s hin) (h t hin'), htext s hin, htext t hin', Except.ok.injEq]
    constructor
    · intro hinj s hin t hin' htwins
      have hsame : s.source = t.source := by
        refine hinj ?_ ?_ ((heq s hin t hin').mpr (.inr htwins)) <;> simp <;> exact ⟨_, ‹_›, rfl⟩
      exact htwins.ne hsame
    · intro hnone x hx y hy hxy
      simp only [List.coe_toFinset, List.mem_map, Set.mem_ofPred_eq] at hx hy
      obtain ⟨s, hin, rfl⟩ := hx
      obtain ⟨t, hin', rfl⟩ := hy
      exact ((heq s hin t hin').mp hxy).resolve_right (hnone s hin t hin')

/-! ### Equal streams of a command -/

/-- Streams of a command are equal exactly if they are anchored to one object and select the same of it, which
is all that their place in a set goes by.  Each has a text, and equal ones have one text.  Others have
different texts, unless one selects a track by its index and the other by the numeral of it: such twins are
never equal and always have one text.  So a set of streams has an element for each text exactly if there are
no twins in it, and otherwise more. -/
theorem equal_iff_one_text_unless_twins (h : Reachable o) {command : CommandId} {c : Command}
    (hc : o.command? command = some c) (graph : GraphId) :
    (∀ (a b : SpecifierId) (s t : Specifier), o.specifier? a = some s → o.specifier? b = some t →
      o.StreamOf c graph s.source → o.StreamOf c graph t.source →
      (o.equal (.object (.specifier a)) (.object (.specifier b)) = true ↔
        s.source.anchor = t.source.anchor ∧ s.source.selection = t.source.selection) ∧
      ∃ text text', o.specifierText s.source = .ok text ∧ o.specifierText t.source = .ok text' ∧
        (text = text' ↔ o.equal (.object (.specifier a)) (.object (.specifier b)) = true ∨
          s.source.Twins t.source) ∧
        (s.source.Twins t.source → o.equal (.object (.specifier a)) (.object (.specifier b)) = false)) ∧
    ∀ specifiers : List Specifier,
      (∀ s ∈ specifiers, o.specifier? s.id = some s ∧ o.StreamOf c graph s.source) →
      ∃ texts count, specifiers.mapM (fun s => o.specifierText s.source) = .ok texts ∧
        o.distinctCount (specifierValues specifiers) = .ok count ∧ texts.toFinset.card ≤ count ∧
        (texts.toFinset.card = count ↔ ∀ s ∈ specifiers, ∀ t ∈ specifiers, ¬s.source.Twins t.source) := by
  have hs := h.sound
  have hsound := hs.command hc
  have hindexed : Indexed o := by
    obtain ⟨calls, rfl⟩ := h
    exact indexed_afterCalls calls sound_empty indexed_empty
  constructor
  · intro a b s t ha hb hstream hstream'
    have hequal := equal_specifiers_iff hindexed ha hb
    obtain ⟨text, htext⟩ := hs.exists_streamText hsound hstream
    obtain ⟨text', htext'⟩ := hs.exists_streamText hsound hstream'
    refine ⟨hequal.trans Source.eq_iff, text, text', htext, htext', ?_, fun htwins => ?_⟩
    · rw [hequal, ← hs.streamTexts_eq_iff hsound hstream hstream', htext, htext', Except.ok.injEq]
    · exact Bool.eq_false_iff.mpr (mt hequal.mp htwins.ne)
  · intro specifiers hall
    obtain ⟨texts, htexts, hle, hiff⟩ := hs.texts_of_streams hsound fun s hin => (hall s hin).2
    exact ⟨texts, _, htexts, distinctCount_specifiers hindexed fun s hin => (hall s hin).1, hle, hiff⟩

/-- A session in which one track of the input of a command is selected by its index and by a text. -/
def twinSession : List Call :=
  [.act (.newCommand .null none), .act (.newInput (.text "in.mp4") .null),
    .act (.addInput ⟨0⟩ (.object (.input ⟨0⟩))),
    .act (.inputStream ⟨0⟩ (.int 1)), .act (.inputStream ⟨0⟩ (.text "1"))]

/-- The two specifiers of that session are written alike, but they are not equal, and a set of both has more
elements than they have texts. -/
theorem index_and_numeral_not_equal :
    ∃ o : Objects, o = afterCalls {} twinSession ∧
      o.specifiers.mapM (fun s => o.specifierText s.source) = .ok ["0:1", "0:1"] ∧
      o.equal (.object (.specifier ⟨0⟩)) (.object (.specifier ⟨1⟩)) = false ∧
      ∃ texts count, o.specifiers.mapM (fun s => o.specifierText s.source) = .ok texts ∧
        o.distinctCount (specifierValues o.specifiers) = .ok count ∧ texts.toFinset.card < count := by
  let o : Objects := afterCalls {} twinSession
  let a : Specifier := ⟨⟨0⟩, .input ⟨0⟩ (some (.index 1))⟩
  let b : Specifier := ⟨⟨1⟩, .input ⟨0⟩ (some (.selector "1"))⟩
  have htwins : a.source.Twins b.source := .intro (.numeral 1)
  obtain ⟨c, hc⟩ : ∃ c, o.command? ⟨0⟩ = some c := ⟨_, rfl⟩
  have hin : (⟨0⟩ : InputId) ∈ c.inputs := by
    cases hc
    exact List.mem_singleton_self _
  obtain ⟨heach, hset⟩ := equal_iff_one_text_unless_twins (o := o) ⟨twinSession, rfl⟩ hc ⟨0⟩
  obtain ⟨-, -, -, -, -, -, hunequal⟩ := heach ⟨0⟩ ⟨1⟩ a b rfl rfl hin hin
  obtain ⟨texts, count, htexts, hcount, hle, hiff⟩ := hset [a, b] (by
    simp only [List.forall_mem_cons]
    exact ⟨⟨rfl, hin⟩, ⟨rfl, hin⟩, nofun⟩)
  have hne : texts.toFinset.card ≠ count := fun heq =>
    hiff.mp heq a List.mem_cons_self b (List.mem_cons_of_mem _ List.mem_cons_self) htwins
  exact ⟨o, rfl, rfl, hunequal htwins, texts, count, htexts, hcount, lt_of_le_of_ne hle hne⟩

end Objects

end MediaCommand
