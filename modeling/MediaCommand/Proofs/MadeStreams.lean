/-
What calls make on output pads.

A specifier on an output pad is made together with a reference to the pad.  No step does one without the
other, so the references to a pad grow by as many as the specifiers on it, whatever is called.

How many specifiers a call makes is told by what was given to it and by how it ends.  Asking for a pad
makes the one that is answered, and mapping entries makes one for each entry that names a chain, on the
pad that the entry is resolved to; an entry that is a specifier already makes none.  Every other call
makes none on an output pad.
-/
import MediaCommand.Proofs.Building
import MediaCommand.Proofs.MarkedPads

namespace MediaCommand

/-- Whether a call may make specifiers on output pads. -/
def Action.makesStreams : Action → Bool
  | .outputPad _ _ => true
  | .fromFilterOutput _ _ => true
  | .addOutput _ _ _ => true
  | .map _ _ _ _ => true
  | .mappingValue _ _ _ => true
  | .copy _ => true
  | _ => false

namespace Objects

variable {o o₁ o' : Objects} {id : ChainId} {pad : Nat}

/-! ### Specifiers and references keep pace -/

/-- How many specifiers there are on an output pad. -/
def specifiersOn (o : Objects) (id : ChainId) (pad : Nat) : Nat := o.specifiers.countP (·.isOn id pad)

/-- How many references to an output pad are counted. -/
def consumersOf (o : Objects) (id : ChainId) (pad : Nat) : Nat := o.atChain id (·.consumers pad)

/-- The references to a pad grow by as many as the specifiers on it. -/
def KeepsPace (id : ChainId) (pad : Nat) (o o' : Objects) : Prop :=
  o'.consumersOf id pad + o.specifiersOn id pad = o.consumersOf id pad + o'.specifiersOn id pad

theorem keepsPace_of_same (hconsumers : o'.consumersOf id pad = o.consumersOf id pad)
    (hspecifiers : o'.specifiersOn id pad = o.specifiersOn id pad) : KeepsPace id pad o o' := by
  rw [KeepsPace, hconsumers, hspecifiers]

theorem KeepsPace.trans (h : KeepsPace id pad o o₁) (h' : KeepsPace id pad o₁ o') :
    KeepsPace id pad o o' := by
  unfold KeepsPace at h h' ⊢
  omega

theorem isOn_referTo (o : Objects) (x : ChainId) (p : Nat) :
    (o.referTo x p).2.isOn id pad = (x == id && p == pad) := by
  rw [Bool.eq_iff_iff]
  simp [Specifier.isOn, Specifier.pad?, referTo, addSpecifier]

/-- Quiet changes make no specifier on a pad. -/
theorem Quiet.specifiersOn (h : Quiet o o') : o'.specifiersOn id pad = o.specifiersOn id pad := by
  obtain ⟨more, hinputs, heq⟩ := h.specifiers
  have hnone : more.countP (·.isOn id pad) = 0 := by
    refine List.countP_eq_zero.mpr fun s hs => ?_
    obtain ⟨input, track, hsource, -⟩ := hinputs s hs
    simp [Specifier.isOn, Specifier.pad?, hsource]
  rw [Objects.specifiersOn, heq, List.countP_append, hnone, Nat.add_zero]
  rfl

/-- Quiet changes make no reference. -/
theorem Quiet.consumersOf (h : Quiet o o') : o'.consumersOf id pad = o.consumersOf id pad := by
  refine h.atChain (fun _ => rfl) fun c hc => ?_
  rw [Chain.consumers, hc.references]
  rfl

theorem specifiersOn_addSpecifier (o : Objects) (source : Source) :
    (o.addSpecifier source).1.specifiersOn id pad
      = o.specifiersOn id pad + if (o.addSpecifier source).2.isOn id pad then 1 else 0 := by
  show (o.specifiers ++ [_]).countP _ = _
  rw [List.countP_append, List.countP_singleton]
  rfl

theorem specifiers_modifyChain (o : Objects) (x : ChainId) (f : Chain → Chain) :
    (o.modifyChain x f).specifiers = o.specifiers := by
  unfold modifyChain
  split <;> rfl

theorem specifiersOn_referTo (o : Objects) (x : ChainId) (p : Nat) :
    (o.referTo x p).1.specifiersOn id pad
      = o.specifiersOn id pad + if (o.referTo x p).2.isOn id pad then 1 else 0 := by
  have hadd := @specifiersOn_addSpecifier id pad (o.modifyChain x (·.addReference p)) (.pad x p)
  rwa [specifiersOn, specifiersOn, specifiers_modifyChain] at hadd

theorem consumersOf_referTo {x : ChainId} {c : Chain} (p : Nat) (hc : o.chain? x = some c) :
    (o.referTo x p).1.consumersOf id pad
      = o.consumersOf id pad + if (o.referTo x p).2.isOn id pad then 1 else 0 := by
  rw [isOn_referTo, referTo_eq p hc]
  show (o.setChain x (c.addReference p)).atChain id _ = _
  by_cases hx : x = id
  · subst hx
    rw [consumersOf, atChain_setChain_self _ _ hc, atChain_of_chain? _ hc, beq_self_eq_true,
      Bool.true_and]
    exact List.count_cons
  · rw [atChain_setChain_ne _ _ (Ne.symm hx), beq_false_of_ne hx]
    rfl

theorem specifiers_bindInputs (x : ChainId) (specifiers : List Specifier) :
    ∀ o : Objects, (o.bindInputs x specifiers).specifiers = o.specifiers := by
  have hpads : ∀ (ss : List Specifier) (o : Objects),
      (ss.foldl bindPad o).specifiers = o.specifiers := by
    intro ss
    induction ss with
    | nil => exact fun _ => rfl
    | cons s rest ih =>
        intro o
        have hbind : (o.bindPad s).specifiers = o.specifiers := by
          unfold bindPad
          split
          · exact specifiers_modifyChain o _ _
          · rfl
        rw [List.foldl_cons, ih, hbind]
  intro o
  rw [← hpads specifiers o]
  exact specifiers_modifyChain _ x _

theorem keepsPace_setChain {x : ChainId} {c : Chain} (c' : Chain) (hc : o.chain? x = some c)
    (hreferences : c'.references = c.references) : KeepsPace id pad o (o.setChain x c') :=
  keepsPace_of_same (atChain_setChain_same c' hc (by rw [Chain.consumers, hreferences]; rfl)) rfl

/-- A step that makes a specifier for a pad counts a reference to it. -/
theorem Step.keepsPace {e : List Effect} (h : Step o e o') : KeepsPace id pad o o' := by
  cases h with
  | quiet h => exact keepsPace_of_same h.consumersOf h.specifiersOn
  | refer hc =>
      rw [KeepsPace, consumersOf_referTo _ hc, specifiersOn_referTo]
      omega
  | bind =>
      refine keepsPace_of_same (atChain_bindInputs_same _ _ (fun _ _ => rfl) (fun _ _ => rfl) o) ?_
      rw [specifiersOn, specifiers_bindInputs]
      rfl
  | take hc | append hc | prepend hc => exact keepsPace_setChain _ hc rfl
  | place position hc => exact keepsPace_setChain _ hc rfl
  | join hg hc => exact keepsPace_setChain _ hc rfl
  | gather | label | adopt | enter | list => exact keepsPace_of_same rfl rfl

theorem Trace.keepsPace {es : List Effect} (h : Trace o es o') : KeepsPace id pad o o' := by
  induction h with
  | refl => exact keepsPace_of_same rfl rfl
  | step _ s ih => exact ih.trans s.keepsPace

/-! ### Calls that make none -/

/-- No specifier is made on the pad. -/
def MakesNone (id : ChainId) (pad : Nat) (o o' : Objects) : Prop :=
  o'.specifiersOn id pad = o.specifiersOn id pad

namespace MakesNone

theorem refl (o : Objects) : MakesNone id pad o o := rfl

theorem of_eq (h : o'.specifiers = o.specifiers) : MakesNone id pad o o' := by
  rw [MakesNone, specifiersOn, h]
  rfl

theorem quiet (h : Quiet o o') : MakesNone id pad o o' := h.specifiersOn

theorem trans (h : MakesNone id pad o o₁) (h' : MakesNone id pad o₁ o') : MakesNone id pad o o' :=
  Eq.trans h' h

theorem takeChain {taken : List ChainId} {v : Value} {x : ChainId}
    (h : o.takeChain taken v = .ok (o', x)) : MakesNone id pad o o' := by
  obtain ⟨o₂, c, quiet, -, -, rfl⟩ := takeChain_ok h
  exact quiet.specifiersOn

theorem appendToGraph {graph : GraphId} {v : Value} {x : ChainId}
    (h : o.appendToGraph graph v = .ok (o', x)) : MakesNone id pad o o' := by
  obtain ⟨g, -, h⟩ := bind_ok.mp h
  obtain ⟨⟨o₂, x'⟩, htake, h⟩ := bind_ok.mp h
  cases h
  exact (takeChain htake).trans (of_eq rfl)

theorem extendGraph {graph : GraphId} (items : List Value) :
    ∀ o : Objects, MakesNone id pad o (o.extendGraph graph items).objects := by
  induction items with
  | nil => exact refl
  | cons v rest ih =>
      intro o
      unfold Objects.extendGraph
      split
      · exact (appendToGraph ‹_›).trans (ih _)
      · exact refl o

theorem takeChains (items : List Value) :
    ∀ (o : Objects) (taken : List ChainId), MakesNone id pad o (o.takeChains taken items).objects := by
  induction items with
  | nil => exact fun o _ => refl o
  | cons v rest ih =>
      intro o taken
      unfold Objects.takeChains
      split
      · exact (takeChain ‹_›).trans (ih _ _)
      · exact refl o

theorem newGraph (o : Objects) (chains : Value) : MakesNone id pad o (o.newGraph chains).objects := by
  unfold Objects.newGraph
  split
  · exact refl o
  · rename_i items _
    dsimp only
    split
    · exact takeChains items o []
    · exact takeChains items o []

theorem appendNodes {x : ChainId} {nodes : List Value} (h : o.appendNodes x nodes = .ok o') :
    MakesNone id pad o o' := by
  obtain ⟨c, -, h⟩ := bind_ok.mp h
  obtain ⟨fs, -, h⟩ := bind_ok.mp h
  split at h
  · cases h
    exact refl o
  · split at h
    · cases h
    · cases h
      exact of_eq rfl

theorem prependNodes (o : Objects) (x : ChainId) (nodes : List Value) :
    MakesNone id pad o (o.prependNodes x nodes).objects := by
  unfold Objects.prependNodes
  dsimp only
  split
  · exact refl o
  · exact refl o
  · exact of_eq rfl

theorem addInputs (o : Objects) (x : ChainId) (inputs : Value) :
    MakesNone id pad o (o.addInputs x inputs).objects := by
  unfold Objects.addInputs
  split
  · exact refl o
  · exact of_eq (specifiers_bindInputs x _ o)

theorem markMapped {x : ChainId} {v : Value} (h : o.markMapped x v = .ok o') :
    MakesNone id pad o o' := by
  obtain ⟨c, -, -, -, rfl⟩ := markMapped_ok h
  exact of_eq rfl

theorem commandAddGraph {command : CommandId} {graph onOutput : Value} {g : GraphId}
    (h : o.commandAddGraph command graph onOutput = .ok (o', g)) : MakesNone id pad o o' := by
  obtain ⟨target, -, hadopts⟩ := commandAddGraph_ok h
  cases hadopts with
  | whole => exact of_eq rfl
  | output => exact of_eq rfl

end MakesNone

theorem perform_makesNone {a : Action} (ha : a.makesStreams = false) :
    MakesNone id pad o (o.perform a).objects := by
  have hrefl : MakesNone id pad o o := .refl o
  cases a with
  | newFilter => exact objects_made hrefl fun _ _ h => .quiet (newFilter_quiet h)
  | newChain => exact objects_made hrefl fun _ _ h => .quiet (newChain_quiet h)
  | add => exact objects_ofExcept hrefl fun _ _ h => .quiet (add_quiet h)
  | wrap => exact objects_made hrefl fun _ _ h => .quiet (wrap_quiet h)
  | newGraph chains => exact .newGraph o chains
  | newInput => exact objects_made hrefl fun _ _ h => .quiet (newInput_quiet h)
  | newOutput => exact objects_made hrefl fun _ _ h => .quiet (newOutput_quiet h)
  | newCommand => exact objects_made hrefl fun _ _ h => .quiet (newCommand_quiet h)
  | appendNodes => exact objects_changed hrefl fun _ h => .appendNodes h
  | prependNodes x nodes => exact .prependNodes o x nodes
  | addInputs x inputs => exact .addInputs o x inputs
  | markMapped => exact objects_changed hrefl fun _ h => .markMapped h
  | appendChain => exact objects_made hrefl fun _ _ h => .appendToGraph h
  | extendGraph graph chains =>
      simp only [perform]
      split
      · exact .extendGraph _ o
      · exact hrefl
  | addInputOptions => exact objects_changed hrefl fun _ h => .quiet (addInputOptions_quiet h)
  | addOutputOptions => exact objects_changed hrefl fun _ h => .quiet (addOutputOptions_quiet h)
  | inputStream => exact objects_made hrefl fun _ _ h => .quiet (inputStream_quiet h)
  | fromInput => exact objects_made hrefl fun _ _ h => .quiet (fromInput_quiet h)
  | addInput =>
      refine objects_ofExcept hrefl fun _ _ h => ?_
      obtain ⟨⟨o₂, n⟩, hn, heq⟩ := map_ok.mp h
      cases heq
      obtain ⟨c, x, i, -, rfl⟩ := commandAddInput_ok hn
      exact .of_eq rfl
  | addGraph => exact objects_made hrefl fun _ _ h => .commandAddGraph h
  | outputPad | fromFilterOutput | addOutput | map | mappingValue | copy => cases ha

/-! ### Asking for a pad -/

/-- How many specifiers on a pad are made by a call that answers the one that it makes. -/
def madeOne (id : ChainId) (pad : Nat) : Except Error (Objects × Specifier) → Nat
  | .ok (_, s) => if s.isOn id pad then 1 else 0
  | .error _ => 0

theorem outputPad_makes {x : ChainId} {selector : Value} {s : Specifier}
    (h : o.outputPad x selector = .ok (o', s)) :
    o'.specifiersOn id pad = o.specifiersOn id pad + if s.isOn id pad then 1 else 0 := by
  obtain ⟨c, -, h⟩ := bind_ok.mp h
  obtain ⟨p, -, h⟩ := bind_ok.mp h
  cases h
  exact specifiersOn_referTo o x p

theorem fromFilterOutput_makes {chain selector : Value} {s : Specifier}
    (h : o.fromFilterOutput chain selector = .ok (o', s)) :
    o'.specifiersOn id pad = o.specifiersOn id pad + if s.isOn id pad then 1 else 0 := by
  unfold fromFilterOutput at h
  split at h
  · exact outputPad_makes h
  · cases h
  · cases h

theorem madeSpecifier_makes {r : Except Error (Objects × Specifier)} {v : Value}
    (h : ∀ o' s, r = .ok (o', s) →
      o'.specifiersOn id pad = o.specifiersOn id pad + if s.isOn id pad then 1 else 0)
    (hok : (Outcome.ofExcept o (madeSpecifier r)).result = .ok v) :
    (Outcome.ofExcept o (madeSpecifier r)).objects.specifiersOn id pad
      = o.specifiersOn id pad + madeOne id pad r := by
  cases r with
  | error e => cases hok
  | ok x => exact h x.1 x.2 rfl

/-! ### Mapping entries -/

/-- Whether a mapping source is a chain. -/
def isChain : Value → Bool
  | .object (.chain _) => true
  | _ => false

/-- Whether an entry of a list of mappings names a chain, alone or with an index. -/
def namesChain (entry : Value) : Bool :=
  match splitEntry entry with
  | .ok (source, _) => isChain source
  | .error _ => false

/-- How many entries name a chain and are resolved to a pad. -/
def madeByEntries (id : ChainId) (pad : Nat) (entries : List Value) (streams : List Specifier) : Nat :=
  (entries.zip streams).countP fun e => namesChain e.1 && e.2.isOn id pad

theorem madeByEntries_cons (entry : Value) (s : Specifier) (entries : List Value)
    (streams : List Specifier) : madeByEntries id pad (entry :: entries) (s :: streams)
      = madeByEntries id pad entries streams + if namesChain entry && s.isOn id pad then 1 else 0 :=
  List.countP_cons

/-- How many specifiers on a pad are made for the entries that a command maps, unless one is refused. -/
def madeFor (o : Objects) (id : ChainId) (pad : Nat) (command : CommandId) (entries : List Value) : Nat :=
  match o.command? command with
  | none => 0
  | some c =>
    match (o.resolveEntries c [] entries).result with
    | .ok streams => madeByEntries id pad entries streams
    | .error _ => 0

/-- A source that is a chain is given a specifier of its own, and any other source none on a pad. -/
theorem resolveSource_makes {c : Command} {source index : Value} {r : Resolved}
    (h : o.resolveSource c source index = .ok (o', r)) :
    o'.specifiersOn id pad
      = o.specifiersOn id pad + if isChain source && r.source.isOn id pad then 1 else 0 := by
  unfold resolveSource at h
  split at h
  · -- A specifier stands for itself.
    have hsame : o'.specifiers = o.specifiers := by
      split at h
      · obtain ⟨s, -, h⟩ := bind_ok.mp h
        split at h
        · obtain ⟨⟨⟩, -, h⟩ := bind_ok.mp h
          cases h
          rfl
        · obtain ⟨⟨⟩, -, h⟩ := bind_ok.mp h
          obtain ⟨o₂, hmark, h⟩ := bind_ok.mp h
          cases h
          obtain ⟨ch, -, -, -, rfl⟩ := markMapped_ok hmark
          rfl
      · cases h
    exact MakesNone.of_eq hsame
  · -- An input is given a specifier that is on none.
    obtain ⟨⟨⟩, -, h⟩ := bind_ok.mp h
    obtain ⟨⟨o₂, s⟩, hs, h⟩ := bind_ok.mp h
    cases h
    exact MakesNone.quiet (inputStream_quiet hs)
  · rename_i x
    obtain ⟨⟨⟩, -, h⟩ := bind_ok.mp h
    obtain ⟨ch, -, h⟩ := bind_ok.mp h
    obtain ⟨p, -, h⟩ := bind_ok.mp h
    obtain ⟨o₂, hmark, h⟩ := bind_ok.mp h
    cases h
    have hmarked : MakesNone id pad o o₂ := .markMapped hmark
    rw [← hmarked]
    exact specifiersOn_referTo o₂ x p
  · cases h

theorem resolveEntry_makes {c : Command} {entry : Value} {r : Resolved}
    (h : o.resolveEntry c entry = .ok (o', r)) :
    o'.specifiersOn id pad
      = o.specifiersOn id pad + if namesChain entry && r.source.isOn id pad then 1 else 0 := by
  obtain ⟨⟨source, index⟩, hsplit, h⟩ := bind_ok.mp h
  simp only [namesChain, hsplit]
  exact resolveSource_makes h

/-- Entries that go through make a specifier for each chain among them. -/
theorem resolveEntries_makes {c : Command} (entries : List Value) :
    ∀ {o : Objects} {done : List Resolved} {streams : List Specifier},
      (o.resolveEntries c done entries).result = .ok streams →
      ∃ new, streams = done.reverse.map Resolved.source ++ new ∧
        (o.resolveEntries c done entries).objects.specifiersOn id pad
          = o.specifiersOn id pad + madeByEntries id pad entries new := by
  induction entries with
  | nil =>
      intro o done streams h
      refine ⟨[], ?_, rfl⟩
      rw [List.append_nil]
      exact (Except.ok.inj h).symm
  | cons entry rest ih =>
      intro o done streams h
      simp only [resolveEntries] at h ⊢
      split at h
      · rename_i o₂ r hr
        obtain ⟨new, hnew, hrest⟩ := ih h
        refine ⟨r.source :: new, by rw [hnew]; simp, ?_⟩
        rw [hrest, resolveEntry_makes hr, madeByEntries_cons, Nat.add_assoc, Nat.add_comm (ite _ _ _)]
      · cases h

section Mapping

variable {command : CommandId} {c : Command}

theorem madeFor_eq {entries : List Value} {streams : List Specifier} (hc : o.command? command = some c)
    (h : (o.resolveEntries c [] entries).result = .ok streams) :
    o.madeFor id pad command entries = madeByEntries id pad entries streams := by
  simp only [madeFor, hc, h]

theorem mapEntries_makes (hs : Sound o) (hc : o.command? command = some c) {output : OutputId}
    (hout : (o.output? output).isSome) {entries : List Value}
    (hok : (o.mapEntries command c output entries).result = .ok ()) :
    (o.mapEntries command c output entries).objects.specifiersOn id pad
      = o.specifiersOn id pad + o.madeFor id pad command entries := by
  obtain ⟨out, hout⟩ := Option.isSome_iff_exists.mp hout
  have hends := mapEntries_ends hs hc hout entries
  cases hresult : (o.resolveEntries c [] entries).result with
  | error f =>
      rw [hresult] at hends
      rw [hends.1] at hok
      cases hok
  | ok streams =>
      rw [hresult] at hends
      obtain ⟨new, hnew, hmade⟩ := @resolveEntries_makes id pad c entries o [] streams hresult
      obtain rfl : streams = new := hnew
      rw [hends.2, madeFor_eq hc hresult]
      exact hmade

/-- The entries that a caller gives with an output; none are as good as an empty list. -/
def entriesGiven (o : Objects) (mappings : Value) : List Value :=
  match mappings with
  | .null => []
  | _ => (o.mappingEntries mappings).toOption.getD []

theorem commandAddOutput_makes (hs : Sound o) {output mappings : Value} {x : OutputId}
    (hok : (o.commandAddOutput command output mappings).result = .ok x) :
    (o.commandAddOutput command output mappings).objects.specifiersOn id pad
      = o.specifiersOn id pad + o.madeFor id pad command (o.entriesGiven mappings) := by
  unfold commandAddOutput at hok ⊢
  dsimp only at hok ⊢
  split at hok
  · cases hok
  · rename_i c₁ id₁ entries h
    obtain ⟨c₂, hc, h⟩ := bind_ok.mp h
    obtain ⟨id₂, hid, h⟩ := bind_ok.mp h
    have hentries : c₂ = c₁ ∧ id₂ = id₁ ∧ o.entriesGiven mappings = entries := by
      split at h
      · cases h
        exact ⟨rfl, rfl, rfl⟩
      · obtain ⟨given, hgiven, h⟩ := bind_ok.mp h
        cases h
        refine ⟨rfl, rfl, ?_⟩
        simp only [entriesGiven, hgiven]
        rfl
    obtain ⟨rfl, rfl, rfl⟩ := hentries
    split at hok
    · cases hok
    · rename_i hmapped
      rw [← mapEntries_makes hs (command_ok.mp hc) (newCommandOutput_ok hid).1 hmapped]
      unfold enterOutput
      split <;> rfl

theorem commandMap_makes (hs : Sound o) {output source index : Value} {track : Nat}
    (hok : (o.commandMap command output source index).result = .ok track) :
    (o.commandMap command output source index).objects.specifiersOn id pad
      = o.specifiersOn id pad + o.madeFor id pad command [.tuple [source, index]] := by
  unfold commandMap at hok ⊢
  dsimp only at hok ⊢
  split at hok
  · cases hok
  · rename_i c₁ id₁ h
    obtain ⟨c₂, hc, h⟩ := bind_ok.mp h
    obtain ⟨id₂, hid, h⟩ := bind_ok.mp h
    cases h
    cases hresult : (o.mapEntries command c₁ id₁ [.tuple [source, index]]).result with
    | error f =>
        simp only [Outcome.map, hresult] at hok
        cases hok
    | ok u =>
        exact mapEntries_makes hs (command_ok.mp hc) (commandOutput_ok hid) hresult

theorem mappingValue_makes (hs : Sound o) {source index : Value} {text : String}
    (hok : (o.mappingValue command source index).result = .ok text) :
    (o.mappingValue command source index).objects.specifiersOn id pad
      = o.specifiersOn id pad + o.madeFor id pad command [.tuple [source, index]] := by
  rcases mappingValue_cases hs command source index with
    ⟨f, hf, -⟩ | ⟨c, r, text', -, hc, hresolve, -⟩
  · rw [hf] at hok
    cases hok
  · have hentry : o.resolveEntry c (.tuple [source, index])
        = .ok ((o.mappingValue command source index).objects, r) := hresolve
    have hresult : (o.resolveEntries c [] [.tuple [source, index]]).result = .ok [r.source] := by
      simp only [resolveEntries, hentry]
      rfl
    rw [madeFor_eq hc hresult, resolveEntry_makes hentry]
    exact congrArg _ (List.countP_singleton).symm

end Mapping

/-! ### All calls -/

/-- How many specifiers on a pad a call makes if it goes through. -/
def makes (o : Objects) (id : ChainId) (pad : Nat) : Action → Nat
  | .outputPad chain selector => madeOne id pad (o.outputPad chain selector)
  | .fromFilterOutput chain selector => madeOne id pad (o.fromFilterOutput chain selector)
  | .addOutput command _ mappings => o.madeFor id pad command (o.entriesGiven mappings)
  | .map command _ source index => o.madeFor id pad command [.tuple [source, index]]
  | .mappingValue command source index => o.madeFor id pad command [.tuple [source, index]]
  | _ => 0

theorem makes_eq_zero {a : Action} (ha : a.makesStreams = false) : o.makes id pad a = 0 := by
  cases a <;> first | rfl | cases ha

/-- **What a call that goes through makes on a pad.** -/
theorem perform_makes (hs : Sound o) {a : Action} {v : Value} (hcopy : ∀ w, a ≠ .copy w)
    (hok : (o.perform a).result = .ok v) :
    (o.perform a).objects.specifiersOn id pad = o.specifiersOn id pad + o.makes id pad a := by
  cases hmakes : a.makesStreams with
  | false =>
      rw [makes_eq_zero hmakes]
      exact perform_makesNone hmakes
  | true =>
    cases a with
    | outputPad => exact madeSpecifier_makes (fun _ _ h => outputPad_makes h) hok
    | fromFilterOutput => exact madeSpecifier_makes (fun _ _ h => fromFilterOutput_makes h) hok
    | addOutput =>
        obtain ⟨x, hx, -⟩ := map_ok.mp hok
        exact commandAddOutput_makes hs hx
    | map =>
        obtain ⟨track, htrack, -⟩ := map_ok.mp hok
        exact commandMap_makes hs htrack
    | mappingValue =>
        obtain ⟨text, htext, -⟩ := map_ok.mp hok
        exact mappingValue_makes hs htext
    | copy w => exact absurd rfl (hcopy w)
    | _ => cases hmakes

/-- A call that goes through counts a reference for each specifier that it makes. -/
theorem perform_counts (hs : Sound o) {a : Action} {v : Value} (hcopy : ∀ w, a ≠ .copy w)
    (hok : (o.perform a).result = .ok v) :
    (o.perform a).objects.consumersOf id pad = o.consumersOf id pad + o.makes id pad a := by
  obtain ⟨specifiers, trace⟩ := perform_trace hs hcopy
  have hpace : KeepsPace id pad o (o.perform a).objects := trace.keepsPace
  rw [KeepsPace, perform_makes hs hcopy hok] at hpace
  omega

end Objects

end MediaCommand
