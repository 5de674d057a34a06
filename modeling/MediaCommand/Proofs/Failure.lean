/-
A call that fails changes nothing, except for a warning that it puts into words.

A refused call leaves the objects as they were; for batches of mappings that is `Proofs/Batch`.  What
is left are the lines that a call tells after it has changed the objects.  Lines about mapped streams and
mapping sources are put into words by whoever listens, and do not concern the call.  The warning that a
chain has too few inputs shows the filters of the chain, and the call puts these into words whether or
not anyone is told.  If they have no text it fails although the objects have changed.

Making a graph and adding several chains to one are left out, because they keep the chains taken
before one is refused.
-/
import MediaCommand.Proofs.Calls
import MediaCommand.Session.Basic

namespace MediaCommand

/-- Calls that keep what they did before a part of them is refused. -/
def Action.isGradual : Action → Bool
  | .newGraph _ => true
  | .extendGraph _ _ => true
  | _ => false

/-- Calls that may warn of a chain with too few inputs. -/
def Action.mayWarn : Action → Bool
  | .addInputs _ _ => true
  | .prependNodes _ _ => true
  | _ => false

namespace Objects

variable {o : Objects}

/-! ### How a call on the objects ends -/

/-- A call is refused and changes nothing, or goes through; then it puts none of its lines into words, or
it is one of the two calls that may warn. -/
inductive Ends (o : Objects) (a : Action) : Prop
  | refused {f : Failure} (result : (o.perform a).result = .error f)
      (same : (o.perform a).objects = o)
  | done {v : Value} (result : (o.perform a).result = .ok v)
      (lazily : ∀ e ∈ (o.perform a).events, e.isEager = false)
  | warned {id : ChainId} {v : Value} (result : (o.perform a).result = .ok v)
      (call : (∃ inputs, a = .addInputs id inputs) ∨ ∃ nodes, a = .prependNodes id nodes)
      (lines : (o.perform a).events = (o.perform a).objects.underconnected id)

theorem ends_ofExcept {a : Action} {r : Except Error (Objects × Value)}
    (h : o.perform a = .ofExcept o r) : Ends o a := by
  cases r with
  | error e => exact .refused (f := ⟨e, o⟩) (by rw [h]; rfl) (by rw [h]; rfl)
  | ok x => exact .done (v := x.2) (by rw [h]; rfl) (by rw [h]; exact fun _ he => nomatch he)

private theorem map_result_ok {α β : Type} {f : α → β} {r : Outcome α} {x : α}
    (h : r.result = .ok x) : (r.map f).result = .ok (f x) := by
  simp only [Outcome.map, h, Except.map]

private theorem map_result_error {α β : Type} {f : α → β} {r : Outcome α} {e : Failure}
    (h : r.result = .error e) : (r.map f).result = .error e := by
  simp only [Outcome.map, h, Except.map]

/-- Every call ends in one of these ways. -/
theorem perform_ends (hs : Sound o) {a : Action} (ha : a.isGradual = false) : Ends o a := by
  cases a with
  | newGraph chains => cases ha
  | extendGraph graph chains => cases ha
  | prependNodes id nodes =>
      rcases prependNodes_cases o id nodes with ⟨f, hf, same⟩ | ⟨hok, hnone | hevents, -⟩
      · exact .refused (map_result_error hf) same
      · refine .done (map_result_ok hok) fun e he => ?_
        have hmem : e ∈ (o.prependNodes id nodes).events := he
        rw [hnone] at hmem
        cases hmem
      · exact .warned (map_result_ok hok) (Or.inr ⟨nodes, rfl⟩) hevents
  | addInputs id inputs =>
      rcases addInputs_cases o id inputs with ⟨f, hf, same⟩ | ⟨hok, hevents, -⟩
      · exact .refused (map_result_error hf) same
      · exact .warned (map_result_ok hok) (Or.inl ⟨inputs, rfl⟩) hevents
  | addOutput command output mappings =>
      rcases commandAddOutput_cases hs command output mappings with
        ⟨f, hf, same⟩ | ⟨id, hok, hall⟩
      · exact .refused (map_result_error hf) same
      · exact .done (map_result_ok hok) hall.lazily
  | map command output source index =>
      rcases commandMap_cases hs command output source index with
        ⟨f, hf, same⟩ | ⟨track, hok, hall⟩
      · exact .refused (map_result_error hf) same
      · exact .done (map_result_ok hok) hall.lazily
  | mappingValue command source index =>
      rcases mappingValue_cases hs command source index with
        ⟨f, hf, same⟩ | ⟨c, r, text, hok, -, -, hevents⟩
      · exact .refused (map_result_error hf) same
      · refine .done (map_result_ok hok) fun e he => ?_
        have hmem : e ∈ (o.mappingValue command source index).events := he
        rw [hevents] at hmem
        obtain rfl := List.mem_singleton.mp hmem
        rfl
  | newFilter | newChain | add | wrap | newInput | newOutput | newCommand | copy | appendNodes
  | outputPad | fromFilterOutput | markMapped | appendChain | addInputOptions | addOutputOptions
  | inputStream | fromInput | addInput | addGraph => exact ends_ofExcept rfl

/-- A refused call leaves the objects as they were. -/
theorem perform_refused (hs : Sound o) {a : Action} (ha : a.isGradual = false) {f : Failure}
    (h : (o.perform a).result = .error f) : (o.perform a).objects = o := by
  cases perform_ends hs ha with
  | refused result same => exact same
  | done result | warned result =>
      rw [h] at result
      cases result

theorem underconnected_cases (o : Objects) (id : ChainId) :
    o.underconnected id = [] ∨ ∃ c needed, o.chain? id = some c ∧
      o.underconnected id = [.underconnected id needed c.inputs.length] := by
  unfold underconnected
  split
  · exact Or.inl rfl
  · rename_i c hc
    split
    · exact Or.inl rfl
    · rename_i needed _
      split
      · exact Or.inr ⟨c, needed, hc, rfl⟩
      · exact Or.inl rfl

end Objects

namespace Session

variable {s : Session}

/-! ### How a call in a session ends -/

/-- The session after a call has changed the objects, before any line is told. -/
def after (s : Session) (a : Action) : Session :=
  { s with objects := (s.objects.perform a).objects }

/-- A call goes through but cannot put into words what it warns of: a chain has too few inputs, and the
filters of the chain have no text. -/
inductive Unspeakable (s : Session) (a : Action) : Prop
  | warning {id : ChainId} {c : Chain} {needed : Int} {v : Value} {why : Error}
      (call : (∃ inputs, a = .addInputs id inputs) ∨ ∃ nodes, a = .prependNodes id nodes)
      (done : (s.objects.perform a).result = .ok v)
      (line : (s.objects.perform a).events = [.underconnected id needed c.inputs.length])
      (chain : (s.after a).objects.chain? id = some c)
      (text : Objects.filtersText (s.after a).scene.texts c = .error why)

theorem act_refused {a : Action} {f : Failure} (h : (s.objects.perform a).result = .error f) :
    (s.act a).session = s.after a ∧ ∃ e, (s.act a).result = .error e := by
  simp only [act, h]
  exact ⟨rfl, _, rfl⟩

theorem act_done {a : Action} {v : Value} (h : (s.objects.perform a).result = .ok v) :
    (s.act a).session = s.after a ∧
      (s.act a).result = (((s.after a).tellEvents (s.objects.perform a).events).2.map
        fun _ => v).mapError (s.after a).explain := by
  simp only [act, h]
  exact ⟨rfl, rfl⟩

/-- Telling keeps no call from going through that puts none of its lines into words. -/
theorem tellEvents_ok {events : List Event} (h : ∀ e ∈ events, e.isEager = false) :
    (s.tellEvents events).2 = .ok () := by
  induction events with
  | nil => rfl
  | cons e rest ih =>
      have hrest := ih fun x hx => h x (List.mem_cons_of_mem e hx)
      unfold tellEvents
      rw [h e List.mem_cons_self]
      cases s.eventText e with
      | error why => exact hrest
      | ok text => exact hrest

/-- A single line that a call puts into words keeps it from going through if it has no text. -/
theorem tellEvents_single {e : Event} {why : Error} (he : e.isEager = true) :
    (s.tellEvents [e]).2 = .error why ↔ s.eventText e = .error why := by
  unfold tellEvents
  rw [he]
  cases s.eventText e with
  | error why' =>
      show (Except.error why' : Except Error Unit) = .error why ↔ _
      simp only [Except.error.injEq]
  | ok text => exact ⟨(nomatch ·), (nomatch ·)⟩

theorem eventText_underconnected {id : ChainId} {c : Chain} {needed : Int} {why : Error}
    (hc : s.objects.chain? id = some c) :
    s.eventText (.underconnected id needed c.inputs.length) = .error why ↔
      Objects.filtersText s.scene.texts c = .error why := by
  simp only [eventText, Objects.chain_ok.mpr hc, bind, Except.bind]
  cases Objects.filtersText s.scene.texts c with
  | error why' => exact Iff.rfl
  | ok text => exact ⟨(nomatch ·), (nomatch ·)⟩

/-- Whatever becomes of a call, the session after it has the objects that it leaves. -/
theorem act_session (s : Session) (a : Action) : (s.act a).session = s.after a := by
  cases h : (s.objects.perform a).result with
  | ok v => exact (act_done h).1
  | error f => exact (act_refused h).1

/-- A call that goes through fails if and only if a line that it puts into words has no text. -/
theorem act_fails_iff {a : Action} {v : Value} (h : (s.objects.perform a).result = .ok v) :
    (∃ e, (s.act a).result = .error e) ↔
      ∃ why, ((s.after a).tellEvents (s.objects.perform a).events).2 = .error why := by
  rw [(act_done h).2]
  cases ((s.after a).tellEvents (s.objects.perform a).events).2 with
  | error why => exact ⟨fun _ => ⟨why, rfl⟩, fun _ => ⟨_, rfl⟩⟩
  | ok u => exact ⟨fun ⟨_, h⟩ => (nomatch h), fun ⟨_, h⟩ => (nomatch h)⟩

theorem Unspeakable.fails {a : Action} (h : s.Unspeakable a) :
    (∃ e, (s.act a).result = .error e) ∧ ∃ v, (s.objects.perform a).result = .ok v := by
  cases h with
  | warning call done line chain text =>
      refine ⟨(act_fails_iff done).mpr ?_, _, done⟩
      rw [line]
      exact ⟨_, (tellEvents_single rfl).mpr ((eventText_underconnected chain).mpr text)⟩

/-- A call that goes through and fails all the same warns of a chain whose filters have no text. -/
theorem unspeakable_of_fails {a : Action} {v : Value} (hs : s.objects.Sound)
    (ha : a.isGradual = false) (hok : (s.objects.perform a).result = .ok v)
    (hfail : ∃ e, (s.act a).result = .error e) : s.Unspeakable a := by
  obtain ⟨why, hwhy⟩ := (act_fails_iff hok).mp hfail
  cases Objects.perform_ends hs ha with
  | refused result same =>
      rw [hok] at result
      cases result
  | done result lazily =>
      rw [tellEvents_ok lazily] at hwhy
      cases hwhy
  | warned result call lines =>
      rename_i id v'
      rcases (s.objects.perform a).objects.underconnected_cases id with hnone | ⟨c, needed, hc, hline⟩
      · rw [lines, hnone] at hwhy
        cases hwhy
      · rw [lines, hline] at hwhy
        exact .warning call hok (lines.trans hline) hc
          ((eventText_underconnected hc).mp ((tellEvents_single rfl).mp hwhy))

/-- A call that is not refused goes through, or cannot put its warning into words. -/
theorem ok_or_unspeakable {a : Action} {v : Value} (hs : s.objects.Sound) (ha : a.isGradual = false)
    (h : (s.objects.perform a).result = .ok v) :
    (∃ v, (s.act a).result = .ok v) ∨ s.Unspeakable a := by
  cases hresult : (s.act a).result with
  | ok v => exact Or.inl ⟨v, rfl⟩
  | error e => exact Or.inr (unspeakable_of_fails hs ha h ⟨e, hresult⟩)

/-- A call that has nothing to warn of goes through if it does on the objects. -/
theorem act_ok (hs : s.objects.Sound) {a : Action} (ha : a.isGradual = false) (hwarn : a.mayWarn = false)
    {v : Value} (h : (s.objects.perform a).result = .ok v) :
    (s.act a).result = .ok v ∧ (s.act a).session = s.after a := by
  have hlazily : ∀ e ∈ (s.objects.perform a).events, e.isEager = false := by
    cases Objects.perform_ends hs ha with
    | refused result =>
        rw [h] at result
        cases result
    | done result lazily => exact lazily
    | warned result call => rcases call with ⟨inputs, rfl⟩ | ⟨nodes, rfl⟩ <;> cases hwarn
  obtain ⟨hsession, hresult⟩ := act_done h
  rw [tellEvents_ok hlazily] at hresult
  exact ⟨hresult, hsession⟩

/-- **A call that fails changes nothing.**  The only exception is a call that goes through and cannot put
its warning into words: it fails, and leaves all that it did. -/
theorem failed_call_changes_nothing (h : s.objects.Reachable) {a : Action}
    (ha : a.isGradual = false) :
    ((∃ e, (s.act a).result = .error e) → (s.act a).session = s ∨ s.Unspeakable a) ∧
      (s.Unspeakable a → (∃ e, (s.act a).result = .error e) ∧
        (∃ v, (s.objects.perform a).result = .ok v) ∧ (s.act a).session = s.after a) := by
  refine ⟨fun hfail => ?_, fun hline => ?_⟩
  · cases hresult : (s.objects.perform a).result with
    | ok v => exact Or.inr (unspeakable_of_fails h.sound ha hresult hfail)
    | error f =>
        refine Or.inl ?_
        rw [(act_refused hresult).1, after, Objects.perform_refused h.sound ha hresult]
  · obtain ⟨hfails, v, hv⟩ := hline.fails
    exact ⟨hfails, ⟨v, hv⟩, (act_done hv).1⟩

/-- A session with a chain whose filter takes two inputs and has among its options a stream of an input
that no command has numbered. -/
def overlaySession : Session where
  objects := Objects.afterCalls {}
    [.act (.newInput (.text "in.mp4") .null),
      .act (.inputStream ⟨0⟩ .null),
      .act (.newFilter (.text "overlay") (.dict [(.text "k", .object (.specifier ⟨0⟩))]) (.int 2)
        (.int 1)),
      .act (.newChain (.object (.filter ⟨0⟩)))]

/-- Binding the stream to the chain. -/
def overlayCall : Action := .addInputs ⟨0⟩ (.list [.object (.specifier ⟨0⟩)])

/-- The warning about the second input shows the option, which has no text; the first stays bound. -/
theorem failed_overlay_call :
    overlaySession.objects.Reachable ∧ overlayCall.isGradual = false ∧
      overlaySession.Unspeakable overlayCall ∧
      (∃ e, (overlaySession.act overlayCall).result = .error e) ∧
      (overlaySession.act overlayCall).session = overlaySession.after overlayCall ∧
      (overlaySession.objects.chain? ⟨0⟩).map (·.inputs.length) = some 0 ∧
      ((overlaySession.after overlayCall).objects.chain? ⟨0⟩).map (·.inputs.length) = some 1 := by
  have hreachable : overlaySession.objects.Reachable := ⟨_, rfl⟩
  have hline : overlaySession.Unspeakable overlayCall :=
    .warning (Or.inl ⟨_, rfl⟩) rfl rfl rfl rfl
  obtain ⟨hfails, -, hafter⟩ := (failed_call_changes_nothing hreachable rfl).2 hline
  exact ⟨hreachable, rfl, hline, hfails, hafter, rfl, rfl⟩

end Session

end MediaCommand
