/-
References to pads are counted exactly.

A session takes turns: calls on the objects, and anything else, which leaves the objects as they are.  The
references to a pad of a chain that is no copy are then as many as the specifiers that successful calls
have made on the pad, turn by turn.

A call that is refused makes none, because what it had made is taken back.  A call that is not refused and
makes specifiers on pads succeeds: it has nothing to warn of, and whether its lines can be told does not
concern it.
-/
import MediaCommand.Proofs.Counters
import MediaCommand.Proofs.Failure
import MediaCommand.Proofs.MadeStreams

namespace MediaCommand

namespace Objects

variable {o : Objects} {id : ChainId} {pad : Nat}

/-- Copying leaves the references to every chain but the copies. -/
theorem consumersOf_copy {v : Value} (h : o.copiedFrom? v id = none) :
    (o.perform (.copy v)).objects.consumersOf id pad = o.consumersOf id pad := by
  cases hc : o.chain? id with
  | some c =>
      have hkept : (o.perform (.copy v)).objects.chain? id = some c := by
        rcases perform_copy o v with heq | ⟨m, -, heq⟩
        · rwa [heq]
        · rw [heq]
          exact getElem?_append_of_some _ hc
      rw [consumersOf, consumersOf, atChain_of_chain? _ hc, atChain_of_chain? _ hkept]
  | none =>
      have hnone : (o.perform (.copy v)).objects.chain? id = none := by
        cases hc' : (o.perform (.copy v)).objects.chain? id with
        | none => rfl
        | some c' =>
            rcases chain?_copy hc' with hold | ⟨x, c, hx, -⟩
            · rw [hc] at hold
              cases hold
            · rw [h] at hx
              cases hx
      simp only [consumersOf, atChain, hc, hnone]

/-- A call that is refused makes no reference, or takes it back. -/
theorem perform_refused_counts (hs : Sound o) {a : Action} (hcopy : ∀ v, a ≠ .copy v) {f : Failure}
    (h : (o.perform a).result = .error f) :
    (o.perform a).objects.consumersOf id pad = o.consumersOf id pad := by
  cases hgradual : a.isGradual with
  | false => rw [perform_refused hs hgradual h]
  | true =>
      have hstreams : a.makesStreams = false := by cases a <;> first | rfl | cases hgradual
      obtain ⟨specifiers, trace⟩ := perform_trace hs hcopy
      have hpace : KeepsPace id pad o (o.perform a).objects := trace.keepsPace
      have hnone : MakesNone id pad o (o.perform a).objects := perform_makesNone hstreams
      rw [KeepsPace, hnone] at hpace
      exact Nat.add_right_cancel hpace

end Objects

namespace Session

variable {s : Session} {id : ChainId} {pad : Nat}

/-! ### Turns -/

/-- A turn of a session. -/
inductive Turn
  | call (c : Call)
  /-- Anything else: the session becomes another one with the same objects. -/
  | aside (s : Session)

/-- The session after a call, whatever becomes of it. -/
def afterCall (s : Session) : Call → Session
  | .act a => (s.act a).session
  | .keep v => (s.keep v).session
  | .extendList list items => (s.extendList list items).session

/-- The session after a turn. -/
def afterTurn (s : Session) : Turn → Session
  | .call c => s.afterCall c
  | .aside t => { t with objects := s.objects }

/-- The session after turns, one after the other. -/
def afterTurns (s : Session) (turns : List Turn) : Session := turns.foldl afterTurn s

theorem objects_afterCall (s : Session) (c : Call) :
    (s.afterCall c).objects = s.objects.afterCall c := by
  cases c with
  | act a => exact congrArg Session.objects (s.act_session a)
  | keep v => rfl
  | extendList list items =>
      simp only [afterCall, extendList, Objects.afterCall]
      cases s.objects.extendList list items <;> rfl

theorem sound_afterTurn (hs : s.objects.Sound) (t : Turn) : (s.afterTurn t).objects.Sound := by
  cases t with
  | call c =>
      rw [afterTurn, objects_afterCall]
      exact (hs.afterCall c).1
  | aside t => exact hs

/-! ### What is made in a session -/

/-- Whether a call succeeds. -/
def succeeds (s : Session) (a : Action) : Bool := (s.act a).result.isOk

/-- How many specifiers on a pad are made in a turn, which is a call that succeeds or makes none. -/
def madeIn (id : ChainId) (pad : Nat) (s : Session) : Turn → Nat
  | .call (.act a) => if s.succeeds a then s.objects.makes id pad a else 0
  | _ => 0

/-- How many specifiers on a pad are made by the successful calls of a session. -/
def madeBy (id : ChainId) (pad : Nat) : Session → List Turn → Nat
  | _, [] => 0
  | s, t :: rest => madeIn id pad s t + madeBy id pad (s.afterTurn t) rest

/-- Whether a turn makes a chain as a copy. -/
def copiesChain (s : Session) (id : ChainId) : Turn → Bool
  | .call (.act (.copy v)) => (s.objects.copiedFrom? v id).isSome
  | _ => false

/-- Whether a chain is made as a copy in a session. -/
def isCopy (id : ChainId) : Session → List Turn → Bool
  | _, [] => false
  | s, t :: rest => s.copiesChain id t || isCopy id (s.afterTurn t) rest

/-- A call that is not refused succeeds, unless it makes no specifier on a pad. -/
theorem succeeds_of_makes (hs : s.objects.Sound) {a : Action} {v : Value}
    (hok : (s.objects.perform a).result = .ok v)
    (hmakes : s.objects.makes id pad a ≠ 0) : s.succeeds a = true := by
  have hstreams : a.makesStreams = true := by
    by_contra hnone
    exact hmakes (Objects.makes_eq_zero (Bool.not_eq_true _ ▸ hnone))
  have hcalm : a.isGradual = false ∧ a.mayWarn = false := by
    cases a <;> first | exact ⟨rfl, rfl⟩ | cases hstreams
  rw [succeeds, (act_ok hs hcalm.1 hcalm.2 hok).1]
  rfl

/-- A call counts a reference for each specifier that it makes, and counts none unless it succeeds. -/
theorem act_counts (hs : s.objects.Sound) {a : Action} (hcopy : ∀ v, a ≠ .copy v) :
    (s.act a).session.objects.consumersOf id pad
      = s.objects.consumersOf id pad + madeIn id pad s (.call (.act a)) := by
  rw [act_session]
  show (s.objects.perform a).objects.consumersOf id pad = _
  cases hperform : (s.objects.perform a).result with
  | ok v =>
      rw [Objects.perform_counts hs hcopy hperform, madeIn]
      by_cases hmakes : s.objects.makes id pad a = 0
      · rw [hmakes, ite_self]
      · rw [succeeds_of_makes hs hperform hmakes, if_pos rfl]
  | error f =>
      obtain ⟨e, he⟩ := (act_refused hperform).2
      have hfails : s.succeeds a = false := by
        rw [succeeds, he]
        rfl
      rw [Objects.perform_refused_counts hs hcopy hperform, madeIn, hfails]
      rfl

theorem turn_counts (hs : s.objects.Sound) {t : Turn} (hcopy : s.copiesChain id t = false) :
    (s.afterTurn t).objects.consumersOf id pad
      = s.objects.consumersOf id pad + madeIn id pad s t := by
  cases t with
  | aside t => rfl
  | call c =>
    rw [afterTurn, objects_afterCall]
    cases c with
    | act a =>
        by_cases hv : ∃ v, a = .copy v
        · obtain ⟨v, rfl⟩ := hv
          have hnone : s.objects.copiedFrom? v id = none := Option.not_isSome_iff_eq_none.mp (by
            simpa [copiesChain] using hcopy)
          rw [Objects.afterCall, Objects.consumersOf_copy hnone]
          simp [madeIn, Objects.makes]
        · rw [← objects_afterCall]
          exact act_counts hs fun v hcopies => hv ⟨v, hcopies⟩
    | keep v => exact (Objects.quiet_keep s.objects v).consumersOf
    | extendList list items => exact (Objects.afterCall_extendList_quiet _ list items).consumersOf

/-- The references to a pad grow by what all turns of a session make. -/
theorem turns_count (turns : List Turn) :
    ∀ {s : Session}, s.objects.Sound → isCopy id s turns = false →
      (s.afterTurns turns).objects.consumersOf id pad
        = s.objects.consumersOf id pad + madeBy id pad s turns := by
  induction turns with
  | nil => exact fun _ _ => rfl
  | cons t rest ih =>
      intro s hs hcopy
      obtain ⟨hturn, hrest⟩ := Bool.or_eq_false_iff.mp hcopy
      have hafter := ih (sound_afterTurn hs t) hrest
      rw [turn_counts hs hturn] at hafter
      rw [madeBy, ← Nat.add_assoc]
      exact hafter

/-- **References are counted exactly.**  Whatever happens in a session, the pads of a chain that is no copy
have as many references as specifiers were made on them by calls that succeed.  The counters change as
references do, and none is zero.  So filters at the end must have the very pads, those with a counter, up
to the last of which labels go. -/
theorem references_counted_exactly (turns : List Turn) {id : ChainId} {c : Chain}
    (hc : (afterTurns {} turns).objects.chain? id = some c) :
    (isCopy id {} turns = false → ∀ pad, c.consumers pad = madeBy id pad {} turns) ∧
    (∀ pad, (c.addReference pad).counters = raiseCounter c.counters pad ∧
      (c.removeReference pad).counters = lowerCounter c.counters pad) ∧
    (∀ e, e ∈ c.counters ↔ 1 ≤ e.2 ∧ e.2 = c.consumers e.1) ∧
    (∀ nodes fs f, (afterTurns {} turns).objects.filtersOf nodes = .ok fs → fs.getLast? = some f →
      ((∃ o', (afterTurns {} turns).objects.appendNodes id nodes = .ok o') ↔
        ∀ pad ∈ c.counters.map Prod.fst, f.outputArity.hasPad pad = true)) ∧
    ∀ q, q ∈ c.labeledPads ↔ ∃ e ∈ c.counters, 0 < e.2 ∧ q ≤ e.1 := by
  refine ⟨fun hcopy pad => ?_,
    fun pad => ⟨c.counters_addReference pad, c.counters_removeReference pad⟩, fun e => Chain.mem_counters,
    fun nodes fs f hfs hlast => Objects.appendNodes_ok_iff_keys hc hfs hlast,
    fun q => Chain.mem_labeledPads_iff⟩
  have hcount := @turns_count id pad turns {} Objects.sound_empty hcopy
  rw [Objects.consumersOf, Objects.atChain_of_chain? _ hc] at hcount
  exact hcount.trans (Nat.zero_add _)

/-- A session that tells every line.  A chain of a command is fed by a stream of an input that the command
does not have, so no line can show it; it is given with an output in front of something that is no source,
and then asked for by itself. -/
def recountedTurns : List Turn :=
  [.aside { logger := { level := Level.debug.number } },
    .call (.act (.newFilter (.text "null") .null (.int 1) (.int 1))),
    .call (.act (.newChain (.object (.filter ⟨0⟩)))),
    .call (.act (.newGraph (.list [.object (.chain ⟨0⟩)]))),
    .call (.act (.newCommand .null none)),
    .call (.act (.addGraph ⟨0⟩ (.object (.graph ⟨0⟩)) .null)),
    .call (.act (.newInput (.text "in.mp4") .null)),
    .call (.act (.inputStream ⟨0⟩ .null)),
    .call (.act (.addInputs ⟨0⟩ (.list [.object (.specifier ⟨0⟩)]))),
    .call (.act (.newOutput (.text "out.mp4") .null)),
    .call (.act (.addOutput ⟨0⟩ (.object (.output ⟨0⟩)) (.list [.object (.chain ⟨0⟩), .int 5]))),
    .call (.act (.mappingValue ⟨0⟩ (.object (.chain ⟨0⟩)) .null))]

/-- The batch is refused and takes its reference back; the one that is left is of the call that succeeds,
though its line is lost. -/
theorem lost_line_keeps_reference :
    ∃ c, (afterTurns {} recountedTurns).objects.chain? ⟨0⟩ = some c ∧
      madeBy ⟨0⟩ 0 {} (recountedTurns.take 11) = 0 ∧ madeBy ⟨0⟩ 0 {} recountedTurns = 1 ∧
      c.consumers 0 = 1 := by
  have hnone : madeBy ⟨0⟩ 0 {} (recountedTurns.take 11) = 0 := rfl
  have hone : madeBy ⟨0⟩ 0 {} recountedTurns = 1 := rfl
  obtain ⟨hcount, -⟩ := @references_counted_exactly recountedTurns ⟨0⟩ _ rfl
  exact ⟨_, rfl, hnone, hone, (hcount rfl 0).trans hone⟩

end Session

end MediaCommand
