/-
Whole sessions.

Objects change only by the calls that make, connect or change them, when a value enters the session,
and when a list among the options grows.  A session is any sequence of these, in any order and
whatever becomes of each, so what all of them keep holds in every session.

The effects of a session are those of its calls.  They are known for all calls but copies, which is
why sessions without copies are told apart.
-/
import MediaCommand.Proofs.Actions
import MediaCommand.Proofs.Copies

namespace MediaCommand

/-- What can happen to the objects of a session. -/
inductive Call
  | act (a : Action)
  /-- A value enters the session. -/
  | keep (v : Value)
  /-- A list that may stand among options grows. -/
  | extendList (list items : Value)

/-- Whether a call makes copies. -/
def Call.copies : Call → Bool
  | .act (.copy _) => true
  | _ => false

theorem Call.eq_copy {call : Call} (h : call.copies = true) : ∃ v, call = .act (.copy v) := by
  unfold copies at h
  split at h
  · exact ⟨_, rfl⟩
  · cases h

namespace Objects

variable {o o' : Objects}

/-- The objects after a call, whatever becomes of it. -/
def afterCall (o : Objects) : Call → Objects
  | .act a => (o.perform a).objects
  | .keep v => (o.keep v).1
  | .extendList list items =>
    match o.extendList list items with
    | .ok (o, _) => o
    | .error _ => o

/-- The objects after calls, one after the other. -/
def afterCalls (o : Objects) (calls : List Call) : Objects := calls.foldl afterCall o

/-- The objects of a session that began without any. -/
def Reachable (o : Objects) : Prop := ∃ calls, o = afterCalls {} calls

theorem afterCalls_append (o : Objects) (calls more : List Call) :
    o.afterCalls (calls ++ more) = (o.afterCalls calls).afterCalls more :=
  List.foldl_append

/-- A list that grows changes options only. -/
theorem extendList_quiet {list items v : Value} (h : o.extendList list items = .ok (o', v)) :
    Quiet o o' := by
  unfold extendList at h
  split at h
  · obtain ⟨more, -, h⟩ := bind_ok.mp h
    cases h
    exact quiet_renew o _
  · cases h

theorem afterCall_extendList_quiet (o : Objects) (list items : Value) :
    Quiet o (o.afterCall (.extendList list items)) := by
  unfold afterCall
  dsimp only
  split
  · exact extendList_quiet ‹_›
  · exact .refl o

/-! ### What every session keeps -/

theorem perform_copy (o : Objects) (v : Value) :
    (o.perform (.copy v)).objects = o ∨
      ∃ m : Members, m.In o ∧ (o.perform (.copy v)).objects = o.withCopies m := by
  simp only [perform]
  cases h : o.copy v with
  | error e => exact Or.inl rfl
  | ok x => exact Or.inr (copy_ok h)

/-- A call leaves the objects sound and takes nothing away. -/
theorem Sound.afterCall (hs : Sound o) (call : Call) :
    Sound (o.afterCall call) ∧ Keeps o (o.afterCall call) := by
  cases call with
  | act a =>
      by_cases hcopy : ∃ v, a = .copy v
      · obtain ⟨v, rfl⟩ := hcopy
        show Sound (o.perform (.copy v)).objects ∧ Keeps o (o.perform (.copy v)).objects
        rcases perform_copy o v with heq | ⟨m, hm, heq⟩
        · rw [heq]
          exact ⟨hs, .refl o⟩
        · rw [heq]
          exact ⟨hs.withCopies hm, keeps_withCopies o m⟩
      · obtain ⟨specifiers, trace⟩ := perform_trace hs fun v h => hcopy ⟨v, h⟩
        exact ⟨trace.sound hs, trace.keeps⟩
  | keep v => exact ⟨hs.quiet (quiet_keep o v), (quiet_keep o v).keeps⟩
  | extendList list items =>
      have quiet := afterCall_extendList_quiet o list items
      exact ⟨hs.quiet quiet, quiet.keeps⟩

theorem Sound.afterCalls (calls : List Call) :
    ∀ {o : Objects}, Sound o → Sound (o.afterCalls calls) ∧ Keeps o (o.afterCalls calls) := by
  induction calls with
  | nil => exact fun {o} hs => ⟨hs, .refl o⟩
  | cons call rest ih =>
      intro o hs
      obtain ⟨hs', k⟩ := hs.afterCall call
      obtain ⟨hs'', k'⟩ := ih hs'
      exact ⟨hs'', k.trans k'⟩

/-- The objects of every session are sound. -/
theorem Reachable.sound (h : Reachable o) : Sound o := by
  obtain ⟨calls, rfl⟩ := h
  exact (sound_empty.afterCalls calls).1

/-! ### The effects of a session -/

/-- The effects of a call that takes a pad directly. -/
def callEffects (o : Objects) : Call → List Effect
  | .act a => o.directEffects a
  | _ => []

/-- Every call but a copy is a sequence of steps. -/
theorem afterCall_trace (hs : Sound o) {call : Call} (h : call.copies = false) :
    ∃ specifiers, Trace o (o.callEffects call ++ mapEffects specifiers) (o.afterCall call) := by
  cases call with
  | act a =>
      refine perform_trace hs fun v hv => ?_
      rw [hv] at h
      cases h
  | keep v => exact ⟨[], .quiet (quiet_keep o v)⟩
  | extendList list items => exact ⟨[], .quiet (afterCall_extendList_quiet o list items)⟩

/-! ### What steps and copies keep -/

/-- What every step keeps, a sequence of steps keeps. -/
theorem Trace.invariant {I : Objects → Prop} {es : List Effect} (trace : Trace o es o')
    (step : ∀ {o o' : Objects} {e : List Effect}, Step o e o' → Sound o → I o → I o')
    (hs : Sound o) (h : I o) : I o' := by
  induction trace with
  | refl => exact h
  | step t s ih => exact step s (t.sound hs) ih

/-- What every step keeps, and copies as well if any are made, a session keeps. -/
theorem invariant_afterCalls {I : Objects → Prop} {calls : List Call}
    (step : ∀ {o o' : Objects} {e : List Effect}, Step o e o' → Sound o → I o → I o')
    (copies : ∀ call ∈ calls, call.copies = true →
      ∀ {o : Objects} {m : Members}, m.In o → I o → I (o.withCopies m)) :
    ∀ {o : Objects}, Sound o → I o → I (o.afterCalls calls) := by
  induction calls with
  | nil => exact fun _ h => h
  | cons call rest ih =>
      intro o hs h
      refine ih (fun x hx => copies x (List.mem_cons_of_mem call hx)) (hs.afterCall call).1 ?_
      cases hcall : call.copies with
      | false =>
          obtain ⟨specifiers, trace⟩ := afterCall_trace hs hcall
          exact trace.invariant step hs h
      | true =>
          obtain ⟨v, rfl⟩ := Call.eq_copy hcall
          show I (o.perform (.copy v)).objects
          rcases perform_copy o v with heq | ⟨m, hm, heq⟩
          · rwa [heq]
          · rw [heq]
            exact copies _ List.mem_cons_self hcall hm h

/-- A session without copies keeps what every step keeps. -/
theorem invariant_of_steps {I : Objects → Prop} {calls : List Call}
    (step : ∀ {o o' : Objects} {e : List Effect}, Step o e o' → Sound o → I o → I o')
    (hcopies : ∀ call ∈ calls, call.copies = false) {o : Objects} (hs : Sound o) (h : I o) :
    I (o.afterCalls calls) := by
  refine invariant_afterCalls step (fun call hcall hcopy => ?_) hs h
  rw [hcopies call hcall] at hcopy
  cases hcopy

/-- A session in which a pad is marked by hand, one feeds a chain, and one is mapped; a second mapping
of the first is refused. -/
def splitSession : List Call :=
  [.act (.newFilter (.text "split") .null (.int 1) (.int 2)),
    .act (.newChain (.object (.filter ⟨0⟩))),
    .act (.markMapped ⟨0⟩ (.int 0)),
    .act (.outputPad ⟨0⟩ (.int 1)),
    .act (.newFilter (.text "null") .null (.int 1) (.int 1)),
    .act (.newChain (.object (.filter ⟨1⟩))),
    .act (.addInputs ⟨1⟩ (.list [.object (.specifier ⟨0⟩)])),
    .act (.newGraph (.list [.object (.chain ⟨0⟩), .object (.chain ⟨1⟩)])),
    .act (.newCommand .null none),
    .act (.addGraph ⟨0⟩ (.object (.graph ⟨0⟩)) .null),
    .act (.newOutput (.text "out.mp4") .null),
    .act (.addOutput ⟨0⟩ (.object (.output ⟨0⟩)) (.object (.chain ⟨1⟩))),
    .act (.map ⟨0⟩ (.object (.output ⟨0⟩)) (.object (.chain ⟨0⟩)) (.int 0))]

end Objects

end MediaCommand
