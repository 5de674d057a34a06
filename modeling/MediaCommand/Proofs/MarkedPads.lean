/-
Mapped pads that exist, and marks that are set by hand.

That a pad is mapped is a mark on its chain, and two kinds of calls set marks.  A call of a command that
maps a stream marks the pad of a specifier, which refers to the pad; the pad is one of the chain then, and
filters that would lose it cannot be added.  A caller can also set a mark by hand.  That asks neither how
many pads the chain has nor leaves a reference, so such a mark may stand where there is no pad, and adding
filters may take the pad away from under it.

`MarksFrom` says of a step that it sets no mark but on a pad that it takes.  From this every mark in a
session is traced back to where it was set: a mapped pad is referred to, or it was marked by hand.
-/
import Mathlib.Data.List.Induction
import MediaCommand.Proofs.PadCounts

namespace MediaCommand

namespace Value

/-- A number is the same whatever marks there are. -/
theorem number?_remark (f : Nat → Nat) (v : Value) : (v.remark f).number? = v.number? := by
  match v with
  | .marked _ v =>
      simp only [remark, number?, number?_bare]
      exact number?_remark f v
  | .bytes [] | .bytes [_] | .bytes (_ :: _ :: _) | .null | .bool _ | .int _ | .text _ | .float _
  | .list _ | .tuple _ | .dict _ | .path _ | .arity _ | .object _ => simp only [remark, number?]

end Value

namespace Objects

variable {o o' : Objects} {id : ChainId} {n : Int}

/-! ### Where marks come from -/

/-- How many marks there are on what a whole number names, be it a pad or not. -/
def marksAt (o : Objects) (id : ChainId) (n : Int) : Nat :=
  o.atChain id fun c => c.mapped.countP (·.equal (.int n))

theorem marksAt_pos : 0 < o.marksAt id n ↔ ∃ c, o.chain? id = some c ∧ c.isMapped n = true := by
  have hcount : ∀ c : Chain, 0 < c.mapped.countP (·.equal (.int n)) ↔ c.isMapped n = true := fun c =>
    List.countP_pos_iff.trans List.any_eq_true.symm
  cases hc : o.chain? id with
  | none => simp [marksAt, atChain, hc]
  | some c =>
      rw [marksAt, atChain_of_chain? _ hc, hcount]
      simp

/-- What is marked afterwards was marked before or has been taken. -/
def MarksFrom (id : ChainId) (n : Int) (o : Objects) (es : List Effect) (o' : Objects) : Prop :=
  0 < o'.marksAt id n → 0 < o.marksAt id n ∨ ∃ v, .take id v ∈ es ∧ v.equal (.int n) = true

theorem marksFrom_of_same (h : o'.marksAt id n = o.marksAt id n) : MarksFrom id n o [] o' :=
  fun hpos => Or.inl (h ▸ hpos)

theorem MarksFrom.trans {o₁ : Objects} {es fs : List Effect} (h : MarksFrom id n o es o₁)
    (h' : MarksFrom id n o₁ fs o') : MarksFrom id n o (es ++ fs) o' := by
  intro hpos
  rcases h' hpos with hbefore | ⟨v, hv, hequal⟩
  · rcases h hbefore with hstart | ⟨v, hv, hequal⟩
    · exact Or.inl hstart
    · exact Or.inr ⟨v, List.mem_append_left _ hv, hequal⟩
  · exact Or.inr ⟨v, List.mem_append_right _ hv, hequal⟩

theorem marksAt_setChain {x : ChainId} {c : Chain} (c' : Chain) (hc : o.chain? x = some c)
    (hmapped : c'.mapped = c.mapped) : (o.setChain x c').marksAt id n = o.marksAt id n :=
  atChain_setChain_same c' hc (by rw [hmapped])

/-- A mark is set for the pad that is taken. -/
theorem marksFrom_take {x : ChainId} {c : Chain} {v : Value} (hc : o.chain? x = some c) :
    MarksFrom id n o [.take x v] (o.setChain x (c.addMark v)) := by
  intro hpos
  by_cases hx : id = x
  · subst hx
    by_cases hv : v.equal (.int n) = true
    · exact Or.inr ⟨v, List.mem_singleton_self _, hv⟩
    · refine Or.inl ?_
      have hcount : (c.addMark v).mapped.countP (·.equal (.int n))
          = c.mapped.countP (·.equal (.int n)) := List.countP_cons_of_neg hv
      rw [marksAt, atChain_setChain_self _ _ hc, hcount] at hpos
      rwa [marksAt, atChain_of_chain? _ hc]
  · rw [marksAt, atChain_setChain_ne _ _ hx] at hpos
    exact Or.inl hpos

theorem Step.marksFrom {e : List Effect} (h : Step o e o') : MarksFrom id n o e o' := by
  cases h with
  | quiet h =>
      refine marksFrom_of_same (h.atChain (fun _ => rfl) fun c hc => ?_)
      rw [hc.mapped]
      rfl
  | refer => exact marksFrom_of_same (atChain_modifyChain_same o _ fun _ => rfl)
  | take hc => exact marksFrom_take hc
  | bind => exact marksFrom_of_same (atChain_bindInputs_same _ _ (fun _ _ => rfl) (fun _ _ => rfl) o)
  | append hc | prepend hc => exact marksFrom_of_same (marksAt_setChain _ hc rfl)
  | place position hc => exact marksFrom_of_same (marksAt_setChain _ hc rfl)
  | join hg hc => exact marksFrom_of_same (marksAt_setChain _ hc rfl)
  | gather | label | adopt | list => exact marksFrom_of_same rfl
  | enter => exact fun hpos => Or.inl hpos

theorem Trace.marksFrom {es : List Effect} (h : Trace o es o') : MarksFrom id n o es o' := by
  induction h with
  | refl => exact marksFrom_of_same rfl
  | step _ s ih => exact ih.trans s.marksFrom

/-- Mapping streams takes the pads of specifiers among them. -/
theorem entered_of_take {specifiers : List Specifier} {v : Value}
    (h : .take id v ∈ mapEffects specifiers) :
    ∃ s ∈ specifiers, ∃ pad : Nat, s.source = .pad id pad ∧ v = .int pad := by
  rcases List.mem_append.mp h with htaken | hentered
  · obtain ⟨s, hs, htake⟩ := List.mem_flatMap.mp htaken
    unfold takenBy at htake
    split at htake
    · rename_i x pad hpad
      cases List.mem_singleton.mp htake
      exact ⟨s, hs, pad, Specifier.pad?_eq_some.mp hpad, rfl⟩
    · cases htake
  · obtain ⟨s, -, hs⟩ := List.mem_map.mp hentered
    cases hs

/-- A pad taken directly is marked by hand, or it is the pad of a stream that a call asks the text of. -/
theorem directPad?_cases (hs : Sound o) {a : Action} {v : Value} (h : o.directPad? a = some (id, v)) :
    (a = .markMapped id v ∧ ∃ o', o.markMapped id v = .ok o') ∨
      ∃ pad : Nat, v = .int pad ∧ (o.perform a).objects.Refers (.pad id pad) := by
  unfold directPad? at h
  split at h
  · rename_i chain pad x hok
    cases h
    refine Or.inl ⟨rfl, ?_⟩
    cases hmark : o.markMapped id v with
    | error e =>
        simp only [perform, changed, hmark] at hok
        cases hok
    | ok o' => exact ⟨o', rfl⟩
  · rename_i command source index x hok
    refine Or.inr ?_
    rcases mappingValue_cases hs command source index with
      ⟨f, hf, -⟩ | ⟨c, r, text, -, hc, hresolve, -⟩
    · simp only [perform, Outcome.map, hf] at hok
      cases hok
    · obtain ⟨-, -, refers⟩ := (resolveSource_ok hresolve).spec hs
      simp only [meantPad?, command_ok.mpr hc, bind, Except.bind, hresolve,
        Option.map_eq_some_iff] at h
      obtain ⟨⟨x, pad⟩, hpad, heq⟩ := h
      cases heq
      refine ⟨pad, rfl, ?_⟩
      rw [Specifier.pad?_eq_some.mp hpad] at refers
      exact refers
  · cases h

/-! ### Copies -/

/-- The chain that a chain is a copy of once a value has been copied. -/
def copiedFrom? (o : Objects) (v : Value) (x : ChainId) : Option ChainId :=
  let w := o.walk v
  if w.stuck || x.index < o.chains.length then none
  else (membersOf (w.met.reverse.filter o.has) w.hollow).chains[x.index - o.chains.length]?

/-- A mark names the same pad when it is copied. -/
theorem isMapped_copyChain (o : Objects) (m : Members) (c : Chain) (n : Int) :
    (o.copyChain m c).isMapped n = c.isMapped n := by
  have hnumber : ∀ v : Value, (o.copyValue m v).number? = v.number? := fun v => by
    rw [copyValue, Value.number?_remark, Value.number?_bindObjects fun _ => rfl]
  have hequal : ∀ v : Value, (o.copyValue m v).equal (.int n) = v.equal (.int n) := fun v => by
    rw [Bool.eq_iff_iff, Value.equal_int_iff, Value.equal_int_iff, hnumber]
  simp only [Chain.isMapped, copyChain, List.any_map, Function.comp_def, hequal]

/-- After a value is copied a chain is one that was there, or it is mapped and referred to as the one
that it is a copy of. -/
theorem chain?_copy {v : Value} {x : ChainId} {c' : Chain}
    (h : (o.perform (.copy v)).objects.chain? x = some c') :
    o.chain? x = some c' ∨ ∃ id c, o.copiedFrom? v x = some id ∧ o.chain? id = some c ∧
      c'.references = c.references ∧ ∀ n, c'.isMapped n = c.isMapped n := by
  simp only [perform, copy] at h
  split at h
  · exact Or.inl h
  · rename_i hstuck
    by_cases hold : x.index < o.chains.length
    · have hget : (o.chains ++ _)[x.index]? = some c' := h
      rw [List.getElem?_append_left hold] at hget
      exact Or.inl hget
    · have hget : (o.chains ++ _)[x.index]? = some c' := h
      rw [List.getElem?_append_right (Nat.not_lt.mp hold), List.getElem?_map,
        getElem?_filterMap (membersOf_in o _ _).chains, Option.map_eq_some_iff] at hget
      obtain ⟨c, hc, rfl⟩ := hget
      obtain ⟨id, hid, hc⟩ := Option.bind_eq_some_iff.mp hc
      refine Or.inr ⟨id, c, ?_, hc, rfl, isMapped_copyChain o _ c⟩
      simpa only [copiedFrom?, hstuck, hold, Bool.false_or, decide_false, Bool.false_eq_true,
        if_false] using hid

/-! ### Whole sessions -/

/-- In a session, the caller has marked what a whole number names of a chain, or of the chain that it was
copied from. -/
inductive MarkedByHand : List Call → ChainId → Int → Prop
  | marks {calls : List Call} {id : ChainId} {v : Value} {n : Int} {o' : Objects}
      (marked : (afterCalls {} calls).markMapped id v = .ok o') (hv : v.equal (.int n) = true) :
      MarkedByHand (calls ++ [.act (.markMapped id v)]) id n
  | stays {calls : List Call} {id : ChainId} {n : Int} (call : Call) (h : MarkedByHand calls id n) :
      MarkedByHand (calls ++ [call]) id n
  | copied {calls : List Call} {id x : ChainId} {n : Int} (v : Value) (h : MarkedByHand calls id n)
      (hx : (afterCalls {} calls).copiedFrom? v x = some id) :
      MarkedByHand (calls ++ [.act (.copy v)]) x n

/-- **Every mark is on a pad that is referred to, or was set by hand.** -/
theorem referred_or_marked (calls : List Call) : ∀ {id : ChainId} {c : Chain} {n : Int},
    (afterCalls {} calls).chain? id = some c → c.isMapped n = true →
      (∃ pad ∈ c.references, n = pad) ∨ MarkedByHand calls id n := by
  induction calls using List.reverseRecOn with
  | nil => exact fun hc => nomatch hc
  | append_singleton calls call ih =>
      intro id c' n hc' hmapped
      have hs := (sound_empty.afterCalls calls).1
      rw [afterCalls_append] at hc'
      -- A chain that was there before keeps its references, and what was marked by hand stays so.
      have hkept : ∀ {c : Chain}, (afterCalls {} calls).chain? id = some c → c.isMapped n = true →
          (∃ pad ∈ c'.references, n = pad) ∨ MarkedByHand (calls ++ [call]) id n := by
        intro c hc hbefore
        rcases ih hc hbefore with ⟨pad, hpad, hn⟩ | hhand
        · obtain ⟨c'', hc'', hk⟩ := (hs.afterCall call).2.chain id c hc
          obtain rfl : c'' = c' := Option.some.inj (hc''.symm.trans hc')
          exact Or.inl ⟨pad, hk.references pad hpad, hn⟩
        · exact Or.inr (.stays call hhand)
      have hreferred : ∀ {pad : Nat}, ((afterCalls {} calls).afterCall call).Refers (.pad id pad) →
          (Value.int pad).equal (.int n) = true →
          (∃ pad ∈ c'.references, n = pad) ∨ MarkedByHand (calls ++ [call]) id n := by
        rintro pad ⟨c'', hc'', hpad⟩ hn
        obtain rfl : c'' = c' := Option.some.inj (hc''.symm.trans hc')
        rw [Value.equal_int, beq_iff_eq] at hn
        exact Or.inl ⟨pad, hpad, hn.symm⟩
      cases hcopies : call.copies with
      | true =>
          obtain ⟨v, rfl⟩ := Call.eq_copy hcopies
          rcases chain?_copy hc' with hold | ⟨x, c, hx, hc, hreferences, hsame⟩
          · exact hkept hold hmapped
          · rcases ih hc (hsame n ▸ hmapped) with ⟨pad, hpad, hn⟩ | hhand
            · exact Or.inl ⟨pad, hreferences ▸ hpad, hn⟩
            · exact Or.inr (.copied v hhand hx)
      | false =>
          obtain ⟨specifiers, trace⟩ := afterCall_trace hs hcopies
          rcases trace.marksFrom (marksAt_pos.mpr ⟨c', hc', hmapped⟩) with hbefore | ⟨v, hv, hequal⟩
          · obtain ⟨c, hc, hbefore⟩ := marksAt_pos.mp hbefore
            exact hkept hc hbefore
          · rcases List.mem_append.mp hv with hdirect | hmaps
            · cases call with
              | act a =>
                  obtain ⟨p, hp, heq⟩ := List.mem_map.mp hdirect
                  cases heq
                  rcases directPad?_cases hs (Option.mem_toList.mp hp) with
                    ⟨rfl, o', hmark⟩ | ⟨pad, hpad, refers⟩
                  · exact Or.inr (.marks hmark hequal)
                  · exact hreferred refers (hpad ▸ hequal)
              | keep | extendList => cases hdirect
            · obtain ⟨s, hin, pad, hsource, rfl⟩ := entered_of_take hmaps
              have refers := trace.refers_entered (s := s)
                (List.mem_append_right _ (List.mem_append_right _ (List.mem_map_of_mem hin)))
              rw [hsource] at refers
              exact hreferred refers hequal

/-! ### What the calls ask -/

theorem lostPad?_eq_none {references : List Nat} {arity : Arity} :
    lostPad? references arity = none ↔ ∀ pad ∈ references, arity.hasPad pad = true := by
  refine ⟨hasPad_of_lostPad?, fun h => List.max?_eq_none_iff.mpr (List.filter_eq_nil_iff.mpr ?_)⟩
  intro pad hpad
  simp [h pad hpad]

section Append

variable {c : Chain} {nodes : List Value} {fs : List Filter} {f : Filter}
  (hc : o.chain? id = some c) (hfs : o.filtersOf nodes = .ok fs) (hlast : fs.getLast? = some f)

include hc hfs hlast

/-- Filters are added at the end unless a pad that is referred to would be lost. -/
theorem appendNodes_eq : o.appendNodes id nodes = match lostPad? c.references f.outputArity with
    | some pad => .error (.appendLosesPad f.name f.outputArity pad)
    | none => .ok (o.setChain id (c.append fs)) := by
  simp only [appendNodes, chain_ok.mpr hc, hfs, hlast, bind, Except.bind]
  rfl

theorem appendNodes_ok_iff : (∃ o', o.appendNodes id nodes = .ok o') ↔
    ∀ pad, c.consumers pad ≠ 0 → f.outputArity.hasPad pad = true := by
  have hconsumers : ∀ pad, c.consumers pad ≠ 0 ↔ pad ∈ c.references := fun pad =>
    Nat.pos_iff_ne_zero.symm.trans List.count_pos_iff
  simp only [hconsumers]
  rw [← lostPad?_eq_none, appendNodes_eq hc hfs hlast]
  cases lostPad? c.references f.outputArity <;> simp

theorem appendNodes_refused {pad : Nat} (hpad : pad ∈ c.references)
    (hlacks : f.outputArity.hasPad pad = false) :
    ∃ lost, o.appendNodes id nodes = .error (.appendLosesPad f.name f.outputArity lost) := by
  rw [appendNodes_eq hc hfs hlast]
  cases hlost : lostPad? c.references f.outputArity with
  | none =>
      have hhas := lostPad?_eq_none.mp hlost pad hpad
      rw [hlacks] at hhas
      cases hhas
  | some lost => exact ⟨lost, rfl⟩

end Append

theorem markMapped_int_ok_iff {c : Chain} (hc : o.chain? id = some c) :
    (∃ o', o.markMapped id (.int n) = .ok o') ↔ c.isConsumed n = false := by
  rw [markMapped_int hc]
  cases c.isConsumed n <;> simp

/-- **Every mapped pad exists unless it was marked by hand.**  Whatever was called before, a pad that is
mapped and that the caller has not marked by hand is one of the chain, and filters that lack it cannot be
added at the end.  A mark by hand asks only that the pad is not taken, and filters can be added as soon as
they have every pad that is referred to. -/
theorem mapped_pad_exists (calls : List Call) {id : ChainId} {c : Chain}
    (hc : (afterCalls {} calls).chain? id = some c) :
    (∀ n, c.isMapped n = true → ¬MarkedByHand calls id n → c.outputArity.hasPad n = true ∧
      ∀ nodes fs f, (afterCalls {} calls).filtersOf nodes = .ok fs → fs.getLast? = some f →
        f.outputArity.hasPad n = false → ∃ lost, (afterCalls {} calls).appendNodes id nodes
          = .error (.appendLosesPad f.name f.outputArity lost)) ∧
    (∀ n, (∃ o', (afterCalls {} calls).markMapped id (.int n) = .ok o') ↔ c.isConsumed n = false) ∧
    ∀ nodes fs f, (afterCalls {} calls).filtersOf nodes = .ok fs → fs.getLast? = some f →
      ((∃ o', (afterCalls {} calls).appendNodes id nodes = .ok o') ↔
        ∀ pad, c.consumers pad ≠ 0 → f.outputArity.hasPad pad = true) := by
  refine ⟨fun n hmapped hhand => ?_, fun n => markMapped_int_ok_iff hc,
    fun nodes fs f hfs hlast => appendNodes_ok_iff hc hfs hlast⟩
  rcases referred_or_marked calls hc hmapped with ⟨pad, hpad, rfl⟩ | hmarked
  · exact ⟨((sound_empty.afterCalls calls).1.chain hc).range pad hpad,
      fun nodes fs f hfs hlast => appendNodes_refused hc hfs hlast hpad⟩
  · exact absurd hmarked hhand

/-- A session in which the second pad of a chain is marked by hand, and a filter with one pad is added
behind. -/
def outlivedSession : List Call :=
  [.act (.newFilter (.text "split") .null (.int 1) (.int 2)),
    .act (.newChain (.object (.filter ⟨0⟩))),
    .act (.markMapped ⟨0⟩ (.int 1)),
    .act (.newFilter (.text "null") .null (.int 1) (.int 1)),
    .act (.appendNodes ⟨0⟩ [.object (.filter ⟨1⟩)])]

/-- The mark outlives its pad, and a mark can be set where there never was a pad. -/
theorem hand_mark_outlives_pad :
    ∃ c, (afterCalls {} outlivedSession).chain? ⟨0⟩ = some c ∧ c.isMapped 1 = true ∧
      c.outputArity.hasPad 1 = false ∧ MarkedByHand outlivedSession ⟨0⟩ 1 ∧
      c.outputArity.hasPad 5 = false ∧
      ∃ o', (afterCalls {} outlivedSession).markMapped ⟨0⟩ (.int 5) = .ok o' := by
  obtain ⟨hexists, hmarks, -⟩ := @mapped_pad_exists outlivedSession ⟨0⟩ _ rfl
  refine ⟨_, rfl, by decide, by decide, ?_, by decide, (hmarks 5).mpr (by decide)⟩
  by_contra hhand
  exact absurd (hexists 1 (by decide) hhand).1 (by decide)

end Objects

end MediaCommand
