/-
Resolving mapping sources, and taking it back.

`Resolves` lists the four ways in which a source is resolved: a specifier of an input, a specifier
of a pad, an input, and a chain.  Releasing the resolved source afterwards gives exactly the objects
from before, because a mark, a reference and a specifier are each taken from the place where they
were put.  A list of sources is released in reverse order, so a batch that is refused at any of its
entries changes nothing.
-/
import MediaCommand.Proofs.Step

namespace MediaCommand

namespace Arity

/-- An index that names a pad is not negative. -/
theorem nonneg_of_hasPad {a : Arity} {index : Int} (h : a.hasPad index = true) : 0 ≤ index := by
  cases a with
  | fixed count =>
      simp only [hasPad, Bool.and_eq_true, decide_eq_true_eq] at h
      exact h.1
  | unbounded => simpa [hasPad] using h

end Arity

namespace Chain

theorem padAt_hasPad {c : Chain} {index : Int} {pad : Nat} (h : c.padAt index = .ok pad) :
    c.outputArity.hasPad pad = true := by
  simp only [padAt] at h
  split at h
  · rename_i hpad
    cases h
    rwa [Int.toNat_of_nonneg (Arity.nonneg_of_hasPad hpad)]
  · cases h

theorem defaultPad_hasPad {c : Chain} {id : ChainId} {pad : Nat}
    (h : c.defaultPad id = .ok pad) : c.outputArity.hasPad pad = true := by
  simp only [defaultPad] at h
  split at h
  · rename_i hpad
    cases h
    exact hpad
  · split at h <;> cases h

/-- A pad that a selector gives is a pad of the chain. -/
theorem resolvePad_hasPad {c : Chain} {id : ChainId} {selector : Value} {pad : Nat}
    (h : c.resolvePad id selector = .ok pad) : c.outputArity.hasPad pad = true := by
  unfold resolvePad at h
  split at h
  · exact defaultPad_hasPad h
  · exact padAt_hasPad h
  · simp only at h
    split at h
    · split at h
      · exact padAt_hasPad h
      · cases h
    · cases h
  · cases h

/-! ### Taking back what was recorded last -/

theorem removeMapped_addMark (c : Chain) (pad : Nat) :
    (c.addMark (.int pad)).removeMapped pad = c := by
  simp [removeMapped, addMark]

theorem removeReference_addReference (c : Chain) (pad : Nat) :
    (c.addReference pad).removeReference pad = c := by
  simp [removeReference, addReference]

end Chain

namespace Objects

variable {o o' : Objects} {c : Command}

theorem checkInput_ok {id : InputId} : o.checkInput c id = .ok () ↔ id ∈ c.inputs := by
  unfold checkInput
  split
  · rename_i hin
    exact ⟨fun _ => by simpa using hin, fun _ => rfl⟩
  · rename_i hout
    refine ⟨fun h => ?_, fun hin => absurd (by simpa using hin) hout⟩
    obtain ⟨i, -, hi⟩ := bind_ok.mp h
    cases hi

theorem checkChain_ok {graphs : List GraphId} {id : ChainId} :
    o.checkChain graphs id = .ok () ↔ o.chainInGraphs graphs id = true := by
  unfold checkChain
  split
  · rename_i hin
    exact ⟨fun _ => hin, fun _ => rfl⟩
  · rename_i hout
    exact ⟨(nomatch ·), fun hin => absurd hin hout⟩

/-- A pad is marked when nothing takes it, and only its mark is added. -/
theorem markMapped_ok {id : ChainId} {v : Value} (h : o.markMapped id v = .ok o') :
    ∃ ch, o.chain? id = some ch ∧ o.isMarked ch v = false ∧ isFed ch v = false ∧
      o' = o.setChain id (ch.addMark v) := by
  obtain ⟨ch, hch, h⟩ := bind_ok.mp h
  split at h
  · cases h
  · split at h
    · cases h
    · rename_i hfree
      cases h
      simp only [Bool.or_eq_true, not_or, Bool.not_eq_true] at hfree
      exact ⟨ch, chain_ok.mp hch, hfree.1, hfree.2, rfl⟩

/-- A pad is marked by its index unless it is taken. -/
theorem markMapped_int {id : ChainId} {c : Chain} (hc : o.chain? id = some c) (index : Int) :
    o.markMapped id (.int index) = if c.isConsumed index then .error (.padTaken id (.int index))
      else .ok (o.setChain id (c.addMark (.int index))) := by
  have hmarked : o.isMarked c (.int index) = c.isMapped index := by
    cases hmapped : c.isMapped index with
    | false => exact isMarked_int hmapped
    | true =>
        by_contra hnot
        have hfalse := isMapped_of_isMarked (Bool.not_eq_true _ ▸ hnot) (n := index) (by simp)
        rw [hmapped] at hfalse
        cases hfalse
  have hfed : isFed c (.int index) = c.isBound index := by
    simp only [isFed, Chain.isBound, Value.equal_int, Bool.beq_comm]
  simp only [markMapped, chain_ok.mpr hc, hmarked, hfed, Chain.isConsumed, Value.isHashable, bind,
    Except.bind, Bool.not_true, Bool.false_eq_true, if_false]
  rfl

theorem specifier?_mem {id : SpecifierId} {s : Specifier} (h : o.specifier? id = some s) :
    s ∈ o.specifiers :=
  List.mem_of_getElem? h

/-! ### The four ways -/

/-- How a mapping source is resolved: the objects afterwards and what it was resolved to. -/
inductive Resolves (o : Objects) (c : Command) : Objects → Resolved → Prop
  | givenStream {s : Specifier} {id : InputId} {track : Option Track} (made : s ∈ o.specifiers)
      (on : s.source = .input id track) (member : id ∈ c.inputs) : Resolves o c o ⟨s, false⟩
  | givenPad {s : Specifier} {id : ChainId} {pad : Nat} {ch : Chain} (made : s ∈ o.specifiers)
      (on : s.source = .pad id pad) (member : o.chainInGraphs c.graphs id = true)
      (hch : o.chain? id = some ch) (hmark : o.isMarked ch (.int pad) = false)
      (hfed : isFed ch (.int pad) = false) :
      Resolves o c (o.setChain id (ch.addMark (.int pad))) ⟨s, false⟩
  | input {id : InputId} (track : Option Track) (member : id ∈ c.inputs)
      (there : (o.input? id).isSome) :
      Resolves o c (o.addSpecifier (.input id track)).1 ⟨(o.addSpecifier (.input id track)).2, true⟩
  | chain {id : ChainId} {pad : Nat} {ch : Chain} (member : o.chainInGraphs c.graphs id = true)
      (hch : o.chain? id = some ch) (hpad : ch.outputArity.hasPad pad = true)
      (hmark : o.isMarked ch (.int pad) = false) (hfed : isFed ch (.int pad) = false) :
      Resolves o c ((o.setChain id (ch.addMark (.int pad))).referTo id pad).1
        ⟨((o.setChain id (ch.addMark (.int pad))).referTo id pad).2, true⟩

theorem resolveSource_ok {source index : Value} {r : Resolved}
    (h : o.resolveSource c source index = .ok (o', r)) : Resolves o c o' r := by
  unfold resolveSource at h
  split at h
  · -- A specifier stands for itself and takes no index.
    split at h
    · obtain ⟨s, hs, h⟩ := bind_ok.mp h
      have made : s ∈ o.specifiers := specifier?_mem (specifier_ok.mp hs)
      split at h
      · rename_i on
        obtain ⟨⟨⟩, hin, h⟩ := bind_ok.mp h
        cases h
        exact .givenStream made on (checkInput_ok.mp hin)
      · rename_i on
        obtain ⟨⟨⟩, hin, h⟩ := bind_ok.mp h
        obtain ⟨o₁, hmark, h⟩ := bind_ok.mp h
        cases h
        obtain ⟨ch, hch, hm, hf, rfl⟩ := markMapped_ok hmark
        exact .givenPad made on (checkChain_ok.mp hin) hch hm hf
    · cases h
  · obtain ⟨⟨⟩, hin, h⟩ := bind_ok.mp h
    obtain ⟨⟨o₁, s⟩, hs, h⟩ := bind_ok.mp h
    cases h
    obtain ⟨i, hi, hs⟩ := bind_ok.mp hs
    obtain ⟨track, -, hs⟩ := bind_ok.mp hs
    cases hs
    exact .input track (checkInput_ok.mp hin) (by rw [input_ok.mp hi]; rfl)
  · obtain ⟨⟨⟩, hin, h⟩ := bind_ok.mp h
    obtain ⟨ch, hch, h⟩ := bind_ok.mp h
    obtain ⟨pad, hpad, h⟩ := bind_ok.mp h
    obtain ⟨o₁, hmark, h⟩ := bind_ok.mp h
    cases h
    obtain ⟨ch', hch', hm, hf, rfl⟩ := markMapped_ok hmark
    obtain rfl : ch = ch' := Option.some.inj ((chain_ok.mp hch).symm.trans hch')
    exact .chain (checkChain_ok.mp hin) hch' (Chain.resolvePad_hasPad hpad) hm hf
  · cases h

/-! ### Releasing -/

theorem dropSpecifier_addSpecifier (o : Objects) (source : Source) :
    (o.addSpecifier source).1.dropSpecifier (o.addSpecifier source).2.id = o := by
  simp [addSpecifier, dropSpecifier]

theorem modifyChain_addSpecifier (o : Objects) (source : Source) (id : ChainId)
    (f : Chain → Chain) :
    (o.addSpecifier source).1.modifyChain id f = ((o.modifyChain id f).addSpecifier source).1 := by
  have hsame : (o.addSpecifier source).1.chain? id = o.chain? id := rfl
  unfold modifyChain
  rw [hsame]
  cases o.chain? id <;> rfl

theorem referTo_eq {id : ChainId} {ch : Chain} (pad : Nat) (hch : o.chain? id = some ch) :
    o.referTo id pad = (o.setChain id (ch.addReference pad)).addSpecifier (.pad id pad) := by
  simp only [referTo, modifyChain_eq _ hch]

/-- **A resolved source can be taken back.** -/
theorem release_resolves {r : Resolved} (h : Resolves o c o' r) : o'.release r = o := by
  cases h with
  | givenStream made on member =>
      simp only [release, releasePad, Specifier.pad?, on]
      rfl
  | givenPad made on member hch hmark hfed =>
      rename_i s id pad ch
      have hmarked := chain?_setChain_self (ch.addMark (.int pad)) hch
      simp only [release, releasePad, Specifier.pad?, on, Bool.false_eq_true, if_false]
      rw [modifyChain_eq _ hmarked, setChain_setChain, Chain.removeMapped_addMark,
        setChain_self hch]
  | input track member there =>
      simp only [release, releasePad, forget, addSpecifier, Specifier.pad?, if_true]
      exact dropSpecifier_addSpecifier o _
  | chain member hch hpad hmark hfed =>
      rename_i id pad ch
      have hmarked := chain?_setChain_self (ch.addMark (.int pad)) hch
      have hreferred := chain?_setChain_self ((ch.addMark (.int pad)).addReference pad) hch
      have hreleased := chain?_setChain_self (ch.addReference pad) hch
      have hmapped : ((ch.addMark (.int pad)).addReference pad).removeMapped pad
          = ch.addReference pad := Chain.removeMapped_addMark (ch.addReference pad) pad
      rw [referTo_eq pad hmarked, setChain_setChain]
      show ((((o.setChain id ((ch.addMark (.int pad)).addReference pad)).addSpecifier
        (.pad id pad)).1.modifyChain id (·.removeMapped pad)).modifyChain id
          (·.removeReference pad)).dropSpecifier _ = o
      rw [modifyChain_addSpecifier, modifyChain_addSpecifier, modifyChain_eq _ hreferred,
        setChain_setChain, hmapped, modifyChain_eq _ hreleased, setChain_setChain,
        Chain.removeReference_addReference, setChain_self hch]
      exact dropSpecifier_addSpecifier o _

end Objects

end MediaCommand
