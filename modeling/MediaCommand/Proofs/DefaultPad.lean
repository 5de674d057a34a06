/-
The pad that is chosen when none is named.

The search for it begins at the first pad and goes on as long as the pad at hand is referred to or
mapped.  Both records are finite and a mark names one pad at most, so among one pad more than there are
entries in both records one is free (`exists_free`).  The search therefore ends, and it ends at the least
free pad.

A pad that nothing refers to feeds no chain, so the pad chosen can be put to either use: it can be
mapped, and a specifier for it can be bound.  A pad that a specifier was handed out for stays referred
to, so it is never chosen again.

A chain without a free pad is refused as one whose pads are all taken.  That failure shows the filters of
the chain.  If they have no text it is told as the reason for that, which is never about a pad.
-/
import Mathlib.Data.List.Perm.Subperm
import Mathlib.Order.Bounds.Basic
import MediaCommand.Proofs.PadCounts
import MediaCommand.Proofs.Wordless

namespace MediaCommand

namespace Chain

/-! ### The search -/

/-- The search for a free pad from one pad on ends at another. -/
inductive SearchEnds (c : Chain) : Nat → Nat → Prop
  | found {pad : Nat} (free : c.isFree pad = true) : SearchEnds c pad pad
  | next {pad last : Nat} (taken : c.isFree pad = false) (more : SearchEnds c (pad + 1) last) :
      SearchEnds c pad last

theorem isFree_iff {c : Chain} {pad : Nat} :
    c.isFree pad = true ↔ c.consumers pad = 0 ∧ c.isMapped pad = false := by
  simp only [isFree, Bool.and_eq_true, Bool.not_eq_true', beq_iff_eq]
  exact and_comm

/-- A pad that is not free stands in one of the records. -/
theorem mem_of_not_free {c : Chain} {pad : Nat} (h : ¬c.isFree pad = true) :
    pad ∈ c.references ∨ ∃ mark ∈ c.mapped, mark.equal (.int pad) = true := by
  by_cases hmapped : c.isMapped pad = true
  · exact Or.inr (List.any_eq_true.mp hmapped)
  · have hconsumers : c.consumers pad ≠ 0 := fun hzero =>
      h (isFree_iff.mpr ⟨hzero, Bool.not_eq_true _ ▸ hmapped⟩)
    exact Or.inl (List.count_pos_iff.mp (Nat.pos_of_ne_zero hconsumers))

/-- Among one pad more than there are entries in both records one is free. -/
theorem exists_free (c : Chain) :
    ∃ pad ≤ c.mapped.length + c.references.length, c.isFree pad = true := by
  by_contra hnone
  push Not at hnone
  -- Each mark takes the one pad that it names.
  have hnames : ∀ mark : Value, ∃ pad : Nat, ∀ n : Nat, mark.equal (.int n) = true → n = pad := by
    intro mark
    by_cases h : ∃ n : Nat, mark.equal (.int n) = true
    · obtain ⟨pad, hpad⟩ := h
      exact ⟨pad, fun n hn => Int.ofNat_inj.mp (Value.eq_of_equal_int hn hpad)⟩
    · exact ⟨0, fun n hn => absurd ⟨n, hn⟩ h⟩
  choose named hnamed using hnames
  have hsubset : List.range (c.mapped.length + c.references.length + 1) ⊆
      c.mapped.map named ++ c.references := by
    intro pad hpad
    rcases mem_of_not_free (hnone pad (Nat.lt_succ_iff.mp (List.mem_range.mp hpad))) with
      hreferred | ⟨mark, hmark, hequal⟩
    · exact List.mem_append_right _ hreferred
    · exact List.mem_append_left _ (List.mem_map.mpr ⟨mark, hmark, (hnamed mark pad hequal).symm⟩)
  have hlength := (List.nodup_range.subperm hsubset).length_le
  rw [List.length_range, List.length_append, List.length_map] at hlength
  omega

/-- The first pad found free is free, and none before it is. -/
theorem firstFree_spec (c : Chain) :
    c.isFree c.firstFree = true ∧ ∀ pad < c.firstFree, c.isFree pad = false := by
  obtain ⟨pad, hle, hfree⟩ := c.exists_free
  cases hfind : (List.range (c.mapped.length + c.references.length + 1)).find? c.isFree with
  | none =>
      have hin := List.mem_range.mpr (Nat.lt_succ_of_le hle)
      exact absurd hfree (List.find?_eq_none.mp hfind pad hin)
  | some first =>
      have hfirst : c.firstFree = first := by simp only [firstFree, hfind, Option.getD_some]
      obtain ⟨hfree', -, hbefore⟩ := List.find?_range_eq_some.mp hfind
      rw [hfirst]
      exact ⟨hfree', fun p hp => by simpa using hbefore p hp⟩

/-- The least free pad. -/
theorem isLeast_firstFree (c : Chain) :
    IsLeast {pad : Nat | c.consumers pad = 0 ∧ c.isMapped pad = false} c.firstFree := by
  obtain ⟨hfree, hbefore⟩ := c.firstFree_spec
  refine ⟨isFree_iff.mp hfree, fun pad hpad => Nat.le_of_not_lt fun hlt => ?_⟩
  have htaken := hbefore pad hlt
  rw [isFree_iff.mpr hpad] at htaken
  cases htaken

/-- From any pad up to the least free one the search gets there. -/
theorem searchEnds_firstFree (c : Chain) :
    ∀ (steps start : Nat), start + steps = c.firstFree → c.SearchEnds start c.firstFree := by
  obtain ⟨hfree, hbefore⟩ := c.firstFree_spec
  intro steps
  induction steps with
  | zero =>
      rintro start rfl
      exact .found hfree
  | succ steps ih =>
      intro start hstart
      exact .next (hbefore start (by omega)) (ih (start + 1) (by omega))

/-- The search has one end. -/
theorem SearchEnds.unique {c : Chain} {start last last' : Nat} (h : c.SearchEnds start last)
    (h' : c.SearchEnds start last') : last = last' := by
  induction h with
  | found free =>
      cases h' with
      | found => rfl
      | next taken => rw [free] at taken; cases taken
  | next taken _ ih =>
      cases h' with
      | found free => rw [free] at taken; cases taken
      | next _ more => exact ih more

end Chain

namespace Objects

variable {o o' : Objects}

/-! ### What the pad is good for -/

/-- A pad that can be mapped as well as bound. -/
structure Usable (o : Objects) (id : ChainId) (c : Chain) (pad : Nat) : Prop where
  /-- It feeds no chain. -/
  unlisted : c.isBound pad = false
  unbound : ∀ d ∈ o.chains, ∀ s ∈ d.inputs, s.source ≠ .pad id pad
  mapped : ∃ o', o.markMapped id (.int pad) = .ok o'
  /-- Whichever way a specifier is made for it, any chain that takes one more input takes it. -/
  bound : ∀ selector o' s, o.outputPad id selector = .ok (o', s) → s.source = .pad id pad →
    ∀ x d, o.chain? x = some d → d.inputArity.accepts (d.inputs.length + 1) = true →
      (o'.addInputs x (.list [.object (.specifier s.id)])).result = .ok ()

/-- A specifier handed out is the last one, and it is recorded with its chain. -/
theorem outputPad_eq {id : ChainId} {c : Chain} {selector : Value} {s : Specifier}
    (hc : o.chain? id = some c) (h : o.outputPad id selector = .ok (o', s)) :
    ∃ pad, c.resolvePad id selector = .ok pad ∧
      (o', s) = (o.setChain id (c.addReference pad)).addSpecifier (.pad id pad) := by
  obtain ⟨c', hc', h⟩ := bind_ok.mp h
  obtain rfl : c' = c := Option.some.inj ((chain_ok.mp hc').symm.trans hc)
  obtain ⟨pad, hpad, h⟩ := bind_ok.mp h
  refine ⟨pad, hpad, ?_⟩
  rw [← referTo_eq pad hc]
  exact (Except.ok.inj h).symm

/-- A specifier for a pad that nothing takes can be bound wherever there is room for one more. -/
theorem addInputs_one {x id : ChainId} {c d : Chain} {s : Specifier} {pad : Nat}
    (hs : o.specifier? s.id = some s) (on : s.source = .pad id pad) (hc : o.chain? id = some c)
    (hfree : c.isConsumed pad = false) (hd : o.chain? x = some d)
    (hroom : d.inputArity.accepts (d.inputs.length + 1) = true) :
    (o.addInputs x (.list [.object (.specifier s.id)])).result = .ok () := by
  have hspecifiers : o.specifiersOf [.object (.specifier s.id)] = .ok [s] := by
    simp only [specifiersOf, specifier_ok.mpr hs]
    rfl
  have hpads : o.checkPadsFree [s] [s] = .ok () := by
    have hpad : s.pad? = some (id, pad) := Specifier.pad?_eq_some.mpr on
    simp only [checkPadsFree, hpad, chain_ok.mpr hc]
    refine bind_ok.mpr ⟨c, rfl, if_neg ?_⟩
    simp [hfree, hpad]
  have hvalid : o.validateInputs x (.list [.object (.specifier s.id)]) = .ok [s] := by
    refine bind_ok.mpr ⟨d, chain_ok.mpr hd, bind_ok.mpr ⟨_, rfl, bind_ok.mpr ⟨_, hspecifiers, ?_⟩⟩⟩
    refine bind_ok.mpr ⟨(), hpads, ?_⟩
    have hone : d.inputArity.accepts ((d.inputs.length + [s].length : Nat) : Int) = true := by
      exact_mod_cast hroom
    exact if_pos hone
  simp only [addInputs, hvalid]

/-- A free pad can be put to any use. -/
theorem usable_of_free (hs : Sound o) (hfits : Fitted o) {id : ChainId} {c : Chain} {pad : Nat}
    (hc : o.chain? id = some c) (hconsumers : c.consumers pad = 0)
    (hmapped : c.isMapped pad = false) : o.Usable id c pad := by
  have hunreferred : pad ∉ c.references := List.count_eq_zero.mp hconsumers
  have hunlisted : c.isBound pad = false := by
    simp only [Chain.isBound, List.any_eq_false, beq_iff_eq]
    intro p hp heq
    obtain rfl : p = pad := Int.ofNat_inj.mp heq
    exact hunreferred ((hfits.chain hc).bound p hp)
  refine ⟨hunlisted, fun d hd s hin hsource => ?_, ?_, ?_⟩
  · obtain ⟨c', hc', hpad⟩ := hsource ▸ (hs.chains d hd).fed s hin
    obtain rfl : c' = c := Option.some.inj (hc'.symm.trans hc)
    exact hunreferred hpad
  · have hfed : isFed c (.int pad) = false := by
      simp only [isFed, Value.equal_int, List.any_eq_false, beq_iff_eq]
      intro p hp heq
      exact hunreferred ((hfits.chain hc).bound pad (Int.ofNat_inj.mp heq ▸ hp))
    refine ⟨o.setChain id (c.addMark (.int pad)), bind_ok.mpr ⟨c, chain_ok.mpr hc, ?_⟩⟩
    simp only [Value.isHashable, isMarked_int hmapped, hfed]
    rfl
  · intro selector o' s hmade on x d hd hroom
    obtain ⟨p, -, heq⟩ := outputPad_eq hc hmade
    obtain ⟨rfl, rfl⟩ := Prod.mk.inj heq
    obtain rfl : p = pad := by injection on
    have hspecifier := specifier?_addSpecifier (o.setChain id (c.addReference p)) (.pad id p)
    have hself := chain?_setChain_self (c.addReference p) hc
    have hfree : (c.addReference p).isConsumed p = false :=
      Bool.or_eq_false_iff.mpr ⟨hmapped, hunlisted⟩
    -- The chain that is fed may be the one that the pad belongs to.
    by_cases hx : x = id
    · subst hx
      obtain rfl : d = c := Option.some.inj (hd.symm.trans hc)
      exact addInputs_one hspecifier rfl hself hfree hself hroom
    · exact addInputs_one hspecifier rfl hself hfree ((chain?_setChain_ne _ hx).trans hd) hroom

/-- The least free pad of a chain can be put to any use, whatever was called before. -/
theorem Reachable.usable_firstFree (h : Reachable o) {id : ChainId} {c : Chain}
    (hc : o.chain? id = some c) : o.Usable id c c.firstFree := by
  obtain ⟨hconsumers, hmapped⟩ := c.isLeast_firstFree.1
  obtain ⟨calls, rfl⟩ := h
  have hempty : Fitted {} := by simp [Fitted]
  exact usable_of_free (sound_empty.afterCalls calls).1 (hempty.afterCalls calls sound_empty) hc
    hconsumers hmapped

/-! ### Whole sessions -/

/-- A pad that is referred to is not chosen. -/
theorem firstFree_ne_of_refers {id : ChainId} {c : Chain} {pad : Nat} (hc : o.chain? id = some c)
    (h : o.Refers (.pad id pad)) : c.firstFree ≠ pad := by
  obtain ⟨c', hc', hpad⟩ := h
  obtain rfl : c' = c := Option.some.inj (hc'.symm.trans hc)
  rintro rfl
  exact List.count_eq_zero.mp c'.isLeast_firstFree.1.1 hpad

/-- The pad chosen when none is named is the least free one if the chain has it. -/
theorem resolvePad_null (id : ChainId) (c : Chain) : c.resolvePad id .null =
    if c.outputArity.hasPad c.firstFree then .ok c.firstFree
    else .error (if c.outputArity = .fixed 0 then .noOutputPad c.last.name
      else .padTaken id .null) := by
  simp only [Chain.resolvePad, Chain.defaultPad, beq_iff_eq]
  split
  · rfl
  · split <;> rfl

/-- A specifier made without naming a pad is for the least free one. -/
theorem source_of_default {id : ChainId} {c : Chain} {s : Specifier} (hc : o.chain? id = some c)
    (h : o.outputPad id .null = .ok (o', s)) : s.source = .pad id c.firstFree := by
  obtain ⟨pad, hpad, heq⟩ := outputPad_eq hc h
  obtain ⟨rfl, rfl⟩ := Prod.mk.inj heq
  rw [resolvePad_null] at hpad
  split at hpad
  · cases hpad
    rfl
  · cases hpad

/-- A pad that a specifier was handed out for is not handed out again when none is named. -/
theorem default_never_again (hs : Sound o) {id : ChainId} {s : Specifier}
    (h : o.outputPad id .null = .ok (o', s)) (later : List Call) {o₂ : Objects} {s₂ : Specifier}
    (h₂ : (o'.afterCalls later).outputPad id .null = .ok (o₂, s₂)) : s₂.source ≠ s.source := by
  obtain ⟨c, hc, -⟩ := bind_ok.mp h
  obtain ⟨pad, hpad, heq⟩ := outputPad_eq (chain_ok.mp hc) h
  obtain ⟨rfl, rfl⟩ := Prod.mk.inj heq
  obtain ⟨c₂, hc₂, -⟩ := bind_ok.mp h₂
  rw [source_of_default (chain_ok.mp hc₂) h₂]
  have hsound := hs.referTo (chain_ok.mp hc) (Chain.resolvePad_hasPad hpad)
  rw [referTo_eq pad (chain_ok.mp hc)] at hsound
  have hrefers : Objects.Refers _ (.pad id pad) :=
    hsound.specifiers _ (List.mem_append_right _ List.mem_cons_self)
  have hlater := (hsound.afterCalls later).2.refers hrefers
  exact fun hsame => firstFree_ne_of_refers (chain_ok.mp hc₂) hlater (by injection hsame)

end Objects

namespace Session

open Objects

variable {s : Session} {id : ChainId} {c : Chain}

/-! ### What a session answers -/

/-- A session gives a pad where none is named. -/
structure GivesDefault (s : Session) (id : ChainId) (c : Chain) (pad : Nat) : Prop where
  usable : s.objects.Usable id c pad
  asked : s.answer (s.objects.resolvePadAt id .null) = ⟨s, [], .ok pad⟩
  /-- A specifier is for that pad, and none that is made later without naming a pad is. -/
  handedOut : ∀ a, AsksForPad id .null a → ∃ made : Specifier, made.source = .pad id pad ∧
    made ∈ (s.act a).session.objects.specifiers ∧
    (s.act a).result = .ok (.object (.specifier made.id)) ∧
    ∀ later o₂ made₂,
      ((s.act a).session.objects.afterCalls later).outputPad id .null = .ok (o₂, made₂) →
      made₂.source ≠ .pad id pad
  mapped : ∃ v, (s.act (.markMapped id (.int pad))).result = .ok v
  /-- However a specifier is made for the pad, any chain that takes one more input takes it; the call can
  fail for its warning alone. -/
  bound : ∀ selector a o' made, AsksForPad id selector a →
    s.objects.outputPad id selector = .ok (o', made) → made.source = .pad id pad →
    ∀ x d, s.objects.chain? x = some d → d.inputArity.accepts (d.inputs.length + 1) = true →
      (∃ v, ((s.act a).session.act
        (.addInputs x (.list [.object (.specifier made.id)]))).result = .ok v) ∨
        (s.act a).session.Unspeakable (.addInputs x (.list [.object (.specifier made.id)]))

/-- A session fails where no pad is named, and stays as it is. -/
structure RefusesDefault (s : Session) (id : ChainId) (e : Explained) : Prop where
  asked : s.answer (s.objects.resolvePadAt id .null) = ⟨s, [], .error e⟩
  handedOut : ∀ a, AsksForPad id .null a → (s.act a).session = s ∧ (s.act a).result = .error e

/-- What is said when all pads of a chain are taken. -/
def allTakenWords (filters : String) : String :=
  "All output pads of filter chain '" ++ filters ++
    "' already consumed by another chain or mapped to an output"

/-- A specifier made in a call is the one that is handed out on the objects. -/
theorem act_madeSpecifier {selector : Value} {a : Action} (ha : AsksForPad id selector a) {o' : Objects}
    {made : Specifier} (h : s.objects.outputPad id selector = .ok (o', made)) :
    (s.act a).session.objects = o' := by
  rw [act_session]
  show (s.objects.perform a).objects = o'
  rw [ha.perform_eq, h]
  rfl

theorem givesDefault (h : s.objects.Reachable) (hc : s.objects.chain? id = some c)
    (hhas : c.outputArity.hasPad c.firstFree = true) : s.GivesDefault id c c.firstFree := by
  have hresolve : c.resolvePad id .null = .ok c.firstFree := by rw [resolvePad_null, if_pos hhas]
  have husable := h.usable_firstFree hc
  refine ⟨husable, ?_, fun a ha => ?_, ?_, fun selector a o' made ha hmade on x d hd hroom => ?_⟩
  · rw [answer_resolvePad hc, hresolve]
    rfl
  · obtain ⟨made, hsource, hin, hresult⟩ := (act_asksForPad ha h.sound hc).2 _ hresolve
    refine ⟨made, hsource, hin, hresult, fun later o₂ made₂ h₂ => ?_⟩
    have hout : s.objects.outputPad id .null = .ok (s.objects.referTo id c.firstFree) :=
      bind_ok.mpr ⟨c, chain_ok.mpr hc, bind_ok.mpr ⟨_, hresolve, rfl⟩⟩
    rw [act_madeSpecifier ha hout] at h₂
    exact default_never_again h.sound hout later h₂
  · obtain ⟨o', hmarked⟩ := husable.mapped
    have hperform : (s.objects.perform (.markMapped id (.int c.firstFree))).result = .ok .null := by
      simp only [perform, hmarked]
      rfl
    exact ⟨_, (act_ok h.sound rfl rfl hperform).1⟩
  · have hbound := husable.bound selector o' made hmade on x d hd hroom
    have hobjects := act_madeSpecifier ha hmade
    have hsound : (s.act a).session.objects.Sound := by
      rw [act_session]
      exact (h.sound.afterCall (.act a)).1
    have hperform : ((s.act a).session.objects.perform
        (.addInputs x (.list [.object (.specifier made.id)]))).result = .ok .null := by
      rw [hobjects]
      simp only [perform, Outcome.map, hbound, Except.map]
    exact ok_or_unspeakable hsound rfl hperform

/-- All pads of a chain are taken: that is told if its filters have a text, and otherwise why they have
none. -/
theorem explain_allTaken (hc : s.objects.chain? id = some c) :
    (∀ text, filtersText s.scene.texts c = .ok text →
      s.explain (.padTaken id .null) = ⟨.padTaken id .null, some (allTakenWords text)⟩) ∧
    ∀ why, filtersText s.scene.texts c = .error why → (s.explain (.padTaken id .null)).cause.Wordless ∧
      ∀ words, s.objects.describe s.scene.texts why = .ok words →
        s.explain (.padTaken id .null) = ⟨why, words⟩ := by
  have hnamed : s.scene.objects.namedFilters s.scene.texts id = filtersText s.scene.texts c :=
    namedFilters_of_chain s.scene.texts hc
  have hundescribed : ∀ {why}, filtersText s.scene.texts c = .error why →
      s.scene.objects.describe s.scene.texts (.padTaken id .null) = .error why := by
    intro why hwhy
    rw [hwhy] at hnamed
    simp only [describe, describeGraphError, hnamed]
    rfl
  refine ⟨fun text htext => ?_, fun why hwhy => ⟨?_, fun words hwords => ?_⟩⟩
  · rw [htext] at hnamed
    exact explain_described (by simp only [describe, describeGraphError, hnamed]; rfl)
  · exact explain_wordless (e := .padTaken id .null) (hundescribed hwhy)
      (filtersText_wordless s.scene.texts_plausible c why hwhy)
  · exact explain_failing (hundescribed hwhy) hwords

theorem refusesDefault (h : s.objects.Reachable) (hc : s.objects.chain? id = some c) {e : Error}
    (he : c.resolvePad id .null = .error e) : s.RefusesDefault id (s.explain e) := by
  refine ⟨?_, fun a ha => (act_asksForPad ha h.sound hc).1 e he⟩
  rw [answer_resolvePad hc, he]
  rfl

/-- **When no pad is named the least free one is chosen.**  Whatever was called before, the search for a
pad ends, at the least one that nothing refers to and that is not mapped.  If the chain has that pad it
is given; it feeds no chain then, and it can be mapped, and a specifier for it bound.  No two specifiers
that are made without naming a pad are for the same pad, whatever is called between.  If the chain does
not have it the call fails and changes nothing: for want of pads if there are none, and otherwise because
all are taken, as far as the filters of the chain have a text.  If they have none it fails for what keeps
them from it. -/
theorem default_pad_least (h : s.objects.Reachable) (hc : s.objects.chain? id = some c) :
    ∃ pad, (∀ last, c.SearchEnds 0 last ↔ last = pad) ∧
      IsLeast {p : Nat | c.consumers p = 0 ∧ c.isMapped p = false} pad ∧
      (c.outputArity.hasPad pad = true → s.GivesDefault id c pad) ∧
      (c.outputArity.hasPad pad = false → c.outputArity = .fixed 0 → s.RefusesDefault id
        ⟨.noOutputPad c.last.name, some (c.last.name ++ " has no output pad")⟩) ∧
      (c.outputArity.hasPad pad = false → c.outputArity ≠ .fixed 0 →
        (∀ text, filtersText s.scene.texts c = .ok text →
          s.RefusesDefault id ⟨.padTaken id .null, some (allTakenWords text)⟩) ∧
        ∀ why, filtersText s.scene.texts c = .error why → ∃ e, s.RefusesDefault id e ∧
          e.cause.Wordless ∧
          ∀ words, s.objects.describe s.scene.texts why = .ok words → e = ⟨why, words⟩) := by
  have hends := c.searchEnds_firstFree c.firstFree 0 (Nat.zero_add _)
  refine ⟨c.firstFree, fun last => ⟨fun h => h.unique hends, fun h => h ▸ hends⟩,
    c.isLeast_firstFree, givesDefault h hc, fun hlacks hnone => ?_, fun hlacks hsome => ?_⟩
  · have hresolve : c.resolvePad id .null = .error (.noOutputPad c.last.name) := by
      rw [resolvePad_null, hlacks, hnone]
      rfl
    have hwords : s.explain (.noOutputPad c.last.name)
        = ⟨.noOutputPad c.last.name, some (c.last.name ++ " has no output pad")⟩ := explain_described rfl
    exact hwords ▸ refusesDefault h hc hresolve
  · have hresolve : c.resolvePad id .null = .error (.padTaken id .null) := by
      rw [resolvePad_null, hlacks, if_neg hsome]
      rfl
    have hrefuses := refusesDefault h hc hresolve
    obtain ⟨htold, huntold⟩ := explain_allTaken hc
    exact ⟨fun text htext => htold text htext ▸ hrefuses,
      fun why hwhy => ⟨_, hrefuses, huntold why hwhy⟩⟩

/-- A session with a chain of one filter that has among its options a stream of an input that no command
has numbered.  Its one pad is referred to. -/
def takenPadSession : Session where
  objects := Objects.afterCalls {}
    [.act (.newInput (.text "in.mp4") .null),
      .act (.inputStream ⟨0⟩ .null),
      .act (.newFilter (.text "null") (.dict [(.text "k", .object (.specifier ⟨0⟩))]) (.int 1) (.int 1)),
      .act (.newChain (.object (.filter ⟨0⟩))),
      .act (.outputPad ⟨0⟩ .null)]

/-- That the pad is taken cannot be told, so asking for one fails for the input.  In the session that marks
the first of two pads by hand the second is given. -/
theorem taken_pad_untold :
    (∃ c, takenPadSession.objects.chain? ⟨0⟩ = some c ∧ c.outputArity = .fixed 1 ∧
      takenPadSession.RefusesDefault ⟨0⟩ ⟨.inputNotFound (some (.text "in.mp4")),
        some "Input file is not a part of the command: in.mp4"⟩) ∧
    ∃ c, (afterCalls {} (splitSession.take 3)).chain? ⟨0⟩ = some c ∧
      GivesDefault { objects := afterCalls {} (splitSession.take 3) } ⟨0⟩ c 1 := by
  constructor
  · obtain ⟨pad, hends, -, -, -, hrefused⟩ := @default_pad_least takenPadSession ⟨0⟩ _ ⟨_, rfl⟩ rfl
    obtain rfl : 1 = pad := (hends 1).mp (.next (by decide) (.found (by decide)))
    obtain ⟨-, huntold⟩ := hrefused rfl (by decide)
    obtain ⟨e, hrefuses, -, hwords⟩ := huntold (.inputNotFound (some (.text "in.mp4"))) rfl
    obtain rfl := hwords _ rfl
    exact ⟨_, rfl, rfl, hrefuses⟩
  · obtain ⟨pad, hends, -, hgiven, -⟩ :=
      @default_pad_least { objects := afterCalls {} (splitSession.take 3) } ⟨0⟩ _ ⟨_, rfl⟩ rfl
    obtain rfl : 1 = pad := (hends 1).mp (.next (by decide) (.found (by decide)))
    exact ⟨_, rfl, hgiven (by decide)⟩

end Session

end MediaCommand
