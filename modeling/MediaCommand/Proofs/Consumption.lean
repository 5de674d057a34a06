/-
An output pad is consumed at most once.

A pad can end up in three places: in an input of a chain that it feeds, among the mappings of a
command, or taken directly by a caller.  The chain itself only keeps marks of the pads that are mapped
and a list of those that feed a chain.  The proof keeps the two in step, as an account is kept: every
effect on the one side is an effect on the other.

  * What is bound to inputs of chains is what the producer lists as feeding a chain.
  * Marks grow by the pads taken, and mappings by the streams entered; a call that maps streams takes
    as many pads as it enters.
  * A pad is marked or listed only when it is neither, so the two together never exceed one.

A refused batch leaves the objects as they were, so it has no part in the account.
-/
import Mathlib.Algebra.GroupWithZero.Nat
import MediaCommand.Proofs.Calls

namespace MediaCommand

/-- Whether a specifier refers to a pad. -/
def Specifier.isOn (id : ChainId) (pad : Nat) (s : Specifier) : Bool := s.pad? == some (id, pad)

/-- How often a pad is bound to an input of a chain. -/
def Chain.slotsOn (id : ChainId) (pad : Nat) (c : Chain) : Nat := c.inputs.countP (·.isOn id pad)

/-- How often a pad is recorded among the mappings of a command. -/
def Command.entriesOn (id : ChainId) (pad : Nat) (c : Command) : Nat :=
  c.mappings.countP (·.source.isOn id pad)

/-- A sum over a list changes by what the exchanged item changes it. -/
theorem sum_map_set {α : Type} (f : α → Nat) {x : α} (y : α) :
    ∀ {l : List α} {i : Nat}, l[i]? = some x →
      ((l.set i y).map f).sum + f x = (l.map f).sum + f y := by
  intro l
  induction l with
  | nil => intro i h; simp at h
  | cons a rest ih =>
      intro i h
      cases i with
      | zero =>
          have hax : a = x := by simpa using h
          subst hax
          simp only [List.set_cons_zero, List.map_cons, List.sum_cons]
          omega
      | succ i =>
          have hrest := ih (i := i) (by simpa using h)
          simp only [List.set_cons_succ, List.map_cons, List.sum_cons]
          omega

namespace Objects

variable {o o' : Objects}

/-! ### The account of a pad -/

/-- What there is at a chain, and nothing if there is no such chain. -/
def atChain (o : Objects) (id : ChainId) (f : Chain → Nat) : Nat := ((o.chain? id).map f).getD 0

/-- How often a pad is bound to inputs of all chains. -/
def slots (o : Objects) (id : ChainId) (pad : Nat) : Nat := (o.chains.map (Chain.slotsOn id pad)).sum

/-- How often a pad is recorded among the mappings of all commands. -/
def entries (o : Objects) (id : ChainId) (pad : Nat) : Nat :=
  (o.commands.map (Command.entriesOn id pad)).sum

/-- How many marks there are on a pad. -/
def marks (o : Objects) (id : ChainId) (pad : Nat) : Nat :=
  o.atChain id fun c => c.mapped.countP (·.equal (.int pad))

/-- How often a pad is listed as feeding a chain. -/
def feeds (o : Objects) (id : ChainId) (pad : Nat) : Nat := o.atChain id (·.bound.count pad)

/-- Whether an effect takes a pad. -/
def Effect.takes (id : ChainId) (pad : Nat) : Effect → Bool
  | .take id' v => id' == id && v.equal (.int pad)
  | .enter _ => false

/-- Whether an effect enters a stream from a pad. -/
def Effect.enters (id : ChainId) (pad : Nat) : Effect → Bool
  | .take _ _ => false
  | .enter s => s.isOn id pad

/-- What a change does to the account of a pad. -/
structure Moves (id : ChainId) (pad : Nat) (o : Objects) (es : List Effect) (o' : Objects) :
    Prop where
  marks : o'.marks id pad = o.marks id pad + es.countP (Effect.takes id pad)
  entries : o'.entries id pad = o.entries id pad + es.countP (Effect.enters id pad)
  slots : o'.slots id pad + o.feeds id pad = o.slots id pad + o'.feeds id pad
  once : o.marks id pad + o.feeds id pad ≤ 1 → o'.marks id pad + o'.feeds id pad ≤ 1

variable {id : ChainId} {pad : Nat}

theorem Moves.refl (o : Objects) : Moves id pad o [] o := ⟨rfl, rfl, rfl, fun h => h⟩

theorem Moves.trans {o₁ : Objects} {es fs : List Effect} (h : Moves id pad o es o₁)
    (h' : Moves id pad o₁ fs o') : Moves id pad o (es ++ fs) o' where
  marks := by rw [h'.marks, h.marks, List.countP_append, Nat.add_assoc]
  entries := by rw [h'.entries, h.entries, List.countP_append, Nat.add_assoc]
  slots := by
    have := h.slots
    have := h'.slots
    omega
  once := fun honce => h'.once (h.once honce)

/-! ### Changes that leave the account alone -/

theorem moves_of_same (hm : o'.marks id pad = o.marks id pad)
    (he : o'.entries id pad = o.entries id pad) (hs : o'.slots id pad = o.slots id pad)
    (hf : o'.feeds id pad = o.feeds id pad) : Moves id pad o [] o' where
  marks := hm
  entries := he
  slots := by rw [hs, hf]
  once := fun h => by rwa [hm, hf]

/-- The account is kept of chains and commands only. -/
theorem moves_of_lists (hc : o'.chains = o.chains) (hm : o'.commands = o.commands) :
    Moves id pad o [] o' := by
  have hat : ∀ f, o'.atChain id f = o.atChain id f := fun f => by
    rw [atChain, chain?, hc]
    rfl
  refine moves_of_same (hat _) ?_ ?_ (hat _)
  · rw [entries, hm]
    rfl
  · rw [slots, hc]
    rfl

theorem atChain_setChain_self {c : Chain} (c' : Chain) (f : Chain → Nat)
    (hc : o.chain? id = some c) : (o.setChain id c').atChain id f = f c' := by
  simp only [atChain, chain?_setChain_self c' hc, Option.map_some, Option.getD_some]

theorem atChain_setChain_ne {id' : ChainId} (c' : Chain) (f : Chain → Nat) (h : id' ≠ id) :
    (o.setChain id c').atChain id' f = o.atChain id' f := by
  simp only [atChain, chain?_setChain_ne c' h]

theorem atChain_of_chain? {c : Chain} (f : Chain → Nat) (hc : o.chain? id = some c) :
    o.atChain id f = f c := by
  simp only [atChain, hc, Option.map_some, Option.getD_some]

/-- Exchanging a chain for one about which there is as much to say. -/
theorem atChain_setChain_same {x : ChainId} {c : Chain} (c' : Chain) {f : Chain → Nat}
    (hc : o.chain? x = some c) (hf : f c' = f c) :
    (o.setChain x c').atChain id f = o.atChain id f := by
  by_cases h : id = x
  · subst h
    rw [atChain_setChain_self c' f hc, atChain_of_chain? f hc, hf]
  · exact atChain_setChain_ne c' f h

theorem atChain_modifyChain_same (o : Objects) (x : ChainId) {change : Chain → Chain} {f : Chain → Nat}
    (hf : ∀ c, f (change c) = f c) : (o.modifyChain x change).atChain id f = o.atChain id f := by
  unfold modifyChain
  split
  · rename_i c hc
    exact atChain_setChain_same (change c) hc (hf c)
  · rfl

/-- Feeding a chain leaves what is said neither of the pads that feed chains nor of bound inputs. -/
theorem atChain_bindInputs_same (x : ChainId) (specifiers : List Specifier) {f : Chain → Nat}
    (hbound : ∀ c p, f (c.addBound p) = f c) (hinputs : ∀ c inputs, f { c with inputs := inputs } = f c) :
    ∀ o : Objects, (o.bindInputs x specifiers).atChain id f = o.atChain id f := by
  have hpads : ∀ (ss : List Specifier) (o : Objects),
      (ss.foldl bindPad o).atChain id f = o.atChain id f := by
    intro ss
    induction ss with
    | nil => exact fun _ => rfl
    | cons s rest ih =>
        intro o
        have hbind : (o.bindPad s).atChain id f = o.atChain id f := by
          unfold bindPad
          split
          · exact atChain_modifyChain_same o _ fun c => hbound c _
          · rfl
        rw [List.foldl_cons, ih, hbind]
  intro o
  rw [← hpads specifiers o]
  exact atChain_modifyChain_same _ x fun c => hinputs c _

theorem slots_setChain (id : ChainId) (pad : Nat) {x : ChainId} {c : Chain} (c' : Chain)
    (hc : o.chain? x = some c) :
    (o.setChain x c').slots id pad + c.slotsOn id pad = o.slots id pad + c'.slotsOn id pad :=
  sum_map_set (Chain.slotsOn id pad) c' hc

theorem entries_setCommand (id : ChainId) (pad : Nat) {x : CommandId} {c : Command}
    (c' : Command) (hc : o.command? x = some c) :
    (o.setCommand x c').entries id pad + c.entriesOn id pad =
      o.entries id pad + c'.entriesOn id pad :=
  sum_map_set (Command.entriesOn id pad) c' hc

theorem slots_setChain_same (id : ChainId) (pad : Nat) {x : ChainId} {c : Chain}
    (c' : Chain) (hc : o.chain? x = some c)
    (hinputs : c'.inputs = c.inputs) : (o.setChain x c').slots id pad = o.slots id pad := by
  have hslots := slots_setChain id pad c' hc
  simp only [Chain.slotsOn, hinputs] at hslots
  omega

theorem marks_setChain_same (id : ChainId) (pad : Nat) {x : ChainId} {c : Chain}
    (c' : Chain) (hc : o.chain? x = some c)
    (hmapped : c'.mapped = c.mapped) : (o.setChain x c').marks id pad = o.marks id pad :=
  atChain_setChain_same c' hc (by rw [hmapped])

theorem feeds_setChain_same (id : ChainId) (pad : Nat) {x : ChainId} {c : Chain}
    (c' : Chain) (hc : o.chain? x = some c)
    (hbound : c'.bound = c.bound) : (o.setChain x c').feeds id pad = o.feeds id pad :=
  atChain_setChain_same c' hc (by rw [hbound])

theorem moves_setChain {x : ChainId} {c : Chain} (c' : Chain) (hc : o.chain? x = some c)
    (hinputs : c'.inputs = c.inputs) (hmapped : c'.mapped = c.mapped)
    (hbound : c'.bound = c.bound) : Moves id pad o [] (o.setChain x c') :=
  moves_of_same (marks_setChain_same _ _ c' hc hmapped) rfl (slots_setChain_same _ _ c' hc hinputs)
    (feeds_setChain_same _ _ c' hc hbound)

theorem moves_setCommand {x : CommandId} {c : Command} (c' : Command) (hc : o.command? x = some c)
    (hmappings : c'.mappings = c.mappings) : Moves id pad o [] (o.setCommand x c') := by
  refine moves_of_same rfl ?_ rfl rfl
  have hentries := entries_setCommand id pad c' hc
  simp only [Command.entriesOn, hmappings] at hentries
  omega

/-- What is added up over all objects of a kind stays the same if only options change and what is new
adds nothing. -/
theorem sum_of_bare {α : Type} (bare : α → α) {f : α → Nat}
    (hf : ∀ x, f (bare x) = f x) {l l' fresh : List α} (hfresh : ∀ x ∈ fresh, f x = 0)
    (h : l'.map bare = (l ++ fresh).map bare) : (l'.map f).sum = (l.map f).sum := by
  have hmap : ∀ xs : List α, xs.map f = (xs.map bare).map f := by
    intro xs
    rw [List.map_map]
    exact List.map_congr_left fun x _ => (hf x).symm
  have hzero : (fresh.map f).sum = 0 := by
    rw [List.sum_eq_zero_iff_forall_eq_nat]
    intro n hn
    obtain ⟨x, hx, rfl⟩ := List.mem_map.mp hn
    exact hfresh x hx
  rw [hmap l', h, ← hmap, List.map_append, List.sum_append, hzero, Nat.add_zero]

/-- Quiet changes say as much about a chain as was said before. -/
theorem Quiet.atChain (h : Quiet o o') {f : Chain → Nat} (hf : ∀ c : Chain, f c.bare = f c)
    (hfresh : ∀ c : Chain, c.Fresh → f c = 0) : o'.atChain id f = o.atChain id f := by
  cases hc : o.chain? id with
  | some c =>
      obtain ⟨c', hc', hbare⟩ := h.chain? hc
      rw [atChain_of_chain? f hc, atChain_of_chain? f hc', ← hf c', hbare, hf]
  | none =>
      have hzero : o.atChain id f = 0 := by simp only [Objects.atChain, hc]; rfl
      rw [hzero]
      cases hc' : o'.chain? id with
      | none => simp only [Objects.atChain, hc']; rfl
      | some c' =>
          rw [atChain_of_chain? f hc']
          obtain ⟨fresh, hall, heq⟩ := h.chains
          have hget : (o'.chains.map Chain.bare)[id.index]? = some c'.bare := by
            rw [List.getElem?_map, show o'.chains[id.index]? = some c' from hc']
            rfl
          have hge : o.chains.length ≤ id.index := List.getElem?_eq_none_iff.mp hc
          rw [heq, List.getElem?_map, List.getElem?_append_right hge,
            Option.map_eq_some_iff] at hget
          obtain ⟨c, hc, hbare⟩ := hget
          rw [← hf c', ← hbare, hf]
          exact hfresh c (hall c (List.mem_of_getElem? hc))

theorem Quiet.moves (h : Quiet o o') : Moves id pad o [] o' := by
  refine moves_of_same ?_ ?_ ?_ ?_
  · refine h.atChain (fun _ => rfl) fun c hc => ?_
    rw [hc.mapped]
    rfl
  · obtain ⟨fresh, hfresh, heq⟩ := h.commands
    refine sum_of_bare Command.bare (fun _ => rfl) (fun c hc => ?_) heq
    rw [Command.entriesOn, (hfresh c hc).mappings]
    rfl
  · obtain ⟨fresh, hfresh, heq⟩ := h.chains
    refine sum_of_bare Chain.bare (fun _ => rfl) (fun c hc => ?_) heq
    rw [Chain.slotsOn, (hfresh c hc).inputs]
    rfl
  · refine h.atChain (fun _ => rfl) fun c hc => ?_
    rw [hc.bound]
    rfl

/-! ### Feeding chains -/

/-- The pads that specifiers refer to. -/
def padsOf (specifiers : List Specifier) : List (ChainId × Nat) :=
  specifiers.filterMap Specifier.pad?

/-- Pads that may be bound together: each is one of a chain that is there, none is taken, and none is
given twice. -/
structure FreePads (o : Objects) (pads : List (ChainId × Nat)) : Prop where
  nodup : pads.Nodup
  free : ∀ p ∈ pads, ∃ c, o.chain? p.1 = some c ∧ p.2 ∉ c.bound ∧ c.isMapped p.2 = false

theorem not_bound_of_not_consumed {c : Chain} {p : Nat} (h : c.isConsumed p = false) :
    p ∉ c.bound ∧ c.isMapped p = false := by
  simp only [Chain.isConsumed, Bool.or_eq_false_iff, Chain.isBound, List.any_eq_false] at h
  exact ⟨fun hin => h.2 p hin (by simp), h.1⟩

theorem checkPadsFree_ok {all specifiers : List Specifier} :
    o.checkPadsFree all specifiers = .ok () → ∀ p ∈ padsOf specifiers,
      (∃ c, o.chain? p.1 = some c ∧ p.2 ∉ c.bound ∧ c.isMapped p.2 = false) ∧
        (padsOf all).count p ≤ 1 := by
  induction specifiers with
  | nil => exact fun _ p hp => by cases hp
  | cons s rest ih =>
      intro h p hp
      unfold checkPadsFree at h
      split at h
      · rename_i hnone
        exact ih h p (by simpa [padsOf, hnone] using hp)
      · rename_i x pad hsome
        obtain ⟨c, hc, h⟩ := bind_ok.mp h
        split at h
        · cases h
        · rename_i hfree
          simp only [Bool.or_eq_true, decide_eq_true_eq, not_or, Bool.not_eq_true,
            Nat.not_lt] at hfree
          have hp' : p = (x, pad) ∨ p ∈ padsOf rest := by simpa [padsOf, hsome] using hp
          rcases hp' with rfl | hrest
          · exact ⟨⟨c, chain_ok.mp hc, not_bound_of_not_consumed hfree.1⟩, hfree.2⟩
          · exact ih h p hrest

theorem freePads_of_check {specifiers : List Specifier}
    (h : o.checkPadsFree specifiers specifiers = .ok ()) : FreePads o (padsOf specifiers) where
  nodup := by
    rw [List.nodup_iff_count]
    intro p
    by_cases hp : p ∈ padsOf specifiers
    · exact (checkPadsFree_ok h p hp).2
    · rw [List.count_eq_zero_of_not_mem hp]
      exact Nat.zero_le 1
  free := fun p hp => (checkPadsFree_ok h p hp).1

/-- What taking pads for chains leaves: the same chains, with one more pad listed for each. -/
structure Lists (o : Objects) (pads : List (ChainId × Nat)) (o' : Objects) : Prop where
  feeds : ∀ id pad, o'.feeds id pad = o.feeds id pad + pads.count (id, pad)
  marks : ∀ id pad, o'.marks id pad = o.marks id pad
  slots : ∀ id pad, o'.slots id pad = o.slots id pad
  entries : ∀ id pad, o'.entries id pad = o.entries id pad
  chain : ∀ id c, o.chain? id = some c → ∃ c', o'.chain? id = some c'

theorem Lists.refl (o : Objects) : Lists o [] o :=
  ⟨fun _ _ => rfl, fun _ _ => rfl, fun _ _ => rfl, fun _ _ => rfl, fun _ c hc => ⟨c, hc⟩⟩

theorem Lists.trans {o₁ : Objects} {pads more : List (ChainId × Nat)} (h : Lists o pads o₁)
    (h' : Lists o₁ more o') : Lists o (pads ++ more) o' where
  feeds := fun id pad => by rw [h'.feeds, h.feeds, List.count_append, Nat.add_assoc]
  marks := fun id pad => (h'.marks id pad).trans (h.marks id pad)
  slots := fun id pad => (h'.slots id pad).trans (h.slots id pad)
  entries := fun id pad => (h'.entries id pad).trans (h.entries id pad)
  chain := fun id c hc => by
    obtain ⟨c₁, hc₁⟩ := h.chain id c hc
    exact h'.chain id c₁ hc₁

theorem addBound_bound {c : Chain} {p : Nat} (h : p ∉ c.bound) :
    (c.addBound p).bound = p :: c.bound := by
  simp only [Chain.addBound, List.contains_eq_mem, h, decide_false, Bool.false_eq_true, if_false]

theorem lists_addBound {x : ChainId} {p : Nat} {c : Chain} (hc : o.chain? x = some c)
    (hfree : p ∉ c.bound) : Lists o [(x, p)] (o.setChain x (c.addBound p)) where
  feeds := fun id pad => by
    by_cases h : id = x
    · subst h
      unfold Objects.feeds
      rw [atChain_setChain_self _ _ hc, atChain_of_chain? _ hc, addBound_bound hfree,
        List.count_cons, List.count_singleton]
      simp
    · unfold Objects.feeds
      rw [atChain_setChain_ne _ _ h, List.count_singleton]
      simp [Ne.symm h]
  marks := fun id pad => marks_setChain_same _ _ _ hc rfl
  slots := fun id pad => slots_setChain_same _ _ _ hc rfl
  entries := fun _ _ => rfl
  chain := fun id c₁ hc₁ => by
    by_cases h : id = x
    · subst h
      exact ⟨_, chain?_setChain_self _ hc⟩
    · exact ⟨c₁, (chain?_setChain_ne _ h).trans hc₁⟩

/-- The other pads stay free when one is listed. -/
theorem FreePads.tail {x : ChainId} {p : Nat} {rest : List (ChainId × Nat)} {c : Chain}
    (h : FreePads o ((x, p) :: rest)) (hc : o.chain? x = some c) (hfree : p ∉ c.bound) :
    FreePads (o.setChain x (c.addBound p)) rest where
  nodup := (List.nodup_cons.mp h.nodup).2
  free := fun q hq => by
    obtain ⟨y, r⟩ := q
    obtain ⟨c', hc', hbound, hmapped⟩ := h.free (y, r) (List.mem_cons_of_mem _ hq)
    by_cases hx : y = x
    · subst hx
      obtain rfl : c' = c := Option.some.inj (hc'.symm.trans hc)
      refine ⟨c'.addBound p, chain?_setChain_self _ hc, ?_, hmapped⟩
      rw [addBound_bound hfree]
      intro hin
      rcases List.mem_cons.mp hin with rfl | hold
      · exact (List.nodup_cons.mp h.nodup).1 hq
      · exact hbound hold
    · exact ⟨c', (chain?_setChain_ne _ hx).trans hc', hbound, hmapped⟩

theorem lists_bindPads {specifiers : List Specifier} :
    ∀ {o : Objects}, FreePads o (padsOf specifiers) →
      Lists o (padsOf specifiers) (specifiers.foldl bindPad o) := by
  induction specifiers with
  | nil => exact fun {o} _ => .refl o
  | cons s rest ih =>
      intro o h
      cases hs : s.pad? with
      | none =>
          have hpads : padsOf (s :: rest) = padsOf rest := by simp [padsOf, hs]
          have hbind : o.bindPad s = o := by simp only [bindPad, hs]
          rw [hpads] at h ⊢
          rw [List.foldl_cons, hbind]
          exact ih h
      | some p =>
          have hpads : padsOf (s :: rest) = p :: padsOf rest := by simp [padsOf, hs]
          rw [hpads] at h ⊢
          obtain ⟨c, hc, hfree, -⟩ := h.free p List.mem_cons_self
          have hbind : o.bindPad s = o.setChain p.1 (c.addBound p.2) := by
            simp only [bindPad, hs, modifyChain_eq _ hc]
          rw [List.foldl_cons, hbind]
          exact (lists_addBound hc hfree).trans (ih (h.tail hc hfree))

theorem countP_mapped {c : Chain} (h : c.isMapped pad = false) :
    c.mapped.countP (·.equal (.int pad)) = 0 := by
  rw [List.countP_eq_zero]
  exact List.any_eq_false.mp h

/-- Nothing is recorded of a free pad, and it is given once. -/
theorem FreePads.zero {pads : List (ChainId × Nat)} (h : FreePads o pads)
    (hin : (id, pad) ∈ pads) :
    o.marks id pad + o.feeds id pad = 0 ∧ pads.count (id, pad) ≤ 1 := by
  obtain ⟨c, hc, hbound, hmapped⟩ := h.free _ hin
  refine ⟨?_, List.nodup_iff_count.mp h.nodup _⟩
  rw [marks, feeds, atChain_of_chain? _ hc, atChain_of_chain? _ hc, countP_mapped hmapped,
    List.count_eq_zero_of_not_mem hbound]

theorem slotsOn_append (c : Chain) (specifiers : List Specifier) :
    Chain.slotsOn id pad { c with inputs := c.inputs ++ specifiers } =
      c.slotsOn id pad + (padsOf specifiers).count (id, pad) := by
  have hcount : specifiers.countP (·.isOn id pad) = (padsOf specifiers).count (id, pad) := by
    rw [padsOf, List.count_eq_countP, List.countP_filterMap]
    refine congrArg (specifiers.countP ·) (funext fun s => ?_)
    unfold Specifier.isOn
    cases s.pad? <;> rfl
  rw [← hcount]
  exact List.countP_append

/-- Binding streams moves free pads into slots and onto the lists of their chains. -/
theorem moves_bindInputs {x : ChainId} {c : Chain} {specifiers : List Specifier}
    (hc : o.chain? x = some c) (hfree : FreePads o (padsOf specifiers)) :
    Moves id pad o [] (o.bindInputs x specifiers) := by
  have hlists := lists_bindPads hfree
  obtain ⟨c', hc'⟩ := hlists.chain x c hc
  unfold bindInputs
  rw [modifyChain_eq _ hc']
  have hslots := slots_setChain id pad { c' with inputs := c'.inputs ++ specifiers } hc'
  rw [slotsOn_append, hlists.slots] at hslots
  have hmarks := marks_setChain_same id pad
    { c' with inputs := c'.inputs ++ specifiers } hc' rfl
  have hfeeds := feeds_setChain_same id pad
    { c' with inputs := c'.inputs ++ specifiers } hc' rfl
  rw [hlists.marks] at hmarks
  rw [hlists.feeds] at hfeeds
  refine ⟨hmarks, hlists.entries id pad, by omega, fun honce => ?_⟩
  rw [hmarks, hfeeds]
  by_cases hin : (id, pad) ∈ padsOf specifiers
  · obtain ⟨hzero, hcount⟩ := hfree.zero hin
    omega
  · rw [List.count_eq_zero_of_not_mem hin]
    exact honce

/-! ### Taking a pad and entering a stream -/

theorem countP_addMark (c : Chain) (v : Value) (pad : Nat) :
    (c.addMark v).mapped.countP (·.equal (.int pad)) =
      c.mapped.countP (·.equal (.int pad)) + if v.equal (.int pad) = true then 1 else 0 :=
  List.countP_cons

/-- A pad is marked when nothing is recorded of it. -/
theorem moves_take {x : ChainId} {c : Chain} {v : Value} (hc : o.chain? x = some c)
    (hmark : o.isMarked c v = false) (hfed : isFed c v = false) :
    Moves id pad o [.take x v] (o.setChain x (c.addMark v)) := by
  have hslots := slots_setChain_same id pad (c.addMark v) hc rfl
  have hfeeds := feeds_setChain_same id pad (c.addMark v) hc rfl
  by_cases h : x = id ∧ v.equal (.int pad) = true
  · obtain ⟨rfl, hv⟩ := h
    have hnone := countP_mapped (isMapped_of_isMarked hmark hv)
    have hmarks : (o.setChain x (c.addMark v)).marks x pad = 1 := by
      rw [marks, atChain_setChain_self _ _ hc, countP_addMark, hnone, if_pos hv]
    have hzero : o.marks x pad = 0 := by
      rw [marks, atChain_of_chain? _ hc, hnone]
    have hnot : o.feeds x pad = 0 := by
      rw [feeds, atChain_of_chain? _ hc]
      refine List.count_eq_zero_of_not_mem fun hin => ?_
      exact (List.any_eq_false.mp hfed) pad hin hv
    refine ⟨?_, rfl, by rw [hslots, hfeeds], fun _ => by omega⟩
    rw [hmarks, hzero]
    simp [Effect.takes, hv]
  · have hmarks : (o.setChain x (c.addMark v)).marks id pad = o.marks id pad := by
      by_cases hx : id = x
      · subst hx
        have hv : ¬ v.equal (.int pad) = true := fun hv => h ⟨rfl, hv⟩
        rw [marks, marks, atChain_setChain_self _ _ hc, atChain_of_chain? _ hc, countP_addMark,
          if_neg hv, Nat.add_zero]
      · exact atChain_setChain_ne _ _ hx
    refine ⟨?_, rfl, by rw [hslots, hfeeds], fun honce => by rwa [hmarks, hfeeds]⟩
    rw [hmarks]
    have htakes : Effect.takes id pad (.take x v) = false := by
      simpa [Effect.takes] using h
    simp [htakes]

theorem moves_enter {command : CommandId} {c : Command} (output : OutputId) (out : Output)
    (s : Specifier) (hc : o.command? command = some c) :
    Moves id pad o [.enter s] (o.record command c output out s) := by
  have hentries := entries_setCommand id pad
    { c with mappings := c.mappings ++ [⟨output, out.maps.length, s⟩] } hc
  refine ⟨rfl, ?_, rfl, fun honce => honce⟩
  simp only [Command.entriesOn, List.countP_append, List.countP_singleton] at hentries
  have hcount : [Effect.enter s].countP (Effect.enters id pad)
      = if s.isOn id pad = true then 1 else 0 := List.countP_singleton
  show (o.setCommand command _).entries id pad = _
  rw [hcount]
  omega

/-! ### Every step keeps the account -/

theorem Step.moves {e : List Effect} (h : Step o e o') : Moves id pad o e o' := by
  cases h with
  | quiet h => exact h.moves
  | refer hc hpad =>
      rename_i x c p
      rw [referTo_eq _ hc]
      exact (moves_setChain (c.addReference p) hc rfl rfl rfl).trans (moves_of_lists rfl rfl)
  | take hc hmark hfed => exact moves_take hc hmark hfed
  | bind hc made free fits => exact moves_bindInputs hc (freePads_of_check free)
  | append hc | prepend hc => exact moves_setChain _ hc rfl rfl rfl
  | place position hc hfree => exact moves_setChain _ hc rfl rfl rfl
  | join hg hc hfree =>
      rename_i graph g x c
      exact (moves_setChain { c with position := some g.chains.length } hc rfl rfl rfl).trans
        (moves_of_lists rfl rfl)
  | gather => exact moves_of_lists rfl rfl
  | label hc hi hfree =>
      rename_i command c x i
      have hc' : (o.setInput x { i with label := some c.inputs.length }).command? command
          = some c := hc
      have hnumber : Moves id pad o [] (o.setInput x { i with label := some c.inputs.length }) :=
        moves_of_lists rfl rfl
      exact hnumber.trans (moves_setCommand { c with inputs := c.inputs ++ [x] } hc' rfl)
  | adopt targets hc => exact moves_setCommand _ hc rfl
  | list hc => exact moves_setCommand _ hc rfl
  | enter hc => exact moves_enter _ _ _ hc

theorem Trace.moves {es : List Effect} (h : Trace o es o') : Moves id pad o es o' := by
  induction h with
  | refl => exact .refl _
  | step _ s ih => exact ih.trans s.moves

/-! ### Whole sessions -/

/-- Whether a call that goes through takes a pad without entering it among the mappings: the caller
marks the pad, or asks for the text that maps it. -/
def takesDirectly (o : Objects) (id : ChainId) (pad : Nat) : Call → Bool
  | .act a => (o.directPad? a).any fun p => p.1 == id && p.2.equal (.int pad)
  | _ => false

/-- How many calls of a session took a pad directly. -/
def directTakes (id : ChainId) (pad : Nat) : Objects → List Call → Nat
  | _, [] => 0
  | o, call :: rest =>
    (if o.takesDirectly id pad call then 1 else 0) + directTakes id pad (o.afterCall call) rest

theorem callEffects_takes (o : Objects) (call : Call) :
    (o.callEffects call).countP (Effect.takes id pad) =
      if o.takesDirectly id pad call then 1 else 0 := by
  cases call with
  | act a =>
      show ((o.directPad? a).toList.map fun p => Effect.take p.1 p.2).countP _ =
        if (o.directPad? a).any fun p => p.1 == id && p.2.equal (.int pad) then 1 else 0
      cases o.directPad? a with
      | none => rfl
      | some p => exact List.countP_singleton
  | keep | extendList => rfl

theorem callEffects_enters (o : Objects) (call : Call) :
    (o.callEffects call).countP (Effect.enters id pad) = 0 := by
  cases call with
  | act a =>
      simp only [callEffects, directEffects]
      cases o.directPad? a <;> rfl
  | keep | extendList => rfl

theorem takenBy_takes (s : Specifier) :
    (takenBy s).countP (Effect.takes id pad) = if s.isOn id pad then 1 else 0 := by
  unfold takenBy Specifier.isOn
  cases s.pad? with
  | none => rfl
  | some p =>
      have htakes : Effect.takes id pad (.take p.1 (.int p.2)) = (some p == some (id, pad)) := by
        rw [Bool.eq_iff_iff]
        simp only [Effect.takes, Value.equal_int, Bool.and_eq_true, beq_iff_eq, Option.some.injEq,
          Prod.ext_iff, Int.ofNat_inj]
      rw [← htakes]
      exact List.countP_singleton

theorem takenBy_enters (s : Specifier) : (takenBy s).countP (Effect.enters id pad) = 0 := by
  unfold takenBy
  cases s.pad? <;> rfl

/-- Mapping streams takes the pads that they are on. -/
theorem mapEffects_takes (specifiers : List Specifier) :
    (mapEffects specifiers).countP (Effect.takes id pad) = specifiers.countP (·.isOn id pad) := by
  have htakes : (specifiers.flatMap takenBy).countP (Effect.takes id pad)
      = specifiers.countP (·.isOn id pad) := by
    induction specifiers with
    | nil => rfl
    | cons s rest ih =>
        rw [List.flatMap_cons, List.countP_append, ih, takenBy_takes, List.countP_cons,
          Nat.add_comm]
  have hentries : (specifiers.map Effect.enter).countP (Effect.takes id pad) = 0 := by
    rw [List.countP_map]
    exact List.countP_eq_zero.mpr fun _ _ => Bool.false_ne_true
  rw [mapEffects, List.countP_append, htakes, hentries, Nat.add_zero]

/-- Mapping streams enters them. -/
theorem mapEffects_enters (specifiers : List Specifier) :
    (mapEffects specifiers).countP (Effect.enters id pad) = specifiers.countP (·.isOn id pad) := by
  have henters : (specifiers.flatMap takenBy).countP (Effect.enters id pad) = 0 := by
    induction specifiers with
    | nil => rfl
    | cons s rest ih => rw [List.flatMap_cons, List.countP_append, takenBy_enters, ih]
  rw [mapEffects, List.countP_append, henters, List.countP_map, Nat.zero_add]
  rfl

/-- Mapping streams takes as many pads as it enters. -/
theorem mapEffects_balanced (specifiers : List Specifier) :
    (mapEffects specifiers).countP (Effect.takes id pad) =
      (mapEffects specifiers).countP (Effect.enters id pad) := by
  rw [mapEffects_takes, mapEffects_enters]

/-- The account of a pad, given how many calls have taken it directly. -/
structure Account (id : ChainId) (pad : Nat) (direct : Nat) (o : Objects) : Prop where
  slots : o.slots id pad = o.feeds id pad
  marks : o.marks id pad = o.entries id pad + direct
  once : o.marks id pad + o.feeds id pad ≤ 1

theorem account_empty (id : ChainId) (pad : Nat) : Account id pad 0 {} where
  slots := rfl
  marks := rfl
  once := Nat.zero_le 1

theorem Account.afterCall {direct : Nat} {call : Call} (h : Account id pad direct o)
    (hs : Sound o) (hcopies : call.copies = false) :
    Account id pad (direct + if o.takesDirectly id pad call then 1 else 0) (o.afterCall call) := by
  obtain ⟨specifiers, trace⟩ := afterCall_trace hs hcopies
  have hmoves : Moves id pad o (o.callEffects call ++ mapEffects specifiers) (o.afterCall call) :=
    trace.moves
  have hmarks := hmoves.marks
  have hentries := hmoves.entries
  have hslots := hmoves.slots
  rw [List.countP_append, callEffects_takes, mapEffects_balanced] at hmarks
  rw [List.countP_append, callEffects_enters] at hentries
  refine ⟨?_, ?_, hmoves.once h.once⟩
  · have := h.slots
    omega
  · have := h.marks
    omega

theorem Account.afterCalls {calls : List Call} :
    ∀ {o : Objects} {direct : Nat}, Account id pad direct o → Sound o →
      (∀ call ∈ calls, call.copies = false) →
      Account id pad (direct + directTakes id pad o calls) (o.afterCalls calls) := by
  induction calls with
  | nil => exact fun h _ _ => h
  | cons call rest ih =>
      intro o direct h hs hcopies
      have hcall := h.afterCall hs (hcopies call List.mem_cons_self)
      have hrest := ih hcall (hs.afterCall call).1 fun x hx =>
        hcopies x (List.mem_cons_of_mem call hx)
      rwa [Nat.add_assoc] at hrest

/-- **A pad is consumed at most once.**  In any session without copies, the inputs of chains that a pad
is bound to, the mappings it is recorded in, and the calls that took it directly are at most one
altogether.  No pad is both mapped and feeding a chain, and a pad that is taken stays taken whatever is
called next and whatever becomes of it. -/
theorem pad_consumed_once {calls : List Call} (h : ∀ call ∈ calls, call.copies = false)
    (id : ChainId) (pad : Nat) :
    (afterCalls {} calls).slots id pad + (afterCalls {} calls).entries id pad +
        directTakes id pad {} calls ≤ 1 ∧
      (∀ c, (afterCalls {} calls).chain? id = some c → c.isMapped pad = true → pad ∉ c.bound) ∧
      ∀ c call, (afterCalls {} calls).chain? id = some c → c.isConsumed pad = true →
        ∃ c', ((afterCalls {} calls).afterCall call).chain? id = some c' ∧
          c'.isConsumed pad = true := by
  have hs := (sound_empty.afterCalls calls).1
  have haccount := (account_empty id pad).afterCalls sound_empty h
  have hslots := haccount.slots
  have hmarks := haccount.marks
  have honce := haccount.once
  refine ⟨by omega, fun c hc hmapped hbound => ?_, fun c call hc hconsumed => ?_⟩
  · rw [marks, feeds, atChain_of_chain? _ hc, atChain_of_chain? _ hc] at honce
    have := List.countP_pos_iff.mpr (List.any_eq_true.mp hmapped)
    have := List.count_pos_iff.mpr hbound
    omega
  · obtain ⟨c', hc', hk⟩ := (hs.afterCall call).2.chain id c hc
    exact ⟨c', hc', hk.consumed pad hconsumed⟩

/-- The three pads of the session are consumed in the three ways, and the first only once. -/
theorem split_pads_consumed_once :
    (∀ call ∈ splitSession, call.copies = false) ∧
      directTakes ⟨0⟩ 0 {} splitSession = 1 ∧
      (afterCalls {} splitSession).slots ⟨0⟩ 1 = 1 ∧
      (afterCalls {} splitSession).entries ⟨1⟩ 0 = 1 ∧
      (afterCalls {} splitSession).slots ⟨0⟩ 0 + (afterCalls {} splitSession).entries ⟨0⟩ 0 +
        directTakes ⟨0⟩ 0 {} splitSession ≤ 1 := by
  have h : ∀ call ∈ splitSession, call.copies = false := by decide
  exact ⟨h, by decide, by decide, by decide, (pad_consumed_once h ⟨0⟩ 0).1⟩

end Objects

end MediaCommand
