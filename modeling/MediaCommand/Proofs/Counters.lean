/-
References counted pad by pad.

The references to the pads of a chain can be kept as a dictionary of counters: one more reference raises
the counter of its pad, one that is taken back lowers it, and a counter that would come down to nothing
is dropped.  The dictionary that is left after all references of a chain is written down at once here, and
raising and lowering its counters is adding and taking back references.

So no counter is ever zero, and two things that are asked of the dictionary in different ways come to the
same: filters at the end have to leave the pads that are its keys, and labels go up to the last pad whose
counter is not zero.
-/
import MediaCommand.Proofs.Dictionaries
import MediaCommand.Proofs.MarkedPads

namespace MediaCommand

/-! ### Raising and lowering counters -/

/-- Counts one more for a pad. -/
def raiseCounter (d : List (Nat × Nat)) (pad : Nat) : List (Nat × Nat) :=
  Dict.put d pad ((Dict.get? d pad).getD 0 + 1)

/-- Counts one less for a pad, and drops the counter if nothing is left. -/
def lowerCounter (d : List (Nat × Nat)) (pad : Nat) : List (Nat × Nat) :=
  let left := (Dict.get? d pad).getD 0 - 1
  if 0 < left then Dict.put d pad left else d.filter (·.1 != pad)

/-- The counters after references one after the other, given the latest first. -/
def countersOf (references : List Nat) : List (Nat × Nat) :=
  references.foldr (fun pad d => raiseCounter d pad) []

/-- The counter of a pad is how often the pad is there. -/
private theorem get?_map_count (references : List Nat) (pad : Nat) :
    (Dict.get? (references.reverse.eraseDups.map fun p => (p, references.count p)) pad).getD 0
      = references.count pad := by
  by_cases h : pad ∈ references
  · rw [Dict.get?_map _ (List.mem_eraseDups.mpr (List.mem_reverse.mpr h)), Option.getD_some]
  · rw [Dict.get?_of_not_mem (by simpa using h), List.count_eq_zero_of_not_mem h, Option.getD_none]

/-- The pads stand in the order in which they came first, each with how often it came. -/
theorem countersOf_eq (references : List Nat) : countersOf references
    = references.reverse.eraseDups.map fun pad => (pad, references.count pad) := by
  induction references with
  | nil => rfl
  | cons pad rest ih =>
      have hraise : countersOf (pad :: rest) = raiseCounter (countersOf rest) pad := rfl
      have hsame : ∀ p ≠ pad, (pad :: rest).count p = rest.count p := fun p hp =>
        List.count_cons_of_ne hp.symm
      rw [hraise, ih, raiseCounter, get?_map_count, ← List.count_cons_self, List.reverse_cons]
      exact Dict.put_eraseDups hsame

theorem get?_countersOf (references : List Nat) (pad : Nat) :
    (Dict.get? (countersOf references) pad).getD 0 = references.count pad := by
  rw [countersOf_eq, get?_map_count]

/-- Without its latest coming a pad keeps its place, or is gone if it came once. -/
theorem eraseDups_erase (references : List Nat) (pad : Nat) :
    (references.erase pad).reverse.eraseDups = if 1 < references.count pad
      then references.reverse.eraseDups else references.reverse.eraseDups.filter (· != pad) := by
  induction references with
  | nil => rfl
  | cons p rest ih =>
      rw [List.reverse_cons, eraseDups_concat]
      by_cases hp : p = pad
      · subst hp
        have hcount : 1 < (p :: rest).count p ↔ p ∈ rest := by
          rw [List.count_cons_self, ← List.count_pos_iff]
          omega
        rw [List.erase_cons_head]
        by_cases hin : p ∈ rest
        · rw [if_pos (hcount.mpr hin), if_pos (by simpa using hin)]
        · have hkept : rest.reverse.eraseDups.filter (· != p) = rest.reverse.eraseDups := by
            refine List.filter_eq_self.mpr fun q hq => bne_iff_ne.mpr ?_
            rintro rfl
            exact hin (by simpa using hq)
          rw [if_neg (mt hcount.mp hin), if_neg (by simpa using hin), List.filter_append, hkept]
          simp
      · rw [List.erase_cons_tail (by simpa using hp), List.reverse_cons, eraseDups_concat, ih,
          List.count_cons_of_ne hp]
        have hin : (rest.erase pad).reverse.contains p = rest.reverse.contains p := by
          rw [Bool.eq_iff_iff]
          simp [List.mem_erase_of_ne hp]
        rw [hin]
        split <;> split <;> simp [List.filter_append, hp]

/-- **Taking a reference back lowers its counter.** -/
theorem countersOf_erase (references : List Nat) (pad : Nat) :
    countersOf (references.erase pad) = lowerCounter (countersOf references) pad := by
  have hothers : ∀ p, p ≠ pad → (references.erase pad).count p = references.count p := fun p hp =>
    List.count_erase_of_ne hp
  unfold lowerCounter
  rw [get?_countersOf, countersOf_eq, countersOf_eq, eraseDups_erase]
  by_cases hmore : 1 < references.count pad
  · have hin : pad ∈ references.reverse.eraseDups := by
      have hmem := List.count_pos_iff.mp (Nat.lt_trans Nat.zero_lt_one hmore)
      simpa using hmem
    have hleft : 0 < references.count pad - 1 := Nat.sub_pos_of_lt hmore
    rw [if_pos hmore, if_pos hleft, ← List.count_erase_self]
    exact (Dict.put_map (nodup_eraseDups _) hin fun p _ hp => hothers p hp).symm
  · have hnone : ¬0 < references.count pad - 1 := fun h => hmore (Nat.lt_of_sub_pos h)
    rw [if_neg hmore, if_neg hnone, List.filter_map]
    refine List.map_congr_left fun p hp => ?_
    rw [hothers p (bne_iff_ne.mp (List.mem_filter.mp hp).2)]

namespace Chain

/-! ### The counters of a chain -/

/-- The counters of the pads that are referred to. -/
def counters (c : Chain) : List (Nat × Nat) := countersOf c.references

theorem counters_addReference (c : Chain) (pad : Nat) :
    (c.addReference pad).counters = raiseCounter c.counters pad := rfl

theorem counters_removeReference (c : Chain) (pad : Nat) :
    (c.removeReference pad).counters = lowerCounter c.counters pad :=
  countersOf_erase c.references pad

theorem consumers_pos {c : Chain} {pad : Nat} : 0 < c.consumers pad ↔ pad ∈ c.references :=
  List.count_pos_iff

/-- What stands in the dictionary is more than nothing, and how many refer to the pad. -/
theorem mem_counters {c : Chain} {e : Nat × Nat} :
    e ∈ c.counters ↔ 1 ≤ e.2 ∧ e.2 = c.consumers e.1 := by
  rw [counters, countersOf_eq, List.mem_map]
  constructor
  · rintro ⟨pad, hpad, rfl⟩
    have hmem : pad ∈ c.references := by simpa using hpad
    exact ⟨consumers_pos.mpr hmem, rfl⟩
  · rintro ⟨hpos, hcount⟩
    have hmem : e.1 ∈ c.references := consumers_pos.mp (hcount ▸ hpos)
    exact ⟨e.1, by simpa using hmem, Prod.ext rfl hcount.symm⟩

/-- The keys are the pads with a counter above zero. -/
theorem mem_counter_keys {c : Chain} {pad : Nat} :
    pad ∈ c.counters.map Prod.fst ↔ 0 < c.consumers pad := by
  rw [List.mem_map]
  constructor
  · rintro ⟨e, he, rfl⟩
    obtain ⟨hpos, hcount⟩ := mem_counters.mp he
    exact hcount ▸ hpos
  · exact fun hpos => ⟨(pad, c.consumers pad), mem_counters.mpr ⟨hpos, rfl⟩, rfl⟩

/-- Labels go up to the last pad with a counter above zero. -/
theorem mem_labeledPads_iff {c : Chain} {q : Nat} :
    q ∈ c.labeledPads ↔ ∃ e ∈ c.counters, 0 < e.2 ∧ q ≤ e.1 := by
  rw [labeledPads, List.mem_range]
  constructor
  · intro hlt
    rcases c.labeledCount_cases with hzero | ⟨pad, hpad, hcount⟩
    · omega
    · have hpos := consumers_pos.mpr hpad
      exact ⟨(pad, c.consumers pad), mem_counters.mpr ⟨hpos, rfl⟩, hpos, by omega⟩
  · rintro ⟨e, he, -, hle⟩
    obtain ⟨hpos, hcount⟩ := mem_counters.mp he
    have hlt := Objects.lt_labeledCount (consumers_pos.mp (hcount ▸ hpos))
    omega

end Chain

namespace Objects

/-- Filters are added at the end unless they lack a key. -/
theorem appendNodes_ok_iff_keys {o : Objects} {id : ChainId} {c : Chain} {nodes : List Value}
    {fs : List Filter} {f : Filter} (hc : o.chain? id = some c) (hfs : o.filtersOf nodes = .ok fs)
    (hlast : fs.getLast? = some f) : (∃ o', o.appendNodes id nodes = .ok o') ↔
      ∀ pad ∈ c.counters.map Prod.fst, f.outputArity.hasPad pad = true := by
  simp only [appendNodes_ok_iff hc hfs hlast, Chain.mem_counter_keys, Nat.pos_iff_ne_zero]

end Objects

end MediaCommand
