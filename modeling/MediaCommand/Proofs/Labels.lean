/-
What streams and pads are called.

A pad has a label exactly when its chain has a place, and the chains of a graph have one.  An input
has a name exactly when it carries a number, and the inputs of a command do.  So a stream that a
command knows always has a name, whatever is done to the command, the graph or the chain.
-/
import MediaCommand.Proofs.Sound

namespace MediaCommand.Objects

variable {o : Objects}

theorem padLabel_placed {c : Chain} {k : Nat} (id : ChainId) (pad : String)
    (h : c.position = some k) :
    padLabel id c pad = .ok ("chain" ++ toString k ++ "_" ++ c.last.name ++ "_" ++ pad) := by
  simp only [padLabel, h]

theorem padLabel_unplaced {c : Chain} (id : ChainId) (pad : String) (h : c.position = none) :
    padLabel id c pad = .error (.unplaced id) := by
  simp only [padLabel, h]

theorem specifierText_pad {id : ChainId} {c : Chain} (pad : Nat) (hc : o.chain? id = some c) :
    o.specifierText (.pad id pad) =
      (padLabel id c (toString pad)).map fun l => "[" ++ l ++ "]" := by
  simp only [specifierText, chain_ok.mpr hc]
  show (padLabel id c (toString pad) >>= fun l => .ok ("[" ++ l ++ "]")) = _
  cases padLabel id c (toString pad) <;> rfl

/-! ### The labels that a chain gives -/

/-- The label of a pad of a chain at a place. -/
def padName (c : Chain) (k : Nat) (pad : Nat) : String :=
  "chain" ++ toString k ++ "_" ++ c.last.name ++ "_" ++ toString pad

theorem specifierText_placed {id : ChainId} {c : Chain} {k : Nat} (pad : Nat)
    (hc : o.chain? id = some c) (h : c.position = some k) :
    o.specifierText (.pad id pad) = .ok ("[" ++ padName c k pad ++ "]") := by
  rw [specifierText_pad pad hc, padLabel_placed id _ h]
  rfl

theorem padLabels_placed {c : Chain} {k : Nat} (id : ChainId) (h : c.position = some k) :
    padLabels id c = .ok (c.labeledPads.map (padName c k)) := by
  unfold padLabels
  rw [h]
  exact mapM_ok_map fun pad _ => padLabel_placed id _ h

theorem le_foldl_max (references : List Nat) :
    ∀ n : Nat, n ≤ references.foldl (fun n pad => max n (pad + 1)) n ∧
      ∀ pad ∈ references, pad < references.foldl (fun n pad => max n (pad + 1)) n := by
  induction references with
  | nil => exact fun n => ⟨Nat.le_refl n, by simp⟩
  | cons p rest ih =>
      intro n
      obtain ⟨hle, hlt⟩ := ih (max n (p + 1))
      rw [List.foldl_cons]
      refine ⟨Nat.le_trans (Nat.le_max_left n (p + 1)) hle, fun pad hpad => ?_⟩
      rcases List.mem_cons.mp hpad with rfl | hrest
      · exact Nat.lt_of_lt_of_le (Nat.lt_succ_self pad)
          (Nat.le_trans (Nat.le_max_right n (pad + 1)) hle)
      · exact hlt pad hrest

/-- A pad that is referred to carries a label. -/
theorem lt_labeledCount {c : Chain} {pad : Nat} (h : pad ∈ c.references) :
    pad < c.labeledCount :=
  (le_foldl_max c.references 0).2 pad h

theorem mem_labeledPads {c : Chain} {pad : Nat} (h : pad ∈ c.references) : pad ∈ c.labeledPads :=
  List.mem_range.mpr (lt_labeledCount h)

theorem getElem?_labels {c : Chain} {pad : Nat} (k : Nat) (h : pad ∈ c.references) :
    (c.labeledPads.map (padName c k))[pad]? = some (padName c k pad) := by
  rw [List.getElem?_map, Chain.labeledPads, List.getElem?_range (lt_labeledCount h)]
  rfl

/-! ### Streams with a name -/

theorem specifierText_input {id : InputId} {i : Input} {k : Nat} (track : Option Track)
    (hi : o.input? id = some i) (hlabel : i.label = some k) :
    o.specifierText (.input id track) =
      .ok (match track with
        | none => toString k
        | some track => toString k ++ ":" ++ track.text) := by
  simp only [specifierText, input_ok.mpr hi, bind, Except.bind, hlabel]
  cases track <;> rfl

/-- A chain in one of the graphs of a command has its place there. -/
theorem Sound.placed_of_chainInGraphs (hs : Sound o) {graphs : List GraphId} {id : ChainId}
    (h : o.chainInGraphs graphs id = true) :
    ∃ g ∈ graphs, ∃ gr, o.graph? g = some gr ∧ ∃ k : Nat, gr.chains[k]? = some id ∧
      ∃ c, o.chain? id = some c ∧ c.position = some k := by
  simp only [chainInGraphs, List.any_eq_true] at h
  obtain ⟨g, hg, hin⟩ := h
  split at hin
  · rename_i gr hgr
    obtain ⟨k, hk⟩ := List.mem_iff_getElem?.mp (by simpa using hin : id ∈ gr.chains)
    exact ⟨g, hg, gr, hgr, k, hk, (hs.graph hgr).placed k id hk⟩
  · cases hin

/-- A stream that a command knows has a name. -/
theorem Sound.specifierText_of_known (hs : Sound o) {c : Command} (hc : c.SoundIn o) {s : Source}
    (known : o.Known c s) : ∃ text, o.specifierText s = .ok text := by
  cases s with
  | input id track =>
      obtain ⟨k, hk⟩ := List.mem_iff_getElem?.mp known
      obtain ⟨i, hi, hlabel⟩ := hc.labelled k id hk
      exact ⟨_, specifierText_input track hi hlabel⟩
  | pad id pad =>
      obtain ⟨-, -, -, -, k, -, c, hc, hposition⟩ := hs.placed_of_chainInGraphs known
      exact ⟨_, specifierText_placed pad hc hposition⟩

/-! ### The labels of a graph -/

/-- The labels of a chain, and none if it has no place or is not there. -/
def labelsAt (o : Objects) (id : ChainId) : List String :=
  match o.chain? id with
  | some c => (c.position.map fun k => c.labeledPads.map (padName c k)).getD []
  | none => []

theorem labelsAt_placed {id : ChainId} {c : Chain} {k : Nat} (hc : o.chain? id = some c)
    (h : c.position = some k) : o.labelsAt id = c.labeledPads.map (padName c k) := by
  simp only [labelsAt, hc, h, Option.map_some, Option.getD_some]

/-- Chains with places give their labels one after the other. -/
theorem graphLabels_placed {g : Graph}
    (h : ∀ id ∈ g.chains, ∃ c k, o.chain? id = some c ∧ c.position = some k) :
    o.graphLabels g = .ok (g.chains.map o.labelsAt).flatten := by
  have hall : g.chains.mapM (fun id => do padLabels id (← o.chain id))
      = .ok (g.chains.map o.labelsAt) := by
    refine mapM_ok_map fun id hid => ?_
    obtain ⟨c, k, hc, hposition⟩ := h id hid
    rw [labelsAt_placed hc hposition, chain_ok.mpr hc]
    exact padLabels_placed id hposition
  unfold graphLabels
  rw [hall]
  rfl

/-- The chains of a graph have places. -/
theorem Sound.placed (hs : Sound o) {g : Graph} (hg : g ∈ o.graphs) :
    ∀ id ∈ g.chains, ∃ c k, o.chain? id = some c ∧ c.position = some k := by
  intro id hid
  obtain ⟨k, hk⟩ := List.mem_iff_getElem?.mp hid
  obtain ⟨c, hc, hposition⟩ := (hs.graphs g hg).placed k id hk
  exact ⟨c, k, hc, hposition⟩

end MediaCommand.Objects
