/-
What a listener to a report is told.

A report is read line by line, and what is known of the block at hand is carried from one line to the
next.  Here the blocks of a report are written down without any reading: the lines are cut behind each
line that closes a block, and a block holds what the lines of its own piece give, each key in the place
where it comes first with the value given last.  Nothing is said about the lines behind the last cut.

One line of reading does one of three things, so what the lines of one block leave is known
(`Tells.foldl_read`), and the blocks follow one after the other (`Reports.told`).  The answers of the
listener reach nothing but the cancelling, whose invariant (`Settled`) every line keeps.
-/
import MediaCommand.Progress
import MediaCommand.Proofs.Dictionaries

namespace MediaCommand.Progress

/-! ### Lines -/

/-- A line gives a value to a key: of its equals signs that something follows, the last stands between
the two. -/
structure Gives (line key v : List Char) : Prop where
  cut : line = key ++ '=' :: v
  followed : v ≠ []
  last : ∀ key' v', line = key' ++ '=' :: v' → v' ≠ [] → key'.length ≤ key.length

/-- A line gives one value to one key. -/
theorem Gives.unique {line key v key' v' : List Char} (h : Gives line key v)
    (h' : Gives line key' v') : key = key' ∧ v = v' := by
  have hlength : key.length = key'.length :=
    Nat.le_antisymm (h'.last key v h.cut h.followed) (h.last key' v' h'.cut h'.followed)
  obtain ⟨hkey, hv⟩ := List.append_inj (h.cut.symm.trans h'.cut) hlength
  exact ⟨hkey, List.tail_eq_of_cons_eq hv⟩

/-- What is cut behind a first character is cut there or at that character. -/
theorem cut_cons {c : Char} {rest key v : List Char} (h : c :: rest = key ++ '=' :: v) :
    (key = [] ∧ c = '=' ∧ v = rest) ∨ ∃ more, key = c :: more ∧ rest = more ++ '=' :: v := by
  cases key with
  | nil =>
      obtain ⟨hc, hrest⟩ := List.cons_eq_cons.mp h
      exact Or.inl ⟨rfl, hc, hrest.symm⟩
  | cons d more =>
      obtain ⟨rfl, hrest⟩ := List.cons_eq_cons.mp h
      exact Or.inr ⟨more, rfl, hrest⟩

/-- Where no place to cut is found, there is none with anything behind it. -/
theorem eq_nil_of_splitField?_eq_none {line : List Char} (h : splitField? line = none) :
    ∀ key v, line = key ++ '=' :: v → v = [] := by
  induction line with
  | nil => exact fun key v hcut => by simp at hcut
  | cons c rest ih =>
      intro key v hcut
      unfold splitField? at h
      split at h
      · cases h
      · rename_i hnone
        rcases cut_cons hcut with ⟨-, rfl, hv⟩ | ⟨more, -, hrest⟩
        · rw [hv]
          simpa using h
        · exact ih hnone more v hrest

/-- The place that is found to cut a line is the last one with anything behind it. -/
theorem gives_of_splitField? {line key v : List Char} (h : splitField? line = some (key, v)) :
    Gives line key v := by
  induction line generalizing key with
  | nil => cases h
  | cons c rest ih =>
      unfold splitField? at h
      split at h
      · rename_i key₁ v₁ hsome
        cases h
        have hrest := ih hsome
        refine ⟨by rw [hrest.cut]; rfl, hrest.followed, fun key' v' hcut hv' => ?_⟩
        rcases cut_cons hcut with ⟨rfl, -, -⟩ | ⟨more, rfl, hmore⟩
        · exact Nat.zero_le _
        · exact Nat.succ_le_succ (hrest.last more v' hmore hv')
      · rename_i hnone
        split at h
        · rename_i hhere
          obtain ⟨hc, hrest⟩ : c = '=' ∧ rest ≠ [] := by simpa using hhere
          cases h
          refine ⟨by rw [hc]; rfl, hrest, fun key' v' hcut hv' => ?_⟩
          rcases cut_cons hcut with ⟨rfl, -, -⟩ | ⟨more, -, hmore⟩
          · exact Nat.le_refl _
          · exact absurd (eq_nil_of_splitField?_eq_none hnone more v' hmore) hv'
        · cases h

/-- A line is cut exactly as it gives a value to a key. -/
theorem splitField?_eq_some {line key v : List Char} :
    splitField? line = some (key, v) ↔ Gives line key v := by
  refine ⟨gives_of_splitField?, fun h => ?_⟩
  cases hsplit : splitField? line with
  | none => exact absurd (eq_nil_of_splitField?_eq_none hsplit key v h.cut) h.followed
  | some found =>
      obtain ⟨hkey, hv⟩ := (gives_of_splitField? hsplit).unique h
      rw [← hkey, ← hv]

theorem splitField?_eq_none {line : List Char} :
    splitField? line = none ↔ ∀ key v, ¬Gives line key v := by
  rw [Option.eq_none_iff_forall_ne_some]
  exact ⟨fun h key v hgives => h (key, v) (splitField?_eq_some.mpr hgives),
    fun h found hfound => h found.1 found.2 (splitField?_eq_some.mp hfound)⟩

/-! ### Blocks -/

/-- The key of the lines that close a block. -/
def closing : List Char := "progress".toList

/-- What lines inside a block give, in order. -/
inductive Tells : List (List Char) → List (Option String × Value) → Prop
  | nil : Tells [] []
  | entry {line key v : List Char} {rest : List (List Char)}
      {entries : List (Option String × Value)} (gives : Gives line key v) (inside : key ≠ closing)
      (more : Tells rest entries) :
      Tells (line :: rest) ((keyOf key, value (String.ofList v)) :: entries)
  /-- A line that gives nothing says nothing. -/
  | silent {line : List Char} {rest : List (List Char)} {entries : List (Option String × Value)}
      (gives : ∀ key v, ¬Gives line key v) (more : Tells rest entries) :
      Tells (line :: rest) entries

/-- The status that entries make: the keys in the order in which they come first, each with the value
given last. -/
def statusOf (entries : List (Option String × Value)) : Status :=
  (entries.map Prod.fst).eraseDups.filterMap fun key => (Dict.last? entries key).map (key, ·)

/-- The blocks of the lines of a report. -/
inductive Reports : List (List Char) → List Block → Prop
  /-- No block is closed by lines that are all inside one. -/
  | rest {lines : List (List Char)} {entries : List (Option String × Value)}
      (tells : Tells lines entries) : Reports lines []
  | block {inside rest : List (List Char)} {entries : List (Option String × Value)}
      {line v : List Char} {blocks : List Block} (tells : Tells inside entries)
      (closes : Gives line closing v) (more : Reports rest blocks) :
      Reports (inside ++ line :: rest)
        (⟨statusOf entries, decide (Text.trim (String.ofList v) = "end")⟩ :: blocks)

/-- The lines of any report make blocks. -/
theorem exists_reports (lines : List (List Char)) : ∃ blocks, Reports lines blocks := by
  induction lines with
  | nil => exact ⟨[], .rest .nil⟩
  | cons line rest ih =>
      obtain ⟨blocks, hblocks⟩ := ih
      cases hsplit : splitField? line with
      | none =>
          have hnone := splitField?_eq_none.mp hsplit
          cases hblocks with
          | rest tells => exact ⟨[], .rest (.silent hnone tells)⟩
          | block tells closes more => exact ⟨_, .block (.silent hnone tells) closes more⟩
      | some found =>
          have hgives := gives_of_splitField? hsplit
          by_cases hclosing : found.1 = closing
          · rw [hclosing] at hgives
            exact ⟨_, .block .nil hgives hblocks⟩
          · cases hblocks with
            | rest tells => exact ⟨[], .rest (.entry hgives hclosing tells)⟩
            | block tells closes more =>
                exact ⟨_, .block (.entry hgives hclosing tells) closes more⟩

/-! ### Reading a line -/

variable {answer : Nat → Answer}

theorem read_silent {line : List Char} (h : ∀ key v, ¬Gives line key v) (m : Monitor) :
    m.read answer line = m := by
  simp only [Monitor.read, splitField?_eq_none.mpr h]

theorem read_entry {line key v : List Char} (h : Gives line key v) (inside : key ≠ closing)
    (m : Monitor) : m.read answer line =
      { m with status := Dict.put m.status (keyOf key) (value (String.ofList v)) } := by
  have hother : ¬(key == "progress".toList) = true := fun hsame => inside (eq_of_beq hsame)
  simp only [Monitor.read, splitField?_eq_some.mpr h, if_neg hother]

theorem read_closing {line v : List Char} (h : Gives line closing v) (m : Monitor) :
    m.read answer line = m.tell answer (decide (Text.trim (String.ofList v) = "end")) := by
  have hsame : (closing == "progress".toList) = true := beq_self_eq_true _
  simp only [Monitor.read, splitField?_eq_some.mpr h, if_pos hsame]
  rfl

/-- A block is told and over whatever the listener answers. -/
theorem tell_spec (m : Monitor) (done : Bool) :
    (m.tell answer done).told = m.told ++ [⟨m.status, done⟩] ∧
      (m.tell answer done).status = [] := by
  unfold Monitor.tell Monitor.cancel
  dsimp only
  split
  · split <;> exact ⟨rfl, rfl⟩
  · exact ⟨rfl, rfl⟩
  · exact ⟨rfl, rfl⟩

/-- The lines of one block only set what is known of it. -/
theorem Tells.foldl_read {lines : List (List Char)} {entries : List (Option String × Value)}
    (h : Tells lines entries) : ∀ m : Monitor,
      lines.foldl (Monitor.read answer) m = { m with status := Dict.update m.status entries } := by
  induction h with
  | nil => exact fun _ => rfl
  | entry gives inside more ih =>
      intro m
      rw [List.foldl_cons, read_entry gives inside, ih]
      simp only [Dict.update, List.foldl_cons]
  | silent gives more ih =>
      intro m
      rw [List.foldl_cons, read_silent gives, ih]

/-- From the beginning of a block on, the listener is told the blocks one after the other. -/
theorem Reports.told {lines : List (List Char)} {blocks : List Block} (h : Reports lines blocks) :
    ∀ m : Monitor, m.status = [] →
      (lines.foldl (Monitor.read answer) m).told = m.told ++ blocks := by
  induction h with
  | rest tells =>
      intro m _
      rw [tells.foldl_read, List.append_nil]
  | @block inside rest entries line v blocks tells closes more ih =>
      intro m hbegin
      have hstatus : Dict.update m.status entries = statusOf entries := by
        rw [hbegin]
        exact Dict.ofList_eq entries
      rw [List.foldl_append, tells.foldl_read, List.foldl_cons, read_closing closes, hstatus]
      obtain ⟨htold, hover⟩ := @tell_spec answer { m with status := statusOf entries }
        (decide (Text.trim (String.ofList v) = "end"))
      rw [ih _ hover, htold, List.append_assoc]
      rfl

/-! ### Cancelling -/

/-- The work is cancelled once if that is possible and the listener has asked for it, and is not
cancelled otherwise; then it can be still. -/
structure Settled (answer : Nat → Answer) (canCancel : Bool) (m : Monitor) : Prop where
  cancelled : m.cancellations = 1 ↔
    canCancel = true ∧ ∃ number < m.told.length, answer number = .cancel
  once : m.cancellations ≤ 1
  still : m.canCancel = true ↔ canCancel = true ∧ m.cancellations = 0

variable {canCancel : Bool}

theorem Settled.begin : Settled answer canCancel { canCancel } where
  cancelled := by simp
  once := Nat.zero_le 1
  still := by simp

/-- A block at which the listener does not ask to cancel settles nothing. -/
theorem Settled.of_other {m m' : Monitor} {block : Block} (h : Settled answer canCancel m)
    (htold : m'.told = m.told ++ [block]) (hother : answer m.told.length ≠ .cancel)
    (hcount : m'.cancellations = m.cancellations) (hcan : m'.canCancel = m.canCancel) :
    Settled answer canCancel m' := by
  refine ⟨?_, hcount ▸ h.once, hcount ▸ hcan ▸ h.still⟩
  rw [hcount, h.cancelled, htold, List.length_append, List.length_singleton]
  refine and_congr_right fun _ => exists_congr fun number => ?_
  constructor
  · rintro ⟨hlt, hasks⟩
    exact ⟨Nat.lt_succ_of_lt hlt, hasks⟩
  · rintro ⟨hlt, hasks⟩
    rcases Nat.lt_succ_iff_lt_or_eq.mp hlt with hbefore | rfl
    · exact ⟨hbefore, hasks⟩
    · exact absurd hasks hother

/-- When the listener asks to cancel, the work is cancelled unless it was before. -/
theorem Settled.cancel {m : Monitor} {told : List Block} {status : Status}
    (h : Settled answer canCancel m) (hasked : ∃ number < told.length, answer number = .cancel) :
    Settled answer canCancel (Monitor.cancel { m with status, told }) := by
  unfold Monitor.cancel
  split
  · rename_i hcan
    obtain ⟨hable, hzero⟩ := h.still.mp hcan
    refine ⟨?_, ?_, ?_⟩
    · simp [hzero, hable, hasked]
    · simp [hzero]
    · simp
  · rename_i hcan
    refine ⟨?_, h.once, h.still⟩
    have hdone : canCancel = true → m.cancellations = 1 := by
      intro hable
      have hsome : m.cancellations ≠ 0 := fun hzero => hcan (h.still.mpr ⟨hable, hzero⟩)
      have := h.once
      omega
    constructor
    · intro hone
      exact ⟨(h.cancelled.mp hone).1, hasked⟩
    · exact fun hable => hdone hable.1

theorem Settled.read {m : Monitor} (h : Settled answer canCancel m) (line : List Char) :
    Settled answer canCancel (m.read answer line) := by
  unfold Monitor.read
  split
  · exact h
  · split
    · unfold Monitor.tell
      dsimp only
      split
      · rename_i hcancel
        exact h.cancel ⟨m.told.length, by simp, hcancel⟩
      · rename_i hgoOn
        exact h.of_other rfl (by simp [hgoOn]) rfl rfl
      · rename_i hfailure
        exact h.of_other rfl (by simp [hfailure]) rfl rfl
    · exact ⟨h.cancelled, h.once, h.still⟩

theorem settled_foldl (lines : List (List Char)) :
    ∀ {m : Monitor}, Settled answer canCancel m →
      Settled answer canCancel (lines.foldl (Monitor.read answer) m) := by
  induction lines with
  | nil => exact fun h => h
  | cons line rest ih => exact fun h => ih (h.read line)

/-! ### Whole reports -/

/-- **The listener is told each block once and in order, and the work is cancelled once at most.**
Whatever the listener makes of the blocks, it is told those of the report and nothing else.  The work
is cancelled exactly once if that is possible and the listener asks for it at one of these blocks, and
not at all otherwise. -/
theorem blocks_told_in_order (answer : Nat → Answer) (canCancel : Bool) (report : String) :
    (∀ blocks, (monitor answer canCancel report).told = blocks ↔
      Reports ((Text.uniformLineEnds report.toList).splitOn '\n') blocks) ∧
    ((monitor answer canCancel report).cancellations = 1 ↔ canCancel = true ∧
      ∃ number < (monitor answer canCancel report).told.length, answer number = .cancel) ∧
    (monitor answer canCancel report).cancellations ≤ 1 := by
  have hlines : lines report = (Text.uniformLineEnds report.toList).splitOn '\n' :=
    Text.splitOnClass_eq '\n' _
  have hsettled := settled_foldl (lines report) (@Settled.begin answer canCancel)
  have htold : ∀ blocks, Reports (lines report) blocks →
      (monitor answer canCancel report).told = blocks := fun blocks h => h.told _ rfl
  refine ⟨fun blocks => ?_, hsettled.cancelled, hsettled.once⟩
  rw [← hlines]
  constructor
  · rintro rfl
    obtain ⟨blocks, hblocks⟩ := exists_reports (lines report)
    rw [htold blocks hblocks]
    exact hblocks
  · exact htold blocks

/-- A listener that fails at the first block and asks to cancel at both others is told all three, and
the work is cancelled once. -/
example :
    let m := monitor (Listener.answer ⟨[1, 2], [0]⟩) true
      "a=1\nprogress=continue\nb=2\nb=x=3\nprogress=continue\nnothing\nprogress= end\nc=4";
    m.told.map (fun b => (b.status.map Prod.fst, b.done))
      = [([some "a"], false), ([some "b", some "b=x"], false), ([], true)] ∧ m.cancellations = 1 := by
  decide

end MediaCommand.Progress
