/-
Graphs attached to outputs.

A graph that a command applies to one output is recorded twice.  The command notes the graph with the
output, and leaves the graph out of its complex filter because of that; the output is given the graph as
its option `filter`, and writes whatever that option holds.  An option holds one thing at a time, so a
graph attached to an output displaces the one attached before, by whichever command, and the note of that
one stays.

What the option holds is therefore told by the calls: it is the graph that was attached last, as long as
the option is not set by hand and did not come with a copy.  What a command notes is told by the command
alone: it takes in no graph and no output twice, and notes a graph once, as it takes it in.  Only a copied
command starts with notes about graphs that are not its own.
-/
import MediaCommand.Proofs.Building

namespace MediaCommand

/-! ### The option that holds the filter -/

/-- What options hold under `filter`. -/
def filtersGiven (options : List (String × Value)) : List Value :=
  (options.filter fun e => e.1 == "filter").map (·.2)

theorem filtersGiven_cons_self (v : Value) (rest : List (String × Value)) :
    filtersGiven (("filter", v) :: rest) = v :: filtersGiven rest := rfl

theorem filtersGiven_cons_ne {key : String} (h : key ≠ "filter") (v : Value)
    (rest : List (String × Value)) : filtersGiven ((key, v) :: rest) = filtersGiven rest := by
  simp [filtersGiven, h]

/-- Setting the filter leaves one, in the place of the one that was there. -/
theorem filtersGiven_put (v : Value) {options : List (String × Value)} :
    (filtersGiven options).length ≤ 1 → filtersGiven (Dict.put options "filter" v) = [v] := by
  induction options with
  | nil => exact fun _ => rfl
  | cons entry rest ih =>
      intro h
      obtain ⟨key, old⟩ := entry
      by_cases hkey : key = "filter"
      · subst hkey
        rw [filtersGiven_cons_self, List.length_cons] at h
        have hnone : filtersGiven rest = [] := List.length_eq_zero_iff.mp (by omega)
        simp [Dict.put, filtersGiven_cons_self, hnone]
      · rw [filtersGiven_cons_ne hkey] at h
        simp [Dict.put, hkey, filtersGiven_cons_ne hkey, ih h]

theorem filtersGiven_put_ne {key : String} (h : key ≠ "filter") (v : Value)
    (options : List (String × Value)) :
    filtersGiven (Dict.put options key v) = filtersGiven options := by
  induction options with
  | nil => exact filtersGiven_cons_ne h v []
  | cons entry rest ih =>
      obtain ⟨key', old⟩ := entry
      by_cases hkey : key' = key
      · subst hkey
        simp [Dict.put, filtersGiven_cons_ne h]
      · by_cases hfilter : key' = "filter"
        · subst hfilter
          simp [Dict.put, hkey, filtersGiven_cons_self, ih]
        · simp [Dict.put, hkey, filtersGiven_cons_ne hfilter, ih]

/-- Options that name no filter leave the filter. -/
theorem filtersGiven_update {more : List (String × Value)} :
    ∀ {options : List (String × Value)}, (more.any fun e => e.1 == "filter") = false →
      filtersGiven (Dict.update options more) = filtersGiven options := by
  induction more with
  | nil => exact fun _ => rfl
  | cons entry rest ih =>
      intro options h
      rw [List.any_cons, Bool.or_eq_false_iff, beq_eq_false_iff_ne] at h
      have hrest := @ih (Dict.put options entry.1 entry.2) h.2
      exact hrest.trans (filtersGiven_put_ne h.1 entry.2 options)

theorem filtersGiven_renewOptions (new : Value) (options : List (String × Value)) :
    filtersGiven (Objects.renewOptions new options) =
      (filtersGiven options).map (·.renewed new) := by
  induction options with
  | nil => rfl
  | cons entry rest ih =>
      obtain ⟨key, old⟩ := entry
      show filtersGiven ((key, old.renewed new) :: Objects.renewOptions new rest) = _
      by_cases hkey : key = "filter"
      · subst hkey
        rw [filtersGiven_cons_self, filtersGiven_cons_self, ih, List.map_cons]
      · rw [filtersGiven_cons_ne hkey, filtersGiven_cons_ne hkey, ih]

theorem Value.renewed_object (x : Object) (new : Value) :
    (Value.object x).renewed new = .object x := by
  unfold Value.renewed
  split <;> rfl

namespace Objects

variable {o o' : Objects}

/-! ### What calls do to it -/

/-- What an output holds as its filter. -/
def filterValues (o : Objects) (output : OutputId) : List Value :=
  ((o.output? output).map fun out => filtersGiven out.options).getD []

/-- The filter of an output is a graph, or it has none. -/
def Filtered (o : Objects) (output : OutputId) (g? : Option GraphId) : Prop :=
  o.filterValues output = g?.toList.map fun g => .object (.graph g)

/-- Whether options that a caller gives name a filter. -/
def givesFilter (o : Objects) (options : Value) : Bool :=
  match o.fileOptions options with
  | .ok entries => entries.any fun e => e.1 == "filter"
  | .error _ => false

/-- Whether a call sets the filter of an output by hand, or makes the output with one. -/
def setsFilter (o : Objects) (output : OutputId) (call : Call) : Bool :=
  match call with
  | .act (.addOutputOptions id options) => id == output && o.givesFilter options
  | .act (.newOutput _ _) | .act (.copy _) =>
    (o.output? output).isNone && !((o.afterCall call).filterValues output).isEmpty
  | _ => false

/-- The graph that a call attaches to an output. -/
def attachedBy (o : Objects) (output : OutputId) (call : Call) : Option GraphId :=
  match call with
  | .act (.addGraph command graph (.object (.output target))) =>
    match o.commandAddGraph command graph (.object (.output target)) with
    | .ok (_, g) => if target = output then some g else none
    | .error _ => none
  | _ => none

/-- Whether one of several calls sets the filter of an output by hand, or makes the output with one. -/
def filterSet (o : Objects) (output : OutputId) : List Call → Bool
  | [] => false
  | call :: rest => o.setsFilter output call || (o.afterCall call).filterSet output rest

/-- The graph that calls attach to an output last. -/
def lastAttached (o : Objects) (output : OutputId) : List Call → Option GraphId
  | [] => none
  | call :: rest => ((o.afterCall call).lastAttached output rest).or (o.attachedBy output call)

theorem filterValues_of_output? {output : OutputId} {out : Output}
    (h : o.output? output = some out) : o.filterValues output = filtersGiven out.options := by
  simp only [filterValues, h, Option.map_some, Option.getD_some]

theorem filterValues_none {output : OutputId} (h : o.output? output = none) :
    o.filterValues output = [] := by
  simp only [filterValues, h, Option.map_none, Option.getD_none]

/-- Outputs with the same options have the same filters. -/
theorem filterValues_of_options (h : o'.outputs.map Output.options = o.outputs.map Output.options)
    (output : OutputId) : o'.filterValues output = o.filterValues output := by
  have hof : ∀ ox : Objects, ox.filterValues output =
      ((ox.outputs.map Output.options)[output.index]?.map filtersGiven).getD [] := by
    intro ox
    rw [List.getElem?_map, Option.map_map]
    rfl
  rw [hof, hof, h]

namespace Filtered

variable {output : OutputId} {g? : Option GraphId}

theorem of_outputs (h : o.Filtered output g?) (hsame : o'.outputs = o.outputs) :
    o'.Filtered output g? :=
  (filterValues_of_options (congrArg (List.map Output.options) hsame) output).trans h

theorem length_le_one (h : o.Filtered output g?) : (o.filterValues output).length ≤ 1 := by
  rw [h, List.length_map]
  cases g? <;> simp

/-- A filter that is there is none of a missing output. -/
theorem eq_none (h : o.Filtered output g?) (hnone : o.output? output = none) : g? = none := by
  rw [Filtered, filterValues_none hnone] at h
  cases g? with
  | none => rfl
  | some g => cases h

/-- Outputs that are made without a filter have none, and the others keep theirs. -/
theorem made (h : o.Filtered output g?)
    (hkept : ∀ out, o.output? output = some out → o'.output? output = some out)
    (hfree : ((o.output? output).isNone && !(o'.filterValues output).isEmpty) = false) :
    o'.Filtered output g? := by
  cases hout : o.output? output with
  | none =>
      rw [hout, Option.isNone_none, Bool.true_and, Bool.not_eq_false'] at hfree
      rw [h.eq_none hout]
      exact List.isEmpty_iff.mp hfree
  | some out =>
      rw [Filtered, filterValues_of_output? (hkept out hout), ← filterValues_of_output? hout]
      exact h

/-- What is done to the options of one output leaves the filters of the others. -/
theorem setOutput_ne {id : OutputId} {out : Output} (h : o.Filtered output g?)
    (hne : id ≠ output) : (o.setOutput id out).Filtered output g? := by
  have hother : (o.setOutput id out).output? output = o.output? output :=
    List.getElem?_set_ne (Id.index_ne hne)
  rw [Filtered, filterValues, hother]
  exact h

theorem addOutputOptions {id : OutputId} {options : Value} (h : o.Filtered output g?)
    (hfree : (id == output && o.givesFilter options) = false)
    (hdone : o.addOutputOptions id options = .ok o') : o'.Filtered output g? := by
  obtain ⟨out, hout, hdone⟩ := bind_ok.mp hdone
  obtain ⟨more, hmore, hdone⟩ := bind_ok.mp hdone
  cases hdone
  by_cases hid : id = output
  · subst hid
    rw [beq_self_eq_true, Bool.true_and, givesFilter, hmore] at hfree
    have hset : (o.setOutput id { out with options := Dict.update out.options more }).output? id
        = some { out with options := Dict.update out.options more } :=
      getElem?_set_eq_of_some _ (output_ok.mp hout)
    rw [Filtered, filterValues_of_output? hset, filtersGiven_update hfree,
      ← filterValues_of_output? (output_ok.mp hout)]
    exact h
  · exact h.setOutput_ne hid

/-- Recording touches the maps of an output and not its options. -/
theorem recorded (h : o.Filtered output g?) (r : Recorded o o') : o'.Filtered output g? := by
  cases r with
  | refused => exact h
  | done hc hout opens hcommands houtputs specifiers =>
      rename_i command c c' id out o₁
      refine (filterValues_of_options ?_ output).trans h
      show (o₁.outputs.set id.index (out.withMaps specifiers)).map Output.options = _
      rw [houtputs]
      exact map_set_eq hout rfl

theorem renew (h : o.Filtered output g?) (new : Value) : (o.renew new).Filtered output g? := by
  have hrenewed : (o.renew new).filterValues output =
      (o.filterValues output).map (·.renewed new) := by
    have hout : (o.renew new).output? output = (o.output? output).map fun out =>
        { out with options := renewOptions new out.options } := List.getElem?_map
    unfold filterValues
    rw [hout]
    cases o.output? output with
    | none => rfl
    | some out => exact filtersGiven_renewOptions new out.options
  rw [Filtered, hrenewed, h, List.map_map]
  exact List.map_congr_left fun g _ => Value.renewed_object (.graph g) new

end Filtered

/-! ### Attaching -/

/-- The graph that an output is given displaces whatever it had; other outputs keep theirs. -/
theorem Filtered.adopts {output : OutputId} {g? : Option GraphId} {command : CommandId}
    {g : GraphId} {target : Option OutputId} (h : o.Filtered output g?)
    (adopts : Adopts o command g target o') :
    o'.Filtered output (if target = some output then some g else g?) := by
  cases adopts with
  | whole hc new => exact h.of_outputs rfl
  | output hc new hout =>
      rename_i c target out
      by_cases htarget : target = output
      · subst htarget
        rw [if_pos rfl]
        let out' : Output :=
          { out with options := Dict.put out.options "filter" (.object (.graph g)) }
        have hset : (o.setOutput target out').output? target = some out' :=
          getElem?_set_eq_of_some out' hout
        have hone : (filtersGiven out.options).length ≤ 1 := by
          rw [← filterValues_of_output? hout]
          exact h.length_le_one
        have hgiven : (o.setOutput target out').Filtered target (some g) :=
          (filterValues_of_output? hset).trans (filtersGiven_put _ hone)
        exact hgiven.of_outputs rfl
      · rw [if_neg fun heq => htarget (Option.some.inj heq)]
        exact (h.setOutput_ne htarget).of_outputs rfl

/-! ### What a command notes -/

end Objects

/-- A command has each graph and each output once, and notes a graph for one output at most. -/
structure Command.Tidy (c : Command) : Prop where
  graphs : c.graphs.Nodup
  outputs : c.outputs.Nodup
  attached : (c.attached.map Prod.fst).Sublist c.graphs

theorem Command.Fresh.tidy {c : Command} (h : c.Fresh) : c.Tidy := by
  constructor
  · rw [h.graphs]
    exact List.nodup_nil
  · rw [h.outputs]
    exact List.nodup_nil
  · rw [h.attached, h.graphs]
    exact List.Sublist.refl []

/-- A tidy command may take in one more graph, with a note of its output or without. -/
theorem Command.Tidy.adopt {c : Command} (h : c.Tidy) {g : GraphId} (new : g ∉ c.graphs)
    (targets : Option OutputId) :
    { c with
      graphs := c.graphs ++ [g]
      attached := c.attached ++ targets.toList.map (g, ·) : Command }.Tidy := by
  refine ⟨?_, h.outputs, ?_⟩
  · show (c.graphs ++ [g]).Nodup
    rw [← List.concat_eq_append]
    exact h.graphs.concat new
  · show ((c.attached ++ targets.toList.map (g, ·)).map Prod.fst).Sublist (c.graphs ++ [g])
    rw [List.map_append]
    refine h.attached.append ?_
    cases targets with
    | none => exact List.nil_sublist _
    | some output => exact List.Sublist.refl [g]

theorem Command.Tidy.opens {c c' : Command} {output : OutputId} (h : c.Tidy)
    (opens : Objects.Opens c output c') : c'.Tidy := by
  cases opens with
  | listed => exact h
  | added hnew =>
      refine ⟨h.graphs, ?_, h.attached⟩
      show (c.outputs ++ [output]).Nodup
      rw [← List.concat_eq_append]
      exact h.outputs.concat hnew

namespace Objects

variable {o o' : Objects}

/-- There is such a tidy command. -/
def Tidy (o : Objects) (command : CommandId) : Prop :=
  ∃ c, o.command? command = some c ∧ c.Tidy

namespace Tidy

variable {command : CommandId}

theorem of_commands (h : o.Tidy command) (hsame : o'.commands = o.commands) : o'.Tidy command := by
  obtain ⟨c, hc, tidy⟩ := h
  refine ⟨c, ?_, tidy⟩
  rw [command?, hsame]
  exact hc

/-- Commands that are added change none of those that are there. -/
theorem of_append (h : o.Tidy command) {more : List Command}
    (hmore : o'.commands = o.commands ++ more) : o'.Tidy command := by
  obtain ⟨c, hc, tidy⟩ := h
  obtain ⟨hlt, -⟩ := List.getElem?_eq_some_iff.mp hc
  refine ⟨c, ?_, tidy⟩
  rw [command?, hmore, List.getElem?_append_left hlt]
  exact hc

/-- A command may be exchanged for one that is tidy if it was. -/
theorem setCommand (h : o.Tidy command) {m : CommandId} {c c' : Command}
    (hc : o.command? m = some c) (htidy : c.Tidy → c'.Tidy) : (o.setCommand m c').Tidy command := by
  obtain ⟨x, hx, tidy⟩ := h
  by_cases hsame : command = m
  · subst hsame
    obtain rfl : c = x := Option.some.inj (hc.symm.trans hx)
    exact ⟨c', getElem?_set_eq_of_some c' hc, htidy tidy⟩
  · have hother : (o.setCommand m c').command? command = o.command? command :=
      List.getElem?_set_ne (Id.index_ne hsame).symm
    exact ⟨x, hother.trans hx, tidy⟩

theorem adopts {m : CommandId} {g : GraphId} {target : Option OutputId} (h : o.Tidy command)
    (adopts : Adopts o m g target o') : o'.Tidy command := by
  cases adopts with
  | whole hc new =>
      refine h.setCommand hc fun tidy => ?_
      have htaken := tidy.adopt new none
      rwa [Option.toList_none, List.map_nil, List.append_nil] at htaken
  | output hc new hout =>
      rename_i c target out
      exact (h.of_commands rfl).setCommand hc fun tidy => tidy.adopt new (some target)

theorem recorded (h : o.Tidy command) (r : Recorded o o') : o'.Tidy command := by
  cases r with
  | refused => exact h
  | done hc hout opens hcommands houtputs specifiers =>
      rename_i m c c' id out o₁
      have h₁ : o₁.Tidy command := h.of_commands hcommands
      have hc₁ : o₁.command? m = some c := by
        rw [command?, hcommands]
        exact hc
      have hset : (o₁.setCommand m (c'.withMaps id out.maps.length specifiers)).Tidy command :=
        h₁.setCommand hc₁ fun tidy =>
          let opened := tidy.opens opens
          ⟨opened.graphs, opened.outputs, opened.attached⟩
      exact hset.of_commands rfl

theorem renew (h : o.Tidy command) (new : Value) : (o.renew new).Tidy command := by
  obtain ⟨c, hc, tidy⟩ := h
  refine ⟨{ c with options := c.options.map fun e => (e.1, e.2.renewed new) }, ?_,
    tidy.graphs, tidy.outputs, tidy.attached⟩
  show (o.commands.map _)[command.index]? = _
  rw [List.getElem?_map, show o.commands[command.index]? = some c from hc]
  rfl

end Tidy

/-! ### Calls -/

/-- What a call leaves behind: one that builds or is refused reaches neither outputs nor commands, and
each of the others reaches them in a way of its own. -/
inductive Leaves (o : Objects) : Call → Objects → Prop
  | builds {call : Call} {o' : Objects} (h : Builds o o')
      (attaches : ∀ output, o.attachedBy output call = none) : Leaves o call o'
  | output {url options : Value} (out : Output) :
      Leaves o (.act (.newOutput url options)) (o.addOutput out).1
  | command {options : Value} {executable : Option String} {c : Command} (fresh : c.Fresh) :
      Leaves o (.act (.newCommand options executable)) (o.addCommand c).1
  | options {id : OutputId} {options : Value} {o' : Objects}
      (h : o.addOutputOptions id options = .ok o') :
      Leaves o (.act (.addOutputOptions id options)) o'
  | input {command : CommandId} {input : Value} {c : Command} (id : InputId) (i : Input)
      (hc : o.command? command = some c) :
      Leaves o (.act (.addInput command input))
        ((o.setInput id i).setCommand command { c with inputs := c.inputs ++ [id] })
  | graph {command : CommandId} {graph onOutput : Value} {g : GraphId} {o' : Objects}
      (h : o.commandAddGraph command graph onOutput = .ok (o', g)) :
      Leaves o (.act (.addGraph command graph onOutput)) o'
  | records {a : Action} {o' : Objects} (ha : a.records = true) (recorded : Recorded o o')
      (named : o.Named → o'.Named) : Leaves o (.act a) o'
  | copies {v : Value} (m : Members) : Leaves o (.act (.copy v)) (o.withCopies m)
  | renews {list items : Value} (new : Value) : Leaves o (.extendList list items) (o.renew new)

/-- A call that was refused leaves everything. -/
theorem Leaves.refused {call : Call} (h : ∀ output, o.attachedBy output call = none) :
    Leaves o call o := .builds (.refl o) h

/-- What a call that makes an object leaves, said of what it makes. -/
theorem leaves_made {α : Type} {toObject : α → Object} {r : Except Error (Objects × α)}
    {call : Call} (refused : ∀ e, r = .error e → ∀ output, o.attachedBy output call = none)
    (h : ∀ o' a, r = .ok (o', a) → Leaves o call o') :
    Leaves o call (Outcome.ofExcept o (made toObject r)).objects := by
  cases r with
  | error e => exact .refused (refused e rfl)
  | ok x => exact h x.1 x.2 rfl

theorem perform_leaves (hs : Sound o) (a : Action) : Leaves o (.act a) (o.perform a).objects := by
  cases hbuilds : a.builds with
  | true =>
      refine .builds (perform_builds hs hbuilds) fun output => ?_
      cases a <;> first | rfl | cases hbuilds
  | false =>
      cases a with
      | newOutput url options =>
          refine leaves_made (fun _ _ _ => rfl) fun o' id h => ?_
          obtain ⟨out, rfl⟩ := newOutput_ok h
          exact .output out
      | newCommand options executable =>
          refine leaves_made (fun _ _ _ => rfl) fun o' id h => ?_
          obtain ⟨c, fresh, rfl, -⟩ := newCommand_ok h
          exact .command fresh
      | copy v =>
          rcases perform_copy o v with heq | ⟨m, -, heq⟩
          · rw [heq]
            exact .refused fun _ => rfl
          · rw [heq]
            exact .copies m
      | addOutputOptions id options =>
          simp only [perform]
          cases h : o.addOutputOptions id options with
          | error e => exact .refused fun _ => rfl
          | ok o' => exact .options h
      | addInput command input =>
          simp only [perform]
          cases h : o.commandAddInput command input with
          | error e => exact .refused fun _ => rfl
          | ok x =>
              have hadded : o.commandAddInput command input = .ok (x.1, x.2) := h
              obtain ⟨c, id, i, hc, heq⟩ := commandAddInput_ok hadded
              show Leaves o _ x.1
              rw [heq]
              exact .input id i hc
      | addGraph command graph onOutput =>
          refine leaves_made (fun e h output => ?_) fun o' g h => .graph h
          unfold attachedBy
          split
          · rename_i heq
            cases heq
            rw [h]
          · rfl
      | addOutput command output mappings =>
          exact .records rfl (commandAddOutput_recorded hs command output mappings)
            fun named => named.commandAddOutput hs command output mappings
      | map command output source index =>
          exact .records rfl (commandMap_recorded hs command output source index)
            fun named => named.commandMap hs command output source index
      | _ => cases hbuilds

theorem afterCall_leaves (hs : Sound o) (call : Call) : Leaves o call (o.afterCall call) := by
  cases call with
  | act a => exact perform_leaves hs a
  | keep v => exact .builds (.of_lists rfl rfl rfl rfl) fun _ => rfl
  | extendList list items =>
      simp only [afterCall]
      split
      · rename_i o' v h
        unfold extendList at h
        split at h
        · obtain ⟨more, -, h⟩ := bind_ok.mp h
          cases h
          exact .renews _
        · cases h
      · exact .refused fun _ => rfl

/-! ### What every call keeps -/

section Leaves

variable {call : Call}

theorem attachedBy_addGraph {command : CommandId} {graph onOutput : Value} {g : GraphId}
    {target : Option OutputId} (h : o.commandAddGraph command graph onOutput = .ok (o', g))
    (htarget : o.graphTarget onOutput = .ok target) (output : OutputId) :
    o.attachedBy output (.act (.addGraph command graph onOutput)) =
      if target = some output then some g else none := by
  unfold graphTarget at htarget
  split at htarget
  · cases htarget
    rfl
  · cases htarget
    simp only [attachedBy, h, Option.some.injEq]
  · cases htarget

theorem Leaves.named (leaves : Leaves o call o') (h : Named o) : Named o' := by
  cases leaves with
  | builds builds => exact builds.named h
  | output | command | input => exact h.of_lists rfl rfl
  | options hdone =>
      obtain ⟨out, rfl⟩ := addOutputOptions_ok hdone
      exact h.of_lists rfl rfl
  | graph hdone =>
      obtain ⟨target, -, adopts⟩ := commandAddGraph_ok hdone
      cases adopts <;> exact h.of_lists rfl rfl
  | records ha recorded named => exact named h
  | copies m => exact h.withCopies m
  | renews new => exact h.renew new

theorem Leaves.tidy {command : CommandId} (leaves : Leaves o call o') (h : o.Tidy command) :
    o'.Tidy command := by
  cases leaves with
  | builds builds => exact h.of_commands builds.commands
  | output => exact h.of_commands rfl
  | command => exact h.of_append rfl
  | options hdone =>
      obtain ⟨out, rfl⟩ := addOutputOptions_ok hdone
      exact h.of_commands rfl
  | input id i hc =>
      exact (h.of_commands rfl).setCommand hc fun tidy => ⟨tidy.graphs, tidy.outputs, tidy.attached⟩
  | graph hdone =>
      obtain ⟨target, -, adopts⟩ := commandAddGraph_ok hdone
      exact h.adopts adopts
  | records ha recorded => exact h.recorded recorded
  | copies m => exact h.of_append rfl
  | renews new => exact h.renew new

/-- The filter of an output is the graph that the call attaches to it, or else what it was. -/
theorem Filtered.afterCall {output : OutputId} {g? : Option GraphId} (h : o.Filtered output g?)
    (hs : Sound o) (hfree : o.setsFilter output call = false) :
    (o.afterCall call).Filtered output ((o.attachedBy output call).or g?) := by
  have leaves := afterCall_leaves hs call
  generalize hafter : o.afterCall call = o' at leaves ⊢
  cases leaves with
  | builds builds attaches =>
      rw [attaches output]
      exact h.of_outputs builds.outputs
  | command | input => exact h.of_outputs rfl
  | output out =>
      exact h.made (fun x hx => getElem?_append_of_some _ hx) (hafter ▸ hfree)
  | options hdone => exact h.addOutputOptions hfree hdone
  | graph hdone =>
      obtain ⟨target, htarget, adopts⟩ := commandAddGraph_ok hdone
      rw [attachedBy_addGraph hdone htarget]
      have hgiven : o'.Filtered output (if target = some output then some _ else g?) :=
        h.adopts adopts
      split <;> rename_i hsame
      · rwa [if_pos hsame] at hgiven
      · rwa [if_neg hsame] at hgiven
  | records ha recorded named =>
      rename_i a
      have hnone : o.attachedBy output (.act a) = none := by
        cases a <;> first | rfl | cases ha
      rw [hnone]
      exact h.recorded recorded
  | copies m => exact h.made (fun x hx => getElem?_append_of_some _ hx) (hafter ▸ hfree)
  | renews new => exact h.renew new

end Leaves

/-! ### Sessions -/

/-- What every call keeps, a session keeps. -/
theorem afterCalls_keep {I : Objects → Prop}
    (hI : ∀ {o o' : Objects} {call : Call}, Leaves o call o' → I o → I o') (calls : List Call) :
    ∀ {o : Objects}, Sound o → I o → I (o.afterCalls calls) := by
  induction calls with
  | nil => exact fun _ h => h
  | cons call rest ih =>
      intro o hs h
      exact ih (hs.afterCall call).1 (hI (afterCall_leaves hs call) h)

/-- No session has a filter without a name. -/
theorem named_afterCalls (calls : List Call) : Named (afterCalls {} calls) :=
  afterCalls_keep Leaves.named calls sound_empty ⟨by simp, by simp⟩

/-- A command was made in the course of a session, and not as a copy. -/
def MadeBy (calls : List Call) (command : CommandId) : Prop :=
  ∃ before options executable after o',
    calls = before ++ .act (.newCommand options executable) :: after ∧
      (afterCalls {} before).newCommand options executable = .ok (o', command)

/-- A command that is no copy is tidy from the beginning, and stays so. -/
theorem MadeBy.tidy {calls : List Call} {command : CommandId} (h : MadeBy calls command) :
    (afterCalls {} calls).Tidy command := by
  obtain ⟨before, options, executable, after, o', rfl, hmade⟩ := h
  have hs : Sound (afterCalls {} before) := (sound_empty.afterCalls before).1
  obtain ⟨c, fresh, rfl, rfl⟩ := newCommand_ok hmade
  have hcall : (afterCalls {} before).afterCall (.act (.newCommand options executable)) =
      ((afterCalls {} before).addCommand c).1 := by
    simp only [afterCall, perform, hmade]
    rfl
  have hthere : ((afterCalls {} before).addCommand c).1.Tidy ((afterCalls {} before).addCommand c).2 :=
    ⟨c, List.getElem?_concat_length, fresh.tidy⟩
  rw [afterCalls_append]
  show (((afterCalls {} before).afterCall _).afterCalls after).Tidy _
  rw [hcall]
  refine afterCalls_keep (fun leaves tidy => leaves.tidy tidy) after ?_ hthere
  rw [← hcall]
  exact (hs.afterCall _).1

/-- **The filter of an output is the graph that was attached to it last**, by whatever command, unless
somebody set the option by hand. -/
theorem filtered_afterCalls {output : OutputId} (calls : List Call) :
    ∀ {o : Objects} {g? : Option GraphId}, Sound o → o.filterSet output calls = false →
      o.Filtered output g? →
      (o.afterCalls calls).Filtered output ((o.lastAttached output calls).or g?) := by
  induction calls with
  | nil => exact fun _ _ h => h
  | cons call rest ih =>
      intro o g? hs hfree h
      obtain ⟨hcall, hrest⟩ := Bool.or_eq_false_iff.mp hfree
      have hlast := ih (hs.afterCall call).1 hrest (h.afterCall hs hcall)
      rw [lastAttached, Option.or_assoc]
      exact hlast

end Objects

end MediaCommand
