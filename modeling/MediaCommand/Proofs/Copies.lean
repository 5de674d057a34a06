/-
Copies agree with the objects that they are made from.

The copies of one kind follow the objects of that kind, in the order of the identities copied.  An
identity that is copied is turned to the place of its copy there, and any other stays.  Either way it
leads to an object that is connected like the one it led to before, so a copy is sound because the
object that it was made from is.
-/
import MediaCommand.Objects.Copy
import MediaCommand.Proofs.Sound

namespace MediaCommand.Objects

variable {o : Objects} {m : Members}

/-! ### Looking copies up -/

theorem getElem?_filterMap {α β : Type} {f : α → Option β} {l : List α} :
    (∀ x ∈ l, (f x).isSome) → ∀ i : Nat, (l.filterMap f)[i]? = l[i]?.bind f := by
  induction l with
  | nil => exact fun _ i => by simp
  | cons a rest ih =>
      intro hall i
      obtain ⟨b, hb⟩ := Option.isSome_iff_exists.mp (hall a List.mem_cons_self)
      rw [List.filterMap_cons_some hb]
      cases i with
      | zero => simp [hb]
      | succ i => simpa using ih (fun x hx => hall x (List.mem_cons_of_mem a hx)) i

/-- The identity of a copy leads to the copy, and any other to what it led to. -/
theorem getElem?_copiedIndex {k : Kind} {α : Type} {look : Id k → Option α} (copy : α → α)
    {ids : List (Id k)} (hids : ∀ id ∈ ids, (look id).isSome) {old : List α}
    (hold : ∀ id, old[id.index]? = look id) {id : Id k} {x : α} (hx : look id = some x) :
    (old ++ (ids.filterMap look).map copy)[(copiedIndex ids old.length id).index]? = some x ∨
      (old ++ (ids.filterMap look).map copy)[(copiedIndex ids old.length id).index]?
        = some (copy x) := by
  unfold copiedIndex
  split
  · rename_i i hi
    obtain ⟨hlt, hget, -⟩ := List.idxOf?_eq_some_iff.mp hi
    refine Or.inr ?_
    show (old ++ _)[old.length + i]? = _
    rw [List.getElem?_append_right (Nat.le_add_right _ _), Nat.add_sub_cancel_left,
      List.getElem?_map, getElem?_filterMap hids, List.getElem?_eq_getElem hlt, hget]
    simp [hx]
  · obtain ⟨hlt, -⟩ := List.getElem?_eq_some_iff.mp ((hold id).trans hx)
    exact Or.inl (by rw [List.getElem?_append_left hlt, hold id, hx])

/-- The chains, inputs and graphs to be copied are there. -/
structure Members.In (m : Members) (o : Objects) : Prop where
  chains : ∀ id ∈ m.chains, (o.chain? id).isSome
  inputs : ∀ id ∈ m.inputs, (o.input? id).isSome
  graphs : ∀ id ∈ m.graphs, (o.graph? id).isSome

/-- What is met on a walk and is there can be copied. -/
theorem membersOf_in (o : Objects) (xs : List Object) (hollow : List FilterId) :
    (membersOf (xs.filter o.has) hollow).In o where
  chains := fun id hid => by
    obtain ⟨x, hx, heq⟩ := List.mem_filterMap.mp hid
    cases x <;> cases heq
    exact (List.mem_filter.mp hx).2
  inputs := fun id hid => by
    obtain ⟨x, hx, heq⟩ := List.mem_filterMap.mp hid
    cases x <;> cases heq
    exact (List.mem_filter.mp hx).2
  graphs := fun id hid => by
    obtain ⟨x, hx, heq⟩ := List.mem_filterMap.mp hid
    cases x <;> cases heq
    exact (List.mem_filter.mp hx).2

/-! ### Copies are connected alike -/

theorem copyChain_last (o : Objects) (m : Members) (c : Chain) :
    (o.copyChain m c).last = o.copyFilter m c.last := by
  simp only [Chain.last, copyChain, List.getLast_map]

theorem chain?_copied (hm : m.In o) {id : ChainId} {c : Chain} (hc : o.chain? id = some c) :
    ∃ c', (o.withCopies m).chain? (copiedIndex m.chains o.chains.length id) = some c' ∧
      c'.references = c.references ∧ c'.position = c.position := by
  rcases getElem?_copiedIndex (o.copyChain m) hm.chains (fun _ => rfl) hc with h | h
  · exact ⟨c, h, rfl, rfl⟩
  · exact ⟨o.copyChain m c, h, rfl, rfl⟩

theorem input?_copied (hm : m.In o) {id : InputId} {i : Input} (hi : o.input? id = some i) :
    ∃ i', (o.withCopies m).input? (copiedIndex m.inputs o.inputs.length id) = some i' ∧
      i'.label = i.label := by
  rcases getElem?_copiedIndex (o.copyInput m) hm.inputs (fun _ => rfl) hi with h | h
  · exact ⟨i, h, rfl⟩
  · exact ⟨o.copyInput m i, h, rfl⟩

theorem graph?_copied (hm : m.In o) {id : GraphId} (hg : (o.graph? id).isSome) :
    ((o.withCopies m).graph? (copiedIndex m.graphs o.graphs.length id)).isSome := by
  obtain ⟨g, hg⟩ := Option.isSome_iff_exists.mp hg
  refine Option.isSome_iff_exists.mpr ?_
  rcases getElem?_copiedIndex _ hm.graphs (fun _ => rfl) hg with h | h
  · exact ⟨_, h⟩
  · exact ⟨_, h⟩

theorem refers_copied (hm : m.In o) {s : Source} (h : o.Refers s) :
    (o.withCopies m).Refers (o.copySource m s) := by
  cases s with
  | input id track =>
      obtain ⟨i, hi⟩ := Option.isSome_iff_exists.mp h
      obtain ⟨i', hi', -⟩ := input?_copied hm hi
      exact Option.isSome_iff_exists.mpr ⟨i', hi'⟩
  | pad id pad =>
      obtain ⟨c, hc, hpad⟩ := h
      obtain ⟨c', hc', hreferences, -⟩ := chain?_copied hm hc
      exact ⟨c', hc', hreferences ▸ hpad⟩

/-! ### Copying keeps everything, and keeps it sound -/

theorem getElem?_append_of_some {α : Type} {l : List α} {i : Nat} {x : α} (l' : List α)
    (h : l[i]? = some x) : (l ++ l')[i]? = some x := by
  obtain ⟨hlt, -⟩ := List.getElem?_eq_some_iff.mp h
  rw [List.getElem?_append_left hlt]
  exact h

theorem keeps_withCopies (o : Objects) (m : Members) : Keeps o (o.withCopies m) where
  chain := fun _ c hc => ⟨c, getElem?_append_of_some _ hc, .refl c⟩
  input := fun _ i hi => ⟨i, getElem?_append_of_some _ hi, fun _ hk => hk⟩
  graph := fun _ g hg => ⟨g, getElem?_append_of_some _ hg, List.prefix_refl _⟩
  specifiers := List.prefix_append _ _

private theorem mem_copies {α β : Type} {look : α → Option β} {copy : β → β} {old : List β}
    {ids : List α} {x : β} (hlook : ∀ a b, look a = some b → b ∈ old)
    (h : x ∈ old ++ (ids.filterMap look).map copy) : x ∈ old ∨ ∃ y ∈ old, x = copy y := by
  rcases List.mem_append.mp h with hold | hnew
  · exact Or.inl hold
  · obtain ⟨y, hy, rfl⟩ := List.mem_map.mp hnew
    obtain ⟨a, -, ha⟩ := List.mem_filterMap.mp hy
    exact Or.inr ⟨y, hlook a y ha, rfl⟩

/-- **Copies are as sound as what they are made from.** -/
theorem Sound.withCopies (hs : Sound o) (hm : m.In o) : Sound (o.withCopies m) := by
  refine hs.of_keeps (keeps_withCopies o m) ?_ ?_ ?_ ?_
  · intro x hx
    rcases mem_copies (fun _ _ => List.mem_of_getElem?) hx with hold | ⟨c, hc, rfl⟩
    · exact Or.inl hold
    · have hsound := hs.chains c hc
      refine Or.inr ⟨?_, ?_⟩
      · unfold Chain.outputArity
        rw [copyChain_last]
        exact hsound.range
      · intro s hin
        obtain ⟨s', hs', rfl⟩ := List.mem_map.mp hin
        exact refers_copied hm (hsound.fed s' hs')
  · intro x hx
    rcases mem_copies (fun _ _ => List.mem_of_getElem?) hx with hold | ⟨g, hg, rfl⟩
    · exact Or.inl hold
    · refine Or.inr ⟨fun k id hid => ?_⟩
      obtain ⟨id', hid', rfl⟩ := Option.map_eq_some_iff.mp (List.getElem?_map ▸ hid)
      obtain ⟨c, hc, hposition⟩ := (hs.graphs g hg).placed k id' hid'
      obtain ⟨c', hc', -, hposition'⟩ := chain?_copied hm hc
      exact ⟨c', hc', hposition'.trans hposition⟩
  · intro x hx
    rcases mem_copies (fun _ _ => List.mem_of_getElem?) hx with hold | ⟨c, hc, rfl⟩
    · exact Or.inl hold
    · have hsound := hs.commands c hc
      refine Or.inr ⟨fun k id hid => ?_, fun id hid => ?_, fun e he => ?_⟩
      · obtain ⟨id', hid', rfl⟩ := Option.map_eq_some_iff.mp (List.getElem?_map ▸ hid)
        obtain ⟨i, hi, hlabel⟩ := hsound.labelled k id' hid'
        obtain ⟨i', hi', hlabel'⟩ := input?_copied hm hi
        exact ⟨i', hi', hlabel'.trans hlabel⟩
      · obtain ⟨id', hid', rfl⟩ := List.mem_map.mp hid
        exact graph?_copied hm (hsound.graphs id' hid')
      · obtain ⟨e', he', rfl⟩ := List.mem_map.mp he
        exact refers_copied hm (hsound.mapped e' he')
  · intro x hx
    rcases mem_copies (fun _ _ => List.mem_of_getElem?) hx with hold | ⟨s, hin, rfl⟩
    · exact Or.inl hold
    · exact Or.inr (refers_copied hm (hs.specifiers s hin))

theorem copy_ok {o' : Objects} {v v' : Value} (h : o.copy v = .ok (o', v')) :
    ∃ m : Members, m.In o ∧ o' = o.withCopies m := by
  unfold copy at h
  dsimp only at h
  split at h
  · cases h
  · cases h
    exact ⟨_, membersOf_in o _ _, rfl⟩

end MediaCommand.Objects
