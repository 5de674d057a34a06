/-
Looking up an object after a change.

Objects are kept in lists by kind and never removed, so a change either puts a new object in the
place of one or adds one at the end.  What stands at an identity afterwards is read off these lists
once, here; the other proofs speak of identities only.
-/
import Mathlib.Data.List.Forall2
import MediaCommand.Objects.Map

namespace MediaCommand

theorem Id.index_ne {k : Kind} {id id' : Id k} (h : id ≠ id') : id.index ≠ id'.index :=
  fun hc => h (by cases id; cases id'; exact congrArg Id.mk hc)

/-! ### Lists in which one item is exchanged -/

theorem getElem?_set_eq_of_some {α : Type} {l : List α} {i : Nat} {x : α} (y : α)
    (h : l[i]? = some x) : (l.set i y)[i]? = some y := by
  obtain ⟨hi, -⟩ := List.getElem?_eq_some_iff.mp h
  simp [hi]

theorem set_eq_self {α : Type} {l : List α} {i : Nat} {x : α} (h : l[i]? = some x) :
    l.set i x = l := by
  obtain ⟨hi, hx⟩ := List.getElem?_eq_some_iff.mp h
  rw [← hx]
  exact List.set_getElem_self hi

/-- What stands in a list with one more item behind it. -/
theorem getElem?_concat {α : Type} {l : List α} {a x : α} {i : Nat} (h : (l ++ [a])[i]? = some x) :
    l[i]? = some x ∨ (i = l.length ∧ x = a) := by
  rcases Nat.lt_or_ge i l.length with hlt | hge
  · rw [List.getElem?_append_left hlt] at h
    exact Or.inl h
  · rw [List.getElem?_append_right hge, List.getElem?_singleton] at h
    split at h
    · rename_i hi
      exact Or.inr ⟨by omega, (Option.some.inj h).symm⟩
    · cases h

namespace Objects

variable {o : Objects}

/-! ### Chains -/

theorem mem_chains {id : ChainId} {c : Chain} (h : o.chain? id = some c) : c ∈ o.chains :=
  List.mem_of_getElem? h

theorem chain?_setChain_self {id : ChainId} {c : Chain} (c' : Chain)
    (h : o.chain? id = some c) : (o.setChain id c').chain? id = some c' :=
  getElem?_set_eq_of_some c' h

theorem chain?_setChain_ne {id id' : ChainId} (c : Chain) (h : id' ≠ id) :
    (o.setChain id c).chain? id' = o.chain? id' :=
  List.getElem?_set_ne (Id.index_ne h).symm

theorem setChain_self {id : ChainId} {c : Chain} (h : o.chain? id = some c) :
    o.setChain id c = o := by
  show { o with chains := o.chains.set id.index c } = o
  rw [set_eq_self h]

theorem setChain_setChain (id : ChainId) (c c' : Chain) :
    (o.setChain id c).setChain id c' = o.setChain id c' := by
  show { o with chains := (o.chains.set id.index c).set id.index c' } = _
  rw [List.set_set]
  rfl

theorem modifyChain_eq {id : ChainId} {c : Chain} (f : Chain → Chain)
    (h : o.chain? id = some c) : o.modifyChain id f = o.setChain id (f c) := by
  simp only [modifyChain, h]

/-- A chain after an exchange is the new one or was there before. -/
theorem mem_setChain {id : ChainId} {c' x : Chain} (h : x ∈ (o.setChain id c').chains) :
    x ∈ o.chains ∨ x = c' :=
  List.mem_or_eq_of_mem_set h

/-! ### Objects that are there -/

theorem mem_found {α : Type} {x : Option α} {a : α} (h : found x = .ok a) : x = some a := by
  cases x with
  | none => cases h
  | some b => cases h; rfl

theorem filter_ok {id : FilterId} {f : Filter} : o.filter id = .ok f ↔ o.filter? id = some f :=
  ⟨mem_found, fun h => by simp only [filter, h, found]⟩

theorem chain_ok {id : ChainId} {c : Chain} : o.chain id = .ok c ↔ o.chain? id = some c :=
  ⟨mem_found, fun h => by simp only [chain, h, found]⟩

theorem graph_ok {id : GraphId} {g : Graph} : o.graph id = .ok g ↔ o.graph? id = some g :=
  ⟨mem_found, fun h => by simp only [graph, h, found]⟩

theorem input_ok {id : InputId} {i : Input} : o.input id = .ok i ↔ o.input? id = some i :=
  ⟨mem_found, fun h => by simp only [input, h, found]⟩

theorem output_ok {id : OutputId} {out : Output} :
    o.output id = .ok out ↔ o.output? id = some out :=
  ⟨mem_found, fun h => by simp only [output, h, found]⟩

theorem command_ok {id : CommandId} {c : Command} :
    o.command id = .ok c ↔ o.command? id = some c :=
  ⟨mem_found, fun h => by simp only [command, h, found]⟩

theorem specifier_ok {id : SpecifierId} {s : Specifier} :
    o.specifier id = .ok s ↔ o.specifier? id = some s :=
  ⟨mem_found, fun h => by simp only [specifier, h, found]⟩

end Objects

/-! ### Calls that can fail -/

/-- A call made of two goes through if both do. -/
theorem bind_ok {ε α β : Type} {x : Except ε α} {f : α → Except ε β} {b : β} :
    (x >>= f) = .ok b ↔ ∃ a, x = .ok a ∧ f a = .ok b := by
  cases x with
  | error e => exact ⟨(nomatch ·), fun ⟨_, h, _⟩ => (nomatch h)⟩
  | ok a =>
      refine ⟨fun h => ⟨a, rfl, h⟩, fun ⟨a', h, hf⟩ => ?_⟩
      cases h
      exact hf

theorem map_ok {ε α β : Type} {x : Except ε α} {f : α → β} {b : β} :
    x.map f = .ok b ↔ ∃ a, x = .ok a ∧ f a = b := by
  cases x with
  | error e => exact ⟨(nomatch ·), fun ⟨_, h, _⟩ => (nomatch h)⟩
  | ok a =>
      refine ⟨fun h => ⟨a, rfl, Except.ok.inj h⟩, fun ⟨a', h, hf⟩ => ?_⟩
      cases h
      exact congrArg Except.ok hf

/-- Calls made for each item of a list go through if every one does. -/
theorem forM_ok {ε α : Type} {f : α → Except ε Unit} :
    ∀ {l : List α}, l.forM f = .ok () ↔ ∀ x ∈ l, f x = .ok () := by
  intro l
  induction l with
  | nil => exact ⟨fun _ _ hx => (nomatch hx), fun _ => rfl⟩
  | cons a rest ih =>
      refine ⟨fun h x hx => ?_, fun h => ?_⟩
      · obtain ⟨⟨⟩, ha, hrest⟩ := bind_ok.mp h
        rcases List.mem_cons.mp hx with rfl | hin
        · exact ha
        · exact ih.mp hrest x hin
      · refine bind_ok.mpr ⟨(), h a List.mem_cons_self, ?_⟩
        exact ih.mpr fun x hx => h x (List.mem_cons_of_mem a hx)

/-- Calls made for each item of a list fail as the first of them that does. -/
theorem forM_error {ε α : Type} {f : α → Except ε Unit} {l : List α} {e : ε}
    (h : l.forM f = .error e) : ∃ x ∈ l, f x = .error e := by
  induction l with
  | nil => cases h
  | cons a rest ih =>
      have hcons : (f a >>= fun _ => rest.forM f) = .error e := h
      cases ha : f a with
      | error e' =>
          rw [ha] at hcons
          cases hcons
          exact ⟨a, List.mem_cons_self, ha⟩
      | ok u =>
          rw [ha] at hcons
          obtain ⟨x, hx, hfail⟩ := ih hcons
          exact ⟨x, List.mem_cons_of_mem a hx, hfail⟩

/-- Calls that all go through answer the list of what each answers. -/
theorem mapM_ok_map {ε α β : Type} {f : α → Except ε β} {g : α → β} {l : List α}
    (h : ∀ x ∈ l, f x = .ok (g x)) : l.mapM f = .ok (l.map g) := by
  induction l with
  | nil => rfl
  | cons a rest ih =>
      rw [List.mapM_cons, h a List.mem_cons_self,
        ih fun x hx => h x (List.mem_cons_of_mem a hx)]
      rfl

/-- Calls made for each item of a list answer item by item. -/
theorem mapM_ok {ε α β : Type} {f : α → Except ε β} {l : List α} :
    ∀ {ys : List β}, l.mapM f = .ok ys ↔ List.Forall₂ (fun x y => f x = .ok y) l ys := by
  induction l with
  | nil =>
      intro ys
      rw [List.mapM_nil, List.forall₂_nil_left_iff]
      exact ⟨fun h => (Except.ok.inj h).symm, fun h => h ▸ rfl⟩
  | cons a rest ih =>
      intro ys
      rw [List.mapM_cons, List.forall₂_cons_left_iff]
      refine ⟨fun h => ?_, ?_⟩
      · obtain ⟨b, hb, h⟩ := bind_ok.mp h
        obtain ⟨bs, hbs, h⟩ := bind_ok.mp h
        exact ⟨b, bs, hb, ih.mp hbs, (Except.ok.inj h).symm⟩
      · rintro ⟨b, bs, hb, hbs, rfl⟩
        exact bind_ok.mpr ⟨b, hb, bind_ok.mpr ⟨bs, ih.mpr hbs, rfl⟩⟩

/-- If calls made for each item of a list go through, the answers stand where the items do. -/
theorem getElem?_of_mapM {ε α β : Type} {f : α → Except ε β} {l : List α} {ys : List β} {k : Nat}
    {x : α} (h : l.mapM f = .ok ys) (hx : l[k]? = some x) : ∃ y, ys[k]? = some y ∧ f x = .ok y := by
  obtain ⟨hk, rfl⟩ := List.getElem?_eq_some_iff.mp hx
  obtain ⟨hlength, hall⟩ := List.forall₂_iff_get.mp (mapM_ok.mp h)
  have hk' : k < ys.length := hlength ▸ hk
  exact ⟨ys[k], List.getElem?_eq_getElem hk', hall k hk hk'⟩

/-- Each answer is that of the item where it stands. -/
theorem item_of_mapM {ε α β : Type} {f : α → Except ε β} {l : List α} {ys : List β} {k : Nat}
    {y : β} (h : l.mapM f = .ok ys) (hy : ys[k]? = some y) : ∃ x, l[k]? = some x ∧ f x = .ok y := by
  obtain ⟨hk, rfl⟩ := List.getElem?_eq_some_iff.mp hy
  obtain ⟨hlength, hall⟩ := List.forall₂_iff_get.mp (mapM_ok.mp h)
  have hk' : k < l.length := hlength ▸ hk
  exact ⟨l[k], List.getElem?_eq_getElem hk', hall k hk' hk⟩

theorem mem_of_mapM {ε α β : Type} {f : α → Except ε β} {l : List α} {ys : List β} {x : α}
    (h : l.mapM f = .ok ys) (hx : x ∈ l) : ∃ y ∈ ys, f x = .ok y := by
  obtain ⟨k, hk⟩ := List.mem_iff_getElem?.mp hx
  obtain ⟨y, hy, hanswer⟩ := getElem?_of_mapM h hk
  exact ⟨y, List.mem_of_getElem? hy, hanswer⟩

/-- Calls that all go through answer by a function. -/
theorem exists_answers {ε α β : Type} [Inhabited β] {f : α → Except ε β} {l : List α}
    (h : ∀ x ∈ l, ∃ y, f x = .ok y) : ∃ g : α → β, ∀ x ∈ l, f x = .ok (g x) := by
  refine ⟨fun x => (f x).toOption.getD default, fun x hx => ?_⟩
  obtain ⟨y, hy⟩ := h x hx
  simp only [hy, Except.toOption, Option.getD_some]

/-- Calls made for each item of a list answer if every one does. -/
theorem mapM_answers {ε α β : Type} [Inhabited β] {f : α → Except ε β} {l : List α}
    (h : ∀ x ∈ l, ∃ y, f x = .ok y) : ∃ ys, l.mapM f = .ok ys := by
  obtain ⟨g, hg⟩ := exists_answers h
  exact ⟨l.map g, mapM_ok_map hg⟩

end MediaCommand
