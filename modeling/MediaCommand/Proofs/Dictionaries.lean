/-
Dictionaries as lists of their entries.

A dictionary is filled by setting one key after the other.  A key keeps the place where it came first
and takes the value it was set to last, so a dictionary can be written down at once: its keys are what
is left of the keys that were set when repetitions are dropped, and the value of each is told by the key.
Setting one more key changes the value of that key and of no other.
-/
import Mathlib.Data.List.Induction
import Mathlib.Data.List.Nodup
import MediaCommand.Value.Basic

namespace MediaCommand

/-! ### First occurrences -/

section

variable {α : Type} [BEq α] [LawfulBEq α]

theorem nodup_eraseDups (l : List α) : l.eraseDups.Nodup := by
  match l with
  | [] => exact List.nodup_nil
  | a :: rest =>
      rw [List.eraseDups_cons, List.nodup_cons]
      exact ⟨by simp, nodup_eraseDups _⟩
termination_by l.length
decreasing_by exact Nat.lt_succ_of_le (List.length_filter_le _ _)

/-- One more item changes nothing if it was there, and comes at the end if it was not. -/
theorem eraseDups_concat (l : List α) (a : α) :
    (l ++ [a]).eraseDups = if l.contains a then l.eraseDups else l.eraseDups ++ [a] := by
  rw [List.eraseDups_append, List.removeAll, List.filter_singleton, List.elem_eq_contains]
  cases l.contains a
  · rfl
  · exact List.append_nil _

end

/-! ### Setting keys and looking them up -/

namespace Dict

variable {α β : Type} [BEq α]

theorem get?_cons (k k' : α) (v : β) (d : List (α × β)) :
    get? ((k', v) :: d) k = if k' == k then some v else get? d k := by
  unfold get?
  rw [List.find?_cons]
  cases k' == k <;> rfl

/-- Setting a key before or after the values are wrapped is the same. -/
theorem map_put {γ : Type} (f : β → γ) (d : List (α × β)) (k : α) (v : β) :
    (put d k v).map (Prod.map id f) = put (d.map (Prod.map id f)) k (f v) := by
  induction d with
  | nil => rfl
  | cons entry rest ih =>
      rw [put, apply_ite (List.map (Prod.map id f)), List.map_cons, List.map_cons, ih]
      rfl

/-- What was given to a key last. -/
def last? (entries : List (α × β)) (k : α) : Option β := get? entries.reverse k

theorem last?_concat (entries : List (α × β)) (entry : α × β) (k : α) :
    last? (entries ++ [entry]) k = if entry.1 == k then some entry.2 else last? entries k := by
  rw [last?, List.reverse_concat, get?_cons, last?]

variable [LawfulBEq α]

/-- A key is looked for behind the entries of other keys. -/
theorem get?_append {d : List (α × β)} {k : α} (h : k ∉ d.map Prod.fst) (e : List (α × β)) :
    get? (d ++ e) k = get? e k := by
  induction d with
  | nil => rfl
  | cons entry rest ih =>
      rw [List.map_cons, List.mem_cons, not_or] at h
      rw [List.cons_append, get?_cons, if_neg (by simpa using Ne.symm h.1), ih h.2]

/-- A key is set behind the entries of other keys. -/
theorem put_append {d : List (α × β)} {k : α} (h : k ∉ d.map Prod.fst) (e : List (α × β)) (v : β) :
    put (d ++ e) k v = d ++ put e k v := by
  induction d with
  | nil => rfl
  | cons entry rest ih =>
      rw [List.map_cons, List.mem_cons, not_or] at h
      rw [List.cons_append, put, if_neg (by simpa using Ne.symm h.1), ih h.2]
      rfl

theorem get?_of_not_mem {d : List (α × β)} {k : α} (h : k ∉ d.map Prod.fst) : get? d k = none := by
  have hnone := get?_append h []
  rwa [List.append_nil] at hnone

theorem put_of_not_mem {d : List (α × β)} {k : α} (h : k ∉ d.map Prod.fst) (v : β) :
    put d k v = d ++ [(k, v)] := by
  have hnew := put_append h [] v
  rwa [List.append_nil] at hnew

theorem get?_of_mem {d : List (α × β)} (hnodup : (d.map Prod.fst).Nodup) {entry : α × β}
    (h : entry ∈ d) : get? d entry.1 = some entry.2 := by
  induction d with
  | nil => cases h
  | cons first rest ih =>
      obtain ⟨hfresh, hrest⟩ := List.nodup_cons.mp hnodup
      rw [get?_cons]
      rcases List.mem_cons.mp h with rfl | hin
      · exact if_pos (beq_self_eq_true _)
      · rw [if_neg, ih hrest hin]
        intro hsame
        apply hfresh
        rw [eq_of_beq hsame]
        exact List.mem_map_of_mem hin

theorem get?_put (d : List (α × β)) (k k' : α) (v : β) :
    get? (put d k v) k' = if k == k' then some v else get? d k' := by
  induction d with
  | nil => rw [put, get?_cons]
  | cons entry rest ih =>
      rw [put]
      split
      · rename_i heq
        rw [get?_cons, get?_cons, eq_of_beq heq]
        cases k == k' <;> rfl
      · rename_i hne
        rw [get?_cons, get?_cons, ih]
        by_cases hkey : k = k'
        · subst hkey
          rw [if_neg hne, if_neg hne]
        · have hk : ¬ (k == k') = true := by simpa using hkey
          rw [if_neg hk, if_neg hk]

theorem mem_put {d : List (α × β)} {k : α} {v : β} {entry : α × β} (h : entry ∈ put d k v) :
    entry ∈ d ∨ entry = (k, v) := by
  induction d with
  | nil => exact .inr (List.mem_singleton.mp h)
  | cons first rest ih =>
      rw [put] at h
      split at h
      · rename_i heq
        rw [eq_of_beq heq] at h
        rcases List.mem_cons.mp h with hnew | hrest
        · exact .inr hnew
        · exact .inl (List.mem_cons_of_mem _ hrest)
      · rcases List.mem_cons.mp h with hfirst | hrest
        · exact .inl (List.mem_cons.mpr (.inl hfirst))
        · exact (ih hrest).imp_left (List.mem_cons_of_mem _)

/-- Setting a key that is there leaves the keys as they are. -/
theorem map_fst_put {d : List (α × β)} {k : α} (h : k ∈ d.map Prod.fst) (v : β) :
    (put d k v).map Prod.fst = d.map Prod.fst := by
  induction d with
  | nil => cases h
  | cons entry rest ih =>
      rw [put]
      split
      · rfl
      · rename_i hne
        rw [List.map_cons, List.map_cons, ih ((List.mem_cons.mp h).resolve_left ?_)]
        rintro rfl
        exact hne (beq_self_eq_true _)

/-- Dictionaries with the same keys and the same values under them are the same. -/
theorem eq_of_get? {d e : List (α × β)} (hkeys : d.map Prod.fst = e.map Prod.fst)
    (hnodup : (e.map Prod.fst).Nodup) (h : ∀ k ∈ e.map Prod.fst, get? d k = get? e k) : d = e := by
  apply List.ext_getElem?
  intro i
  have hi : (d.map Prod.fst)[i]? = (e.map Prod.fst)[i]? := by rw [hkeys]
  rw [List.getElem?_map, List.getElem?_map] at hi
  cases hd : d[i]? with
  | none =>
      rw [hd] at hi
      exact (Option.map_eq_none_iff.mp hi.symm).symm
  | some a =>
      rw [hd] at hi
      obtain ⟨b, hb, hab⟩ := Option.map_eq_some_iff.mp hi.symm
      have hvalue := h b.1 (List.mem_map_of_mem (List.mem_of_getElem? hb))
      rw [get?_of_mem hnodup (List.mem_of_getElem? hb), hab,
        get?_of_mem (hkeys ▸ hnodup) (List.mem_of_getElem? hd)] at hvalue
      rw [hb, Prod.ext hab (Option.some.inj hvalue).symm]

/-- Whatever stands in a dictionary is gone when all its keys are set again, one after the other. -/
theorem update_eq_self {d e : List (α × β)} (hkeys : d.map Prod.fst = e.map Prod.fst)
    (hnodup : (e.map Prod.fst).Nodup) : update d e = e := by
  -- The entries that were set stand before those that are still to be set.
  have hgen : ∀ before : List (α × β), (∀ k ∈ e.map Prod.fst, k ∉ before.map Prod.fst) →
      update (before ++ d) e = before ++ e := by
    induction e generalizing d with
    | nil =>
        intro before _
        rw [List.map_eq_nil_iff.mp hkeys]
        rfl
    | cons entry rest ih =>
        intro before hnot
        obtain ⟨old, drest, rfl⟩ : ∃ old drest, d = old :: drest := by
          cases d with
          | nil => cases hkeys
          | cons old drest => exact ⟨old, drest, rfl⟩
        rw [List.map_cons, List.map_cons, List.cons.injEq] at hkeys
        obtain ⟨hfresh, hrest⟩ := List.nodup_cons.mp hnodup
        have hset : put (before ++ old :: drest) entry.1 entry.2 = (before ++ [entry]) ++ drest := by
          rw [put_append (hnot _ List.mem_cons_self), put, if_pos (beq_iff_eq.mpr hkeys.1),
            hkeys.1, List.append_assoc]
          rfl
        rw [update, List.foldl_cons, hset]
        refine (ih hkeys.2 hrest _ ?_).trans (List.append_assoc _ _ _)
        intro k hk
        rw [List.map_append, List.mem_append, not_or]
        refine ⟨hnot k (List.mem_cons_of_mem _ hk), ?_⟩
        intro hsame
        exact hfresh (List.mem_singleton.mp hsame ▸ hk)
  exact hgen [] (fun k _ hmem => nomatch hmem)

/-- What stands under a key of a dictionary whose values are told by their keys. -/
theorem get?_map {ks : List α} {k : α} (f : α → β) (h : k ∈ ks) :
    get? (ks.map fun k => (k, f k)) k = some (f k) := by
  induction ks with
  | nil => cases h
  | cons k' rest ih =>
      rw [List.map_cons, get?_cons]
      split
      · rename_i heq
        rw [eq_of_beq heq]
      · rename_i hne
        refine ih ((List.mem_cons.mp h).resolve_left ?_)
        rintro rfl
        exact hne (beq_self_eq_true k)

/-- Setting a key of such a dictionary changes the value of that key alone. -/
theorem put_map {ks : List α} {k : α} {f g : α → β} (hnodup : ks.Nodup) (h : k ∈ ks)
    (hg : ∀ k' ∈ ks, k' ≠ k → g k' = f k') :
    put (ks.map fun k => (k, f k)) k (g k) = ks.map fun k => (k, g k) := by
  induction ks with
  | nil => cases h
  | cons k' rest ih =>
      obtain ⟨hnot, hrest⟩ := List.nodup_cons.mp hnodup
      rw [List.map_cons, List.map_cons, put]
      split
      · rename_i heq
        obtain rfl := eq_of_beq heq
        refine congrArg _ (List.map_congr_left fun k'' hk'' => ?_)
        rw [hg k'' (List.mem_cons_of_mem k' hk'') fun hsame => hnot (hsame ▸ hk'')]
      · rename_i hne
        have hkk : k' ≠ k := fun hsame => hne (beq_iff_eq.mpr hsame)
        rw [hg k' List.mem_cons_self hkk,
          ih hrest ((List.mem_cons.mp h).resolve_left hkk.symm) fun k'' hk'' =>
            hg k'' (List.mem_cons_of_mem k' hk'')]

/-- Setting one more key of a dictionary whose values are told by the keys that were set. -/
theorem put_eraseDups {ks : List α} {k : α} {f g : α → β} (h : ∀ k' ≠ k, g k' = f k') :
    put (ks.eraseDups.map fun k => (k, f k)) k (g k)
      = (ks ++ [k]).eraseDups.map fun k => (k, g k) := by
  by_cases hmem : k ∈ ks
  · rw [put_map (nodup_eraseDups ks) (List.mem_eraseDups.mpr hmem) fun k' _ hne => h k' hne,
      eraseDups_concat, if_pos (List.contains_iff_mem.mpr hmem)]
  · have hkeys : k ∉ (ks.eraseDups.map fun k => (k, f k)).map Prod.fst := by
      simpa using hmem
    rw [put_of_not_mem hkeys, eraseDups_concat, if_neg (by simpa using hmem), List.map_append]
    refine congrArg (· ++ _) (List.map_congr_left fun k' hk' => ?_)
    rw [h k']
    rintro rfl
    exact hmem (List.mem_eraseDups.mp hk')

theorem map_ofList (entries : List (α × β)) :
    (ofList entries).map (Prod.map id some)
      = (entries.map Prod.fst).eraseDups.map fun k => (k, last? entries k) := by
  induction entries using List.reverseRecOn with
  | nil => rfl
  | append_singleton entries entry ih =>
      have hofList : ofList (entries ++ [entry]) = put (ofList entries) entry.1 entry.2 :=
        List.foldl_concat _ _ _ _
      have hlast : last? (entries ++ [entry]) entry.1 = some entry.2 := by
        rw [last?_concat, if_pos (beq_self_eq_true entry.1)]
      rw [hofList, map_put, ih, List.map_append, ← hlast]
      apply put_eraseDups
      intro k hne
      rw [last?_concat, if_neg (by simpa using Ne.symm hne)]

/-- A dictionary is written down at once: the keys in the order in which they come first, each with
what was given to it last. -/
theorem ofList_eq (entries : List (α × β)) :
    ofList entries = (entries.map Prod.fst).eraseDups.filterMap fun k =>
      (last? entries k).map (k, ·) := by
  have h := congrArg (List.filterMap fun e : α × Option β => e.2.map (e.1, ·)) (map_ofList entries)
  rw [List.filterMap_map, List.filterMap_map] at h
  have hentry : (fun e : α × Option β => e.2.map (e.1, ·)) ∘ Prod.map id some
      = (some : α × β → Option (α × β)) := rfl
  rw [hentry, List.filterMap_some] at h
  exact h

end Dict

end MediaCommand
