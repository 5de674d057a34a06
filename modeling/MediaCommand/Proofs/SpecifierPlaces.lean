/-
Specifiers are told apart by their identities.

A specifier carries the place at which it was made, and no two are made at one place.  Every step keeps this,
since it either makes a specifier at the end or leaves the specifiers alone (`Step.indexed`).

Copies are made at the end too, but each at the place that its original has among what is copied.  That these
places are different takes that a walk meets no specifier twice (`walk_once`), though it may come to one on
many ways.  The walk goes through values, and through an object once it comes to it: a walk that takes every
object as it should takes every value so (`value_stays`), and the induction is on the depth of the walk.
-/
import Mathlib.Data.List.Nodup
import MediaCommand.Proofs.Mapped

namespace MediaCommand

namespace Objects

variable {o o' : Objects}

/-! ### Steps -/

/-- Every step keeps specifiers at their places. -/
theorem Step.indexed {e : List Effect} (step : Step o e o') (h : Indexed o) : Indexed o' := by
  cases step with
  | quiet q => exact q.indexed h
  | take | append | prepend | place | join | gather | label | adopt | enter | list => exact h.of_eq rfl
  | @refer id c pad =>
      obtain ⟨chains, heq⟩ := modifyChain_chains o id (·.addReference pad)
      have hmodified : Indexed (o.modifyChain id (·.addReference pad)) := h.of_eq (by rw [heq])
      exact hmodified.addSpecifier (.pad id pad)
  | @bind id c specifiers =>
      obtain ⟨chains, heq⟩ := bindInputs_chains o id specifiers
      exact h.of_eq (by rw [heq])

/-! ### A walk meets no specifier twice -/

/-- The identity of a specifier. -/
def specifierOf? : Object → Option SpecifierId
  | .specifier id => some id
  | _ => none

/-- No specifier is met twice. -/
def MeetsOnce (met : List Object) : Prop := (met.filterMap specifierOf?).Nodup

theorem MeetsOnce.cons {met : List Object} {x : Object} (h : MeetsOnce met) (hx : x ∉ met) :
    MeetsOnce (x :: met) := by
  unfold MeetsOnce
  rw [List.filterMap_cons]
  cases hspecifier : specifierOf? x with
  | none => exact h
  | some id =>
      refine List.nodup_cons.mpr ⟨fun hin => hx ?_, h⟩
      obtain ⟨y, hy, hid⟩ := List.mem_filterMap.mp hin
      -- Only the specifier itself has its identity.
      have hsame : ∀ z, specifierOf? z = some id → z = .specifier id := by
        intro z hz
        cases z <;> cases hz
        rfl
      rwa [hsame x hspecifier, ← hsame y hid]

section Values

variable {P : List Object → Prop} {visit : Walk → Object → Walk}

mutual

/-- What holds of the objects met, and goes on holding at every object, holds after a value. -/
theorem value_stays (hvisit : ∀ w x, P w.met → P (visit w x).met) :
    ∀ (w : Walk) (v : Value), P w.met → P (Walk.value visit w v).met
  | w, .object x => hvisit w x
  | w, .list vs => items_stays hvisit w vs
  | w, .tuple vs => items_stays hvisit w vs
  | w, .dict es => entries_stays hvisit w es
  | w, .marked mark v => by
      intro h
      have hplain := value_stays hvisit w v h
      have hmarked := value_stays hvisit (w.meetMark mark) v h
      unfold Walk.value
      split
      · exact h
      · split
        · exact hplain
        · exact hmarked
  | _, .null => id
  | _, .bool _ => id
  | _, .int _ => id
  | _, .text _ => id
  | _, .float _ => id
  | _, .bytes _ => id
  | _, .path _ => id
  | _, .arity _ => id

theorem items_stays (hvisit : ∀ w x, P w.met → P (visit w x).met) :
    ∀ (w : Walk) (vs : List Value), P w.met → P (Walk.items visit w vs).met
  | _, [] => id
  | w, v :: rest => fun h => items_stays hvisit _ rest (value_stays hvisit w v h)

theorem entries_stays (hvisit : ∀ w x, P w.met → P (visit w x).met) :
    ∀ (w : Walk) (es : List (Value × Value)), P w.met → P (Walk.entries visit w es).met
  | _, [] => id
  | w, (k, v) :: rest => fun h =>
      entries_stays hvisit _ rest (value_stays hvisit _ v (value_stays hvisit w k h))

end

end Values

/-- A walk through an object meets it only if it was not met before. -/
theorem walkTo_once (o : Objects) (n : Nat) :
    ∀ (w : Walk) (x : Object), MeetsOnce w.met → MeetsOnce (o.walkTo n w x).met := by
  induction n with
  | zero => exact fun _ _ h => h
  | succ n ih =>
      intro w x h
      rw [walkTo]
      split
      · exact h
      · rename_i hnew
        have hx : x ∉ w.met := by simpa using hnew
        cases x with
        | filter id =>
            dsimp only
            split
            · exact h
            · -- A filter counts as met behind what it holds, and it is no specifier.
              exact items_stays ih _ _ h
        | _ => exact items_stays ih _ _ (h.cons hx)

theorem walk_once (o : Objects) (v : Value) : MeetsOnce (o.walk v).met :=
  value_stays (walkTo_once o (o.count + 1)) {} v List.nodup_nil

/-! ### Copies -/

/-- The copies of specifiers that are there follow them in the order of what is copied. -/
theorem Indexed.withCopies (h : o.Indexed) {m : Members} (hnodup : m.specifiers.Nodup)
    (hthere : ∀ id ∈ m.specifiers, (o.specifier? id).isSome) : (o.withCopies m).Indexed := by
  intro k s hk
  rcases Nat.lt_or_ge k o.specifiers.length with hlt | hge
  · exact h k s ((List.getElem?_append_left hlt).symm.trans hk)
  · replace hk := (List.getElem?_append_right hge).symm.trans hk
    rw [List.getElem?_map, getElem?_filterMap hthere] at hk
    obtain ⟨original, hfound, rfl⟩ := Option.map_eq_some_iff.mp hk
    obtain ⟨id, hid, hlook⟩ := Option.bind_eq_some_iff.mp hfound
    obtain ⟨hlt, hget⟩ := List.getElem?_eq_some_iff.mp hid
    have hplace : m.specifiers.idxOf? original.id = some (k - o.specifiers.length) := by
      rw [show original.id = id from h id.index original hlook]
      refine List.idxOf?_eq_some_iff.mpr ⟨hlt, hget, fun j hj hsame => ?_⟩
      have hindex := (List.Nodup.getElem_inj_iff hnodup).mp (hsame.trans hget.symm)
      omega
    show copiedIndex m.specifiers o.specifiers.length original.id = ⟨k⟩
    rw [copiedIndex, hplace]
    show (⟨o.specifiers.length + (k - o.specifiers.length)⟩ : SpecifierId) = ⟨k⟩
    rw [Nat.add_sub_cancel' hge]

theorem Indexed.copy (h : o.Indexed) {v v' : Value} (hcopy : o.copy v = .ok (o', v')) : o'.Indexed := by
  unfold Objects.copy at hcopy
  dsimp only at hcopy
  split at hcopy
  · cases hcopy
  · cases hcopy
    refine h.withCopies ?_ fun id hid => ?_
    · have hmet : ((o.walk v).met.reverse.filterMap specifierOf?).Nodup := by
        rw [List.filterMap_reverse, List.nodup_reverse]
        exact walk_once o v
      exact (List.filter_sublist.filterMap specifierOf?).nodup hmet
    · obtain ⟨x, hx, heq⟩ := List.mem_filterMap.mp hid
      cases x <;> cases heq
      exact (List.mem_filter.mp hx).2

/-! ### Sessions -/

/-- Specifiers are at their places, whatever was called. -/
theorem indexed_afterCalls (calls : List Call) :
    ∀ {o : Objects}, Sound o → o.Indexed → (o.afterCalls calls).Indexed := by
  induction calls with
  | nil => exact fun _ h => h
  | cons call rest ih =>
      intro o hs h
      refine ih (hs.afterCall call).1 ?_
      cases hcall : call.copies with
      | false =>
          obtain ⟨specifiers, trace⟩ := afterCall_trace hs hcall
          exact trace.invariant (fun step _ hindexed => step.indexed hindexed) hs h
      | true =>
          obtain ⟨v, rfl⟩ := Call.eq_copy hcall
          show Indexed (o.perform (.copy v)).objects
          simp only [perform]
          cases hcopy : o.copy v with
          | error e => exact h
          | ok x => exact h.copy hcopy

theorem indexed_empty : Indexed {} := nofun

/-- Specifiers with one identity are one. -/
theorem Indexed.eq_of_id (h : o.Indexed) {s t : Specifier} (hs : s ∈ o.specifiers) (ht : t ∈ o.specifiers)
    (hid : s.id = t.id) : s = t := by
  obtain ⟨k, hk⟩ := List.mem_iff_getElem?.mp hs
  obtain ⟨k', hk'⟩ := List.mem_iff_getElem?.mp ht
  obtain rfl : k = k' := Id.mk.inj ((h k s hk).symm.trans (hid.trans (h k' t hk')))
  exact Option.some.inj (hk.symm.trans hk')

end Objects

end MediaCommand
