/-
Version numbers, how they compare and how they are read.

The order of versions is a chain of comparisons, each used where the ones before it see no difference, so it
is as transitive as they are.  A release with one more number behind it comes after the release, unless that
number is zero, and then the two are equal.  So two releases of which one is the beginning of the other meet
the same conditions on exactly those versions that do not lie between them (`meets_extended_iff`).

Numbers written with dots between them are read as the release of these numbers (`parse?_dotted`).
-/
import Mathlib.Data.List.TakeWhile
import MediaCommand.Version.Report

namespace MediaCommand.Version

/-! ### The order -/

theorem compareLists_eq {α : Type} (cmp : α → α → Ordering) (xs : List α) :
    ∀ ys, compareLists cmp xs ys = List.compareLex cmp xs ys := by
  induction xs with
  | nil => exact fun ys => by cases ys <;> rfl
  | cons x xs ih =>
      intro ys
      cases ys with
      | nil => rfl
      | cons y ys => rw [compareLists, ih, List.compareLex_cons_cons]

/-- The order of words by their characters. -/
def compareWords (s t : String) : Ordering :=
  List.compareLex (compareOn Char.toNat) s.toList t.toList

instance : Std.TransCmp compareWords :=
  let order : Std.TransCmp (List.compareLex (compareOn Char.toNat)) := inferInstance
  { eq_swap := order.eq_swap, isLE_trans := order.isLE_trans }

theorem compareLocal_word (s t : String) : compareLocal (.word s) (.word t) = compareWords s t :=
  compareLists_eq _ _ _

instance : Std.TransCmp compareLocal where
  eq_swap {a b} := by
    cases a with
    | number m =>
        cases b with
        | number n => exact Std.OrientedOrd.eq_swap
        | word t => rfl
    | word s =>
        cases b with
        | number n => rfl
        | word t =>
            rw [compareLocal_word, compareLocal_word]
            exact Std.OrientedCmp.eq_swap
  isLE_trans {a b c} hab hbc := by
    cases a with
    | number l =>
        cases b with
        | word t => cases hab
        | number m =>
            cases c with
            | word u => cases hbc
            | number n => exact Std.TransOrd.isLE_trans hab hbc
    | word s =>
        cases c with
        | number n => rfl
        | word u =>
            cases b with
            | number m => cases hbc
            | word t =>
                rw [compareLocal_word] at hab hbc ⊢
                exact Std.TransCmp.isLE_trans hab hbc

/-- The order of the local parts. -/
def compareLocalParts (v w : Version) : Ordering :=
  List.compareLex compareLocal v.localParts w.localParts

instance : Std.TransCmp compareLocalParts :=
  let order : Std.TransCmp (List.compareLex compareLocal) := inferInstance
  { eq_swap := order.eq_swap, isLE_trans := order.isLE_trans }

theorem cmp_eq : cmp = compareLex (compareOn epoch) (compareLex (compareOn (significant ·.release))
    (compareLex (compareOn preKey) (compareLex (compareOn postKey)
      (compareLex (compareOn devKey) compareLocalParts)))) := by
  funext v w
  simp only [cmp, compareLists_eq]
  rfl

/-- Versions are ordered: any two can be compared, either way round, and comparing is transitive. -/
instance : Std.TransCmp cmp := cmp_eq ▸ inferInstance

/-! ### Releases -/

/-- A beginning comes before what goes on. -/
theorem compareLex_append {more : List Nat} (h : more ≠ []) (xs : List Nat) :
    List.compareLex compare xs (xs ++ more) = .lt := by
  induction xs with
  | nil =>
      cases more with
      | nil => exact absurd rfl h
      | cons y ys => rfl
  | cons x xs ih =>
      rw [List.cons_append, List.compareLex_cons_cons, ih, Nat.compare_eq_eq.mpr rfl]
      rfl

/-- What is left out of a release is at its end. -/
theorem significant_prefix (release : List Nat) : significant release <+: release := by
  unfold significant
  rw [← List.reverse_suffix, List.reverse_reverse]
  exact List.dropWhile_suffix _

theorem significant_concat (release : List Nat) (n : Nat) :
    significant (release ++ [n]) = if n = 0 then significant release else release ++ [n] := by
  unfold significant
  rw [List.reverse_concat, List.dropWhile_cons]
  by_cases hn : n = 0
  · simp [hn]
  · simp [hn]

/-- A release with one more number comes after the release, or is equal to it if the number is zero. -/
theorem cmp_extended (release : List Nat) (n : Nat) :
    cmp { release } { release := release ++ [n] } = if n = 0 then .eq else .lt := by
  have hrelease : cmp { release } { release := release ++ [n] }
      = List.compareLex compare (significant release) (significant (release ++ [n])) := by
    simp [cmp, compareLists_eq, preKey, postKey, devKey, List.compareLex_cons_cons,
      List.compareLex_nil_nil]
  rw [hrelease, significant_concat]
  split
  · exact Std.ReflCmp.compare_self
  · obtain ⟨zeros, hzeros⟩ := significant_prefix release
    have hmore : release ++ [n] = significant release ++ (zeros ++ [n]) := by
      rw [← List.append_assoc, hzeros]
    rw [hmore]
    exact compareLex_append (by simp) _

/-! ### Conditions -/

/-- The conditions see nothing but how two versions compare, and all of that. -/
theorem meets_all_iff {v v' w : Version} :
    (∀ condition, v.meets condition w = v'.meets condition w) ↔ v.cmp w = v'.cmp w := by
  constructor
  · intro h
    have heq := h .eq
    have hlt := h .lt
    simp only [meets] at heq hlt
    cases hv : v.cmp w <;> cases hv' : v'.cmp w <;> simp_all
  · intro h condition
    cases condition <;> simp only [meets, h]

/-- Of two versions in order, a third one is compared alike with both exactly if it does not lie between
them. -/
theorem cmp_eq_cmp_iff {v v' : Version} (h : v.cmp v' = .lt) (w : Version) :
    v.cmp w = v'.cmp w ↔ w.cmp v = .lt ∨ v'.cmp w = .lt := by
  constructor
  · intro hsame
    cases hw : v.cmp w with
    | lt => exact Or.inr (hsame ▸ hw)
    | gt => exact Or.inl (Std.OrientedCmp.lt_of_gt hw)
    | eq =>
        have hv' : w.cmp v' = .eq := Std.OrientedCmp.eq_symm (hsame ▸ hw)
        exact absurd (Std.TransCmp.eq_trans hw hv') (by rw [h]; nofun)
  · rintro (hbefore | hafter)
    · rw [Std.OrientedCmp.gt_of_lt hbefore,
        Std.OrientedCmp.gt_of_lt (Std.TransCmp.lt_trans hbefore h)]
    · rw [hafter, Std.TransCmp.lt_trans h hafter]

/-- A release and the same release with one more number meet the same conditions on exactly the versions
that do not lie between them, or on all if that number is zero. -/
theorem meets_extended_iff (release : List Nat) (n : Nat) (w : Version) :
    (∀ condition, meets { release } condition w
        = meets { release := release ++ [n] } condition w) ↔
      n = 0 ∨ w.cmp { release } = .lt ∨ cmp { release := release ++ [n] } w = .lt := by
  rw [meets_all_iff]
  have hcmp := cmp_extended release n
  by_cases hn : n = 0
  · rw [if_pos hn] at hcmp
    simp only [hn, true_or, iff_true]
    rw [hn] at hcmp
    exact Std.TransCmp.congr_left hcmp
  · rw [if_neg hn] at hcmp
    simp only [hn, false_or]
    exact cmp_eq_cmp_iff hcmp w

/-- With one more number behind it a release is equal to the one before, or below it, only if that number is
zero. -/
theorem meets_extended_self (release : List Nat) (n : Nat) :
    meets { release } .eq { release := release ++ [n] } = decide (n = 0) ∧
      meets { release } .ge { release := release ++ [n] } = decide (n = 0) := by
  simp only [meets, cmp_extended]
  split <;> simp [*]

/-! ### Numbers with dots between them -/

/-- Plain digits, at least one. -/
structure IsNumber (ds : List Char) : Prop where
  ne_nil : ds ≠ []
  digits : ∀ d ∈ ds, d.isDigit = true

theorem exists_of_isDigit {c : Char} (h : c.isDigit = true) : ∃ i < 10, c = Char.ofNat (48 + i) := by
  have hrange : 48 ≤ c.toNat ∧ c.toNat ≤ 57 := by
    simp only [Char.isDigit, Bool.and_eq_true, decide_eq_true_eq] at h
    exact ⟨UInt32.le_iff_toNat_le.mp h.1, UInt32.le_iff_toNat_le.mp h.2⟩
  refine ⟨c.toNat - 48, by omega, ?_⟩
  rw [Nat.add_sub_cancel' hrange.1, Char.ofNat_toNat]

/-- What holds of each of the ten digits holds of the characters of a number. -/
theorem IsNumber.forall {p : Char → Prop} (hp : ∀ i < 10, p (Char.ofNat (48 + i))) {ds : List Char}
    (h : IsNumber ds) : ∀ d ∈ ds, p d := by
  intro d hd
  obtain ⟨i, hi, rfl⟩ := exists_of_isDigit (h.digits d hd)
  exact hp i hi

/-- Numbers, each behind a dot. -/
def afterDots (ns : List (List Char)) : List Char := ns.flatMap ('.' :: ·)

theorem afterDots_cons (n : List Char) (ns : List (List Char)) :
    afterDots (n :: ns) = '.' :: (n ++ afterDots ns) := by
  simp [afterDots]

variable {n rest : List Char} {ns : List (List Char)}

/-- What goes on behind a number goes on with a dot. -/
theorem head?_afterDots {c : Char} (h : (afterDots ns).head? = some c) : c = '.' := by
  cases ns with
  | nil => cases h
  | cons n ns =>
      rw [afterDots_cons] at h
      exact (Option.some.inj h).symm

/-- Characters of a class are taken up to the first one that is not in it. -/
theorem span_boundary {p : Char → Bool} (h : ∀ c ∈ n, p c = true)
    (hrest : ∀ c, rest.head? = some c → p c = false) :
    (n ++ rest).takeWhile p = n ∧ (n ++ rest).dropWhile p = rest := by
  rw [List.takeWhile_append_of_pos h, List.dropWhile_append_of_pos h]
  cases rest with
  | nil => exact ⟨List.append_nil n, rfl⟩
  | cons c rest =>
      have hc : ¬p c = true := Bool.eq_false_iff.mp (hrest c rfl)
      rw [List.takeWhile_cons_of_neg hc, List.dropWhile_cons_of_neg hc]
      exact ⟨List.append_nil n, rfl⟩

/-- A number is read up to the first character that is no digit. -/
theorem number?_append (h : IsNumber n) (hrest : ∀ c, rest.head? = some c → c.isDigit = false) :
    number? (n ++ rest) = some (digitsValue n, rest) := by
  obtain ⟨htake, hdrop⟩ := span_boundary h.digits hrest
  unfold number?
  rw [htake, hdrop]
  simp [h.ne_nil]

theorem number?_afterDots (h : IsNumber n) (ns : List (List Char)) :
    number? (n ++ afterDots ns) = some (digitsValue n, afterDots ns) :=
  number?_append h fun _ hc => head?_afterDots hc ▸ rfl

/-- The numbers behind dots are read one by one. -/
theorem releaseTail_afterDots (h : ∀ n ∈ ns, IsNumber n) :
    ∀ {fuel : Nat}, (afterDots ns).length ≤ fuel →
      releaseTail fuel (afterDots ns) = (ns.map digitsValue, []) := by
  induction ns with
  | nil =>
      intro fuel _
      cases fuel <;> rfl
  | cons n ns ih =>
      intro fuel hfuel
      rw [afterDots_cons] at hfuel ⊢
      cases fuel with
      | zero => simp at hfuel
      | succ fuel =>
          have hrest : (afterDots ns).length ≤ fuel := by
            simp only [List.length_cons, List.length_append] at hfuel
            omega
          rw [releaseTail, number?_afterDots (h n List.mem_cons_self) ns]
          simp only [ih (fun m hm => h m (List.mem_cons_of_mem n hm)) hrest, List.map_cons]

/-- What holds of each digit and of the dot holds of the characters of numbers with dots between them. -/
theorem forall_dotted {p : Char → Prop} (hp : ∀ i < 10, p (Char.ofNat (48 + i))) (hdot : p '.')
    (hn : IsNumber n) (hns : ∀ m ∈ ns, IsNumber m) : ∀ c ∈ n ++ afterDots ns, p c := by
  intro c hc
  rcases List.mem_append.mp hc with hc | hc
  · exact hn.forall hp c hc
  · obtain ⟨m, hm, hc⟩ := List.mem_flatMap.mp hc
    rcases List.mem_cons.mp hc with rfl | hc
    · exact hdot
    · exact (hns m hm).forall hp c hc

theorem trimChars_eq_self {cs : List Char} (h : ∀ c ∈ cs, Text.isBlank c = false) :
    Text.trimChars cs = cs := by
  have hdrop : ∀ {ds : List Char}, (∀ c ∈ ds, Text.isBlank c = false) →
      ds.dropWhile Text.isBlank = ds := by
    intro ds hds
    cases ds with
    | nil => rfl
    | cons d ds => exact List.dropWhile_cons_of_neg (by simp [hds d List.mem_cons_self])
  unfold Text.trimChars Text.trimEndChars
  rw [hdrop h, hdrop (by simpa using h), List.reverse_reverse]

/-- Numbers with dots between them are read as the release of these numbers. -/
theorem parse?_dotted (hn : IsNumber n) (hns : ∀ m ∈ ns, IsNumber m) :
    parse? (String.ofList (n ++ afterDots ns))
      = some { release := (n :: ns).map digitsValue } := by
  have htrim : Text.trimChars (n ++ afterDots ns) = n ++ afterDots ns :=
    trimChars_eq_self (forall_dotted (by decide) (by decide) hn hns)
  have hlower : (n ++ afterDots ns).map Char.toLower = n ++ afterDots ns :=
    (List.map_congr_left (forall_dotted (p := fun c => c.toLower = c) (by decide) (by decide) hn hns)).trans
      (List.map_id' _)
  have hword : afterWord? ['v'] (n ++ afterDots ns) = none := by
    have hv := hn.forall (p := (· ≠ 'v')) (by decide)
    cases hchars : n with
    | nil => exact absurd hchars hn.ne_nil
    | cons d ds =>
      have hd : 'v' ≠ d := fun h => hv d (by simp [hchars]) h.symm
      simp [afterWord?, hd]
  have hepoch : optionalEpoch (n ++ afterDots ns) = (0, n ++ afterDots ns) := by
    unfold optionalEpoch
    rw [number?_afterDots hn]
    cases ns with
    | nil => rfl
    | cons m ms =>
        rw [afterDots_cons]
        rfl
  unfold parse?
  rw [String.toList_ofList]
  dsimp only
  rw [htrim, hlower, hword, Option.getD_none, hepoch]
  dsimp only
  rw [number?_afterDots hn, Option.bind_some]
  dsimp only
  rw [releaseTail_afterDots hns (Nat.le_refl _)]
  rfl

theorem splitOnClass_ne_nil (cut : Char → Bool) (cs : List Char) : Text.splitOnClass cut cs ≠ [] := by
  cases cs with
  | nil => exact List.cons_ne_nil _ _
  | cons c cs =>
      rw [Text.splitOnClass]
      split
      · exact List.cons_ne_nil _ _
      · cases Text.splitOnClass cut cs <;> exact List.cons_ne_nil _ _

/-- Characters among which there is no cut stay in front of the first piece. -/
theorem splitOnClass_append {cut : Char → Bool} (h : ∀ c ∈ n, cut c = false) (rest : List Char) :
    Text.splitOnClass cut (n ++ rest) = (Text.splitOnClass cut rest).modifyHead (n ++ ·) := by
  cases hpieces : Text.splitOnClass cut rest with
  | nil => exact absurd hpieces (splitOnClass_ne_nil cut rest)
  | cons piece pieces =>
      induction n with
      | nil => exact hpieces
      | cons c cs ih =>
          rw [List.cons_append, Text.splitOnClass, h c List.mem_cons_self,
            ih fun d hd => h d (List.mem_cons_of_mem c hd)]
          rfl

/-- Cut at what is no digit, the numbers are left. -/
theorem splitOnClass_dotted (hn : IsNumber n) (hns : ∀ m ∈ ns, IsNumber m) :
    Text.splitOnClass (!·.isDigit) (n ++ afterDots ns) = n :: ns := by
  have huncut : ∀ {m}, IsNumber m → ∀ c ∈ m, (!c.isDigit) = false := fun hm => hm.forall (by decide)
  induction ns generalizing n with
  | nil =>
      rw [splitOnClass_append (huncut hn)]
      show [n ++ []] = [n]
      rw [List.append_nil]
  | cons m ms ih =>
      rw [splitOnClass_append (huncut hn), afterDots_cons, Text.splitOnClass, if_pos (by decide),
        ih (hns m List.mem_cons_self) fun k hk => hns k (List.mem_cons_of_mem m hk)]
      show (n ++ []) :: m :: ms = n :: m :: ms
      rw [List.append_nil]

/-- A release is too long to be read exactly if one of its numbers has too many digits. -/
theorem isTooLong_dotted (hn : IsNumber n) (hns : ∀ m ∈ ns, IsNumber m) :
    isTooLong (String.ofList (n ++ afterDots ns))
      = (n :: ns).any (Text.maxIntegerDigits < ·.length) := by
  have htrim : Text.trimChars (n ++ afterDots ns) = n ++ afterDots ns :=
    trimChars_eq_self (forall_dotted (by decide) (by decide) hn hns)
  have htake : (n ++ afterDots ns).takeWhile (· != '+') = n ++ afterDots ns :=
    List.takeWhile_eq_self_iff.mpr (forall_dotted (by decide) (by decide) hn hns)
  have hdrop : (n ++ afterDots ns).dropWhile (· != '+') = [] :=
    List.dropWhile_eq_nil_iff.mpr (forall_dotted (by decide) (by decide) hn hns)
  unfold isTooLong numerals
  rw [String.toList_ofList, htrim, htake, hdrop]
  dsimp only
  rw [splitOnClass_dotted hn hns, List.any_append]
  exact Bool.or_false _

end MediaCommand.Version
