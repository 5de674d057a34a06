/-
Options as they occur among arguments.

Arguments in which every value stands behind an option are the occurrences of options one after the
other, each a name after a dash with a value behind it or without.  Reading such arguments enters the
occurrences in a dictionary, one by one, and the dictionary that comes of it can be written down at
once: the names in the order in which they first occur, and under each name what all its occurrences
give it.

An occurrence without a value makes a flag of its option.  The values that came before it are
forgotten, and one that comes after it is refused.  So values are kept, and all of them, for the
options that occur with values only.
-/
import Mathlib.Data.List.Induction
import MediaCommand.Proofs.Dictionaries
import MediaCommand.Proofs.Lookup
import MediaCommand.Session.Compose

namespace MediaCommand

/-! ### Occurrences -/

/-- What an option is given by values: nothing but a flag if there are none, the value if there is one,
and the list of them if there are several. -/
def Given.ofValues : List String → Given
  | [] => .flag
  | [value] => .one value
  | values => .several values

/-- An occurrence of an option: its name, and the value behind it if there is one. -/
structure Occurrence where
  name : String
  value : Option String
  deriving DecidableEq

namespace Occurrence

/-- The arguments of an occurrence. -/
def args (x : Occurrence) : List String := ("-" ++ x.name) :: x.value.toList

/-- Whether what stands for a value is one, and no option. -/
def Proper (x : Occurrence) : Prop := ∀ v, x.value = some v → Options.isOption v = false

end Occurrence

namespace Options

theorem isOption_dash (name : String) : isOption ("-" ++ name) = true := by
  simp [isOption]

theorem dash_tail {arg : String} (h : isOption arg = true) :
    "-" ++ String.ofList arg.toList.tail = arg := by
  have hhead : arg.toList.head? = some '-' := by simpa [isOption] using h
  obtain ⟨rest, hrest⟩ := List.head?_eq_some_iff.mp hhead
  refine String.toList_inj.mp ?_
  rw [hrest]
  simp

/-- Every argument that is no option stands directly behind one. -/
def Attached (args : List String) : Prop :=
  ∀ i v, args[i]? = some v → isOption v = false →
    ∃ j opt, i = j + 1 ∧ args[j]? = some opt ∧ isOption opt = true

theorem Attached.of_append {front rest : List String} (h : Attached (front ++ rest))
    (hfirst : ∀ v, rest[0]? = some v → isOption v = true) : Attached rest := by
  intro i v hv hno
  have hshift : (front ++ rest)[front.length + i]? = rest[i]? := by
    rw [List.getElem?_append_right (Nat.le_add_right _ _), Nat.add_sub_cancel_left]
  obtain ⟨j, opt, hj, hopt, hyes⟩ := h (front.length + i) v (hshift.trans hv) hno
  cases i with
  | zero =>
      rw [hfirst v hv] at hno
      cases hno
  | succ k =>
      obtain rfl : j = front.length + k := by omega
      refine ⟨k, opt, rfl, ?_, hyes⟩
      rwa [List.getElem?_append_right (by omega), Nat.add_sub_cancel_left] at hopt

theorem Attached.append {front rest : List String} (hfront : Attached front) (h : Attached rest) :
    Attached (front ++ rest) := by
  intro i v hv hno
  rcases Nat.lt_or_ge i front.length with hlt | hge
  · rw [List.getElem?_append_left hlt] at hv
    obtain ⟨j, opt, rfl, hopt, hyes⟩ := hfront i v hv hno
    exact ⟨j, opt, rfl, (List.getElem?_append_left (by omega)).trans hopt, hyes⟩
  · rw [List.getElem?_append_right hge] at hv
    obtain ⟨j, opt, hj, hopt, hyes⟩ := h _ v hv hno
    refine ⟨front.length + j, opt, by omega, ?_, hyes⟩
    rwa [List.getElem?_append_right (by omega), Nat.add_sub_cancel_left]

/-- The arguments of occurrences are attached. -/
theorem attached_args (xs : List Occurrence) : Attached (xs.flatMap Occurrence.args) := by
  induction xs with
  | nil => exact fun _ _ h => nomatch h
  | cons x rest ih =>
      refine Attached.append ?_ ih
      obtain ⟨name, value⟩ := x
      intro i v hv hno
      cases i with
      | zero =>
          rw [← Option.some.inj hv, isOption_dash] at hno
          cases hno
      | succ k =>
          cases k with
          | zero => exact ⟨0, _, rfl, rfl, isOption_dash name⟩
          | succ k => cases value <;> cases hv

/-- The occurrences in arguments. -/
def occurrences : List String → List Occurrence
  | [] => []
  | [opt] => [⟨String.ofList opt.toList.tail, none⟩]
  | opt :: next :: rest =>
    if isOption next then ⟨String.ofList opt.toList.tail, none⟩ :: occurrences (next :: rest)
    else ⟨String.ofList opt.toList.tail, some next⟩ :: occurrences rest

/-- Values among occurrences are none of the options. -/
theorem proper_occurrences : ∀ args : List String, ∀ x ∈ occurrences args, x.Proper
  | [] => by simp [occurrences]
  | [opt] => by simp [occurrences, Occurrence.Proper]
  | opt :: next :: rest => by
      have hmore := proper_occurrences (next :: rest)
      have hrest := proper_occurrences rest
      rw [occurrences]
      cases hnext : isOption next with
      | true => simpa [Occurrence.Proper] using hmore
      | false => simpa [Occurrence.Proper, hnext] using hrest

/-- Attached arguments are those of the occurrences in them. -/
theorem Attached.args_occurrences : ∀ {args : List String}, Attached args →
    (occurrences args).flatMap Occurrence.args = args
  | [], _ => rfl
  | opt :: rest, h => by
      have hopt : isOption opt = true := by
        by_contra hno
        obtain ⟨j, -, hj, -⟩ := h 0 opt rfl (by simpa using hno)
        cases hj
      have hname := dash_tail hopt
      match rest, h with
      | [], _ =>
          show ["-" ++ String.ofList opt.toList.tail] = [opt]
          rw [hname]
      | next :: more, h =>
          rw [occurrences]
          cases hnext : isOption next with
          | true =>
              have hrest : Attached (next :: more) :=
                Attached.of_append (show Attached ([opt] ++ next :: more) from h) (by simpa using hnext)
              show ("-" ++ String.ofList opt.toList.tail) :: (occurrences (next :: more)).flatMap _ = _
              rw [hname, hrest.args_occurrences]
          | false =>
              have hmore : Attached more := by
                refine Attached.of_append (show Attached ([opt, next] ++ more) from h) ?_
                intro arg harg
                by_contra hno
                obtain ⟨j, before, hj, hbefore, hyes⟩ :=
                  h 2 arg (by simpa using harg) (by simpa using hno)
                obtain rfl : j = 1 := by omega
                rw [← Option.some.inj hbefore, hnext] at hyes
                cases hyes
              show ("-" ++ String.ofList opt.toList.tail) :: next :: (occurrences more).flatMap _ = _
              rw [hname, hmore.args_occurrences]

/-! ### Reading occurrences -/

/-- Enters an occurrence in a dictionary of what was given so far. -/
def add (found : List (String × Given)) (x : Occurrence) : Except Error (List (String × Given)) :=
  match x.value with
  | none => .ok (Dict.put found x.name .flag)
  | some value =>
    match Given.add? value (Dict.get? found x.name) with
    | some given => .ok (Dict.put found x.name given)
    | none => .error (.fault .noSuchAttribute)

/-- What was given under names, as it stands under values. -/
def named (found : List (String × Given)) : GivenOptions := found.map fun e => (.text e.1, e.2)

theorem put_named (o : Objects) (found : List (String × Given)) (name : String) (given : Given) :
    put o (named found) (.text name) given = named (Dict.put found name given) := by
  induction found with
  | nil => rfl
  | cons e rest ih =>
      show (if e.1 == name then _ else _ :: put o (named rest) (.text name) given)
        = named (if e.1 == name then _ else _)
      rw [ih]
      split <;> rfl

theorem get?_named (o : Objects) (found : List (String × Given)) (name : String) :
    get? o (named found) (.text name) = Dict.get? found name := by
  induction found with
  | nil => rfl
  | cons e rest ih =>
      have hcons : get? o (named (e :: rest)) (.text name)
          = if e.1 == name then some e.2 else get? o (named rest) (.text name) :=
        @Dict.get?_cons Value Given ⟨o.alike⟩ (.text name) (.text e.1) e.2 (named rest)
      rw [hcons, Dict.get?_cons, ih]

theorem withoutFirst_dash (o : Objects) (name : String) :
    o.withoutFirst (.text ("-" ++ name)) = .ok (.text name) := by
  simp [Objects.withoutFirst, Value.bare]

/-- Reading the arguments of an occurrence, and of others behind it, enters it and reads those. -/
theorem readFrom_cons (o : Objects) (found : List (String × Given)) {x : Occurrence}
    (hx : x.Proper) {rest : List String} (hrest : ∀ arg, rest[0]? = some arg → isOption arg = true) :
    readFrom o (named found) ((x.args ++ rest).map fun arg => .ok (.text arg))
      = add found x >>= fun found => readFrom o (named found) (rest.map fun arg => .ok (.text arg)) := by
  obtain ⟨name, value⟩ := x
  have hkey : (Value.text name).isHashable = true := rfl
  cases value with
  | none =>
      have henter : enter o (named found) (.text name) .flag
          = .ok (named (Dict.put found name .flag)) := by
        rw [enter, if_pos hkey, put_named]
      cases rest with
      | nil =>
          show (o.withoutFirst (.text ("-" ++ name)) >>= fun key => enter o (named found) key .flag)
            = .ok (named (Dict.put found name .flag))
          rw [withoutFirst_dash]
          exact henter
      | cons next more =>
          show (o.withoutFirst (.text ("-" ++ name)) >>= fun key =>
            if isOption next then enter o (named found) key .flag >>= fun found => readFrom o found _
            else _) = readFrom o (named (Dict.put found name .flag)) _
          rw [withoutFirst_dash]
          show (if isOption next then _ else _) = _
          rw [if_pos (hrest next rfl), henter]
          rfl
  | some v =>
      have henter : enterValue o (named found) (.text name) v
          = (add found ⟨name, some v⟩).map named := by
        simp only [enterValue, add, get?_named]
        rw [if_pos hkey]
        cases Given.add? v (Dict.get? found name) with
        | none => rfl
        | some given => exact congrArg Except.ok (put_named o found name given)
      show (o.withoutFirst (.text ("-" ++ name)) >>= fun key =>
        if isOption v then _ else enterValue o (named found) key v >>= fun found => readFrom o found _)
        = _
      rw [withoutFirst_dash]
      show (if isOption v then _ else _) = _
      rw [if_neg (by rw [hx v rfl]; decide), henter]
      cases add found ⟨name, some v⟩ <;> rfl

/-- Reading the arguments of occurrences enters them one by one. -/
theorem readFrom_args (o : Objects) {xs : List Occurrence} (h : ∀ x ∈ xs, x.Proper) :
    ∀ found, readFrom o (named found) ((xs.flatMap Occurrence.args).map fun arg => .ok (.text arg))
      = (xs.foldlM add found).map named := by
  induction xs with
  | nil => exact fun found => rfl
  | cons x rest ih =>
      intro found
      have hdash : ∀ arg, (rest.flatMap Occurrence.args)[0]? = some arg → isOption arg = true := by
        intro arg harg
        cases rest with
        | nil => cases harg
        | cons y more =>
            cases harg
            exact isOption_dash y.name
      rw [List.flatMap_cons, readFrom_cons o found (h x List.mem_cons_self) hdash, List.foldlM_cons]
      cases add found x with
      | error e => rfl
      | ok more => exact ih (fun y hy => h y (List.mem_cons_of_mem x hy)) more

/-! ### What occurrences give together -/

/-- The values that occur with an option. -/
def valuesOf (xs : List Occurrence) (name : String) : List String :=
  xs.filterMap fun x => if x.name == name then x.value else none

/-- What all occurrences of an option give it: a flag if one of them has no value, and else their
values. -/
def givenTo (xs : List Occurrence) (name : String) : Given :=
  if xs.contains ⟨name, none⟩ then .flag else .ofValues (valuesOf xs name)

/-- What occurrences give together, under the names in the order in which they first come. -/
def together (xs : List Occurrence) : List (String × Given) :=
  (xs.map Occurrence.name).eraseDups.map fun name => (name, givenTo xs name)

/-- All values that occur, under the names in the order in which they first come. -/
def allValues (xs : List Occurrence) : List (String × Given) :=
  (xs.map Occurrence.name).eraseDups.map fun name => (name, .ofValues (valuesOf xs name))

/-- Behind an occurrence without a value, no occurrence of the same option has one. -/
def ValuesFirst (xs : List Occurrence) : Prop :=
  xs.Pairwise fun x y => x.name = y.name → x.value = none → y.value = none

/-- An option that occurs without a value never occurs with one. -/
def Uniform (xs : List Occurrence) : Prop :=
  ∀ x ∈ xs, ∀ y ∈ xs, x.name = y.name → x.value = none → y.value = none

variable {xs : List Occurrence} {x : Occurrence}

theorem valuesOf_concat (xs : List Occurrence) (x : Occurrence) (name : String) :
    valuesOf (xs ++ [x]) name
      = valuesOf xs name ++ if x.name == name then x.value.toList else [] := by
  unfold valuesOf
  rw [List.filterMap_append, List.filterMap_cons, List.filterMap_nil]
  cases x.name == name
  · rfl
  · cases x.value <;> rfl

theorem givenTo_concat_ne {name : String} (h : name ≠ x.name) :
    givenTo (xs ++ [x]) name = givenTo xs name := by
  have hflag : (xs ++ [x]).contains ⟨name, none⟩ = xs.contains ⟨name, none⟩ := by
    have hne : x ≠ ⟨name, none⟩ := by
      rintro rfl
      exact h rfl
    simp [hne.symm]
  have hvalues : valuesOf (xs ++ [x]) name = valuesOf xs name := by
    rw [valuesOf_concat, if_neg fun hsame => h (eq_of_beq hsame).symm, List.append_nil]
  rw [givenTo, givenTo, hflag, hvalues]

theorem givenTo_concat_flag (xs : List Occurrence) (name : String) :
    givenTo (xs ++ [⟨name, none⟩]) name = .flag :=
  if_pos (by simp)

theorem keys_together (xs : List Occurrence) :
    (together xs).map Prod.fst = (xs.map Occurrence.name).eraseDups := by
  rw [together, List.map_map]
  exact List.map_id _

theorem not_mem_keys {name : String} (h : name ∉ xs.map Occurrence.name) :
    name ∉ (together xs).map Prod.fst := by
  rwa [keys_together, List.mem_eraseDups]

/-- Entering what the last occurrence makes of its option leaves what all occurrences give. -/
theorem put_together (xs : List Occurrence) (x : Occurrence) :
    Dict.put (together xs) x.name (givenTo (xs ++ [x]) x.name) = together (xs ++ [x]) := by
  rw [together, Dict.put_eraseDups fun name hne => givenTo_concat_ne hne, together, List.map_append]
  rfl

/-- One more value is added to what an option was given so far, unless that is a flag. -/
theorem add?_together {name : String} (h : ⟨name, none⟩ ∉ xs) (value : String) :
    Given.add? value (Dict.get? (together xs) name)
      = some (givenTo (xs ++ [⟨name, some value⟩]) name) := by
  have hnew : givenTo (xs ++ [⟨name, some value⟩]) name
      = .ofValues (valuesOf xs name ++ [value]) := by
    rw [givenTo, if_neg (by simpa using h), valuesOf_concat, if_pos (beq_self_eq_true name)]
    rfl
  rw [hnew]
  by_cases hmem : name ∈ xs.map Occurrence.name
  · obtain ⟨first, more, hvalues⟩ : ∃ first more, valuesOf xs name = first :: more := by
      obtain ⟨y, hy, rfl⟩ := List.mem_map.mp hmem
      obtain ⟨v, hv⟩ : ∃ v, y.value = some v := by
        refine Option.ne_none_iff_exists'.mp fun hnone => h ?_
        rw [← hnone]
        exact hy
      have hin : v ∈ valuesOf xs y.name := List.mem_filterMap.mpr ⟨y, hy, by simp [hv]⟩
      exact List.exists_cons_of_ne_nil (List.ne_nil_of_mem hin)
    have hget : Dict.get? (together xs) name = some (givenTo xs name) :=
      Dict.get?_map _ (List.mem_eraseDups.mpr hmem)
    rw [hget, givenTo, if_neg (by simpa using h), hvalues]
    cases more <;> rfl
  · have hnone : valuesOf xs name = [] := by
      refine List.filterMap_eq_nil_iff.mpr fun y hy => if_neg fun hsame => hmem ?_
      exact List.mem_map.mpr ⟨y, hy, eq_of_beq hsame⟩
    rw [Dict.get?_of_not_mem (not_mem_keys hmem), hnone]
    rfl

theorem valuesFirst_concat :
    ValuesFirst (xs ++ [x])
      ↔ ValuesFirst xs ∧ ∀ y ∈ xs, y.name = x.name → y.value = none → x.value = none := by
  simp [ValuesFirst, List.pairwise_append]

/-- Occurrences are entered as what they give together, and are refused if a value stands behind an
occurrence without one. -/
theorem foldlM_add (xs : List Occurrence) :
    (ValuesFirst xs → xs.foldlM add [] = .ok (together xs)) ∧
    (¬ ValuesFirst xs → xs.foldlM add [] = .error (.fault .noSuchAttribute)) := by
  induction xs using List.reverseRecOn with
  | nil => exact ⟨fun _ => rfl, fun h => absurd .nil h⟩
  | append_singleton xs x ih =>
      have hlast : (xs ++ [x]).foldlM add [] = xs.foldlM add [] >>= fun found => add found x := by
        rw [List.foldlM_append]
        simp only [List.foldlM_cons, List.foldlM_nil, bind_pure]
      rw [hlast, valuesFirst_concat]
      by_cases hfirst : ValuesFirst xs
      · rw [ih.1 hfirst]
        show (_ → add (together xs) x = _) ∧ (_ → add (together xs) x = _)
        obtain ⟨name, value⟩ := x
        cases value with
        | none =>
            have hput := put_together xs ⟨name, none⟩
            rw [givenTo_concat_flag] at hput
            exact ⟨fun _ => congrArg Except.ok hput,
              fun h => absurd ⟨hfirst, fun _ _ _ _ => rfl⟩ h⟩
        | some value =>
            by_cases hflag : ⟨name, none⟩ ∈ xs
            · refine ⟨fun h => ?_, fun _ => ?_⟩
              · cases h.2 _ hflag rfl rfl
              · have hget : Dict.get? (together xs) name = some .flag := by
                  rw [together, Dict.get?_map _
                    (List.mem_eraseDups.mpr (List.mem_map.mpr ⟨_, hflag, rfl⟩)), givenTo,
                    if_pos (by simpa using hflag)]
                simp only [add, hget, Given.add?]
            · have hadd : add (together xs) ⟨name, some value⟩
                  = .ok (together (xs ++ [⟨name, some value⟩])) := by
                simp only [add, add?_together hflag, put_together xs ⟨name, some value⟩]
              refine ⟨fun _ => hadd, fun h => absurd ⟨hfirst, fun y hy hname hvalue => ?_⟩ h⟩
              obtain ⟨_, _⟩ := y
              cases hname
              cases hvalue
              exact absurd hy hflag
      · rw [ih.2 hfirst]
        exact ⟨fun h => absurd h.1 hfirst, fun _ => rfl⟩

theorem ofValues_eq_flag {values : List String} : Given.ofValues values = .flag ↔ values = [] := by
  match values with
  | [] => exact ⟨fun _ => rfl, fun _ => rfl⟩
  | [_] => exact ⟨(nomatch ·), (nomatch ·)⟩
  | _ :: _ :: _ => exact ⟨(nomatch ·), (nomatch ·)⟩

theorem valuesOf_eq_nil {name : String} :
    valuesOf xs name = [] ↔ ∀ x ∈ xs, x.name = name → x.value = none := by
  simp [valuesOf]

theorem givenTo_eq_ofValues {name : String} :
    givenTo xs name = .ofValues (valuesOf xs name)
      ↔ (⟨name, none⟩ ∈ xs → ∀ x ∈ xs, x.name = name → x.value = none) := by
  rw [givenTo, ← valuesOf_eq_nil]
  by_cases hflag : ⟨name, none⟩ ∈ xs
  · rw [if_pos (List.contains_iff_mem.mpr hflag), eq_comm, ofValues_eq_flag]
    exact ⟨fun hnil _ => hnil, fun h => h hflag⟩
  · rw [if_neg (by simpa using hflag)]
    exact ⟨fun _ hin => absurd hin hflag, fun _ => rfl⟩

/-- Occurrences give together all their values if and only if they are uniform. -/
theorem together_eq_allValues : together xs = allValues xs ↔ Uniform xs := by
  unfold together allValues
  rw [List.map_inj_left]
  constructor
  · rintro h ⟨name, value⟩ hx y hy hname hvalue
    cases hvalue
    have hkept := h name (List.mem_eraseDups.mpr (List.mem_map_of_mem (f := Occurrence.name) hx))
    exact givenTo_eq_ofValues.mp (Prod.mk.inj hkept).2 hx y hy hname.symm
  · intro h name _
    refine congrArg (Prod.mk name) (givenTo_eq_ofValues.mpr fun hflag x hx hname => ?_)
    exact h _ hflag x hx hname.symm rfl

theorem Uniform.valuesFirst (h : Uniform xs) : ValuesFirst xs :=
  List.pairwise_of_forall_mem_list fun x hx y hy => h x hx y hy

theorem named_injective : Function.Injective named :=
  List.map_injective_iff.mpr fun e e' h => by
    obtain ⟨hname, hgiven⟩ := Prod.mk.inj h
    exact Prod.ext (Value.text.inj hname) hgiven

/-- Reading the arguments of occurrences, given one by one, enters the occurrences. -/
theorem readOptions_args (s : Session) {v : Value} (h : ∀ x ∈ xs, x.Proper)
    (hargs : v.bare = .list ((xs.flatMap Occurrence.args).map .text)) :
    s.readOptions v = (xs.foldlM add []).map named := by
  have hnumbered : s.objects.numbered v
      = .ok (.ofTexts (xs.flatMap Occurrence.args)) := by
    simp only [Objects.numbered, Objects.elements, Objects.elements?, Objects.items?, hargs]
    rfl
  have hread : s.readOptions v = Options.read s.objects (.ofTexts (xs.flatMap Occurrence.args)) := by
    unfold Session.readOptions
    split
    · cases hargs
    · rw [hnumbered]
      rfl
  rw [hread, ← readFrom_args s.objects h, read, Numbered.ofTexts, Numbered.all, List.map_map]
  rfl

/-- **Values are kept for options that occur with values only.**  Let every argument that is no option
stand directly behind one.  Then the arguments are those of their occurrences, and reading finds the
names of these in the order in which they first come, each with all its values, as they are if there is
one and as a list if there are several, if and only if no option occurs both with a value and without.
Otherwise an option that occurs without a value is a flag whatever it was given before, and the
arguments are refused if it occurs with a value thereafter. -/
theorem values_kept_iff (s : Session) {v : Value} {texts : List String}
    (htexts : v.bare = .list (texts.map .text)) (attached : Attached texts) :
    (occurrences texts).flatMap Occurrence.args = texts ∧
    (∀ x ∈ occurrences texts, x.Proper) ∧
    (s.readOptions v = .ok (named (allValues (occurrences texts))) ↔
      Uniform (occurrences texts)) ∧
    (ValuesFirst (occurrences texts) →
      s.readOptions v = .ok (named (together (occurrences texts)))) ∧
    (¬ ValuesFirst (occurrences texts) →
      s.readOptions v = .error (.fault .noSuchAttribute)) := by
  have hwritten := attached.args_occurrences
  have hproper := proper_occurrences texts
  have hread := readOptions_args s hproper (hwritten.symm ▸ htexts)
  obtain ⟨haccept, hrefuse⟩ := foldlM_add (occurrences texts)
  have hkeep : ValuesFirst (occurrences texts) →
      s.readOptions v = .ok (named (together (occurrences texts))) := fun hfirst => by
    rw [hread, haccept hfirst]
    rfl
  refine ⟨hwritten, hproper, ⟨fun h => ?_, fun huniform => ?_⟩, hkeep, fun hfirst => ?_⟩
  · by_cases hfirst : ValuesFirst (occurrences texts)
    · rw [hkeep hfirst] at h
      exact together_eq_allValues.mp (named_injective (Except.ok.inj h))
    · rw [hread, hrefuse hfirst] at h
      cases h
  · rw [hkeep huniform.valuesFirst, together_eq_allValues.mpr huniform]
  · rw [hread, hrefuse hfirst]
    rfl

/-- An option that comes twice with a value keeps both, one that comes again without is a flag, and one
that comes again with a value after it came without is refused. -/
theorem repeated_options_read :
    (Attached ["-map", "0:v", "-y", "-map", "0:a"] ∧
      ({} : Session).readOptions (.list (["-map", "0:v", "-y", "-map", "0:a"].map .text))
        = .ok [(.text "map", .several ["0:v", "0:a"]), (.text "y", .flag)]) ∧
    (Attached ["-y", "1", "-y"] ∧
      ({} : Session).readOptions (.list (["-y", "1", "-y"].map .text)) = .ok [(.text "y", .flag)]) ∧
    (Attached ["-y", "-y", "1"] ∧
      ({} : Session).readOptions (.list (["-y", "-y", "1"].map .text))
        = .error (.fault .noSuchAttribute)) := by
  have hmaps : Attached ["-map", "0:v", "-y", "-map", "0:a"] :=
    attached_args [⟨"map", some "0:v"⟩, ⟨"y", none⟩, ⟨"map", some "0:a"⟩]
  have hlast : Attached ["-y", "1", "-y"] := attached_args [⟨"y", some "1"⟩, ⟨"y", none⟩]
  have hfirst : Attached ["-y", "-y", "1"] := attached_args [⟨"y", none⟩, ⟨"y", some "1"⟩]
  obtain ⟨-, -, hkept, -⟩ := values_kept_iff {} (v := .list _) rfl hmaps
  obtain ⟨-, -, -, hflag, -⟩ := values_kept_iff {} (v := .list _) rfl hlast
  obtain ⟨-, -, -, -, hrefused⟩ := values_kept_iff {} (v := .list _) rfl hfirst
  refine ⟨⟨hmaps, hkept.mpr ?_⟩, ⟨hlast, hflag ?_⟩, ⟨hfirst, hrefused ?_⟩⟩
  · unfold Uniform
    decide
  · unfold ValuesFirst
    decide
  · unfold ValuesFirst
    decide

end Options

end MediaCommand
