/-
The settings as a live dictionary.

Callers hold the settings as a dictionary.  It is written to one key after the other, so settings that
are refused half way leave behind what was written before, and a context puts back what it found by
writing all of that over what is there.  This restores nothing that was removed and removes nothing that
was added.  That it does not have to is what is shown: whatever a change does and wherever it fails, the
dictionary has the same four keys at every moment, each with a value of its kind (`Live.kept_run`).

One write decides this: a value that passed the check of a setting is of the kind of that setting, and
the setting is there (`Proper.put`).  Everything else that writes is made of such writes.
-/
import MediaCommand.Proofs.Dictionaries
import MediaCommand.Proofs.Lookup
import MediaCommand.Session.Basic

namespace MediaCommand

/-- What callers do with the settings. -/
inductive Change
  | assign (key v : Value)
  | update (rc : Value)
  | remove (key : Value)
  | reset
  /-- Something else that fails. -/
  | fail (why : Error)
  /-- Changes up to the first that fails, whose failure is caught. -/
  | attempt (body : List Change)
  /-- Changes up to the first that fails, in a context with settings of its own. -/
  | within (rc : Value) (body : List Change)

namespace Settings

/-- Settings as a dictionary. -/
abbrev Entries := List (String × Value)

/-- The settings of a record as a dictionary. -/
def entries (s : Settings) : Entries := keys.map fun k => (k.name, s.get k)

/-! ### Dictionaries as they should be -/

/-- A setting takes truth values, and the one for the program takes a text or nothing. -/
def Key.Takes : Key → Value → Prop
  | .program, v => v = .null ∨ ∃ p, v = .text p
  | _, v => v = .bool true ∨ v = .bool false

/-- A dictionary with exactly the four settings as keys and a value of its kind for each. -/
structure Proper (d : Entries) : Prop where
  names : d.map Prod.fst
    = ["command.per_output_maps", "ffmpeg.hide_banner", "ffmpeg.nostdin", "path.ffmpeg"]
  values : ∀ k : Key, ∃ v, Dict.get? d k.name = some v ∧ k.Takes v

theorem Key.name_inj {k k' : Key} : k.name = k'.name ↔ k = k' := by
  cases k <;> cases k' <;> simp [name]

theorem keys_names : keys.map Key.name
    = ["command.per_output_maps", "ffmpeg.hide_banner", "ffmpeg.nostdin", "path.ffmpeg"] := rfl

theorem Key.mem_keys (k : Key) : k ∈ keys := by
  cases k <;> simp [keys]

theorem Key.takes_bool {k : Key} (b : Bool) (h : k ≠ .program) : k.Takes (.bool b) := by
  cases k with
  | program => exact absurd rfl h
  | mapsPerOutput | hideBanner | noStdin => cases b <;> simp [Takes]

theorem takes_get (s : Settings) (k : Key) : k.Takes (s.get k) := by
  cases k with
  | program =>
      rw [get]
      cases s.program with
      | none => exact .inl rfl
      | some p => exact .inr ⟨p, rfl⟩
  | mapsPerOutput | hideBanner | noStdin => exact Key.takes_bool _ nofun

theorem get?_entries (s : Settings) (k : Key) : Dict.get? s.entries k.name = some (s.get k) := by
  cases k <;> rfl

/-- A record is a proper dictionary. -/
theorem proper_entries (s : Settings) : Proper s.entries :=
  ⟨rfl, fun k => ⟨s.get k, get?_entries s k, takes_get s k⟩⟩

namespace Proper

variable {d : Entries}

theorem nodup (h : Proper d) : (d.map Prod.fst).Nodup := by
  rw [h.names]
  decide

theorem mem_names (h : Proper d) (k : Key) : k.name ∈ d.map Prod.fst := by
  rw [h.names, ← keys_names]
  exact List.mem_map_of_mem k.mem_keys

/-- A setting that is set to a value of its kind leaves the dictionary proper. -/
theorem put (h : Proper d) {k : Key} {v : Value} (hv : k.Takes v) : Proper (Dict.put d k.name v) := by
  refine ⟨(Dict.map_fst_put (h.mem_names k) v).trans h.names, ?_⟩
  intro k'
  rw [Dict.get?_put]
  by_cases hk : k = k'
  · subst hk
    exact ⟨v, if_pos (beq_self_eq_true _), hv⟩
  · rw [if_neg (by simpa [Key.name_inj] using hk)]
    exact h.values k'

/-- What stands in a proper dictionary are settings with values of their kinds. -/
theorem of_mem (h : Proper d) {e : String × Value} (he : e ∈ d) : ∃ k : Key, e.1 = k.name ∧ k.Takes e.2 := by
  have hname : e.1 ∈ keys.map Key.name := by
    rw [keys_names, ← h.names]
    exact List.mem_map_of_mem he
  obtain ⟨k, -, hk⟩ := List.mem_map.mp hname
  refine ⟨k, hk.symm, ?_⟩
  obtain ⟨v, hget, hv⟩ := h.values k
  rw [hk, Dict.get?_of_mem h.nodup he] at hget
  cases hget
  exact hv

end Proper

/-! ### The live dictionary -/

/-- The dictionary as it is now, and as it was before each write. -/
structure Live where
  now : Entries
  past : List Entries := []

/-- The value that a setting is given, if the value passes the check of that setting. -/
def check (k : Key) (v : Value) : Except Refusal Value :=
  match k with
  | .program => (toPath v).map fun
    | some p => .text p
    | none => .null
  | _ => (toBool v).map .bool

/-- What an update goes through: the entries of a dictionary, or what a loop over the value meets, each
of which is to be a pair. -/
def pairsIn (o : Objects) (rc : Value) : Except Error (List (Except Error (Value × Value))) :=
  match rc.bare with
  | .dict entries => .ok (entries.map .ok)
  | _ => (o.elements rc).map fun items => items.map fun item => pairOf (o.elements item)

/-- The values that an update gives to settings. -/
def valuesIn (o : Objects) (rc : Value) : List Value :=
  match pairsIn o rc with
  | .ok pairs => pairs.filterMap fun
    | .ok (_, v) => some v
    | .error _ => none
  | .error _ => []

mutual

/-- The values that a change gives to settings, whether or not they are taken. -/
def given (o : Objects) : Change → List Value
  | .assign _ v => [v]
  | .update rc => valuesIn o rc
  | .remove _ => []
  | .reset => []
  | .fail _ => []
  | .attempt body => givenAll o body
  | .within rc body => valuesIn o rc ++ givenAll o body

/-- The values that changes give to settings. -/
def givenAll (o : Objects) : List Change → List Value
  | [] => []
  | c :: rest => given o c ++ givenAll o rest

end

namespace Live

/-- The dictionary at every moment. -/
def moments (l : Live) : List Entries := l.past ++ [l.now]

/-- Writes a value under a key, whatever the two are. -/
def write (l : Live) (e : String × Value) : Live :=
  { now := Dict.put l.now e.1 e.2, past := l.past ++ [l.now] }

/-- Writes the entries of a dictionary one after the other. -/
def copyOver (l : Live) (d : Entries) : Live := d.foldl write l

/-- Sets the setting that a value names, if there is one and it takes the value. -/
def assign (l : Live) (key v : Value) : Live × Except Error Unit :=
  match keyOf? key with
  | some k =>
    match check k v with
    | .ok w => (l.write (k.name, w), .ok ())
    | .error why => (l, .error (.settingRefused k.name why))
  | none => (l, .error (if key.isHashable then .unknownSetting key else .fault .wrongType))

/-- Sets settings one after the other, up to the first that is no pair or is refused. -/
def assignAll (l : Live) : List (Except Error (Value × Value)) → Live × Except Error Unit
  | [] => (l, .ok ())
  | .error why :: _ => (l, .error why)
  | .ok (key, v) :: rest =>
    match l.assign key v with
    | (l, .ok ()) => l.assignAll rest
    | failed => failed

/-- Sets the settings that a value gives. -/
def update (l : Live) (o : Objects) (rc : Value) : Live × Except Error Unit :=
  match pairsIn o rc with
  | .ok pairs => l.assignAll pairs
  | .error why => (l, .error why)

/-- Sets the settings of a context, if it has any. -/
def enter (l : Live) (o : Objects) (rc : Value) : Live × Except Error Unit :=
  if o.truth rc then l.update o rc else (l, .ok ())

mutual

/-- Carries out a change.  A context writes back what it found however its body ends, and also if the
body does not begin because the settings of the context are refused. -/
def run (l : Live) (o : Objects) : Change → Live × Except Error Unit
  | .assign key v => l.assign key v
  | .update rc => l.update o rc
  | .remove key => (l, .error (.fixedSetting key))
  | .reset => (l.copyOver (entries {}), .ok ())
  | .fail why => (l, .error why)
  | .attempt body => ((l.runAll o body).1, .ok ())
  | .within rc body =>
    match l.enter o rc with
    | (inside, .ok ()) =>
      let (left, r) := inside.runAll o body
      (left.copyOver l.now, r)
    | (inside, .error why) => (inside.copyOver l.now, .error why)

/-- Carries out changes up to the first that fails. -/
def runAll (l : Live) (o : Objects) : List Change → Live × Except Error Unit
  | [] => (l, .ok ())
  | c :: rest =>
    match l.run o c with
    | (l, .ok ()) => l.runAll o rest
    | failed => failed

end

/-- The dictionaries that come about from the one that every session starts with. -/
inductive Reached : Live → Prop
  | start : Reached { now := entries {} }
  | run {l : Live} (h : Reached l) (o : Objects) (c : Change) : Reached (l.run o c).1

/-! ### What every change keeps -/

/-- The dictionary has a property at every moment. -/
def Always (Q : Entries → Prop) (l : Live) : Prop := ∀ d ∈ l.moments, Q d

/-- A property of dictionaries that stays if a value that is given passes the check of a setting and is
written, and if an entry is written back out of a dictionary that has the property. -/
structure Stable (values : List Value) (Q : Entries → Prop) : Prop where
  start : Q (entries {})
  put : ∀ {d : Entries} {k : Key} {v w : Value}, Q d → v ∈ values → check k v = .ok w →
    Q (Dict.put d k.name w)
  back : ∀ {d found : Entries} {e : String × Value}, Q d → Q found → e ∈ found →
    Q (Dict.put d e.1 e.2)

variable {values : List Value} {Q : Entries → Prop} {l : Live}

theorem Always.now (h : Always Q l) : Q l.now := h l.now (by simp [moments])

theorem Always.write (h : Always Q l) {e : String × Value} (he : Q (Dict.put l.now e.1 e.2)) :
    Always Q (l.write e) := by
  intro d hd
  rcases List.mem_append.mp hd with hpast | hnow
  · exact h d hpast
  · rw [List.mem_singleton.mp hnow]
    exact he

namespace Stable

theorem assign (hQ : Stable values Q) (h : Always Q l) (key : Value) {v : Value} (hv : v ∈ values) :
    Always Q (l.assign key v).1 := by
  unfold Live.assign
  split
  · split
    · rename_i w hcheck
      exact h.write (hQ.put h.now hv hcheck)
    · exact h
  · exact h

theorem assignAll (hQ : Stable values Q) {pairs : List (Except Error (Value × Value))}
    (hpairs : ∀ key v, .ok (key, v) ∈ pairs → v ∈ values) :
    ∀ {l : Live}, Always Q l → Always Q (l.assignAll pairs).1 := by
  induction pairs with
  | nil => exact id
  | cons pair rest ih =>
      intro l h
      cases pair with
      | error why => exact h
      | ok entry =>
          have hfirst := hQ.assign h entry.1 (hpairs entry.1 entry.2 List.mem_cons_self)
          rw [Live.assignAll]
          split
          · rename_i l' hassign
            rw [hassign] at hfirst
            exact ih (fun key v hin => hpairs key v (List.mem_cons_of_mem _ hin)) hfirst
          · exact hfirst

theorem update (hQ : Stable values Q) (h : Always Q l) (o : Objects) {rc : Value}
    (hrc : valuesIn o rc ⊆ values) : Always Q (l.update o rc).1 := by
  unfold Live.update
  split
  · rename_i pairs hpairs
    refine hQ.assignAll (fun key v hin => hrc ?_) h
    unfold valuesIn
    rw [hpairs]
    exact List.mem_filterMap.mpr ⟨_, hin, rfl⟩
  · exact h

theorem enter (hQ : Stable values Q) (h : Always Q l) (o : Objects) {rc : Value}
    (hrc : valuesIn o rc ⊆ values) : Always Q (l.enter o rc).1 := by
  unfold Live.enter
  split
  · exact hQ.update h o hrc
  · exact h

/-- Writing back a dictionary with the property keeps the property at every moment of it. -/
theorem copyOver (hQ : Stable values Q) (h : Always Q l) {d : Entries} (hd : Q d) :
    Always Q (l.copyOver d) := by
  have hgen : ∀ part : Entries, part ⊆ d → ∀ l : Live, Always Q l → Always Q (l.copyOver part) := by
    intro part
    induction part with
    | nil => exact fun _ _ hl => hl
    | cons e rest ih =>
        intro hpart l hl
        obtain ⟨he, hrest⟩ := List.cons_subset.mp hpart
        exact ih hrest _ (hl.write (hQ.back hl.now hd he))
  exact hgen d (List.Subset.refl d) l h

/-- A context ends by writing back what it found over a dictionary that has the property if its body keeps
it so. -/
theorem left (hQ : Stable values Q) (h : Always Q l) (o : Objects) {rc : Value} {body : List Change}
    (hrc : valuesIn o rc ⊆ values)
    (hbody : ∀ {inside : Live}, Always Q inside → Always Q (inside.runAll o body).1) :
    ∃ left : Live, Always Q left ∧ (l.run o (.within rc body)).1 = left.copyOver l.now := by
  have hentered := hQ.enter h o hrc
  rw [run]
  split
  · rename_i inside henter
    rw [henter] at hentered
    exact ⟨_, hbody hentered, rfl⟩
  · rename_i inside why henter
    rw [henter] at hentered
    exact ⟨_, hentered, rfl⟩

mutual

/-- Every change keeps the property, if what it gives is of the values. -/
theorem run (hQ : Stable values Q) {l : Live} (h : Always Q l) (o : Objects) :
    ∀ c : Change, given o c ⊆ values → Always Q (l.run o c).1
  | .assign key v => fun hc => hQ.assign h key (hc List.mem_cons_self)
  | .update rc => fun hc => hQ.update h o hc
  | .remove _ => fun _ => h
  | .reset => fun _ => hQ.copyOver h hQ.start
  | .fail _ => fun _ => h
  | .attempt body => fun hc => hQ.runAll h o body hc
  | .within rc body => by
      intro hc
      obtain ⟨hrc, hbody⟩ := List.append_subset.mp hc
      obtain ⟨left, hleft, heq⟩ := hQ.left h o hrc fun hinside => hQ.runAll hinside o body hbody
      rw [heq]
      exact hQ.copyOver hleft h.now

theorem runAll (hQ : Stable values Q) {l : Live} (h : Always Q l) (o : Objects) :
    ∀ body : List Change, givenAll o body ⊆ values → Always Q (l.runAll o body).1
  | [] => fun _ => h
  | c :: rest => by
      intro hbody
      obtain ⟨hc, hrest⟩ := List.append_subset.mp hbody
      have hfirst := hQ.run h o c hc
      rw [Live.runAll]
      split
      · rename_i l' hrun
        rw [hrun] at hfirst
        exact hQ.runAll hfirst o rest hrest
      · exact hfirst

end

end Stable

/-! ### Proper at every moment -/

/-- The dictionary is proper at every moment. -/
def Kept (l : Live) : Prop := ∀ d ∈ l.moments, Proper d

theorem Kept.now (h : Kept l) : Proper l.now := Always.now h

theorem takes_of_check {k : Key} {v w : Value} (h : check k v = .ok w) : k.Takes w := by
  cases k with
  | program =>
      obtain ⟨p, -, rfl⟩ := map_ok.mp h
      cases p with
      | none => exact .inl rfl
      | some p => exact .inr ⟨p, rfl⟩
  | mapsPerOutput | hideBanner | noStdin =>
      obtain ⟨b, -, rfl⟩ := map_ok.mp h
      exact Key.takes_bool b nofun

/-- Whatever values are given, a dictionary stays proper. -/
theorem stable_proper (values : List Value) : Stable values Proper where
  start := proper_entries {}
  put := fun hd _ hcheck => hd.put (takes_of_check hcheck)
  back := by
    intro d found e hd hfound he
    obtain ⟨k, hk, hv⟩ := hfound.of_mem he
    rw [hk]
    exact hd.put hv

theorem Kept.enter (h : Kept l) (o : Objects) (rc : Value) : Kept (l.enter o rc).1 :=
  (stable_proper (valuesIn o rc)).enter h o (List.Subset.refl _)

/-- Every change keeps the dictionary proper at every moment. -/
theorem kept_run (h : Kept l) (o : Objects) (c : Change) : Kept (l.run o c).1 :=
  (stable_proper (given o c)).run h o c (List.Subset.refl _)

theorem kept_runAll (h : Kept l) (o : Objects) (body : List Change) : Kept (l.runAll o body).1 :=
  (stable_proper (givenAll o body)).runAll h o body (List.Subset.refl _)

theorem now_copyOver (l : Live) (d : Entries) : (l.copyOver d).now = Dict.update l.now d := by
  unfold copyOver Dict.update
  induction d generalizing l with
  | nil => rfl
  | cons e rest ih => exact ih (l.write e)

/-- What is written back is all that there is afterwards. -/
theorem Kept.restored (h : Kept l) {d : Entries} (hd : Proper d) : (l.copyOver d).now = d := by
  rw [now_copyOver]
  apply Dict.update_eq_self
  · rw [h.now.names, hd.names]
  · exact hd.nodup

/-- A context leaves the dictionary as it found it. -/
theorem Kept.within (h : Kept l) (o : Objects) (rc : Value) (body : List Change) :
    (l.run o (.within rc body)).1.now = l.now := by
  obtain ⟨left, hleft, heq⟩ := (stable_proper (valuesIn o rc)).left h o (List.Subset.refl _)
    fun hinside => kept_runAll hinside o body
  rw [heq]
  exact Kept.restored hleft h.now

theorem Reached.kept (h : Reached l) : Kept l := by
  induction h with
  | start =>
      intro d hd
      rw [List.mem_singleton.mp hd]
      exact proper_entries {}
  | run _ o c ih => exact kept_run ih o c

end Live

end Settings

end MediaCommand
