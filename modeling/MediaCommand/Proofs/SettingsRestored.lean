/-
A context restores the settings.

A session keeps the settings in a record and puts the record back when a context is left.  Callers see a
dictionary that is written over.  Both are the same: a record is written down as a proper dictionary and
each proper dictionary is that of a record, and a change does the same to the two, so that one fails where
the other does (`Session.carryOut_like`).  The change that matters is the context, whose body goes on from
what its own settings left; the induction is on the tree of changes.
-/
import MediaCommand.Proofs.LiveSettings

namespace MediaCommand

namespace Settings

/-! ### The record and the dictionary -/

/-- A record takes the value that the check of a setting gives. -/
theorem check_eq (s : Settings) (k : Key) (v : Value) : check k v = (s.set k v).map (·.get k) := by
  cases k with
  | program =>
      show (toPath v).map _ = (toPath v >>= _).map _
      cases toPath v with
      | error why => rfl
      | ok p => cases p <;> rfl
  | mapsPerOutput | hideBanner | noStdin =>
      show (toBool v).map _ = (toBool v >>= _).map _
      cases toBool v <;> rfl

/-- Setting a setting of a record writes its value into the dictionary. -/
theorem put_entries {s s' : Settings} {k : Key} {v : Value} (h : s.set k v = .ok s') :
    Dict.put s.entries k.name (s'.get k) = s'.entries := by
  cases k with
  | program | mapsPerOutput | hideBanner | noStdin =>
      obtain ⟨x, -, hx⟩ := bind_ok.mp h
      cases hx
      rfl

/-- A proper dictionary is that of a record. -/
theorem Proper.exists_entries {d : Entries} (h : Proper d) : ∃ s : Settings, s.entries = d := by
  have hflag : ∀ k : Key, k ≠ .program → ∃ b, Dict.get? d k.name = some (.bool b) := by
    intro k hk
    obtain ⟨v, hget, hv⟩ := h.values k
    cases k with
    | program => exact absurd rfl hk
    | mapsPerOutput | hideBanner | noStdin =>
        rcases hv with rfl | rfl
        · exact ⟨true, hget⟩
        · exact ⟨false, hget⟩
  obtain ⟨maps, hmaps⟩ := hflag .mapsPerOutput nofun
  obtain ⟨hide, hhide⟩ := hflag .hideBanner nofun
  obtain ⟨no, hno⟩ := hflag .noStdin nofun
  obtain ⟨p, hp⟩ : ∃ p, Dict.get? d Key.program.name = some (get { program := p } .program) := by
    obtain ⟨v, hget, hv⟩ := h.values .program
    rcases hv with rfl | ⟨p, rfl⟩
    · exact ⟨none, hget⟩
    · exact ⟨some p, hget⟩
  refine ⟨⟨p, hide, no, maps⟩, Dict.eq_of_get? h.names.symm h.nodup ?_⟩
  intro name hname
  rw [h.names, ← keys_names] at hname
  obtain ⟨k, -, rfl⟩ := List.mem_map.mp hname
  rw [get?_entries]
  cases k with
  | mapsPerOutput => exact hmaps.symm
  | hideBanner => exact hhide.symm
  | noStdin => exact hno.symm
  | program => exact hp.symm

section

variable {s : Settings} {l : Live}

/-- An assignment does the same to the record and to the dictionary. -/
theorem assign_like (h : s.entries = l.now) (key v : Value) :
    (∃ s' l', s.assign key v = .ok s' ∧ l.assign key v = (l', .ok ()) ∧ s'.entries = l'.now) ∨
      ∃ why, s.assign key v = .error why ∧ l.assign key v = (l, .error why) := by
  unfold assign Live.assign
  cases keyOf? key with
  | none =>
      right
      refine ⟨_, ?_, rfl⟩
      by_cases hkey : key.isHashable = true
      · simp [hkey]
      · simp [hkey]
  | some k =>
      simp only [check_eq s]
      cases hset : s.set k v with
      | error why => exact .inr ⟨_, rfl, rfl⟩
      | ok s' =>
          refine .inl ⟨s', l.write (k.name, s'.get k), rfl, rfl, ?_⟩
          rw [← put_entries hset, h]
          rfl

theorem assignPairs_cons (s : Settings) (item : Except Error (List Value))
    (rest : List (Except Error (List Value))) :
    s.assignPairs (item :: rest) = match pairOf item with
      | .error why => (s, .error why)
      | .ok (key, v) => match s.assign key v with
        | .ok s => s.assignPairs rest
        | .error why => (s, .error why) := by
  rw [assignPairs]
  cases pairOf item <;> rfl

/-- The entries of a dictionary are set as the pairs that they are. -/
theorem assignAll_eq {entries : List (Value × Value)} :
    ∀ s : Settings, s.assignAll entries = s.assignPairs (entries.map fun e => .ok [e.1, e.2]) := by
  induction entries with
  | nil => exact fun _ => rfl
  | cons e rest ih =>
      intro s
      have hpair : pairOf (.ok [e.1, e.2]) = .ok e := rfl
      rw [List.map_cons, assignPairs_cons, assignAll, hpair]
      cases hassign : s.assign e.1 e.2 with
      | error why => simp only [hassign]
      | ok s' =>
          simp only [hassign]
          exact ih s'

theorem assignPairs_like (items : List (Except Error (List Value))) :
    ∀ {s : Settings} {l : Live}, s.entries = l.now →
      (s.assignPairs items).1.entries = (l.assignAll (items.map pairOf)).1.now ∧
        (s.assignPairs items).2 = (l.assignAll (items.map pairOf)).2 := by
  induction items with
  | nil => exact fun h => ⟨h, rfl⟩
  | cons item rest ih =>
      intro s l h
      rw [assignPairs_cons, List.map_cons]
      cases hpair : pairOf item with
      | error why => exact ⟨h, rfl⟩
      | ok entry =>
          rw [Live.assignAll]
          rcases assign_like h entry.1 entry.2 with ⟨s', l', hs, hl, h'⟩ | ⟨why, hs, hl⟩
          · rw [hl]
            simp only [hs]
            exact ih h'
          · rw [hl]
            simp only [hs]
            exact ⟨h, trivial⟩

/-- An update goes through the entries of a dictionary, or through what a loop over another value meets. -/
theorem pairsIn_cases (o : Objects) (rc : Value) :
    (∃ entries, rc.bare = .dict entries ∧ pairsIn o rc = .ok (entries.map .ok)) ∨
      (∀ entries, rc.bare ≠ .dict entries) ∧
        pairsIn o rc = (o.elements rc).map fun items => (items.map o.elements).map pairOf := by
  unfold pairsIn
  split
  · rename_i entries hbare
    exact .inl ⟨entries, hbare, rfl⟩
  · rename_i hbare
    simp only [List.map_map]
    exact .inr ⟨hbare, rfl⟩

end

end Settings

/-! ### Changes of a session -/

namespace Session

mutual

/-- Carries out a change of the settings. -/
def carryOut (s : Session) : Change → Reply Unit
  | .assign key v => s.assignSetting key v
  | .update rc => s.updateSettings rc
  | .remove key => s.removeSetting key
  | .reset => s.resetSettings.answer (.ok ())
  | .fail why => s.answer (.error why)
  | .attempt body => (s.carryOutAll body).session.answer (.ok ())
  | .within rc body =>
    let left := s.within rc fun inside =>
      let r := inside.carryOutAll body
      (r.session, r.result)
    { session := left.session, result := left.result.bind id }

/-- Carries out changes up to the first that fails. -/
def carryOutAll (s : Session) : List Change → Reply Unit
  | [] => s.answer (.ok ())
  | c :: rest =>
    let r := s.carryOut c
    match r.result with
    | .ok () => r.session.carryOutAll rest
    | .error _ => r

end

open Settings

/-- A reply leaves the objects, leaves the settings as a dictionary is left, and fails if that failed. -/
structure Like (o : Objects) (r : Reply Unit) (x : Live × Except Error Unit) : Prop where
  objects : r.session.objects = o
  settings : r.session.settings.entries = x.1.now
  outcome : r.result.isOk = x.2.isOk

variable {s : Session} {l : Live}

theorem isOk_mapError {ε ε' α : Type} (f : ε → ε') (r : Except ε α) : (r.mapError f).isOk = r.isOk := by
  cases r <;> rfl

theorem answer_like {o : Objects} {x : Live × Except Error Unit} {r : Except Error Unit}
    (ho : s.objects = o) (h : s.settings.entries = x.1.now) (hr : r.isOk = x.2.isOk) :
    Like o (s.answer r) x :=
  ⟨ho, h, (isOk_mapError _ r).trans hr⟩

theorem updateSettings_like (h : s.settings.entries = l.now) (rc : Value) :
    Like s.objects (s.updateSettings rc) (l.update s.objects rc) := by
  unfold updateSettings Live.update
  rcases pairsIn_cases s.objects rc with ⟨entries, hbare, hpairs⟩ | ⟨hbare, hpairs⟩
  · have hentries : (entries.map fun e => .ok [e.1, e.2]).map pairOf = entries.map .ok := by
      rw [List.map_map]
      rfl
    obtain ⟨hnow, hr⟩ := assignPairs_like (entries.map fun e => .ok [e.1, e.2]) h
    rw [hentries, ← assignAll_eq] at hnow hr
    rw [hpairs, hbare]
    exact answer_like rfl hnow (congrArg Except.isOk hr)
  · rw [hpairs]
    split
    rename_i settings r hr
    split at hr
    · rename_i entries hdict
      exact absurd hdict (hbare entries)
    · cases helements : s.objects.elements rc with
      | error why =>
          rw [helements] at hr
          cases hr
          exact answer_like rfl h rfl
      | ok items =>
          rw [helements] at hr
          obtain ⟨hnow, hend⟩ := assignPairs_like (items.map s.objects.elements) h
          simp only at hr
          rw [hr] at hnow hend
          exact answer_like rfl hnow (congrArg Except.isOk hend)

/-- A context does the same to both if its body does, from wherever it goes on. -/
theorem within_like (hl : l.Kept) (h : s.settings.entries = l.now) (rc : Value) {body : List Change}
    (hbody : ∀ {inside : Session} {l' : Live}, l'.Kept → inside.settings.entries = l'.now →
      Like inside.objects (inside.carryOutAll body) (l'.runAll inside.objects body)) :
    Like s.objects (s.carryOut (.within rc body)) (l.run s.objects (.within rc body)) := by
  have hentered : Like s.objects (if s.objects.truth rc then s.updateSettings rc else s.answer (.ok ()))
      (l.enter s.objects rc) := by
    unfold Live.enter
    split
    · exact updateSettings_like h rc
    · exact answer_like rfl h rfl
  have hkept := hl.enter s.objects rc
  rw [carryOut, within, Live.run]
  generalize (if s.objects.truth rc then s.updateSettings rc else s.answer (.ok ())) = entered
    at hentered
  generalize l.enter s.objects rc = x at hentered hkept
  obtain ⟨inside, r⟩ := x
  obtain ⟨session, log, result⟩ := entered
  obtain ⟨hobjects, hsettings, houtcome⟩ := hentered
  -- The body runs for both or for neither.
  cases r with
  | error why =>
      cases result with
      | ok _ => cases houtcome
      | error _ => exact ⟨hobjects, h.trans (hkept.restored hl.now).symm, rfl⟩
  | ok _ =>
      cases result with
      | error _ => cases houtcome
      | ok _ =>
          have hlike := hbody hkept hsettings
          have hleft := Live.kept_runAll hkept s.objects body
          rw [hobjects] at hlike
          exact ⟨hlike.objects, h.trans (hleft.restored hl.now).symm, hlike.outcome⟩

mutual

/-- A change does the same to the settings of a session and to the dictionary. -/
theorem carryOut_like {s : Session} {l : Live} (hl : l.Kept) (h : s.settings.entries = l.now) :
    ∀ c : Change, Like s.objects (s.carryOut c) (l.run s.objects c)
  | .assign key v => by
      show Like _ (s.assignSetting key v) (l.assign key v)
      unfold assignSetting
      rcases assign_like h key v with ⟨settings, l', hs, hassign, h'⟩ | ⟨why, hs, hassign⟩
      · rw [hs, hassign]
        exact answer_like rfl h' rfl
      · rw [hs, hassign]
        exact answer_like rfl h rfl
  | .update rc => updateSettings_like h rc
  | .remove _ => answer_like rfl h rfl
  | .reset => answer_like rfl (hl.restored (proper_entries {})).symm rfl
  | .fail _ => answer_like rfl h rfl
  | .attempt body => by
      have hbody := carryOutAll_like hl h body
      exact answer_like hbody.objects hbody.settings rfl
  | .within rc body => within_like hl h rc fun hkept hinside => carryOutAll_like hkept hinside body

theorem carryOutAll_like {s : Session} {l : Live} (hl : l.Kept) (h : s.settings.entries = l.now) :
    ∀ body : List Change, Like s.objects (s.carryOutAll body) (l.runAll s.objects body)
  | [] => answer_like rfl h rfl
  | c :: rest => by
      have hfirst := carryOut_like hl h c
      have hkept := Live.kept_run hl s.objects c
      rw [carryOutAll, Live.runAll]
      generalize s.carryOut c = first at hfirst
      generalize l.run s.objects c = x at hfirst hkept
      obtain ⟨l', r⟩ := x
      obtain ⟨session, log, result⟩ := first
      obtain ⟨hobjects, hsettings, houtcome⟩ := hfirst
      cases r with
      | error why =>
          cases result with
          | ok _ => cases houtcome
          | error _ => exact ⟨hobjects, hsettings, rfl⟩
      | ok _ =>
          cases result with
          | error _ => cases houtcome
          | ok _ =>
              have hrest := carryOutAll_like hkept hsettings rest
              rw [hobjects] at hrest
              exact hrest

end

/-- A context leaves the settings as it found them, whatever it sets, whatever its body does and however
they end.  At every moment until then the dictionary has exactly the four settings as keys, with truth
values for three of them and a text or nothing for the program.  A session keeps this dictionary in a
record: every change does the same to both, and fails for both or for neither. -/
theorem context_restores_settings {l : Live} (h : l.Reached) (o : Objects) (rc : Value)
    (body : List Change) :
    (l.run o (.within rc body)).1.now = l.now ∧
      (∀ d ∈ (l.run o (.within rc body)).1.moments, Proper d) ∧
      ∃ settings : Settings, settings.entries = l.now ∧
        ∀ (s : Session) (c : Change), s.objects = o → s.settings = settings →
          (s.carryOut c).session.settings.entries = (l.run o c).1.now ∧
            (s.carryOut c).result.isOk = (l.run o c).2.isOk := by
  have hkept := h.kept
  obtain ⟨settings, hentries⟩ := hkept.now.exists_entries
  refine ⟨hkept.within o rc body, Live.kept_run hkept o _, settings, hentries, ?_⟩
  rintro s c rfl rfl
  have hlike := carryOut_like hkept hentries c
  exact ⟨hlike.settings, hlike.outcome⟩

/-- Settings changed before a context, in it, and in one inside that is refused half way. -/
theorem nested_context_restores_settings :
    let l := (Live.run { now := entries {} } {} (.assign (.text "ffmpeg.nostdin") (.bool false))).1
    let refused := Value.dict [(.text "ffmpeg.nostdin", .bool true), (.text "path.ffmpeg", .int 7)]
    l.Reached ∧
      (l.run {} (.within (.dict [(.text "ffmpeg.hide_banner", .int 0)])
          [.attempt [.remove (.text "path.ffmpeg")], .reset, .within refused []])).1.now
        = [("command.per_output_maps", .bool false), ("ffmpeg.hide_banner", .bool true),
            ("ffmpeg.nostdin", .bool false), ("path.ffmpeg", .null)] := by
  have hreached : (Live.run { now := entries {} } {}
      (.assign (.text "ffmpeg.nostdin") (.bool false))).1.Reached := .run .start {} _
  exact ⟨hreached, (context_restores_settings hreached {} _ _).1.trans rfl⟩

end Session

end MediaCommand
