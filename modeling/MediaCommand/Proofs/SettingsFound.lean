/-
What a search of the settings finds.

A search hands out a copy of the settings that match, and checks every value again on the way.  A copy of all
settings does not check them.  So the two hand out the same values as long as each check leaves alone what it
let through before.

A truth value is left alone, and so is nothing.  A text is let through as a path unless it is the word for no
path at all; but a path is let through whatever it is called, and stands in the settings as a text.  A search
takes a path called by that word for no path (`check_again`), and this is the only way in which what it finds
is not what is set.  That it is a path which was given so, and not a text, is read off the values that were
given on the way to the settings: each value that is set is a default or what a check made of one of these
(`ReachedFrom.comes`).
-/
import MediaCommand.Proofs.SettingsRestored

namespace MediaCommand

namespace Settings

/-! ### Checking twice -/

/-- The program is set to a path called like the word for none, in letters of any case. -/
def CalledNone (s : Settings) : Prop := s.program.map Text.lower = some "none"

instance (s : Settings) : Decidable s.CalledNone := inferInstanceAs (Decidable (_ = _))

/-- The value of a setting after it is checked once more. -/
def again (s : Settings) (k : Key) : Value := if k = .program ∧ s.CalledNone then .null else s.get k

/-- What is set passes its check, and is left alone by it except for a path called like the word for none. -/
theorem check_again (s : Settings) (k : Key) : check k (s.get k) = .ok (s.again k) := by
  unfold again
  cases k with
  | program =>
      rw [get]
      cases hprogram : s.program with
      | none =>
          rw [if_neg (by simp [CalledNone, hprogram])]
          rfl
      | some p =>
          rw [check, toPath]
          show (Except.ok (if Text.lower p == "none" then none else some p)).map _ = _
          by_cases hnone : Text.lower p = "none"
          · rw [if_pos (by simpa using hnone), if_pos (by simp [CalledNone, hprogram, hnone])]
            rfl
          · rw [if_neg (by simpa using hnone), if_neg (by simp [CalledNone, hprogram, hnone])]
            rfl
  | mapsPerOutput =>
      rw [get]
      cases s.mapsPerOutput <;> rfl
  | hideBanner =>
      rw [get]
      cases s.hideBanner <;> rfl
  | noStdin =>
      rw [get]
      cases s.noStdin <;> rfl

theorem again_eq_get_iff (s : Settings) (k : Key) : s.again k = s.get k ↔ ¬(k = .program ∧ s.CalledNone) := by
  unfold again
  by_cases hcalled : k = .program ∧ s.CalledNone
  · rw [if_pos hcalled]
    obtain ⟨rfl, hnone⟩ := hcalled
    obtain ⟨p, hp, -⟩ := Option.map_eq_some_iff.mp hnone
    simp [get, hp, hnone]
  · simp [hcalled]

/-! ### Searching -/

/-- The settings whose names are hit, each with its value checked again. -/
def findWhere (s : Settings) (hit : String → Bool) : Except Error (List (Key × Value)) :=
  (keys.filter fun k => hit k.name).mapM fun k =>
    match s.set k (s.get k) with
    | .ok checked => .ok (k, checked.get k)
    | .error why => .error (.settingRefused k.name why)

theorem findAll_eq (s : Settings) (pattern : String) : s.findAll pattern = s.findWhere (occursIn pattern) :=
  rfl

/-- The settings whose names are hit, each with its value. -/
def liveWhere (s : Settings) (hit : String → Bool) : List (Key × Value) :=
  (keys.filter fun k => hit k.name).map fun k => (k, s.get k)

theorem findWhere_eq (s : Settings) (hit : String → Bool) :
    s.findWhere hit = .ok ((keys.filter fun k => hit k.name).map fun k => (k, s.again k)) := by
  refine mapM_ok_map fun k _ => ?_
  have hcheck := check_again s k
  rw [check_eq s] at hcheck
  obtain ⟨checked, hset, hget⟩ := map_ok.mp hcheck
  rw [hset, ← hget]

/-- A search finds what is set unless it comes upon a path called like the word for none. -/
theorem findWhere_live_iff (s : Settings) (hit : String → Bool) :
    s.findWhere hit = .ok (s.liveWhere hit) ↔ ¬(hit Key.program.name = true ∧ s.CalledNone) := by
  rw [findWhere_eq, liveWhere, Except.ok.injEq, List.map_inj_left]
  constructor
  · rintro hsame ⟨hhit, hnone⟩
    have hprogram := hsame .program (List.mem_filter.mpr ⟨Key.mem_keys _, hhit⟩)
    exact (again_eq_get_iff s .program).mp (Prod.mk.inj hprogram).2 ⟨rfl, hnone⟩
  · intro hfree k hk
    rw [(again_eq_get_iff s k).mpr]
    rintro ⟨rfl, hnone⟩
    exact hfree ⟨(List.mem_filter.mp hk).2, hnone⟩

/-! ### Where what is set comes from -/

/-- An entry that is there by default, or that holds what the check of its setting made of a given value. -/
def Comes (values : List Value) (e : String × Value) : Prop :=
  e ∈ entries {} ∨ ∃ k : Key, e.1 = k.name ∧ ∃ v ∈ values, check k v = .ok e.2

theorem Comes.mono {values more : List Value} {e : String × Value} (h : Comes values e)
    (hsub : values ⊆ more) : Comes more e := by
  rcases h with hdefault | ⟨k, hk, v, hv, hcheck⟩
  · exact .inl hdefault
  · exact .inr ⟨k, hk, v, hsub hv, hcheck⟩

/-- Whatever is written comes from what is given, or was there before. -/
theorem stable_comes (values : List Value) : Live.Stable values fun d => ∀ e ∈ d, Comes values e where
  start := fun _ he => .inl he
  put := by
    intro d k v w hd hv hcheck e he
    rcases Dict.mem_put he with hold | rfl
    · exact hd e hold
    · exact .inr ⟨k, rfl, v, hv, hcheck⟩
  back := by
    intro d found e hd hfound he e' he'
    rcases Dict.mem_put he' with hold | rfl
    · exact hd e' hold
    · exact hfound e he

/-- The settings that sessions come to, and all values that were given on the way: to the settings that every
session starts with, and from those that one came to, to those that a change leaves.  In a context the
settings are those after an update with what the context sets. -/
inductive ReachedFrom : List Value → Settings → Prop
  | start : ReachedFrom [] {}
  | change {values : List Value} {settings : Settings} (h : ReachedFrom values settings) (s : Session)
      (hs : s.settings = settings) (c : Change) :
      ReachedFrom (values ++ given s.objects c) (s.carryOut c).session.settings

variable {values : List Value} {settings : Settings}

theorem ReachedFrom.live (h : ReachedFrom values settings) :
    ∃ l : Live, l.Kept ∧ l.Always (fun d => ∀ e ∈ d, Comes values e) ∧ settings.entries = l.now := by
  induction h with
  | start =>
      refine ⟨_, Live.Reached.start.kept, fun d hd => ?_, rfl⟩
      rw [List.mem_singleton.mp hd]
      exact (stable_comes []).start
  | @change values settings _ s hs c ih =>
      subst hs
      obtain ⟨l, hkept, hcomes, hnow⟩ := ih
      have hmore : l.Always fun d => ∀ e ∈ d, Comes (values ++ given s.objects c) e :=
        fun d hd e he => (hcomes d hd e he).mono (List.subset_append_left _ _)
      exact ⟨_, Live.kept_run hkept s.objects c,
        (stable_comes _).run hmore s.objects c (List.subset_append_right _ _),
        (Session.carryOut_like hkept hnow c).settings⟩

/-- A setting has its default, or what its check made of a value that was given. -/
theorem ReachedFrom.comes (h : ReachedFrom values settings) (k : Key) :
    settings.get k = get {} k ∨ ∃ v ∈ values, check k v = .ok (settings.get k) := by
  obtain ⟨l, -, hcomes, hnow⟩ := h.live
  have hentry : (k.name, settings.get k) ∈ l.now := by
    rw [← hnow]
    exact List.mem_map_of_mem k.mem_keys
  rcases hcomes.now _ hentry with hdefault | ⟨k', hk, hgiven⟩
  · obtain ⟨k', -, hsame⟩ := List.mem_map.mp hdefault
    obtain ⟨hname, hget⟩ := Prod.mk.inj hsame
    rw [Key.name_inj] at hname
    subst hname
    exact .inl hget.symm
  · rw [Key.name_inj] at hk
    subst hk
    exact .inr hgiven

/-- A text that is the word for no path is taken for no path, so only a path can be called by it. -/
theorem path_of_calledNone {v : Value} {p : String} (h : check .program v = .ok (.text p))
    (hp : Text.lower p = "none") : v.bare = .path p := by
  obtain ⟨path, hpath, hvalue⟩ := map_ok.mp h
  cases path with
  | none => cases hvalue
  | some q =>
      cases hvalue
      unfold toPath at hpath
      split at hpath
      · cases hpath
      · split at hpath
        · cases hpath
        · rename_i hword
          cases hpath
          exact absurd (by simpa using hp) hword
      · rename_i hbare
        cases hpath
        exact hbare
      · cases hpath

/-! ### Copies -/

/-- A copy of the settings has all that is set, with nothing checked again; and a search has what is set under
the names that are hit, whatever it is that hits them, except that a path called like the word for none is
no path there.  So the two have the same values, and each value that is set is left alone by its own check,
exactly if no such path is set; and one is set only where a path was given that is called so. -/
theorem found_settings_live_iff (h : ReachedFrom values settings) :
    (∀ s : Session, s.settings = settings → s.copySettings (.dict []) = .ok settings) ∧
    (∀ pattern, settings.findAll pattern = settings.findWhere (occursIn pattern)) ∧
    (∀ hit : String → Bool,
      settings.findWhere hit
        = .ok ((keys.filter fun k => hit k.name).map fun k => (k, settings.again k)) ∧
      (settings.findWhere hit = .ok (settings.liveWhere hit) ↔
        ¬(hit Key.program.name = true ∧ settings.CalledNone))) ∧
    ((∀ k, check k (settings.get k) = .ok (settings.get k)) ↔ ¬settings.CalledNone) ∧
    (settings.CalledNone → ∃ v ∈ values, ∃ p, v.bare = .path p ∧ Text.lower p = "none") := by
  refine ⟨?_, findAll_eq settings, fun hit => ⟨findWhere_eq settings hit, findWhere_live_iff settings hit⟩,
    ?_, fun hnone => ?_⟩
  · rintro s rfl
    rfl
  · simp only [check_again, Except.ok.injEq, again_eq_get_iff]
    exact ⟨fun hall hnone => hall .program ⟨rfl, hnone⟩, fun hnone _ hk => hnone hk.2⟩
  · obtain ⟨p, hprogram, hp⟩ := Option.map_eq_some_iff.mp hnone
    have hget : settings.get .program = .text p := by rw [get, hprogram]
    rcases h.comes .program with hdefault | ⟨v, hv, hcheck⟩
    · rw [hget] at hdefault
      cases hdefault
    · rw [hget] at hcheck
      exact ⟨v, hv, p, path_of_calledNone hcheck hp, hp⟩

/-- A path called "None" is set and copied, and a search finds no path. -/
theorem path_called_none_not_found :
    let settings := (Session.carryOut {} (.assign (.text "path.ffmpeg") (.path "None"))).session.settings
    ReachedFrom [.path "None"] settings ∧ settings.get .program = .text "None" ∧
      Session.copySettings { settings } (.dict []) = .ok settings ∧
      settings.findAll "^path" = .ok [(.program, .null)] := by
  have hreached := ReachedFrom.start.change {} rfl (.assign (.text "path.ffmpeg") (.path "None"))
  obtain ⟨hcopy, hpattern, hfound, -⟩ := found_settings_live_iff hreached
  refine ⟨hreached, rfl, hcopy _ rfl, (hpattern "^path").trans ?_⟩
  rw [(hfound (occursIn "^path")).1]
  rfl

end Settings

end MediaCommand
