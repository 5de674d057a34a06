/-
What a check of the version compares.

The version of a release that a program prints is the word behind the phrase that opens its report, up to the
first blank (`named?_opening`).  Of that word only the number in front is kept, with at most one dot in it:
of numbers with dots between them these are the first two (`leadingNumber_dotted`).  So a release of three
numbers is known as the release of its first two, and a check answers what it answers for that one.
-/
import MediaCommand.Proofs.FoundProgram
import MediaCommand.Proofs.VersionNumbers

namespace MediaCommand

open Version

/-! ### The first line -/

namespace Text

/-- A line that was begun goes on up to the next line boundary. -/
theorem head?_linesFrom {line : List Char} (h : line ≠ []) (cs : List Char) :
    (linesFrom line cs).head? = some (line.reverse ++ cs.takeWhile (!isLineBoundary ·)) := by
  induction line, cs using linesFrom.induct with
  | case1 line hempty => exact absurd (List.isEmpty_iff.mp hempty) h
  | case2 line hempty => simp [linesFrom, hempty]
  | case3 line rest ih =>
      have hbound : isLineBoundary '\r' = true := by decide
      simp [linesFrom, hbound]
  | case4 line c rest hnot hbound ih =>
      rw [linesFrom, if_pos hbound, List.takeWhile_cons_of_neg (by simp [hbound])]
      · simp
      · exact hnot
  | case5 line c rest hnot hbound ih =>
      rw [linesFrom, if_neg hbound, ih (by nofun), List.takeWhile_cons_of_pos (by simp [hbound])]
      · simp
      · exact hnot

/-- The first line of a text that begins with no line boundary goes up to the first one. -/
theorem head?_lines {s : String} {c : Char} (hc : s.toList.head? = some c)
    (hbound : isLineBoundary c = false) :
    (lines s).head? = some (String.ofList (s.toList.takeWhile (!isLineBoundary ·))) := by
  unfold lines
  cases hs : s.toList with
  | nil => rw [hs] at hc; cases hc
  | cons d rest =>
      rw [hs] at hc
      cases hc
      have hreturn : c ≠ '\r' := by
        rintro rfl
        exact absurd hbound (by decide)
      rw [linesFrom, hbound, if_neg (by nofun), List.head?_map, head?_linesFrom (by nofun),
        List.takeWhile_cons_of_pos (by simp [hbound])]
      · rfl
      · rintro rest rfl
        exact fun _ => hreturn rfl

/-- Every line boundary is blank. -/
theorem not_isLineBoundary {c : Char} (h : isBlank c = false) : isLineBoundary c = false := by
  rw [← Bool.not_eq_true] at h ⊢
  refine fun hbound => h ?_
  simp only [isLineBoundary, List.contains_iff_mem, List.mem_cons, List.not_mem_nil, or_false] at hbound
  simp only [isBlank, blankRanges, List.any_cons, Bool.or_eq_true, Bool.and_eq_true, decide_eq_true_eq]
  omega

end Text

/-! ### The version that is printed -/

section Printed

variable {word rest : List Char}

/-- The word behind the opening phrase ends at the first blank. -/
theorem versionWord?_opening (hword : ∀ c ∈ word, Text.isBlank c = false) (hne : word ≠ [])
    (hrest : ∀ c, rest.head? = some c → Text.isBlank c = true) :
    VersionReport.versionWord? (String.ofList (VersionReport.opening ++ (word ++ rest)))
      = some (String.ofList word) := by
  have hread : (word ++ rest).takeWhile (!Text.isBlank ·) = word :=
    (span_boundary (by simpa using hword) (by simpa using hrest)).1
  have hbegins : VersionReport.opening.isPrefixOf (VersionReport.opening ++ (word ++ rest)) = true :=
    List.isPrefixOf_iff_prefix.mpr (List.prefix_append ..)
  unfold VersionReport.versionWord? VersionReport.beginsWith
  rw [String.toList_ofList, List.drop_left, hread, hbegins]
  simp [hne]

/-- The build that a printed text names is that of the word behind the phrase that opens it. -/
theorem named?_opening {output : String} (hword : ∀ c ∈ word, Text.isBlank c = false) (hne : word ≠ [])
    (hrest : ∀ c, rest.head? = some c → Text.isBlank c = true)
    (houtput : output.toList = VersionReport.opening ++ (word ++ rest)) :
    Build.named? output = Build.ofWord? (String.ofList word) := by
  have hline : (Text.lines output).head? = some (String.ofList (VersionReport.opening ++
      (word ++ rest.takeWhile (!Text.isLineBoundary ·)))) := by
    rw [Text.head?_lines (c := 'f') (by rw [houtput]; rfl) (by decide), houtput,
      List.takeWhile_append_of_pos (List.all_eq_true.mp (by decide)), List.takeWhile_append_of_pos]
    intro c hc
    rw [Text.not_isLineBoundary (hword c hc)]
    rfl
  unfold Build.named?
  rw [hline, Option.bind_some, versionWord?_opening hword hne, Option.bind_some]
  intro c hc
  refine hrest c ?_
  cases rest with
  | nil => cases hc
  | cons d rest =>
      rw [List.takeWhile_cons] at hc
      split at hc
      · exact hc
      · cases hc

end Printed

/-! ### The number in front -/

/-- Of numbers with dots between them the first two are kept. -/
theorem leadingNumber_dotted {n : List Char} {ns : List (List Char)} (hn : IsNumber n)
    (hns : ∀ m ∈ ns, IsNumber m) :
    VersionReport.leadingNumber (String.ofList (n ++ afterDots ns)) = n ++ afterDots (ns.take 1) := by
  have hspan : ∀ {m} {ms : List (List Char)}, IsNumber m →
      (m ++ afterDots ms).takeWhile (fun c => (Text.decimalDigit? c).isSome) = m ∧
        (m ++ afterDots ms).dropWhile (fun c => (Text.decimalDigit? c).isSome) = afterDots ms :=
    fun hm => span_boundary (hm.forall (by decide)) fun _ hc => head?_afterDots hc ▸ rfl
  unfold VersionReport.leadingNumber
  rw [String.toList_ofList]
  dsimp only
  rw [(hspan hn).1, (hspan hn).2]
  cases ns with
  | nil => simp [afterDots, hn.ne_nil]
  | cons m ms =>
      rw [afterDots_cons]
      show (if _ then [] else if ((m ++ afterDots ms).takeWhile _).isEmpty then n
        else n ++ '.' :: (m ++ afterDots ms).takeWhile _) = _
      rw [(hspan (hns m List.mem_cons_self)).1]
      simp [hn.ne_nil, (hns m List.mem_cons_self).ne_nil, afterDots]

variable {n : List Char} {ns : List (List Char)}

theorem versionIn_dotted (hn : IsNumber n) (hns : ∀ m ∈ ns, IsNumber m) :
    Program.versionIn (String.ofList (n ++ afterDots ns))
      = if (n :: ns).any (Text.maxIntegerDigits < ·.length) then .error (.fault .wrongValue)
        else .ok { release := (n :: ns).map digitsValue } := by
  unfold Program.versionIn
  rw [parse?_dotted hn hns, isTooLong_dotted hn hns]

/-- Numbers with dots between them name the release of the first two, unless one of these two has too many
digits. -/
theorem ofWord?_dotted (hn : IsNumber n) (hns : ∀ m ∈ ns, IsNumber m) :
    Build.ofWord? (String.ofList (n ++ afterDots ns))
      = if (n :: ns.take 1).any (Text.maxIntegerDigits < ·.length) then none
        else some (.release { release := (n :: ns.take 1).map digitsValue }) := by
  have htake : ∀ m ∈ ns.take 1, IsNumber m := fun m hm => hns m (List.mem_of_mem_take hm)
  have hne : (n ++ afterDots (ns.take 1)).isEmpty = false := by simp [hn.ne_nil]
  unfold Build.ofWord?
  dsimp only
  rw [leadingNumber_dotted hn hns, hne, versionIn_dotted hn htake, if_neg (by nofun)]
  split <;> rfl

/-! ### Checks -/

namespace Session

variable {s : Session}

/-- A check against a text compares the release in use with the version that the text writes. -/
theorem checkVersion_text {release : Version} (h : s.program.build = some (.release release)) (v : String)
    {sign : String} {condition : Condition} (hsign : Condition.ofSign? sign = some condition) :
    s.checkVersion (.text v) (.text sign) = (Program.versionIn v).map (release.meets condition) := by
  have htrue : s.objects.truth (.text sign) = true := by
    refine bne_iff_ne.mpr ?_
    rintro rfl
    cases hsign
  have hcondition : Program.conditionOf (.text sign) = .ok condition := by
    unfold Program.conditionOf
    dsimp only
    rw [hsign]
    rfl
  have hversion : Program.versionOf (.text v) = Program.versionIn v := rfl
  unfold checkVersion Program.checkVersion
  rw [htrue, h, if_pos rfl]
  dsimp only
  rw [hcondition, hversion]
  cases Program.versionIn v <;> rfl

/-- Without a sign a check asks for "at least". -/
theorem checkVersion_null {release : Version} (h : s.program.build = some (.release release)) (v : String) :
    s.checkVersion (.text v) .null = (Program.versionIn v).map (release.meets .ge) := by
  have hversion : Program.versionOf (.text v) = Program.versionIn v := rfl
  unfold checkVersion Program.checkVersion
  rw [h]
  dsimp only
  rw [hversion]
  cases Program.versionIn v <;> rfl

/-- A program that was found is in use with the build that it reports. -/
theorem build_of_found {path : Option String} {found : String × Build}
    (h : (s.findProgram path).result = .ok found) :
    (s.findProgram path).session.program.build = some found.2 ∧
      Build.named? s.host.versionOutput = some found.2 := by
  let c : Search := { host := s.host, settings := s.settings, finders := s.finders, path }
  have hanswer : c.answer = some found := search_eq_ok.mp h
  have hreported : (if s.host.missing then none else Build.named? s.host.versionOutput) = some found.2 :=
    (answer_eq_some.mp hanswer).2
  refine ⟨congrArg Program.build (search_answered (s := s) hanswer), ?_⟩
  cases hmissing : s.host.missing with
  | true => rw [hmissing] at hreported; cases hreported
  | false => rwa [hmissing] at hreported

/-- **The third number of a release is never checked.**  A program is found that prints a release of three
numbers.  The check compares the release of the first two with the version asked about, whatever the sign.
The answers are those of the whole release exactly if the third number is zero, or the version asked about
does not lie between the two; so a check against what the program itself prints holds only if the third
number is zero. -/
theorem third_number_never_checked {path : Option String} {found : String × Build} {a b c rest : String}
    (ha : IsNumber a.toList) (hb : IsNumber b.toList) (hc : IsNumber c.toList)
    (hrest : ∀ d, rest.toList.head? = some d → Text.isBlank d = true)
    (hprinted : s.host.versionOutput = "ffmpeg version " ++ (a ++ "." ++ b ++ "." ++ c) ++ rest)
    (hfound : (s.findProgram path).result = .ok found) :
    let used := (s.findProgram path).session
    let kept : Version := { release := [a, b].map (digitsValue ·.toList) }
    let printed : Version := { release := [a, b, c].map (digitsValue ·.toList) }
    Version.parse? (a ++ "." ++ b ++ "." ++ c) = some printed ∧
    (∀ v, used.checkVersion (.text v) .null = (Program.versionIn v).map (kept.meets .ge)) ∧
    (∀ v sign condition, Condition.ofSign? sign = some condition →
      used.checkVersion (.text v) (.text sign) = (Program.versionIn v).map (kept.meets condition)) ∧
    (∀ w : Version, (∀ condition, kept.meets condition w = printed.meets condition w) ↔
      digitsValue c.toList = 0 ∨ w.cmp kept = .lt ∨ printed.cmp w = .lt) ∧
    (c.length ≤ Text.maxIntegerDigits →
      used.checkVersion (.text (a ++ "." ++ b ++ "." ++ c)) (.text "==")
        = .ok (decide (digitsValue c.toList = 0)) ∧
      used.checkVersion (.text (a ++ "." ++ b ++ "." ++ c)) .null
        = .ok (decide (digitsValue c.toList = 0))) := by
  intro used kept printed
  obtain ⟨hused, hnamed⟩ := build_of_found hfound
  have hmore : ∀ m ∈ [b.toList, c.toList], IsNumber m := by simp [hb, hc]
  have htext : a ++ "." ++ b ++ "." ++ c
      = String.ofList (a.toList ++ afterDots [b.toList, c.toList]) := by
    rw [← String.toList_inj]
    simp [afterDots]
  have houtput : s.host.versionOutput.toList
      = VersionReport.opening ++ ((a.toList ++ afterDots [b.toList, c.toList]) ++ rest.toList) := by
    rw [hprinted, htext, String.toList_append, String.toList_append, List.append_assoc,
      @String.toList_ofList (a.toList ++ _)]
    rfl
  -- What was found is the release of the first two numbers, neither of which is too long.
  have hword : Build.ofWord? (a ++ "." ++ b ++ "." ++ c) = some found.2 := by
    rw [← hnamed, htext]
    exact (named?_opening (forall_dotted (by decide) (by decide) ha hmore) (by simp [ha.ne_nil]) hrest houtput).symm
  rw [htext, ofWord?_dotted ha hmore] at hword
  split at hword
  · cases hword
  · rename_i hshort
    have hbuild : used.program.build = some (.release kept) := hused.trans hword.symm
    refine ⟨htext ▸ parse?_dotted ha hmore, checkVersion_null hbuild,
      fun v sign condition => checkVersion_text hbuild v, meets_extended_iff _ _, ?_⟩
    intro hlength
    have hread : Program.versionIn (a ++ "." ++ b ++ "." ++ c) = .ok printed := by
      rw [htext, versionIn_dotted ha hmore, if_neg]
      · rfl
      · have hthird : ¬Text.maxIntegerDigits < c.toList.length := Nat.not_lt.mpr hlength
        simp only [List.take_succ_cons, List.take_zero, List.any_cons, List.any_nil] at hshort ⊢
        simpa [hthird] using hshort
    have hequal : used.checkVersion (.text (a ++ "." ++ b ++ "." ++ c)) (.text "==") = _ :=
      checkVersion_text hbuild _ rfl
    rw [checkVersion_null hbuild, hequal, hread]
    have hself := meets_extended_self [digitsValue a.toList, digitsValue b.toList] (digitsValue c.toList)
    exact ⟨congrArg Except.ok hself.1, congrArg Except.ok hself.2⟩

/-- The program prints 6.1.1, and a check against that holds for none of the signs it should hold for. -/
theorem third_number_checked_as_missing :
    let host : Host := { programs := ["ffmpeg"], versionOutput := "ffmpeg version 6.1.1 by the authors" }
    let used := (({ host } : Session).findProgram (some "ffmpeg")).session
    used.checkVersion (.text "6.1.1") (.text "==") = .ok false ∧
      used.checkVersion (.text "6.1.1") .null = .ok false ∧
      used.checkVersion (.text "6.1") (.text "==") = .ok true := by
  intro host used
  have hfound : (({ host } : Session).findProgram (some "ffmpeg")).result
      = .ok ("ffmpeg", .release { release := [6, 1] }) :=
    (search_eq_ok (s := { host }) (c := { host, path := some "ffmpeg" })).mpr (by decide)
  have hsix : IsNumber "6".toList := ⟨by decide, List.all_eq_true.mp (by decide)⟩
  have hone : IsNumber "1".toList := ⟨by decide, List.all_eq_true.mp (by decide)⟩
  have hblank : ∀ d, " by the authors".toList.head? = some d → Text.isBlank d = true := by
    intro d hd
    obtain rfl : ' ' = d := Option.some.inj hd
    decide
  obtain ⟨-, -, hsigns, -, hown⟩ := third_number_never_checked hsix hone hone hblank rfl hfound
  obtain ⟨hequal, hnull⟩ := hown (by decide)
  exact ⟨hequal, hnull, (hsigns "6.1" "==" .eq rfl).trans rfl⟩

end Session

end MediaCommand
