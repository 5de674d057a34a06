/-
Values that name a pad.

A pad is asked for and marked with values of any kind, and a value names the pad whose index it
equals.  Two values that name one pad are therefore alike, which is what makes a second mark on it
impossible.  For floating-point numbers this is an argument about the numbers denoted: two pairs of
a mantissa and an exponent that denote one whole number denote the same number.
-/
import MediaCommand.Proofs.Lookup

namespace MediaCommand

namespace Double

-- Powers are the ones that come with the numbers, whatever other structure is known on these.
attribute [local instance (high)] instPowNat

private theorem toNat_sub_add {a b c : Int} (hab : b ≤ a) (hbc : c ≤ b) :
    (a - c).toNat = (a - b).toNat + (b - c).toNat := by
  omega

/-- A finite number that is a whole number, in units of any exponent below its own and zero. -/
private theorem scaled_of_equalsInt {s : Bool} {m : Nat} {e d n : Int}
    (h : (finite s m e).equalsInt n = true) (hd : d ≤ e) (h0 : d ≤ 0) :
    signed s m * 2 ^ (e - d).toNat = n * 2 ^ (0 - d).toNat := by
  simp only [equalsInt] at h
  split at h
  · rename_i he
    rw [← beq_iff_eq.mp h, toNat_sub_add (b := 0) he h0, Int.pow_add, Int.sub_zero, Int.mul_assoc]
  · rename_i he
    have hzero : (0 - d).toNat = (-e).toNat + (e - d).toNat := by omega
    rw [beq_iff_eq.mp h, hzero, Int.pow_add, Int.mul_assoc]

/-- Numbers that are one whole number are equal. -/
theorem equals_of_equalsInt {x y : Double} {n : Int} (hx : x.equalsInt n = true)
    (hy : y.equalsInt n = true) : x.equals y = true := by
  cases x with
  | nan => simp [equalsInt] at hx
  | infinite s => simp [equalsInt] at hx
  | finite s m e =>
      cases y with
      | nan => simp [equalsInt] at hy
      | infinite s => simp [equalsInt] at hy
      | finite s' m' e' =>
          simp only [equals, beq_iff_eq]
          -- With both exponents above zero the unit is taken at the lesser one, not at zero.
          rcases Int.le_total (min e e') 0 with hmin | hmin
          · rw [scaled_of_equalsInt hx (Int.min_le_left e e') hmin,
              scaled_of_equalsInt hy (Int.min_le_right e e') hmin]
          · have hxn : signed s m * 2 ^ e.toNat = n := by
              simpa [equalsInt, show (0 : Int) ≤ e by omega] using hx
            have hyn : signed s' m' * 2 ^ e'.toNat = n := by
              simpa [equalsInt, show (0 : Int) ≤ e' by omega] using hy
            have he : e.toNat = (e - min e e').toNat + (min e e').toNat := by omega
            have he' : e'.toNat = (e' - min e e').toNat + (min e e').toNat := by omega
            rw [he, Int.pow_add, ← Int.mul_assoc] at hxn
            rw [he', Int.pow_add, ← Int.mul_assoc] at hyn
            refine Int.eq_of_mul_eq_mul_right ?_ (hxn.trans hyn.symm)
            exact Int.ne_of_gt (Int.pow_pos (by decide))

/-- A number is one whole number at most. -/
theorem eq_of_equalsInt {x : Double} {a b : Int} (ha : x.equalsInt a = true)
    (hb : x.equalsInt b = true) : a = b := by
  cases x with
  | nan => simp [equalsInt] at ha
  | infinite s => simp [equalsInt] at ha
  | finite s m e =>
      have ha' := scaled_of_equalsInt ha (Int.min_le_left e 0) (Int.min_le_right e 0)
      have hb' := scaled_of_equalsInt hb (Int.min_le_left e 0) (Int.min_le_right e 0)
      refine Int.eq_of_mul_eq_mul_right ?_ (ha'.symm.trans hb')
      exact Int.ne_of_gt (Int.pow_pos (by decide))

end Double

namespace Value

theorem Number.equals_of_whole {a b : Number} {n : Int} (ha : a.equals (.whole n) = true)
    (hb : b.equals (.whole n) = true) : a.equals b = true := by
  cases a <;> cases b <;> simp only [Number.equals, beq_iff_eq] at ha hb ⊢
  · exact ha.trans hb.symm
  · exact ha ▸ hb
  · exact hb ▸ ha
  · exact Double.equals_of_equalsInt ha hb

@[simp] theorem equal_int (m n : Int) : (Value.int m).equal (.int n) = (m == n) := by
  simp [equal, equalAtoms, number?, bare, Number.equals]

/-- What equals a whole number is a number. -/
theorem equal_int_iff (v : Value) (n : Int) :
    v.equal (.int n) = true ↔ ∃ m, v.number? = some m ∧ m.equals (.whole n) = true := by
  match v with
  | .marked _ v =>
      simp only [equal, number?]
      exact equal_int_iff v n
  | .null | .bool _ | .int _ | .text _ | .float _ | .dict _ | .bytes _ | .path _ | .arity _
  | .list _ | .tuple _ | .object _ => simp [equal, equalAtoms, number?, bare]

/-- A value names one pad at most. -/
theorem eq_of_equal_int {v : Value} {a b : Int} (ha : v.equal (.int a) = true)
    (hb : v.equal (.int b) = true) : a = b := by
  obtain ⟨m, hm, hma⟩ := (equal_int_iff v a).mp ha
  obtain ⟨m', hm', hmb⟩ := (equal_int_iff v b).mp hb
  obtain rfl : m = m' := Option.some.inj (hm.symm.trans hm')
  cases m with
  | whole n => exact (beq_iff_eq.mp hma).symm.trans (beq_iff_eq.mp hmb)
  | floating x => exact Double.eq_of_equalsInt hma hmb

@[simp] theorem number?_bare (v : Value) : v.bare.number? = v.number? := by
  match v with
  | .marked _ v => exact number?_bare v
  | .null | .bool _ | .int _ | .text _ | .float _ | .dict _ | .bytes _ | .path _ | .arity _
  | .list _ | .tuple _ | .object _ => rfl

/-- Numbers hold no objects. -/
theorem bindObjects_of_number {v : Value} {m : Number} (f : Object → Value)
    (h : v.number? = some m) : v.bindObjects f = v := by
  match v with
  | .marked mark v =>
      simp only [bindObjects]
      rw [bindObjects_of_number f (v := v) h]
  | .bool _ | .int _ | .float _ => rfl

/-- What objects are seen as is no number, so a value with objects in it is none either. -/
theorem number?_bindObjects {f : Object → Value} (hf : ∀ x, (f x).number? = none) (v : Value) :
    (v.bindObjects f).number? = v.number? := by
  match v with
  | .marked _ v => exact number?_bindObjects hf v
  | .object x => exact hf x
  | .null | .bool _ | .int _ | .text _ | .float _ | .dict _ | .bytes _ | .path _ | .arity _
  | .list _ | .tuple _ => simp only [bindObjects, number?]

private theorem equalAtoms_of_numbers {v w : Value} {a b : Number} (hv : v.number? = some a)
    (hw : w.number? = some b) (h : a.equals b = true) : equalAtoms v w = true := by
  cases v <;> simp [number?] at hv <;> cases w <;>
    simp_all [equalAtoms, number?]

theorem equal_of_numbers {v w : Value} {a b : Number} (hv : v.number? = some a)
    (hw : w.number? = some b) (h : a.equals b = true) : v.equal w = true := by
  match v with
  | .marked mark v =>
      simp only [equal]
      exact equal_of_numbers (v := v) hv hw h
  | .bool _ | .int _ | .float _ =>
      simp only [equal]
      exact equalAtoms_of_numbers hv ((number?_bare w).trans hw) h

end Value

namespace Objects

/-- Values that name one pad are alike. -/
theorem alike_of_equal_int (o : Objects) {v w : Value} {n : Int}
    (hv : v.equal (.int n) = true) (hw : w.equal (.int n) = true) : o.alike v w = true := by
  obtain ⟨a, ha, han⟩ := (Value.equal_int_iff v n).mp hv
  obtain ⟨b, hb, hbn⟩ := (Value.equal_int_iff w n).mp hw
  have hequal : v.equal w = true :=
    Value.equal_of_numbers ha hb (Value.Number.equals_of_whole han hbn)
  simp only [alike, canonical, Value.bindObjects_of_number _ ha, Value.bindObjects_of_number _ hb,
    Value.alike, hequal, Bool.or_true]

/-- A chain that may be marked with a value has no mark on the pad that the value names. -/
theorem isMapped_of_isMarked {o : Objects} {c : Chain} {v : Value} {n : Int}
    (h : o.isMarked c v = false) (hv : v.equal (.int n) = true) : c.isMapped n = false := by
  simp only [isMarked, List.any_eq_false] at h
  simp only [Chain.isMapped, List.any_eq_false]
  intro m hm hmn
  exact h m hm (o.alike_of_equal_int hmn hv)

theorem number?_canonicalTo (o : Objects) (n : Nat) (x : Object) :
    (o.canonicalTo n x).number? = none := by
  unfold canonicalTo
  split
  · rfl
  · split <;> rfl
  · split
    · split <;> rfl
    · rfl
  · rfl

/-- A value that is found for a pad names it. -/
theorem equal_int_of_alike {o : Objects} {v : Value} {n : Int} (h : o.alike v (.int n) = true) :
    v.equal (.int n) = true := by
  have hequal : (o.canonical v).equal (.int n) = true := by
    have hmark : Value.sameMark (o.canonical v) (.int n) = false := by
      unfold Value.sameMark
      split
      · rename_i hnone
        cases hnone
      · rfl
    have hcases : Value.sameMark (o.canonical v) (.int n) = true ∨
        (o.canonical v).equal (.int n) = true := Bool.or_eq_true_iff.mp h
    simpa [hmark] using hcases
  obtain ⟨m, hm, heq⟩ := (Value.equal_int_iff _ n).mp hequal
  have hnumber : (o.canonical v).number? = v.number? :=
    Value.number?_bindObjects (number?_canonicalTo o _) v
  exact (Value.equal_int_iff v n).mpr ⟨m, hnumber ▸ hm, heq⟩

/-- A chain without a mark on a pad may be marked with its index. -/
theorem isMarked_int {o : Objects} {c : Chain} {n : Int} (h : c.isMapped n = false) :
    o.isMarked c (.int n) = false := by
  simp only [Chain.isMapped, List.any_eq_false] at h
  simp only [isMarked, List.any_eq_false]
  exact fun m hm halike => h m hm (equal_int_of_alike halike)

end Objects

end MediaCommand
