/-! The order of the rationals as a comparison, and their text: a whole number is its decimal
digits, any other rational its reduced quotient `n/d` with the sign in front. -/

namespace LinearArith

instance ratOrd : Ord Rat := ⟨fun p q => compareOfLessAndEq p q⟩

instance ratTransOrd : Std.TransOrd Rat :=
  Std.TransOrd.compareOfLessAndEq_of_antisymm_of_trans_of_total_of_not_le
    Rat.le_antisymm Rat.le_trans (fun _ _ => Rat.le_total) Rat.not_le

instance ratLawfulEqOrd : Std.LawfulEqOrd Rat where
  compare_self := by intro q; simp only [compare, compareOfLessAndEq]; grind
  eq_of_compare := by
    intro p q h
    simp only [compare, compareOfLessAndEq] at h
    grind

theorem compare_rat_eq_lt {p q : Rat} : compare p q = .lt ↔ p < q := by
  simp only [compare, compareOfLessAndEq]
  grind

def magnitude (q : Rat) : Rat := if q < 0 then -q else q

def intText (n : Int) : String :=
  (if n < 0 then "-" else "") ++ n.natAbs.repr

def ratText (q : Rat) : String :=
  if q.den = 1 then intText q.num else intText q.num ++ "/" ++ q.den.repr

end LinearArith
