/-!
# Letter case

Names of tables, columns and parameters are compared without regard to the case of ASCII letters;
all other characters count as they are.
-/

namespace SqlKit.Text

/-- Whether two names are equal up to the case of ASCII letters. -/
def sameName (a b : String) : Bool := a.toLower == b.toLower

theorem sameName_iff {a b : String} : sameName a b = true ↔ a.toLower = b.toLower := by
  simp [sameName]

@[simp] theorem sameName_refl (a : String) : sameName a a = true := by simp [sameName]

theorem sameName_comm (a b : String) : sameName a b = sameName b a := by
  simp only [sameName, Bool.beq_comm]

theorem sameName_trans {a b c : String} (h : sameName a b = true) (h' : sameName b c = true) :
    sameName a c = true :=
  sameName_iff.2 ((sameName_iff.1 h).trans (sameName_iff.1 h'))

theorem sameName_congr_right {a b : String} (h : sameName a b = true) (c : String) :
    sameName c a = sameName c b := by
  rw [sameName, sameName, sameName_iff.1 h]

end SqlKit.Text
