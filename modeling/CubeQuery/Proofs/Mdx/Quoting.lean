import CubeQuery.Mdx.Query

/-!
# Names in brackets

A name in brackets gives back the name and what stands behind it (`bracketed_append_inj`), so unique
names that are built from names in brackets differ where the names do.
-/

namespace CubeQuery.Mdx

/-- Where no further closing bracket follows, a bracketed name and the rest are determined by the text. -/
theorem bracketed_append_inj {a b x y : List Char} (hx : x.head? ≠ some ']') (hy : y.head? ≠ some ']')
    (h : bracketed a ++ x = bracketed b ++ y) : a = b ∧ x = y := by
  simp only [bracketed, List.cons_append, List.append_assoc, List.nil_append, List.cons.injEq,
    true_and] at h
  have ha := closeBracket_doubleClosing a x hx
  have hb := closeBracket_doubleClosing b y hy
  rw [h, hb, Option.some.injEq, Prod.mk.injEq] at ha
  exact ⟨ha.1.symm, ha.2.symm⟩

theorem quoteName_inj {a b : String} : quoteName a = quoteName b ↔ a = b := by
  constructor
  · intro h
    have htexts : bracketed a.toList ++ [] = bracketed b.toList ++ [] := by
      rw [← toList_quoteName, ← toList_quoteName, h]
    exact String.toList_inj.1 (bracketed_append_inj (by simp) (by simp) htexts).1
  · intro h
    rw [h]

theorem FilteredMeasure.uniqueName_inj {a b : String} :
    FilteredMeasure.uniqueName a = FilteredMeasure.uniqueName b ↔ a = b := by
  rw [uniqueName, uniqueName, String.append_right_inj, quoteName_inj,
    String.append_right_inj]

end CubeQuery.Mdx
