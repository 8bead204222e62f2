import CubeQuery.Text.Blank
import CubeQuery.Text.CodeSet
import Mathlib.Data.List.TakeWhile

/-!
# Trimmed texts

A text is trimmed when white space stands at neither end. White space put behind a trimmed text is
what trimming takes away again (`trim_append`).
-/

namespace CubeQuery.Text

@[simp] theorem skipBlanks_nil : skipBlanks [] = [] := rfl

theorem skipBlanks_cons_of_blank {c : Char} (h : isBlank c = true) (cs : List Char) :
    skipBlanks (c :: cs) = skipBlanks cs := by
  simp [skipBlanks, h]

theorem skipBlanks_cons_of_not_blank {c : Char} (h : isBlank c = false) (cs : List Char) :
    skipBlanks (c :: cs) = c :: cs := by
  simp [skipBlanks, h]

theorem skipBlanks_eq_nil_iff {cs : List Char} : skipBlanks cs = [] ↔ ∀ c ∈ cs, isBlank c = true :=
  List.dropWhile_eq_nil_iff

theorem skipBlanks_append {blanks : List Char} (h : ∀ c ∈ blanks, isBlank c = true) (cs : List Char) :
    skipBlanks (blanks ++ cs) = skipBlanks cs :=
  List.dropWhile_append_of_pos h

theorem skipBlanks_eq_self_iff (cs : List Char) :
    skipBlanks cs = cs ↔ ∀ c ∈ cs.head?, isBlank c = false := by
  cases cs with
  | nil => simp
  | cons c cs => simp [skipBlanks, List.dropWhile_eq_self_iff]

theorem isBlank_of_mem_head?_skipBlanks {cs : List Char} {c : Char}
    (h : c ∈ (skipBlanks cs).head?) : isBlank c = false := by
  induction cs with
  | nil => simp at h
  | cons d cs ih =>
      cases hd : isBlank d with
      | true => exact ih (by rwa [skipBlanks_cons_of_blank hd] at h)
      | false =>
          rw [skipBlanks_cons_of_not_blank hd, List.head?_cons, Option.mem_some_iff] at h
          rwa [← h]

@[simp] theorem skipBlanks_skipBlanks (cs : List Char) :
    skipBlanks (skipBlanks cs) = skipBlanks cs :=
  (skipBlanks_eq_self_iff _).2 fun _ h => isBlank_of_mem_head?_skipBlanks h

theorem exists_blanks_append (cs : List Char) :
    ∃ blanks, (∀ c ∈ blanks, isBlank c = true) ∧ cs = blanks ++ skipBlanks cs :=
  ⟨cs.takeWhile isBlank, fun _ => List.mem_takeWhile_imp, List.takeWhile_append_dropWhile.symm⟩

theorem dropTrailingBlanks_eq_self_iff (cs : List Char) :
    dropTrailingBlanks cs = cs ↔ ∀ c ∈ cs.getLast?, isBlank c = false := by
  have h := skipBlanks_eq_self_iff cs.reverse
  rw [List.head?_reverse] at h
  rw [← h, dropTrailingBlanks, skipBlanks, ← List.reverse_inj, List.reverse_reverse]

theorem length_dropTrailingBlanks_le (cs : List Char) :
    (dropTrailingBlanks cs).length ≤ cs.length := by
  simpa [dropTrailingBlanks] using (List.dropWhile_sublist isBlank (l := cs.reverse)).length_le

/-- A text is its own trimmed form when white space stands at neither end. -/
theorem trim_eq_self_iff (cs : List Char) :
    trim cs = cs ↔
      (∀ c ∈ cs.head?, isBlank c = false) ∧ ∀ c ∈ cs.getLast?, isBlank c = false := by
  rw [← skipBlanks_eq_self_iff, ← dropTrailingBlanks_eq_self_iff]
  constructor
  · intro h
    have hskip : skipBlanks cs = cs := by
      apply (List.dropWhile_sublist isBlank).eq_of_length_le
      calc cs.length = (trim cs).length := by rw [h]
        _ ≤ (skipBlanks cs).length := length_dropTrailingBlanks_le _
    exact ⟨hskip, by rwa [trim, hskip] at h⟩
  · intro h
    obtain ⟨hskip, hdrop⟩ := h
    rw [trim, hskip, hdrop]

theorem mem_of_mem_trim {cs : List Char} {c : Char} (h : c ∈ trim cs) : c ∈ cs := by
  have hskip : c ∈ skipBlanks cs := by
    have hmem := (List.dropWhile_sublist isBlank).subset (List.mem_reverse.1 h)
    exact List.mem_reverse.1 hmem
  exact (List.dropWhile_sublist isBlank).subset hskip

theorem exists_append_blanks (cs : List Char) :
    ∃ blanks, cs = dropTrailingBlanks cs ++ blanks := by
  obtain ⟨blanks, _, h⟩ := exists_blanks_append cs.reverse
  refine ⟨blanks.reverse, ?_⟩
  rw [dropTrailingBlanks, ← List.reverse_append]
  exact List.reverse_eq_iff.1 h

/-- White space on either side of a text is what trimming takes away, and more if the text begins or ends
with some itself. -/
theorem trim_between_blanks {before cs after : List Char} (hbefore : ∀ c ∈ before, isBlank c = true)
    (hafter : ∀ c ∈ after, isBlank c = true) : trim (before ++ cs ++ after) = trim cs := by
  have hskip : skipBlanks (before ++ cs ++ after) = skipBlanks (cs ++ after) := by
    rw [List.append_assoc, skipBlanks_append hbefore]
  have hdrop : ∀ ds, dropTrailingBlanks (ds ++ after) = dropTrailingBlanks ds := by
    intro ds
    rw [dropTrailingBlanks, List.reverse_append,
      List.dropWhile_append_of_pos (by simpa using hafter), dropTrailingBlanks]
  rw [trim, trim, hskip]
  unfold skipBlanks
  rw [List.dropWhile_append]
  split
  · rename_i hempty
    have hnone : after.dropWhile isBlank = [] := List.dropWhile_eq_nil_iff.2 hafter
    rw [hnone, List.isEmpty_iff.1 hempty]
  · exact hdrop _

/-- White space behind a trimmed text is what trimming takes away. -/
theorem trim_append {cs blanks : List Char} (h : trim cs = cs)
    (hblanks : ∀ c ∈ blanks, isBlank c = true) : trim (cs ++ blanks) = cs := by
  have hbetween : trim ([] ++ cs ++ blanks) = trim cs :=
    trim_between_blanks (List.forall_mem_nil _) hblanks
  rwa [List.nil_append, h] at hbetween

theorem trim_trim (cs : List Char) : trim (trim cs) = trim cs := by
  rw [trim_eq_self_iff]
  constructor
  · intro c hc
    obtain ⟨blanks, hsplit⟩ := exists_append_blanks (skipBlanks cs)
    have hmem : c ∈ (skipBlanks cs).head? := by
      rw [hsplit, List.head?_append]
      simp only [trim, Option.mem_def] at hc ⊢
      rw [hc, Option.some_or]
    exact isBlank_of_mem_head?_skipBlanks hmem
  · intro c hc
    rw [trim, dropTrailingBlanks, List.getLast?_reverse] at hc
    exact isBlank_of_mem_head?_skipBlanks hc

/-! ## Runs of a class -/

/-- A run of a class ends where the class does. -/
theorem takeWhile_append {p : Char → Bool} {cs rest : List Char} (hcs : ∀ c ∈ cs, p c = true)
    (hrest : ∀ c ∈ rest.head?, p c = false) :
    (cs ++ rest).takeWhile p = cs ∧ (cs ++ rest).dropWhile p = rest := by
  rw [List.takeWhile_append_of_pos hcs, List.dropWhile_append_of_pos hcs]
  cases rest with
  | nil => simp
  | cons c rest =>
      have hc : p c = false := hrest c rfl
      simp [hc]

/-! ## White space and other classes -/

/-- A class of characters, given over the first 128 codes and by a set of the others, that has none of the
codes of white space. -/
theorem class_eq_false_of_isBlank {ascii : Char → Bool} {codes : CodeSet}
    (hascii : ∀ n < 128, isBlank (Char.ofNat n) = true → ascii (Char.ofNat n) = false)
    (hcodes : ∀ n ∈ [0x85, 0xa0, 0x1680] ++ List.range' 0x2000 11 ++
      [0x2028, 0x2029, 0x202f, 0x205f, 0x3000], codes.has n = false)
    {c : Char} (h : isBlank c = true) :
    (if c.toNat < 128 then ascii c else codes.has c.toNat) = false := by
  split
  · rename_i hsmall
    simpa using hascii c.toNat hsmall (by simpa using h)
  · apply hcodes
    simp only [isBlank, Bool.or_eq_true, Bool.and_eq_true, decide_eq_true_eq, beq_iff_eq] at h
    simp only [List.mem_append, List.mem_cons, List.not_mem_nil, or_false, List.mem_range'_1]
    omega

end CubeQuery.Text
