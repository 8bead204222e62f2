import CubeQuery.Text.Capital
import CubeQuery.Mdx.Identifier
import Mathlib

/-!
# Capital forms are final

The tables of capital forms are checked once, run against run: no character of a capital form has a
capital form of its own. Hence capitals of capitals change nothing (`capitals_capitals`), and capitals
bring in neither white space nor delimiters.
-/

namespace CubeQuery.Text

/-- The codes from `first` to `last` in steps. -/
structure CodeRun where
  first : Nat
  last : Nat
  step : Nat

namespace CodeRun

def Has (r : CodeRun) (n : Nat) : Prop :=
  r.first ≤ n ∧ n ≤ r.last ∧ (n - r.first) % r.step = 0

def single (n : Nat) : CodeRun := ⟨n, n, 1⟩

/-- The run lies on one side of the other, or the two alternate. -/
def apart (r s : CodeRun) : Bool :=
  r.last.blt s.first || s.last.blt r.first ||
    ((r.step == 2 || r.first == r.last) && s.step == 2 && (r.first + s.first) % 2 == 1)

theorem not_has_of_apart {r s : CodeRun} {n : Nat} (h : r.apart s = true) (hn : r.Has n) :
    ¬ s.Has n := by
  obtain ⟨hfirst, hlast, hstep⟩ := hn
  rintro ⟨hfirst', hlast', hstep'⟩
  simp only [apart, Bool.or_eq_true, Bool.and_eq_true, beq_iff_eq, Nat.blt_eq] at h
  rcases h with (h | h) | ⟨⟨h | h, hs⟩, hodd⟩
  · omega
  · omega
  · rw [h] at hstep
    rw [hs] at hstep'
    omega
  · rw [hs] at hstep'
    omega

end CodeRun

/-! ## Where capital forms come from and lead to -/

def sourceRuns : List CodeRun :=
  ⟨97, 122, 1⟩ :: (capitalRuns.map (fun (first, last, step, _) => ⟨first, last, step⟩) ++
    capitalSequences.map (CodeRun.single ·.1))

def targetRuns : List CodeRun :=
  ⟨65, 90, 1⟩ :: (capitalRuns.map (fun (first, last, step, distance) =>
      ⟨(first + distance).toNat, (last + distance).toNat, step⟩) ++
    (capitalSequences.flatMap (·.2)).dedup.map CodeRun.single)

/-- Codes from `first` to `last` are characters, and neither white space nor ASCII punctuation. -/
def isLetterRange (first last : Nat) : Bool :=
  (65 ≤ first && last ≤ 90) || (0xc0 ≤ first && last < 0x1680) || (0x1680 < first && last < 0x2000) ||
    (0x205f < first && last < 0x3000) || (0x3000 < first && last < 0xd800) ||
    (0xe000 ≤ first && last < 0x110000)

theorem targetRuns_apart : targetRuns.all (fun t => sourceRuns.all t.apart) = true := by
  decide +kernel

theorem targetRuns_letters :
    targetRuns.all (fun t => isLetterRange t.first t.last) = true := by
  decide +kernel

theorem toNat_ofNat_of_isLetterRange {first last n : Nat} (h : isLetterRange first last = true)
    (hfirst : first ≤ n) (hlast : n ≤ last) : (Char.ofNat n).toNat = n := by
  simp only [isLetterRange, Bool.or_eq_true, Bool.and_eq_true, decide_eq_true_eq] at h
  have hvalid : n.isValidChar := by
    unfold Nat.isValidChar
    omega
  simp [Char.ofNat, hvalid, Char.ofNatAux, Char.toNat]

/-! ## Capital forms -/

theorem toUpper_of_not_lower {c : Char} (h : ¬ (97 ≤ c.toNat ∧ c.toNat ≤ 122)) :
    c.toUpper = c := by
  have hval : ¬ ('a'.val ≤ c.val ∧ c.val ≤ 'z'.val) := h
  rw [Char.toUpper, dif_neg hval]

theorem toNat_toUpper_of_lower {c : Char} (hfirst : 97 ≤ c.toNat) (hlast : c.toNat ≤ 122) :
    c.toUpper.toNat = c.toNat - 32 := by
  have hcodes : ∀ n < 123, 97 ≤ n → (Char.ofNat n).toUpper.toNat = n - 32 := by decide
  simpa using hcodes c.toNat (by omega) hfirst

theorem capital_of_not_source {c : Char} (h : ∀ s ∈ sourceRuns, ¬ s.Has c.toNat) :
    capital c = [c] := by
  unfold capital
  split
  · rw [toUpper_of_not_lower]
    intro ⟨hfirst, hlast⟩
    exact h ⟨97, 122, 1⟩ List.mem_cons_self ⟨hfirst, hlast, Nat.mod_one _⟩
  · have hseq : capitalSequences.find? (·.1 == c.toNat) = none := by
      rw [List.find?_eq_none]
      intro p hp hcode
      refine h (CodeRun.single p.1) ?_ ?_
      · exact List.mem_cons_of_mem _ (List.mem_append_right _ (List.mem_map_of_mem hp))
      · simp [CodeRun.single, CodeRun.Has, beq_iff_eq.1 hcode]
    have hrun : capitalRuns.find? (fun (first, last, step, _) =>
        first ≤ c.toNat && c.toNat ≤ last && (c.toNat - first) % step == 0) = none := by
      rw [List.find?_eq_none]
      intro p hp hcode
      refine h ⟨p.1, p.2.1, p.2.2.1⟩ ?_ ?_
      · exact List.mem_cons_of_mem _ (List.mem_append_left _ (List.mem_map_of_mem hp))
      · simpa [CodeRun.Has, and_assoc] using hcode
    simp only [capitalFromTables, hseq, hrun]

theorem mem_targetRuns_of_run {first last step : Nat} {distance : Int}
    (h : (first, last, step, distance) ∈ capitalRuns) :
    ⟨(first + distance).toNat, (last + distance).toNat, step⟩ ∈ targetRuns :=
  List.mem_cons_of_mem _ (List.mem_append_left _ (List.mem_map_of_mem h))

theorem mem_targetRuns_of_sequence {p : Nat × List Nat} {n : Nat} (h : p ∈ capitalSequences)
    (hn : n ∈ p.2) : CodeRun.single n ∈ targetRuns := by
  refine List.mem_cons_of_mem _ (List.mem_append_right _ (List.mem_map_of_mem ?_))
  rw [List.mem_dedup]
  exact List.mem_flatMap.2 ⟨p, h, hn⟩

theorem isLetterRange_of_mem {t : CodeRun} (h : t ∈ targetRuns) :
    isLetterRange t.first t.last = true :=
  List.all_eq_true.1 targetRuns_letters t h

/-- The code of a shifted character lies in the shifted run. -/
theorem has_shiftCode {first last step n : Nat} {distance : Int}
    (hmem : (first, last, step, distance) ∈ capitalRuns) (hfirst : first ≤ n) (hlast : n ≤ last)
    (hstep : (n - first) % step = 0) :
    CodeRun.Has ⟨(first + distance).toNat, (last + distance).toNat, step⟩
      (shiftCode n distance).toNat := by
  have hrange := isLetterRange_of_mem (mem_targetRuns_of_run hmem)
  have hpos : 65 ≤ (first + distance).toNat := by
    simp only [isLetterRange, Bool.or_eq_true, Bool.and_eq_true, decide_eq_true_eq] at hrange
    omega
  have hlow : (first + distance).toNat ≤ (n + distance).toNat := by omega
  have hhigh : (n + distance).toNat ≤ (last + distance).toNat := by omega
  have hcode : (shiftCode n distance).toNat = (n + distance).toNat :=
    toNat_ofNat_of_isLetterRange hrange hlow hhigh
  have hdiff : (n + distance).toNat - (first + distance).toNat = n - first := by omega
  rw [hcode]
  exact ⟨hlow, hhigh, by rw [hdiff, hstep]⟩

/-- A character is its own capital form, or the form is made of target characters. -/
theorem capital_cases (c : Char) :
    capital c = [c] ∨ ∀ d ∈ capital c, ∃ t ∈ targetRuns, t.Has d.toNat := by
  unfold capital
  split
  · by_cases hlower : 97 ≤ c.toNat ∧ c.toNat ≤ 122
    · right
      intro d hd
      obtain rfl := List.mem_singleton.1 hd
      have hcode := toNat_toUpper_of_lower hlower.1 hlower.2
      refine ⟨⟨65, 90, 1⟩, List.mem_cons_self, ?_⟩
      rw [hcode]
      exact ⟨by dsimp only; omega, by dsimp only; omega, Nat.mod_one _⟩
    · left
      rw [toUpper_of_not_lower hlower]
  · unfold capitalFromTables
    split
    · rename_i hfound
      right
      intro d hd
      obtain ⟨n, hn, rfl⟩ := List.mem_map.1 hd
      have ht := mem_targetRuns_of_sequence (List.mem_of_find?_eq_some hfound) hn
      have hcode : (Char.ofNat n).toNat = n :=
        toNat_ofNat_of_isLetterRange (isLetterRange_of_mem ht) (Nat.le_refl n) (Nat.le_refl n)
      refine ⟨CodeRun.single n, ht, ?_⟩
      rw [hcode]
      exact ⟨Nat.le_refl n, Nat.le_refl n, Nat.mod_one _⟩
    · split
      · rename_i hfound
        right
        intro d hd
        obtain rfl := List.mem_singleton.1 hd
        have hmem := List.mem_of_find?_eq_some hfound
        have hcovers := List.find?_some hfound
        simp only [Bool.and_eq_true, decide_eq_true_eq, beq_iff_eq] at hcovers
        obtain ⟨⟨hfirst, hlast⟩, hstep⟩ := hcovers
        exact ⟨_, mem_targetRuns_of_run hmem, has_shiftCode hmem hfirst hlast hstep⟩
      · left
        rfl

theorem capital_of_mem_capital {c d : Char} (h : d ∈ capital c) : capital d = [d] := by
  rcases capital_cases c with hc | hc
  · rw [hc] at h
    rw [List.mem_singleton.1 h, hc]
  · obtain ⟨t, ht, hd⟩ := hc d h
    have hapart := List.all_eq_true.1 targetRuns_apart t ht
    exact capital_of_not_source fun s hs =>
      CodeRun.not_has_of_apart (List.all_eq_true.1 hapart s hs) hd

theorem capitals_eq_self {cs : List Char} (h : ∀ c ∈ cs, capital c = [c]) : capitals cs = cs := by
  induction cs with
  | nil => rfl
  | cons c cs ih =>
      have hrest := ih fun d hd => h d (List.mem_cons_of_mem c hd)
      simp only [capitals] at hrest
      simp [capitals, h c List.mem_cons_self, hrest]

/-- Capital letters are their own capital form. -/
theorem capitals_capitals (cs : List Char) : capitals (capitals cs) = capitals cs := by
  apply capitals_eq_self
  intro d hd
  obtain ⟨c, _, hc⟩ := List.mem_flatMap.1 hd
  exact capital_of_mem_capital hc

theorem capital_ne_nil (c : Char) : capital c ≠ [] := by
  have hsequences : ∀ p ∈ capitalSequences, p.2 ≠ [] := by decide
  unfold capital
  split
  · simp
  · unfold capitalFromTables
    split
    · rename_i hfound
      simpa using hsequences _ (List.mem_of_find?_eq_some hfound)
    · split <;> simp

theorem eq_or_isLetterRange {c d : Char} (h : d ∈ capital c) :
    d = c ∨ isLetterRange d.toNat d.toNat = true := by
  rcases capital_cases c with hc | hc
  · rw [hc] at h
    exact .inl (List.mem_singleton.1 h)
  · right
    obtain ⟨t, ht, hfirst, hlast, _⟩ := hc d h
    have hrange := isLetterRange_of_mem ht
    simp only [isLetterRange, Bool.or_eq_true, Bool.and_eq_true, decide_eq_true_eq] at hrange ⊢
    omega

theorem isBlank_of_mem_capital {c d : Char} (h : d ∈ capital c) (hc : isBlank c = false) :
    isBlank d = false := by
  rcases eq_or_isLetterRange h with rfl | hletter
  · exact hc
  · simp only [isLetterRange, Bool.or_eq_true, Bool.and_eq_true, decide_eq_true_eq] at hletter
    simp only [isBlank, Bool.or_eq_false_iff, Bool.and_eq_false_iff, decide_eq_false_iff_not,
      beq_eq_false_iff_ne]
    omega

end CubeQuery.Text

namespace CubeQuery.Mdx

open Text

theorem toNat_of_isDelimiter {c : Char} (h : isDelimiter c = true) :
    c.toNat ∈ [46, 44, 123, 125, 40, 41, 58, 91, 93, 38, 42] := by
  simp only [isDelimiter, Bool.or_eq_true, beq_iff_eq, or_assoc] at h
  rcases h with rfl | rfl | rfl | rfl | rfl | rfl | rfl | rfl | rfl | rfl | rfl <;> decide

theorem isDelimiter_of_mem_capital {c d : Char} (h : d ∈ capital c) (hc : isDelimiter c = false) :
    isDelimiter d = false := by
  rcases eq_or_isLetterRange h with rfl | hletter
  · exact hc
  · by_contra hd
    rw [Bool.not_eq_false] at hd
    have hcode := toNat_of_isDelimiter hd
    simp only [isLetterRange, Bool.or_eq_true, Bool.and_eq_true, decide_eq_true_eq] at hletter
    simp only [List.mem_cons, List.not_mem_nil, or_false] at hcode
    omega

end CubeQuery.Mdx
