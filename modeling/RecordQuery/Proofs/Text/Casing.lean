import Mathlib
import RecordQuery.Text.Casing

/-!
# Texts in lower case

The lower-case form of a text is its own lower-case form (`lower_lower`), so it makes no difference
whether a text was in lower case before. Characters that are mapped one by one owe this to the
table: no image of a run is in a run, nor is it the capital dotted i. The places of the sigmas play
no part in it, since no capital sigma is left.
-/

namespace RecordQuery

namespace Text

def IsLower (c : Char) : Prop :=
  lowerChar c = c ∧ c ≠ capitalSigma ∧ c ≠ capitalDottedI

theorem lowerAt_of_isLower (before after : List Char) {c : Char} (h : IsLower c) :
    lowerAt before c after = [c] := by
  rcases h with ⟨hlower, hsigma, hdotted⟩
  rw [lowerAt, if_neg hsigma, if_neg hdotted, hlower]

theorem lowerFrom_of_isLower (before : List Char) {cs : List Char} (h : ∀ c ∈ cs, IsLower c) :
    lowerFrom before cs = cs := by
  induction cs generalizing before with
  | nil => rfl
  | cons c cs ih =>
      rw [lowerFrom_cons, lowerAt_of_isLower _ _ (h c List.mem_cons_self),
        ih _ fun d hd => h d (List.mem_cons_of_mem c hd)]
      rfl

section Runs

/-- A run does not lead into another one: its images are below the other, above it, or, where the
other has gaps, in the gaps. -/
def avoids (run other : Nat × Nat × Nat × Nat) : Bool :=
  (run.2.2.2 + (run.2.1 - run.1)).blt other.1 || other.2.1.blt run.2.2.2 ||
    ((run.2.2.1 == 2 || run.1 == run.2.1) && other.2.2.1 == 2 && run.2.2.2 % 2 != other.1 % 2)

/-- The images of a run are characters, and neither the capital dotted i nor in a run. -/
def leadsDown (run : Nat × Nat × Nat × Nat) : Bool :=
  ((run.2.2.2 + (run.2.1 - run.1)).blt 0xD800 ||
      Nat.blt 0xDFFF run.2.2.2 && (run.2.2.2 + (run.2.1 - run.1)).blt 0x110000) &&
    ((run.2.2.2 + (run.2.1 - run.1)).blt 0x130 || Nat.blt 0x130 run.2.2.2) &&
    lowerRuns.all (avoids run)

theorem leadsDown_of_mem : ∀ run ∈ lowerRuns, leadsDown run = true := by
  decide +kernel

def Holds (run : Nat × Nat × Nat × Nat) (n : Nat) : Prop :=
  run.1 ≤ n ∧ n ≤ run.2.1 ∧ (n - run.1) % run.2.2.1 = 0

variable {run other : Nat × Nat × Nat × Nat} {n : Nat}

theorem not_holds_of_avoids (h : avoids run other = true) (hn : Holds run n) :
    ¬Holds other (run.2.2.2 + (n - run.1)) := by
  simp only [avoids, Bool.or_eq_true, Bool.and_eq_true, Nat.blt_eq, beq_iff_eq, bne_iff_ne] at h
  rcases hn with ⟨hfirst, hlast, hstep⟩
  rintro ⟨hge, hle, hmod⟩
  rcases h with (hbelow | habove) | ⟨⟨hgaps, hother⟩, hparity⟩
  · omega
  · omega
  · -- the other run has gaps, and the images of this one have the parity of the gaps
    rw [hother] at hmod
    rcases hgaps with hgaps | hsingle
    · rw [hgaps] at hstep
      omega
    · omega

theorem holds_of_find? (h : lowerRuns.find? (fun (first, last, step, _) =>
    first ≤ n && n ≤ last && (n - first) % step == 0) = some run) :
    run ∈ lowerRuns ∧ Holds run n := by
  have hmatch := List.find?_some h
  simp only [Bool.and_eq_true, decide_eq_true_eq, beq_iff_eq] at hmatch
  exact ⟨List.mem_of_find?_eq_some h, hmatch.1.1, hmatch.1.2, hmatch.2⟩

theorem isUpper_iff {c : Char} : c.isUpper = true ↔ 0x41 ≤ c.toNat ∧ c.toNat ≤ 0x5A := by
  simp [Char.isUpper, UInt32.le_iff_toNat_le]

theorem holds_latin_iff {c : Char} : Holds (0x41, 0x5A, 1, 0x61) c.toNat ↔ c.isUpper = true := by
  rw [isUpper_iff]
  exact ⟨fun ⟨hfirst, hlast, _⟩ => ⟨hfirst, hlast⟩,
    fun ⟨hfirst, hlast⟩ => ⟨hfirst, hlast, Nat.mod_one _⟩⟩

theorem latin_mem : (0x41, 0x5A, 1, 0x61) ∈ lowerRuns :=
  List.mem_cons_self

/-- A character that no run holds is in lower case, if it is not the capital dotted i. -/
theorem isLower_of_not_holds {c : Char} (hdotted : c ≠ capitalDottedI)
    (h : ∀ run ∈ lowerRuns, ¬Holds run c.toNat) : IsLower c := by
  refine ⟨?_, ?_, hdotted⟩
  · rw [lowerChar]
    split
    · apply Char.toLower_eq_of_not_isUpper
      rw [← holds_latin_iff]
      exact h _ latin_mem
    · split
      · next first last step target hfind =>
          rcases holds_of_find? hfind with ⟨hmem, hholds⟩
          exact absurd hholds (h _ hmem)
      · rfl
  · rintro rfl
    exact h (0x3A3, 0x3AB, 1, 0x3C3) (by decide) (by rw [Holds]; decide)

theorem isLower_ofNat (hrun : run ∈ lowerRuns) (hn : Holds run n) :
    IsLower (Char.ofNat (run.2.2.2 + (n - run.1))) := by
  have hdown := leadsDown_of_mem _ hrun
  simp only [leadsDown, Bool.and_eq_true, Bool.or_eq_true, Nat.blt_eq, List.all_eq_true] at hdown
  rcases hdown with ⟨⟨hvalid, hdotted⟩, havoids⟩
  have htoNat : (Char.ofNat (run.2.2.2 + (n - run.1))).toNat = run.2.2.2 + (n - run.1) := by
    rw [Char.toNat_ofNat, if_pos]
    rcases hn with ⟨hfirst, hlast, -⟩
    rw [Nat.isValidChar]
    omega
  apply isLower_of_not_holds
  · intro heq
    rw [heq] at htoNat
    have hi : capitalDottedI.toNat = 0x130 := rfl
    rcases hn with ⟨hfirst, hlast, -⟩
    omega
  · intro other hother
    rw [htoNat]
    exact not_holds_of_avoids (havoids _ hother) hn

end Runs

theorem isLower_lowerChar {c : Char} (h : c ≠ capitalDottedI) : IsLower (lowerChar c) := by
  rw [lowerChar]
  split
  · next hascii =>
      by_cases hupper : c.isUpper = true
      · have hlower := isLower_ofNat latin_mem (holds_latin_iff.2 hupper)
        have heq : 0x61 + (c.toNat - 0x41) = c.toNat + 32 := by
          have hfirst := (isUpper_iff.1 hupper).1
          omega
        dsimp only at hlower
        rw [Char.toLower_eq_of_isUpper hupper, ← heq]
        exact hlower
      · rw [Char.toLower_eq_of_not_isUpper hupper]
        refine ⟨?_, ?_, h⟩
        · rw [lowerChar, if_pos hascii, Char.toLower_eq_of_not_isUpper hupper]
        · rintro rfl
          exact absurd hascii (by decide)
  · split
    · next first last step target hfind =>
        rcases holds_of_find? hfind with ⟨hmem, hholds⟩
        exact isLower_ofNat hmem hholds
    · next hnone =>
        apply isLower_of_not_holds h
        intro run hrun hholds
        apply List.find?_eq_none.1 hnone run hrun
        simpa [Holds, and_assoc] using hholds

theorem isLower_finalSigma : IsLower finalSigma := by
  refine ⟨?_, ?_, ?_⟩ <;> decide

theorem isLower_of_mem_lowerAt {before after : List Char} {c d : Char}
    (h : d ∈ lowerAt before c after) : IsLower d := by
  rw [lowerAt] at h
  split at h
  · next hsigma =>
      have hlower : IsLower (lowerChar c) := isLower_lowerChar (by rw [hsigma]; decide)
      split at h
      · rw [List.mem_singleton.1 h]
        exact isLower_finalSigma
      · rw [List.mem_singleton.1 h]
        exact hlower
  · split at h
    · rcases List.mem_pair.1 h with rfl | rfl
      · exact ⟨by decide, by decide, by decide⟩
      · exact ⟨by decide, by decide, by decide⟩
    · next hdotted =>
        rw [List.mem_singleton.1 h]
        exact isLower_lowerChar hdotted

theorem isLower_of_mem_lowerFrom {before cs : List Char} {d : Char} (h : d ∈ lowerFrom before cs) :
    IsLower d := by
  induction cs generalizing before with
  | nil => cases h
  | cons c cs ih =>
      rw [lowerFrom_cons, List.mem_append] at h
      exact h.elim isLower_of_mem_lowerAt ih

theorem lower_lower (s : String) : lower (lower s) = lower s := by
  rw [← String.toList_inj, toList_lower, toList_lower, lowerChars]
  exact lowerFrom_of_isLower [] fun c hc => isLower_of_mem_lowerFrom hc

end Text

end RecordQuery
