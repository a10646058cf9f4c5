/-!
# Finding a text in another

Whether a text occurs in another as a run of neighbouring characters, anywhere, at its start or at
its end. The empty text occurs everywhere.
-/

namespace RecordQuery

namespace Text

def startsWith (text part : List Char) : Bool :=
  part.isPrefixOf text

def endsWith (text part : List Char) : Bool :=
  part.isSuffixOf text

def contains : (text part : List Char) → Bool
  | [], part => part.isEmpty
  | c :: cs, part => part.isPrefixOf (c :: cs) || contains cs part

theorem startsWith_iff {text part : List Char} :
    startsWith text part = true ↔ ∃ after, text = part ++ after := by
  rw [startsWith, List.isPrefixOf_iff_prefix]
  exact ⟨fun ⟨after, h⟩ => ⟨after, h.symm⟩, fun ⟨after, h⟩ => ⟨after, h.symm⟩⟩

theorem endsWith_iff {text part : List Char} :
    endsWith text part = true ↔ ∃ before, text = before ++ part := by
  rw [endsWith, List.isSuffixOf_iff_suffix]
  exact ⟨fun ⟨before, h⟩ => ⟨before, h.symm⟩, fun ⟨before, h⟩ => ⟨before, h.symm⟩⟩

theorem contains_iff {text part : List Char} :
    contains text part = true ↔ ∃ before after, text = before ++ part ++ after := by
  induction text with
  | nil =>
    constructor
    · intro h
      exact ⟨[], [], by simpa [contains] using h⟩
    · rintro ⟨before, after, h⟩
      have := h.symm
      simp only [List.append_eq_nil_iff] at this
      simp [contains, this.1.2]
  | cons c cs ih =>
    simp only [contains, Bool.or_eq_true, ih, List.isPrefixOf_iff_prefix]
    constructor
    · rintro (⟨after, h⟩ | ⟨before, after, rfl⟩)
      · exact ⟨[], after, by simp [h]⟩
      · exact ⟨c :: before, after, by simp⟩
    · rintro ⟨before, after, h⟩
      cases before with
      | nil => exact .inl ⟨after, by simpa using h.symm⟩
      | cons b before =>
        injection h with _ h
        exact .inr ⟨before, after, h⟩

end Text

end RecordQuery
