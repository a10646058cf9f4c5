import RecordQuery.Filter.Match

/-!
# Texts found in texts

A text test compares lower-case forms. A part of a text has the same lower-case form in its place as
it has alone if every capital sigma in it ends a word in both or in neither
(`lowerWithin_eq_iff`), and then the test finds it where it stands. A sigma that ends the part may
stand inside a word of the text; such a part can be missed. At the start and at the end of a text
this is the only reason to miss it (`Filter.search_holds_of_occurrence`).
-/

namespace RecordQuery

namespace Text

/-- Whether a capital sigma ends a word with `before`, in reverse, ahead of it and `after` behind
it. -/
def endsWordAt (before after : List Char) : Bool :=
  reachesCased before && !reachesCased after

/-- The lower-case form of the middle of a text, behind the reversed text `before` and ahead of
`after`. -/
def lowerWithin (before : List Char) : (cs after : List Char) → List Char
  | [], _ => []
  | c :: cs, after => lowerAt before c (cs ++ after) ++ lowerWithin (c :: before) cs after

theorem lowerWithin_cons (before : List Char) (c : Char) (cs after : List Char) :
    lowerWithin before (c :: cs) after =
      lowerAt before c (cs ++ after) ++ lowerWithin (c :: before) cs after := rfl

theorem lowerWithin_nil (before cs : List Char) :
    lowerWithin before cs [] = lowerFrom before cs := by
  induction cs generalizing before with
  | nil => rfl
  | cons c cs ih => rw [lowerWithin_cons, lowerFrom_cons, List.append_nil, ih]

theorem lowerFrom_append (before cs after : List Char) :
    lowerFrom before (cs ++ after) =
      lowerWithin before cs after ++ lowerFrom (cs.reverse ++ before) after := by
  induction cs generalizing before with
  | nil => rfl
  | cons c cs ih =>
      rw [List.cons_append, lowerFrom_cons, ih, lowerWithin_cons, List.reverse_cons,
        List.append_assoc, List.append_assoc, List.singleton_append]

section Places

variable {before after before' after' : List Char}

theorem length_lowerAt (c : Char) :
    (lowerAt before c after).length = (lowerAt before' c after').length := by
  unfold lowerAt
  split
  · split <;> split <;> rfl
  · rfl

theorem lowerAt_eq_iff {c : Char} :
    lowerAt before c after = lowerAt before' c after' ↔
      (c = capitalSigma → endsWordAt before after = endsWordAt before' after') := by
  unfold lowerAt
  by_cases hsigma : c = capitalSigma
  · subst hsigma
    have hne : finalSigma ≠ lowerChar capitalSigma := by decide
    simp only [if_true, true_implies]
    change (if endsWordAt before after then _ else _) =
        (if endsWordAt before' after' then _ else _) ↔
      endsWordAt before after = endsWordAt before' after'
    cases endsWordAt before after <;> cases endsWordAt before' after' <;> simp [hne, hne.symm]
  · simp [hsigma]

theorem length_lowerWithin (cs : List Char) :
    (lowerWithin before cs after).length = (lowerWithin before' cs after').length := by
  induction cs generalizing before before' with
  | nil => rfl
  | cons c cs ih =>
      rw [lowerWithin_cons, lowerWithin_cons, List.length_append, List.length_append,
        length_lowerAt c, ih]

/-- The lower-case forms at two places are the same if every capital sigma ends a word at both or at
neither. -/
theorem lowerWithin_eq_iff {cs : List Char} :
    lowerWithin before cs after = lowerWithin before' cs after' ↔
      ∀ first rest, cs = first ++ capitalSigma :: rest →
        endsWordAt (first.reverse ++ before) (rest ++ after) =
          endsWordAt (first.reverse ++ before') (rest ++ after') := by
  induction cs generalizing before before' with
  | nil => simp [lowerWithin]
  | cons c cs ih =>
      rw [lowerWithin_cons, lowerWithin_cons]
      constructor
      · intro h first rest heq
        rcases List.append_inj h (length_lowerAt c) with ⟨hhead, htail⟩
        cases first with
        | nil =>
            cases heq
            exact lowerAt_eq_iff.1 hhead rfl
        | cons d first =>
            cases heq
            simpa using ih.1 htail first rest rfl
      · intro h
        have hhead : lowerAt before c (cs ++ after) = lowerAt before' c (cs ++ after') := by
          rw [lowerAt_eq_iff]
          rintro rfl
          exact h [] cs rfl
        have htail : lowerWithin (c :: before) cs after = lowerWithin (c :: before') cs after' := by
          rw [ih]
          rintro first rest rfl
          simpa using h (c :: first) rest rfl
        rw [hhead, htail]

end Places

/-- Every capital sigma of a part of a text ends a word there if it does so in the part alone, and
only then. -/
def SigmasAgree (before part after : List Char) : Prop :=
  ∀ first rest, part = first ++ capitalSigma :: rest →
    endsWordAt (first.reverse ++ before.reverse) (rest ++ after) = endsWordAt first.reverse rest

theorem sigmasAgree_iff {before part after : List Char} :
    SigmasAgree before part after ↔ lowerWithin before.reverse part after = lowerChars part := by
  rw [lowerChars, ← lowerWithin_nil, lowerWithin_eq_iff]
  simp [SigmasAgree]

theorem sigmasAgree_of_not_mem {before part after : List Char} (h : capitalSigma ∉ part) :
    SigmasAgree before part after := by
  rintro first rest rfl
  exact absurd (List.mem_append_right first (List.mem_cons_self ..)) h

/-- The lower-case form of a text, cut where a part begins and where it ends. -/
theorem lowerChars_append (before part after : List Char) :
    lowerChars (before ++ (part ++ after)) =
      lowerWithin [] before (part ++ after) ++
        (lowerWithin before.reverse part after ++
          lowerFrom (part.reverse ++ before.reverse) after) := by
  rw [lowerChars, lowerFrom_append, List.append_nil, lowerFrom_append]

theorem contains_of_sigmasAgree {before part after : List Char}
    (h : SigmasAgree before part after) :
    contains (lowerChars (before ++ (part ++ after))) (lowerChars part) = true := by
  rw [contains_iff, lowerChars_append, sigmasAgree_iff.1 h]
  exact ⟨_, _, (List.append_assoc _ _ _).symm⟩

theorem startsWith_iff_sigmasAgree {part after : List Char} :
    startsWith (lowerChars (part ++ after)) (lowerChars part) = true ↔
      SigmasAgree [] part after := by
  have hlength : (lowerWithin [] part after).length = (lowerChars part).length := by
    rw [lowerChars, ← lowerWithin_nil]
    exact length_lowerWithin part
  rw [startsWith_iff, sigmasAgree_iff, lowerChars, lowerFrom_append]
  constructor
  · rintro ⟨rest, h⟩
    exact (List.append_inj h hlength).1
  · intro h
    exact ⟨_, congrArg (· ++ _) h⟩

theorem endsWith_iff_sigmasAgree {before part : List Char} :
    endsWith (lowerChars (before ++ part)) (lowerChars part) = true ↔
      SigmasAgree before part [] := by
  have hlength : (lowerWithin before.reverse part []).length = (lowerChars part).length := by
    rw [lowerChars, ← lowerWithin_nil]
    exact length_lowerWithin part
  rw [endsWith_iff, sigmasAgree_iff, lowerChars, lowerFrom_append, List.append_nil,
    ← lowerWithin_nil]
  constructor
  · rintro ⟨rest, h⟩
    exact (List.append_inj' h hlength).2
  · intro h
    exact ⟨_, congrArg (_ ++ ·) h⟩

end Text

namespace Filter

def search (test : TextTest) (column : Column) (part : String) : Filter :=
  ⟨[.leaf false none ⟨column, []⟩ (.criterion (.text test) (some (.string part)))]⟩

/-- On a field that holds a text, the search compares lower-case forms. -/
theorem search_holds {ρ : Type} [Record ρ] {record : ρ} {column : Column} {text : String}
    (hstring : column.type = .string)
    (hfield : Record.field record column.name = some (.string text)) (test : TextTest)
    (part : String) :
    (search test column part).holds record =
      test.holdsOf (Text.lowerChars text.toList) (Text.lowerChars part.toList) := by
  have hfind : Path.find ⟨column, []⟩ record = .present (.string text) := by
    simp [Path.find, hfield, Value.descend, Value.isNull]
  have hcoerce : column.type.coerce (.string text) = some (.string text) := by
    simp [hstring, FieldType.coerce]
  simp [search, holds, Clause.sequenceHolds, Clause.restHolds, Clause.holds, hfind, Test.holds,
    hcoerce, Test.holdsOf, Operation.holds, TextTest.holds, Value.string?, Value.searchText?]

theorem search_contains_of_not_mem {ρ : Type} [Record ρ] {record : ρ} {column : Column}
    {before part after : String} (hstring : column.type = .string)
    (hfield : Record.field record column.name = some (.string (before ++ part ++ after)))
    (hsigma : Text.capitalSigma ∉ part.toList) :
    (search .contains column part).holds record = true := by
  rw [search_holds hstring hfield, String.toList_append, String.toList_append, List.append_assoc]
  exact Text.contains_of_sigmasAgree (Text.sigmasAgree_of_not_mem hsigma)

/-- A search finds a part of a text, anywhere, at its start or at its end, if every capital sigma in
the part ends a word of the text where it ends one of the part. At the start and at the end it finds
the part only then. -/
theorem search_holds_of_occurrence {ρ : Type} [Record ρ] {record : ρ} {column : Column}
    {before part after : String} (hstring : column.type = .string)
    (hfield : Record.field record column.name = some (.string (before ++ part ++ after))) :
    (Text.SigmasAgree before.toList part.toList after.toList →
      (search .contains column part).holds record = true) ∧
    (before = "" → ((search .startsWith column part).holds record = true ↔
      Text.SigmasAgree [] part.toList after.toList)) ∧
    (after = "" → ((search .endsWith column part).holds record = true ↔
      Text.SigmasAgree before.toList part.toList [])) := by
  simp only [search_holds hstring hfield, TextTest.holdsOf, String.toList_append]
  refine ⟨fun hagree => ?_, ?_, ?_⟩
  · rw [List.append_assoc]
    exact Text.contains_of_sigmasAgree hagree
  · rintro rfl
    exact Text.startsWith_iff_sigmasAgree
  · rintro rfl
    rw [String.toList_empty, List.append_nil]
    exact Text.endsWith_iff_sigmasAgree

/-- A sigma that ends a word of the text and one that does not, in one part. -/
theorem search_holds_twoWords :
    (search .contains ⟨"label", .string, [], false, false⟩ "ΟΣ ΣΑ").holds
        (Json.object [("label", .string "ΔΟΣ ΣΑΣ")]) = true ∧
      (search .startsWith ⟨"label", .string, [], false, false⟩ "ΟΣ ΣΑ").holds
        (Json.object [("label", .string "ΟΣ ΣΑΣ")]) = true ∧
      (search .endsWith ⟨"label", .string, [], false, false⟩ "ΟΣ ΣΑ").holds
        (Json.object [("label", .string "ΔΟΣ ΣΑ")]) = true := by
  have hagree (before after : List Char)
      (h : Text.lowerWithin before.reverse "ΟΣ ΣΑ".toList after = Text.lowerChars "ΟΣ ΣΑ".toList) :
      Text.SigmasAgree before "ΟΣ ΣΑ".toList after := Text.sigmasAgree_iff.2 h
  refine ⟨?_, ?_, ?_⟩
  · exact (@search_holds_of_occurrence Json _ _ _ "Δ" "ΟΣ ΣΑ" "Σ" rfl rfl).1
      (hagree _ _ (by decide +kernel))
  · exact ((@search_holds_of_occurrence Json _ _ _ "" "ΟΣ ΣΑ" "Σ" rfl rfl).2.1 rfl).2
      (hagree _ _ (by decide +kernel))
  · exact ((@search_holds_of_occurrence Json _ _ _ "Δ" "ΟΣ ΣΑ" "" rfl rfl).2.2 rfl).2
      (hagree _ _ (by decide +kernel))

/-- The sigma that ends the part stands inside a word of the text, and the part is missed. -/
theorem not_search_holds_of_inner_sigma :
    ¬ ∀ (column : Column) (record : Json) (before part after : String), column.type = .string →
      Record.field record column.name = some (.string (before ++ part ++ after)) →
      (search .contains column part).holds record = true := by
  intro h
  have hmissed : (search .contains ⟨"label", .string, [], false, false⟩ "ΑΣ").holds
      (Json.object [("label", .string "ΑΣΑ")]) = false := by decide +kernel
  have := h ⟨"label", .string, [], false, false⟩ (Json.object [("label", .string "ΑΣΑ")])
    "" "ΑΣ" "Α" rfl rfl
  exact Bool.false_ne_true (hmissed.symm.trans this)

end Filter

end RecordQuery
