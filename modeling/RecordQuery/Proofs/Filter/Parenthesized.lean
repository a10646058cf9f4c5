import RecordQuery.Proofs.Filter.Depth

/-!
# Texts in parentheses

The limit on nesting, told from outside: groups may be put around a text that is accepted for as
long as these and its own groups are no deeper than the limit together, and beyond that the text is
refused at the parenthesis that is one too many. Groups that are closed do not count any more, since
the counter of open groups is back to what it was behind every group (`Filter.boundsNesting`).
-/

namespace RecordQuery

def inGroups (n : Nat) (text : String) : String :=
  String.ofList (List.replicate n '(') ++ text ++ String.ofList (List.replicate n ')')

def openingAt (place : Nat) : Token :=
  ⟨.openParen, "(", place⟩

theorem toList_inGroups (n : Nat) (text : String) :
    (inGroups n text).toList =
      List.replicate n '(' ++ (text.toList ++ List.replicate n ')') := by
  simp [inGroups]

theorem inGroups_zero (text : String) : inGroups 0 text = text := by
  rw [← String.toList_inj, toList_inGroups]
  simp

theorem inGroups_succ (n : Nat) (text : String) :
    inGroups (n + 1) text = "(" ++ inGroups n text ++ ")" := by
  rw [← String.toList_inj, toList_inGroups, String.toList_append, String.toList_append,
    toList_inGroups, List.replicate_succ, List.replicate_succ']
  simp

theorem Scan.tokens_of_openings (position n : Nat) (cs : List Char) :
    (of position (List.replicate n '(' ++ cs)).tokens =
      (List.range' position n).map openingAt ++ (of (position + n) cs).tokens := by
  induction n generalizing position with
  | zero => rfl
  | succ n ih =>
      rw [List.replicate_succ, List.cons_append, of_lexeme position (by decide) rfl,
        tokens_cons_plain, List.range'_succ]
      have hrest := ih (position + 1)
      rw [Nat.add_assoc, Nat.add_comm 1 n] at hrest
      exact congrArg _ hrest

namespace Grammar

variable {catalog : Catalog} {now : Timestamp}

theorem reaches_openings {n : Nat} (h : n ≤ maxGroupDepth) :
    Reaches catalog now n 0 ((List.range' 0 n).map openingAt) := by
  induction n with
  | zero => exact .start
  | succ n ih =>
      rw [List.range'_1_concat, List.map_append]
      exact (ih (Nat.le_of_succ_le h)).enter h .absent rfl

/-- Of more opening parentheses in a row than groups may be nested, the first one that is too many
is the one that opens too deep. -/
theorem opensTooDeep_openings {n : Nat} (h : maxGroupDepth < n) (rest : List Token) :
    OpensTooDeep catalog now ((List.range' 0 n).map openingAt ++ rest)
      (openingAt maxGroupDepth) := by
  obtain ⟨more, rfl⟩ : ∃ more, n = maxGroupDepth + (more + 1) :=
    ⟨n - maxGroupDepth - 1, by omega⟩
  refine ⟨(List.range' 0 maxGroupDepth).map openingAt, [],
    (List.range' (maxGroupDepth + 1) more).map openingAt ++ rest, false, 0, ?_,
    reaches_openings (Nat.le_refl _), .absent, rfl⟩
  rw [← List.range'_append_1, Nat.zero_add, List.range'_succ, List.map_append, List.map_cons]
  simp

theorem DerivesText.inGroups {depth : Nat} {text : String} {clauses : List Clause}
    (h : DerivesText catalog now depth text clauses) (n : Nat) :
    ∃ clauses', DerivesText catalog now (depth + n) (inGroups n text) clauses' ∧
      Clause.sequenceParameterCount clauses' = Clause.sequenceParameterCount clauses := by
  induction n with
  | zero =>
      rw [inGroups_zero]
      exact ⟨clauses, h, rfl⟩
  | succ n ih =>
      rcases ih with ⟨clauses', derives, hcount⟩
      have henclosed := derives.enclose false
      rw [Clause.negateIf_false] at henclosed
      refine ⟨[Filter.groupOf clauses'], ?_, ?_⟩
      · rw [inGroups_succ]
        simpa [Nat.add_assoc] using henclosed
      · rw [← hcount, Clause.sequenceParameterCount, Clause.sequenceParameterCount, Nat.add_zero,
          Filter.parameterCount_groupOf]

end Grammar

namespace Filter

open Grammar Reading

variable {catalog : Catalog} {now : Timestamp} {text : String} {f : Filter}

theorem ofStream_eq_error_iff_opensTooDeep {stream : TokenStream} {token : Token} :
    ofStream catalog now stream = .error (stream.error (.unexpectedToken token .shallowerGroup)) ↔
      OpensTooDeep catalog now stream.tokens token := by
  rw [ofStream, mapError_eq_error_iff, ← readTokens_eq_error_iff (r := ⟨catalog, now, stream⟩)]
  constructor
  · rintro ⟨fault, hread, hfault⟩
    injection hfault with _ _ hfault
    rw [hread, hfault]
  · exact fun hread => ⟨_, hread, rfl⟩

/-- A text that is accepted is accepted in some groups as long as all together are not too deep. -/
theorem ofText_inGroups_iff (h : ofText catalog now text = .ok f)
    (visible : Text.isBlank text = false) (n : Nat) :
    (∃ g, ofText catalog now (inGroups n text) = .ok g) ↔
      n + textNesting text ≤ maxGroupDepth := by
  rcases (derivesText_of_ofText h visible).1.inGroups n with ⟨clauses, derives, hcount⟩
  constructor
  · rintro ⟨g, hg⟩
    rcases (ofText_eq_ok_iff.1 hg).2.clauses with ⟨hempty, -⟩ | ⟨depth, hdepth, sequence⟩
    · exact absurd hempty derives.derives.tokens_ne_nil
    · have hsame : depth = textNesting text + n :=
        sequence.nesting_eq.symm.trans derives.derives.nesting_eq
      omega
  · intro hdepth
    refine ⟨_, ofText_of_derivesText derives (by omega) ?_⟩
    rw [hcount]
    exact allows_of_ofText h

theorem exists_opensTooDeep_inGroups (h : ofText catalog now text = .ok f)
    (visible : Text.isBlank text = false) {n : Nat} (deep : maxGroupDepth < n + textNesting text) :
    ∃ token, OpensTooDeep catalog now (Scan.of 0 (inGroups n text).toList).tokens token := by
  rcases (derivesText_of_ofText h visible).1.inGroups n with ⟨clauses, derives, hcount⟩
  have allowed := allows_of_ofText h
  rw [parameterCount, ← hcount] at allowed
  rcases derives.derives.exceedsRoom 0 0 [] .start (by omega) (by simpa using allowed) [] with
    ⟨token, inside⟩
  exact ⟨token, by simpa using inside⟩

theorem ofText_eq_error_iff_opensTooDeep {token : Token} :
    ofText catalog now text =
        .error ⟨text, .filter, .unexpectedToken token .shallowerGroup⟩ ↔
      OpensTooDeep catalog now (Scan.of 0 text.toList).tokens token :=
  ofStream_eq_error_iff_opensTooDeep

/-- The limit on the nesting of groups, for one catalog at one time. -/
structure BoundsNesting (catalog : Catalog) (now : Timestamp) : Prop where
  /-- A group that is opened with 64 of them open is refused, whatever follows, and nothing else is
  refused for its depth. -/
  refused : ∀ (stream : TokenStream) (token : Token),
    ofStream catalog now stream =
        .error ⟨stream.text, stream.context, .unexpectedToken token .shallowerGroup⟩ ↔
      ∃ front negation rest negated parameters,
        stream.tokens = front ++ (negation ++ token :: rest) ∧
        Reaches catalog now 64 parameters front ∧ DerivesNegation negation negated ∧
        token.kind = .openParen
  /-- Of the parentheses ahead of a place where a clause begins, those count that have no partner
  there, and all of these open groups. -/
  opened : ∀ opened parameters front, Reaches catalog now opened parameters front →
    opened ≤ 64 ∧ (unpaired front).openings.length = opened ∧ (unpaired front).closings = []
  /-- A text that is accepted is accepted in `n` groups if and only if all together are nested 64
  deep at most, and otherwise it is refused for its depth. -/
  accepted : ∀ text f, ofText catalog now text = .ok f → Text.isBlank text = false → ∀ n,
    ((∃ g, ofText catalog now (inGroups n text) = .ok g) ↔ n + textNesting text ≤ 64) ∧
      (64 < n + textNesting text → ∃ token, ofText catalog now (inGroups n text) =
        .error ⟨inGroups n text, .filter, .unexpectedToken token .shallowerGroup⟩)
  /-- Of more than 64 parentheses ahead of a text the one behind 64 others is refused. -/
  place : ∀ text n, 64 < n → ofText catalog now (inGroups n text) =
    .error ⟨inGroups n text, .filter, .unexpectedToken ⟨.openParen, "(", 64⟩ .shallowerGroup⟩
  /-- There is one reader that counts the open groups, one up when a group is opened and one down
  when it has been read or has failed. -/
  counter : ∀ stream, ∃! read, Counts ⟨catalog, now, stream⟩ read
  /-- It reads as clauses are read with the room that is left, and behind every clause and every
  group, read or refused, the counter is what it was ahead of it. -/
  kept : ∀ stream read, Counts ⟨catalog, now, stream⟩ read → ∀ opened c,
    Keeps (read c) opened (readClause ⟨catalog, now, stream⟩ (64 - opened) c) ∧
      ∀ opening, Keeps (insideGroup (countingGroup ⟨catalog, now, stream⟩ read opening c)) opened
        (readGroup ⟨catalog, now, stream⟩ (readClause ⟨catalog, now, stream⟩ (64 - (opened + 1)))
          opening c)

/-- Groups are nested 64 deep at most, and only those count that are still open. -/
theorem boundsNesting (catalog : Catalog) (now : Timestamp) : BoundsNesting catalog now where
  refused _ _ := ofStream_eq_error_iff_opensTooDeep
  opened opened parameters front reach := by
    rcases reach.unpaired_eq with ⟨openings, hfront, hlength⟩
    rw [hfront]
    exact ⟨reach.opened_le, hlength, rfl⟩
  accepted text f h visible n := by
    refine ⟨ofText_inGroups_iff h visible n, fun deep => ?_⟩
    rcases exists_opensTooDeep_inGroups h visible deep with ⟨token, inside⟩
    exact ⟨token, ofText_eq_error_iff_opensTooDeep.2 inside⟩
  place text n deep := by
    rw [ofText_eq_error_iff_opensTooDeep, toList_inGroups, Scan.tokens_of_openings]
    exact opensTooDeep_openings deep _
  counter stream := existsUnique_counts _
  kept stream read counts opened c := by
    have hread := counts_iff_keeps.1 counts
    exact ⟨hread opened c, fun opening => (keeps_group (hread (opened + 1)) opening c).insideGroup⟩

end Filter

end RecordQuery
