import RecordQuery.Proofs.Clause.Leaves
import RecordQuery.Proofs.Filter.RoundTrip
import RecordQuery.Proofs.Token.Image

/-!
# Reading what is written of paths

A path is written as the name of its column and a segment for each key. It reads back as that, if
no key holds what closes a segment, and else the first such key ends its segment early
(`Path.readsBack_iff`). What then stands behind that place is read as part of the query.

A key that a filter has from a text comes from a key segment there, or from a quoted text between
brackets (`Grammar.DerivesSequence.exists_bracket`). The name in a segment never holds what closes
it. A quoted text can hold anything, and so there are filters whose paths do not read back
(`Filter.readsBack_of_ofText`).
-/

namespace RecordQuery

def Token.content (t : Token) : TokenKind × String :=
  (t.kind, t.text)

@[simp] theorem Token.content_shift (distance : Nat) (t : Token) :
    (t.shift distance).content = t.content := rfl

theorem Token.map_content_shift (distance : Nat) (tokens : List Token) :
    (tokens.map (Token.shift distance)).map Token.content = tokens.map Token.content := by
  simp

namespace Path

/-- What the tokens of keys have to say: for each key a segment of its own. -/
def keyContents (keys : List String) : List (TokenKind × String) :=
  keys.flatMap fun key => [(.openBracket, "["), (.string, key), (.closeBracket, "]")]

/-- The text of the path, with a blank behind it, is read as the name of the column and the keys,
and as nothing else. -/
structure ReadsBack (p : Path) : Prop where
  contents : (TokenStream.ofText (p.write ++ " ") .filter).tokens.map Token.content =
    (.identifier, p.column.name) :: keyContents p.keys
  terminated : (TokenStream.ofText (p.write ++ " ") .filter).unterminated = none

theorem keyContents_cons (key : String) (keys : List String) :
    keyContents (key :: keys) =
      (.openBracket, "[") :: (.string, key) :: (.closeBracket, "]") :: keyContents keys := rfl

theorem writeKeys_cons_append (key : String) (keys : List String) (more : List Char) :
    (writeKeys (key :: keys)).toList ++ more = '[' :: '"' ::
      (key.toList ++ (Lexeme.keyEnd ++ ((writeKeys keys).toList ++ more))) := by
  simp [writeKeys, Lexeme.source, Lexeme.keyEnd]

/-- A key that does not close its segment is scanned apart from what stands behind it. -/
theorem scan_writeKeys_cons {key : String} (h : ¬Lexeme.keyEnd <:+: key.toList)
    (keys : List String) (more : List Char) :
    Scan.of 0 ((writeKeys (key :: keys)).toList ++ more) =
      Scan.cons 0 (.key key.toList)
        ((Scan.of 0 ((writeKeys keys).toList ++ more)).shift (Lexeme.key key.toList).width) := by
  have htake := Lexeme.take_key
    (Lexeme.splitKey_append_keyEnd h ((writeKeys keys).toList ++ more))
  rw [writeKeys_cons_append, Scan.of_lexeme 0 (by decide) htake, Scan.of_eq_shift, Nat.zero_add]

theorem contents_cons_key (name : List Char) (distance : Nat) (s : Scan) :
    (Scan.cons 0 (.key name) (s.shift distance)).tokens.map Token.content =
      (.openBracket, "[") :: (.string, String.ofList name) :: (.closeBracket, "]") ::
        s.tokens.map Token.content := by
  rw [Scan.tokens_cons, Scan.tokens_shift, List.map_append, Token.map_content_shift]
  rfl

/-- Keys that do not close their segments are read as they were written. -/
theorem scan_writeKeys {keys : List String} (h : ∀ key ∈ keys, ¬Lexeme.keyEnd <:+: key.toList) :
    (Scan.of 0 ((writeKeys keys).toList ++ [' '])).tokens.map Token.content = keyContents keys ∧
      (Scan.of 0 ((writeKeys keys).toList ++ [' '])).opened = none := by
  induction keys with
  | nil => exact ⟨by decide +kernel, by decide +kernel⟩
  | cons key keys ih =>
      obtain ⟨hcontents, hopened⟩ := ih fun other hother => h other (List.mem_cons_of_mem _ hother)
      rw [scan_writeKeys_cons (h key List.mem_cons_self), contents_cons_key, Scan.opened_cons,
        Scan.opened_shift_eq_none_iff, keyContents_cons, String.ofList_toList, hcontents]
      exact ⟨rfl, hopened⟩

/-- Keys that are read as they were written do not close their segments: where one did, its segment
would give a shorter name. -/
theorem not_keyEnd_of_scan {keys : List String}
    (h : (Scan.of 0 ((writeKeys keys).toList ++ [' '])).tokens.map Token.content =
      keyContents keys) :
    ∀ key ∈ keys, ¬Lexeme.keyEnd <:+: key.toList := by
  induction keys with
  | nil => simp
  | cons key keys ih =>
      have hkey : ¬Lexeme.keyEnd <:+: key.toList := by
        rw [writeKeys_cons_append, keyContents_cons] at h
        cases hsplit : Lexeme.splitKey
            (key.toList ++ (Lexeme.keyEnd ++ ((writeKeys keys).toList ++ [' ']))) with
        | none =>
            rw [Scan.of_opened 0 (by decide) (Lexeme.take_open_key hsplit)] at h
            cases h
        | some split =>
            rcases split with ⟨name, rest⟩
            rw [Scan.of_lexeme 0 (by decide) (Lexeme.take_key hsplit), Scan.of_eq_shift,
              contents_cons_key] at h
            have hname : String.ofList name = key :=
              (Prod.mk.inj (List.cons.inj (List.cons.inj h).2).1).2
            rw [← hname, String.toList_ofList]
            exact Lexeme.not_keyEnd_of_splitKey hsplit
      rw [scan_writeKeys_cons hkey, contents_cons_key, keyContents_cons, String.ofList_toList,
        List.cons.injEq, List.cons.injEq, List.cons.injEq] at h
      intro other hother
      rcases List.mem_cons.1 hother with rfl | hother
      · exact hkey
      · exact ih h.2.2.2 other hother

/-- A path with a word for its column reads back if no key closes its segment, and only then. -/
theorem readsBack_iff {p : Path} (word : p.column.IsWord) :
    p.ReadsBack ↔ ∀ key ∈ p.keys, ¬Lexeme.keyEnd <:+: key.toList := by
  have hclosed := word.closed
  rcases word with ⟨place, hname⟩
  have hname : (Scan.of 0 p.column.name.toList).tokens =
      [⟨.identifier, p.column.name, place⟩] := hname
  have htext : (p.write ++ " ").toList =
      p.column.name.toList ++ ((writeKeys p.keys).toList ++ [' ']) := by
    simp [write]
  have hbreaks : Lexeme.Breaks ((writeKeys p.keys).toList ++ [' ']) := by
    cases p.keys with
    | nil => exact Lexeme.breaks_space []
    | cons key keys =>
        rw [writeKeys_cons_append]
        exact Lexeme.breaks_cons.2 (by decide)
  have hcontents : (TokenStream.ofText (p.write ++ " ") .filter).tokens.map Token.content =
      (.identifier, p.column.name) ::
        (Scan.of 0 ((writeKeys p.keys).toList ++ [' '])).tokens.map Token.content := by
    rw [TokenStream.ofText, htext]
    dsimp only
    rw [Scan.tokens_of_append hbreaks hclosed, hname, List.map_append, Token.map_content_shift]
    rfl
  have hopened : (TokenStream.ofText (p.write ++ " ") .filter).unterminated = none ↔
      (Scan.of 0 ((writeKeys p.keys).toList ++ [' '])).opened = none := by
    rw [TokenStream.opened_eq_none_iff, htext, Scan.opened_of_append_iff hbreaks hclosed]
  constructor
  · rintro ⟨h, -⟩
    rw [hcontents, List.cons.injEq] at h
    exact not_keyEnd_of_scan h.2
  · intro h
    rcases scan_writeKeys h with ⟨hkeys, hnone⟩
    exact ⟨by rw [hcontents, hkeys], hopened.2 hnone⟩

end Path

namespace Clause

@[simp] theorem leaves_negateIf (again : Bool) (c : Clause) :
    (c.negateIf again).leaves = c.leaves := by
  cases c <;> rfl

@[simp] theorem leaves_withConjunction (conjunction : Option Conjunction) (c : Clause) :
    (c.withConjunction conjunction).leaves = c.leaves := by
  cases c <;> rfl

theorem sequenceLeaves_singleton (c : Clause) : sequenceLeaves [c] = c.leaves := by
  simp [sequenceLeaves]

end Clause

namespace Grammar

variable {catalog : Catalog} {now : Timestamp}

theorem infix_behind {α : Type} (before : List α) (a : α) (middle after : List α) :
    middle <:+: before ++ a :: (middle ++ after) :=
  ⟨before ++ [a], after, by simp⟩

theorem DerivesKeys.exists_bracket {column : Column} {tokens : List Token} {keys : List String}
    (h : DerivesKeys column tokens keys) {key : String} (hkey : key ∈ keys) :
    ∃ opening name, [opening, name] <:+: tokens ∧ opening.kind = .openBracket ∧
      name.kind = .string ∧ name.text = key := by
  induction h with
  | nil => cases hkey
  | @cons opening name closing tokens keys _ hopening hname _ _ ih =>
      rcases List.mem_cons.1 hkey with rfl | hkey
      · exact ⟨opening, name, ⟨[], closing :: tokens, rfl⟩, hopening, hname, rfl⟩
      · rcases ih hkey with ⟨opening', name', hinfix, hbracket⟩
        have hbehind := List.suffix_append [opening, name, closing] tokens
        exact ⟨opening', name', hinfix.trans hbehind.isInfix, hbracket⟩

mutual

/-- The keys of every test in a clause stand behind brackets among its tokens. -/
theorem DerivesClause.exists_bracket {depth : Nat} {tokens : List Token} {clause : Clause}
    {l : Path × Test} {key : String} :
    DerivesClause catalog now depth tokens clause → l ∈ clause.leaves → key ∈ l.1.keys →
      ∃ opening name, [opening, name] <:+: tokens ∧ opening.kind = .openBracket ∧
        name.kind = .string ∧ name.text = key
  | .leaf _ _ _ keys _, hl, hkey => by
      obtain rfl := List.mem_singleton.1 hl
      rcases keys.exists_bracket hkey with ⟨opening, name, hinfix, hbracket⟩
      exact ⟨opening, name, hinfix.trans (infix_behind _ _ _ _), hbracket⟩
  | .single _ _ sequence _, hl, hkey => by
      rw [Clause.leaves_negateIf, ← Clause.sequenceLeaves_singleton] at hl
      rcases sequence.exists_bracket hl hkey with ⟨opening, name, hinfix, hbracket⟩
      exact ⟨opening, name, hinfix.trans (infix_behind _ _ _ _), hbracket⟩
  | .group _ _ sequence _ _, hl, hkey => by
      rcases sequence.exists_bracket hl hkey with ⟨opening, name, hinfix, hbracket⟩
      exact ⟨opening, name, hinfix.trans (infix_behind _ _ _ _), hbracket⟩

theorem DerivesSequence.exists_bracket {depth : Nat} {tokens : List Token}
    {clauses : List Clause} {l : Path × Test} {key : String} :
    DerivesSequence catalog now depth tokens clauses → l ∈ Clause.sequenceLeaves clauses →
      key ∈ l.1.keys →
      ∃ opening name, [opening, name] <:+: tokens ∧ opening.kind = .openBracket ∧
        name.kind = .string ∧ name.text = key
  | .last clause, hl, hkey => by
      rw [Clause.sequenceLeaves_singleton] at hl
      exact clause.exists_bracket hl hkey
  | .join clause _ others, hl, hkey => by
      rcases Clause.mem_sequenceLeaves_cons.1 hl with hl | hl
      · rw [Clause.leaves_withConjunction] at hl
        rcases clause.exists_bracket hl hkey with ⟨opening, name, hinfix, hbracket⟩
        exact ⟨opening, name, hinfix.trans (List.prefix_append _ _).isInfix, hbracket⟩
      · rcases others.exists_bracket hl hkey with ⟨opening, name, hinfix, hbracket⟩
        refine ⟨opening, name, hinfix.trans (List.IsSuffix.isInfix ?_), hbracket⟩
        exact (List.suffix_cons _ _).trans (List.suffix_append _ _)

end

end Grammar

namespace Filter

open Grammar

variable {catalog : Catalog} {now : Timestamp} {text : String} {f : Filter}

/-- A filter with a test in it is derived from the tokens of its text. -/
theorem derivesSequence_of_mem_leaves (h : ofText catalog now text = .ok f) {l : Path × Test}
    (hl : l ∈ f.leaves) :
    ∃ depth ≤ maxGroupDepth,
      DerivesSequence catalog now depth (Scan.of 0 text.toList).tokens f.clauses := by
  rcases (ofText_eq_ok_iff.1 h).2.clauses with ⟨-, hclauses⟩ | derives
  · rw [leaves, hclauses] at hl
    cases hl
  · exact derives

theorem column_mem_of_ofText (h : ofText catalog now text = .ok f) {l : Path × Test}
    (hl : l ∈ f.leaves) : l.1.column ∈ catalog.columns := by
  rcases derivesSequence_of_mem_leaves h hl with ⟨depth, hdepth, sequence⟩
  have wellFormed : f.WellFormed catalog := sequence.wellFormed (by simpa using hdepth)
  exact (wellFormed.admits hl).column_mem

/-- A key with what closes a segment in it was written as a quoted text behind a bracket. -/
theorem exists_quoted_of_ofText (h : ofText catalog now text = .ok f) {l : Path × Test}
    (hl : l ∈ f.leaves) {key : String} (hkey : key ∈ l.1.keys)
    (hend : Lexeme.keyEnd <:+: key.toList) :
    ∃ position bracket place,
      [(position, Lexeme.plain .openBracket bracket), (place, .quoted key.toList)] <:+:
        (Scan.of 0 text.toList).lexemes := by
  rcases derivesSequence_of_mem_leaves h hl with ⟨depth, -, sequence⟩
  rcases sequence.exists_bracket hl hkey with ⟨opening, name, hinfix, hopening, hname, rfl⟩
  have taken : ∀ place kind word,
      (place, Lexeme.plain kind word) ∈ (Scan.of 0 text.toList).lexemes → kind ≠ .string := by
    intro place kind word hmem
    rcases Scan.exists_take_of_mem hmem with ⟨c, cs, rest, htake⟩
    exact Lexeme.kind_ne_string_of_take htake
  rcases Scan.exists_of_bracket taken hopening hname hinfix with ⟨place, hmem⟩ | hquoted
  · rcases Scan.exists_take_of_mem hmem with ⟨c, cs, rest, htake⟩
    exact absurd hend (Lexeme.not_keyEnd_of_take htake)
  · exact hquoted

/-- The path of every test in a filter that is read from a text reads back, if no key of it closes
its segment, and only then. All paths of the filter do so if no quoted text behind a bracket holds
what closes a segment. The names of the columns have to be words. -/
theorem readsBack_of_ofText (words : ∀ column ∈ catalog.columns, column.IsWord)
    (h : ofText catalog now text = .ok f) :
    (∀ l ∈ f.leaves, l.1.ReadsBack ↔ ∀ key ∈ l.1.keys, ¬Lexeme.keyEnd <:+: key.toList) ∧
      ((∀ position bracket place content,
          [(position, Lexeme.plain .openBracket bracket), (place, .quoted content)] <:+:
            (Scan.of 0 text.toList).lexemes → ¬Lexeme.keyEnd <:+: content) →
        ∀ l ∈ f.leaves, l.1.ReadsBack) := by
  have readsBack_iff : ∀ l ∈ f.leaves,
      l.1.ReadsBack ↔ ∀ key ∈ l.1.keys, ¬Lexeme.keyEnd <:+: key.toList :=
    fun l hl => Path.readsBack_iff (words _ (column_mem_of_ofText h hl))
  refine ⟨readsBack_iff, fun hquoted l hl => (readsBack_iff l hl).2 fun key hkey hend => ?_⟩
  rcases exists_quoted_of_ofText h hl hkey hend with ⟨position, bracket, place, hinfix⟩
  exact hquoted _ _ _ _ hinfix hend

theorem isWord_of_mem_staff : ∀ column ∈ staff.columns, column.IsWord := by
  intro column hcolumn
  refine ⟨0, ?_⟩
  revert column
  decide +kernel

theorem readsBack_of_ofText_two_segments :
    ∃ f, ofText staff ⟨0, 0⟩ "meta[\"a]\"]['b\"'] eq '\"]'" = .ok f ∧
      ∀ l ∈ f.leaves, l.1.ReadsBack := by
  have hread : ofText staff ⟨0, 0⟩ "meta[\"a]\"]['b\"'] eq '\"]'" = .ok ⟨[
      .leaf false none ⟨⟨"meta", .json, [], true, false⟩, ["a]", "b\""]⟩
        (.criterion (.relation .equal) (some (.string "\"]")))]⟩ := by
    cbv
  have hlexemes : (Scan.of 0 "meta[\"a]\"]['b\"'] eq '\"]'".toList).lexemes =
      [(0, .plain .identifier "meta".toList), (4, .key "a]".toList),
        (10, .plain .openBracket ['[']), (11, .quoted "b\"".toList),
        (15, .plain .closeBracket [']']), (17, .plain (.operator (.relation .equal)) "eq".toList),
        (20, .quoted "\"]".toList)] := by
    decide +kernel
  refine ⟨_, hread, (readsBack_of_ofText isWord_of_mem_staff hread).2 ?_⟩
  intro position bracket place content hinfix
  have hcontent : content = ['b', '"'] := by
    rw [hlexemes] at hinfix
    simp_all [List.infix_cons_iff, List.cons_prefix_cons]
  rw [hcontent]
  decide

/-- A key that closes its segment: what is written of one test is read as two. -/
theorem not_readsBack_of_quoted_key :
    (∀ column ∈ staff.columns, column.IsWord) ∧
      ∃ f g, ofText staff ⟨0, 0⟩ "meta['a\"] eq 1 or meta[\"b'] eq 2" = .ok f ∧
        (∃ l ∈ f.leaves, ¬l.1.ReadsBack) ∧
        ofText staff ⟨0, 0⟩ f.write = .ok g ∧ f.leaves.length = 1 ∧ g.leaves.length = 2 := by
  have hread : ofText staff ⟨0, 0⟩ "meta['a\"] eq 1 or meta[\"b'] eq 2" = .ok ⟨[
      .leaf false none ⟨⟨"meta", .json, [], true, false⟩, ["a\"] eq 1 or meta[\"b"]⟩
        (.criterion (.relation .equal) (some (.integer 2)))]⟩ := by
    cbv
  have hagain : ofText staff ⟨0, 0⟩ "meta[\"a\"] eq 1 or meta[\"b\"] eq 2" = .ok ⟨[
      .leaf false (some .or) ⟨⟨"meta", .json, [], true, false⟩, ["a"]⟩
        (.criterion (.relation .equal) (some (.integer 1))),
      .leaf false none ⟨⟨"meta", .json, [], true, false⟩, ["b"]⟩
        (.criterion (.relation .equal) (some (.integer 2)))]⟩ := by
    cbv
  refine ⟨isWord_of_mem_staff, _, _, hread, ⟨_, List.mem_singleton_self _, ?_⟩, hagain, rfl, rfl⟩
  rw [Path.readsBack_iff (isWord_of_mem_staff _ (by decide))]
  decide

end Filter

end RecordQuery
