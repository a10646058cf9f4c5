import RecordQuery.Proofs.Clause.RoundTrip

/-!
# What a scan can find

Not every sequence of tokens comes from a text. A key segment ends where it first can, so its name
does not hold what closes it (`Lexeme.not_keyEnd_of_take`). Strings are only ever quoted texts and
names of keys, and the kind of any other literal is that of its word (`Lexeme.kind_of_take`). So a
string behind a bracket is either the name in a key segment, or a quoted text behind a bracket of
its own (`Scan.exists_of_bracket`).
-/

namespace RecordQuery

namespace Lexeme

theorem take_key {cs name rest : List Char} (h : splitKey cs = some (name, rest)) :
    take '[' ('"' :: cs) = .ok (.key name, rest) := by
  rw [take, h]

theorem take_open_key {cs : List Char} (h : splitKey cs = none) :
    take '[' ('"' :: cs) = .error .key := by
  rw [take, h]

theorem not_keyEnd_of_splitKey {cs name rest : List Char} (h : splitKey cs = some (name, rest)) :
    ¬keyEnd <:+: name := by
  fun_induction splitKey cs generalizing name with
  | case1 => cases h
  | case2 cs =>
      cases h
      simp [keyEnd]
  | case3 c cs hne ih =>
      rcases Option.map_eq_some_iff.1 h with ⟨⟨d, r⟩, hd, he⟩
      cases he
      intro hpart
      rcases List.infix_cons_iff.1 hpart with ⟨tail, htail⟩ | hpart
      · rcases List.cons.inj htail with ⟨rfl, rfl⟩
        exact hne _ rfl (append_of_splitKey hd).symm
      · exact ih hd hpart

/-- A word is a keyword, a number or a name, and no keyword is a string or a number. -/
theorem wordKind_eq (word : List Char) :
    wordKind word ≠ .string ∧ (wordKind word = .number → isNumeral word = true) := by
  have hkeywords : ∀ p ∈ keywords, p.2 ≠ .string ∧ p.2 ≠ .number := by decide
  rw [wordKind]
  split
  · next kind heq =>
      rcases List.lookup_eq_some_iff.1 heq with ⟨before, after, hsplit, -⟩
      have hmem : (Text.lower (String.ofList word), kind) ∈ keywords := by
        rw [hsplit]
        exact List.mem_append_right _ List.mem_cons_self
      rcases hkeywords _ hmem with ⟨hstring, hnumber⟩
      exact ⟨hstring, fun h => absurd h hnumber⟩
  · by_cases hnumeral : isNumeral word = true
    · rw [if_pos hnumeral]
      exact ⟨TokenKind.noConfusion, fun _ => hnumeral⟩
    · rw [if_neg hnumeral]
      exact ⟨TokenKind.noConfusion, TokenKind.noConfusion⟩

/-- A literal that is not a string is a word, and of the kind of that word. -/
theorem kind_of_take {c : Char} {cs text rest : List Char} {kind : TokenKind}
    (h : take c cs = .ok (.plain kind text, rest)) (hkind : kind.isLiteral = true) :
    kind = wordKind text := by
  unfold take at h
  split at h
  case h_1 | h_2 => split at h <;> cases h
  case h_16 =>
    cases h
    rfl
  all_goals
    cases h
    cases hkind

theorem kind_ne_string_of_take {c : Char} {cs text rest : List Char} {kind : TokenKind}
    (h : take c cs = .ok (.plain kind text, rest)) : kind ≠ .string := by
  rintro rfl
  exact (wordKind_eq text).1 (kind_of_take h rfl).symm

theorem not_keyEnd_of_take {c : Char} {cs name rest : List Char}
    (h : take c cs = .ok (.key name, rest)) : ¬keyEnd <:+: name := by
  unfold take at h
  split at h
  case h_2 =>
    split at h
    · next hsplit =>
        cases h
        exact not_keyEnd_of_splitKey hsplit
    · cases h
  case h_1 => split at h <;> cases h
  all_goals cases h

end Lexeme

namespace Scan

theorem exists_take_of_mem {position place : Nat} {cs : List Char} {l : Lexeme}
    (h : (place, l) ∈ (of position cs).lexemes) :
    ∃ c ds rest, Lexeme.take c ds = .ok (l, rest) := by
  fun_induction of position cs with
  | case1 position => cases h
  | case2 position c cs hc ih => exact ih h
  | case3 position c cs hc what htake => cases h
  | case4 position c cs hc l' rest htake ih =>
      rcases List.mem_cons.1 h with heq | h
      · cases heq
        exact ⟨c, cs, rest, htake⟩
      · exact ih h

theorem isNumeral_of_mem_tokens {position : Nat} {cs : List Char} {token : Token}
    (h : token ∈ (of position cs).tokens) (hkind : token.kind = .number) :
    Lexeme.isNumeral token.text.toList = true := by
  rcases List.mem_flatMap.1 h with ⟨⟨place, l⟩, hmem, htoken⟩
  rcases exists_take_of_mem hmem with ⟨c, ds, rest, htake⟩
  cases l with
  | plain kind text =>
      obtain rfl := List.mem_singleton.1 htoken
      obtain rfl : kind = .number := hkind
      rw [String.toList_ofList]
      exact (Lexeme.wordKind_eq text).2 (Lexeme.kind_of_take htake rfl).symm
  | quoted content =>
      obtain rfl := List.mem_singleton.1 htoken
      cases hkind
  | key name =>
      simp only [Lexeme.tokens, List.mem_cons, List.not_mem_nil, or_false] at htoken
      rcases htoken with rfl | rfl | rfl <;> cases hkind

/-- A text at the front of which a string stands begins with a quoted text. -/
theorem eq_quoted_of_tokens_eq_cons {place : Nat} {l : Lexeme} {name : Token}
    {rest tail : List Token} (hname : name.kind = .string)
    (taken : ∀ kind text, l = .plain kind text → kind ≠ .string)
    (h : l.tokens place ++ rest = name :: tail) : l = .quoted name.text.toList := by
  cases l with
  | plain kind text =>
      obtain rfl := (List.cons.inj h).1
      exact absurd hname (taken kind text rfl)
  | quoted content =>
      obtain rfl := (List.cons.inj h).1
      rw [String.toList_ofList]
  | key text =>
      obtain rfl := (List.cons.inj h).1
      cases hname

/-- A string behind a bracket belongs to the first lexeme of a text, or it is the first token behind
that lexeme, or the bracket stands further on. -/
theorem bracket_of_infix {position : Nat} {l : Lexeme} {opening name : Token} {rest : List Token}
    (hopening : opening.kind = .openBracket) (hname : name.kind = .string)
    (h : [opening, name] <:+: l.tokens position ++ rest) :
    l = .key name.text.toList ∨
      (∃ bracket tail, l = .plain .openBracket bracket ∧ rest = name :: tail) ∨
      [opening, name] <:+: rest := by
  cases l with
  | plain kind text =>
      rcases List.infix_cons_iff.1 h with ⟨tail, htail⟩ | hlater
      · rcases List.cons.inj htail with ⟨rfl, hrest⟩
        obtain rfl : kind = .openBracket := hopening
        exact .inr (.inl ⟨text, tail, rfl, hrest.symm⟩)
      · exact .inr (.inr hlater)
  | quoted content =>
      rcases List.infix_cons_iff.1 h with ⟨tail, htail⟩ | hlater
      · obtain rfl := (List.cons.inj htail).1
        cases hopening
      · exact .inr (.inr hlater)
  | key text =>
      rcases List.infix_cons_iff.1 h with ⟨tail, htail⟩ | h
      · obtain rfl := (List.cons.inj (List.cons.inj htail).2).1
        rw [String.toList_ofList]
        exact .inl rfl
      · rcases List.infix_cons_iff.1 h with ⟨tail, htail⟩ | h
        · obtain rfl := (List.cons.inj htail).1
          cases hopening
        · rcases List.infix_cons_iff.1 h with ⟨tail, htail⟩ | hlater
          · obtain rfl := (List.cons.inj htail).1
            cases hopening
          · exact .inr (.inr hlater)

/-- A string behind a bracket is the name in a key segment, or else a quoted text behind a bracket
that stands for itself. -/
theorem exists_of_bracket {lexemes : List (Nat × Lexeme)} {opening name : Token}
    (taken : ∀ place kind text, (place, Lexeme.plain kind text) ∈ lexemes → kind ≠ .string)
    (hopening : opening.kind = .openBracket) (hname : name.kind = .string)
    (h : [opening, name] <:+: lexemes.flatMap fun (position, l) => l.tokens position) :
    (∃ position, (position, .key name.text.toList) ∈ lexemes) ∨
      ∃ position bracket place,
        [(position, .plain .openBracket bracket), (place, .quoted name.text.toList)] <:+:
          lexemes := by
  induction lexemes with
  | nil => simp at h
  | cons first lexemes ih =>
      rcases first with ⟨position, l⟩
      rw [List.flatMap_cons] at h
      rcases bracket_of_infix hopening hname h with rfl | ⟨bracket, tail, rfl, hrest⟩ | hlater
      · exact .inl ⟨position, List.mem_cons_self⟩
      · cases lexemes with
        | nil => cases hrest
        | cons second lexemes =>
            rcases second with ⟨place, next⟩
            obtain rfl := eq_quoted_of_tokens_eq_cons hname
              (fun kind text heq => taken place kind text (by simp [heq])) hrest
            exact .inr ⟨position, bracket, place, [], lexemes, rfl⟩
      · rcases ih (fun place kind text hmem => taken place kind text (List.mem_cons_of_mem _ hmem))
          hlater with ⟨place, hmem⟩ | ⟨place, bracket, next, hinfix⟩
        · exact .inl ⟨place, List.mem_cons_of_mem _ hmem⟩
        · exact .inr ⟨place, bracket, next, List.infix_cons hinfix⟩

end Scan

end RecordQuery
