import RecordQuery.Proofs.Token.Extent

/-!
# Quoting a word

A word is put between apostrophes. The quotes neither end the lexeme ahead of the word nor are ended
by the one behind it, unless one of these is a quoted text itself. Otherwise all other lexemes stay
what they are, and those behind the word stand further on (`Scan.of_quoteAt`).
-/

namespace RecordQuery

namespace Scan

theorem standsAhead_of_mem {position place : Nat} {cs : List Char} {l : Lexeme}
    (h : (place, l) ∈ (of position cs).lexemes) : ∃ rest, l.StandsAhead rest := by
  rcases List.append_of_mem h with ⟨before, after, hsplit⟩
  rcases exists_cutsAt hsplit with ⟨_, behind, hcut, -⟩
  exact ⟨behind, hcut.stands⟩

theorem tokens_of (position : Nat) (cs : List Char) :
    (of position cs).tokens = (of 0 cs).tokens.map (Token.shift position) := by
  rw [of_eq_shift, tokens_shift]

theorem opened_of_eq_none_iff (position place : Nat) (cs : List Char) :
    (of position cs).opened = none ↔ (of place cs).opened = none := by
  rw [of_eq_shift position, of_eq_shift place, opened_shift_eq_none_iff, opened_shift_eq_none_iff]

/-- Where no quoted text follows and nothing is left open, there is no apostrophe. -/
theorem head?_ne_of_head?_lexemes {position : Nat} {cs : List Char}
    (hclosed : (of position cs).opened = none)
    (h : ∀ entry ∈ (of position cs).lexemes.head?, ∀ content, entry.2 ≠ .quoted content) :
    cs.head? ≠ some '\'' := by
  intro hquote
  rcases List.head?_eq_some_iff.1 hquote with ⟨rest, rfl⟩
  cases hsplit : Lexeme.splitQuoted rest with
  | none =>
      rw [of_opened position (by decide) (by rw [Lexeme.take, hsplit])] at hclosed
      cases hclosed
  | some found =>
      rcases found with ⟨content, rest'⟩
      rw [of_lexeme position (by decide) (by rw [Lexeme.take, hsplit])] at h
      exact h _ rfl content rfl

def quoteAt (cs : List Char) (place : Nat) (word : List Char) : List Char :=
  cs.take place ++ ((Lexeme.quoted word).source ++ cs.drop (place + word.length))

/-- A word that has no quoted text on either side of it may be quoted. -/
theorem of_quoteAt {cs word : List Char} {before after : List (Nat × Lexeme)} {place : Nat}
    {kind : TokenKind} (h : (of 0 cs).lexemes = before ++ (place, .plain kind word) :: after)
    (hclosed : (of 0 cs).opened = none)
    (hbefore : ∀ entry ∈ before.getLast?, ∀ content, entry.2 ≠ .quoted content)
    (hafter : ∀ entry ∈ after.head?, ∀ content, entry.2 ≠ .quoted content) :
    ∃ (rest : List Token) (m n : Nat),
      (of 0 cs).tokens = (before.flatMap fun (place, l) => l.tokens place) ++
        ⟨kind, String.ofList word, place⟩ :: rest.map (Token.shift m) ∧
      (of 0 (quoteAt cs place word)).tokens = (before.flatMap fun (place, l) => l.tokens place) ++
        ⟨.string, String.ofList word, place⟩ :: rest.map (Token.shift n) ∧
      (of 0 (quoteAt cs place word)).opened = none := by
  rcases exists_cutsAt h with ⟨front, behind, hcut, hplace, hbehind⟩
  rw [Nat.zero_add] at hplace
  have hquote : behind.head? ≠ some '\'' :=
    head?_ne_of_head?_lexemes (by rw [hbehind, hclosed]) (by rwa [hbehind])
  have hscan : of 0 (front ++ ((Lexeme.quoted word).source ++ behind)) =
      ⟨before ++ (place, .quoted word) :: (of (place + (Lexeme.quoted word).width) behind).lexemes,
        (of (place + (Lexeme.quoted word).width) behind).opened⟩ := by
    rw [hcut.finds _ fun entry hentry => ?_, Nat.zero_add, ← hplace, of_quoted place word hquote]
    · rfl
    · have hmem : entry ∈ (of 0 cs).lexemes := by
        rw [h]
        exact List.mem_append_left _ (List.mem_of_getLast? hentry)
      rcases standsAhead_of_mem hmem with ⟨rest, hrest⟩
      exact hrest.of_quote (hbefore entry hentry) _
  have htext : quoteAt cs place word = front ++ ((Lexeme.quoted word).source ++ behind) := by
    have htake : cs.take place = front := by rw [hcut.text, hplace, List.take_left]
    have hdrop : cs.drop (place + word.length) = behind := by
      rw [hcut.text, hplace, List.drop_length_add_append]
      exact List.drop_left
    rw [quoteAt, htake, hdrop]
  refine ⟨(of 0 behind).tokens, place + word.length, place + (Lexeme.quoted word).width, ?_, ?_, ?_⟩
  · have hafter : (after.flatMap fun (place, l) => l.tokens place) =
        (of 0 behind).tokens.map (Token.shift (place + word.length)) := by
      rw [← tokens_of, tokens]
      exact congrArg _ (congrArg Scan.lexemes hbehind).symm
    rw [tokens, h, List.flatMap_append, List.flatMap_cons, hafter]
    rfl
  · rw [htext, tokens, hscan, List.flatMap_append, List.flatMap_cons, ← tokens_of]
    rfl
  · rw [htext, hscan]
    exact (opened_of_eq_none_iff _ _ behind).1 (by rw [hbehind, hclosed])

end Scan

end RecordQuery
