import RecordQuery.Token.Scan
import RecordQuery.Proofs.Grammar

/-!
# Scanning is local

A text in which nothing is left open is scanned the same whatever comes behind it, if only the next
character ends every lexeme: white space, a parenthesis, a comma or a bracket. So the scan of two
such texts in a row is the first scan and behind it the second, moved along (`Scan.of_append`).
-/

namespace RecordQuery

namespace Lexeme

def isBreak (c : Char) : Bool :=
  Text.isWhiteSpace c || c == '(' || c == ')' || c == ',' || c == '[' || c == ']'

/-- A text ahead of which every lexeme ends: it is empty or begins with a break. -/
def Breaks (cs : List Char) : Prop :=
  ∀ c ∈ cs.head?, isBreak c = true

theorem breaks_nil : Breaks [] := by
  simp [Breaks]

theorem breaks_cons {c : Char} {cs : List Char} : Breaks (c :: cs) ↔ isBreak c = true := by
  simp [Breaks]

theorem breaks_space (cs : List Char) : Breaks (' ' :: cs) :=
  breaks_cons.2 (by decide)

theorem breaks_comma (cs : List Char) : Breaks (',' :: cs) :=
  breaks_cons.2 (by decide)

theorem breaks_closeParen (cs : List Char) : Breaks (')' :: cs) :=
  breaks_cons.2 (by decide)

theorem isDelimiter_of_isBreak {c : Char} (h : isBreak c = true) : isDelimiter c = true := by
  simp only [isBreak, Bool.or_eq_true] at h
  rcases h with ((((h | h) | h) | h) | h) | h <;> simp [isDelimiter, h]

theorem ne_of_isBreak {b c : Char} (hb : isBreak b = true) (hc : isBreak c = false) : b ≠ c := by
  rintro rfl
  rw [hb] at hc
  cases hc

theorem splitWord_cons {c : Char} {cs : List Char} (h : c = '!' → ∀ rest, cs ≠ '=' :: rest) :
    splitWord (c :: cs) =
      if isDelimiter c then ([], c :: cs) else (c :: (splitWord cs).1, (splitWord cs).2) := by
  rw [splitWord.eq_def]
  split
  · next heq => cases heq
  · next heq =>
      rcases List.cons.inj heq with ⟨rfl, rfl⟩
      exact absurd rfl (h rfl _)
  · next heq =>
      rcases List.cons.inj heq with ⟨rfl, rfl⟩
      rfl

theorem splitWord_of_breaks {cs : List Char} (h : Breaks cs) : splitWord cs = ([], cs) := by
  cases cs with
  | nil => rfl
  | cons b cs =>
      have hb := breaks_cons.1 h
      rw [splitWord_cons, if_pos (isDelimiter_of_isBreak hb)]
      intro hc
      exact absurd hc (ne_of_isBreak hb (by decide))

theorem ne_cons_append_of_breaks {cs more : List Char} {c : Char} (hmore : Breaks more)
    (hc : isBreak c = false) (h : ∀ rest, cs ≠ c :: rest) : ∀ rest, cs ++ more ≠ c :: rest := by
  intro rest heq
  cases cs with
  | nil =>
      rw [List.nil_append] at heq
      rw [heq, breaks_cons, hc] at hmore
      cases hmore
  | cons d cs =>
      rw [List.cons_append, List.cons.injEq] at heq
      exact h cs (by rw [heq.1])

theorem splitWord_append_of_breaks (cs : List Char) {more : List Char} (h : Breaks more) :
    splitWord (cs ++ more) = ((splitWord cs).1, (splitWord cs).2 ++ more) := by
  fun_induction splitWord cs with
  | case1 => exact splitWord_of_breaks h
  | case2 cs => rfl
  | case3 c cs hbang hc =>
      rw [List.cons_append, splitWord_cons, if_pos hc]
      intro hb
      exact ne_cons_append_of_breaks h (by decide) (fun rest hcs => hbang rest hb hcs)
  | case4 c cs hbang hc word rest hsplit ih =>
      rw [List.cons_append, splitWord_cons, if_neg hc, ih, hsplit]
      intro hb
      exact ne_cons_append_of_breaks h (by decide) (fun rest hcs => hbang rest hb hcs)

def isUndelimited (cs : List Char) : Bool :=
  cs.all fun c => !isDelimiter c

theorem isUndelimited_cons {c : Char} {cs : List Char} :
    isUndelimited (c :: cs) = true ↔ isDelimiter c = false ∧ isUndelimited cs = true := by
  simp [isUndelimited]

theorem ne_equals_of_isUndelimited {cs : List Char} (h : isUndelimited cs = true) :
    ∀ rest, cs ≠ '=' :: rest := by
  rintro rest rfl
  have hequals := (isUndelimited_cons.1 h).1
  exact absurd hequals (by decide)

theorem splitWord_of_isUndelimited {cs : List Char} (h : isUndelimited cs = true) :
    splitWord cs = (cs, []) := by
  induction cs with
  | nil => rfl
  | cons c cs ih =>
      rcases isUndelimited_cons.1 h with ⟨hc, hcs⟩
      rw [splitWord_cons fun _ => ne_equals_of_isUndelimited hcs, hc, ih hcs]
      rfl

theorem splitQuoted_append_of_breaks {cs content rest more : List Char} (hmore : Breaks more)
    (h : splitQuoted cs = some (content, rest)) :
    splitQuoted (cs ++ more) = some (content, rest ++ more) := by
  fun_induction splitQuoted cs generalizing content with
  | case1 => cases h
  | case2 cs ih =>
      rcases Option.map_eq_some_iff.1 h with ⟨⟨c, r⟩, hc, he⟩
      cases he
      simp [splitQuoted, ih hc]
  | case3 cs hne =>
      cases h
      rw [List.cons_append, splitQuoted]
      exact ne_cons_append_of_breaks hmore (by decide) hne
  | case4 c cs htwo hone ih =>
      rcases Option.map_eq_some_iff.1 h with ⟨⟨d, r⟩, hd, he⟩
      cases he
      rw [List.cons_append, splitQuoted, ih hd]
      · rfl
      · exact fun _ hc _ => hone hc
      · exact hone

theorem splitKey_append {cs name rest : List Char} (more : List Char)
    (h : splitKey cs = some (name, rest)) :
    splitKey (cs ++ more) = some (name, rest ++ more) := by
  fun_induction splitKey cs generalizing name with
  | case1 => cases h
  | case2 cs =>
      cases h
      rfl
  | case3 c cs hne ih =>
      rcases Option.map_eq_some_iff.1 h with ⟨⟨d, r⟩, hd, he⟩
      cases he
      rw [List.cons_append, splitKey, ih hd]
      · rfl
      · intro rest hc heq
        cases cs with
        | nil => cases hd
        | cons e cs =>
            rw [List.cons_append, List.cons.injEq] at heq
            exact hne cs hc (by rw [heq.1])

theorem takeWord_append_of_breaks (c : Char) (cs : List Char) {more : List Char}
    (hmore : Breaks more) :
    takeWord c (cs ++ more) = ((takeWord c cs).1, (takeWord c cs).2 ++ more) := by
  simp only [takeWord, splitWord_append_of_breaks cs hmore]

theorem take_eq_takeWord {c : Char} {cs : List Char} (hc : isDelimiter c = false)
    (hbang : c = '!' → ∀ rest, cs ≠ '=' :: rest) : take c cs = .ok (takeWord c cs) := by
  have hne : ∀ d, isDelimiter d = true → c ≠ d := by
    rintro d hd rfl
    rw [hc] at hd
    cases hd
  unfold take
  split
  case h_10 => exact absurd rfl (hbang rfl _)
  case h_16 => rfl
  all_goals exact absurd rfl (hne _ (by decide))

/-- A lexeme is taken the same, whatever stands behind a text that ends where lexemes do. -/
theorem take_append_of_breaks {c : Char} {cs rest more : List Char} {l : Lexeme}
    (hc : Text.isWhiteSpace c = false) (hmore : Breaks more) (h : take c cs = .ok (l, rest)) :
    take c (cs ++ more) = .ok (l, rest ++ more) := by
  unfold take at h
  split at h
  case h_1 cs =>
    split at h
    · next hsplit =>
        cases h
        unfold take
        simp only [splitQuoted_append_of_breaks hmore hsplit]
    · cases h
  case h_2 cs =>
    split at h
    · next hsplit =>
        cases h
        unfold take
        simp only [List.cons_append, splitKey_append more hsplit]
    · cases h
  case h_3 hne | h_9 hne | h_15 hne =>
    cases h
    rw [take]
    exact ne_cons_append_of_breaks hmore (by decide) hne
  case h_13 hequal hgreater =>
    cases h
    rw [take]
    · exact ne_cons_append_of_breaks hmore (by decide) hequal
    · exact ne_cons_append_of_breaks hmore (by decide) hgreater
  case h_16 hquote hopen hclose hparen hparen' hcomma hequal hless hgreater _ _ hbang _ _ _ =>
    injection h with h
    have hdelimiter : isDelimiter c = false := by
      simp only [isDelimiter, hc, Bool.or_eq_false_iff, beq_eq_false_iff_ne]
      exact ⟨⟨⟨⟨⟨⟨⟨⟨⟨trivial, hquote⟩, hparen⟩, hparen'⟩, hcomma⟩, hopen⟩, hclose⟩, hequal⟩,
        hless⟩, hgreater⟩
    rw [take_eq_takeWord hdelimiter, takeWord_append_of_breaks c cs hmore, h]
    intro hb
    exact ne_cons_append_of_breaks hmore (by decide) (fun rest hcs => hbang rest hb hcs)
  all_goals
    cases h
    rfl

end Lexeme

namespace Scan

def append (s t : Scan) : Scan :=
  ⟨s.lexemes ++ t.lexemes, t.opened⟩

def shift (distance : Nat) (s : Scan) : Scan :=
  ⟨s.lexemes.map fun (position, l) => (position + distance, l),
    s.opened.map fun (what, position) => (what, position + distance)⟩

@[simp] theorem tokens_append (s t : Scan) : (s.append t).tokens = s.tokens ++ t.tokens := by
  simp [tokens, append]

@[simp] theorem opened_append (s t : Scan) : (s.append t).opened = t.opened := rfl

@[simp] theorem opened_cons (position : Nat) (l : Lexeme) (s : Scan) :
    (cons position l s).opened = s.opened := rfl

@[simp] theorem opened_empty : empty.opened = none := rfl

@[simp] theorem empty_append (s : Scan) : empty.append s = s := rfl

@[simp] theorem cons_append (position : Nat) (l : Lexeme) (s t : Scan) :
    (cons position l s).append t = cons position l (s.append t) := rfl

@[simp] theorem tokens_cons_plain (position : Nat) (kind : TokenKind) (text : List Char)
    (s : Scan) :
    (cons position (.plain kind text) s).tokens =
      ⟨kind, String.ofList text, position⟩ :: s.tokens := rfl

theorem tokens_shift (distance : Nat) (s : Scan) :
    (s.shift distance).tokens = s.tokens.map (Token.shift distance) := by
  have htokens : ∀ (position : Nat) (l : Lexeme),
      l.tokens (position + distance) = (l.tokens position).map (Token.shift distance) := by
    intro position l
    cases l with
    | plain kind text => rfl
    | quoted content => rfl
    | key name => simp [Lexeme.tokens, Token.shift]; omega
  simp [tokens, shift, htokens, List.flatMap_map, List.map_flatMap]

@[simp] theorem opened_shift_eq_none_iff (distance : Nat) (s : Scan) :
    (s.shift distance).opened = none ↔ s.opened = none := by
  simp [shift]

theorem of_add (position distance : Nat) (cs : List Char) :
    of (position + distance) cs = (of position cs).shift distance := by
  fun_induction of position cs with
  | case1 position => simp [shift, empty]
  | case2 position c cs hc ih =>
      rw [of_blank _ _ hc, ← ih]
      congr 1
      omega
  | case3 position c cs hc what h =>
      rw [of_opened _ (by simpa using hc) h]
      rfl
  | case4 position c cs hc l rest h ih =>
      rw [of_lexeme _ (by simpa using hc) h]
      rw [show position + distance + l.width = position + l.width + distance by omega, ih]
      rfl

theorem of_eq_shift (position : Nat) (cs : List Char) :
    of position cs = (of 0 cs).shift position := by
  rw [← of_add, Nat.zero_add]

/-- Scanning is local: if nothing is left open in a text and all its lexemes are taken the same
ahead of another one, the two are scanned apart. -/
theorem of_append_of_take {position : Nat} {cs more : List Char}
    (htake : ∀ c ds l rest, Text.isWhiteSpace c = false → c :: ds <:+ cs →
      Lexeme.take c ds = .ok (l, rest) → Lexeme.take c (ds ++ more) = .ok (l, rest ++ more))
    (hclosed : (of position cs).opened = none) :
    of position (cs ++ more) = (of position cs).append (of (position + cs.length) more) := by
  fun_induction of position cs with
  | case1 position => rfl
  | case2 position c cs hc ih =>
      have hothers := ih (fun d ds l rest hd hsuffix =>
        htake d ds l rest hd (hsuffix.trans (List.suffix_cons c cs))) hclosed
      rw [List.cons_append, of_blank _ _ hc, hothers, List.length_cons]
      congr 2
      omega
  | case3 position c cs hc what h => cases hclosed
  | case4 position c cs hc l rest h ih =>
      have hblank : Text.isWhiteSpace c = false := by simpa using hc
      have hsource : l.source ++ rest = c :: cs := Lexeme.source_append_of_take h
      have hlength : (c :: cs).length = l.width + rest.length := by
        rw [← hsource, List.length_append, Lexeme.width]
      have hothers := ih (fun d ds l' rest' hd hsuffix =>
        htake d ds l' rest' hd (hsuffix.trans ⟨l.source, hsource⟩)) hclosed
      rw [List.cons_append, of_lexeme _ hblank (htake c cs l rest hblank List.suffix_rfl h),
        hothers, hlength, cons_append, Nat.add_assoc]

/-- A text in which nothing is left open and one that begins with a break are scanned apart. -/
theorem of_append {position : Nat} {cs more : List Char} (hmore : Lexeme.Breaks more)
    (hclosed : (of position cs).opened = none) :
    of position (cs ++ more) = (of position cs).append (of (position + cs.length) more) :=
  of_append_of_take (fun _ _ _ _ hc _ h => Lexeme.take_append_of_breaks hc hmore h) hclosed

theorem opened_of_append_iff {cs more : List Char} (hmore : Lexeme.Breaks more)
    (hclosed : (of 0 cs).opened = none) :
    (of 0 (cs ++ more)).opened = none ↔ (of 0 more).opened = none := by
  rw [of_append hmore hclosed, of_eq_shift (0 + cs.length), opened_append,
    opened_shift_eq_none_iff]

theorem tokens_of_append {cs more : List Char} (hmore : Lexeme.Breaks more)
    (hclosed : (of 0 cs).opened = none) :
    (of 0 (cs ++ more)).tokens =
      (of 0 cs).tokens ++ (of 0 more).tokens.map (Token.shift cs.length) := by
  rw [of_append hmore hclosed, of_eq_shift (0 + cs.length), tokens_append, tokens_shift,
    Nat.zero_add]

theorem of_space (cs : List Char) : of 0 (' ' :: cs) = (of 0 cs).shift 1 := by
  rw [of_blank 0 cs (by decide), of_eq_shift]

theorem opened_of_append_space_iff {cs : List Char} (more : List Char)
    (hclosed : (of 0 cs).opened = none) :
    (of 0 (cs ++ ' ' :: more)).opened = none ↔ (of 0 more).opened = none := by
  rw [opened_of_append_iff (Lexeme.breaks_space more) hclosed, of_space, opened_shift_eq_none_iff]

theorem tokens_of_append_space {cs : List Char} (more : List Char)
    (hclosed : (of 0 cs).opened = none) :
    (of 0 (cs ++ ' ' :: more)).tokens =
      (of 0 cs).tokens ++ ((of 0 more).tokens.map (Token.shift 1)).map (Token.shift cs.length) := by
  rw [tokens_of_append (Lexeme.breaks_space more) hclosed, of_space, tokens_shift]

theorem of_append_comma {cs : List Char} (more : List Char) (hclosed : (of 0 cs).opened = none) :
    of 0 (cs ++ ',' :: ' ' :: more) =
      (of 0 cs).append (cons cs.length (.plain .comma [',']) (of (cs.length + 2) more)) := by
  rw [of_append (Lexeme.breaks_comma _) hclosed, Nat.zero_add, of_lexeme _ (by decide) rfl,
    of_blank _ _ (by decide)]
  rfl

theorem opened_of_append_comma_iff {cs : List Char} (more : List Char)
    (hclosed : (of 0 cs).opened = none) :
    (of 0 (cs ++ ',' :: ' ' :: more)).opened = none ↔ (of 0 more).opened = none := by
  rw [of_append_comma more hclosed, opened_append, opened_cons, of_eq_shift (cs.length + 2),
    opened_shift_eq_none_iff]

theorem tokens_of_append_comma {cs : List Char} (more : List Char)
    (hclosed : (of 0 cs).opened = none) :
    (of 0 (cs ++ ',' :: ' ' :: more)).tokens =
      (of 0 cs).tokens ++
        ⟨.comma, ",", cs.length⟩ :: (of 0 more).tokens.map (Token.shift (cs.length + 2)) := by
  rw [of_append_comma more hclosed, tokens_append, tokens_cons_plain, of_eq_shift (cs.length + 2),
    tokens_shift]

theorem of_openParen (cs : List Char) :
    of 0 ('(' :: cs) = cons 0 (.plain .openParen ['(']) ((of 0 cs).shift 1) := by
  rw [of_lexeme 0 (by decide) rfl, of_eq_shift]
  rfl

theorem of_closeParen : of 0 [')'] = cons 0 (.plain .closeParen [')']) empty := by
  rw [of_lexeme 0 (by decide) rfl, of_nil]

theorem of_word (position : Nat) {word : List Char} (hne : word ≠ [])
    (hword : Lexeme.isUndelimited word = true) :
    of position word = cons position (.plain (Lexeme.wordKind word) word) empty := by
  cases word with
  | nil => exact absurd rfl hne
  | cons c cs =>
      rcases Lexeme.isUndelimited_cons.1 hword with ⟨hc, hcs⟩
      have hblank : Text.isWhiteSpace c = false := by
        simp only [Lexeme.isDelimiter, Bool.or_eq_false_iff] at hc
        simp [hc]
      have htake := Lexeme.take_eq_takeWord hc fun _ => Lexeme.ne_equals_of_isUndelimited hcs
      rw [Lexeme.takeWord, Lexeme.splitWord_of_isUndelimited hcs] at htake
      rw [of_lexeme position hblank htake, of_nil]

theorem of_not (cs : List Char) :
    of 0 ('n' :: 'o' :: 't' :: ' ' :: cs) =
      cons 0 (.plain .not ['n', 'o', 't']) ((of 0 cs).shift 4) := by
  have hword : of 0 ['n', 'o', 't'] = cons 0 (.plain .not ['n', 'o', 't']) empty := by
    rw [of_word 0 (by decide) (by decide)]
    rfl
  have happend := of_append (Lexeme.breaks_space cs) (by rw [hword, opened_cons, opened_empty])
  rw [hword, of_blank _ _ (by decide)] at happend
  rw [← of_eq_shift]
  exact happend

/-- A text with a visible character in it that leaves nothing open has a token. -/
theorem tokens_ne_nil {position : Nat} {cs : List Char} (hclosed : (of position cs).opened = none)
    (hvisible : cs.all Text.isWhiteSpace = false) : (of position cs).tokens ≠ [] := by
  fun_induction of position cs with
  | case1 position => cases hvisible
  | case2 position c cs hc ih => exact ih hclosed (by simpa [hc] using hvisible)
  | case3 position c cs hc what h => cases hclosed
  | case4 position c cs hc l rest h ih =>
      rw [tokens_cons]
      cases l <;> simp [Lexeme.tokens]

end Scan

end RecordQuery
