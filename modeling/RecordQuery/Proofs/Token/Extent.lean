import RecordQuery.Proofs.Token.Image

/-!
# How far a lexeme reaches

Every lexeme is as long as it can be. A symbol ends where no character follows that makes another
symbol of it, a word ahead of a delimiter or of `!=`, a quoted text behind an apostrophe that is not
doubled, and a key segment at the first place where it can. `Lexeme.StandsAhead` says so without a
scanner, and these are the lexemes that a scanner takes (`Lexeme.take_eq_ok_iff`).

So a text may be cut ahead of a lexeme and continued in another way, and a scan still finds the same
lexemes ahead of the cut, if only the last of them can stand ahead of what comes now
(`Scan.exists_cutsAt`).
-/

namespace RecordQuery

namespace Lexeme

def symbols : List (List Char × TokenKind × List Char) :=
  [(['['], .openBracket, ['"']), (['='], .operator (.relation .equal), ['=']),
    (['<'], .operator (.relation .less), ['=', '>']),
    (['>'], .operator (.relation .greater), ['=']), ([']'], .closeBracket, []),
    (['('], .openParen, []), ([')'], .closeParen, []), ([','], .comma, []),
    (['=', '='], .operator (.relation .equal), []),
    (['!', '='], .operator (.relation .notEqual), []),
    (['<', '='], .operator (.relation .lessOrEqual), []),
    (['<', '>'], .operator (.relation .notEqual), []),
    (['>', '='], .operator (.relation .greaterOrEqual), [])]

/-- A text at which a word ends: there is nothing, a delimiter, or the operator `!=`. -/
def EndsWord (rest : List Char) : Prop :=
  ∀ c ∈ rest.head?, isDelimiter c = true ∨ c = '!' ∧ rest.tail.head? = some '='

inductive StandsAhead (rest : List Char) : Lexeme → Prop
  | symbol {text : List Char} {kind : TokenKind} (longer : List Char) :
      (text, kind, longer) ∈ symbols → (∀ c ∈ rest.head?, c ∉ longer) →
      StandsAhead rest (.plain kind text)
  | word {text : List Char} :
      text ≠ [] → isUndelimited text = true → EndsWord rest →
      (text.getLast? = some '!' → rest.head? ≠ some '=') →
      StandsAhead rest (.plain (wordKind text) text)
  | quoted (content : List Char) : rest.head? ≠ some '\'' → StandsAhead rest (.quoted content)
  | key {name : List Char} : ¬keyEnd <:+: name → StandsAhead rest (.key name)

theorem ne_cons_iff_head? {cs : List Char} {c : Char} :
    (∀ rest, cs ≠ c :: rest) ↔ cs.head? ≠ some c := by
  cases cs with
  | nil => simp
  | cons d cs => simp [eq_comm]

theorem ne_of_mem_head? {cs : List Char} {c : Char} (h : ∀ rest, cs ≠ c :: rest) :
    ∀ d ∈ cs.head?, d ≠ c := by
  rintro d hd rfl
  exact ne_cons_iff_head?.1 h hd

section Word

theorem endsWord_splitWord (cs : List Char) :
    isUndelimited (splitWord cs).1 = true ∧ EndsWord (splitWord cs).2 := by
  fun_induction splitWord cs with
  | case1 => exact ⟨rfl, by simp [EndsWord]⟩
  | case2 cs => exact ⟨rfl, by simp [EndsWord]⟩
  | case3 c cs _ hc => exact ⟨rfl, by simp [EndsWord, hc]⟩
  | case4 c cs _ hc word rest hsplit ih =>
      rw [hsplit] at ih
      exact ⟨isUndelimited_cons.2 ⟨by simpa using hc, ih.1⟩, ih.2⟩

theorem head?_ne_of_splitWord {c : Char} {cs : List Char}
    (hbang : c = '!' → ∀ rest, cs ≠ '=' :: rest)
    (hlast : (c :: (splitWord cs).1).getLast? = some '!') : (splitWord cs).2.head? ≠ some '=' := by
  fun_induction splitWord cs generalizing c with
  | case1 | case2 => simp
  | case3 d cs _ hd =>
      obtain rfl : c = '!' := by simpa using hlast
      exact ne_cons_iff_head?.1 (hbang rfl)
  | case4 d cs hbang' _ word rest hsplit ih =>
      rw [hsplit] at ih
      exact ih (fun hd more hmore => hbang' more hd hmore)
        (by simpa [List.getLast?_cons] using hlast)

theorem splitWord_of_endsWord {rest : List Char} (h : EndsWord rest) :
    splitWord rest = ([], rest) := by
  cases rest with
  | nil => rfl
  | cons c rest =>
      rcases h c rfl with hc | ⟨rfl, hequals⟩
      · have hbang : c ≠ '!' := by
          rintro rfl
          exact absurd hc (by decide)
        rw [splitWord_cons fun h => absurd h hbang, if_pos hc]
      · rcases List.head?_eq_some_iff.1 hequals with ⟨more, rfl⟩
        rfl

theorem ne_equals_behind {c : Char} {word rest : List Char} (hword : isUndelimited word = true)
    (hlast : (c :: word).getLast? = some '!' → rest.head? ≠ some '=') (hc : c = '!') :
    ∀ more, word ++ rest ≠ '=' :: more := by
  cases word with
  | nil => exact ne_cons_iff_head?.2 (hlast (by rw [hc]; rfl))
  | cons d word =>
      intro more hmore
      obtain rfl : d = '=' := (List.cons.inj hmore).1
      exact ne_equals_of_isUndelimited hword word rfl

theorem splitWord_append_of_endsWord {word rest : List Char} (hword : isUndelimited word = true)
    (hends : EndsWord rest) (hlast : word.getLast? = some '!' → rest.head? ≠ some '=') :
    splitWord (word ++ rest) = (word, rest) := by
  induction word with
  | nil => exact splitWord_of_endsWord hends
  | cons c word ih =>
      rcases isUndelimited_cons.1 hword with ⟨hc, hothers⟩
      have hsplit := ih hothers fun hbang => hlast (by rw [List.getLast?_cons, hbang]; rfl)
      rw [List.cons_append, splitWord_cons (ne_equals_behind hothers hlast), hc, hsplit]
      rfl

end Word

theorem isWhiteSpace_of_not_isDelimiter {c : Char} (h : isDelimiter c = false) :
    Text.isWhiteSpace c = false := by
  simp only [isDelimiter, Bool.or_eq_false_iff] at h
  simp [h]

theorem head?_ne_of_splitQuoted {cs content rest : List Char}
    (h : splitQuoted cs = some (content, rest)) : rest.head? ≠ some '\'' := by
  fun_induction splitQuoted cs generalizing content with
  | case1 => cases h
  | case2 cs ih =>
      rcases Option.map_eq_some_iff.1 h with ⟨⟨c, r⟩, hc, he⟩
      cases he
      exact ih hc
  | case3 cs hne =>
      cases h
      exact ne_cons_iff_head?.1 hne
  | case4 c cs _ _ ih =>
      rcases Option.map_eq_some_iff.1 h with ⟨⟨d, r⟩, hd, he⟩
      cases he
      exact ih hd

theorem standsAhead_of_take {c : Char} {cs rest : List Char} {l : Lexeme}
    (hc : Text.isWhiteSpace c = false) (h : take c cs = .ok (l, rest)) : l.StandsAhead rest := by
  unfold take at h
  split at h
  case h_1 cs =>
    split at h
    · next hsplit =>
        cases h
        exact .quoted _ (head?_ne_of_splitQuoted hsplit)
    · cases h
  case h_2 cs =>
    split at h
    · next hsplit =>
        cases h
        exact .key (not_keyEnd_of_splitKey hsplit)
    · cases h
  case h_16 hquote hopen hclose hparen hparen' hcomma hequal hless hgreater _ _ hbang _ _ _ =>
    cases h
    have hdelimiter : isDelimiter c = false := by
      simp only [isDelimiter, hc, Bool.or_eq_false_iff, beq_eq_false_iff_ne]
      exact ⟨⟨⟨⟨⟨⟨⟨⟨⟨trivial, hquote⟩, hparen⟩, hparen'⟩, hcomma⟩, hopen⟩, hclose⟩, hequal⟩,
        hless⟩, hgreater⟩
    rcases endsWord_splitWord cs with ⟨hword, hends⟩
    exact .word (List.cons_ne_nil _ _) (isUndelimited_cons.2 ⟨hdelimiter, hword⟩) hends
      (head?_ne_of_splitWord fun hc more hmore => hbang more hc hmore)
  case h_3 hne =>
    cases h
    exact .symbol ['"'] (by decide) (by simpa using ne_of_mem_head? hne)
  case h_9 hne | h_15 hne =>
    cases h
    exact .symbol ['='] (by decide) (by simpa using ne_of_mem_head? hne)
  case h_13 hequal hgreater =>
    cases h
    refine .symbol ['=', '>'] (by decide) fun d hd => ?_
    simpa using ⟨ne_of_mem_head? hequal d hd, ne_of_mem_head? hgreater d hd⟩
  all_goals
    cases h
    exact .symbol [] (by decide) fun _ _ => List.not_mem_nil

theorem take_of_standsAhead {c : Char} {cs rest : List Char} {l : Lexeme}
    (h : l.StandsAhead rest) (hsource : l.source ++ rest = c :: cs) :
    take c cs = .ok (l, rest) := by
  cases h with
  | symbol longer hmem hrest =>
      have hne {d : Char} (hd : d ∈ longer) : ∀ more, rest ≠ d :: more := by
        rintro more rfl
        exact hrest d rfl hd
      simp only [symbols, List.mem_cons, List.not_mem_nil, or_false, Prod.mk.injEq] at hmem
      rcases hmem with ⟨rfl, rfl, rfl⟩ | ⟨rfl, rfl, rfl⟩ | ⟨rfl, rfl, rfl⟩ | ⟨rfl, rfl, rfl⟩ | hmem
      · cases hsource
        rw [take]
        · rfl
        · exact hne (d := '"') (by decide)
      · cases hsource
        rw [take]
        · rfl
        · exact hne (d := '=') (by decide)
      · cases hsource
        rw [take]
        · rfl
        · exact hne (d := '=') (by decide)
        · exact hne (d := '>') (by decide)
      · cases hsource
        rw [take]
        · rfl
        · exact hne (d := '=') (by decide)
      · rcases hmem with ⟨rfl, rfl, rfl⟩ | ⟨rfl, rfl, rfl⟩ | ⟨rfl, rfl, rfl⟩ | ⟨rfl, rfl, rfl⟩ |
          ⟨rfl, rfl, rfl⟩ | ⟨rfl, rfl, rfl⟩ | ⟨rfl, rfl, rfl⟩ | ⟨rfl, rfl, rfl⟩ | ⟨rfl, rfl, rfl⟩
        all_goals
          cases hsource
          rfl
  | @word text hne hword hends hlast =>
      rcases List.exists_cons_of_ne_nil hne with ⟨d, word, rfl⟩
      rcases isUndelimited_cons.1 hword with ⟨hd, hothers⟩
      have heq : d :: (word ++ rest) = c :: cs := hsource
      cases heq
      have hsplit : splitWord (word ++ rest) = (word, rest) :=
        splitWord_append_of_endsWord hothers hends fun hbang =>
          hlast (by rw [List.getLast?_cons, hbang]; rfl)
      rw [take_eq_takeWord hd (ne_equals_behind hothers hlast), takeWord, hsplit]
  | quoted content hrest =>
      have heq : '\'' :: (doubleQuotes content ++ '\'' :: rest) = c :: cs := by
        rw [← hsource]
        simp [source]
      cases heq
      rw [take, splitQuoted_doubleQuotes content (ne_cons_iff_head?.2 hrest)]
  | @key name hname =>
      have heq : '[' :: '"' :: (name ++ (keyEnd ++ rest)) = c :: cs := by
        rw [← hsource]
        simp [source, keyEnd]
      cases heq
      rw [take, splitKey_append_keyEnd hname]

/-- What is taken of a text is the lexeme that can stand ahead of the rest. -/
theorem take_eq_ok_iff {c : Char} {cs rest : List Char} {l : Lexeme}
    (hc : Text.isWhiteSpace c = false) :
    take c cs = .ok (l, rest) ↔ l.StandsAhead rest ∧ l.source ++ rest = c :: cs :=
  ⟨fun h => ⟨standsAhead_of_take hc h, source_append_of_take h⟩,
    fun h => take_of_standsAhead h.1 h.2⟩

/-- Of what stands behind a lexeme only the first character matters, except that `!=` counts as
one. -/
theorem StandsAhead.of_head {l : Lexeme} {c : Char} {x y : List Char} (h : l.StandsAhead (c :: x))
    (hbang : c = '!' → x.head? = some '=' → y.head? = some '=') : l.StandsAhead (c :: y) := by
  cases h with
  | symbol longer hmem hrest => exact .symbol longer hmem hrest
  | word hne hword hends hlast =>
      refine .word hne hword ?_ hlast
      rintro _ ⟨⟩
      exact (hends c rfl).imp_right fun ⟨hc, hequals⟩ => ⟨hc, hbang hc hequals⟩
  | quoted content hrest => exact .quoted content hrest
  | key hname => exact .key hname

theorem StandsAhead.of_quote {l : Lexeme} {rest : List Char} (h : l.StandsAhead rest)
    (hl : ∀ content, l ≠ .quoted content) (more : List Char) : l.StandsAhead ('\'' :: more) := by
  cases h with
  | symbol longer hmem _ =>
      have hquote : ∀ row ∈ symbols, '\'' ∉ row.2.2 := by decide
      refine .symbol longer hmem ?_
      rintro _ ⟨⟩
      exact hquote _ hmem
  | word hne hword _ _ =>
      refine .word hne hword ?_ fun _ => by simp
      rintro _ ⟨⟩
      exact .inl (by decide)
  | quoted content _ => exact absurd rfl (hl content)
  | key hname => exact .key hname

end Lexeme

namespace Scan

theorem of_quoted (position : Nat) (content : List Char) {more : List Char}
    (hmore : more.head? ≠ some '\'') :
    of position ((Lexeme.quoted content).source ++ more) =
      cons position (.quoted content) (of (position + (Lexeme.quoted content).width) more) :=
  of_lexeme position (by decide) (Lexeme.take_of_standsAhead (.quoted content hmore) rfl)

/-- A scan finds some lexemes in the front of a text, whatever comes behind that, if the last one
can stand ahead of it. -/
def Finds (position : Nat) (front : List Char) (found : List (Nat × Lexeme)) : Prop :=
  ∀ more, (∀ entry ∈ found.getLast?, entry.2.StandsAhead more) →
    of position (front ++ more) =
      ⟨found ++ (of (position + front.length) more).lexemes,
        (of (position + front.length) more).opened⟩

/-- A lexeme that can stand ahead of a text can stand ahead of its front, whatever comes behind
that. If the front is empty, it is up to what comes behind it. -/
def Ends (cs front : List Char) : Prop :=
  ∀ (l : Lexeme) (more : List Char), l.StandsAhead cs → (front = [] → l.StandsAhead more) →
    l.StandsAhead (front ++ more)

/-- A text is cut ahead of the lexeme `l`, and the lexemes `before` are found in front of the cut,
however the text goes on. -/
structure CutsAt (position : Nat) (cs front behind : List Char) (before : List (Nat × Lexeme))
    (l : Lexeme) : Prop where
  text : cs = front ++ (l.source ++ behind)
  stands : l.StandsAhead behind
  finds : Finds position front before
  ends : Ends cs front
  nil : front = [] → before = []

theorem CutsAt.cons_blank {position : Nat} {c : Char} {cs front behind : List Char}
    {before : List (Nat × Lexeme)} {l : Lexeme} (hc : Text.isWhiteSpace c = true)
    (h : CutsAt (position + 1) cs front behind before l) :
    CutsAt position (c :: cs) (c :: front) behind before l where
  text := congrArg (c :: ·) h.text
  stands := h.stands
  finds := by
    intro more hmore
    rw [List.cons_append, of_blank _ _ hc, h.finds more hmore, List.length_cons, Nat.add_right_comm,
      Nat.add_assoc position]
  ends := by
    intro l' more hl' _
    refine hl'.of_head ?_
    rintro rfl
    exact absurd hc (by decide)
  nil h := absurd h (List.cons_ne_nil _ _)

/-- One more lexeme ahead of a text is ended by it, and it is not cut. -/
theorem CutsAt.cons_lexeme {position : Nat} {c : Char} {cs rest front behind : List Char}
    {before : List (Nat × Lexeme)} {first l : Lexeme} (hc : Text.isWhiteSpace c = false)
    (htake : Lexeme.take c cs = .ok (first, rest))
    (h : CutsAt (position + first.width) rest front behind before l) :
    CutsAt position (c :: cs) (first.source ++ front) behind ((position, first) :: before) l := by
  have hsource := Lexeme.source_append_of_take htake
  rcases List.exists_cons_of_ne_nil (Lexeme.source_ne_nil_of_take htake) with ⟨d, tail, hd⟩
  rw [hd, List.cons_append] at hsource
  rcases List.cons.inj hsource with ⟨rfl, htail⟩
  refine ⟨?_, h.stands, fun more hmore => ?_, fun l' more hl' _ => ?_, fun hnil => ?_⟩
  · rw [List.append_assoc, ← h.text, hd, ← htail, List.cons_append]
  · have hfirst : first.StandsAhead (front ++ more) :=
      h.ends first more (Lexeme.standsAhead_of_take hc htake) fun hfront =>
        hmore (position, first) (by rw [h.nil hfront]; rfl)
    have hbefore : ∀ entry ∈ before.getLast?, entry.2.StandsAhead more := fun entry hentry =>
      hmore entry (by simp [List.getLast?_cons, Option.mem_def.1 hentry])
    have htake' : Lexeme.take d (tail ++ (front ++ more)) = .ok (first, front ++ more) :=
      Lexeme.take_of_standsAhead hfirst (by rw [hd]; rfl)
    rw [hd, List.cons_append, List.cons_append, List.append_assoc, of_lexeme position hc htake',
      h.finds more hbefore, Lexeme.width, hd]
    simp [cons, Nat.add_assoc, Nat.add_comm, Nat.add_left_comm]
  · rw [hd, List.cons_append, List.cons_append, List.append_assoc]
    refine hl'.of_head ?_
    rintro rfl hequals
    cases tail with
    | cons e tail =>
        rw [← htail] at hequals
        exact hequals
    | nil =>
        rcases List.head?_eq_some_iff.1 hequals with ⟨more', rfl⟩
        cases htake
        cases hd
  · rw [hd] at hnil
    cases hnil

theorem exists_cutsAt {position place : Nat} {cs : List Char} {before after : List (Nat × Lexeme)}
    {l : Lexeme} (h : (of position cs).lexemes = before ++ (place, l) :: after) :
    ∃ front behind, CutsAt position cs front behind before l ∧ place = position + front.length ∧
      of (place + l.width) behind = ⟨after, (of position cs).opened⟩ := by
  fun_induction of position cs generalizing before with
  | case1 position => simp [empty] at h
  | case2 position c cs hc ih =>
      rcases ih h with ⟨front, behind, hcut, rfl, hbehind⟩
      refine ⟨c :: front, behind, hcut.cons_blank hc, ?_, hbehind⟩
      rw [List.length_cons]
      omega
  | case3 position c cs hc what htake => simp at h
  | case4 position c cs hc first rest htake ih =>
      have hblank : Text.isWhiteSpace c = false := by simpa using hc
      cases before with
      | nil =>
          cases h
          refine ⟨[], rest, ⟨(Lexeme.source_append_of_take htake).symm,
            Lexeme.standsAhead_of_take hblank htake, fun more _ => rfl, fun _ _ _ hl => hl rfl,
            fun _ => rfl⟩, rfl, rfl⟩
      | cons entry before =>
          rcases List.cons.inj h with ⟨rfl, hlater⟩
          rcases ih hlater with ⟨front, behind, hcut, rfl, hbehind⟩
          refine ⟨first.source ++ front, behind, hcut.cons_lexeme hblank htake, ?_, hbehind⟩
          rw [List.length_append, Lexeme.width, Nat.add_assoc]

end Scan

end RecordQuery
