import RecordQuery.Proofs.Path.RoundTrip
import RecordQuery.Proofs.Token.Openings

/-!
# White space between lexemes

A text that leaves nothing open is scanned apart from what comes behind it, if that begins with
white space, a parenthesis, a comma or a bracket. So the tokens of the two texts are put together,
and those of the second one only stand further on (`TokenStream.isJoin_ofText`).

It follows that outside of quoted texts and key segments it does not matter how much white space
there is and of what kind, and that more of it may be put on either side of a parenthesis or comma.
A scan finds the same lexemes, and the tokens are the same but for their places.
-/

namespace RecordQuery

def IsBlanks (cs : List Char) : Prop :=
  ∀ c ∈ cs, Text.isWhiteSpace c = true

/-- The characters that are always lexemes of their own. -/
def IsSeparator (c : Char) : Prop :=
  c = '(' ∨ c = ')' ∨ c = ','

theorem isBlanks_toList {s : String} (h : Text.isBlank s = true) : IsBlanks s.toList :=
  List.all_eq_true.1 h

namespace Lexeme

/-- What the tokens of a lexeme say does not depend on where it stands. -/
theorem map_content_tokens (l : Lexeme) (position : Nat) :
    (l.tokens position).map Token.content = (l.tokens 0).map Token.content := by
  cases l <;> rfl

theorem breaks_separator {c : Char} (h : IsSeparator c) (cs : List Char) : Breaks (c :: cs) := by
  rcases h with rfl | rfl | rfl <;> exact breaks_cons.2 (by decide)

theorem breaks_blanks {blanks : List Char} (hblanks : IsBlanks blanks) (hne : blanks ≠ [])
    (rest : List Char) : Breaks (blanks ++ rest) := by
  rcases List.exists_cons_of_ne_nil hne with ⟨c, others, rfl⟩
  have hc : Text.isWhiteSpace c = true := hblanks c List.mem_cons_self
  exact breaks_cons.2 (by simp [isBreak, hc])

theorem exists_take_separator {c : Char} (h : IsSeparator c) :
    ∃ kind, ∀ rest, take c rest = .ok (.plain kind [c], rest) := by
  rcases h with rfl | rfl | rfl
  · exact ⟨.openParen, fun _ => rfl⟩
  · exact ⟨.closeParen, fun _ => rfl⟩
  · exact ⟨.comma, fun _ => rfl⟩

end Lexeme

theorem Outside.opened_eq_none {front rest : List Char} (h : Outside rest front) :
    (Scan.of 0 front).opened = none := by
  have hopened := Scan.opened_of_outside 0 h.cut .nothing
  rwa [List.append_nil] at hopened

namespace Scan

def found (s : Scan) : List Lexeme × Option Opening :=
  (s.lexemes.map Prod.snd, s.opened.map Prod.fst)

theorem map_content_tokens (s : Scan) :
    s.tokens.map Token.content =
      s.found.1.flatMap fun l => (l.tokens 0).map Token.content := by
  simp only [tokens, found, List.map_flatMap, List.flatMap_map, Lexeme.map_content_tokens]

theorem found_of (position : Nat) (cs : List Char) : (of position cs).found = (of 0 cs).found := by
  rw [of_eq_shift position]
  simp [found, shift, Function.comp_def]

/-- Behind a text that leaves nothing open the same is found as in a text of its own. -/
theorem found_append {front rest : List Char} (hfront : (of 0 front).opened = none)
    (hrest : Lexeme.Breaks rest) :
    (of 0 (front ++ rest)).found =
      ((of 0 front).found.1 ++ (of 0 rest).found.1, (of 0 rest).found.2) := by
  rw [of_append hrest hfront, ← found_of (0 + front.length) rest]
  simp [found, append]

theorem found_blanks {blanks : List Char} (h : IsBlanks blanks) (rest : List Char) :
    (of 0 (blanks ++ rest)).found = (of 0 rest).found := by
  induction blanks with
  | nil => rfl
  | cons c blanks ih =>
      rcases List.forall_mem_cons.1 h with ⟨hc, hothers⟩
      rw [List.cons_append, of_blank 0 _ hc, found_of, ih hothers]

theorem found_separator_blanks {c : Char} {blanks : List Char} (hc : IsSeparator c)
    (h : IsBlanks blanks) (rest : List Char) :
    (of 0 (c :: (blanks ++ rest))).found = (of 0 (c :: rest)).found := by
  rcases Lexeme.exists_take_separator hc with ⟨kind, htake⟩
  have hvisible : Text.isWhiteSpace c = false := by
    rcases hc with rfl | rfl | rfl <;> decide
  have hfound (cs : List Char) : (of 0 (c :: cs)).found =
      (.plain kind [c] :: (of 0 cs).found.1, (of 0 cs).found.2) := by
    rw [of_lexeme 0 hvisible (htake cs), ← found_of (0 + (Lexeme.plain kind [c]).width) cs]
    rfl
  rw [hfound, hfound, found_blanks h]

variable {front blanks blanks' rest : List Char}

/-- Any white space may stand for other white space outside of quoted texts and key segments. -/
theorem found_replace_blanks (houtside : Outside (blanks ++ rest) front) (h : IsBlanks blanks)
    (h' : IsBlanks blanks') (hne : blanks ≠ []) (hne' : blanks' ≠ []) :
    (of 0 (front ++ (blanks' ++ rest))).found = (of 0 (front ++ (blanks ++ rest))).found := by
  have hclosed := houtside.opened_eq_none
  rw [found_append hclosed (Lexeme.breaks_blanks h hne rest),
    found_append hclosed (Lexeme.breaks_blanks h' hne' rest), found_blanks h, found_blanks h']

/-- White space may be put on either side of a parenthesis or comma outside of quoted texts and key
segments. -/
theorem found_insert_blanks {c : Char} (hc : IsSeparator c) (houtside : Outside (c :: rest) front)
    (h : IsBlanks blanks) (h' : IsBlanks blanks') :
    (of 0 (front ++ (blanks ++ c :: (blanks' ++ rest)))).found =
      (of 0 (front ++ c :: rest)).found := by
  have hclosed := houtside.opened_eq_none
  have hbreaks := Lexeme.breaks_separator hc
  have hinserted : Lexeme.Breaks (blanks ++ c :: (blanks' ++ rest)) := by
    by_cases hne : blanks = []
    · rw [hne]
      exact hbreaks _
    · exact Lexeme.breaks_blanks h hne _
  rw [found_append hclosed hinserted, found_append hclosed (hbreaks rest), found_blanks h,
    found_separator_blanks hc h']

end Scan

namespace TokenStream

/-- A stream is that of two texts, one behind the other. -/
structure IsJoin (s t joined : TokenStream) : Prop where
  tokens_eq : joined.tokens = s.tokens ++ t.tokens.map (Token.shift s.textLength)
  leavesOpen_eq : ∀ what, joined.leavesOpen what = t.leavesOpen what
  lastOf_eq : ∀ what, t.leavesOpen what = true →
    joined.lastOf what = t.lastOf what + s.textLength

/-- Two streams are the same but for places. -/
structure SameButPlaces (s t : TokenStream) : Prop where
  contents : t.tokens.map Token.content = s.tokens.map Token.content
  leavesOpen : ∀ what, t.leavesOpen what = s.leavesOpen what

variable {context : QueryContext}

theorem sameButPlaces_of_found {text text' : String}
    (h : (Scan.of 0 text'.toList).found = (Scan.of 0 text.toList).found) :
    SameButPlaces (ofText text context) (ofText text' context) where
  contents := by
    change (Scan.of 0 text'.toList).tokens.map _ = (Scan.of 0 text.toList).tokens.map _
    rw [Scan.map_content_tokens, Scan.map_content_tokens, h]
  leavesOpen what := by
    have hopened : (Scan.of 0 text'.toList).opened.map Prod.fst =
        (Scan.of 0 text.toList).opened.map Prod.fst :=
      congrArg Prod.snd h
    have hany := congrArg (Option.any fun other => other == what) hopened
    rw [Option.any_map, Option.any_map] at hany
    rw [leavesOpen_ofText, leavesOpen_ofText]
    exact hany

theorem isJoin_ofText {text more : String} (hclosed : (ofText text context).unterminated = none)
    (hmore : Lexeme.Breaks more.toList) :
    IsJoin (ofText text context) (ofText more context) (ofText (text ++ more) context) := by
  have hscan : Scan.of 0 (text ++ more).toList =
      (Scan.of 0 text.toList).append ((Scan.of 0 more.toList).shift text.toList.length) := by
    rw [String.toList_append, Scan.of_append hmore (opened_eq_none_iff.1 hclosed),
      Scan.of_eq_shift (0 + text.toList.length), Nat.zero_add]
  refine ⟨?_, fun what => ?_, fun what hopen => ?_⟩
  · rw [ofText, hscan, Scan.tokens_append, Scan.tokens_shift]
    rfl
  · rw [leavesOpen_ofText, leavesOpen_ofText, Scan.leavesOpen, hscan, Scan.opened_append,
      Scan.shift, Option.any_map]
    rfl
  · have hopened : (Scan.of 0 (text ++ more).toList).opened =
        some (what, (ofText more context).lastOf what + text.toList.length) := by
      rw [hscan, Scan.opened_append, Scan.shift, opened_eq_of_leavesOpen hopen]
      rfl
    rw [lastOf_ofText, Scan.lastOpening_of_opened hopened]
    rfl

/-- Scanning is local. A text that leaves nothing open and one that begins with a break are scanned
apart. Outside of quoted texts and key segments, any white space may stand for other white space,
and it may be put on either side of a parenthesis or comma. -/
theorem ofText_isLocal (context : QueryContext) :
    (∀ text more : String, (ofText text context).unterminated = none →
        Lexeme.Breaks more.toList →
        IsJoin (ofText text context) (ofText more context) (ofText (text ++ more) context)) ∧
      (∀ front blanks blanks' rest : String, Outside (blanks ++ rest).toList front.toList →
        Text.isBlank blanks = true → Text.isBlank blanks' = true → blanks ≠ "" → blanks' ≠ "" →
        SameButPlaces (ofText (front ++ blanks ++ rest) context)
          (ofText (front ++ blanks' ++ rest) context)) ∧
      ∀ (front blanks blanks' rest : String) (c : Char), IsSeparator c →
        Outside (c :: rest.toList) front.toList → Text.isBlank blanks = true →
        Text.isBlank blanks' = true →
        SameButPlaces (ofText (front ++ String.singleton c ++ rest) context)
          (ofText (front ++ blanks ++ String.singleton c ++ blanks' ++ rest) context) := by
  refine ⟨fun text more hclosed hmore => isJoin_ofText hclosed hmore, ?_, ?_⟩
  · intro front blanks blanks' rest houtside h h' hne hne'
    rw [String.toList_append] at houtside
    have hfound := Scan.found_replace_blanks houtside (isBlanks_toList h) (isBlanks_toList h')
      (mt String.toList_eq_nil_iff.1 hne) (mt String.toList_eq_nil_iff.1 hne')
    apply sameButPlaces_of_found
    simpa only [String.toList_append, List.append_assoc] using hfound
  · intro front blanks blanks' rest c hc houtside h h'
    have hfound := Scan.found_insert_blanks hc houtside (isBlanks_toList h) (isBlanks_toList h')
    apply sameButPlaces_of_found
    simpa only [String.toList_append, String.toList_singleton, List.append_assoc,
      List.cons_append, List.nil_append] using hfound

/-- Blanks in a quoted text are a part of it, and those behind it are not. -/
theorem ofText_isLocal_behind_quotes :
    IsJoin (ofText "n='a  b'" .filter) (ofText " or m[\"k" .filter)
        (ofText "n='a  b' or m[\"k" .filter) ∧
      SameButPlaces (ofText "n='a  b' or(x" .filter) (ofText "n='a  b'\t\nor(x" .filter) ∧
      SameButPlaces (ofText "n='a  b' or(x" .filter) (ofText "n='a  b' or ( x" .filter) := by
  obtain ⟨hjoin, hreplace, hinsert⟩ := ofText_isLocal .filter
  have hquoted (front : List Char) {rest : List Char} (h : Outside rest front)
      (hrest : (front ++ rest).head? ≠ some '\'') :
      Outside rest (['n', '='] ++ ((Lexeme.quoted ['a', ' ', ' ', 'b']).source ++ front)) :=
    (h.append_lexeme (.quoted _ hrest)).append_of_forall (by simp)
  have hfirst : Outside (" " ++ "or(x").toList "n='a  b'".toList := by
    have hfront : "n='a  b'".toList =
        ['n', '='] ++ ((Lexeme.quoted ['a', ' ', ' ', 'b']).source ++ []) := by
      decide +kernel
    rw [hfront]
    exact hquoted [] .nil (by decide +kernel)
  have hsecond : Outside ('(' :: "x".toList) "n='a  b' or".toList := by
    have hfront : "n='a  b' or".toList =
        ['n', '='] ++ ((Lexeme.quoted ['a', ' ', ' ', 'b']).source ++ ([' ', 'o', 'r'] ++ [])) := by
      decide +kernel
    rw [hfront]
    exact hquoted _ (Outside.nil.append_of_forall (by simp)) (by decide)
  refine ⟨hjoin "n='a  b'" " or m[\"k" (by decide +kernel) (Lexeme.breaks_space _), ?_, ?_⟩
  · exact hreplace "n='a  b'" " " "\t\n" "or(x" hfirst (by decide +kernel) (by decide +kernel)
      (by decide) (by decide)
  · exact hinsert "n='a  b' or" " " " " "x" '(' (.inl rfl) hsecond (by decide +kernel)
      (by decide +kernel)

end TokenStream

end RecordQuery
