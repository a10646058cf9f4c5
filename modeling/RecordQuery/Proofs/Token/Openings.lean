import RecordQuery.Proofs.Token.Embedding
import RecordQuery.Proofs.Token.Tiling

/-!
# What is open at a place

An apostrophe opens a quoted text, and `["` a key segment, but only where nothing else is open: a
bracket in a quoted text is a part of it, and so is an apostrophe in the name of a key. `Outside`
says, without a scanner, at which places of a text nothing is open.

A scan ends at such a place, namely where something is opened and not closed, or at the end of the
text (`Scan.exists_outside`). There is only one place like that (`Outside.unique`), so a stream of
tokens reports something left open exactly if it is, and where it is
(`Scan.opened_eq_some_iff`). What is left open takes no part in the tokens: they are those of the
text ahead of it.
-/

namespace RecordQuery

namespace Opening

/-- What is opened at the front of a text is closed in it. -/
def IsClosedIn (what : Opening) (cs : List Char) : Prop :=
  ∃ (l : Lexeme) (rest : List Char),
    l.opening? = some what ∧ l.StandsAhead rest ∧ cs = l.source ++ rest

/-- What is opened at the front of a text is not closed in it. Behind an apostrophe all others stand
in pairs, and behind the beginning of a key segment its end does not occur. -/
inductive IsLeftOpenIn : Opening → List Char → Prop
  | quote (content : List Char) : IsLeftOpenIn .quote ('\'' :: Lexeme.doubleQuotes content)
  | key {name : List Char} : ¬Lexeme.keyEnd <:+: name → IsLeftOpenIn .key ('[' :: '"' :: name)

/-- What remains of a text at the end of a scan: nothing, or something that is left open. -/
inductive Remains : Option Opening → List Char → Prop
  | nothing : Remains none []
  | opened {what : Opening} {cs : List Char} : what.IsLeftOpenIn cs → Remains (some what) cs

theorem IsLeftOpenIn.mark_prefix {what : Opening} {cs : List Char} (h : what.IsLeftOpenIn cs) :
    what.mark <+: cs := by
  cases h with
  | quote content => exact List.prefix_append ['\''] _
  | key _ => exact List.prefix_append ['[', '"'] _

theorem eq_of_mark_prefix {what : Opening} {c : Char} {cs : List Char}
    (h : what.mark <+: c :: cs) : c = '\'' ∨ c = '[' := by
  cases what with
  | quote => exact .inl (List.cons_prefix_cons.1 h).1.symm
  | key => exact .inr (List.cons_prefix_cons.1 h).1.symm

theorem Remains.head?_ne {what : Option Opening} {cs : List Char} (h : Remains what cs) :
    cs.head? ≠ some '=' := by
  cases h with
  | nothing => simp
  | opened hopen => cases hopen <;> simp

end Opening

namespace Lexeme

/-- A quoted text is left open if behind its opening apostrophe all others stand in pairs. -/
theorem splitQuoted_eq_none_iff {cs : List Char} :
    splitQuoted cs = none ↔ ∃ content, cs = doubleQuotes content := by
  constructor
  · intro h
    fun_induction splitQuoted cs with
    | case1 => exact ⟨[], rfl⟩
    | case2 cs ih =>
        rcases ih (Option.map_eq_none_iff.1 h) with ⟨content, rfl⟩
        exact ⟨'\'' :: content, by simp [doubleQuotes]⟩
    | case3 cs _ => cases h
    | case4 c cs _ hne ih =>
        rcases ih (Option.map_eq_none_iff.1 h) with ⟨content, rfl⟩
        have hc : c ≠ '\'' := fun hc => hne hc
        exact ⟨c :: content, by simp [doubleQuotes, hc]⟩
  · rintro ⟨content, rfl⟩
    induction content with
    | nil => rfl
    | cons c content ih =>
        by_cases hc : c = '\''
        · simp [doubleQuotes, hc, splitQuoted, ih]
        · rw [doubleQuotes, if_neg hc, splitQuoted, ih]
          · rfl
          · exact fun _ h _ => hc h
          · exact hc

theorem splitKey_eq_none_iff {cs : List Char} : splitKey cs = none ↔ ¬keyEnd <:+: cs := by
  constructor
  · intro h
    fun_induction splitKey cs with
    | case1 => simp [keyEnd]
    | case2 cs => cases h
    | case3 c cs hne ih =>
        intro hpart
        rcases List.infix_cons_iff.1 hpart with ⟨tail, htail⟩ | hpart
        · rcases List.cons.inj htail with ⟨rfl, rfl⟩
          exact hne _ rfl rfl
        · exact ih (Option.map_eq_none_iff.1 h) hpart
  · intro h
    cases hsplit : splitKey cs with
    | none => rfl
    | some found =>
        rcases found with ⟨name, rest⟩
        have htext : name ++ keyEnd ++ rest = cs := by
          rw [← append_of_splitKey hsplit, List.append_assoc]
          rfl
        exact absurd ⟨name, rest, htext⟩ h

theorem take_eq_error_iff {c : Char} {cs : List Char} {what : Opening} :
    take c cs = .error what ↔ what.IsLeftOpenIn (c :: cs) := by
  constructor
  · intro h
    unfold take at h
    split at h
    case h_1 =>
      split at h
      · cases h
      · next hsplit =>
          cases h
          rcases splitQuoted_eq_none_iff.1 hsplit with ⟨content, rfl⟩
          exact .quote content
    case h_2 =>
      split at h
      · cases h
      · next hsplit =>
          cases h
          exact .key (splitKey_eq_none_iff.1 hsplit)
    all_goals cases h
  · intro h
    cases h with
    | quote content => rw [take, splitQuoted_eq_none_iff.2 ⟨content, rfl⟩]
    | key hname => exact take_open_key (splitKey_eq_none_iff.2 hname)

theorem mark_prefix_source {l : Lexeme} {what : Opening} (h : l.opening? = some what)
    (rest : List Char) : what.mark <+: l.source ++ rest := by
  cases l with
  | plain kind text => cases h
  | quoted content =>
      cases h
      exact List.prefix_append ['\''] _
  | key name =>
      cases h
      exact List.prefix_append ['[', '"'] _

theorem opening?_eq_of_mark {l : Lexeme} {what other : Opening} {rest : List Char}
    (h : l.opening? = some what) (hmark : other.mark <+: l.source ++ rest) : what = other := by
  cases l with
  | plain kind text => cases h
  | quoted content =>
      cases h
      cases other with
      | quote => rfl
      | key =>
          have heq := (List.cons_prefix_cons.1 hmark).1
          exact absurd heq (by decide)
  | key name =>
      cases h
      cases other with
      | quote =>
          have heq := (List.cons_prefix_cons.1 hmark).1
          exact absurd heq (by decide)
      | key => rfl

/-- A lexeme that ends ahead of a text still does when the text is cut, unless this cuts `!=`. -/
theorem StandsAhead.of_append {l : Lexeme} {front rest : List Char}
    (h : l.StandsAhead (front ++ rest)) (hrest : rest.head? ≠ some '=') : l.StandsAhead front := by
  cases front with
  | nil =>
      cases h with
      | symbol longer hmem _ => exact .symbol longer hmem (by simp)
      | word hne hword _ _ => exact .word hne hword (by simp [EndsWord]) (by simp)
      | quoted content _ => exact .quoted content (by simp)
      | key hname => exact .key hname
  | cons c front =>
      refine h.of_head fun _ hequals => ?_
      cases front with
      | nil => exact absurd hequals hrest
      | cons d front => exact hequals

/-- Where a quoted text or a key segment ends does not depend on the text further on. -/
theorem StandsAhead.of_opening {l : Lexeme} {what : Opening} {front rest : List Char}
    (h : l.StandsAhead (front ++ rest)) (hl : l.opening? = some what) : l.StandsAhead front := by
  cases h with
  | symbol _ _ _ => cases hl
  | word _ _ _ _ => cases hl
  | quoted content hrest =>
      refine .quoted content fun hquote => hrest ?_
      rw [List.head?_append, hquote]
      rfl
  | key hname => exact .key hname

end Lexeme

/-- Behind `front`, which stands ahead of `rest`, nothing is open. There are only quoted texts and
key segments in it that are closed, and characters that open neither. -/
inductive Outside (rest : List Char) : List Char → Prop
  | nil : Outside rest []
  | plain {c : Char} {front : List Char} :
      (∀ what : Opening, ¬what.mark <+: c :: (front ++ rest)) → Outside rest front →
      Outside rest (c :: front)
  | closed {l : Lexeme} {what : Opening} {front : List Char} :
      l.opening? = some what → l.StandsAhead (front ++ rest) → Outside rest front →
      Outside rest (l.source ++ front)

namespace Scan

/-- A lexeme that can stand ahead of a text is the first one of its scan. -/
theorem of_source_append (position : Nat) {l : Lexeme} {rest : List Char}
    (h : l.StandsAhead rest) :
    of position (l.source ++ rest) = cons position l (of (position + l.width) rest) := by
  have hfirst : ∃ c cs, l.source = c :: cs ∧ Text.isWhiteSpace c = false := by
    cases l with
    | plain kind text =>
        rcases h.isWritten with ⟨-, hne, hvisible⟩
        rcases List.exists_cons_of_ne_nil hne with ⟨c, cs, rfl⟩
        exact ⟨c, cs, rfl, hvisible c List.mem_cons_self⟩
    | quoted content => exact ⟨'\'', _, rfl, by decide⟩
    | key name => exact ⟨'[', _, rfl, by decide⟩
  rcases hfirst with ⟨c, cs, hsource, hc⟩
  rw [hsource, List.cons_append]
  exact of_lexeme position hc (Lexeme.take_of_standsAhead h (by rw [hsource]; rfl))

theorem of_isLeftOpenIn (position : Nat) {what : Opening} {cs : List Char}
    (h : what.IsLeftOpenIn cs) : of position cs = ⟨[], some (what, position)⟩ := by
  have hfirst : ∃ c ds, cs = c :: ds ∧ Text.isWhiteSpace c = false := by
    cases h with
    | quote content => exact ⟨'\'', _, rfl, by decide⟩
    | key _ => exact ⟨'[', _, rfl, by decide⟩
  rcases hfirst with ⟨c, ds, rfl, hc⟩
  exact of_opened position hc (Lexeme.take_eq_error_iff.2 h)

end Scan

namespace Lexeme

theorem StandsAhead.unique {l l' : Lexeme} {rest rest' : List Char} (h : l.StandsAhead rest)
    (h' : l'.StandsAhead rest') (heq : l.source ++ rest = l'.source ++ rest') :
    l = l' ∧ rest = rest' := by
  have hscan := Scan.of_source_append 0 h
  rw [heq, Scan.of_source_append 0 h'] at hscan
  have hentry : (0, l') = (0, l) := (List.cons.inj (congrArg Scan.lexemes hscan)).1
  cases hentry
  exact ⟨rfl, List.append_cancel_left heq⟩

theorem StandsAhead.not_isLeftOpenIn {l : Lexeme} {rest : List Char} (h : l.StandsAhead rest)
    (what : Opening) : ¬what.IsLeftOpenIn (l.source ++ rest) := by
  intro hopen
  have hscan := Scan.of_source_append 0 h
  rw [Scan.of_isLeftOpenIn 0 hopen] at hscan
  cases congrArg Scan.lexemes hscan

end Lexeme

namespace Outside

variable {front rest : List Char}

theorem cons_of_ne {c : Char} (hquote : c ≠ '\'') (hbracket : c ≠ '[') (h : Outside rest front) :
    Outside rest (c :: front) :=
  .plain (fun _ hmark => (Opening.eq_of_mark_prefix hmark).elim hquote hbracket) h

theorem cons_bracket (hquote : (front ++ rest).head? ≠ some '"') (h : Outside rest front) :
    Outside rest ('[' :: front) := by
  refine .plain (fun what hmark => ?_) h
  cases what with
  | quote => exact absurd (List.cons_prefix_cons.1 hmark).1 (by decide)
  | key =>
      rcases (List.cons_prefix_cons.1 hmark).2 with ⟨more, hmore⟩
      exact hquote (by rw [← hmore]; rfl)

theorem append_of_forall {text : List Char} (htext : ∀ c ∈ text, c ≠ '\'' ∧ c ≠ '[')
    (h : Outside rest front) : Outside rest (text ++ front) := by
  induction text with
  | nil => exact h
  | cons c text ih =>
      rcases List.forall_mem_cons.1 htext with ⟨hc, hothers⟩
      exact .cons_of_ne hc.1 hc.2 (ih hothers)

/-- Lexemes that are neither quoted texts nor key segments open nothing. -/
theorem append_plain {kind : TokenKind} {text : List Char}
    (hl : (Lexeme.plain kind text).StandsAhead (front ++ rest)) (h : Outside rest front) :
    Outside rest (text ++ front) := by
  cases hl with
  | symbol longer hmem hrest =>
      have hsymbols : ∀ row ∈ Lexeme.symbols, (row.1 = ['['] ∧ '"' ∈ row.2.2) ∨
          row.1.all (fun c => c != '\'' && c != '[') = true := by
        decide
      rcases hsymbols _ hmem with ⟨htext, hlonger⟩ | htext
      · obtain rfl : text = ['['] := htext
        exact h.cons_bracket fun hquote => hrest '"' hquote hlonger
      · exact h.append_of_forall fun c hc => by simpa using List.all_eq_true.1 htext c hc
  | word _ hword _ _ =>
      refine h.append_of_forall fun c hc => ?_
      have hdelimiter : Lexeme.isDelimiter c = false := by
        simpa using List.all_eq_true.1 hword c hc
      constructor
      · rintro rfl
        exact absurd hdelimiter (by decide)
      · rintro rfl
        exact absurd hdelimiter (by decide)

theorem append_lexeme {l : Lexeme} (hl : l.StandsAhead (front ++ rest)) (h : Outside rest front) :
    Outside rest (l.source ++ front) := by
  cases l with
  | plain kind text => exact h.append_plain hl
  | quoted content => exact .closed (rfl : _ = some Opening.quote) hl h
  | key name => exact .closed (rfl : _ = some Opening.key) hl h

/-- If nothing is open at a place, and nothing is opened and left open from there to another one,
then nothing is open there either. -/
theorem append {middle : List Char} (h : Outside (middle ++ rest) front)
    (h' : Outside rest middle) : Outside rest (front ++ middle) := by
  induction h with
  | nil => exact h'
  | plain hmark _ ih =>
      rw [← List.append_assoc] at hmark
      exact .plain hmark ih
  | closed hl hstands _ ih =>
      rw [List.append_assoc]
      refine .closed hl ?_ ih
      rwa [List.append_assoc]

theorem cut (h : Outside rest front) : Outside [] front := by
  induction h with
  | nil => exact .nil
  | @plain c front hmark _ ih =>
      refine .plain (fun what hwhat => hmark what ?_) ih
      rw [List.append_nil] at hwhat
      exact hwhat.trans (List.prefix_append (c :: front) rest)
  | closed hl hstands _ ih =>
      refine .closed hl ?_ ih
      rw [List.append_nil]
      exact hstands.of_opening hl

end Outside

namespace Opening

variable {what : Option Opening}

theorem Remains.scan_opened {cs : List Char} (h : Remains what cs) (position : Nat) :
    (Scan.of position cs).opened = what.map fun what => (what, position) := by
  cases h with
  | nothing => rw [Scan.of_nil, Scan.opened_empty, Option.map_none]
  | opened hopen => rw [Scan.of_isLeftOpenIn position hopen, Option.map_some]

theorem Remains.unique {what' : Option Opening} {cs : List Char} (h : Remains what cs)
    (h' : Remains what' cs) : what = what' := by
  have hscan := (h.scan_opened 0).symm.trans (h'.scan_opened 0)
  exact Option.map_injective (fun _ _ heq => congrArg Prod.fst heq) hscan

/-- Nothing that is closed or opens nothing stands at the front of what remains. -/
theorem Remains.eq_nil {front rest : List Char} (h : Remains what (front ++ rest))
    (hfront : Outside rest front) : front = [] := by
  cases hfront with
  | nil => rfl
  | plain hmark _ =>
      cases h with
      | opened hopen => exact absurd hopen.mark_prefix (hmark _)
  | @closed l _ front _ hstands _ =>
      rw [List.append_assoc] at h
      generalize htext : l.source ++ (front ++ rest) = text at h
      cases h with
      | nothing =>
          have hscan := Scan.of_source_append 0 hstands
          rw [htext, Scan.of_nil] at hscan
          cases congrArg Scan.lexemes hscan
      | opened hopen => exact absurd (htext ▸ hopen) (hstands.not_isLeftOpenIn _)

end Opening

/-- There is only one place outside at which a text ends or something is left open. -/
theorem Outside.unique {front rest front' rest' : List Char} {what what' : Option Opening}
    (h : Outside rest front) (hrest : Opening.Remains what rest) (h' : Outside rest' front')
    (hrest' : Opening.Remains what' rest') (heq : front ++ rest = front' ++ rest') :
    front = front' := by
  -- the two go on in the same way, and neither can end where the other goes on
  induction h generalizing front' with
  | nil =>
      rw [List.nil_append] at heq
      exact ((heq ▸ hrest).eq_nil h').symm
  | @plain c front hmark hfront ih =>
      cases h' with
      | nil =>
          rw [List.nil_append] at heq
          exact (heq.symm ▸ hrest').eq_nil (.plain hmark hfront)
      | plain _ h' =>
          rcases List.cons.inj heq with ⟨rfl, hothers⟩
          rw [ih h' hothers]
      | @closed l _ front' hl _ _ =>
          refine absurd (Lexeme.mark_prefix_source hl (front' ++ rest')) ?_
          rw [← List.append_assoc, ← heq]
          exact hmark _
  | @closed l what front hl hstands hfront ih =>
      cases h' with
      | nil =>
          rw [List.nil_append] at heq
          exact (heq.symm ▸ hrest').eq_nil (.closed hl hstands hfront)
      | @plain c front' hmark _ =>
          refine absurd (Lexeme.mark_prefix_source hl (front ++ rest)) ?_
          rw [← List.append_assoc, heq]
          exact hmark _
      | closed _ hstands' h' =>
          rw [List.append_assoc, List.append_assoc] at heq
          rcases hstands.unique hstands' heq with ⟨rfl, hothers⟩
          rw [ih h' hothers]

namespace Scan

/-- A scan ends outside, and the text up to there is scanned the same and leaves nothing open. -/
theorem exists_outside (position : Nat) (cs : List Char) :
    ∃ front behind what, cs = front ++ behind ∧ Outside behind front ∧
      Opening.Remains what behind ∧ of position front = ⟨(of position cs).lexemes, none⟩ ∧
      (of position cs).opened = what.map fun what => (what, position + front.length) := by
  fun_induction of position cs with
  | case1 position => exact ⟨[], [], none, rfl, .nil, .nothing, of_nil position, rfl⟩
  | case2 position c cs hc ih =>
      rcases ih with ⟨front, behind, what, rfl, houtside, hremains, hcut, hopened⟩
      have hquote : c ≠ '\'' := by
        rintro rfl
        exact absurd hc (by decide)
      have hbracket : c ≠ '[' := by
        rintro rfl
        exact absurd hc (by decide)
      refine ⟨c :: front, behind, what, rfl, houtside.cons_of_ne hquote hbracket, hremains, ?_, ?_⟩
      · rw [of_blank position front hc, hcut]
      · rw [hopened, List.length_cons, Nat.add_right_comm, Nat.add_assoc]
  | case3 position c cs hc what htake =>
      exact ⟨[], c :: cs, some what, rfl, .nil, .opened (Lexeme.take_eq_error_iff.1 htake),
        of_nil position, rfl⟩
  | case4 position c cs hc l rest htake ih =>
      rcases ih with ⟨front, behind, what, rfl, houtside, hremains, hcut, hopened⟩
      have hstands : l.StandsAhead (front ++ behind) :=
        Lexeme.standsAhead_of_take (by simpa using hc) htake
      refine ⟨l.source ++ front, behind, what, ?_, houtside.append_lexeme hstands, hremains, ?_, ?_⟩
      · rw [List.append_assoc, Lexeme.source_append_of_take htake]
      · rw [of_source_append position (hstands.of_append hremains.head?_ne), hcut]
        rfl
      · rw [opened_cons, hopened, List.length_append, Lexeme.width, Nat.add_assoc]

theorem opened_of_outside (position : Nat) {front behind : List Char} {what : Option Opening}
    (h : Outside behind front) (hbehind : Opening.Remains what behind) :
    (of position (front ++ behind)).opened =
      what.map fun what => (what, position + front.length) := by
  rcases exists_outside position (front ++ behind) with
    ⟨front', behind', what', heq, h', hbehind', -, hopened⟩
  obtain rfl : front = front' := h.unique hbehind h' hbehind' heq
  obtain rfl : behind = behind' := List.append_cancel_left heq
  rw [hopened, hbehind.unique hbehind']

end Scan

/-- Nothing is open at the place in the text. -/
def OutsideAt (cs : List Char) (place : Nat) : Prop :=
  Outside (cs.drop place) (cs.take place)

namespace Scan

variable {cs : List Char} {what : Opening} {place : Nat}

/-- What a scan finds left open is opened outside and left open, and nothing else is. -/
theorem opened_eq_some_iff :
    (of 0 cs).opened = some (what, place) ↔
      OutsideAt cs place ∧ what.IsLeftOpenIn (cs.drop place) := by
  constructor
  · intro h
    rcases exists_outside 0 cs with ⟨front, behind, what', rfl, houtside, hremains, -, hopened⟩
    rw [h] at hopened
    cases hremains with
    | nothing => cases hopened
    | opened hopen =>
        cases hopened
        rw [OutsideAt, Nat.zero_add, List.drop_left, List.take_left]
        exact ⟨houtside, hopen⟩
  · rintro ⟨houtside, hopen⟩
    have hplace : place < cs.length := by
      by_contra hle
      rw [List.drop_eq_nil_of_le (Nat.le_of_not_lt hle)] at hopen
      cases hopen
    have hopened := opened_of_outside 0 houtside (.opened hopen)
    rwa [List.take_append_drop, List.length_take_of_le (Nat.le_of_lt hplace), Nat.zero_add]
      at hopened

/-- The text ahead of what is left open has the same lexemes, and leaves nothing open. -/
theorem of_take_of_opened (h : (of 0 cs).opened = some (what, place)) :
    of 0 (cs.take place) = ⟨(of 0 cs).lexemes, none⟩ := by
  rcases exists_outside 0 cs with ⟨front, behind, what', htext, -, -, hcut, hopened⟩
  rw [h] at hopened
  cases what' with
  | none => cases hopened
  | some what' =>
      cases hopened
      rw [← hcut, htext, Nat.zero_add, List.take_left]

/-- If a scan finds nothing left open, whatever is opened outside is closed. -/
theorem isClosedIn_of_outsideAt (hclosed : (of 0 cs).opened = none) (h : OutsideAt cs place)
    (hmark : what.mark <+: cs.drop place) : what.IsClosedIn (cs.drop place) := by
  rcases exists_outside 0 (cs.drop place) with ⟨middle, behind, left, htext, hmiddle, hbehind, -, -⟩
  rw [OutsideAt, htext] at h
  rw [htext] at hmark ⊢
  have hopened := opened_of_outside 0 (h.append hmiddle) hbehind
  rw [List.append_assoc, ← htext, List.take_append_drop, hclosed] at hopened
  cases hbehind with
  | opened _ => cases hopened
  | nothing =>
      cases hmiddle with
      | nil => cases what <;> simp [Opening.mark] at hmark
      | plain hplain _ => exact absurd hmark (hplain what)
      | @closed l other middle hl hstands _ =>
          rw [List.append_assoc] at hmark ⊢
          obtain rfl : other = what := Lexeme.opening?_eq_of_mark hl hmark
          exact ⟨l, middle ++ [], hl, hstands, rfl⟩

end Scan

namespace TokenStream

def cutAt (s : TokenStream) (place : Nat) : TokenStream :=
  ofText (String.ofList (s.text.toList.take place)) s.context

/-- What a stream reports as left open is exactly what is. It is one thing at most, and the tokens
are those of the text ahead of it. If nothing is reported, everything that is opened outside of
other things is closed. -/
structure ReportsOpenings (s : TokenStream) : Prop where
  atMostOne : ¬(s.hasUnterminatedLiteral = true ∧ s.hasUnterminatedKeyName = true)
  leftOpen_iff : ∀ what place, (s.leavesOpen what = true ∧ s.lastOf what = place) ↔
    OutsideAt s.text.toList place ∧ what.IsLeftOpenIn (s.text.toList.drop place)
  cut : ∀ what, s.leavesOpen what = true →
    (s.cutAt (s.lastOf what)).tokens = s.tokens ∧
      (s.cutAt (s.lastOf what)).unterminated = none
  closed : s.unterminated = none → ∀ (what : Opening) (place : Nat),
    OutsideAt s.text.toList place → what.mark <+: s.text.toList.drop place →
      what.IsClosedIn (s.text.toList.drop place)

theorem leavesOpen_iff {text : String} {context : QueryContext} {what : Opening} {place : Nat} :
    ((ofText text context).leavesOpen what = true ∧
        (ofText text context).lastOf what = place) ↔
      (Scan.of 0 text.toList).opened = some (what, place) := by
  constructor
  · rintro ⟨hopen, rfl⟩
    exact opened_eq_of_leavesOpen hopen
  · intro hopened
    rw [leavesOpen_ofText, lastOf_ofText]
    exact ⟨Scan.leavesOpen_iff.2 ⟨place, hopened⟩, Scan.lastOpening_of_opened hopened⟩

/-- A stream reports what its text leaves open, and nothing else. -/
theorem reportsOpenings_ofText (text : String) (context : QueryContext) :
    (ofText text context).ReportsOpenings where
  atMostOne := by
    rintro ⟨hquote, hkey⟩
    rcases Scan.leavesOpen_iff.1 hquote with ⟨place, hopened⟩
    rcases Scan.leavesOpen_iff.1 hkey with ⟨place', hopened'⟩
    cases hopened.symm.trans hopened'
  leftOpen_iff what place := leavesOpen_iff.trans Scan.opened_eq_some_iff
  cut what hopen := by
    have hcut := Scan.of_take_of_opened (opened_eq_of_leavesOpen hopen)
    rw [← String.toList_ofList (l := List.take _ _)] at hcut
    have htokens := congrArg Scan.tokens hcut
    have hopened := congrArg Scan.opened hcut
    exact ⟨htokens, opened_eq_none_iff.2 hopened⟩
  closed hclosed what place :=
    Scan.isClosedIn_of_outsideAt (opened_eq_none_iff.1 hclosed)

/-- The bracket in the quoted text opens nothing, and the apostrophe in the key does not either. -/
theorem reportsOpenings_ofText_apostrophe_in_key :
    (ofText "a eq '[\"' and m[\"it's" .filter).leavesOpen .key = true ∧
      OutsideAt "a eq '[\"' and m[\"it's".toList 15 ∧
      Opening.key.IsLeftOpenIn ("a eq '[\"' and m[\"it's".toList.drop 15) ∧
      (ofText "a eq '[\"' and m" .filter).tokens =
        (ofText "a eq '[\"' and m[\"it's" .filter).tokens ∧
      (ofText "a eq '[\"' and m" .filter).unterminated = none ∧
      Opening.quote.IsClosedIn ("a eq '[\"' and m".toList.drop 5) := by
  have hopen : (ofText "a eq '[\"' and m[\"it's" .filter).leavesOpen .key = true := by
    decide +kernel
  have hplace : (ofText "a eq '[\"' and m[\"it's" .filter).lastOf .key = 15 := by
    decide +kernel
  have hreports := reportsOpenings_ofText "a eq '[\"' and m[\"it's" .filter
  rcases (hreports.leftOpen_iff .key 15).1 ⟨hopen, hplace⟩ with ⟨houtside, hleft⟩
  rcases hreports.cut .key hopen with ⟨htokens, hclosed⟩
  rw [hplace] at htokens hclosed
  have hquote : OutsideAt "a eq '[\"' and m".toList 5 := by
    have hfront : "a eq '[\"' and m".toList.take 5 = ['a', ' ', 'e', 'q', ' '] ++ [] := by
      decide +kernel
    rw [OutsideAt, hfront]
    exact Outside.nil.append_of_forall (by simp)
  have hcut := (reportsOpenings_ofText "a eq '[\"' and m" .filter).closed hclosed .quote 5 hquote
    ⟨"[\"' and m".toList, by decide +kernel⟩
  exact ⟨hopen, houtside, hleft, htokens, hclosed, hcut⟩

end TokenStream

end RecordQuery
