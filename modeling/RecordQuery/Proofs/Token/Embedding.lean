import RecordQuery.Clause.Printer
import RecordQuery.Proofs.Token.Extent
import RecordQuery.Proofs.Token.Places

/-!
# Strings in texts

Two texts may be put together and are still scanned apart, if nothing is left open in the first one
and its last lexeme can stand ahead of the second (`Scan.of_append_of_meets`). An apostrophe ends
every lexeme but a quoted text. So any string can be written as a literal between two texts, and
stands there as one token, whatever characters it has: none of them leaks into the tokens on either
side (`TokenStream.ofText_embed`). Only an apostrophe on the outside would, since two of them in a
row make one that belongs to the string.
-/

namespace RecordQuery

namespace Lexeme

/-- A lexeme that ends ahead of a text still does when the text is continued. If there is no text,
it is up to what comes. -/
theorem StandsAhead.append {l : Lexeme} {rest more : List Char} (h : l.StandsAhead rest)
    (hmore : rest = [] → l.StandsAhead more) : l.StandsAhead (rest ++ more) := by
  cases rest with
  | nil => exact hmore rfl
  | cons c rest =>
      rw [List.cons_append]
      refine h.of_head fun _ hequals => ?_
      rw [List.head?_append, hequals]
      rfl

end Lexeme

namespace Scan

def Meets (cs more : List Char) : Prop :=
  ∀ l : Lexeme, l.source <:+ cs → l.StandsAhead [] → l.StandsAhead more

/-- A text that ends without an apostrophe can stand ahead of one that begins with it. -/
theorem meets_quote {cs : List Char} (hlast : cs.getLast? ≠ some '\'') (more : List Char) :
    Meets cs ('\'' :: more) := by
  intro l hsource hl
  refine hl.of_quote ?_ more
  rintro content rfl
  rcases hsource with ⟨front, rfl⟩
  rw [Lexeme.source, ← List.append_assoc, List.getLast?_concat] at hlast
  exact hlast rfl

/-- A text in which nothing is left open and one that can stand behind it are scanned apart. -/
theorem of_append_of_meets {position : Nat} {cs more : List Char} (hmeets : Meets cs more)
    (hclosed : (of position cs).opened = none) :
    of position (cs ++ more) = (of position cs).append (of (position + cs.length) more) := by
  refine of_append_of_take (fun c ds l rest hc hsuffix htake => ?_) hclosed
  have hsource : l.source ++ rest = c :: ds := Lexeme.source_append_of_take htake
  have hl : l.StandsAhead rest := Lexeme.standsAhead_of_take hc htake
  have hstands : l.StandsAhead (rest ++ more) := by
    refine hl.append fun hnil => hmeets l ?_ (hnil ▸ hl)
    rw [hnil, List.append_nil] at hsource
    exact hsource ▸ hsuffix
  exact Lexeme.take_of_standsAhead hstands (by rw [← List.append_assoc, hsource, List.cons_append])

theorem of_append_quoted {cs more : List Char} (content : List Char)
    (hclosed : (of 0 cs).opened = none) (hlast : cs.getLast? ≠ some '\'')
    (hmore : more.head? ≠ some '\'') :
    of 0 (cs ++ ((Lexeme.quoted content).source ++ more)) =
      (of 0 cs).append (cons cs.length (.quoted content)
        ((of 0 more).shift (cs.length + (Lexeme.quoted content).width))) := by
  have hmeets : Meets cs ((Lexeme.quoted content).source ++ more) := meets_quote hlast _
  rw [of_append_of_meets hmeets hclosed, Nat.zero_add, of_quoted _ _ hmore,
    of_eq_shift (cs.length + (Lexeme.quoted content).width)]

end Scan

namespace TokenStream

def embed (before s after : String) : String :=
  before ++ (Value.string s).writeLiteral ++ after

/-- A string that is written as a literal between two texts is one token between theirs. The first
text leaves nothing open, and no apostrophe stands next to the literal. -/
theorem ofText_embed (before s after : String) (context : QueryContext)
    (closed : (ofText before context).unterminated = none)
    (hbefore : before.toList.getLast? ≠ some '\'') (hafter : after.toList.head? ≠ some '\'') :
    (ofText (embed before s after) context).tokens =
        (ofText before context).tokens ++ ⟨.string, s, before.length⟩ ::
          (ofText after context).tokens.map
            (Token.shift (before.length + (Value.string s).writeLiteral.length)) ∧
      (∀ what, (ofText (embed before s after) context).leavesOpen what =
        (ofText after context).leavesOpen what) ∧
      ∀ what, (ofText after context).leavesOpen what = true →
        (ofText (embed before s after) context).lastOf what =
          (ofText after context).lastOf what +
            (before.length + (Value.string s).writeLiteral.length) := by
  have hscan := Scan.of_append_quoted s.toList (opened_eq_none_iff.1 closed) hbefore hafter
  have htext : (embed before s after).toList =
      before.toList ++ ((Lexeme.quoted s.toList).source ++ after.toList) := by
    rw [embed, String.toList_append, String.toList_append, List.append_assoc, Value.writeLiteral,
      String.toList_ofList]
  have hlength : (Value.string s).writeLiteral.length = (Lexeme.quoted s.toList).width := by
    rw [Value.writeLiteral, String.length_ofList, Lexeme.width]
  rw [← htext, String.length_toList, ← hlength] at hscan
  refine ⟨?_, fun what => ?_, fun what hopen => ?_⟩
  · rw [ofText, hscan, Scan.tokens_append, Scan.tokens_cons, Scan.tokens_shift, Lexeme.tokens,
      String.ofList_toList]
    rfl
  · rw [leavesOpen_ofText, leavesOpen_ofText, Scan.leavesOpen, hscan, Scan.opened_append,
      Scan.opened_cons, Scan.shift, Option.any_map]
    rfl
  · have hopened : (Scan.of 0 (embed before s after).toList).opened = some (what,
        (ofText after context).lastOf what +
          (before.length + (Value.string s).writeLiteral.length)) := by
      rw [hscan, Scan.opened_append, Scan.opened_cons, Scan.shift,
        opened_eq_of_leavesOpen hopen]
      rfl
    rw [lastOf_ofText, Scan.lastOpening_of_opened hopened]

/-- An apostrophe at its front and the beginning of a key segment are text in a string; the key that
is begun behind the string is not. -/
theorem ofText_embed_open_key :
    embed "name eq" "' or [\"" " and meta[\"b" = "name eq''' or [\"' and meta[\"b" ∧
      (ofText (embed "name eq" "' or [\"" " and meta[\"b") .filter).tokens =
        [⟨.identifier, "name", 0⟩, ⟨.operator (.relation .equal), "eq", 5⟩,
          ⟨.string, "' or [\"", 7⟩, ⟨.and, "and", 18⟩, ⟨.identifier, "meta", 22⟩] ∧
      (ofText (embed "name eq" "' or [\"" " and meta[\"b") .filter).leavesOpen .quote = false ∧
      (ofText (embed "name eq" "' or [\"" " and meta[\"b") .filter).leavesOpen .key = true ∧
      (ofText (embed "name eq" "' or [\"" " and meta[\"b") .filter).lastOf .key = 26 := by
  obtain ⟨htokens, hleaves, hplace⟩ :=
    ofText_embed "name eq" "' or [\"" " and meta[\"b" .filter (by decide +kernel)
      (by decide +kernel) (by decide +kernel)
  have hopen : (ofText " and meta[\"b" .filter).leavesOpen .key = true := by
    decide +kernel
  rw [htokens, hleaves, hleaves, hplace .key hopen]
  decide +kernel

end TokenStream

end RecordQuery
