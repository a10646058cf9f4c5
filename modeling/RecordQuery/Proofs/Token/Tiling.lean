import RecordQuery.Proofs.Token.Extent
import RecordQuery.Proofs.Token.Places

/-!
# Lexemes tile the text

Nothing of a text is lost when it is cut into lexemes, and nothing is added. Up to where something
is left open, or else to its end, the text is made of lexemes with white space between them
(`Scan.exists_tiles`). They do not overlap, so each visible character is part of one lexeme
(`Tiles.existsUnique_of_visible`), and each token comes from one
(`Tiles.existsUnique_of_mem_tokens`). `TokenStream.IsLossless` puts that together for the tokens
that the parsers are given.
-/

namespace RecordQuery

def Opening.mark : Opening → List Char
  | .quote => ['\'']
  | .key => ['[', '"']

namespace Lexeme

/-- A plain lexeme is not empty, holds no white space and is no string; the other lexemes are as
their contents say. -/
def IsWritten : Lexeme → Prop
  | .plain kind text => kind ≠ .string ∧ text ≠ [] ∧ ∀ c ∈ text, Text.isWhiteSpace c = false
  | .quoted _ | .key _ => True

theorem StandsAhead.isWritten {l : Lexeme} {rest : List Char} (h : l.StandsAhead rest) :
    l.IsWritten := by
  cases h with
  | symbol longer hmem _ =>
      have hsymbols : ∀ row ∈ symbols, row.2.1 ≠ .string ∧ row.1 ≠ [] ∧
          row.1.all (fun c => !Text.isWhiteSpace c) = true := by
        decide
      rcases hsymbols _ hmem with ⟨hkind, hne, hvisible⟩
      exact ⟨hkind, hne, fun c hc => by simpa using List.all_eq_true.1 hvisible c hc⟩
  | word hne hword _ _ =>
      refine ⟨(wordKind_eq _).1, hne, fun c hc => isWhiteSpace_of_not_isDelimiter ?_⟩
      simpa using List.all_eq_true.1 hword c hc
  | quoted _ _ | key _ => trivial

/-- The tokens that a lexeme at a place is read as. A plain token stands there as it is, and a
quoted text begins there with its apostrophe. A key segment gives its brackets and its name, each at
the place where it stands. -/
inductive ReadsAs (place : Nat) : Lexeme → List Token → Prop
  | plain (kind : TokenKind) (text : List Char) :
      ReadsAs place (.plain kind text) [⟨kind, String.ofList text, place⟩]
  | quoted (content : List Char) :
      ReadsAs place (.quoted content) [⟨.string, String.ofList content, place⟩]
  | key (name : List Char) :
      ReadsAs place (.key name) [⟨.openBracket, "[", place⟩,
        ⟨.string, String.ofList name, place + 2⟩,
        ⟨.closeBracket, "]", place + 3 + name.length⟩]

theorem readsAs_iff {place : Nat} {l : Lexeme} {tokens : List Token} :
    l.ReadsAs place tokens ↔ tokens = l.tokens place := by
  constructor
  · intro h
    cases h <;> rfl
  · rintro rfl
    cases l <;> constructor

theorem IsWritten.width_pos {l : Lexeme} (h : l.IsWritten) : 0 < l.width := by
  cases l with
  | plain kind text => exact List.length_pos_iff.2 h.2.1
  | quoted content => simp [width, source]
  | key name => simp [width, source]

theorem mark_of_take {c : Char} {cs : List Char} {what : Opening} (h : take c cs = .error what) :
    what.mark <+: c :: cs := by
  unfold take at h
  split at h
  case h_1 =>
    split at h <;> cases h
    exact List.prefix_append ['\''] _
  case h_2 =>
    split at h <;> cases h
    exact List.prefix_append ['[', '"'] _
  all_goals cases h

end Lexeme

/-- A text that begins at `position` is made of lexemes, each at the place given with it, and of
white space around them. -/
inductive Tiles : Nat → List Char → List (Nat × Lexeme) → Prop
  | blank {position : Nat} {blanks : List Char} :
      (∀ c ∈ blanks, Text.isWhiteSpace c = true) → Tiles position blanks []
  | lexeme {position : Nat} {blanks rest : List Char} {l : Lexeme}
      {lexemes : List (Nat × Lexeme)} :
      (∀ c ∈ blanks, Text.isWhiteSpace c = true) → l.IsWritten →
      Tiles (position + blanks.length + l.width) rest lexemes →
      Tiles position (blanks ++ (l.source ++ rest)) ((position + blanks.length, l) :: lexemes)

def Covers (entry : Nat × Lexeme) (i : Nat) : Prop :=
  entry.1 ≤ i ∧ i < entry.1 + entry.2.width

namespace Tiles

variable {position : Nat} {cs : List Char} {lexemes : List (Nat × Lexeme)}

theorem cons_blank {c : Char} (hc : Text.isWhiteSpace c = true)
    (h : Tiles (position + 1) cs lexemes) : Tiles position (c :: cs) lexemes := by
  have hplace (blanks : List Char) :
      position + 1 + blanks.length = position + (c :: blanks).length := by
    rw [List.length_cons]
    omega
  cases h with
  | blank hblanks => exact .blank (List.forall_mem_cons.2 ⟨hc, hblanks⟩)
  | lexeme hblanks hwritten hrest =>
      rw [hplace] at hrest ⊢
      exact .lexeme (List.forall_mem_cons.2 ⟨hc, hblanks⟩) hwritten hrest

theorem cons_lexeme {l : Lexeme} (hl : l.IsWritten) (h : Tiles (position + l.width) cs lexemes) :
    Tiles position (l.source ++ cs) ((position, l) :: lexemes) :=
  .lexeme (List.forall_mem_nil _) hl h

theorem source_prefix (h : Tiles position cs lexemes) {entry : Nat × Lexeme}
    (hentry : entry ∈ lexemes) :
    entry.2.IsWritten ∧
      ∃ distance, entry.1 = position + distance ∧ entry.2.source <+: cs.drop distance := by
  induction h with
  | blank _ => cases hentry
  | @lexeme position blanks rest l lexemes hblanks hwritten hrest ih =>
      rcases List.mem_cons.1 hentry with rfl | hentry
      · refine ⟨hwritten, blanks.length, rfl, ?_⟩
        rw [List.drop_left]
        exact List.prefix_append _ _
      · rcases ih hentry with ⟨hwritten', distance, hplace, hprefix⟩
        refine ⟨hwritten', blanks.length + (l.width + distance), by omega, ?_⟩
        rwa [List.drop_length_add_append, Lexeme.width, List.drop_length_add_append]

theorem disjoint (h : Tiles position cs lexemes) :
    lexemes.Pairwise (fun entry other => entry.1 + entry.2.width ≤ other.1) ∧
      ∀ entry ∈ lexemes, position ≤ entry.1 ∧ entry.1 + entry.2.width ≤ position + cs.length := by
  induction h with
  | blank _ => exact ⟨.nil, List.forall_mem_nil _⟩
  | @lexeme position blanks rest l lexemes _ _ _ ih =>
      rcases ih with ⟨hordered, hbounds⟩
      have hlength : (blanks ++ (l.source ++ rest)).length =
          blanks.length + l.width + rest.length := by
        rw [List.length_append, List.length_append, Lexeme.width, Nat.add_assoc]
      rw [hlength]
      refine ⟨List.pairwise_cons.2 ⟨fun other hother => (hbounds other hother).1, hordered⟩,
        List.forall_mem_cons.2 ⟨by dsimp only; omega, fun entry hentry => ?_⟩⟩
      have := hbounds entry hentry
      omega

theorem eq_of_covers (h : Tiles position cs lexemes) {entry other : Nat × Lexeme}
    (hentry : entry ∈ lexemes) (hother : other ∈ lexemes) {i : Nat} (hi : Covers entry i)
    (hi' : Covers other i) : entry = other := by
  by_contra hne
  have hapart : lexemes.Pairwise fun a b => ¬(Covers a i ∧ Covers b i) := by
    refine h.disjoint.1.imp fun {a b} hab => ?_
    rintro ⟨ha, hb⟩
    have := ha.2
    have := hb.1
    omega
  have : Std.Symm fun a b => ¬(Covers a i ∧ Covers b i) := ⟨fun _ _ hab hba => hab hba.symm⟩
  exact hapart.forall hentry hother hne ⟨hi, hi'⟩

theorem existsUnique_of_visible (h : Tiles position cs lexemes) {i : Nat} {c : Char}
    (hi : cs[i]? = some c) (hc : Text.isWhiteSpace c = false) :
    ∃! entry, entry ∈ lexemes ∧ Covers entry (position + i) := by
  have hsome : ∃ entry ∈ lexemes, Covers entry (position + i) := by
    induction h generalizing i with
    | blank hblanks =>
        rw [hblanks c (List.mem_of_getElem? hi)] at hc
        cases hc
    | @lexeme position blanks rest l lexemes hblanks _ _ ih =>
        by_cases hblank : i < blanks.length
        · rw [List.getElem?_append_left hblank] at hi
          rw [hblanks c (List.mem_of_getElem? hi)] at hc
          cases hc
        · by_cases hfirst : i < blanks.length + l.width
          · exact ⟨_, List.mem_cons_self, by simp only []; omega, by simp only []; omega⟩
          · rw [List.getElem?_append_right (by omega),
              List.getElem?_append_right (by rw [← Lexeme.width]; omega), ← Lexeme.width] at hi
            rcases ih hi with ⟨entry, hentry, hcovers⟩
            rw [show position + blanks.length + l.width + (i - blanks.length - l.width) =
              position + i by omega] at hcovers
            exact ⟨entry, List.mem_cons_of_mem _ hentry, hcovers⟩
  rcases hsome with ⟨entry, hentry, hcovers⟩
  exact ⟨entry, ⟨hentry, hcovers⟩,
    fun other hother => h.eq_of_covers hother.1 hentry hother.2 hcovers⟩

theorem existsUnique_of_mem_tokens (h : Tiles position cs lexemes) {token : Token}
    (htoken : token ∈ lexemes.flatMap fun (place, l) => l.tokens place) :
    ∃! entry, entry ∈ lexemes ∧ ∃ part, entry.2.ReadsAs entry.1 part ∧ token ∈ part := by
  have hcovers {entry : Nat × Lexeme} (hentry : entry ∈ lexemes)
      (hmem : ∃ part, entry.2.ReadsAs entry.1 part ∧ token ∈ part) :
      Covers entry token.position := by
    rcases hmem with ⟨part, hpart, hmem⟩
    rw [Lexeme.readsAs_iff.1 hpart] at hmem
    exact (Lexeme.places entry.1
      (List.length_pos_iff.1 (h.source_prefix hentry).1.width_pos)).2 token hmem
  rcases List.mem_flatMap.1 htoken with ⟨entry, hentry, hmem⟩
  have hpart := Lexeme.readsAs_iff.2 (Eq.refl (entry.2.tokens entry.1))
  exact ⟨entry, ⟨hentry, _, hpart, hmem⟩, fun other hother => h.eq_of_covers hother.1 hentry
    (hcovers hother.1 hother.2) (hcovers hentry ⟨_, hpart, hmem⟩)⟩

end Tiles

namespace Scan

/-- The tokens of a scan are those of its lexemes, one lexeme after another. -/
theorem exists_parts (s : Scan) : ∃ parts, s.tokens = parts.flatten ∧
    List.Forall₂ (fun entry part => entry.2.ReadsAs entry.1 part) s.lexemes parts := by
  refine ⟨s.lexemes.map fun entry => entry.2.tokens entry.1, ?_, ?_⟩
  · rw [tokens, List.flatMap_def]
  · rw [List.forall₂_map_right_iff, List.forall₂_same]
    exact fun entry _ => Lexeme.readsAs_iff.2 rfl

theorem exists_tiles (position : Nat) (cs : List Char) :
    ∃ front behind, cs = front ++ behind ∧ Tiles position front (of position cs).lexemes ∧
      ((of position cs).opened = none → behind = []) ∧
      ∀ what place, (of position cs).opened = some (what, place) →
        place = position + front.length ∧ what.mark <+: behind := by
  fun_induction of position cs with
  | case1 position =>
      exact ⟨[], [], rfl, .blank (List.forall_mem_nil _), fun _ => rfl, fun _ _ h => by cases h⟩
  | case2 position c cs hc ih =>
      rcases ih with ⟨front, behind, rfl, tiles, hclosed, hopened⟩
      refine ⟨c :: front, behind, rfl, tiles.cons_blank hc, hclosed, fun what place h => ?_⟩
      rcases hopened what place h with ⟨rfl, hmark⟩
      exact ⟨by rw [List.length_cons]; omega, hmark⟩
  | case3 position c cs hc what htake =>
      refine ⟨[], c :: cs, rfl, .blank (List.forall_mem_nil _), fun h => ?_, fun _ _ h => ?_⟩
      · cases h
      · cases h
        exact ⟨rfl, Lexeme.mark_of_take htake⟩
  | case4 position c cs hc l rest htake ih =>
      rcases ih with ⟨front, behind, rfl, tiles, hclosed, hopened⟩
      have hwritten := (Lexeme.standsAhead_of_take (by simpa using hc) htake).isWritten
      refine ⟨l.source ++ front, behind, ?_, tiles.cons_lexeme hwritten, hclosed,
        fun what place h => ?_⟩
      · rw [← Lexeme.source_append_of_take htake, List.append_assoc]
      · rcases hopened what place h with ⟨rfl, hmark⟩
        exact ⟨by rw [List.length_append, Lexeme.width, Nat.add_assoc], hmark⟩

end Scan

namespace TokenStream

/-- The number of characters ahead of what is left open, or of all characters if nothing is. -/
def scannedLength (s : TokenStream) : Nat :=
  match s.unterminated with
  | none => s.textLength
  | some .quote => s.lastQuote
  | some .key => s.lastKey

/-- The tokens of a stream are those of lexemes that tile its text. -/
structure IsLossless (s : TokenStream) (lexemes : List (Nat × Lexeme)) : Prop where
  scannedLength_le : s.scannedLength ≤ s.textLength
  opens : ∀ what, s.leavesOpen what = true →
    what.mark <+: s.text.toList.drop s.scannedLength
  tiles : Tiles 0 (s.text.toList.take s.scannedLength) lexemes
  verbatim : ∀ entry ∈ lexemes, entry.2.source <+: s.text.toList.drop entry.1
  tokens_eq : ∃ parts, s.tokens = parts.flatten ∧
    List.Forall₂ (fun entry part => entry.2.ReadsAs entry.1 part) lexemes parts
  ordered : s.tokens.Pairwise (·.position < ·.position)
  token_origin : ∀ token ∈ s.tokens,
    ∃! entry, entry ∈ lexemes ∧ ∃ part, entry.2.ReadsAs entry.1 part ∧ token ∈ part
  visible_origin : ∀ i < s.scannedLength, ∀ c, s.text.toList[i]? = some c →
    Text.isWhiteSpace c = false → ∃! entry, entry ∈ lexemes ∧ Covers entry i

theorem scannedLength_ofText (text : String) (context : QueryContext) :
    (ofText text context).scannedLength =
      match (Scan.of 0 text.toList).opened with
      | none => text.toList.length
      | some (_, place) => place := by
  rw [scannedLength, unterminated_ofText]
  cases hopened : (Scan.of 0 text.toList).opened with
  | none => rfl
  | some opening =>
      rcases opening with ⟨what, place⟩
      have hlast := Scan.lastOpening_of_opened hopened
      cases what <;> exact hlast

/-- The text of a query, up to a literal or a key segment that is left open in it, is cut into white
space and lexemes, and all tokens come from these. -/
theorem exists_isLossless_ofText (text : String) (context : QueryContext) :
    ∃ lexemes, (ofText text context).IsLossless lexemes := by
  rcases Scan.exists_tiles 0 text.toList with ⟨front, behind, htext, tiles, hclosed, hopened⟩
  have hlength : (ofText text context).scannedLength = front.length := by
    rw [scannedLength_ofText]
    cases h : (Scan.of 0 text.toList).opened with
    | none => simp [htext, hclosed h]
    | some opening => simpa using (hopened opening.1 opening.2 h).1
  have hfront : text.toList.take (ofText text context).scannedLength = front := by
    rw [hlength, htext, List.take_left]
  refine ⟨(Scan.of 0 text.toList).lexemes, ?_, fun what hwhat => ?_, hfront.symm ▸ tiles,
    fun entry hentry => ?_, Scan.exists_parts _, (Scan.places 0 text.toList).1,
    fun token htoken => tiles.existsUnique_of_mem_tokens htoken, fun i hi c hc hvisible => ?_⟩
  · change _ ≤ text.toList.length
    rw [hlength, htext, List.length_append]
    exact Nat.le_add_right _ _
  · change _ <+: text.toList.drop _
    rw [hlength, htext, List.drop_left]
    exact (hopened what _ (opened_eq_of_leavesOpen hwhat)).2
  · rcases (tiles.source_prefix hentry).2 with ⟨distance, hplace, hprefix⟩
    rw [Nat.zero_add] at hplace
    change _ <+: text.toList.drop _
    rw [hplace, htext, List.drop_append]
    exact hprefix.trans (List.prefix_append _ _)
  · rw [hlength] at hi
    have hfront : (front ++ behind)[i]? = some c := htext ▸ hc
    rw [List.getElem?_append_left hi] at hfront
    simpa using tiles.existsUnique_of_visible hfront hvisible

end TokenStream

end RecordQuery
