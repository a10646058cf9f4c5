import RecordQuery.Order.Reader
import RecordQuery.Proofs.Grammar.Reader
import RecordQuery.Proofs.Reading.Decision

/-!
# The grammar of orders

Which tokens stand for which order, said without a reader:

    order := column direction? ("," column direction?)*

There is one relation for a key and one for keys with commas between them. A direction is a name
that stands behind a column, so a name is read by where it stands, and not by what it says: the
rules tell a column called `asc` from the direction. An order is read exactly where these relations
derive it (`SortKey.readTokens_eq_ok_iff`).

A comma always stands between two orders of their own (`Grammar.DerivesSortKeys.split`), which is
why no order begins or ends with one, or has two of them in a row.
-/

namespace RecordQuery

namespace Direction

def words : Direction → List String
  | .ascending => ["asc", "ascending"]
  | .descending => ["desc", "descending"]

theorem ofWord?_eq_some_iff {word : String} {direction : Direction} :
    ofWord? word = some direction ↔ Text.lower word ∈ direction.words := by
  rw [ofWord?]
  cases direction <;> split <;> simp_all [words]

end Direction

namespace Grammar

inductive DerivesSortKey (catalog : Catalog) : List Token → SortKey → Prop
  | plain {name : Token} {column : Column} :
      name.kind = .identifier → catalog.resolve name.text = some column →
      DerivesSortKey catalog [name] ⟨column, .ascending⟩
  | directed {name word : Token} {column : Column} {direction : Direction} :
      name.kind = .identifier → catalog.resolve name.text = some column →
      word.kind = .identifier → Text.lower word.text ∈ direction.words →
      DerivesSortKey catalog [name, word] ⟨column, direction⟩

inductive DerivesSortKeys (catalog : Catalog) : List Token → List SortKey → Prop
  | last {tokens : List Token} {key : SortKey} :
      DerivesSortKey catalog tokens key → DerivesSortKeys catalog tokens [key]
  | cons {tokens rest : List Token} {comma : Token} {key : SortKey} {keys : List SortKey} :
      DerivesSortKey catalog tokens key → comma.kind = .comma →
      DerivesSortKeys catalog rest keys →
      DerivesSortKeys catalog (tokens ++ comma :: rest) (key :: keys)

/-- The tokens of an order: none for the order without keys, and else those of its keys. -/
def DerivesOrder (catalog : Catalog) (tokens : List Token) (keys : List SortKey) : Prop :=
  tokens = [] ∧ keys = [] ∨ DerivesSortKeys catalog tokens keys

/-- Tokens with one in a place where no order has such a token: a comma with no column ahead of it
or behind it, a name behind a direction, or a token that is neither a name nor a comma. -/
inductive Misplaced : List Token → Prop
  | leading {comma : Token} (rest : List Token) :
      comma.kind = .comma → Misplaced (comma :: rest)
  | trailing (front : List Token) {comma : Token} :
      comma.kind = .comma → Misplaced (front ++ [comma])
  | doubled (front : List Token) {first second : Token} (rest : List Token) :
      first.kind = .comma → second.kind = .comma → Misplaced (front ++ first :: second :: rest)
  | directedTwice (front : List Token) {name first second : Token} (rest : List Token) :
      name.kind = .identifier → first.kind = .identifier → second.kind = .identifier →
      Misplaced (front ++ name :: first :: second :: rest)
  | foreign {tokens : List Token} {token : Token} :
      token ∈ tokens → token.kind ≠ .identifier → token.kind ≠ .comma → Misplaced tokens

variable {catalog : Catalog} {tokens : List Token} {key : SortKey} {keys : List SortKey}

theorem DerivesSortKey.shift (h : DerivesSortKey catalog tokens key) (distance : Nat) :
    DerivesSortKey catalog (tokens.map (Token.shift distance)) key := by
  cases h with
  | plain name column => exact .plain name column
  | directed name column word direction => exact .directed name column word direction

/-- Moving the tokens of an order does not change what they stand for. -/
theorem DerivesSortKeys.shift (h : DerivesSortKeys catalog tokens keys) (distance : Nat) :
    DerivesSortKeys catalog (tokens.map (Token.shift distance)) keys := by
  induction h with
  | last key => exact .last (key.shift distance)
  | cons key comma _ ih =>
      rw [List.map_append, List.map_cons]
      exact .cons (key.shift distance) comma ih

theorem DerivesSortKey.tokens_ne_nil (h : DerivesSortKey catalog tokens key) : tokens ≠ [] := by
  cases h with
  | plain _ _ | directed _ _ _ _ => exact List.cons_ne_nil _ _

theorem DerivesSortKey.kind_eq (h : DerivesSortKey catalog tokens key) :
    ∀ token ∈ tokens, token.kind = .identifier := by
  cases h with
  | plain name _ => simpa using name
  | directed name _ word _ => simpa using ⟨name, word⟩

theorem DerivesSortKey.length_le (h : DerivesSortKey catalog tokens key) : tokens.length ≤ 2 := by
  cases h with
  | plain _ _ | directed _ _ _ _ => simp

theorem DerivesSortKeys.tokens_ne_nil (h : DerivesSortKeys catalog tokens keys) : tokens ≠ [] := by
  cases h with
  | last key => exact key.tokens_ne_nil
  | cons _ _ _ => simp

theorem DerivesSortKeys.kind_eq (h : DerivesSortKeys catalog tokens keys) :
    ∀ token ∈ tokens, token.kind = .identifier ∨ token.kind = .comma := by
  induction h with
  | last key => exact fun token htoken => .inl (key.kind_eq token htoken)
  | cons key hcomma _ ih =>
      intro token htoken
      rcases List.mem_append.1 htoken with hmem | hmem
      · exact .inl (key.kind_eq token hmem)
      · rcases List.mem_cons.1 hmem with rfl | hmem
        · exact .inr hcomma
        · exact ih token hmem

theorem DerivesSortKey.append_cases {front rest behind : List Token} {comma joiner : Token}
    (h : DerivesSortKey catalog tokens key) (hcomma : comma.kind = .comma)
    (heq : tokens ++ joiner :: behind = front ++ comma :: rest) :
    front = tokens ∧ joiner = comma ∧ behind = rest ∨
      ∃ more, front = tokens ++ joiner :: more ∧ behind = more ++ comma :: rest := by
  rcases List.append_eq_append_iff.1 heq with ⟨more, hfront, hbehind⟩ | ⟨more, htokens, hrest⟩
  · cases more with
    | nil =>
        rcases List.cons.inj hbehind with ⟨hjoiner, hbehind⟩
        exact .inl ⟨by simpa using hfront, hjoiner, hbehind⟩
    | cons other more =>
        rcases List.cons.inj hbehind with ⟨hjoiner, hbehind⟩
        exact .inr ⟨more, by rw [hfront, hjoiner], hbehind⟩
  · cases more with
    | nil =>
        rcases List.cons.inj hrest with ⟨hjoiner, hbehind⟩
        exact .inl ⟨by simpa using htokens.symm, hjoiner.symm, hbehind.symm⟩
    | cons other more =>
        rcases List.cons.inj hrest with ⟨rfl, -⟩
        have hname := h.kind_eq comma (by simp [htokens])
        rw [hcomma] at hname
        cases hname

theorem DerivesSortKeys.split {front rest : List Token} {comma : Token}
    (hcomma : comma.kind = .comma)
    (h : DerivesSortKeys catalog (front ++ comma :: rest) keys) :
    ∃ first second, keys = first ++ second ∧ DerivesSortKeys catalog front first ∧
      DerivesSortKeys catalog rest second := by
  generalize htokens : front ++ comma :: rest = tokens at h
  induction h generalizing front with
  | last key =>
      have hname := key.kind_eq comma (by simp [← htokens])
      rw [hcomma] at hname
      cases hname
  | @cons tokens behind joiner key keys hkey hjoiner others ih =>
      rcases hkey.append_cases hcomma htokens.symm with
        ⟨rfl, rfl, rfl⟩ | ⟨more, rfl, hbehind⟩
      · exact ⟨[key], keys, rfl, .last hkey, others⟩
      · rcases ih hbehind.symm with ⟨first, second, rfl, hfirst, hsecond⟩
        exact ⟨key :: first, second, rfl, .cons hkey hjoiner hfirst, hsecond⟩

theorem not_derivesSortKeys_nil : ¬DerivesSortKeys catalog [] keys :=
  fun h => h.tokens_ne_nil rfl

theorem not_derivesSortKeys_comma {comma : Token} {rest : List Token}
    (hcomma : comma.kind = .comma) : ¬DerivesSortKeys catalog (comma :: rest) keys := by
  intro h
  have hfront : DerivesSortKeys catalog ([] ++ comma :: rest) keys := h
  obtain ⟨_, _, -, hnone, -⟩ := hfront.split hcomma
  exact not_derivesSortKeys_nil hnone

theorem DerivesSortKeys.not_three_names {front rest : List Token} {name first second : Token}
    (hname : name.kind = .identifier) (hfirst : first.kind = .identifier)
    (hsecond : second.kind = .identifier) :
    ¬DerivesSortKeys catalog (front ++ name :: first :: second :: rest) keys := by
  intro h
  generalize htokens : front ++ name :: first :: second :: rest = tokens at h
  induction h generalizing front with
  | last key =>
      have hlength := key.length_le
      rw [← htokens] at hlength
      simp at hlength
      omega
  | cons key hcomma _ ih =>
      rcases List.append_eq_append_iff.1 htokens with ⟨more, hfront, hbehind⟩ | ⟨more, rfl, hbehind⟩
      · have hlength := key.length_le
        rw [hfront, List.length_append] at hlength
        match more, hbehind with
        | [], hbehind | [_], hbehind | [_, _], hbehind => simp_all
        | _ :: _ :: _ :: _, _ =>
            simp only [List.length_cons] at hlength
            omega
      · cases more with
        | nil => simp_all
        | cons other more => exact ih (List.cons.inj hbehind).2.symm

theorem Misplaced.ne_nil (h : Misplaced tokens) : tokens ≠ [] := by
  cases h with
  | leading _ _ | trailing _ _ | doubled _ _ _ _ | directedTwice _ _ _ _ _ => simp
  | foreign hmem _ _ => exact List.ne_nil_of_mem hmem

theorem not_derivesOrder_of_misplaced (h : Misplaced tokens) :
    ¬DerivesOrder catalog tokens keys := by
  rintro (⟨hnil, -⟩ | derives)
  · exact h.ne_nil hnil
  · cases h with
    | leading rest hcomma => exact not_derivesSortKeys_comma hcomma derives
    | trailing front hcomma =>
        obtain ⟨_, second, -, -, hsecond⟩ := derives.split hcomma
        exact not_derivesSortKeys_nil hsecond
    | doubled front rest hfirst hsecond =>
        obtain ⟨_, _, -, -, hbehind⟩ := derives.split hfirst
        exact not_derivesSortKeys_comma hsecond hbehind
    | directedTwice front rest hname hfirst hsecond =>
        exact DerivesSortKeys.not_three_names hname hfirst hsecond derives
    | foreign hmem hname hcomma =>
        rcases derives.kind_eq _ hmem with hkind | hkind
        · exact hname hkind
        · exact hcomma hkind

end Grammar

namespace SortKey

open Grammar Reading

variable {catalog : Catalog} {stream : TokenStream} {keys : List SortKey}

theorem derivesSortKeys_of_readKeys : ∀ {tokens : List Token} {keys : List SortKey},
    readKeys catalog stream tokens = .ok keys → DerivesSortKeys catalog tokens keys
  | [], _, h => by cases h
  | name :: tokens, keys, h => by
      rw [readKeys] at h
      split at h
      case isFalse => cases h
      next hname =>
      rcases bind_eq_ok_iff.1 h with ⟨column, hcolumn, h⟩
      have hcolumn := Filter.columnOf_eq_ok_iff.1 hcolumn
      match tokens, h with
      | [], h =>
          cases h
          exact .last (.plain hname hcolumn)
      | word :: tokens, h =>
          dsimp only at h
          split at h
          · next hcomma =>
            rcases bind_eq_ok_iff.1 h with ⟨others, hothers, h⟩
            cases h
            exact .cons (.plain hname hcolumn) hcomma (derivesSortKeys_of_readKeys hothers)
          · split at h
            case isFalse => cases h
            next hword =>
            split at h
            · cases h
            · next direction hdirection =>
              have key : DerivesSortKey catalog [name, word] ⟨column, direction⟩ :=
                .directed hname hcolumn hword (Direction.ofWord?_eq_some_iff.1 hdirection)
              match tokens, h with
              | [], h =>
                  cases h
                  exact .last key
              | separator :: tokens, h =>
                  dsimp only at h
                  split at h
                  case isFalse => cases h
                  next hcomma =>
                  rcases bind_eq_ok_iff.1 h with ⟨others, hothers, h⟩
                  cases h
                  exact .cons key hcomma (derivesSortKeys_of_readKeys hothers)

theorem readKeys_of_derivesSortKeys {tokens : List Token}
    (h : DerivesSortKeys catalog tokens keys) : readKeys catalog stream tokens = .ok keys := by
  induction h with
  | last key =>
      cases key with
      | plain name column =>
          simp only [readKeys, name, Filter.columnOf_eq_ok_iff.2 column, ok_bind, if_true]
      | directed name column word direction =>
          simp only [readKeys, name, Filter.columnOf_eq_ok_iff.2 column, ok_bind, word,
            Direction.ofWord?_eq_some_iff.2 direction, reduceCtorEq, if_true, if_false]
  | cons key comma _ ih =>
      cases key with
      | plain name column =>
          simp only [List.cons_append, List.nil_append, readKeys, name,
            Filter.columnOf_eq_ok_iff.2 column, ok_bind, comma, ih, if_true]
      | directed name column word direction =>
          simp only [List.cons_append, List.nil_append, readKeys, name,
            Filter.columnOf_eq_ok_iff.2 column, ok_bind, word,
            Direction.ofWord?_eq_some_iff.2 direction, comma, ih, reduceCtorEq, if_true, if_false]

/-- All tokens of a stream are read as an order if and only if nothing is left open in the text and
the grammar derives that order from them. -/
theorem readTokens_eq_ok_iff :
    readTokens catalog stream = .ok keys ↔
      stream.pendingFault = none ∧ DerivesOrder catalog stream.tokens keys := by
  rw [readTokens]
  split
  · next hempty =>
    have htokens := List.isEmpty_iff.1 hempty
    change stream.closed [] = .ok keys ↔ _
    rw [TokenStream.closed_eq_ok_iff, htokens]
    refine and_congr_right fun _ => ⟨fun h => .inl ⟨rfl, h.symm⟩, ?_⟩
    rintro (⟨-, rfl⟩ | derives)
    · rfl
    · exact absurd derives not_derivesSortKeys_nil
  · next htokens =>
    change readKeys catalog stream stream.tokens >>= stream.closed = .ok keys ↔ _
    rw [bind_eq_ok_iff]
    constructor
    · rintro ⟨found, hfound, hclosed⟩
      obtain ⟨hpending, rfl⟩ := TokenStream.closed_eq_ok_iff.1 hclosed
      exact ⟨hpending, .inr (derivesSortKeys_of_readKeys hfound)⟩
    · rintro ⟨hpending, ⟨hempty, -⟩ | derives⟩
      · exact absurd (List.isEmpty_iff.2 hempty) htokens
      · exact ⟨keys, readKeys_of_derivesSortKeys derives,
          TokenStream.closed_eq_ok_iff.2 ⟨hpending, rfl⟩⟩

theorem ofStream_eq_ok_iff_derivesOrder :
    ofStream catalog stream = .ok keys ↔
      stream.unterminated = none ∧ DerivesOrder catalog stream.tokens keys := by
  rw [ofStream, mapError_eq_ok_iff, readTokens_eq_ok_iff,
    TokenStream.pendingFault_eq_none_iff]

/-- If nothing is left open, an order is read exactly where the grammar derives it from all tokens.
Misplaced tokens are an error, and then there is no order at all. -/
theorem accepts_orders (catalog : Catalog) (stream : TokenStream)
    (closed : stream.unterminated = none) :
    (∀ keys, ofStream catalog stream = .ok keys ↔ DerivesOrder catalog stream.tokens keys) ∧
      (Misplaced stream.tokens → ∃ e, ofStream catalog stream = .error e) := by
  refine ⟨fun keys => ?_, fun misplaced => ?_⟩
  · rw [ofStream_eq_ok_iff_derivesOrder, and_iff_right closed]
  · cases hread : ofStream catalog stream with
    | error e => exact ⟨e, rfl⟩
    | ok keys =>
        have derives := (ofStream_eq_ok_iff_derivesOrder.1 hread).2
        exact absurd derives (not_derivesOrder_of_misplaced misplaced)

def stairs : Catalog :=
  ⟨{ model := "stairs",
     columns := [{ name := "asc", type := .integer },
       { name := "step", type := .string, aliases := ["descending"] }] },
    ⟨[("descending", 1), ("step", 1), ("asc", 0)]⟩, by decide +kernel⟩

theorem accepts_orders_stairs :
    (TokenStream.ofText "asc ASC, descending desc, asc" .orderBy).unterminated = none ∧
      ofStream stairs (TokenStream.ofText "asc ASC, descending desc, asc" .orderBy) =
        .ok [⟨⟨"asc", .integer, [], false, false⟩, .ascending⟩,
          ⟨⟨"step", .string, ["descending"], false, false⟩, .descending⟩,
          ⟨⟨"asc", .integer, [], false, false⟩, .ascending⟩] ∧
      Misplaced (TokenStream.ofText "asc asc desc" .orderBy).tokens ∧
      ∃ e, ofStream stairs (TokenStream.ofText "asc asc desc" .orderBy) = .error e := by
  have htokens : (TokenStream.ofText "asc ASC, descending desc, asc" .orderBy).tokens =
      [⟨.identifier, "asc", 0⟩, ⟨.identifier, "ASC", 4⟩, ⟨.comma, ",", 7⟩,
        ⟨.identifier, "descending", 9⟩, ⟨.identifier, "desc", 20⟩, ⟨.comma, ",", 24⟩,
        ⟨.identifier, "asc", 26⟩] := by
    decide +kernel
  have hopen : (TokenStream.ofText "asc ASC, descending desc, asc" .orderBy).unterminated =
      none := by
    decide +kernel
  have hname : stairs.resolve "asc" = some ⟨"asc", .integer, [], false, false⟩ := by
    decide +kernel
  have halias : stairs.resolve "descending" =
      some ⟨"step", .string, ["descending"], false, false⟩ := by
    decide +kernel
  have hmisplaced : Misplaced (TokenStream.ofText "asc asc desc" .orderBy).tokens := by
    have hthree : (TokenStream.ofText "asc asc desc" .orderBy).tokens =
        [⟨.identifier, "asc", 0⟩, ⟨.identifier, "asc", 4⟩, ⟨.identifier, "desc", 8⟩] := by
      decide +kernel
    rw [hthree]
    exact .directedTwice [] [] rfl rfl rfl
  have first : DerivesSortKey stairs [⟨.identifier, "asc", 0⟩, ⟨.identifier, "ASC", 4⟩]
      ⟨⟨"asc", .integer, [], false, false⟩, .ascending⟩ :=
    .directed rfl hname rfl (by decide +kernel)
  have second : DerivesSortKey stairs [⟨.identifier, "descending", 9⟩, ⟨.identifier, "desc", 20⟩]
      ⟨⟨"step", .string, ["descending"], false, false⟩, .descending⟩ :=
    .directed rfl halias rfl (by decide +kernel)
  have third : DerivesSortKeys stairs [⟨.identifier, "asc", 26⟩]
      [⟨⟨"asc", .integer, [], false, false⟩, .ascending⟩] :=
    .last (.plain rfl hname)
  refine ⟨hopen, ((accepts_orders stairs _ hopen).1 _).2 (.inr ?_), hmisplaced,
    (accepts_orders stairs _ (by decide +kernel)).2 hmisplaced⟩
  rw [htokens]
  exact .cons first rfl (.cons second rfl third)

end SortKey

end RecordQuery
