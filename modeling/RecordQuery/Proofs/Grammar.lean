import RecordQuery.Filter.Reader

/-!
# The grammar of filters

Which tokens stand for which filter, said without a reader:

    sequence := clause (("and" | "or") clause)*
    clause   := "not"? ("(" sequence ")" | column key* test)
    key      := "[" name "]"
    test     := relation literal | text-test literal
              | "is" "not"? "null"
              | "between" literal "and" literal
              | "in" "(" literal ("," literal)* ")"

There is one relation for each phrase, between the tokens of the phrase and what they stand for.
The relations for sequences and clauses carry the depth to which groups are nested, so that the
limit on nesting is a condition on a derivation and not a part of the grammar. The limit on
literals is a condition on the filter.

Places of tokens do not occur in any rule, and `DerivesSequence.shift` says so for tokens that are
moved as a whole.
-/

namespace RecordQuery

namespace Token

def shift (distance : Nat) (t : Token) : Token :=
  { t with position := t.position + distance }

@[simp] theorem kind_shift (distance : Nat) (t : Token) : (t.shift distance).kind = t.kind := rfl

@[simp] theorem text_shift (distance : Nat) (t : Token) : (t.shift distance).text = t.text := rfl

@[simp] theorem isLiteral_shift (distance : Nat) (t : Token) :
    (t.shift distance).isLiteral = t.isLiteral := rfl

end Token

namespace Conjunction

def tokenKind : Conjunction → TokenKind
  | .and => .and
  | .or => .or

end Conjunction

namespace Catalog

def Allows (catalog : Catalog) (parameters : Nat) : Prop :=
  ∀ maximum, catalog.maxParameters = some maximum → parameters ≤ maximum

theorem Allows.mono {catalog : Catalog} {m n : Nat} (h : catalog.Allows n) (hmn : m ≤ n) :
    catalog.Allows m :=
  fun maximum hm => Nat.le_trans hmn (h maximum hm)

theorem allows_zero (catalog : Catalog) : catalog.Allows 0 :=
  fun _ _ => Nat.zero_le _

end Catalog

namespace Grammar

/-- A token is an operand that stands for a value on a column. -/
structure Operand (now : Timestamp) (column : Column) (token : Token) (v : Value) : Prop where
  isLiteral : token.isLiteral = true
  convert : Literal.convert now column.type token = .ok v

/-- Key segments behind a column, which has to support them. -/
inductive DerivesKeys (column : Column) : List Token → List String → Prop
  | nil : DerivesKeys column [] []
  | cons {opening name closing : Token} {tokens : List Token} {keys : List String} :
      column.nested = true → opening.kind = .openBracket → name.kind = .string →
      closing.kind = .closeBracket → DerivesKeys column tokens keys →
      DerivesKeys column (opening :: name :: closing :: tokens) (name.text :: keys)

inductive DerivesValues (now : Timestamp) (column : Column) : List Token → List Value → Prop
  | last {token : Token} {v : Value} :
      Operand now column token v → DerivesValues now column [token] [v]
  | cons {token comma : Token} {tokens : List Token} {v : Value} {vs : List Value} :
      Operand now column token v → comma.kind = .comma → DerivesValues now column tokens vs →
      DerivesValues now column (token :: comma :: tokens) (v :: vs)

inductive DerivesTest (now : Timestamp) (column : Column) : List Token → Test → Prop
  | relation {operator token : Token} {relation : Relation} {v : Value} :
      operator.kind = .operator (.relation relation) → Operand now column token v →
      DerivesTest now column [operator, token] (.criterion (.relation relation) (some v))
  | text {operator token : Token} {test : TextTest} {v : Value} :
      operator.kind = .operator (.text test) → column.type.supportsTextTests = true →
      Operand now column token v →
      DerivesTest now column [operator, token] (.criterion (.text test) (some v))
  | isNull {operator null : Token} :
      operator.kind = .operator .is → null.kind = .null →
      DerivesTest now column [operator, null] (.criterion .isNull none)
  | isNotNull {operator not null : Token} :
      operator.kind = .operator .is → not.kind = .not → null.kind = .null →
      DerivesTest now column [operator, not, null] (.criterion .isNotNull none)
  | between {operator first and second : Token} {lower upper : Value} :
      operator.kind = .operator .between → Operand now column first lower → and.kind = .and →
      Operand now column second upper →
      DerivesTest now column [operator, first, and, second] (.between lower upper)
  | oneOf {operator opening closing : Token} {tokens : List Token} {vs : List Value} :
      operator.kind = .operator .oneOf → opening.kind = .openParen →
      DerivesValues now column tokens vs → closing.kind = .closeParen →
      DerivesTest now column (operator :: opening :: (tokens ++ [closing])) (.oneOf vs)

inductive DerivesNegation : List Token → Bool → Prop
  | absent : DerivesNegation [] false
  | present {not : Token} : not.kind = .not → DerivesNegation [not] true

mutual

/-- A clause in which groups are nested to the given depth. Parentheses around a single clause stand
for that clause, and a word `not` ahead of them negates it once more. -/
inductive DerivesClause (catalog : Catalog) (now : Timestamp) : Nat → List Token → Clause → Prop
  | leaf {negation keyTokens testTokens : List Token} {name : Token} {negated : Bool}
      {column : Column} {keys : List String} {test : Test} :
      DerivesNegation negation negated → name.kind = .identifier →
      catalog.resolve name.text = some column → DerivesKeys column keyTokens keys →
      DerivesTest now column testTokens test →
      DerivesClause catalog now 0 (negation ++ name :: (keyTokens ++ testTokens))
        (.leaf negated none ⟨column, keys⟩ test)
  | single {negation tokens : List Token} {opening closing : Token} {negated : Bool}
      {depth : Nat} {clause : Clause} :
      DerivesNegation negation negated → opening.kind = .openParen →
      DerivesSequence catalog now depth tokens [clause] → closing.kind = .closeParen →
      DerivesClause catalog now (depth + 1) (negation ++ opening :: (tokens ++ [closing]))
        (clause.negateIf negated)
  | group {negation tokens : List Token} {opening closing : Token} {negated : Bool}
      {depth : Nat} {clauses : List Clause} :
      DerivesNegation negation negated → opening.kind = .openParen →
      DerivesSequence catalog now depth tokens clauses → 2 ≤ clauses.length →
      closing.kind = .closeParen →
      DerivesClause catalog now (depth + 1) (negation ++ opening :: (tokens ++ [closing]))
        (.group negated none clauses)

/-- Clauses with conjunctions between them, in which groups are nested to the given depth. -/
inductive DerivesSequence (catalog : Catalog) (now : Timestamp) :
    Nat → List Token → List Clause → Prop
  | last {depth : Nat} {tokens : List Token} {clause : Clause} :
      DerivesClause catalog now depth tokens clause →
      DerivesSequence catalog now depth tokens [clause]
  | join {depth others : Nat} {tokens rest : List Token} {joiner : Token} {clause : Clause}
      {clauses : List Clause} {conjunction : Conjunction} :
      DerivesClause catalog now depth tokens clause → joiner.kind = conjunction.tokenKind →
      DerivesSequence catalog now others rest clauses →
      DerivesSequence catalog now (max depth others) (tokens ++ joiner :: rest)
        (clause.withConjunction (some conjunction) :: clauses)

end

/-- The tokens of a filter: none for the filter without clauses, and else those of a sequence in
which groups are nested no deeper than is allowed. A catalog may limit the number of literals. -/
structure DerivesFilter (catalog : Catalog) (now : Timestamp) (tokens : List Token) (f : Filter) :
    Prop where
  clauses : (tokens = [] ∧ f.clauses = []) ∨
    ∃ depth ≤ maxGroupDepth, DerivesSequence catalog now depth tokens f.clauses
  allowed : catalog.Allows f.parameterCount

variable {catalog : Catalog} {now : Timestamp} {column : Column}

theorem Operand.shift {token : Token} {v : Value} (h : Operand now column token v)
    (distance : Nat) : Operand now column (token.shift distance) v :=
  ⟨h.isLiteral, h.convert⟩

theorem DerivesKeys.shift {tokens : List Token} {keys : List String}
    (h : DerivesKeys column tokens keys) (distance : Nat) :
    DerivesKeys column (tokens.map (Token.shift distance)) keys := by
  induction h with
  | nil => exact .nil
  | cons nested opening name closing _ ih => exact .cons nested opening name closing ih

theorem DerivesValues.shift {tokens : List Token} {vs : List Value}
    (h : DerivesValues now column tokens vs) (distance : Nat) :
    DerivesValues now column (tokens.map (Token.shift distance)) vs := by
  induction h with
  | last operand => exact .last (operand.shift distance)
  | cons operand comma _ ih => exact .cons (operand.shift distance) comma ih

theorem DerivesTest.shift {tokens : List Token} {test : Test}
    (h : DerivesTest now column tokens test) (distance : Nat) :
    DerivesTest now column (tokens.map (Token.shift distance)) test := by
  cases h with
  | relation operator operand => exact .relation operator (operand.shift distance)
  | text operator supported operand => exact .text operator supported (operand.shift distance)
  | isNull operator null => exact .isNull operator null
  | isNotNull operator not null => exact .isNotNull operator not null
  | between operator first and second =>
      exact .between operator (first.shift distance) and (second.shift distance)
  | oneOf operator opening values closing =>
      simp only [List.map_cons, List.map_append, List.map_nil]
      exact .oneOf operator opening (values.shift distance) closing

theorem DerivesNegation.shift {tokens : List Token} {negated : Bool}
    (h : DerivesNegation tokens negated) (distance : Nat) :
    DerivesNegation (tokens.map (Token.shift distance)) negated := by
  cases h with
  | absent => exact .absent
  | present not => exact .present not

mutual

/-- Moving the tokens of a clause does not change what they stand for. -/
theorem DerivesClause.shift {depth : Nat} {tokens : List Token} {clause : Clause}
    (distance : Nat) :
    DerivesClause catalog now depth tokens clause →
      DerivesClause catalog now depth (tokens.map (Token.shift distance)) clause
  | .leaf negation name resolved keys test => by
      simp only [List.map_append, List.map_cons]
      exact .leaf (negation.shift distance) name resolved (keys.shift distance)
        (test.shift distance)
  | .single negation opening sequence closing => by
      simp only [List.map_append, List.map_cons, List.map_nil]
      exact .single (negation.shift distance) opening (sequence.shift distance) closing
  | .group negation opening sequence two closing => by
      simp only [List.map_append, List.map_cons, List.map_nil]
      exact .group (negation.shift distance) opening (sequence.shift distance) two closing

/-- Moving the tokens of a sequence does not change what they stand for. -/
theorem DerivesSequence.shift {depth : Nat} {tokens : List Token} {clauses : List Clause}
    (distance : Nat) :
    DerivesSequence catalog now depth tokens clauses →
      DerivesSequence catalog now depth (tokens.map (Token.shift distance)) clauses
  | .last clause => .last (clause.shift distance)
  | .join clause joiner others => by
      simp only [List.map_append, List.map_cons]
      exact .join (clause.shift distance) joiner (others.shift distance)

end

theorem DerivesSequence.ne_nil {depth : Nat} {tokens : List Token} {clauses : List Clause}
    (h : DerivesSequence catalog now depth tokens clauses) : clauses ≠ [] := by
  cases h with
  | last _ => simp
  | join _ _ _ => simp

theorem DerivesClause.tokens_ne_nil {depth : Nat} {tokens : List Token} {clause : Clause}
    (h : DerivesClause catalog now depth tokens clause) : tokens ≠ [] := by
  cases h with
  | leaf _ _ _ _ _ => simp
  | single _ _ _ _ => simp
  | group _ _ _ _ _ => simp

theorem DerivesSequence.tokens_ne_nil {depth : Nat} {tokens : List Token} {clauses : List Clause}
    (h : DerivesSequence catalog now depth tokens clauses) : tokens ≠ [] := by
  cases h with
  | last clause => exact clause.tokens_ne_nil
  | join _ _ _ => simp

mutual

theorem DerivesClause.conjunction_eq_none {depth : Nat} {tokens : List Token} {clause : Clause} :
    DerivesClause catalog now depth tokens clause → clause.conjunction = none
  | .leaf _ _ _ _ _ => rfl
  | .single _ _ sequence _ => by
      rw [Clause.conjunction_negateIf]
      exact sequence.conjunction_of_single
  | .group _ _ _ _ _ => rfl

theorem DerivesSequence.conjunction_of_single {depth : Nat} {tokens : List Token}
    {clause : Clause} :
    DerivesSequence catalog now depth tokens [clause] → clause.conjunction = none
  | .last h => h.conjunction_eq_none
  | .join _ _ others => absurd rfl others.ne_nil

end

end Grammar

end RecordQuery
