import Mathlib.Data.List.Chain
import RecordQuery.Proofs.Grammar

/-!
# What stands behind a literal

In a filter that is accepted no string stands behind a literal (`DerivesFilter.stringsApart`): a
name is followed by a bracket or an operator, an operand by something that continues the clauses,
and the name in a key segment by the bracket that closes it. So where an operand ends, no quoted
text begins.
-/

namespace RecordQuery

def StringsApart (tokens : List Token) : Prop :=
  tokens.IsChain fun a b => a.isLiteral = true → b.kind ≠ .string

def BeginsPlain (tokens : List Token) : Prop :=
  ∀ token ∈ tokens.head?, token.kind ≠ .string

theorem beginsPlain_nil : BeginsPlain [] := by simp [BeginsPlain]

theorem beginsPlain_cons {token : Token} {tokens : List Token} (h : token.kind ≠ .string) :
    BeginsPlain (token :: tokens) := by
  rintro _ ⟨⟩
  exact h

namespace StringsApart

variable {token : Token} {tokens : List Token}

theorem cons (h : StringsApart tokens) (hbegins : BeginsPlain tokens) :
    StringsApart (token :: tokens) :=
  List.isChain_cons.2 ⟨fun next hnext _ => hbegins next hnext, h⟩

theorem cons_of_not_isLiteral (h : StringsApart tokens) (htoken : token.isLiteral = false) :
    StringsApart (token :: tokens) := by
  refine List.isChain_cons.2 ⟨fun _ _ hliteral => ?_, h⟩
  rw [htoken] at hliteral
  cases hliteral

end StringsApart

namespace Grammar

variable {catalog : Catalog} {now : Timestamp} {column : Column} {rest : List Token}

theorem isLiteral_of_kind {token : Token} {kind : TokenKind} (h : token.kind = kind) :
    token.isLiteral = kind.isLiteral := by
  rw [Token.isLiteral, h]

theorem DerivesNegation.stringsApart {tokens : List Token} {negated : Bool}
    (h : DerivesNegation tokens negated) (hrest : StringsApart rest) :
    StringsApart (tokens ++ rest) := by
  cases h with
  | absent => exact hrest
  | present not => exact hrest.cons_of_not_isLiteral (isLiteral_of_kind not)

theorem DerivesKeys.stringsApart {tokens : List Token} {keys : List String}
    (h : DerivesKeys column tokens keys) (hrest : StringsApart rest) :
    StringsApart (tokens ++ rest) := by
  induction h with
  | nil => exact hrest
  | cons _ opening _ closing _ ih =>
      have hclosing := ih.cons_of_not_isLiteral (isLiteral_of_kind closing)
      exact (hclosing.cons (beginsPlain_cons (by simp [closing]))).cons_of_not_isLiteral
        (isLiteral_of_kind opening)

theorem DerivesKeys.beginsPlain {tokens : List Token} {keys : List String}
    (h : DerivesKeys column tokens keys) (hrest : BeginsPlain rest) :
    BeginsPlain (tokens ++ rest) := by
  cases h with
  | nil => exact hrest
  | cons _ opening _ _ _ => exact beginsPlain_cons (by simp [opening])

theorem DerivesValues.stringsApart {tokens : List Token} {vs : List Value}
    (h : DerivesValues now column tokens vs) (hrest : StringsApart rest)
    (hbegins : BeginsPlain rest) : StringsApart (tokens ++ rest) := by
  induction h with
  | last _ => exact hrest.cons hbegins
  | cons _ comma _ ih =>
      exact (ih.cons_of_not_isLiteral (isLiteral_of_kind comma)).cons
        (beginsPlain_cons (by simp [comma]))

theorem DerivesTest.beginsPlain {tokens : List Token} {test : Test}
    (h : DerivesTest now column tokens test) : BeginsPlain (tokens ++ rest) := by
  cases h with
  | relation operator _ | text operator _ _ | isNull operator _ | isNotNull operator _ _
  | between operator _ _ _ | oneOf operator _ _ _ => exact beginsPlain_cons (by simp [operator])

theorem DerivesTest.stringsApart {tokens : List Token} {test : Test}
    (h : DerivesTest now column tokens test) (hrest : StringsApart rest)
    (hbegins : BeginsPlain rest) : StringsApart (tokens ++ rest) := by
  have hlast (token : Token) : StringsApart (token :: rest) := hrest.cons hbegins
  cases h with
  | relation operator _ | text operator _ _ | isNull operator _ =>
      exact (hlast _).cons_of_not_isLiteral (isLiteral_of_kind operator)
  | isNotNull operator not _ =>
      exact ((hlast _).cons_of_not_isLiteral (isLiteral_of_kind not)).cons_of_not_isLiteral
        (isLiteral_of_kind operator)
  | @between _ _ _ second _ _ operator _ and _ =>
      have hupper := (hlast second).cons_of_not_isLiteral (isLiteral_of_kind and)
      exact (hupper.cons (beginsPlain_cons (by simp [and]))).cons_of_not_isLiteral
        (isLiteral_of_kind operator)
  | @oneOf _ _ closing _ _ operator opening values hclosing =>
      have hvalues := values.stringsApart (hlast closing) (beginsPlain_cons (by simp [hclosing]))
      rw [List.cons_append, List.cons_append, List.append_assoc]
      exact (hvalues.cons_of_not_isLiteral (isLiteral_of_kind opening)).cons_of_not_isLiteral
        (isLiteral_of_kind operator)

theorem stringsApart_joiner {joiner : Token} {conjunction : Conjunction}
    (h : joiner.kind = conjunction.tokenKind) (hrest : StringsApart rest) :
    StringsApart (joiner :: rest) ∧ BeginsPlain (joiner :: rest) := by
  cases conjunction with
  | and | or =>
      exact ⟨hrest.cons_of_not_isLiteral (isLiteral_of_kind h),
        beginsPlain_cons (h.trans_ne TokenKind.noConfusion)⟩

mutual

theorem DerivesClause.stringsApart {depth : Nat} {tokens : List Token} {clause : Clause} :
    DerivesClause catalog now depth tokens clause → ∀ rest, StringsApart rest → BeginsPlain rest →
      StringsApart (tokens ++ rest)
  | .leaf negation _ _ keys test, rest, hrest, hbegins => by
      rw [List.append_assoc, List.cons_append, List.append_assoc]
      exact negation.stringsApart ((keys.stringsApart (test.stringsApart hrest hbegins)).cons
        (keys.beginsPlain test.beginsPlain))
  | .single negation opening sequence closing, rest, hrest, hbegins
  | .group negation opening sequence _ closing, rest, hrest, hbegins => by
      rw [List.append_assoc, List.cons_append, List.append_assoc]
      have hclosing := hrest.cons_of_not_isLiteral (isLiteral_of_kind closing)
      have hbody := sequence.stringsApart _ hclosing (beginsPlain_cons (by simp [closing]))
      exact negation.stringsApart (hbody.cons_of_not_isLiteral (isLiteral_of_kind opening))

theorem DerivesSequence.stringsApart {depth : Nat} {tokens : List Token}
    {clauses : List Clause} :
    DerivesSequence catalog now depth tokens clauses → ∀ rest, StringsApart rest →
      BeginsPlain rest → StringsApart (tokens ++ rest)
  | .last clause, rest, hrest, hbegins => clause.stringsApart rest hrest hbegins
  | .join clause joiner others, rest, hrest, hbegins => by
      rcases stringsApart_joiner joiner (others.stringsApart rest hrest hbegins) with
        ⟨hjoiner, hplain⟩
      rw [List.append_assoc]
      exact clause.stringsApart _ hjoiner hplain

end

theorem DerivesFilter.stringsApart {tokens : List Token} {f : Filter}
    (h : DerivesFilter catalog now tokens f) : StringsApart tokens := by
  rcases h.clauses with ⟨rfl, -⟩ | ⟨depth, -, derives⟩
  · exact .nil
  · simpa using derives.stringsApart [] .nil beginsPlain_nil

end Grammar

end RecordQuery
