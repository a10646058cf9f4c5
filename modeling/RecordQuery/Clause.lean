import RecordQuery.Value
import RecordQuery.Token
import RecordQuery.Catalog.Column

/-!
# Clauses

A filter is a sequence of clauses. A clause is either a test of one field, or a group, which is a
sequence in its turn. Every clause may be negated, and every clause but the last of its sequence is
joined to the next by a conjunction.

There is no precedence: a sequence is read strictly from left to right, and only groups change
that.
-/

namespace RecordQuery

inductive Conjunction where
  | and
  | or
  deriving DecidableEq

inductive Operation where
  | relation (r : Relation)
  | text (t : TextTest)
  | isNull
  | isNotNull
  deriving DecidableEq

/-- Where the value of a test is found: a field of the record, and in it the part at the end of a
path of keys. -/
structure Path where
  column : Column
  keys : List String := []
  deriving DecidableEq

inductive Test where
  | criterion (operation : Operation) (value : Option Value)
  | between (lower upper : Value)
  | oneOf (values : List Value)

inductive Clause where
  | leaf (negated : Bool) (conjunction : Option Conjunction) (path : Path) (test : Test)
  | group (negated : Bool) (conjunction : Option Conjunction) (children : List Clause)

structure Filter where
  clauses : List Clause := []

namespace Conjunction

def keyword : Conjunction → String
  | .and => "and"
  | .or => "or"

end Conjunction

namespace Operation

def keyword : Operation → String
  | .relation r => r.keyword
  | .text t => t.keyword
  | .isNull => "is null"
  | .isNotNull => "is not null"

end Operation

namespace Test

def literals : Test → List Value
  | .criterion _ value => value.toList
  | .between lower upper => [lower, upper]
  | .oneOf values => values

end Test

namespace Clause

def negated : Clause → Bool
  | .leaf negated _ _ _ => negated
  | .group negated _ _ => negated

def conjunction : Clause → Option Conjunction
  | .leaf _ conjunction _ _ => conjunction
  | .group _ conjunction _ => conjunction

/-- The column that is tested; a group has none. -/
def column? : Clause → Option Column
  | .leaf _ _ path _ => some path.column
  | .group _ _ _ => none

/-- The keys that lead to the tested part; a group has none. -/
def keys : Clause → List String
  | .leaf _ _ path _ => path.keys
  | .group _ _ _ => []

def withConjunction (conjunction : Option Conjunction) : Clause → Clause
  | .leaf negated _ path test => .leaf negated conjunction path test
  | .group negated _ children => .group negated conjunction children

def negateIf (again : Bool) : Clause → Clause
  | .leaf negated conjunction path test => .leaf (negated != again) conjunction path test
  | .group negated conjunction children => .group (negated != again) conjunction children

mutual

def parameterCount : Clause → Nat
  | .leaf _ _ _ test => test.literals.length
  | .group _ _ children => sequenceParameterCount children

def sequenceParameterCount : List Clause → Nat
  | [] => 0
  | clause :: clauses => clause.parameterCount + sequenceParameterCount clauses

end

theorem sequenceParameterCount_append (first second : List Clause) :
    sequenceParameterCount (first ++ second) =
      sequenceParameterCount first + sequenceParameterCount second := by
  induction first with
  | nil => simp [sequenceParameterCount]
  | cons clause clauses ih => simp [sequenceParameterCount, ih, Nat.add_assoc]

@[simp] theorem conjunction_withConjunction (conjunction : Option Conjunction) (c : Clause) :
    (c.withConjunction conjunction).conjunction = conjunction := by
  cases c <;> rfl

@[simp] theorem conjunction_negateIf (again : Bool) (c : Clause) :
    (c.negateIf again).conjunction = c.conjunction := by
  cases c <;> rfl

theorem withConjunction_eq_self {conjunction : Option Conjunction} {c : Clause}
    (h : c.conjunction = conjunction) : c.withConjunction conjunction = c := by
  subst h
  cases c <;> rfl

@[simp] theorem parameterCount_withConjunction (conjunction : Option Conjunction) (c : Clause) :
    (c.withConjunction conjunction).parameterCount = c.parameterCount := by
  cases c <;> simp [withConjunction, parameterCount]

@[simp] theorem parameterCount_negateIf (again : Bool) (c : Clause) :
    (c.negateIf again).parameterCount = c.parameterCount := by
  cases c <;> simp [negateIf, parameterCount]

@[simp] theorem negateIf_false (c : Clause) : c.negateIf false = c := by
  cases c <;> simp [negateIf]

end Clause

namespace Filter

def parameterCount (f : Filter) : Nat :=
  Clause.sequenceParameterCount f.clauses

end Filter

end RecordQuery
