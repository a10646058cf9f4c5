import RecordQuery.Clause

/-!
# Equality of filters

Two filters are the same if they agree in everything but the scales of decimals, which may differ
where the numbers do not.
-/

namespace RecordQuery

namespace Test

def same : Test → Test → Bool
  | .criterion o v, .criterion o' v' =>
    o == o' &&
      match v, v' with
      | some v, some v' => v.same v'
      | none, none => true
      | _, _ => false
  | .between l u, .between l' u' => l.same l' && u.same u'
  | .oneOf vs, .oneOf vs' => Value.sameItems vs vs'
  | _, _ => false

instance : BEq Test := ⟨same⟩

end Test

namespace Clause

mutual

def same : Clause → Clause → Bool
  | .leaf n c p t, .leaf n' c' p' t' => n == n' && c == c' && p == p' && t.same t'
  | .group n c children, .group n' c' children' =>
    n == n' && c == c' && sameSequence children children'
  | _, _ => false

def sameSequence : List Clause → List Clause → Bool
  | [], [] => true
  | c :: cs, c' :: cs' => c.same c' && sameSequence cs cs'
  | _, _ => false

end

instance : BEq Clause := ⟨same⟩

end Clause

namespace Filter

def same (f g : Filter) : Bool :=
  Clause.sameSequence f.clauses g.clauses

instance : BEq Filter := ⟨same⟩

end Filter

end RecordQuery
