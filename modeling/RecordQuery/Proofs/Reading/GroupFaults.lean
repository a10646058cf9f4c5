import RecordQuery.Filter.Reader
import RecordQuery.Order.Reader
import RecordQuery.Proofs.Reading.Decision

/-!
# Faults of groups

Two faults are about groups: a parenthesis without a partner, and a group that is opened where no
more may be. They are found where groups are read and nowhere else. What stands inside a clause, its
name, its keys, its operator, its literals and even the parentheses of a list of them, is never at
fault for a group (`Filter.sparesGroups_leaf`), nor is an order (`SortKey.sparesGroups_tokens`).
-/

namespace RecordQuery

/-- The fault is that of a group: it lacks a parenthesis, or it is one too many. -/
def Fault.IsOfGroup : Fault → Prop
  | .unbalancedParenthesis _ => True
  | .unexpectedToken _ expected => expected = .shallowerGroup
  | _ => False

theorem TokenStream.not_isOfGroup_of_pending {stream : TokenStream} {fault : Fault}
    (h : stream.pendingFault = some fault) : ¬fault.IsOfGroup := by
  rcases Option.map_eq_some_iff.1 h with ⟨what, -, rfl⟩
  cases what with
  | quote | key => exact id

namespace Reading

variable {β : Type}

def SparesGroups (x : Except Fault β) : Prop :=
  ∀ fault, x = .error fault → ¬fault.IsOfGroup

namespace SparesGroups

theorem ok (a : β) : SparesGroups (.ok a) := fun _ heq => by cases heq

theorem error {fault : Fault} (h : ¬fault.IsOfGroup) :
    SparesGroups (.error fault : Except Fault β) := fun _ heq => by
  cases heq
  exact h

theorem unexpectedToken (token : Token) {expected : Expected} (h : expected ≠ .shallowerGroup) :
    SparesGroups (.error (.unexpectedToken token expected) : Except Fault β) :=
  error h

theorem mismatch (column : Column) (token : Token) (m : Mismatch) :
    SparesGroups (.error (Reading.mismatch column token m) : Except Fault β) :=
  error id

theorem bind {α : Type} {x : Except Fault α} {f : α → Except Fault β} (h : SparesGroups x)
    (hf : ∀ a, SparesGroups (f a)) : SparesGroups (x >>= f) := by
  cases x with
  | error fault => exact error (h fault rfl)
  | ok a => exact hf a

theorem endFault (stream : TokenStream) (expected : Expected) :
    SparesGroups (.error (stream.endFault expected) : Except Fault β) := by
  rw [TokenStream.endFault]
  cases hpending : stream.pendingFault with
  | none => exact error id
  | some fault => exact error (TokenStream.not_isOfGroup_of_pending hpending)

theorem next (r : Reading) (expected : Expected) (c : Cursor) :
    SparesGroups (r.next expected c) := by
  rw [Reading.next]
  split
  · exact endFault _ _
  · exact ok _

theorem expect (r : Reading) (kind : TokenKind) {expected : Expected}
    (h : expected ≠ .shallowerGroup) (c : Cursor) : SparesGroups (r.expect kind expected c) := by
  refine (next r expected c).bind fun ⟨token, rest⟩ => ?_
  dsimp only
  split
  · exact ok _
  · exact unexpectedToken token h

theorem literal (r : Reading) (column : Column) (n : Nat) (token : Token) :
    SparesGroups (r.literal column n token) := by
  rw [Reading.literal]
  split
  · exact unexpectedToken token (by decide)
  · split
    · exact error id
    · cases Literal.convert r.now column.type token with
      | error m => exact mismatch column token m
      | ok v => exact ok v

theorem value (r : Reading) (column : Column) (c : Cursor) :
    SparesGroups (r.value column c) :=
  (next r .value c).bind fun _ => (literal r column _ _).bind fun _ => ok _

theorem columnOf (catalog : Catalog) (name : Token) :
    SparesGroups (catalog.columnOf name) := by
  rw [Catalog.columnOf]
  split
  · exact ok _
  · exact error id

end SparesGroups

end Reading

namespace Filter

open Reading Grammar

variable {r : Reading}

theorem sparesGroups_keys (column : Column) (tokens : List Token) :
    SparesGroups (readKeys r column tokens) := by
  fun_induction readKeys r column tokens with
  | case1 | case8 => exact .ok _
  | case2 | case3 => exact .endFault _ _
  | case4 _ _ _ _ _ _ _ _ ih => exact ih.bind fun _ => .ok _
  | case5 | case6 => exact .unexpectedToken _ (by decide)
  | case7 => exact .mismatch column _ _

theorem sparesGroups_values (column : Column) :
    ∀ (n : Nat) (tokens : List Token), SparesGroups (readValues r column n tokens)
  | _, [] => .endFault _ _
  | _, [_] => (SparesGroups.literal r column _ _).bind fun _ => .endFault _ _
  | n, token :: separator :: tokens => by
      refine (SparesGroups.literal r column n token).bind fun v => ?_
      dsimp only
      split
      · exact (sparesGroups_values column (n + 1) tokens).bind fun _ => .ok _
      · split
        · exact .ok _
        · exact .unexpectedToken _ (by decide)

theorem sparesGroups_list (column : Column) (c : Cursor) :
    SparesGroups (readList r column c) := by
  refine (SparesGroups.expect r .openParen (by decide) c).bind fun ⟨_, d⟩ => ?_
  dsimp only
  split
  · split
    · exact .unexpectedToken _ (by decide)
    · exact sparesGroups_values column _ _
  · exact sparesGroups_values column _ _

theorem sparesGroups_nullTest (c : Cursor) : SparesGroups (readNullTest r c) := by
  refine (SparesGroups.next r .nullOrNotNull c).bind fun ⟨token, d⟩ => ?_
  dsimp only
  split
  · exact (SparesGroups.expect r .null (by decide) d).bind fun _ => .ok _
  · split
    · exact .ok _
    · exact .unexpectedToken _ (by decide)

theorem sparesGroups_bounds (column : Column) (c : Cursor) :
    SparesGroups (readBounds r column c) :=
  (SparesGroups.value r column c).bind fun _ =>
    (SparesGroups.expect r .and (by decide) _).bind fun _ =>
      (SparesGroups.value r column _).bind fun _ => .ok _

theorem sparesGroups_test (column : Column) (c : Cursor) :
    SparesGroups (readTest r column c) := by
  refine (SparesGroups.next r .operator c).bind fun ⟨token, d⟩ => ?_
  dsimp only
  split
  · exact sparesGroups_nullTest d
  · exact sparesGroups_bounds column d
  · exact (sparesGroups_list column d).bind fun _ => .ok _
  · split
    · exact (SparesGroups.value r column d).bind fun _ => .ok _
    · exact .mismatch column token _
  · exact (SparesGroups.value r column d).bind fun _ => .ok _
  · exact .unexpectedToken _ (by decide)

theorem sparesGroups_leaf (name : Token) (c : Cursor) :
    SparesGroups (readLeaf r name c) :=
  (SparesGroups.columnOf r.catalog name).bind fun column =>
    (sparesGroups_keys column _).bind fun _ =>
      (sparesGroups_test column _).bind fun _ => .ok _

theorem sparesGroups_negation (c : Cursor) : SparesGroups (readNegation r c) := by
  refine (SparesGroups.next r .columnOrGroup c).bind fun ⟨token, d⟩ => ?_
  dsimp only
  split
  · exact (SparesGroups.next r .columnOrGroup d).bind fun _ => .ok _
  · exact .ok _

end Filter

namespace SortKey

open Reading

theorem sparesGroups_keys (catalog : Catalog) (stream : TokenStream) :
    ∀ tokens : List Token, SparesGroups (readKeys catalog stream tokens)
  | [] => .endFault _ _
  | name :: tokens => by
      rw [readKeys]
      split
      case isFalse => exact .unexpectedToken _ (by decide)
      refine (SparesGroups.columnOf catalog name).bind fun column => ?_
      split
      · exact .ok _
      · split
        · exact (sparesGroups_keys catalog stream _).bind fun _ => .ok _
        · split
          case isFalse => exact .unexpectedToken _ (by decide)
          split
          · exact .unexpectedToken _ (by decide)
          · split
            · exact .ok _
            · split
              · exact (sparesGroups_keys catalog stream _).bind fun _ => .ok _
              · exact .unexpectedToken _ (by decide)

theorem sparesGroups_tokens (catalog : Catalog) (stream : TokenStream) :
    SparesGroups (readTokens catalog stream) := by
  have hclosed (keys : List SortKey) : SparesGroups (stream.closed keys) := fun fault h =>
    TokenStream.not_isOfGroup_of_pending (TokenStream.closed_eq_error_iff.1 h)
  rw [readTokens]
  split
  · exact hclosed []
  · exact (sparesGroups_keys catalog stream stream.tokens).bind hclosed

end SortKey

end RecordQuery
