import RecordQuery.Proofs.Grammar.Spelling
import RecordQuery.Proofs.Reading.Verdict

/-!
# Two spellings read in lockstep

One query in two spellings is read step by step, the two readings side by side. They take tokens in
the same places, and so they come to the same result, or they find the same fault at tokens in the
same place (`Reading.InStep`). Where a reader goes on with another one, so do both readings
(`InStep.bind`), and there is one short proof for each reader, as for its verdict.
-/

namespace RecordQuery

/-- Two faults in two texts with the given numbers of characters: the same is wrong with paired
tokens, or at the ends of both. What differs is how the tokens are written and where they stand. -/
inductive Fault.Corresponds (Paired : Token → Token → Prop) (length length' : Nat) :
    Fault → Fault → Prop
  | unknownColumn {a b : Token} : Paired a b →
      Corresponds Paired length length' (.unknownColumn a.text a.position)
        (.unknownColumn b.text b.position)
  | typeMismatch {a b : Token} (column : String) (type : FieldType) (reason : Mismatch) :
      Paired a b →
      Corresponds Paired length length' (.typeMismatch column type a.text reason a.position)
        (.typeMismatch column type b.text reason b.position)
  | tooManyParameters {a b : Token} (maximum : Nat) : Paired a b →
      Corresponds Paired length length' (.tooManyParameters maximum a.position)
        (.tooManyParameters maximum b.position)
  | unexpectedToken {a b : Token} (expected : Expected) : Paired a b →
      Corresponds Paired length length' (.unexpectedToken a expected) (.unexpectedToken b expected)
  | unexpectedEnd (expected : Expected) :
      Corresponds Paired length length' (.unexpectedEnd expected length)
        (.unexpectedEnd expected length')
  | unbalancedParenthesis {a b : Token} : Paired a b →
      Corresponds Paired length length' (.unbalancedParenthesis a.position)
        (.unbalancedParenthesis b.position)

/-- The text of a token decides its value, and on a document column its kind. -/
theorem Literal.convert_congr {now : Timestamp} {type : FieldType} {a b : Token}
    (htext : b.text = a.text) (hkind : type = .json → b.kind = a.kind) :
    convert now type b = convert now type a := by
  cases type with
  | json => simp only [convert, htext, hkind rfl]
  | string | integer | decimal | boolean | date => simp only [convert, htext]

namespace Reading

def on (r : Reading) (s : TokenStream) : Reading :=
  { r with stream := s }

structure Closed (r : Reading) (s : TokenStream) : Prop where
  first : r.stream.pendingFault = none
  second : s.pendingFault = none

variable {r : Reading} {s : TokenStream} {Paired : Token → Token → Prop}

/-- What comes of two readings in lockstep: the same result, and behind it tokens that are paired
and stand as `q` says, or corresponding faults. -/
inductive InStep (r : Reading) (s : TokenStream) (Paired : Token → Token → Prop)
    (q : Standing → Prop) {α : Type} :
    Except Fault (α × Cursor) → Except Fault (α × Cursor) → Prop
  | ok {p : Standing} {as bs : List Token} (result : α) (n : Nat) : q p →
      Respelled r.catalog Paired p as bs →
      InStep r s Paired q (.ok (result, ⟨as, n⟩)) (.ok (result, ⟨bs, n⟩))
  | error {fault fault' : Fault} :
      fault.Corresponds Paired r.stream.textLength s.textLength fault' →
      InStep r s Paired q (.error fault) (.error fault')

namespace InStep

variable {α β : Type} {q q' : Standing → Prop} {x y : Except Fault (α × Cursor)} {p : Standing}
  {as bs : List Token} {n : Nat}

theorem outcome (h : InStep r s Paired q x y) :
    (∃ result c d, x = .ok (result, c) ∧ y = .ok (result, d)) ∨
      ∃ fault fault', x = .error fault ∧ y = .error fault' ∧
        fault.Corresponds Paired r.stream.textLength s.textLength fault' := by
  cases h with
  | ok result n _ _ => exact .inl ⟨result, _, _, rfl, rfl⟩
  | error hfault => exact .inr ⟨_, _, rfl, rfl, hfault⟩

theorem bind {f g : α × Cursor → Except Fault (β × Cursor)} (h : InStep r s Paired q x y)
    (hnext : ∀ p as bs result n, q p → Respelled r.catalog Paired p as bs →
      InStep r s Paired q' (f (result, ⟨as, n⟩)) (g (result, ⟨bs, n⟩))) :
    InStep r s Paired q' (x >>= f) (y >>= g) := by
  cases h with
  | ok result n hp htokens => exact hnext _ _ _ result n hp htokens
  | error hfault => exact .error hfault

theorem map (f : α → β) (h : InStep r s Paired q x y) :
    InStep r s Paired q (x >>= fun p => .ok (f p.1, p.2)) (y >>= fun p => .ok (f p.1, p.2)) :=
  h.bind fun _ _ _ result n hp htokens => .ok (f result) n hp htokens

theorem endFault (hclosed : Closed r s) (expected : Expected) :
    InStep (α := α) r s Paired q (.error (r.stream.endFault expected))
      (.error (s.endFault expected)) := by
  rw [TokenStream.endFault, TokenStream.endFault, hclosed.first, hclosed.second]
  exact .error (.unexpectedEnd expected)

/-- A token of one kind is taken, and it does not matter how it is written. -/
theorem expect (hclosed : Closed r s) (kind : TokenKind) (expected : Expected)
    (hkind : kind ≠ .identifier) {f g : Token × Cursor → Except Fault (β × Cursor)}
    (htokens : Respelled r.catalog Paired p as bs) (hp : p.slot.asksForValue = false)
    (hnext : ∀ a b rest rest',
      Respelled r.catalog Paired ⟨p.slot.next kind, p.column⟩ rest rest' →
      InStep r s Paired q (f (a, ⟨rest, n⟩)) (g (b, ⟨rest', n⟩))) :
    InStep r s Paired q (r.expect kind expected ⟨as, n⟩ >>= f)
      ((r.on s).expect kind expected ⟨bs, n⟩ >>= g) := by
  cases htokens with
  | nil => exact endFault hclosed expected
  | @cons p a b as bs hpaired hab htokens =>
      simp only [Reading.expect, Reading.next, ok_bind, hab.kind_eq hp]
      by_cases ha : a.kind = kind
      · rw [if_pos ha, if_pos ha]
        rw [Standing.next_of_kind ha hkind] at htokens
        exact hnext a b as bs htokens
      · rw [if_neg ha, if_neg ha]
        exact .error (.unexpectedToken expected hpaired)

theorem value (hclosed : Closed r s) {column : Column}
    {f g : Value × Cursor → Except Fault (β × Cursor)}
    (htokens : Respelled r.catalog Paired p as bs) (hp : p.AsksFor column)
    (hnext : ∀ v rest rest', rest.length < as.length →
      Respelled r.catalog Paired ⟨p.slot.next .string, some column⟩ rest rest' →
      InStep r s Paired q (f (v, ⟨rest, n + 1⟩)) (g (v, ⟨rest', n + 1⟩))) :
    InStep r s Paired q (r.value column ⟨as, n⟩ >>= f) ((r.on s).value column ⟨bs, n⟩ >>= g) := by
  cases htokens with
  | nil => exact endFault hclosed .value
  | @cons p a b as bs hpaired hab htokens =>
      rw [value_cons, value_cons]
      cases hliteral : a.isLiteral with
      | false =>
          have hliteral' := hab.isLiteral_eq.trans hliteral
          simp only [literal, hliteral, hliteral']
          exact .error (.unexpectedToken .value hpaired)
      | true =>
          have hliteral' := hab.isLiteral_eq.trans hliteral
          rcases hab.operand_eq hp hliteral with ⟨htext, hkind⟩
          have hconvert :
              Literal.convert r.now column.type b = Literal.convert r.now column.type a :=
            Literal.convert_congr htext hkind
          have hstanding : p.next r.catalog a = ⟨p.slot.next .string, some column⟩ := by
            ext1
            · exact Slot.next_of_asksForValue hp.slot a.kind .string
            · rw [Standing.column_next (.inr hp.slot), hp.column]
          have hlimit : (r.on s).limitExceededBy? (n + 1) = r.limitExceededBy? (n + 1) := rfl
          have hnow : (r.on s).now = r.now := rfl
          simp only [literal, hliteral, hliteral', hlimit, hnow, hconvert]
          cases r.limitExceededBy? (n + 1) with
          | some maximum => exact .error (.tooManyParameters maximum hpaired)
          | none =>
              cases Literal.convert r.now column.type a with
              | error reason => exact .error (.typeMismatch _ _ reason hpaired)
              | ok v => exact hnext v as bs (Nat.lt_succ_self _) (hstanding ▸ htokens)

end InStep

end Reading

end RecordQuery
