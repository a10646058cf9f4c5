import RecordQuery.Proofs.Reading

/-!
# Counting operands against the limit

The limit of a catalog on literals does nothing to a reading but end it: the operands are counted as
they are read, and the first one over the limit is the fault. `Reading.charge` is that count apart
from everything else. It commutes with going on (`charge_bind`), so the operands of a whole reading
may be charged at once, and then it is plain which of them is over the limit
(`charge_eq_self_or_error`).
-/

namespace RecordQuery

def Catalog.withLimit (c : Catalog) (limit : Option Nat) : Catalog :=
  ⟨{ c.toDeclaration with maxParameters := limit }, c.index, c.indexed⟩

namespace Reading

def withLimit (r : Reading) (limit : Option Nat) : Reading :=
  { r with catalog := r.catalog.withLimit limit }

variable {β : Type}

/-- Counts some operands, `n` more having been counted before, and goes on to `result` if the
catalog allows them all. -/
def charge (r : Reading) (n : Nat) : List Token → Except Fault β → Except Fault β
  | [], result => result
  | token :: operands, result =>
    match r.limitExceededBy? (n + 1) with
    | some maximum => .error (.tooManyParameters maximum token.position)
    | none => r.charge (n + 1) operands result

variable {r : Reading} {n : Nat}

@[simp] theorem charge_nil (result : Except Fault β) : r.charge n [] result = result := rfl

theorem charge_append (first second : List Token) (result : Except Fault β) :
    r.charge n (first ++ second) result =
      r.charge n first (r.charge (n + first.length) second result) := by
  induction first generalizing n with
  | nil => rfl
  | cons token first ih =>
      rw [List.cons_append, charge, charge, ih, List.length_cons]
      rw [Nat.add_right_comm n 1, Nat.add_assoc]

theorem charge_bind {γ : Type} (operands : List Token) (result : Except Fault β)
    (next : β → Except Fault γ) :
    r.charge n operands result >>= next = r.charge n operands (result >>= next) := by
  induction operands generalizing n with
  | nil => rfl
  | cons token operands ih =>
      rw [charge, charge]
      split
      · rfl
      · exact ih

theorem charge_congr {r r' : Reading} (h : r'.catalog.maxParameters = r.catalog.maxParameters)
    (n : Nat) (operands : List Token) (result : Except Fault β) :
    r'.charge n operands result = r.charge n operands result := by
  induction operands generalizing n with
  | nil => rfl
  | cons token operands ih => rw [charge, charge, limitExceededBy?, limitExceededBy?, h, ih]

theorem value_cons (r : Reading) (column : Column) (token : Token) (tokens : List Token) (n : Nat) :
    r.value column ⟨token :: tokens, n⟩ =
      r.literal column n token >>= fun v => .ok (v, ⟨tokens, n + 1⟩) := rfl

theorem literal_eq_charge (column : Column) {token : Token} (h : token.isLiteral = true) :
    r.literal column n token =
      r.charge n [token]
        ((Literal.convert r.now column.type token).mapError (mismatch column token)) := by
  rw [literal, h, charge]
  rfl

theorem limitExceededBy?_of_limit {m : Nat} (hm : r.catalog.maxParameters = some m) :
    r.limitExceededBy? n = if m < n then some m else none := by
  by_cases h : m < n <;> simp [limitExceededBy?, hm, Option.filter, h]

theorem charge_of_unlimited (h : r.catalog.maxParameters = none) (operands : List Token)
    (result : Except Fault β) : r.charge n operands result = result := by
  induction operands generalizing n with
  | nil => rfl
  | cons token operands ih =>
      rw [charge, limitExceededBy?, h]
      exact ih

theorem charge_of_le {m : Nat} (hm : r.catalog.maxParameters = some m) {operands : List Token}
    (h : n + operands.length ≤ m) (result : Except Fault β) :
    r.charge n operands result = result := by
  induction operands generalizing n with
  | nil => rfl
  | cons token operands ih =>
      rw [List.length_cons] at h
      rw [charge, limitExceededBy?_of_limit hm, if_neg (by omega)]
      exact ih (by omega)

theorem charge_of_getElem? {m i : Nat} (hm : r.catalog.maxParameters = some m)
    {operands : List Token} {token : Token} (hi : n + i = m) (h : operands[i]? = some token)
    (result : Except Fault β) :
    r.charge n operands result = .error (.tooManyParameters m token.position) := by
  induction operands generalizing n i with
  | nil => cases h
  | cons first operands ih =>
      rw [charge, limitExceededBy?_of_limit hm]
      cases i with
      | zero =>
          cases h
          rw [if_pos (by omega)]
      | succ i =>
          rw [if_neg (by omega)]
          exact ih (by omega) h

def capped (m : Nat) (operands : List Token) (result : Except Fault β) : Except Fault β :=
  match operands[m]? with
  | none => result
  | some operand => .error (.tooManyParameters m operand.position)

theorem capped_of_none {m : Nat} {operands : List Token} (h : operands[m]? = none)
    (result : Except Fault β) : capped m operands result = result := by
  rw [capped, h]

theorem capped_of_some {m : Nat} {operands : List Token} {operand : Token}
    (h : operands[m]? = some operand) (result : Except Fault β) :
    capped m operands result = .error (.tooManyParameters m operand.position) := by
  rw [capped, h]

theorem charge_withLimit (r : Reading) (m : Nat) (operands : List Token)
    (result : Except Fault β) :
    (r.withLimit (some m)).charge 0 operands result = capped m operands result := by
  cases h : operands[m]? with
  | none =>
      have hlength := List.getElem?_eq_none_iff.1 h
      rw [capped_of_none h]
      exact charge_of_le rfl (by omega) result
  | some token =>
      rw [capped_of_some h]
      exact charge_of_getElem? rfl (Nat.zero_add m) h result

/-- A reading that counts the same operands under every limit has its own result without one. -/
theorem limits_of_charge {read : Reading → Except Fault β} {operands : List Token}
    (result : Except Fault β)
    (h : ∀ limit, read (r.withLimit limit) = (r.withLimit limit).charge 0 operands result)
    (m : Nat) :
    read (r.withLimit none) = result ∧
      read (r.withLimit (some m)) = capped m operands result := by
  constructor
  · rw [h none, charge_of_unlimited rfl]
  · rw [h (some m), charge_withLimit]

/-- Either all operands are allowed and nothing comes of counting them, or one of them ends the
reading, whatever would come of it. -/
theorem charge_eq_self_or_error (r : Reading) (operands : List Token) :
    (∀ result : Except Fault β, r.charge 0 operands result = result) ∨
      ∃ m token, r.catalog.maxParameters = some m ∧ operands[m]? = some token ∧
        ∀ result : Except Fault β,
          r.charge 0 operands result = .error (.tooManyParameters m token.position) := by
  cases hm : r.catalog.maxParameters with
  | none => exact .inl (charge_of_unlimited hm operands)
  | some m =>
      cases h : operands[m]? with
      | none =>
          have hlength := List.getElem?_eq_none_iff.1 h
          exact .inl (charge_of_le hm (by omega))
      | some token =>
          exact .inr ⟨m, token, rfl, h, charge_of_getElem? hm (Nat.zero_add m) h⟩

theorem eq_ok_of_charge {operands : List Token} {result : Except Fault β} {b : β}
    (h : r.charge 0 operands result = .ok b) : result = .ok b := by
  rcases charge_eq_self_or_error (β := β) r operands with hself | ⟨m, token, -, -, hover⟩
  · rw [← h, hself]
  · rw [hover] at h
    cases h

end Reading

end RecordQuery
