import RecordQuery.Proofs.Grammar
import RecordQuery.Proofs.Grammar.Operands

/-!
# Other spellings of a query

Of the text of a token only two things matter: what it is as an operand, and which column it names.
An operand is converted by its text, and its kind counts only on a document column. A name may be
any other name of its column. Which of the two a literal is, and on which column an operand is
tested, depends on the tokens ahead of it, as `Standing` keeps track of.

`Respelled` compares two queries token by token. Places do not occur in it, so that tokens may be
moved.
-/

namespace RecordQuery

/-- Where a value is asked for, the next slot does not depend on what is there. -/
theorem Slot.next_of_asksForValue {s : Slot} (h : s.asksForValue = true) (kind kind' : TokenKind) :
    s.next kind = s.next kind' := by
  cases s with
  | operand | bound => rfl
  | other | conjunction | list | sortKey => cases h

@[ext]
structure Standing where
  slot : Slot := .other
  /-- The column that was named last. -/
  column : Option Column := none

namespace Standing

def next (catalog : Catalog) (p : Standing) (token : Token) : Standing where
  slot := p.slot.next token.kind
  column :=
    if token.kind = .identifier ∧ p.slot.asksForValue = false then catalog.resolve token.text
    else p.column

def after (catalog : Catalog) (p : Standing) (tokens : List Token) : Standing :=
  tokens.foldl (next catalog) p

/-- The next token is an operand, if it is a literal, and the column is the one it is held
against. -/
structure AsksFor (p : Standing) (column : Column) : Prop where
  slot : p.slot.asksForValue = true
  column : p.column = some column

variable {catalog : Catalog} {p : Standing}

theorem slot_after (tokens : List Token) : (p.after catalog tokens).slot = p.slot.after tokens := by
  induction tokens generalizing p with
  | nil => rfl
  | cons token tokens ih => exact ih

theorem column_next {token : Token}
    (h : token.kind ≠ .identifier ∨ p.slot.asksForValue = true) :
    (p.next catalog token).column = p.column := by
  rw [next, if_neg]
  rintro ⟨hkind, hslot⟩
  rcases h with h | h
  · exact h hkind
  · rw [hslot] at h
    cases h

theorem next_of_kind {token : Token} {kind : TokenKind} (h : token.kind = kind)
    (hkind : kind ≠ .identifier) : p.next catalog token = ⟨p.slot.next kind, p.column⟩ := by
  ext1
  · exact congrArg p.slot.next h
  · exact column_next (.inl (h ▸ hkind))

end Standing

inductive Token.Respells (catalog : Catalog) (p : Standing) (a b : Token) : Prop
  /-- The text of a literal is the same, and that of any other token does not matter. -/
  | spelled : b.kind = a.kind → (a.isLiteral = true → b.text = a.text) → Respells catalog p a b
  /-- Both name the same column, or neither of them a column. -/
  | named : p.slot.asksForValue = false → a.kind = .identifier → b.kind = .identifier →
      catalog.resolve b.text = catalog.resolve a.text → Respells catalog p a b
  /-- Both are operands with the same text, on a column for which their kind does not count. -/
  | quoted {column : Column} : p.AsksFor column → column.type ≠ .json → a.isLiteral = true →
      b.isLiteral = true → b.text = a.text → Respells catalog p a b

namespace Token.Respells

variable {catalog : Catalog} {p : Standing} {a b : Token}

theorem refl (catalog : Catalog) (p : Standing) (a : Token) : a.Respells catalog p a :=
  .spelled rfl fun _ => rfl

theorem kind_eq (h : a.Respells catalog p b) (hp : p.slot.asksForValue = false) :
    b.kind = a.kind := by
  cases h with
  | spelled hkind _ => exact hkind
  | named _ ha hb _ => rw [ha, hb]
  | quoted hasks _ _ _ _ =>
      rw [hasks.slot] at hp
      cases hp

theorem resolve_eq (h : a.Respells catalog p b) (hp : p.slot.asksForValue = false)
    (ha : a.kind = .identifier) : catalog.resolve b.text = catalog.resolve a.text := by
  cases h with
  | spelled _ htext => rw [htext (by rw [isLiteral, ha]; rfl)]
  | named _ _ _ hresolve => exact hresolve
  | quoted hasks _ _ _ _ =>
      rw [hasks.slot] at hp
      cases hp

theorem text_eq (h : a.Respells catalog p b) (hp : p.slot.asksForValue = false)
    (ha : a.kind = .string) : b.text = a.text := by
  cases h with
  | spelled _ htext => exact htext (by rw [isLiteral, ha]; rfl)
  | named _ hname _ _ =>
      rw [ha] at hname
      cases hname
  | quoted hasks _ _ _ _ =>
      rw [hasks.slot] at hp
      cases hp

theorem isLiteral_eq (h : a.Respells catalog p b) : b.isLiteral = a.isLiteral := by
  cases h with
  | spelled hkind _ => rw [isLiteral, isLiteral, hkind]
  | named _ ha hb _ => rw [isLiteral, isLiteral, ha, hb]
  | quoted _ _ ha hb _ => rw [ha, hb]

theorem kind_eq_iff (h : a.Respells catalog p b) {kind : TokenKind}
    (hkind : kind.isLiteral = false) : b.kind = kind ↔ a.kind = kind := by
  have hne {t : Token} (ht : t.isLiteral = true) : t.kind ≠ kind := by
    rintro rfl
    rw [isLiteral, hkind] at ht
    cases ht
  cases h with
  | spelled hsame _ => rw [hsame]
  | named _ ha hb _ => rw [ha, hb]
  | quoted _ _ ha hb _ => exact iff_of_false (hne hb) (hne ha)

/-- The text of an operand is the same, and so is its kind where that counts. -/
theorem operand_eq {column : Column} (h : a.Respells catalog p b) (hp : p.AsksFor column)
    (ha : a.isLiteral = true) : b.text = a.text ∧ (column.type = .json → b.kind = a.kind) := by
  cases h with
  | spelled hkind htext => exact ⟨htext ha, fun _ => hkind⟩
  | named hslot _ _ _ =>
      rw [hp.slot] at hslot
      cases hslot
  | quoted hasks hjson _ _ htext =>
      have hsame : some _ = some column := hasks.column.symm.trans hp.column
      cases hsame
      exact ⟨htext, fun h => absurd h hjson⟩

end Token.Respells

/-- One query is another one in other spellings, token by token. The first tokens stand as `p` says,
and tokens in the same place of the two queries are related by `Paired`. -/
inductive Respelled (catalog : Catalog) (Paired : Token → Token → Prop) :
    Standing → List Token → List Token → Prop
  | nil {p : Standing} : Respelled catalog Paired p [] []
  | cons {p : Standing} {a b : Token} {as bs : List Token} :
      Paired a b → a.Respells catalog p b → Respelled catalog Paired (p.next catalog a) as bs →
      Respelled catalog Paired p (a :: as) (b :: bs)

namespace Respelled

variable {catalog : Catalog} {Paired : Token → Token → Prop} {p : Standing} {as bs : List Token}

theorem length_eq (h : Respelled catalog Paired p as bs) : bs.length = as.length := by
  induction h with
  | nil => rfl
  | cons _ _ _ ih => rw [List.length_cons, List.length_cons, ih]

/-- A token that is neither an operand nor a name is spelled as one of its kind. -/
theorem uncons {a : Token} (h : Respelled catalog Paired p (a :: as) bs) {kind : TokenKind}
    (ha : a.kind = kind) (hkind : kind ≠ .identifier) (hp : p.slot.asksForValue = false) :
    ∃ b rest, bs = b :: rest ∧ Paired a b ∧ a.Respells catalog p b ∧ b.kind = kind ∧
      Respelled catalog Paired ⟨p.slot.next kind, p.column⟩ as rest := by
  cases h with
  | cons hpaired hab htokens =>
      rw [Standing.next_of_kind ha hkind] at htokens
      exact ⟨_, _, rfl, hpaired, hab, (hab.kind_eq hp).trans ha, htokens⟩

end Respelled

end RecordQuery
