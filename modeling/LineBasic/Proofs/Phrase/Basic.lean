import LineBasic.Token.Vocabulary

/-!
# The forms of a line

What a line may consist of, said without a grammar: an expression is a chain of
operands with operators between them, a condition compares two expressions, and a
line is a chain of statements, perhaps behind a label. The forms are about
sequences of anything that has a tag and of which two may touch, so that they
can be read over tokens as well as over tags alone.

## Main definitions

* `IsOperand`, `IsExpression`, `IsCondition`, `IsStatement`, `IsStatements`,
  `IsLine`: the forms.

## Main results

* `isExpression_iff`: an expression is an operand and a tail.
* `IsStatement.tail_isPlain`: only the first word of a statement can be a keyword.
* `IsStatements.isInner`: no colon and no end of a line stands among statements.
-/

namespace LineBasic

/-- Whether a tag can stand within a condition: those of keywords, separators, the
end of the line and unknown characters cannot. -/
def Tag.isPlain : Tag → Bool
  | identifier | number | literal | plus | minus | times | divide | less | greater | lessEqual
  | greaterEqual | notEqual | equals | leftParen | rightParen => true
  | _ => false

/-- Whether a tag can stand among statements: that of a colon, of the end of the
line and of unknown characters cannot. -/
def Tag.isInner : Tag → Bool
  | colon | endOfLine | unknown | foreign _ _ => false
  | _ => true

theorem Tag.isInner_of_isPlain {t : Tag} (h : t.isPlain = true) : t.isInner = true := by
  cases t <;> first | rfl | exact nomatch h

theorem Tag.isPlain_of_isArithmetic {t : Tag} (h : t.isArithmetic = true) : t.isPlain = true := by
  cases t <;> first | rfl | exact nomatch h

theorem Tag.isPlain_of_isRelational {t : Tag} (h : t.isRelational = true) : t.isPlain = true := by
  cases t <;> first | rfl | exact nomatch h

section Forms

variable {τ : Type} (tag : τ → Tag) (touches : τ → τ → Prop)

mutual

/-- An operand: an identifier, a number, a sign that touches the number after it,
or an expression in parentheses. -/
inductive IsOperand : List τ → Prop
  | identifier {name : τ} (h : tag name = .identifier) : IsOperand [name]
  | number {digits : τ} (h : tag digits = .number) : IsOperand [digits]
  | signed {sign digits : τ} (hsign : tag sign = .plus ∨ tag sign = .minus)
      (hdigits : tag digits = .number) (touch : touches sign digits) : IsOperand [sign, digits]
  | group {left right : τ} {ts : List τ} (hleft : tag left = .leftParen) (h : IsExpression ts)
      (hright : tag right = .rightParen) : IsOperand (left :: ts ++ [right])

/-- An expression: operands with an arithmetic operator between every two. -/
inductive IsExpression : List τ → Prop
  | single {ts : List τ} (h : IsOperand ts) : IsExpression ts
  | chain {operator : τ} {ts us : List τ} (h : IsOperand ts)
      (hoperator : (tag operator).isArithmetic = true) (later : IsExpression us) :
      IsExpression (ts ++ operator :: us)

end

/-- What may follow an operand in an expression. -/
inductive IsTail : List τ → Prop
  | nil : IsTail []
  | cons {operator : τ} {ts : List τ} (hoperator : (tag operator).isArithmetic = true)
      (later : IsExpression tag touches ts) : IsTail (operator :: ts)

/-- A condition: a truth value, or a comparison of two expressions, perhaps in
parentheses. -/
inductive IsCondition : List τ → Prop
  | literal {value : τ} (h : tag value = .literal) : IsCondition [value]
  | comparison {operator : τ} {ts us : List τ} (h : IsExpression tag touches ts)
      (hoperator : (tag operator).isRelational = true) (h' : IsExpression tag touches us) :
      IsCondition (ts ++ operator :: us)
  | group {left operator right : τ} {ts us : List τ} (hleft : tag left = .leftParen)
      (h : IsExpression tag touches ts) (hoperator : (tag operator).isRelational = true)
      (h' : IsExpression tag touches us) (hright : tag right = .rightParen) :
      IsCondition (left :: ts ++ operator :: us ++ [right])

/-- A statement: an assignment, or a keyword and what it asks for. -/
inductive IsStatement : List τ → Prop
  | assignment {name equals : τ} {ts : List τ} (hname : tag name = .identifier)
      (hequals : tag equals = .equals) (h : IsExpression tag touches ts) :
      IsStatement (name :: equals :: ts)
  | conditional {word : τ} {ts : List τ} (hword : tag word = .ifWord)
      (h : IsCondition tag touches ts) : IsStatement (word :: ts)
  | openLoop {word : τ} {ts : List τ} (hword : tag word = .whileWord)
      (h : IsCondition tag touches ts) : IsStatement (word :: ts)
  | closeLoop {word : τ} (hword : tag word = .endwhileWord) : IsStatement [word]
  | naming {word name : τ}
      (hword : tag word = .readWord ∨ tag word = .gotoWord ∨ tag word = .gosubWord)
      (hname : tag name = .identifier) : IsStatement [word, name]
  | write {word : τ} {ts : List τ} (hword : tag word = .writeWord)
      (h : IsExpression tag touches ts) : IsStatement (word :: ts)
  | bare {word : τ}
      (hword : tag word = .returnWord ∨ tag word = .breakWord ∨ tag word = .endWord) :
      IsStatement [word]

/-- Statements with a semicolon between every two. -/
inductive IsStatements : List τ → Prop
  | single {ts : List τ} (h : IsStatement tag touches ts) : IsStatements ts
  | chain {separator : τ} {ts us : List τ} (h : IsStatement tag touches ts)
      (hseparator : tag separator = .semicolon) (later : IsStatements us) :
      IsStatements (ts ++ separator :: us)

/-- A line: statements, perhaps behind a label. -/
inductive IsLine : List τ → Prop
  | bare {ts : List τ} (h : IsStatements tag touches ts) : IsLine ts
  | labelled {name colon : τ} {ts : List τ} (hname : tag name = .identifier)
      (hcolon : tag colon = .colon) (h : IsStatements tag touches ts) :
      IsLine (name :: colon :: ts)

end Forms

variable {τ : Type} {tag : τ → Tag} {touches : τ → τ → Prop} {ts us : List τ}

theorem IsOperand.append_tail (h : IsOperand tag touches ts) (tail : IsTail tag touches us) :
    IsExpression tag touches (ts ++ us) := by
  cases tail with
  | nil =>
    rw [List.append_nil]
    exact .single h
  | cons hoperator later => exact .chain h hoperator later

/-- An expression is an operand and a tail. -/
theorem isExpression_iff :
    IsExpression tag touches ts ↔
      ∃ us vs, ts = us ++ vs ∧ IsOperand tag touches us ∧ IsTail tag touches vs := by
  constructor
  · intro h
    cases h with
    | single h => exact ⟨ts, [], (List.append_nil ts).symm, h, .nil⟩
    | chain h hoperator later => exact ⟨_, _, rfl, h, .cons hoperator later⟩
  · rintro ⟨us, vs, rfl, h, tail⟩
    exact h.append_tail tail

mutual

theorem IsOperand.isPlain {ts : List τ} :
    IsOperand tag touches ts → ∀ t ∈ ts, (tag t).isPlain = true
  | .identifier h | .number h => by simp [h, Tag.isPlain]
  | .signed hsign hdigits _ => by
    rcases hsign with hsign | hsign <;> simp [hsign, hdigits, Tag.isPlain]
  | .group hleft h hright => by
    have inside := h.isPlain
    simp only [List.cons_append, List.mem_cons, List.mem_append, List.not_mem_nil, or_false]
    rintro t (rfl | member | rfl)
    · simp [hleft, Tag.isPlain]
    · exact inside t member
    · simp [hright, Tag.isPlain]

theorem IsExpression.isPlain {ts : List τ} :
    IsExpression tag touches ts → ∀ t ∈ ts, (tag t).isPlain = true
  | .single h => h.isPlain
  | .chain h hoperator later => by
    have first := h.isPlain
    have rest := later.isPlain
    intro t member
    rcases List.mem_append.mp member with member | member
    · exact first t member
    · rcases List.mem_cons.mp member with rfl | member
      · exact Tag.isPlain_of_isArithmetic hoperator
      · exact rest t member

end

theorem IsCondition.isPlain (h : IsCondition tag touches ts) : ∀ t ∈ ts, (tag t).isPlain = true := by
  cases h with
  | literal h => simp [h, Tag.isPlain]
  | comparison h hoperator h' =>
    have left := h.isPlain
    have right := h'.isPlain
    have middle := Tag.isPlain_of_isRelational hoperator
    simp only [List.mem_append, List.mem_cons]
    rintro t (member | rfl | member)
    · exact left t member
    · exact middle
    · exact right t member
  | group hleft h hoperator h' hright =>
    have left := h.isPlain
    have right := h'.isPlain
    have middle := Tag.isPlain_of_isRelational hoperator
    simp only [List.cons_append, List.append_assoc, List.mem_append, List.mem_cons,
      List.not_mem_nil, or_false]
    rintro t (rfl | member | rfl | member | rfl)
    · simp [hleft, Tag.isPlain]
    · exact left t member
    · exact middle
    · exact right t member
    · simp [hright, Tag.isPlain]

theorem IsStatement.exists_cons (h : IsStatement tag touches ts) : ∃ t us, ts = t :: us := by
  cases h <;> exact ⟨_, _, rfl⟩

/-- Only the first word of a statement can be a keyword, and no part of a statement
separates it from another. -/
theorem IsStatement.tail_isPlain (h : IsStatement tag touches ts) :
    ∀ t ∈ ts.tail, (tag t).isPlain = true := by
  cases h with
  | assignment _ hequals h =>
    refine List.forall_mem_cons.mpr ⟨?_, h.isPlain⟩
    simp [hequals, Tag.isPlain]
  | conditional _ h | openLoop _ h | write _ h => exact h.isPlain
  | closeLoop | bare => exact fun _ member => absurd member List.not_mem_nil
  | naming _ hname => simp [hname, Tag.isPlain]

theorem IsStatement.isInner (h : IsStatement tag touches ts) :
    ∀ t ∈ ts, (tag t).isInner = true := by
  -- the first word is looked at in each form; behind it all is plain
  have later : ∀ t ∈ ts.tail, (tag t).isInner = true :=
    fun t member => Tag.isInner_of_isPlain (h.tail_isPlain t member)
  cases h with
  | assignment hfirst | conditional hfirst | openLoop hfirst | closeLoop hfirst | write hfirst =>
    exact List.forall_mem_cons.mpr ⟨by simp [hfirst, Tag.isInner], later⟩
  | naming hword | bare hword =>
    refine List.forall_mem_cons.mpr ⟨?_, later⟩
    rcases hword with hword | hword | hword <;> simp [hword, Tag.isInner]

/-- No colon and no end of a line stands among statements. -/
theorem IsStatements.isInner (h : IsStatements tag touches ts) :
    ∀ t ∈ ts, (tag t).isInner = true := by
  induction h with
  | single h => exact h.isInner
  | chain h hseparator _ ih =>
    intro t member
    rcases List.mem_append.mp member with member | member
    · exact h.isInner t member
    · rcases List.mem_cons.mp member with rfl | member
      · simp [hseparator, Tag.isInner]
      · exact ih t member

end LineBasic
