import LineBasic.Proofs.Phrase.Meaning

/-!
# Parse trees of lines

Every form of a line can be built from the productions of the grammar, although
these split it differently: an expression is taken apart into its first operand
and the rest, statements into the first one and the rest, and a comparison that
begins with a parenthesis where the parenthesis closes.

## Main definitions

* `Grows`: whether there are parse trees over a sequence.

## Main results

* `isLine_iff_exists_tree`: a sequence is a line just when it has a parse tree in
  which signs touch their numbers.
-/

namespace LineBasic.Grammar

variable {τ : Type} {tag : τ → Tag} {touches : τ → τ → Prop} {s : Symbol} {p : Production}
  {u v : List Symbol} {ts us : List τ}

/-- Whether there are parse trees over a sequence in which signs touch their
numbers. -/
def Grows (tag : τ → Tag) (touches : τ → τ → Prop) (u : List Symbol) (ts : List τ) : Prop :=
  ∃ f : Forest τ, (f.Valid ofLines fun t => (tag t).name) ∧
    f.SignsTouch (fun t => (tag t).name) touches ∧
    (f.roots fun t => (tag t).name) = u ∧ f.yield = ts

theorem Grows.nil : Grows tag touches [] [] :=
  ⟨.nil, trivial, trivial, rfl, rfl⟩

theorem Grows.append (h : Grows tag touches u ts) (h' : Grows tag touches v us) :
    Grows tag touches (u ++ v) (ts ++ us) := by
  obtain ⟨e, valid, touch, rfl, rfl⟩ := h
  obtain ⟨f, valid', touch', rfl, rfl⟩ := h'
  exact ⟨e.append f, Forest.valid_append.mpr ⟨valid, valid'⟩, touch.append touch',
    Forest.roots_append, Forest.yield_append⟩

/-- A token before parse trees is a leaf before them. -/
theorem Grows.cons {token : τ} {t : Tag} (same : tag token = t) (h : Grows tag touches u ts)
    (known : t.isReserved = true) : Grows tag touches (t.name :: u) (token :: ts) := by
  obtain ⟨f, valid, touch, rfl, rfl⟩ := h
  subst same
  exact ⟨.leaf token f, ⟨isTerminal_name known, valid⟩, touch, rfl, rfl⟩

theorem Grows.token {token : τ} {t : Tag} (same : tag token = t) (known : t.isReserved = true) :
    Grows tag touches [t.name] [token] :=
  .cons same .nil known

/-- Parse trees over a production grow together into one tree. -/
theorem Grows.node (h : Grows tag touches p ts) (chosen : p ∈ ofLines.productions s)
    (touch : signedNumber <+: p → BeginsTouching touches ts) : Grows tag touches [s] ts := by
  obtain ⟨f, valid, inside, rfl, rfl⟩ := h
  obtain ⟨choice, place⟩ := List.mem_iff_getElem?.mp chosen
  refine ⟨.node s choice f .nil, ⟨?_, valid, trivial⟩, ⟨touch, inside, trivial⟩, rfl, ?_⟩
  · rw [place, Option.map_some, spelled_eq_of_mem_productions chosen]
  · rw [Forest.yield, Forest.yield, List.append_nil]

/-- Whether a nonterminal has a production, and this begins with no signed number. -/
def hasUnsigned (s : Symbol) (p : Production) : Bool :=
  (ofLines.productions s).contains p && !signedNumber.isPrefixOf p

/-- Parse trees over a production that begins with no signed number grow together
into one tree. -/
theorem Grows.plainNode (h : Grows tag touches p ts) (chosen : hasUnsigned s p = true) :
    Grows tag touches [s] ts := by
  rw [hasUnsigned, Bool.and_eq_true, List.contains_iff_mem, Bool.not_eq_true'] at chosen
  refine h.node chosen.1 fun signed => ?_
  rw [List.isPrefixOf_iff_prefix.mpr signed] at chosen
  exact nomatch chosen.2

theorem grows_sign {sign : τ} (h : tag sign = .plus ∨ tag sign = .minus) :
    Grows tag touches ["sign"] [sign] := by
  rcases h with h | h
  · exact (Grows.token h rfl).plainNode rfl
  · exact (Grows.token h rfl).plainNode rfl

theorem grows_arith {operator : τ} (h : (tag operator).isArithmetic = true) :
    Grows tag touches ["arith"] [operator] := by
  cases same : tag operator with
  | plus | minus | times | divide => exact (Grows.token same rfl).plainNode rfl
  | _ => rw [same] at h; exact nomatch h

theorem grows_relop {operator : τ} (h : (tag operator).isRelational = true) :
    Grows tag touches ["relop"] [operator] := by
  cases same : tag operator with
  | less | greater | lessEqual | greaterEqual | notEqual | equals =>
    exact (Grows.token same rfl).plainNode rfl
  | _ => rw [same] at h; exact nomatch h

theorem grows_etail_nil : Grows tag touches ["etail"] [] :=
  Grows.nil.plainNode rfl

theorem Grows.chain {operator : τ} (hoperator : (tag operator).isArithmetic = true)
    (later : Grows tag touches ["expr"] ts) : Grows tag touches ["etail"] (operator :: ts) :=
  ((grows_arith hoperator).append later).plainNode rfl

mutual

theorem grows_of_isOperand {ts : List τ} :
    IsOperand tag touches ts → Grows tag touches ["operand"] ts
  | .identifier hname => (Grows.token hname rfl).plainNode rfl
  | .number hdigits => (Grows.token hdigits rfl).plainNode rfl
  | .signed hsign hdigits touch =>
    ((grows_sign hsign).append (.token hdigits rfl)).node (by decide) fun _ => touch
  | .group hleft inside hright => by
    have inside := (grows_of_isExpression inside).append (.token hright rfl)
    exact (Grows.cons hleft inside rfl).plainNode rfl

theorem grows_of_isExpression {ts : List τ} :
    IsExpression tag touches ts → Grows tag touches ["expr"] ts
  | .single h => by
    have whole := (grows_of_isOperand h).append grows_etail_nil
    rw [List.append_nil] at whole
    exact whole.plainNode rfl
  | .chain h hoperator later =>
    ((grows_of_isOperand h).append ((grows_of_isExpression later).chain hoperator)).plainNode rfl

end

theorem grows_of_isTail (h : IsTail tag touches ts) : Grows tag touches ["etail"] ts := by
  cases h with
  | nil => exact grows_etail_nil
  | cons hoperator later => exact (grows_of_isExpression later).chain hoperator

theorem grows_of_isCondition (h : IsCondition tag touches ts) :
    Grows tag touches ["boolean"] ts := by
  cases h with
  | literal hvalue => exact (Grows.token hvalue rfl).plainNode rfl
  | comparison h hoperator h' =>
    -- the grammar has no expression here: the first operand decides on the production
    obtain ⟨os, vs, rfl, operand, tail⟩ := isExpression_iff.mp h
    have later := (grows_relop hoperator).append (grows_of_isExpression h')
    have later := (grows_of_isTail tail).append later
    rw [List.append_assoc]
    cases operand with
    | identifier hname => exact (Grows.cons hname later rfl).plainNode rfl
    | number hdigits => exact (Grows.cons hdigits later rfl).plainNode rfl
    | signed hsign hdigits touch =>
      exact ((grows_sign hsign).append (.cons hdigits later rfl)).node (by decide) fun _ => touch
    | group hleft inside hright =>
      -- the parenthesis closes before the operator
      have close : Grows tag touches ["pbtail"] _ := (Grows.cons hright later rfl).plainNode rfl
      have inner : Grows tag touches ["pbool"] _ :=
        ((grows_of_isExpression inside).append close).plainNode rfl
      have whole : Grows tag touches ["boolean"] _ := (Grows.cons hleft inner rfl).plainNode rfl
      simpa only [List.cons_append, List.nil_append, List.append_assoc] using whole
  | group hleft h hoperator h' hright =>
    -- the parenthesis closes behind the whole comparison
    have second := (grows_of_isExpression h').append (.token hright rfl)
    have close : Grows tag touches ["pbtail"] _ :=
      ((grows_relop hoperator).append second).plainNode rfl
    have inner : Grows tag touches ["pbool"] _ :=
      ((grows_of_isExpression h).append close).plainNode rfl
    have whole : Grows tag touches ["boolean"] _ := (Grows.cons hleft inner rfl).plainNode rfl
    simpa only [List.cons_append, List.nil_append, List.append_assoc] using whole

/-- A statement is an assignment, or a keyword begins it. -/
theorem grows_of_isStatement (h : IsStatement tag touches ts) :
    (∃ name equals us, ts = name :: equals :: us ∧ tag name = .identifier ∧
      tag equals = .equals ∧ IsExpression tag touches us) ∨
    Grows tag touches ["keyword_stmt"] ts := by
  cases h with
  | assignment hname hequals h => exact .inl ⟨_, _, _, rfl, hname, hequals, h⟩
  | conditional hword h | openLoop hword h =>
    exact .inr ((Grows.cons hword (grows_of_isCondition h) rfl).plainNode rfl)
  | closeLoop hword => exact .inr ((Grows.token hword rfl).plainNode rfl)
  | naming hword hname =>
    rcases hword with hword | hword | hword
    all_goals exact .inr ((Grows.cons hword (.token hname rfl) rfl).plainNode rfl)
  | write hword h => exact .inr ((Grows.cons hword (grows_of_isExpression h) rfl).plainNode rfl)
  | bare hword =>
    rcases hword with hword | hword | hword
    all_goals exact .inr ((Grows.token hword rfl).plainNode rfl)

theorem grows_stmt (h : IsStatement tag touches ts) : Grows tag touches ["stmt"] ts := by
  rcases grows_of_isStatement h with ⟨name, equals, us, rfl, hname, hequals, value⟩ | keyword
  · have value := Grows.cons hequals (grows_of_isExpression value) rfl
    exact (Grows.cons hname value rfl).plainNode rfl
  · exact keyword.plainNode rfl

/-- Statements are a first one and a tail. -/
theorem exists_linetail_of_isStatements (h : IsStatements tag touches ts) :
    ∃ us vs, ts = us ++ vs ∧ IsStatement tag touches us ∧ Grows tag touches ["linetail"] vs := by
  induction h with
  | single h => exact ⟨_, [], (List.append_nil _).symm, h, Grows.nil.plainNode rfl⟩
  | chain h hseparator _ ih =>
    obtain ⟨us, vs, rfl, next, tail⟩ := ih
    have later := Grows.cons hseparator ((grows_stmt next).append tail) rfl
    exact ⟨_, _, rfl, h, later.plainNode rfl⟩

theorem grows_of_isLine (h : IsLine tag touches ts) : Grows tag touches ["line"] ts := by
  cases h with
  | bare h =>
    obtain ⟨us, vs, rfl, first, tail⟩ := exists_linetail_of_isStatements h
    rcases grows_of_isStatement first with ⟨name, equals, us, rfl, hname, hequals, value⟩ | keyword
    · -- an assignment shares its first token with a label
      have rest := Grows.cons hequals ((grows_of_isExpression value).append tail) rfl
      have behind : Grows tag touches ["after_ident"] _ := rest.plainNode rfl
      exact (Grows.cons hname behind rfl).plainNode rfl
    · exact (keyword.append tail).plainNode rfl
  | labelled hname hcolon h =>
    obtain ⟨us, vs, rfl, first, tail⟩ := exists_linetail_of_isStatements h
    have rest := Grows.cons hcolon ((grows_stmt first).append tail) rfl
    have behind : Grows tag touches ["after_ident"] _ := rest.plainNode rfl
    exact (Grows.cons hname behind rfl).plainNode rfl

/-- A sequence is a line just when it has a parse tree in which signs touch their
numbers. -/
theorem isLine_iff_exists_tree :
    IsLine tag touches ts ↔ ∃ f : Forest τ,
      ofLines.IsParseTree (fun t => (tag t).name) lineSymbol f ∧
        f.SignsTouch (fun t => (tag t).name) touches ∧ f.yield = ts := by
  constructor
  · intro h
    obtain ⟨f, valid, touch, roots, same⟩ := grows_of_isLine h
    exact ⟨f, ⟨roots, valid⟩, touch, same⟩
  · rintro ⟨f, ⟨roots, valid⟩, touch, rfl⟩
    have meaning := meansAll_yield valid touch
    rw [roots] at meaning
    exact meaning.last

end LineBasic.Grammar
