import LineBasic.Grammar.OfLines
import LineBasic.Proofs.Grammar.ParseForest
import LineBasic.Proofs.Phrase.Basic
import Mathlib.Tactic.FinCases

/-!
# What the symbols of the grammar stand for

The grammar of a line splits the forms of a line so that one symbol decides every
choice. What its nonterminals stand for is therefore partly a whole form and partly
the end of one: the tail of a line, say, is whatever makes statements
when a statement comes before it. Read this way, every production keeps to the
forms.

## Main definitions

* `Forest.SignsTouch`: whether the signs of a parse tree touch their numbers.
* `Means`: what the symbols of the grammar stand for.

## Main results

* `sound_of_mem_productions`: every production keeps to the forms.
* `meansAll_yield`: the tokens under parse trees are what the roots stand for.
-/

namespace LineBasic

/-- Whether a sequence begins with two members that touch. -/
def BeginsTouching {τ : Type} (touches : τ → τ → Prop) : List τ → Prop
  | sign :: digits :: _ => touches sign digits
  | _ => False

/-- What a production begins with that begins with a signed number. -/
def signedNumber : List Symbol := ["sign", "NUMBER"]

/-- Whether the sign touches the digits wherever a node has a signed number. -/
def Forest.SignsTouch {τ : Type} (label : τ → Symbol) (touches : τ → τ → Prop) : Forest τ → Prop
  | nil => True
  | leaf _ rest => rest.SignsTouch label touches
  | node _ _ children rest =>
    (signedNumber <+: children.roots label → BeginsTouching touches children.yield) ∧
      children.SignsTouch label touches ∧ rest.SignsTouch label touches

theorem Forest.SignsTouch.append {τ : Type} {label : τ → Symbol} {touches : τ → τ → Prop}
    {e f : Forest τ} (h : e.SignsTouch label touches) (h' : f.SignsTouch label touches) :
    (e.append f).SignsTouch label touches := by
  induction e with
  | nil => exact h'
  | leaf token rest ih => exact ih h
  | node symbol choice children rest _ ih => exact ⟨h.1, h.2.1, ih h.2.2⟩

/-- Whether a tag belongs to the language. -/
def Tag.isReserved : Tag → Bool
  | foreign _ _ => false
  | _ => true

namespace Grammar

section Meaning

variable {τ : Type} (tag : τ → Tag) (touches : τ → τ → Prop)

/-- A single token with a tag of a certain kind. -/
def IsToken (kind : Tag → Prop) (ts : List τ) : Prop :=
  ∃ t, ts = [t] ∧ kind (tag t)

/-- What a symbol of the grammar stands for. A terminal stands for one token. -/
def Means : Symbol → List τ → Prop
  | "line" => IsLine tag touches
  -- behind an identifier a line goes on as a label or as an assignment
  | "after_ident" => fun ts => ∀ name, tag name = .identifier → IsLine tag touches (name :: ts)
  | "stmt" | "keyword_stmt" => IsStatement tag touches
  | "linetail" => fun ts =>
    ∀ us, IsStatement tag touches us → IsStatements tag touches (us ++ ts)
  | "expr" => IsExpression tag touches
  | "operand" => IsOperand tag touches
  | "sign" => IsToken tag fun t => t = .plus ∨ t = .minus
  | "etail" => IsTail tag touches
  | "arith" => IsToken tag fun t => t.isArithmetic = true
  | "boolean" => IsCondition tag touches
  -- behind a parenthesis a condition goes on, and behind the expression in it
  | "pbool" => fun ts => ∀ left, tag left = .leftParen → IsCondition tag touches (left :: ts)
  | "pbtail" => fun ts => ∀ left us, tag left = .leftParen → IsExpression tag touches us →
    IsCondition tag touches (left :: (us ++ ts))
  | "relop" => IsToken tag fun t => t.isRelational = true
  | s => IsToken tag fun t => t.name = s

/-- What a sequence of symbols stands for: what its symbols stand for, one after
another. -/
def MeansAll : List Symbol → List τ → Prop
  | [], ts => ts = []
  | s :: u, ts => ∃ us vs, ts = us ++ vs ∧ Means tag touches s us ∧ MeansAll u vs

end Meaning

variable {τ : Type} {tag : τ → Tag} {touches : τ → τ → Prop} {s : Symbol} {p : Production}
  {u v : List Symbol} {ts us : List τ}

theorem means_iff_of_isTerminal (terminal : ofLines.isNonterminal s = false) :
    Means tag touches s ts ↔ IsToken tag (fun t => t.name = s) ts := by
  -- all other symbols that `Means` names are nonterminals
  unfold Means
  split <;> first | rfl | exact absurd terminal (by decide)

/-- The names of the tags of the language are terminals of its grammar. -/
theorem isTerminal_name {t : Tag} (known : t.isReserved = true) : ofLines.IsTerminal t.name := by
  cases t with
  | foreign => exact nomatch known
  | _ => decide

/-- A terminal at the head of a form stands for one token. -/
theorem MeansAll.token {t : Tag} (h : MeansAll tag touches (t.name :: u) ts)
    (known : t.isReserved = true) :
    ∃ token us, ts = token :: us ∧ tag token = t ∧ MeansAll tag touches u us := by
  obtain ⟨us, vs, rfl, here, later⟩ := h
  obtain ⟨token, rfl, same⟩ := (means_iff_of_isTerminal (isTerminal_name known).2).mp here
  exact ⟨token, vs, rfl, Tag.name_injective same, later⟩

theorem MeansAll.last (h : MeansAll tag touches [s] ts) : Means tag touches s ts := by
  obtain ⟨us, vs, rfl, here, rfl⟩ := h
  rw [List.append_nil]
  exact here

/-- Whether whatever a production stands for is what its nonterminal stands for,
provided that a sign in front touches its number. -/
def Sound (tag : τ → Tag) (touches : τ → τ → Prop) (s : Symbol) (p : Production) : Prop :=
  ∀ ts, MeansAll tag touches p ts → (signedNumber <+: p → BeginsTouching touches ts) →
    Means tag touches s ts

theorem sound_operand : ∀ p ∈ ofLines.productions "operand", Sound tag touches "operand" p := by
  intro p member ts h touch
  fin_cases member
  · obtain ⟨name, us, rfl, hname, rfl⟩ := h.token (t := .identifier) rfl
    exact IsOperand.identifier hname
  · obtain ⟨digits, us, rfl, hdigits, rfl⟩ := h.token (t := .number) rfl
    exact IsOperand.number hdigits
  · obtain ⟨us, vs, rfl, ⟨sign, rfl, hsign⟩, h⟩ := h
    obtain ⟨digits, us, rfl, hdigits, rfl⟩ := h.token (t := .number) rfl
    exact IsOperand.signed hsign hdigits (touch (List.prefix_refl _))
  · obtain ⟨left, us, rfl, hleft, us, vs, rfl, inside, h⟩ := h.token (t := .leftParen) rfl
    obtain ⟨right, us, rfl, hright, rfl⟩ := h.token (t := .rightParen) rfl
    exact IsOperand.group hleft inside hright

/-- A production of a single terminal stands for a token with its tag. -/
theorem isToken_of_meansAll {t : Tag} {kind : Tag → Prop}
    (h : MeansAll tag touches [t.name] ts) (hkind : kind t) (known : t.isReserved = true) :
    IsToken tag kind ts := by
  obtain ⟨token, us, rfl, same, rfl⟩ := h.token known
  exact ⟨token, rfl, same ▸ hkind⟩

theorem sound_sign : ∀ p ∈ ofLines.productions "sign", Sound tag touches "sign" p := by
  intro p member ts h _
  change IsToken tag (fun t => t = .plus ∨ t = .minus) ts
  fin_cases member
  · exact isToken_of_meansAll (t := .plus) h (.inl rfl) rfl
  · exact isToken_of_meansAll (t := .minus) h (.inr rfl) rfl

theorem sound_arith : ∀ p ∈ ofLines.productions "arith", Sound tag touches "arith" p := by
  intro p member ts h _
  change IsToken tag (fun t => t.isArithmetic = true) ts
  fin_cases member
  · exact isToken_of_meansAll (t := .plus) h rfl rfl
  · exact isToken_of_meansAll (t := .minus) h rfl rfl
  · exact isToken_of_meansAll (t := .times) h rfl rfl
  · exact isToken_of_meansAll (t := .divide) h rfl rfl

theorem sound_relop : ∀ p ∈ ofLines.productions "relop", Sound tag touches "relop" p := by
  intro p member ts h _
  change IsToken tag (fun t => t.isRelational = true) ts
  fin_cases member
  · exact isToken_of_meansAll (t := .less) h rfl rfl
  · exact isToken_of_meansAll (t := .greater) h rfl rfl
  · exact isToken_of_meansAll (t := .lessEqual) h rfl rfl
  · exact isToken_of_meansAll (t := .greaterEqual) h rfl rfl
  · exact isToken_of_meansAll (t := .notEqual) h rfl rfl
  · exact isToken_of_meansAll (t := .equals) h rfl rfl

theorem sound_expr : ∀ p ∈ ofLines.productions "expr", Sound tag touches "expr" p := by
  intro p member ts h _
  fin_cases member
  obtain ⟨us, vs, rfl, operand, h⟩ := h
  exact operand.append_tail h.last

theorem sound_etail : ∀ p ∈ ofLines.productions "etail", Sound tag touches "etail" p := by
  intro p member ts h _
  fin_cases member
  · obtain ⟨os, vs, rfl, ⟨operator, rfl, hoperator⟩, h⟩ := h
    exact IsTail.cons hoperator h.last
  · obtain rfl : ts = [] := h
    exact IsTail.nil

/-- An operand and its tail, a comparison operator and another expression form a
condition. -/
theorem isCondition_of_meansAll (operand : IsOperand tag touches us)
    (h : MeansAll tag touches ["etail", "relop", "expr"] ts) :
    IsCondition tag touches (us ++ ts) := by
  obtain ⟨tail, rest, rfl, htail, os, vs, rfl, ⟨operator, rfl, hoperator⟩, h⟩ := h
  rw [← List.append_assoc]
  exact IsCondition.comparison (operand.append_tail htail) hoperator h.last

theorem sound_boolean : ∀ p ∈ ofLines.productions "boolean", Sound tag touches "boolean" p := by
  intro p member ts h touch
  fin_cases member
  · obtain ⟨value, us, rfl, hvalue, rfl⟩ := h.token (t := .literal) rfl
    exact IsCondition.literal hvalue
  · obtain ⟨name, us, rfl, hname, h⟩ := h.token (t := .identifier) rfl
    exact isCondition_of_meansAll (.identifier hname) h
  · obtain ⟨digits, us, rfl, hdigits, h⟩ := h.token (t := .number) rfl
    exact isCondition_of_meansAll (.number hdigits) h
  · obtain ⟨us, vs, rfl, ⟨sign, rfl, hsign⟩, h⟩ := h
    obtain ⟨digits, us, rfl, hdigits, h⟩ := h.token (t := .number) rfl
    have operand : IsOperand tag touches [sign, digits] :=
      .signed hsign hdigits (touch (List.prefix_append signedNumber _))
    have whole := isCondition_of_meansAll operand h
    exact whole
  · obtain ⟨left, us, rfl, hleft, h⟩ := h.token (t := .leftParen) rfl
    exact h.last left hleft

theorem sound_pbool : ∀ p ∈ ofLines.productions "pbool", Sound tag touches "pbool" p := by
  intro p member ts h _ left hleft
  fin_cases member
  obtain ⟨us, vs, rfl, inside, h⟩ := h
  exact h.last left us hleft inside

theorem sound_pbtail : ∀ p ∈ ofLines.productions "pbtail", Sound tag touches "pbtail" p := by
  intro p member ts h _ left us hleft inside
  fin_cases member
  · obtain ⟨os, vs, rfl, ⟨operator, rfl, hoperator⟩, vs, ws, rfl, right, h⟩ := h
    obtain ⟨closing, ws, rfl, hclosing, rfl⟩ := h.token (t := .rightParen) rfl
    have whole := IsCondition.group hleft inside hoperator right hclosing
    simpa only [List.cons_append, List.nil_append, List.append_assoc] using whole
  · obtain ⟨closing, vs, rfl, hclosing, h⟩ := h.token (t := .rightParen) rfl
    have whole := isCondition_of_meansAll (.group hleft inside hclosing) h
    simpa only [List.cons_append, List.nil_append, List.append_assoc] using whole

theorem sound_keyword_stmt :
    ∀ p ∈ ofLines.productions "keyword_stmt", Sound tag touches "keyword_stmt" p := by
  intro p member ts h _
  fin_cases member
  · obtain ⟨word, us, rfl, hword, h⟩ := h.token (t := .ifWord) rfl
    exact IsStatement.conditional hword h.last
  · obtain ⟨word, us, rfl, hword, h⟩ := h.token (t := .whileWord) rfl
    exact IsStatement.openLoop hword h.last
  · obtain ⟨word, us, rfl, hword, rfl⟩ := h.token (t := .endwhileWord) rfl
    exact IsStatement.closeLoop hword
  · obtain ⟨word, us, rfl, hword, h⟩ := h.token (t := .readWord) rfl
    obtain ⟨name, us, rfl, hname, rfl⟩ := h.token (t := .identifier) rfl
    exact IsStatement.naming (.inl hword) hname
  · obtain ⟨word, us, rfl, hword, h⟩ := h.token (t := .writeWord) rfl
    exact IsStatement.write hword h.last
  · obtain ⟨word, us, rfl, hword, h⟩ := h.token (t := .gotoWord) rfl
    obtain ⟨name, us, rfl, hname, rfl⟩ := h.token (t := .identifier) rfl
    exact IsStatement.naming (.inr (.inl hword)) hname
  · obtain ⟨word, us, rfl, hword, h⟩ := h.token (t := .gosubWord) rfl
    obtain ⟨name, us, rfl, hname, rfl⟩ := h.token (t := .identifier) rfl
    exact IsStatement.naming (.inr (.inr hword)) hname
  · obtain ⟨word, us, rfl, hword, rfl⟩ := h.token (t := .returnWord) rfl
    exact IsStatement.bare (.inl hword)
  · obtain ⟨word, us, rfl, hword, rfl⟩ := h.token (t := .breakWord) rfl
    exact IsStatement.bare (.inr (.inl hword))
  · obtain ⟨word, us, rfl, hword, rfl⟩ := h.token (t := .endWord) rfl
    exact IsStatement.bare (.inr (.inr hword))

theorem sound_stmt : ∀ p ∈ ofLines.productions "stmt", Sound tag touches "stmt" p := by
  intro p member ts h _
  fin_cases member
  · obtain ⟨name, us, rfl, hname, h⟩ := h.token (t := .identifier) rfl
    obtain ⟨equals, us, rfl, hequals, h⟩ := h.token (t := .equals) rfl
    exact IsStatement.assignment hname hequals h.last
  · exact h.last

theorem sound_linetail :
    ∀ p ∈ ofLines.productions "linetail", Sound tag touches "linetail" p := by
  intro p member ts h _ us hstatement
  fin_cases member
  · obtain ⟨separator, vs, rfl, hseparator, vs, ws, rfl, hnext, h⟩ := h.token (t := .semicolon) rfl
    exact IsStatements.chain hstatement hseparator (h.last vs hnext)
  · obtain rfl : ts = [] := h
    rw [List.append_nil]
    exact IsStatements.single hstatement

theorem sound_after_ident :
    ∀ p ∈ ofLines.productions "after_ident", Sound tag touches "after_ident" p := by
  intro p member ts h _ name hname
  fin_cases member
  · obtain ⟨colon, us, rfl, hcolon, us, vs, rfl, hstatement, h⟩ := h.token (t := .colon) rfl
    exact IsLine.labelled hname hcolon (h.last us hstatement)
  · obtain ⟨equals, us, rfl, hequals, us, vs, rfl, hvalue, h⟩ := h.token (t := .equals) rfl
    exact IsLine.bare (h.last _ (IsStatement.assignment hname hequals hvalue))

theorem sound_line : ∀ p ∈ ofLines.productions "line", Sound tag touches "line" p := by
  intro p member ts h _
  fin_cases member
  · obtain ⟨name, us, rfl, hname, h⟩ := h.token (t := .identifier) rfl
    exact h.last name hname
  · obtain ⟨us, vs, rfl, hstatement, h⟩ := h
    exact IsLine.bare (h.last us hstatement)

/-- Every production keeps to the forms. -/
theorem sound_of_mem_productions (h : p ∈ ofLines.productions s) : Sound tag touches s p := by
  have listed : s ∈ ofLines.nonterminals :=
    isNonterminal_iff.mp (isNonterminal_of_mem_productions h)
  fin_cases listed
  · exact sound_line p h
  · exact sound_after_ident p h
  · exact sound_stmt p h
  · exact sound_keyword_stmt p h
  · exact sound_linetail p h
  · exact sound_expr p h
  · exact sound_operand p h
  · exact sound_sign p h
  · exact sound_etail p h
  · exact sound_arith p h
  · exact sound_boolean p h
  · exact sound_pbool p h
  · exact sound_pbtail p h
  · exact sound_relop p h

theorem spelled_eq_of_mem_productions (h : p ∈ ofLines.productions s) : spelled p = p := by
  have noEpsilon : ∀ entry ∈ ofLines.entries, spelled entry.2 = entry.2 := by decide
  exact noEpsilon (s, p) (mem_entries.mpr h)

/-- The tokens under parse trees in which signs touch their numbers are what the
roots stand for. -/
theorem meansAll_yield {f : Forest τ} (valid : f.Valid ofLines fun t => (tag t).name)
    (touch : f.SignsTouch (fun t => (tag t).name) touches) :
    MeansAll tag touches (f.roots fun t => (tag t).name) f.yield := by
  -- the trees under a node make up a production, and this keeps to the form of the node
  induction f with
  | nil => rfl
  | leaf token rest ih =>
    have here : Means tag touches (tag token).name [token] :=
      (means_iff_of_isTerminal valid.1.2).mpr ⟨token, rfl, rfl⟩
    exact ⟨[token], rest.yield, rfl, here, ih valid.2 touch⟩
  | node s choice children rest ihChildren ihRest =>
    obtain ⟨p, chosen, roots⟩ := valid.exists_production
    have chosen := List.mem_of_getElem? chosen
    rw [spelled_eq_of_mem_productions chosen] at roots
    have inside := ihChildren valid.2.1 touch.2.1
    rw [roots] at inside
    have here := sound_of_mem_productions chosen _ inside (roots ▸ touch.1)
    exact ⟨children.yield, rest.yield, rfl, here, ihRest valid.2.2 touch.2.2⟩

end Grammar

end LineBasic
