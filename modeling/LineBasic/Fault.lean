/-!
# Faults

Why a line or a program is not valid. The library finds ten faults. A fault that
was described by hand keeps its own words, unless these are the words of one of
the ten, so that a fault and its message determine each other.

## Main results

* `Fault.ofMessage_message`, `Fault.message_ofMessage`: faults and messages
  determine each other.
-/

namespace LineBasic

/-- The messages of the faults that the library finds. -/
def knownMessages : List String :=
  ["invalid label", "invalid statement", "invalid expression", "invalid expression tail",
    "invalid boolean", "invalid boolean operator", "endwhile without open while",
    "unbalanced parenthesis", "missing sentinel marker", "while without matching endwhile"]

/-- A fault of a line or a program. -/
inductive Fault
  /-- A colon belongs to no label. -/
  | label
  /-- No statement can go on like this. -/
  | statement
  /-- No operand begins here. -/
  | operand
  /-- An expression is followed by something that cannot follow it. -/
  | tail
  /-- No condition begins here. -/
  | condition
  /-- A comparison lacks its operator. -/
  | comparison
  /-- A loop is closed that was never opened. -/
  | unopenedLoop
  /-- A parenthesis lacks its partner. -/
  | parenthesis
  /-- The program does not end with the end marker. -/
  | sentinel
  /-- A loop is still open at the end of the program. -/
  | unclosedLoop
  /-- A fault in other words. -/
  | described (text : String) (isNew : text ∉ knownMessages)
  deriving DecidableEq

namespace Fault

/-- The fault in words. -/
def message : Fault → String
  | label => "invalid label"
  | statement => "invalid statement"
  | operand => "invalid expression"
  | tail => "invalid expression tail"
  | condition => "invalid boolean"
  | comparison => "invalid boolean operator"
  | unopenedLoop => "endwhile without open while"
  | parenthesis => "unbalanced parenthesis"
  | sentinel => "missing sentinel marker"
  | unclosedLoop => "while without matching endwhile"
  | described text _ => text

/-- The faults that the library finds, in the order of `knownMessages`, each
with the key it is listed by. -/
def catalogue : List (String × Fault) :=
  [("label", label), ("statement", statement), ("expression", operand), ("expression_tail", tail),
    ("boolean", condition), ("boolean_operator", comparison), ("endwhile", unopenedLoop),
    ("paren", parenthesis), ("sentinel", sentinel), ("unclosed_while", unclosedLoop)]

/-- The faults that the library finds. -/
def known : List Fault := catalogue.map Prod.snd

theorem map_message_known : known.map message = knownMessages := rfl

/-- The fault with a given message. -/
def ofMessage (text : String) : Fault :=
  if h : text ∈ knownMessages then (known.find? fun f => f.message == text).getD statement
  else described text h

theorem message_ofMessage (text : String) : (ofMessage text).message = text := by
  unfold ofMessage
  split
  case isFalse => rfl
  case isTrue h =>
    rw [← map_message_known, List.mem_map] at h
    obtain ⟨f, member, rfl⟩ := h
    cases found : known.find? fun g => g.message == f.message with
    | none => exact absurd (List.find?_eq_none.mp found f member) (by simp)
    | some g => simpa using List.find?_some found

theorem ofMessage_message (f : Fault) : ofMessage f.message = f := by
  cases f with
  | described text isNew => exact dif_neg isNew
  | _ => decide

theorem message_injective {f g : Fault} (h : f.message = g.message) : f = g := by
  rw [← ofMessage_message f, h, ofMessage_message]

end Fault

end LineBasic
