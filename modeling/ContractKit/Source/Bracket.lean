import ContractKit.Source.Token

/-!
# Brackets

Round, square and curly brackets among tokens. `Bracket.check` says whether they nest properly.
`Bracket.group?` splits tokens that start with an opening bracket at its partner.
-/

namespace ContractKit

namespace Bracket

/-- The closing bracket of an opening one. -/
def closer? (c : CodePoint) : Option CodePoint :=
  if c = '(' then some ')'
  else if c = '[' then some ']'
  else if c = '\x7b' then some '\x7d'
  else none

/-- The opening bracket of a closing one. -/
def opener? (c : CodePoint) : Option CodePoint :=
  if c = ')' then some '('
  else if c = ']' then some '['
  else if c = '\x7d' then some '\x7b'
  else none

end Bracket

namespace Token

/-- An opening bracket. -/
def opens : Token → Bool
  | .mark c => (Bracket.closer? c).isSome
  | _ => false

/-- A closing bracket. -/
def closes : Token → Bool
  | .mark c => (Bracket.opener? c).isSome
  | _ => false

end Token

/-- Why brackets do not nest. -/
inductive BracketError where
  /-- The closing bracket does not close the innermost open one. -/
  | unbalanced (closer : CodePoint)
  /-- The opening bracket is not closed. -/
  | unclosed (opener : CodePoint)
deriving DecidableEq

/-- The wording of an error. -/
def BracketError.message : BracketError → Text
  | .unbalanced closer => .concat ["unbalanced ", Text.quote [closer]]
  | .unclosed opener => .concat ["unclosed ", Text.quote [opener]]

namespace Bracket

/-- Checks that brackets nest when those on `stack`, the innermost first, are open. -/
def checkFrom : List CodePoint → List Token → Except BracketError Unit
  | [], [] => .ok ()
  | opener :: _, [] => .error (.unclosed opener)
  | stack, .mark c :: rest =>
    if (closer? c).isSome then checkFrom (c :: stack) rest
    else
      match opener? c with
      | none => checkFrom stack rest
      | some opener =>
        match stack with
        | [] => .error (.unbalanced c)
        | top :: stack => if top = opener then checkFrom stack rest else .error (.unbalanced c)
  | stack, _ :: rest => checkFrom stack rest

/-- Checks that brackets nest. -/
def check (tokens : List Token) : Except BracketError Unit :=
  checkFrom [] tokens

/-- The tokens before the bracket `closer` that closes the innermost of the open groups, and those
after it. `depth` counts the groups of this kind opened on the way. -/
def splitAt (opener closer : CodePoint) : Nat → List Token → Option (List Token × List Token)
  | _, [] => none
  | depth, token :: rest =>
    if token = .mark opener then
      (splitAt opener closer (depth + 1) rest).map fun (inside, after) => (token :: inside, after)
    else if token = .mark closer then
      match depth with
      | 0 => some ([], rest)
      | depth + 1 =>
        (splitAt opener closer depth rest).map fun (inside, after) => (token :: inside, after)
    else (splitAt opener closer depth rest).map fun (inside, after) => (token :: inside, after)

/-- For tokens that start with an opening bracket: those inside the group and those after it. -/
def group? : List Token → Option (List Token × List Token)
  | .mark c :: rest =>
    match closer? c with
    | some closer => splitAt c closer 0 rest
    | none => none
  | _ => none

/-- A split loses the closing bracket and nothing else. -/
theorem splitAt_length {opener closer : CodePoint} {depth : Nat} {tokens inside after : List Token}
    (h : splitAt opener closer depth tokens = some (inside, after)) :
    inside.length + after.length + 1 = tokens.length := by
  fun_induction splitAt opener closer depth tokens generalizing inside after <;>
    grind [Option.map_eq_some_iff]

/-- A group takes both of its brackets. -/
theorem group?_length {tokens inside after : List Token}
    (h : group? tokens = some (inside, after)) :
    inside.length + after.length + 2 = tokens.length := by
  unfold group? at h
  split at h
  · split at h
    · have := splitAt_length h
      simp only [List.length_cons]
      omega
    · simp at h
  · simp at h

end Bracket

end ContractKit
