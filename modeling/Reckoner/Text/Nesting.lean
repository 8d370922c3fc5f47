/-!
# Text literals and brackets in a text

Some decisions are made on the text of an expression before it is read as tokens. They look at the
characters outside text literals and at the depth of brackets there.
-/

namespace Reckoner.Text

/-- The characters outside text literals, given whether the text starts inside one. -/
def outsideFrom (inText : Bool) : List Char → List Char
  | [] => []
  | c :: rest =>
    if c = '"' then outsideFrom (!inText) rest
    else if inText then outsideFrom inText rest
    else c :: outsideFrom inText rest

/-- The characters outside text literals. -/
def outside (text : List Char) : List Char :=
  outsideFrom false text

/-- A place in a text: whether it is inside a text literal, and the depth of brackets. -/
structure Place where
  inText : Bool := false
  depth : Nat := 0
  deriving Repr, DecidableEq

namespace Place

/-- The place behind a character. A closing bracket too many is ignored. -/
def next (p : Place) (c : Char) : Place :=
  if c = '"' then { p with inText := !p.inText }
  else if p.inText then p
  else if c = '(' ∨ c = '[' then { p with depth := p.depth + 1 }
  else if c = ')' ∨ c = ']' then { p with depth := p.depth - 1 }
  else p

/-- Whether a place is outside all brackets and text literals. -/
def isTop (p : Place) : Bool :=
  !p.inText && p.depth == 0

end Place

/-- The texts before and after the first `mark` that is outside all brackets. -/
def cutAtTop? (mark : Char) (p : Place) : List Char → Option (List Char × List Char)
  | [] => none
  | c :: rest =>
    if p.isTop && c == mark then some ([], rest)
    else (cutAtTop? mark (p.next c) rest).map fun (front, tail) => (c :: front, tail)

/-- The pieces of a text between the commas that are outside all brackets. -/
def piecesFrom (p : Place) : List Char → List (List Char)
  | [] => [[]]
  | c :: rest =>
    let pieces := piecesFrom (p.next c) rest
    if p.isTop && c == ',' then [] :: pieces
    else
      match pieces with
      | [] => [[c]]
      | piece :: others => (c :: piece) :: others

/-- The texts before and after the parenthesis that closes `depth` others and then itself. Other
brackets are not looked at. -/
def cutAtClose? (inText : Bool) (depth : Nat) : List Char → Option (List Char × List Char)
  | [] => none
  | c :: rest =>
    let more inText depth :=
      (cutAtClose? inText depth rest).map fun (front, tail) => (c :: front, tail)
    if c = '"' then more (!inText) depth
    else if inText then more inText depth
    else if c = '(' then more inText (depth + 1)
    else if c = ')' then
      match depth with
      | 0 => some ([], rest)
      | depth + 1 => more inText depth
    else more inText depth

/-- A text is cut at a closing parenthesis without a loss. -/
theorem cutAtClose?_eq {inText : Bool} {depth : Nat} {text front tail : List Char}
    (h : cutAtClose? inText depth text = some (front, tail)) : text = front ++ ')' :: tail := by
  induction text generalizing inText depth front tail with
  | nil => simp [cutAtClose?] at h
  | cons c rest ih =>
    have more {inText : Bool} {depth : Nat}
        (h : (cutAtClose? inText depth rest).map (fun x => (c :: x.1, x.2)) = some (front, tail)) :
        c :: rest = front ++ ')' :: tail := by
      obtain ⟨⟨f, t⟩, hf, he⟩ := Option.map_eq_some_iff.1 h
      simp only [Prod.mk.injEq] at he
      obtain ⟨rfl, rfl⟩ := he
      simp [ih hf]
    simp only [cutAtClose?] at h
    split at h
    · exact more h
    · split at h
      · exact more h
      · split at h
        · exact more h
        · split at h
          · rename_i hc
            split at h
            · simp only [Option.some.injEq, Prod.mk.injEq] at h
              obtain ⟨rfl, rfl⟩ := h
              simp [hc]
            · exact more h
          · exact more h

theorem length_lt_of_cutAtClose? {inText : Bool} {depth : Nat} {text front tail : List Char}
    (h : cutAtClose? inText depth text = some (front, tail)) : tail.length < text.length := by
  have := congrArg List.length (cutAtClose?_eq h)
  simp only [List.length_append, List.length_cons] at this
  omega

end Reckoner.Text
