import Reckoner.Proofs.Script.Lines
import Reckoner.Script.Run

/-!
# Scripts as trees

A script is made of statements, loops and chains of clauses, which hold blocks of commands. A tree
comes with the lines it is written in: every line is read as what it stands for in the tree, and may
have blank lines and comments above it. If the lines of a block are equally deep and those of a body
are deeper than its header, the outline of the lines is the tree again.
-/

namespace Reckoner.Script

/-- A line of code that reads as a header, or as none, with the lines to skip above it. -/
structure Row (header : Option Header) where
  above : List (List Char)
  raw : List Char
  isSkipped_above : ∀ raw ∈ above, isSkipped (Text.trim raw) = true
  isSkipped_raw : isSkipped (Text.trim raw) = false
  read_raw : Header.read (Text.trim raw) = .ok header

namespace Row

variable {header : Option Header} (row : Row header)

def written : List (List Char) :=
  row.above ++ [row.raw]

/-- The line of code, if the lines of the row start at a number. -/
def line (number : Nat) : Line where
  number := number + row.above.length
  indent := indentation row.raw
  text := Text.trim row.raw

end Row

mutual

/-- A command of a script. -/
inductive Command where
  | statement (row : Row none)
  | forLoop {name start stop : List Char} {step : Option (List Char)}
    (row : Row (some (.forLoop name start stop step))) (body : Block)
  | whileLoop {condition : List Char} (row : Row (some (.whileLoop condition))) (body : Block)
  | chain {condition : List Char} (row : Row (some (.ifClause condition))) (body : Block)
    (others : Clauses)

/-- Commands in order. -/
inductive Block where
  | nil
  | cons (command : Command) (rest : Block)

/-- The clauses of a chain behind the first one. -/
inductive Clauses where
  | nil
  | elifClause {condition : List Char} (row : Row (some (.elifClause condition))) (body : Block)
    (others : Clauses)
  | elseClause (row : Row (some .elseClause)) (body : Block)

end

/-- The clauses of a chain, from the last one on. -/
@[induction_eliminator]
lemma Clauses.induction {P : Clauses → Prop} (nil : P .nil)
    (elifClause : ∀ {condition : List Char} (row : Row (some (.elifClause condition)))
      (body : Block) (others : Clauses), P others → P (.elifClause row body others))
    (elseClause : ∀ (row : Row (some .elseClause)) (body : Block), P (.elseClause row body))
    (clauses : Clauses) : P clauses :=
  match clauses with
  | .nil => nil
  | .elifClause row body others =>
    elifClause row body others (Clauses.induction nil elifClause elseClause others)
  | .elseClause row body => elseClause row body

/-! ### Layout -/

mutual

/-- Whether a command is so deep, and what belongs to it is deeper. -/
def Command.Fits (indent : Nat) : Command → Prop
  | .statement row => indentation row.raw = indent
  | .forLoop row body => indentation row.raw = indent ∧ body.IsBody indent
  | .whileLoop row body => indentation row.raw = indent ∧ body.IsBody indent
  | .chain row body others => indentation row.raw = indent ∧ body.IsBody indent ∧ others.Fit indent

def Block.Fits (indent : Nat) : Block → Prop
  | .nil => True
  | .cons command rest => command.Fits indent ∧ rest.Fits indent

/-- Whether a block has commands, all of them equally deep and deeper than given. -/
def Block.IsBody (indent : Nat) : Block → Prop
  | .nil => False
  | .cons command rest => ∃ deeper, indent < deeper ∧ command.Fits deeper ∧ rest.Fits deeper

def Clauses.Fit (indent : Nat) : Clauses → Prop
  | .nil => True
  | .elifClause row body others =>
    indentation row.raw = indent ∧ body.IsBody indent ∧ others.Fit indent
  | .elseClause row body => indentation row.raw = indent ∧ body.IsBody indent

end

/-! ### Lines and items -/

mutual

def Command.written : Command → List (List Char)
  | .statement row => row.written
  | .forLoop row body => row.written ++ body.written
  | .whileLoop row body => row.written ++ body.written
  | .chain row body others => row.written ++ body.written ++ others.written

def Block.written : Block → List (List Char)
  | .nil => []
  | .cons command rest => command.written ++ rest.written

def Clauses.written : Clauses → List (List Char)
  | .nil => []
  | .elifClause row body others => row.written ++ body.written ++ others.written
  | .elseClause row body => row.written ++ body.written

end

mutual

/-- The items of a command, if its lines start at a number. -/
def Command.items (number : Nat) : Command → List Item
  | .statement row => [.mk (row.line number) []]
  | .forLoop row body => [.mk (row.line number) (body.items (number + row.written.length))]
  | .whileLoop row body => [.mk (row.line number) (body.items (number + row.written.length))]
  | .chain row body others =>
    .mk (row.line number) (body.items (number + row.written.length))
      :: (others.list (number + row.written.length + body.written.length)).map (·.item)

def Block.items (number : Nat) : Block → List Item
  | .nil => []
  | .cons command rest => command.items number ++ rest.items (number + command.written.length)

/-- The clauses one by one, if their lines start at a number. -/
def Clauses.list (number : Nat) : Clauses → List Clause
  | .nil => []
  | @Clauses.elifClause condition row body others =>
    ⟨some condition, .mk (row.line number) (body.items (number + row.written.length))⟩
      :: others.list (number + row.written.length + body.written.length)
  | .elseClause row body =>
    [⟨none, .mk (row.line number) (body.items (number + row.written.length))⟩]

end

/-! ### Outlines -/

/-- Whether lines start with one that is so deep, have none that is less, and hold items. -/
structure Outlines (indent : Nat) (lines : List Line) (items : List Item) : Prop where
  head : ∀ l ∈ lines.head?, l.indent = indent
  least : ∀ l ∈ lines, indent ≤ l.indent
  outline_eq : outline lines = items

namespace Outlines

variable {indent deeper : Nat} {line : Line} {lines lines' : List Line} {items items' : List Item}

lemma nil (indent : Nat) : Outlines indent [] [] :=
  ⟨nofun, nofun, outline_nil⟩

/-- A line with deeper ones below it. -/
lemma cons (hline : line.indent = indent) (h : Outlines deeper lines items)
    (hdeeper : indent < deeper) : Outlines indent (line :: lines) [.mk line items] := by
  refine ⟨?_, ?_, ?_⟩
  · intro l hl
    cases hl
    exact hline
  · intro l hl
    rcases List.mem_cons.1 hl with rfl | hl
    · exact hline.ge
    · exact hdeeper.le.trans (h.least l hl)
  · have hlines : ∀ l ∈ lines, line.indent < l.indent := fun l hl =>
      hline ▸ hdeeper.trans_le (h.least l hl)
    have hcons : outline (line :: (lines ++ [])) = .mk line (outline lines) :: outline [] :=
      outline_cons hlines nofun
    rw [List.append_nil, outline_nil, h.outline_eq] at hcons
    exact hcons

lemma append (h : Outlines indent lines items) (h' : Outlines indent lines' items') :
    Outlines indent (lines ++ lines') (items ++ items') := by
  refine ⟨?_, ?_, ?_⟩
  · intro l hl
    rw [List.head?_append, Option.mem_def, Option.or_eq_some_iff] at hl
    rcases hl with hl | ⟨-, hl⟩
    · exact h.head l hl
    · exact h'.head l hl
  · intro l hl
    rcases List.mem_append.1 hl with hl | hl
    · exact h.least l hl
    · exact h'.least l hl
  · rw [outline_append, h.outline_eq, h'.outline_eq]
    intro l hl l' hl'
    rw [h'.head l hl]
    exact h.least l' hl'

end Outlines

lemma codeLinesFrom_of_isSkipped {raws : List (List Char)}
    (h : ∀ raw ∈ raws, isSkipped (Text.trim raw) = true) (number : Nat) :
    codeLinesFrom number raws = [] := by
  induction raws generalizing number with
  | nil => rfl
  | cons raw raws ih =>
    obtain ⟨hraw, hraws⟩ := List.forall_mem_cons.1 h
    simp only [codeLinesFrom, hraw, if_true]
    exact ih hraws (number + 1)

lemma Row.codeLinesFrom_written {header : Option Header} (row : Row header) (number : Nat)
    (rest : List (List Char)) :
    codeLinesFrom number (row.written ++ rest)
      = row.line number :: codeLinesFrom (number + row.written.length) rest := by
  unfold written
  rw [List.append_assoc, codeLinesFrom_append, codeLinesFrom_of_isSkipped row.isSkipped_above]
  simp [codeLinesFrom, row.isSkipped_raw, line, Nat.add_assoc]

lemma Block.IsBody.fits {indent : Nat} {block : Block} (h : block.IsBody indent) :
    ∃ deeper, indent < deeper ∧ block.Fits deeper := by
  cases block with
  | nil => cases h
  | cons command rest => exact h

/-- A header with its body. -/
lemma Row.outlines {header : Option Header} {indent deeper number : Nat} (row : Row header)
    (hrow : indentation row.raw = indent) (hdeeper : indent < deeper) {raws : List (List Char)}
    {items : List Item}
    (h : Outlines deeper (codeLinesFrom (number + row.written.length) raws) items) :
    Outlines indent (codeLinesFrom number (row.written ++ raws)) [.mk (row.line number) items] := by
  rw [row.codeLinesFrom_written]
  exact .cons hrow h hdeeper

mutual

lemma Command.outlines {indent : Nat} (number : Nat) (command : Command)
    (h : command.Fits indent) :
    Outlines indent (codeLinesFrom number command.written) (command.items number) := by
  match command with
  | .statement row =>
    have hrow : Outlines indent (codeLinesFrom number (row.written ++ []))
        [.mk (row.line number) []] := row.outlines h (Nat.lt_succ_self indent) (.nil _)
    rwa [List.append_nil] at hrow
  | .forLoop row body =>
    obtain ⟨hrow, hbody⟩ := h
    obtain ⟨deeper, hdeeper, hfits⟩ := hbody.fits
    exact row.outlines hrow hdeeper (Block.outlines _ body hfits)
  | .whileLoop row body =>
    obtain ⟨hrow, hbody⟩ := h
    obtain ⟨deeper, hdeeper, hfits⟩ := hbody.fits
    exact row.outlines hrow hdeeper (Block.outlines _ body hfits)
  | .chain row body others =>
    obtain ⟨hrow, hbody, hothers⟩ := h
    obtain ⟨deeper, hdeeper, hfits⟩ := hbody.fits
    rw [Command.written, Command.items, codeLinesFrom_append, List.length_append, ← Nat.add_assoc]
    exact (row.outlines hrow hdeeper (Block.outlines _ body hfits)).append
      (Clauses.outlines _ others hothers)

lemma Block.outlines {indent : Nat} (number : Nat) (block : Block) (h : block.Fits indent) :
    Outlines indent (codeLinesFrom number block.written) (block.items number) := by
  match block with
  | .nil =>
    rw [Block.written, Block.items]
    exact .nil indent
  | .cons command rest =>
    rw [Block.written, Block.items, codeLinesFrom_append]
    exact (Command.outlines number command h.1).append (Block.outlines _ rest h.2)

lemma Clauses.outlines {indent : Nat} (number : Nat) (clauses : Clauses)
    (h : clauses.Fit indent) :
    Outlines indent (codeLinesFrom number clauses.written)
      ((clauses.list number).map (·.item)) := by
  match clauses with
  | .nil =>
    rw [Clauses.written, Clauses.list]
    exact .nil indent
  | .elifClause row body others =>
    obtain ⟨hrow, hbody, hothers⟩ := h
    obtain ⟨deeper, hdeeper, hfits⟩ := hbody.fits
    rw [Clauses.written, Clauses.list, codeLinesFrom_append, List.length_append, ← Nat.add_assoc]
    exact (row.outlines hrow hdeeper (Block.outlines _ body hfits)).append
      (Clauses.outlines _ others hothers)
  | .elseClause row body =>
    obtain ⟨hrow, hbody⟩ := h
    obtain ⟨deeper, hdeeper, hfits⟩ := hbody.fits
    rw [Clauses.written, Clauses.list]
    exact row.outlines hrow hdeeper (Block.outlines _ body hfits)

end

end Reckoner.Script
