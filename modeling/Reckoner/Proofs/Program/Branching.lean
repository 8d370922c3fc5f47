import Reckoner.Engine
import Reckoner.Proofs.Form.Outside
import Reckoner.Proofs.Form.Parts
import Reckoner.Proofs.Program.Compilation

/-!
# The branches of a conditional

A text that can be compiled is cut into the three parts of a conditional exactly if the expression
that it is read as is a conditional itself. The parts can be compiled as well, and the program of
the text is put together from their programs: the condition, a jump to the alternative, the
consequent, a jump to the end and the alternative. Jump targets are positions in a program, so those
of a part move with it.
-/

namespace Reckoner

/-! ### Moving code -/

/-- An instruction of a program that is moved by some positions. -/
def Instruction.shift (n : Nat) : Instruction → Instruction
  | .jumpIfFalse target => .jumpIfFalse (target + n)
  | .jump target => .jump (target + n)
  | i => i

namespace Expr

mutual

/-- Code that starts at a later position is the same code, moved there. -/
lemma code_add (e : Expr) (start n : Nat) :
    e.code (start + n) = (e.code start).map (Instruction.shift n) := by
  cases e with
  | number x => rfl
  | text s => rfl
  | identifier name => rfl
  | group e => exact code_add e start n
  | call name args =>
    rw [code, code, listCode_add args start n, List.map_append]
    rfl
  | vector items =>
    rw [code, code, listCode_add items start n, List.map_append]
    rfl
  | unary op e =>
    rw [code, code, code_add e start n, List.map_append]
    rfl
  | binary op l r =>
    have hr := code_add r (start + (l.code start).length) n
    rw [Nat.add_right_comm] at hr
    simp only [code, code_add l start n, List.length_map, hr, List.map_append]
    rfl
  | conditional c t a =>
    have ht := code_add t (start + (c.code start).length + 1) n
    rw [Nat.add_right_comm _ 1, Nat.add_right_comm start] at ht
    have ha := code_add a (start + (c.code start).length
      + (t.code (start + (c.code start).length + 1)).length + 2) n
    rw [Nat.add_right_comm _ 2, Nat.add_right_comm _ _ n, Nat.add_right_comm start] at ha
    simp only [code, code_add c start n, List.length_map, ht, ha, List.map_append, List.map_cons,
      Instruction.shift, Nat.add_right_comm _ _ n]
termination_by structural e

/-- The code of expressions in a row that starts at a later position is the same code, moved
there. -/
lemma listCode_add (es : List Expr) (start n : Nat) :
    listCode (start + n) es = (listCode start es).map (Instruction.shift n) := by
  cases es with
  | nil => rfl
  | cons e es =>
    have hes := listCode_add es (start + (e.code start).length) n
    rw [Nat.add_right_comm] at hes
    simp only [listCode, code_add e start n, List.length_map, hes, List.map_append]
termination_by structural es

end

lemma code_eq_map (e : Expr) (start : Nat) :
    e.code start = (e.code 0).map (Instruction.shift start) := by
  rw [← code_add, Nat.zero_add]

end Expr

/-- The program of a conditional, from those of its condition, its consequent and its
alternative. -/
def Program.conditional (c t a : Program) : Program :=
  let otherwise := c.size + t.size + 2
  ⟨c.code ++ #[.jumpIfFalse otherwise] ++ t.code.map (Instruction.shift (c.size + 1))
    ++ #[.jump (otherwise + a.size)] ++ a.code.map (Instruction.shift otherwise)⟩

lemma Expr.program_conditional (c t a : Expr) :
    (Expr.conditional c t a).program = .conditional c.program t.program a.program := by
  have ht := t.code_eq_map ((c.code 0).length + 1)
  have ha := a.code_eq_map ((c.code 0).length + (t.code 0).length + 2)
  simp [program, code, Program.conditional, Program.size, ht, ha]

/-! ### Compiling the parts -/

namespace Engine

/-- Whether a text is read as an expression that can be compiled. -/
def Parses (e : Engine) (source : List Char) (tree : Expr) : Prop :=
  ∃ ts, Token.tokenize (Text.trim source) = .ok ts ∧ tree.Derives e.functions.isFunction ts

variable {e : Engine} {source : List Char} {p : Program} {tree : Expr}

lemma compile_eq_ok_iff :
    e.compile source = .ok p ↔ ∃ tree, e.Parses source tree ∧ tree.program = p := by
  rw [compile]
  cases htokens : Token.tokenize (Text.trim source) with
  | error err => simp [Parses, htokens, Bind.bind, Except.bind]
  | ok ts =>
    change Program.compile _ ts = .ok p ↔ _
    rw [Program.compile_eq_ok_iff]
    simp [Parses, htokens]

namespace Parses

lemma compile_eq (h : e.Parses source tree) : e.compile source = .ok tree.program :=
  compile_eq_ok_iff.2 ⟨tree, h, rfl⟩

lemma unique {tree' : Expr} (h : e.Parses source tree) (h' : e.Parses source tree') :
    tree = tree' := by
  obtain ⟨ts, hts, hderives⟩ := h
  obtain ⟨ts', hts', hderives'⟩ := h'
  obtain rfl : ts = ts' := Except.ok.inj (hts.symm.trans hts')
  rw [← Sketch.parse_eq_some_iff] at hderives hderives'
  exact Option.some.inj (hderives.symm.trans hderives')

/-- The pieces of a text that is read as an expression. -/
lemma exists_pieces (h : e.Parses source tree) :
    tree.WellFormed e.functions.isFunction ∧ ∃ ps gap, Text.trim source = Piece.texts ps ++ gap
      ∧ (∀ c ∈ gap, Token.isSeparator c = true) ∧ Forms tree ps ∧ ps.IsChain Piece.EndsBefore := by
  obtain ⟨_, htokens, htree, rfl⟩ := h
  obtain ⟨ps, gap, htext, hgap, hforms, hseparate⟩ := Forms.exists_of_tokenize htokens
  exact ⟨htree, ps, gap, htext, hgap, hforms, Piece.isChain_endsBefore hforms hseparate⟩

/-- Pieces of a text are read as the expression that they form when they are cut out and trimmed. -/
lemma of_forms {ps : List Piece} {gap : List Char} (h : Forms tree ps)
    (htree : tree.WellFormed e.functions.isFunction) (hps : ps.IsChain Piece.EndsBefore)
    (hgap : ∀ c ∈ gap, Token.isSeparator c = true) :
    e.Parses (Text.trim (Piece.texts ps ++ gap)) tree := by
  refine ⟨tree.tokens, ?_, htree, rfl⟩
  rw [Text.trim_trim, Piece.trim_texts h.ne_nil hgap, ← List.append_nil (Piece.texts _)]
  exact (Piece.forms_regap _ h).tokenize_of_endsBefore
    (Piece.isChain_regap_of _ (fun _ _ h => h) hps) Piece.isSeparator_of_mem_nil

/-- The text of a conditional is split into texts that are read as its parts. -/
lemma exists_split? {c t a : Expr} (h : e.Parses source (.conditional c t a)) :
    ∃ parts, Conditional.split? source = some parts ∧ e.Parses parts.condition c
      ∧ e.Parses parts.consequent t ∧ e.Parses parts.alternative a := by
  obtain ⟨htree, ps, gap, htext, hgap, hforms, hchain⟩ := h.exists_pieces
  cases hforms with
  | @conditional _ _ _ q k cs ts as hc hq ht hk ha =>
    have hchain' := hchain.right_of_append.tail
    have hsplit : Conditional.split? source = some ⟨Text.trim (Piece.texts cs ++ q.gap),
        Text.trim (Piece.texts ts ++ k.gap), Text.trim (Piece.texts as ++ gap)⟩ := by
      simp only [Piece.texts_append, Piece.texts_cons, List.append_assoc] at htext
      rw [← Conditional.split?_trim, htext]
      exact Conditional.split?_texts hc ht hq hk htree _
    exact ⟨_, hsplit, of_forms hc htree.1.2 hchain.left_of_append q.isSeparator_of_mem_gap,
      of_forms ht htree.2.1 hchain'.left_of_append k.isSeparator_of_mem_gap,
      of_forms ha htree.2.2 hchain'.right_of_append.tail hgap⟩

/-- The text of another expression is not split. -/
lemma split?_eq_none (h : e.Parses source tree) (hcond : tree.isConditional = false) :
    Conditional.split? source = none := by
  obtain ⟨htree, ps, gap, htext, hgap, hforms, -⟩ := h.exists_pieces
  rw [← Conditional.split?_trim, htext, Conditional.split?,
    Conditional.cutAtTop?_question_eq_none hforms hgap htree hcond]
  rfl

end Parses

/-- A text that can be compiled is split exactly if it is read as a conditional, one that is not in
brackets. Then the parts of the text are read as the parts of the conditional, each of them can be
compiled on its own, and the program of the text is that of the condition, a jump to the start of
the alternative, that of the consequent, a jump to the end and that of the alternative, with the
jump targets of the three moved to where they stand. -/
theorem split?_of_compile (e : Engine) (source : List Char) (p : Program)
    (h : e.compile source = .ok p) :
    ((∃ parts, Conditional.split? source = some parts)
        ↔ ∃ c t a, e.Parses source (.conditional c t a))
      ∧ ∀ parts, Conditional.split? source = some parts →
          ∃ c t a, e.Parses source (.conditional c t a)
            ∧ (e.Parses parts.condition c ∧ e.compile parts.condition = .ok c.program)
            ∧ (e.Parses parts.consequent t ∧ e.compile parts.consequent = .ok t.program)
            ∧ (e.Parses parts.alternative a ∧ e.compile parts.alternative = .ok a.program)
            ∧ p = .conditional c.program t.program a.program := by
  obtain ⟨tree, htree, rfl⟩ := compile_eq_ok_iff.1 h
  cases hcond : tree.isConditional with
  | false =>
    have hnone := htree.split?_eq_none hcond
    refine ⟨⟨fun ⟨parts, hparts⟩ => ?_, fun ⟨c, t, a, hread⟩ => ?_⟩, fun parts hparts => ?_⟩
    · rw [hnone] at hparts
      cases hparts
    · rw [htree.unique hread] at hcond
      cases hcond
    · rw [hnone] at hparts
      cases hparts
  | true =>
    cases tree with
    | conditional c t a =>
      obtain ⟨parts, hsplit, hc, ht, ha⟩ := htree.exists_split?
      refine ⟨⟨fun _ => ⟨c, t, a, htree⟩, fun _ => ⟨parts, hsplit⟩⟩, fun parts' hparts' => ?_⟩
      obtain rfl : parts = parts' := Option.some.inj (hsplit.symm.trans hparts')
      exact ⟨c, t, a, htree, ⟨hc, hc.compile_eq⟩, ⟨ht, ht.compile_eq⟩, ⟨ha, ha.compile_eq⟩,
        Expr.program_conditional c t a⟩
    | _ => cases hcond

/-- The consequent holds a conditional of its own, whose code moves behind the first jump. -/
theorem split?_of_compile_nested :
    let source := "1 > 2 ? 3 ? 4 : 5 : -6".toList
    let parts : Conditional := ⟨"1 > 2".toList, "3 ? 4 : 5".toList, "-6".toList⟩
    ({} : Engine).compile source
        = .ok ⟨#[.number 1, .number 2, .binary .greater, .jumpIfFalse 10, .number 3, .jumpIfFalse 8,
            .number 4, .jump 9, .number 5, .jump 11, .number (-6)]⟩
      ∧ Conditional.split? source = some parts
      ∧ ∃ c t a, ({} : Engine).compile parts.condition = .ok c
        ∧ ({} : Engine).compile parts.consequent = .ok t
        ∧ ({} : Engine).compile parts.alternative = .ok a
        ∧ ({} : Engine).compile source = .ok (.conditional c t a) := by
  intro source parts
  have hcompile : ({} : Engine).compile source
      = .ok ⟨#[.number 1, .number 2, .binary .greater, .jumpIfFalse 10, .number 3, .jumpIfFalse 8,
          .number 4, .jump 9, .number 5, .jump 11, .number (-6)]⟩ := by
    rw [← Except.toOption_eq_some_iff]
    decide +kernel
  have hsplit : Conditional.split? source = some parts := by decide +kernel
  obtain ⟨-, hparts⟩ := split?_of_compile {} source _ hcompile
  obtain ⟨c, t, a, -, ⟨-, hc⟩, ⟨-, ht⟩, ⟨-, ha⟩, hp⟩ := hparts parts hsplit
  exact ⟨hcompile, hsplit, _, _, _, hc, ht, ha, hcompile.trans (congrArg _ hp)⟩

end Engine

end Reckoner
