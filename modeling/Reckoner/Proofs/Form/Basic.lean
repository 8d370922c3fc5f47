import Reckoner.Proofs.Syntax.Expr
import Reckoner.Proofs.Token.Pieces

/-!
# Expressions as rows of pieces

`Forms e ps` says that the pieces `ps` spell the expression `e`. A number may be spelled with a
minus sign before it, and an inequality as two pieces.
-/

namespace Reckoner

namespace Token

/-- Whether a minus sign before a token is folded into it. -/
def startsOperand : Token → Bool
  | .number _ | .text _ | .identifier _ | .openParen | .openBracket | .bang => true
  | .binary op => op = .sub
  | _ => false

/-- Whether a token can stand behind an operand. -/
def followsOperand : Token → Bool
  | .binary _ | .bang | .question | .colon | .comma | .closeParen | .closeBracket => true
  | _ => false

/-- Whether an operand has to stand behind a token. -/
def awaitsOperand : Token → Bool
  | .binary _ | .bang | .assign | .question | .colon | .comma | .openParen | .openBracket => true
  | _ => false

end Token

/-! ### Forms -/

/-- Whether pieces spell an operator between two operands. -/
inductive OperatorForms : BinaryOperator → List Piece → Prop where
  | single {op : BinaryOperator} {p : Piece} (h : p.token = .binary op) : OperatorForms op [p]
  | double {p q : Piece} (hp : p.token = .bang) (hq : q.token = .assign) (h : p.EndsBefore q) :
    OperatorForms .notEqual [p, q]

mutual

/-- Whether pieces spell an expression. -/
inductive Forms : Expr → List Piece → Prop where
  | number {x : Float} {p : Piece} (h : p.token = .number x) : Forms (.number x) [p]
  | signed {x : Float} {p q : Piece} (hp : p.token = .binary .sub) (hq : q.token = .number x) :
    Forms (.number (-x)) [p, q]
  | text {s : String} {p : Piece} (h : p.token = .text s) : Forms (.text s) [p]
  | identifier {name : String} {p : Piece} (h : p.token = .identifier name) :
    Forms (.identifier name) [p]
  | group {e : Expr} {p q : Piece} {ps : List Piece} (hp : p.token = .openParen) (h : Forms e ps)
    (hq : q.token = .closeParen) : Forms (.group e) (p :: (ps ++ [q]))
  | call {name : String} {args : List Expr} {n p q : Piece} {ps : List Piece}
    (hn : n.token = .identifier name) (hp : p.token = .openParen) (h : ListForms args ps)
    (hq : q.token = .closeParen) : Forms (.call name args) (n :: p :: (ps ++ [q]))
  | vector {items : List Expr} {p q : Piece} {ps : List Piece} (hp : p.token = .openBracket)
    (h : ListForms items ps) (hq : q.token = .closeBracket) :
    Forms (.vector items) (p :: (ps ++ [q]))
  | negate {e : Expr} {p : Piece} {ps : List Piece} (hp : p.token = .binary .sub) (h : Forms e ps)
    (hps : ∀ q ∈ ps.head?, q.token.isNumber = false) : Forms (.unary .negate e) (p :: ps)
  | not {e : Expr} {p : Piece} {ps : List Piece} (hp : p.token = .bang) (h : Forms e ps) :
    Forms (.unary .not e) (p :: ps)
  | binary {op : BinaryOperator} {l r : Expr} {ls os rs : List Piece} (hl : Forms l ls)
    (ho : OperatorForms op os) (hr : Forms r rs) : Forms (.binary op l r) (ls ++ (os ++ rs))
  | conditional {c t e : Expr} {q k : Piece} {cs ts es : List Piece} (hc : Forms c cs)
    (hq : q.token = .question) (ht : Forms t ts) (hk : k.token = .colon) (he : Forms e es) :
    Forms (.conditional c t e) (cs ++ q :: (ts ++ k :: es))

/-- Whether pieces spell a list of expressions, with a comma between neighbours. -/
inductive ListForms : List Expr → List Piece → Prop where
  | nil : ListForms [] []
  | cons {e : Expr} {es : List Expr} {ps qs : List Piece} (h : Forms e ps) (hes : RestForms es qs) :
    ListForms (e :: es) (ps ++ qs)

/-- Whether pieces spell a list of expressions, with a comma before each. -/
inductive RestForms : List Expr → List Piece → Prop where
  | nil : RestForms [] []
  | cons {e : Expr} {es : List Expr} {p : Piece} {ps qs : List Piece} (hp : p.token = .comma)
    (h : Forms e ps) (hes : RestForms es qs) : RestForms (e :: es) (p :: (ps ++ qs))

end

namespace Forms

/-- The first piece of an expression starts an operand. -/
lemma head {e : Expr} {ps : List Piece} (h : Forms e ps) :
    ∃ p ∈ ps.head?, p.token.startsOperand = true := by
  cases e with
  | binary op l r =>
    cases h with
    | binary hl ho hr =>
      obtain ⟨p, hp, hstart⟩ := head hl
      exact ⟨p, List.mem_head?_append_of_mem_head? hp, hstart⟩
  | conditional c t e =>
    cases h with
    | conditional hc hq ht hk he =>
      obtain ⟨p, hp, hstart⟩ := head hc
      exact ⟨p, List.mem_head?_append_of_mem_head? hp, hstart⟩
  | _ =>
    cases h
    all_goals exact ⟨_, rfl, by simp [*, Token.startsOperand]⟩
termination_by structural e

lemma ne_nil {e : Expr} {ps : List Piece} (h : Forms e ps) : ps ≠ [] := by
  obtain ⟨p, hp, -⟩ := h.head
  rintro rfl
  cases hp

lemma mem_getLast?_bracketed {p q : Piece} (ps : List Piece) : q ∈ (p :: (ps ++ [q])).getLast? :=
  List.mem_getLast?_cons (by simp)

/-- The last piece of an expression ends an operand. -/
lemma last {e : Expr} {ps : List Piece} (h : Forms e ps) :
    ∃ p ∈ ps.getLast?, p.token.endsOperand = true := by
  cases e with
  | number x =>
    cases h with
    | @number _ p hp => exact ⟨p, rfl, by rw [hp]; rfl⟩
    | @signed _ _ q hp hq => exact ⟨q, rfl, by rw [hq]; rfl⟩
  | text s =>
    cases h with
    | @text _ p hp => exact ⟨p, rfl, by rw [hp]; rfl⟩
  | identifier name =>
    cases h with
    | @identifier _ p hp => exact ⟨p, rfl, by rw [hp]; rfl⟩
  | group e =>
    cases h with
    | group hp h hq => exact ⟨_, mem_getLast?_bracketed _, by rw [hq]; rfl⟩
  | call name args =>
    cases h with
    | call hn hp h hq =>
      exact ⟨_, List.mem_getLast?_cons (mem_getLast?_bracketed _), by rw [hq]; rfl⟩
  | vector items =>
    cases h with
    | vector hp h hq => exact ⟨_, mem_getLast?_bracketed _, by rw [hq]; rfl⟩
  | unary op e =>
    cases h with
    | negate hp h hps =>
      obtain ⟨p, hp, hend⟩ := last h
      exact ⟨p, List.mem_getLast?_cons hp, hend⟩
    | not hp h =>
      obtain ⟨p, hp, hend⟩ := last h
      exact ⟨p, List.mem_getLast?_cons hp, hend⟩
  | binary op l r =>
    cases h with
    | binary hl ho hr =>
      obtain ⟨p, hp, hend⟩ := last hr
      exact ⟨p, List.mem_getLast?_append_of_mem_getLast?
        (List.mem_getLast?_append_of_mem_getLast? hp), hend⟩
  | conditional c t e =>
    cases h with
    | conditional hc hq ht hk he =>
      obtain ⟨p, hp, hend⟩ := last he
      exact ⟨p, List.mem_getLast?_append_of_mem_getLast? (List.mem_getLast?_cons
        (List.mem_getLast?_append_of_mem_getLast? (List.mem_getLast?_cons hp))), hend⟩
termination_by structural e

end Forms

end Reckoner
