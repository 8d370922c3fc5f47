import Reckoner.Proofs.Rewriting.Pieces
import Reckoner.Proofs.Rewriting.Progress

/-!
# Going over the text of an expression

Both ways of replacing parts of a text, of groups and of arguments, go over it from left to right.
What they share is told here once: such a pass moves over single pieces, and has to say only what it
does to a group and to a call. From that follows what it does to whole expressions.
-/

namespace Reckoner

open Piece (texts Apart)

/-- A pass over a text that ends with a gap. -/
structure Pass where
  /-- Which parts are replaced. -/
  kind : Pass.Kind
  /-- The outcome, from some progress and the text to come. -/
  go : Progress → List Char → Except EvalError (List Char × Context) × World
  /-- When the next piece cannot be replaced. -/
  Stays : Progress → Prop
  /-- How many levels of conditionals may be met. -/
  levels : Nat
  gap : List Char

namespace Pass

variable (F : Outcomes) (P : Pass)

/-- A pass turns the pieces `ps`, with `qs` behind them, into the pieces `ps'`. -/
def Turns (s : Progress) (ps qs ps' : List Piece) (s' : Progress) : Prop :=
  s'.passed = s.passed ++ texts ps'
    ∧ P.go s (texts (ps ++ qs) ++ P.gap) = P.go s' (texts qs ++ P.gap)

/-- Whether a pass can go on: nobody asks to stop, and there are enough calls to look at. -/
def Ready (n : Nat) (s : Progress) : Prop :=
  s.world.cancelled = false ∧ n ≤ s.fuel

/-- Whether pieces can stand behind those of an operand. -/
def Follow (ps qs : List Piece) : Prop :=
  (∀ q ∈ qs.head?, q.token.followsOperand = true) ∧ (ps ++ qs).IsChain Piece.Near

/-- A pass edits the pieces of an expression: it turns them into those of what the expression is
rewritten to, looking at no more calls than there are. -/
def Edits (e : Expr) (ps : List Piece) : Prop :=
  ∀ ⦃s : Progress⦄ ⦃qs : List Piece⦄ ⦃n : Nat⦄, e.Hygienic s.context → e.depth ≤ P.levels →
    Ready (e.calls + n) s → Follow ps qs →
    ∃ e' ps' s', Edited (P.Stays s) e e' ps ps'
      ∧ Rewritten F P.kind s.behindWord s.toStage s'.toStage e e' ∧ P.Turns s ps qs ps' s'
      ∧ Ready n s'

/-- A pass edits the pieces of a list of expressions. A word is right before it only if it starts
with a comma. -/
def EditsAll (form : List Expr → List Piece → Prop) (es : List Expr) (ps : List Piece) : Prop :=
  ∀ ⦃s : Progress⦄ ⦃qs : List Piece⦄ ⦃n : Nat⦄, Expr.AllHygienic s.context es →
    Expr.listDepth es ≤ P.levels → Ready (Expr.listCalls es + n) s → Follow ps qs →
    (∀ p ∈ ps.head?, p.token = .comma ∨ s.behindWord = false) →
    ∃ es' ps' s', EditedAll form es es' ps ps'
      ∧ AllRewritten F P.kind s.toStage s'.toStage es es' ∧ P.Turns s ps qs ps' s' ∧ Ready n s'

/-- What a pass has to do with single pieces, which stay unless they open a parenthesis or call a
function, with groups, and with calls that have less than `bound` calls among their arguments. -/
structure Lawful (fs : Registry) (bound : Nat) : Prop where
  piece {s : Progress} {p : Piece} {qs : List Piece} (hp : p.token ≠ .openParen)
    (hname : ∀ name, p.token = .identifier name → ∀ q ∈ qs.head?, q.token ≠ .openParen)
    (hnear : (p :: qs).IsChain Piece.Near) :
    P.Turns s [p] qs [p] (s.pass [p])
  word {s : Progress} {p : Piece} (hp : p.isWord = true) : P.Stays (s.pass [p])
  group {e : Expr} {p q : Piece} {ps : List Piece} (he : e.WellFormed fs.isFunction)
    (hp : p.token = .openParen) (h : Forms e ps) (hq : q.token = .closeParen)
    (ih : P.Edits F e ps) : P.Edits F (.group e) (p :: (ps ++ [q]))
  call {name : String} {args : List Expr} {n p q : Piece} {ps : List Piece}
    (hname : fs.isFunction name = true) (hargs : Expr.AllWellFormed fs.isFunction args)
    (hn : n.token = .identifier name) (hp : p.token = .openParen) (h : ListForms args ps)
    (hq : q.token = .closeParen) (hbound : Expr.listCalls args < bound)
    (ih : P.EditsAll F ListForms args ps) : P.Edits F (.call name args) (n :: p :: (ps ++ [q]))

namespace Turns

variable {P : Pass} {s s₁ s₂ : Progress} {ps ps' qs rs rs' : List Piece}

lemma nil : P.Turns s [] qs [] s :=
  ⟨by simp, rfl⟩

/-- Pieces in a row are dealt with one after the other. -/
lemma append (h : P.Turns s ps (rs ++ qs) ps' s₁) (h' : P.Turns s₁ rs qs rs' s₂) :
    P.Turns s (ps ++ rs) qs (ps' ++ rs') s₂ :=
  ⟨by rw [h'.1, h.1, Piece.texts_append, List.append_assoc],
    by rw [List.append_assoc, h.2, h'.2]⟩

end Turns

namespace Follow

variable {ps qs rs : List Piece}

lemma apart (h : Follow ps qs) : ps.IsChain Apart :=
  h.2.left_of_append.imp fun _ _ h => h.2

lemma right (h : Follow (ps ++ rs) qs) : Follow rs qs :=
  ⟨h.1, (List.append_assoc ps rs qs ▸ h.2).right_of_append⟩

lemma tail {p : Piece} (h : Follow (p :: ps) qs) : Follow ps qs :=
  ⟨h.1, h.2.tail⟩

lemma left (h : Follow (ps ++ rs) qs) (hrs : ∃ q ∈ rs.head?, q.token.followsOperand = true) :
    Follow ps (rs ++ qs) := by
  obtain ⟨q, hq, hfollows⟩ := hrs
  refine ⟨fun q' hq' => ?_, by rw [← List.append_assoc]; exact h.2⟩
  rw [List.head?_append_of_ne_nil _ (by rintro rfl; cases hq)] at hq'
  rwa [Option.mem_unique hq' hq]

/-- An element of a list is followed by a comma or by what follows the list. -/
lemma before_rest {es : List Expr} (h : Follow (ps ++ rs) qs) (hrs : RestForms es rs) :
    Follow ps (rs ++ qs) := by
  refine ⟨fun q hq => ?_, by rw [← List.append_assoc]; exact h.2⟩
  cases rs with
  | nil => exact h.1 q hq
  | cons p rs =>
    obtain rfl : p = q := by simpa using hq
    rw [hrs.token_of_mem p rfl]
    rfl

/-- Nothing has to stand behind an expression. -/
lemma nil {e : Expr} (h : Forms e ps) (hapart : ps.IsChain Apart) : Follow ps [] := by
  refine ⟨by simp, ?_⟩
  rw [List.append_nil]
  exact isChain_of_isChain h.adjoins hapart fun _ _ hadjoins hapart => ⟨hadjoins, hapart⟩

end Follow

namespace Ready

variable {m n : Nat} {s : Progress}

lemma mono (h : Ready m s) (hmn : n ≤ m) : Ready n s :=
  ⟨h.1, Nat.le_trans hmn h.2⟩

lemma pass (h : Ready n s) (ps : List Piece) : Ready n (s.pass ps) :=
  h

end Ready

namespace Lawful

variable {F : Outcomes} {P : Pass} {fs : Registry} {bound : Nat} {s : Progress} {qs : List Piece}

lemma turns_operator (hP : P.Lawful F fs bound) {op : BinaryOperator} {os : List Piece}
    (h : OperatorForms op os) (hnear : (os ++ qs).IsChain Piece.Near) :
    P.Turns s os qs os (s.pass os) := by
  cases h with
  | single hp => exact hP.piece (by simp [hp]) (by simp [hp]) hnear
  | @double p q hp hq =>
    have hfirst : P.Turns s [p] ([q] ++ qs) [p] (s.pass [p]) :=
      hP.piece (by simp [hp]) (by simp [hp]) hnear
    have hsecond := hP.piece (s := s.pass [p]) (by simp [hq]) (by simp [hq]) hnear.tail
    rw [← s.pass_append] at hsecond
    exact hfirst.append hsecond

lemma stays_operator (hP : P.Lawful F fs bound) {p : Piece} {os : List Piece}
    (hp : p ∈ os.getLast?) (hword : p.isWord = true) : P.Stays (s.pass os) := by
  obtain ⟨ps, rfl⟩ := List.getLast?_eq_some_iff.1 hp
  rw [s.pass_append]
  exact hP.word hword

/-- An expression of one piece stays. -/
lemma edits_piece (hP : P.Lawful F fs bound) {e : Expr} {p : Piece} (h : Forms e [p])
    (he : e.isAtom = true) (hp : p.token ≠ .openParen) : P.Edits F e [p] := by
  intro s qs n hygienic hdepth hready hfollow
  refine ⟨e, [p], s.pass [p], .refl h (.singleton p), .atom he, ?_, ?_⟩
  · refine hP.piece hp (fun _ _ q hq hopen => ?_) hfollow.2
    have hfollows := hfollow.1 q hq
    rw [hopen] at hfollows
    cases hfollows
  · exact (hready.mono (Nat.le_add_left _ _)).pass _

/-- A number with its sign stays. -/
lemma edits_signed (hP : P.Lawful F fs bound) {x : Float} {p q : Piece}
    (hp : p.token = .binary .sub) (hq : q.token = .number x) :
    P.Edits F (.number (-x)) [p, q] := by
  intro s qs n hygienic hdepth hready hfollow
  have hsign : P.Turns s [p] ([q] ++ qs) [p] (s.pass [p]) :=
    hP.piece (by simp [hp]) (by simp [hp]) hfollow.2
  have hnumber : P.Turns (s.pass [p]) [q] qs [q] ((s.pass [p]).pass [q]) :=
    hP.piece (by simp [hq]) (by simp [hq]) hfollow.2.tail
  exact ⟨_, _, (s.pass [p]).pass [q], .refl (.signed hp hq) hfollow.apart, .atom rfl,
    hsign.append hnumber, ((hready.mono (Nat.le_add_left _ _)).pass _).pass _⟩

/-- Of a vector the elements are edited. -/
lemma edits_vector (hP : P.Lawful F fs bound) {items : List Expr} {p q : Piece} {ps : List Piece}
    (hp : p.token = .openBracket) (h : ListForms items ps) (hq : q.token = .closeBracket)
    (ih : P.EditsAll F ListForms items ps) : P.Edits F (.vector items) (p :: (ps ++ [q])) := by
  intro s qs n hygienic hdepth hready hfollow
  have hopen : P.Turns s [p] ((ps ++ [q]) ++ qs) [p] (s.pass [p]) :=
    hP.piece (by simp [hp]) (by simp [hp]) hfollow.2
  have hbehind := s.behindWord_pass_of_structural (p := p) (d := '[') (by rw [hp]; rfl)
  obtain ⟨items', ps', s', hedited, hrewritten, hturns, hready'⟩ := ih (s := s.pass [p])
    hygienic (Nat.le_trans (Expr.le_deepen _) hdepth) hready
    (hfollow.tail.left ⟨q, rfl, by rw [hq]; rfl⟩) fun _ _ => .inr hbehind
  have hclose : P.Turns s' [q] qs [q] (s'.pass [q]) :=
    hP.piece (by simp [hq]) (by simp [hq]) hfollow.tail.right.2
  exact ⟨_, _, s'.pass [q], hedited.vector hp hq h, .vector hrewritten,
    hopen.append (hturns.append hclose), hready'.pass _⟩

/-- Behind a minus the operand is edited. What it becomes may start with a digit: the minus is then
the sign of that number. -/
lemma edits_negate (hP : P.Lawful F fs bound) {e : Expr} {p : Piece} {ps : List Piece}
    (hstrength : UnaryOperator.strength ≤ e.strength) (hp : p.token = .binary .sub)
    (hps : ∀ q ∈ ps.head?, q.token.isNumber = false) (ih : P.Edits F e ps) :
    P.Edits F (.unary .negate e) (p :: ps) := by
  intro s qs n hygienic hdepth hready hfollow
  have hsign : P.Turns s [p] (ps ++ qs) [p] (s.pass [p]) :=
    hP.piece (by simp [hp]) (by simp [hp]) hfollow.2
  obtain ⟨e', ps', s', hedited, hrewritten, hturns, hready'⟩ := ih (s := s.pass [p])
    hygienic (Nat.le_trans (Expr.le_deepen _) hdepth) hready hfollow.tail
  rw [s.behindWord_pass_of_sign hp] at hrewritten
  obtain ⟨e'', hedited, hrewritten⟩ :=
    (hedited.weaken hP.word).exists_negate hstrength hp hps hfollow.apart hrewritten
  exact ⟨e'', _, s', hedited, hrewritten, hsign.append hturns, hready'⟩

/-- Behind an exclamation mark the operand is edited. -/
lemma edits_not (hP : P.Lawful F fs bound) {e : Expr} {p : Piece} {ps : List Piece}
    (hp : p.token = .bang) (ih : P.Edits F e ps) : P.Edits F (.unary .not e) (p :: ps) := by
  intro s qs n hygienic hdepth hready hfollow
  have hsign : P.Turns s [p] (ps ++ qs) [p] (s.pass [p]) :=
    hP.piece (by simp [hp]) (by simp [hp]) hfollow.2
  obtain ⟨e', ps', s', hedited, hrewritten, hturns, hready'⟩ := ih (s := s.pass [p])
    hygienic (Nat.le_trans (Expr.le_deepen _) hdepth) hready hfollow.tail
  exact ⟨_, _, s', (hedited.weaken hP.word).not hp hfollow.apart,
    .unary (fun _ => rfl) hrewritten, hsign.append hturns, hready'⟩

/-- Of an operation the operands are edited, the left one first. -/
lemma edits_binary (hP : P.Lawful F fs bound) {op : BinaryOperator} {l r : Expr}
    {ls os rs : List Piece} (ho : OperatorForms op os) (ihl : P.Edits F l ls)
    (ihr : P.Edits F r rs) : P.Edits F (.binary op l r) (ls ++ (os ++ rs)) := by
  intro s qs n hygienic hdepth hready hfollow
  obtain ⟨hygienic, hygienic'⟩ := List.forall_mem_append.1 hygienic
  have hdepths := Nat.le_trans (Expr.le_deepen _) hdepth
  have hfirst : ∃ q ∈ (os ++ rs).head?, q.token.followsOperand = true := by
    rw [List.head?_append_of_ne_nil _ ho.ne_nil]
    exact ho.head
  obtain ⟨l', ls', s₁, hedited, hrewritten, hturns, hready₁⟩ := ihl
    hygienic (Nat.le_trans (Nat.le_max_left _ _) hdepths)
    (hready.mono (n := l.calls + (r.calls + n)) (Nat.add_assoc _ _ _).ge) (hfollow.left hfirst)
  have hnear : (os ++ (rs ++ qs)).IsChain Piece.Near := by
    rw [← List.append_assoc]
    exact hfollow.right.2
  have hoperator := hP.turns_operator (s := s₁) ho hnear
  obtain ⟨r', rs', s₂, hedited', hrewritten', hturns', hready₂⟩ := ihr (s := s₁.pass os)
    (Expr.Hygienic.extend hygienic' hrewritten.context_extends)
    (Nat.le_trans (Nat.le_max_right _ _) hdepths) (hready₁.pass os) hfollow.right.right
  exact ⟨.binary op l' r', _, s₂,
    hedited.binary ho (fun p hp => hedited'.weaken (hP.stays_operator hp)) hfollow.apart,
    .binary hrewritten (s₁.isWord_of_behindWord ho) hrewritten',
    hturns.append (hoperator.append hturns'), hready₂⟩

/-- Of a conditional that is no group the parts are edited in their order, each in the context that
the one before it leaves. -/
lemma edits_conditional (hP : P.Lawful F fs bound) {c t e : Expr} {q k : Piece}
    {cs ts es : List Piece} (hq : q.token = .question) (hk : k.token = .colon)
    (ihc : P.Edits F c cs) (iht : P.Edits F t ts) (ihe : P.Edits F e es) :
    P.Edits F (.conditional c t e) (cs ++ q :: (ts ++ k :: es)) := by
  intro s qs n hygienic hdepth hready hfollow
  obtain ⟨hygienic, hygienic'⟩ := List.forall_mem_append.1 hygienic
  obtain ⟨hygienic', hygienic''⟩ := List.forall_mem_append.1 hygienic'
  have hdepth : max c.depth (max t.depth e.depth) + 1 ≤ P.levels := hdepth
  have hcalls : c.calls + (t.calls + (e.calls + n)) ≤ c.calls + t.calls + e.calls + n := by
    omega
  obtain ⟨c', cs', s₁, hedited₁, hrewritten₁, hturns₁, hready₁⟩ := ihc
    hygienic (by omega) (hready.mono hcalls) (hfollow.left ⟨q, rfl, by rw [hq]; rfl⟩)
  have hquestion : P.Turns s₁ [q] (ts ++ k :: es ++ qs) [q] (s₁.pass [q]) :=
    hP.piece (by simp [hq]) (by simp [hq]) hfollow.right.2
  have hextend₁ := hrewritten₁.context_extends
  obtain ⟨t', ts', s₂, hedited₂, hrewritten₂, hturns₂, hready₂⟩ := iht (s := s₁.pass [q])
    (Expr.Hygienic.extend hygienic' hextend₁) (by omega) (hready₁.pass [q])
    (hfollow.right.tail.left ⟨k, rfl, by rw [hk]; rfl⟩)
  have hcolon : P.Turns s₂ [k] (es ++ qs) [k] (s₂.pass [k]) :=
    hP.piece (by simp [hk]) (by simp [hk]) hfollow.right.tail.right.2
  have hextend₂ := hextend₁.trans hrewritten₂.context_extends
  obtain ⟨e', es', s₃, hedited₃, hrewritten₃, hturns₃, hready₃⟩ := ihe (s := s₂.pass [k])
    (Expr.Hygienic.extend hygienic'' hextend₂) (by omega) (hready₂.pass [k])
    hfollow.right.tail.right.tail
  rw [s₁.behindWord_pass_of_structural (d := '?') (by rw [hq]; rfl)] at hrewritten₂
  rw [s₂.behindWord_pass_of_structural (d := ':') (by rw [hk]; rfl)] at hrewritten₃
  exact ⟨_, _, s₃, hedited₁.conditional hq hedited₂ hk hedited₃,
    .conditional hrewritten₁ hrewritten₂ hrewritten₃,
    hturns₁.append (hquestion.append (hturns₂.append (hcolon.append hturns₃))), hready₃⟩

mutual

/-- A lawful pass edits the pieces of every expression. -/
lemma edits (hP : P.Lawful F fs bound) {e : Expr} {ps : List Piece} (h : Forms e ps)
    (he : e.WellFormed fs.isFunction) (hbound : e.calls ≤ bound) : P.Edits F e ps := by
  cases e with
  | number x =>
    cases h with
    | number hp => exact hP.edits_piece (.number hp) rfl (by simp [hp])
    | signed hp hq => exact hP.edits_signed hp hq
  | text s =>
    cases h with
    | text hp => exact hP.edits_piece (.text hp) rfl (by simp [hp])
  | identifier name =>
    cases h with
    | identifier hp => exact hP.edits_piece (.identifier hp) rfl (by simp [hp])
  | group e =>
    cases h with
    | group hp h hq => exact hP.group he hp h hq (edits hP h he hbound)
  | call name args =>
    cases h with
    | call hn hp h hq =>
      obtain ⟨hname, hargs⟩ := he
      have hbound' : Expr.listCalls args < bound := hbound
      exact hP.call hname hargs hn hp h hq hbound' (edits_list hP h hargs hbound'.le)
  | vector items =>
    cases h with
    | vector hp h hq => exact hP.edits_vector hp h hq (edits_list hP h he hbound)
  | unary op e =>
    obtain ⟨hstrength, he⟩ := he
    cases h with
    | negate hp h hps => exact hP.edits_negate hstrength hp hps (edits hP h he hbound)
    | not hp h => exact hP.edits_not hp (edits hP h he hbound)
  | binary op l r =>
    cases h with
    | binary hl ho hr =>
      obtain ⟨⟨-, hwl⟩, -, hwr⟩ := he
      have hbound : l.calls + r.calls ≤ bound := hbound
      exact hP.edits_binary ho (edits hP hl hwl (by omega)) (edits hP hr hwr (by omega))
  | conditional c t e =>
    cases h with
    | conditional hc hq ht hk he' =>
      obtain ⟨⟨-, hwc⟩, hwt, hwe⟩ := he
      have hbound : c.calls + t.calls + e.calls ≤ bound := hbound
      exact hP.edits_conditional hq hk (edits hP hc hwc (by omega)) (edits hP ht hwt (by omega))
        (edits hP he' hwe (by omega))
termination_by structural e

lemma edits_list (hP : P.Lawful F fs bound) {es : List Expr} {ps : List Piece}
    (h : ListForms es ps) (hes : Expr.AllWellFormed fs.isFunction es)
    (hbound : Expr.listCalls es ≤ bound) : P.EditsAll F ListForms es ps := by
  cases es with
  | nil =>
    cases h
    exact fun s qs n _ _ hready _ _ =>
      ⟨[], [], s, .nil .nil, .nil _, .nil, hready.mono (Nat.le_add_left _ _)⟩
  | cons e es =>
    cases h with
    | @cons _ _ ps rs h hrest =>
      intro s qs n hygienic hdepth hready hfollow hbehind
      obtain ⟨he, hes⟩ := hes
      obtain ⟨hygienic, hygienic'⟩ := List.forall_mem_append.1 hygienic
      have hbound : e.calls + Expr.listCalls es ≤ bound := hbound
      have hdepth : max e.depth (Expr.listDepth es) ≤ P.levels := hdepth
      have hcalls : e.calls + (Expr.listCalls es + n) ≤ e.calls + Expr.listCalls es + n := by omega
      obtain ⟨e', ps', s₁, hedited, hrewritten, hturns, hready₁⟩ := edits hP h he (by omega)
        hygienic (by omega) (hready.mono hcalls) (hfollow.before_rest hrest)
      obtain ⟨es', rs', s₂, hedited', hrewritten', hturns', hready₂⟩ := edits_rest hP hrest hes
        (by omega) (s := s₁) (Expr.AllHygienic.extend hygienic' hrewritten.context_extends)
        (by omega) hready₁ hfollow.right fun p hp => .inl (hrest.token_of_mem p hp)
      have hfirst : s.behindWord = false := by
        obtain ⟨p, hp, hstarts⟩ := h.head
        refine (hbehind p (List.mem_head?_append_of_mem_head? hp)).resolve_left fun hcomma => ?_
        rw [hcomma] at hstarts
        cases hstarts
      rw [hfirst] at hrewritten
      exact ⟨_, _, s₂, .cons hedited hedited', .cons hrewritten hrewritten',
        hturns.append hturns', hready₂⟩
termination_by structural es

lemma edits_rest (hP : P.Lawful F fs bound) {es : List Expr} {ps : List Piece}
    (h : RestForms es ps) (hes : Expr.AllWellFormed fs.isFunction es)
    (hbound : Expr.listCalls es ≤ bound) : P.EditsAll F RestForms es ps := by
  cases es with
  | nil =>
    cases h
    exact fun s qs n _ _ hready _ _ =>
      ⟨[], [], s, .nil .nil, .nil _, .nil, hready.mono (Nat.le_add_left _ _)⟩
  | cons e es =>
    cases h with
    | @cons _ _ p ps rs hp h hrest =>
      intro s qs n hygienic hdepth hready hfollow _
      obtain ⟨he, hes⟩ := hes
      obtain ⟨hygienic, hygienic'⟩ := List.forall_mem_append.1 hygienic
      have hbound : e.calls + Expr.listCalls es ≤ bound := hbound
      have hdepth : max e.depth (Expr.listDepth es) ≤ P.levels := hdepth
      have hcalls : e.calls + (Expr.listCalls es + n) ≤ e.calls + Expr.listCalls es + n := by omega
      have hcomma : P.Turns s [p] (ps ++ rs ++ qs) [p] (s.pass [p]) :=
        hP.piece (by simp [hp]) (by simp [hp]) hfollow.2
      obtain ⟨e', ps', s₁, hedited, hrewritten, hturns, hready₁⟩ := edits hP h he (by omega)
        (s := s.pass [p]) hygienic (by omega) ((hready.mono hcalls).pass [p])
        (hfollow.tail.before_rest hrest)
      obtain ⟨es', rs', s₂, hedited', hrewritten', hturns', hready₂⟩ := edits_rest hP hrest hes
        (by omega) (s := s₁) (Expr.AllHygienic.extend hygienic' hrewritten.context_extends)
        (by omega) hready₁ hfollow.tail.right fun p hp => .inl (hrest.token_of_mem p hp)
      rw [s.behindWord_pass_of_structural (d := ',') (by rw [hp]; rfl)] at hrewritten
      exact ⟨_, _, s₂, .comma_cons hp hedited hedited', .cons hrewritten hrewritten',
        hcomma.append (hturns.append hturns'), hready₂⟩
termination_by structural es

end

end Lawful

end Pass

end Reckoner
