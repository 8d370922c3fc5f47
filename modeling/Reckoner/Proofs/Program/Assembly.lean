import Reckoner.Program.Compile
import Reckoner.Proofs.Syntax.Layer

/-!
# The compiler on a sketch

The state of the compiler after some tokens is the image of the sketch of these tokens: its code is
that of the trees already read, with a jump to zero wherever a target is not known yet, and its
stack holds one entry for each layer.
-/

namespace Reckoner

namespace Layer

/-- The code of a layer that starts at a position. Jumps whose targets lie behind it go to zero. -/
def code (start : Nat) : Layer → List Instruction
  | .left l _ => l.code start
  | .unary _ => []
  | .group => []
  | .call _ args => Expr.listCode start args
  | .vector items => Expr.listCode start items
  | .condition c => c.code start ++ [.jumpIfFalse 0]
  | .alternative c t =>
    let condition := c.code start
    let consequent := t.code (start + condition.length + 1)
    condition ++ .jumpIfFalse (start + condition.length + consequent.length + 2) :: consequent
      ++ [.jump 0]

/-- The entry that stands for a layer on the stack of the compiler. -/
def pending (start : Nat) : Layer → Pending
  | .left _ op => .binary op
  | .unary op => .unary op
  | .group => .opened .paren
  | .call name _ => .opened (.call name)
  | .vector _ => .opened .vector
  | .condition c => .condition (start + (c.code start).length)
  | .alternative c t =>
    let condition := c.code start
    .alternative (start + condition.length + (t.code (start + condition.length + 1)).length + 1)

@[simp] lemma isOperator_pending (start : Nat) (l : Layer) :
    (l.pending start).isOperator = l.isOperator := by
  cases l <;> rfl

@[simp] lemma isClosable_pending (start : Nat) (l : Layer) :
    (l.pending start).isClosable = l.isClosable := by
  cases l <;> rfl

@[simp] lemma yieldsTo_pending (op : BinaryOperator) (start : Nat) (l : Layer) :
    (l.pending start).yieldsTo op = l.yieldsTo op := by
  cases l <;> rfl

end Layer

namespace Sketch

/-- The code of layers, from the outermost one. -/
def layersCode : List Layer → List Instruction
  | [] => []
  | l :: layers => layersCode layers ++ l.code (layersCode layers).length

/-- The entries of layers, from the innermost one. -/
def layersPending : List Layer → List Pending
  | [] => []
  | l :: layers => l.pending (layersCode layers).length :: layersPending layers

/-- The frames of the brackets among layers, given whether something stands inside them. -/
def layersFrames (hasContent : Bool) : List Layer → List Frame
  | [] => []
  | .group :: layers => ⟨0, hasContent⟩ :: layersFrames true layers
  | .call _ items :: layers => ⟨items.length, hasContent⟩ :: layersFrames true layers
  | .vector items :: layers => ⟨items.length, hasContent⟩ :: layersFrames true layers
  | _ :: layers => layersFrames true layers

/-- The code of layers and of the operand inside them. -/
def focusCode (layers : List Layer) (e : Expr) : List Instruction :=
  layersCode layers ++ e.code (layersCode layers).length

/-- A jump gets its target in place. -/
lemma set_append_cons {α : Type} (xs ys : List α) (x y : α) {n : Nat} (h : n = xs.length) :
    (xs ++ x :: ys).set n y = xs ++ y :: ys := by
  subst h
  simp

/-- Completing the entry of a layer turns the code of the layer and of its last operand into the
code of the tree: an operator is appended, and the jump over an alternative gets its target. -/
lemma emit_pending {l : Layer} (h : l.isClosable = true) (layers : List Layer) (e : Expr) :
    (l.pending (layersCode layers).length).emit (focusCode (l :: layers) e).toArray
      = (focusCode layers (l.plug e)).toArray := by
  have hcode : layersCode (l :: layers)
      = layersCode layers ++ l.code (layersCode layers).length := rfl
  rw [focusCode, focusCode, hcode]
  generalize layersCode layers = before
  cases l with
  | left l op => simp [Layer.pending, Pending.emit, Layer.code, Layer.plug, Expr.code]
  | unary op => simp [Layer.pending, Pending.emit, Layer.code, Layer.plug, Expr.code]
  | alternative c t =>
    simp only [Layer.pending, Pending.emit, Layer.code, Layer.plug, Expr.code,
      List.setIfInBounds_toArray, List.size_toArray]
    generalize c.code before.length = condition
    generalize t.code (before.length + condition.length + 1) = consequent
    rw [← List.append_assoc before, List.append_assoc _ [_], List.singleton_append,
      set_append_cons _ _ _ _ (by simp; omega)]
    have hlen : (before ++ (condition ++ Instruction.jumpIfFalse
        (before.length + condition.length + consequent.length + 2) :: consequent)
          ++ [Instruction.jump 0]).length
        = before.length + condition.length + consequent.length + 2 := by
      simp
      omega
    rw [hlen]
    generalize e.code _ = alternative
    have htarget : ∀ x : Instruction, (before ++ (condition ++ Instruction.jumpIfFalse
        (before.length + condition.length + consequent.length + 2) :: consequent)
          ++ x :: alternative).length
        = before.length + condition.length + consequent.length + 2 + alternative.length := by
      intro x
      simp
      omega
    rw [htarget]
    simp
  | _ => simp [Layer.isClosable] at h

/-- The state of the compiler at a sketch. -/
def assembly : Sketch → Assembly
  | ⟨layers, none⟩ =>
    { code := (layersCode layers).toArray
      pending := layersPending layers
      frames := layersFrames false layers
      expectsOperand := true }
  | ⟨layers, some e⟩ =>
    { code := (focusCode layers e).toArray
      pending := layersPending layers
      frames := layersFrames true layers
      expectsOperand := false }

/-- Closing layers is completing the entries on the stack. -/
lemma settleStack_layers {ready : Layer → Bool} {ready' : Pending → Bool}
    (hready : ∀ l, ready l = true → l.isClosable = true)
    (hr : ∀ start l, ready' (Layer.pending start l) = ready l) (layers : List Layer) (e : Expr) :
    Assembly.settleStack ready' (focusCode layers e).toArray (layersPending layers)
      = ((focusCode (settle ready layers e).1 (settle ready layers e).2).toArray,
          layersPending (settle ready layers e).1) := by
  induction layers generalizing e with
  | nil => rfl
  | cons l layers ih =>
    simp only [layersPending, Assembly.settleStack, hr, settle]
    by_cases hl : ready l = true
    · simp only [hl, if_true, emit_pending (hready l hl), ih]
    · simp [hl, layersPending]

/-- Closable layers hold no frames. -/
lemma layersFrames_settle {ready : Layer → Bool}
    (hready : ∀ l, ready l = true → l.isClosable = true) (layers : List Layer) (e : Expr) :
    layersFrames true (settle ready layers e).1 = layersFrames true layers := by
  induction layers generalizing e with
  | nil => rfl
  | cons l layers ih =>
    by_cases hl : ready l = true
    · have hc := hready l hl
      simp only [settle, hl, if_true, ih]
      cases l <;> simp_all [layersFrames, Layer.isClosable]
    · simp [settle, hl]

/-- Completing entries of the compiler is closing layers of the sketch. -/
lemma settle_assembly {ready : Layer → Bool} {ready' : Pending → Bool}
    (hready : ∀ l, ready l = true → l.isClosable = true)
    (hr : ∀ start l, ready' (Layer.pending start l) = ready l) (layers : List Layer) (e : Expr) :
    (assembly ⟨layers, some e⟩).settle ready'
      = assembly ⟨(settle ready layers e).1, some (settle ready layers e).2⟩ := by
  simp only [Assembly.settle, assembly, settleStack_layers hready hr,
    layersFrames_settle hready]

end Sketch

end Reckoner
