import Reckoner.Proofs.Program.Prefixes
import Reckoner.Proofs.Token.Signs

/-!
# Signs in a program

The compiler tells a negation from a subtraction by whether it expects an operand, and it expects
one exactly where the token before it, if there is one, ends none. This is how the reading of the
text decides as well, so that no minus sign is ever out of place.
-/

namespace Reckoner

namespace Assembly

variable {isFunction : String → Bool} {a a' b : Assembly} {t : Token}

@[simp] lemma expectsOperand_markContent (a : Assembly) :
    a.markContent.expectsOperand = a.expectsOperand := by
  unfold markContent
  split <;> rfl

lemma expectsOperand_of_operand {i : Instruction} (h : a.operand t i = .ok a') :
    a'.expectsOperand = false := by
  unfold operand at h
  split at h
  · cases h
    rfl
  · cases h

lemma expectsOperand_of_unary {op : UnaryOperator} (h : a.unary t op = .ok a') :
    a'.expectsOperand = true := by
  unfold unary at h
  split at h
  · rename_i hexpects
    cases h
    simpa using hexpects
  · cases h

lemma expectsOperand_of_opened {group : Group} (h : a.opened t group = .ok a') :
    a'.expectsOperand = true := by
  unfold opened at h
  split at h
  · rename_i hexpects
    cases h
    simpa using hexpects
  · cases h

lemma expectsOperand_of_binary {op : BinaryOperator} (h : a.binary t op = .ok a') :
    a'.expectsOperand = true := by
  unfold binary at h
  split at h
  · cases h
  · cases h
    rfl

lemma expectsOperand_of_question (h : a.question t = .ok a') : a'.expectsOperand = true := by
  unfold question at h
  split at h
  · cases h
  · cases h
    rfl

lemma expectsOperand_of_colon (h : a.colon t = .ok a') : a'.expectsOperand = true := by
  unfold colon at h
  split at h
  · cases h
  · dsimp only at h
    split at h
    · cases h
      rfl
    · cases h

lemma expectsOperand_of_comma (h : a.comma = .ok a') : a'.expectsOperand = true := by
  unfold comma at h
  split at h
  · cases h
  · obtain ⟨settled, -, h⟩ := Except.bind_eq_ok_iff.1 h
    split at h
    · split at h
      · cases h
        rfl
      · cases h
    · cases h

lemma expectsOperand_of_close {bracket : Char} (h : a.close t bracket = .ok a') :
    a'.expectsOperand = false := by
  unfold close at h
  split at h
  · cases h
  · split at h
    · cases h
    · obtain ⟨settled, -, h⟩ := Except.bind_eq_ok_iff.1 h
      split at h
      · split at h
        · cases h
          rfl
        · cases h
      · cases h

/-- Behind a token an operand is expected unless the token ends one. -/
lemma expectsOperand_of_step (h : a.step t = .ok a') : a'.expectsOperand = !t.endsOperand := by
  cases t with
  | number x => exact expectsOperand_of_operand h
  | text s => exact expectsOperand_of_operand h
  | identifier name => exact expectsOperand_of_operand h
  | binary op => exact expectsOperand_of_binary h
  | bang => exact expectsOperand_of_unary h
  | negate => exact expectsOperand_of_unary h
  | assign => cases h
  | question => exact expectsOperand_of_question h
  | colon => exact expectsOperand_of_colon h
  | openParen => exact expectsOperand_of_opened h
  | closeParen => exact expectsOperand_of_close h
  | openBracket => exact expectsOperand_of_opened h
  | closeBracket => exact expectsOperand_of_close h
  | comma => exact expectsOperand_of_comma h

/-- The compiler goes by the last token it has taken, as the reading of signs does. -/
lemma Reaches.expectsOperand {ts rest : List Token} (h : Reaches isFunction a ts b rest)
    (previous : Option Token) (ha : a.expectsOperand = Token.isSign previous) :
    ∃ before, ts = before ++ rest
      ∧ b.expectsOperand = Token.isSign (before.getLast?.or previous) := by
  induction h generalizing previous with
  | refl a ts => exact ⟨[], rfl, ha⟩
  | @turn a a' b t ts ts' rest ht _ ih =>
    rcases turn_cases ht with ⟨name, rfl, -, rfl, hopened⟩ | ⟨rfl, hstep⟩
    · obtain ⟨before, rfl, hb⟩ := ih (some .openParen)
        (expectsOperand_of_opened hopened)
      refine ⟨.identifier name :: .openParen :: before, rfl, ?_⟩
      rw [getLast?_cons_or, getLast?_cons_or, hb]
    · obtain ⟨before, rfl, hb⟩ := ih (some t) (expectsOperand_of_step hstep)
      refine ⟨t :: before, rfl, ?_⟩
      rw [getLast?_cons_or, hb]

/-- A minus sign that is right behind the token before it is in its place. -/
lemma exists_of_hasMinus {previous : Option Token} (hminus : t.HasMinus)
    (hfits : t.FitsBehind previous) (ha : a.expectsOperand = Token.isSign previous)
      (rest : List Token) :
    ∃ a', a.turn isFunction t rest = .ok (a', rest) := by
  cases t with
  | number x =>
    rw [hfits hminus] at ha
    exact ⟨_, by rw [turn_of_not_identifier (by simp), step, operand, if_pos ha]; rfl⟩
  | negate =>
    rw [show Token.isSign previous = true from hfits] at ha
    exact ⟨_, by rw [turn_of_not_identifier (by simp), step, unary, if_pos ha]; rfl⟩
  | binary op =>
    cases op with
    | sub =>
      rw [show Token.isSign previous = false from hfits] at ha
      exact ⟨_, by rw [turn_of_not_identifier (by simp), step, binary, if_neg (by simp [ha])]; rfl⟩
    | _ => exact hminus.elim
  | _ => exact hminus.elim

end Assembly

/-- The compiler agrees with the reading of the text about minus signs. After any part of the tokens
of a text it expects an operand exactly at the start and behind a token that ends none. So whatever
has been read as a subtraction, a negation or a number with a sign, it takes. -/
theorem Program.compile_minus (functions : Registry) {source : List Char} {ts : List Token}
    (h : Token.tokenize source = .ok ts) {a : Assembly} {before rest : List Token}
    (hr : Assembly.Reaches functions.isFunction {} ts a rest) (hts : ts = before ++ rest) :
    (a.expectsOperand = true ↔ before = [] ∨ ∃ t ∈ before.getLast?, t.endsOperand = false)
      ∧ ∀ t rest', rest = t :: rest' → t.HasMinus →
          ∃ a', a.turn functions.isFunction t rest' = .ok (a', rest') := by
  obtain ⟨before', hts', ha⟩ := hr.expectsOperand none rfl
  obtain rfl := List.append_cancel_right (hts'.symm.trans hts)
  rw [Option.or_none] at ha
  constructor
  · rw [ha]
    cases hlast : before'.getLast? with
    | none => simp [List.getLast?_eq_none_iff.1 hlast, Token.isSign]
    | some t =>
      have hne : before' ≠ [] := by
        rintro rfl
        cases hlast
      simp [hne, Token.isSign]
  · rintro t rest' rfl hminus
    obtain ⟨raw, hscan, rfl⟩ := Token.exists_scan_of_tokenize h
    have hfit := (Token.resolves_resolve none raw).allFit (Token.isUnsigned_of_mem_scan hscan)
    rw [hts'] at hfit
    have hfits := hfit.fitsBehind
    rw [Option.or_none] at hfits
    exact Assembly.exists_of_hasMinus hminus hfits ha rest'

/-- The first minus sign of `"a" - -b` comes where no operand is expected, and is taken. -/
theorem Program.compile_minus_text :
    Token.tokenize "\"a\" - -b".toList
        = .ok [.text "a", .binary .sub, .negate, .identifier "b"]
      ∧ ∃ a, Assembly.Reaches Registry.standard.isFunction {}
            [.text "a", .binary .sub, .negate, .identifier "b"] a
            [.binary .sub, .negate, .identifier "b"]
          ∧ a.expectsOperand = false
          ∧ ∃ a', a.turn Registry.standard.isFunction (.binary .sub) [.negate, .identifier "b"]
              = .ok (a', [.negate, .identifier "b"]) := by
  have htokens : Token.tokenize "\"a\" - -b".toList
      = .ok ([.text "a"] ++ [.binary .sub, .negate, .identifier "b"]) := by decide +kernel
  refine ⟨htokens, _, .turn rfl (.refl _ _), rfl, ?_⟩
  exact (compile_minus .standard htokens (.turn rfl (.refl _ _)) rfl).2 _ _ rfl trivial

end Reckoner
