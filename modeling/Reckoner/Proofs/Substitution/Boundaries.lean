import Reckoner.Proofs.Substitution.Substitutes
import Reckoner.Proofs.Token.Scanning

/-!
# Groups that give way to literals

Replacing the groups of a text is a row of exchanges: each time one group gives way to the literal
of its value or to a fresh name. The tokens before the group, those of the literal and those behind
the group are then the tokens of the text, unless the literal of a number or a name runs into a
neighbour, from which only the parentheses had parted it.
-/

namespace Reckoner

open Token (scan)

namespace Substitution

open Text (Spot)

variable {text behind : List Char}

/-- A group of a text, a conditional in parentheses that belong to no call, and what takes its
place. -/
structure Exchange where
  before : List Char
  inside : List Char
  behind : List Char
  substitute : List Char
  isText_before : (Spot.plain.after before).isText = false
  not_isCall : isCall before.reverse = false
  cutAtClose?_eq : Text.cutAtClose? false 0 (inside ++ ')' :: behind) = some (inside, behind)
  isQuestioned : Conditional.isQuestioned inside = true
  isSubstitute : IsSubstitute substitute

namespace Exchange

/-- The text with the group. -/
def old (x : Exchange) : List Char :=
  x.before ++ '(' :: (x.inside ++ ')' :: x.behind)

/-- The text with what stands for the group. -/
def new (x : Exchange) : List Char :=
  x.before ++ (x.substitute ++ x.behind)

/-- Whether what stands for a group runs into a neighbour: a numeral goes on with the number behind
it or goes on behind it, or a name goes on. -/
inductive Glued (x : Exchange) : Prop where
  | point (hnumeral : Decimal.IsPlain x.substitute) (h : x.before.getLast? = some '.')
  | exponent (hnumeral : Decimal.IsPlain x.substitute) (h : Token.EndsOpen x.before)
  | numeral (hnumeral : Decimal.IsPlain x.substitute) (h : Decimal.Resumes x.substitute x.behind)
  | word (hword : ∃ c ∈ x.substitute.head?, Token.startsIdentifier c = true)
    (h : ∃ c ∈ x.behind.head?, Token.continuesIdentifier c = true)

/-- Whether the tokens of the new text are those before the group, those of what stands for it and
those behind it. -/
def KeepsTokens (x : Exchange) : Prop :=
  ∃ ts us vs, scan x.before = .ok ts ∧ scan x.substitute = .ok us ∧ scan x.behind = .ok vs
    ∧ scan x.new = .ok (ts ++ us ++ vs)

variable {x : Exchange}

lemma exists_scan_before (h : ∃ ts, scan x.old = .ok ts) :
    (∃ ts, scan x.before = .ok ts) ∧ ∃ vs, scan x.behind = .ok vs := by
  obtain ⟨ts, hscan⟩ := h
  have hinside := Text.isText_after_cutAtClose? (s := .plain) rfl x.cutAtClose?_eq
  rw [old, Token.scan_append_mark (t := .openParen) rfl rfl x.isText_before,
    Token.scan_append_mark (t := .closeParen) rfl rfl hinside] at hscan
  cases hbefore : scan x.before with
  | error err =>
    rw [hbefore] at hscan
    cases hscan
  | ok us =>
    cases hbehind : scan x.behind with
    | error err =>
      rw [hbefore, hbehind] at hscan
      cases hmiddle : scan x.inside <;> rw [hmiddle] at hscan <;> cases hscan
    | ok vs => exact ⟨⟨us, rfl⟩, vs, rfl⟩

/-- Nothing before a group goes on in what stands for it, unless this is glued. -/
lemma parted (h : ¬ x.Glued) : Token.Parted x.before (x.substitute ++ x.behind) := by
  have hlast := not_continues_of_not_isCall x.not_isCall
  have hform := x.isSubstitute.hasForm
  generalize hsubstitute : x.substitute = text at hform
  cases hform with
  | numeral hplain =>
    rw [← hsubstitute] at hplain ⊢
    obtain ⟨c, hc, hdigit⟩ := hplain.head
    have hhead : ∀ d ∈ (x.substitute ++ x.behind).head?, d = c := by
      intro d hd
      rw [List.head?_append, Option.mem_def.1 hc] at hd
      exact (Option.some.inj hd).symm
    refine .word hlast (fun d hd => ?_) fun d _ _ => ⟨fun hpoint => ?_, fun _ hopen => ?_⟩
    · rw [hhead d hd]
      exact Token.continuesIdentifier_of_isDigit hdigit
    · exact h (.point hplain hpoint)
    · exact h (.exponent hplain hopen)
  | brackets hfirst =>
    refine .stop ?_
    rintro d ⟨⟩
    exact hfirst
  | text _ =>
    refine .stop ?_
    rintro d ⟨⟩
    rfl
  | word hc hnumeral _ =>
    refine .word hlast ?_ ?_
    · rintro d ⟨⟩
      exact Token.continuesIdentifier_of_starts hc
    · rintro d ⟨⟩ hd
      rw [hnumeral] at hd
      cases hd

/-- What stands for a group does not go on behind it, unless it is glued. -/
lemma scan_substitute_append (h : ¬ x.Glued) :
    scan (x.substitute ++ x.behind) = do
      let us ← scan x.substitute
      let vs ← scan x.behind
      return us ++ vs := by
  have hform := x.isSubstitute.hasForm
  have hone {t : Token} (htakes : Token.Takes (x.substitute ++ []) t [])
      (htakes' : Token.Takes (x.substitute ++ x.behind) t x.behind) :
      scan (x.substitute ++ x.behind) = do
        let us ← scan x.substitute
        let vs ← scan x.behind
        return us ++ vs := by
    have hscan : scan x.substitute = .ok [t] := by
      rw [← List.append_nil x.substitute, htakes.scan_eq, scan]
      rfl
    rw [htakes'.scan_eq, hscan]
    cases scan x.behind <;> rfl
  generalize hsubstitute : x.substitute = text at hform hone ⊢
  cases hform with
  | numeral hplain =>
    obtain ⟨n, hread⟩ := hplain.exists_takeNumeral
    have hend : ¬ Decimal.Resumes text [] := by simp [Decimal.Resumes, Decimal.takeExponent]
    have hbehind : ¬ Decimal.Resumes text x.behind := by
      rw [← hsubstitute] at hplain ⊢
      exact fun hresumes => h (.numeral hplain hresumes)
    exact hone (.of_takeNumeral (hread [] hend)) (.of_takeNumeral (hread x.behind hbehind))
  | @brackets first last inner t hfirst hlast hmark hinner =>
    have hscan (b : List Char) : scan (first :: (inner ++ [last]) ++ b) = do
        let us ← scan (first :: inner)
        let vs ← scan b
        return us ++ t :: vs := by
      rw [List.cons_append, List.append_assoc]
      exact Token.scan_append_mark hlast hmark hinner b
    have hself := hscan []
    rw [List.append_nil] at hself
    rw [hscan, hself, scan]
    cases scan (first :: inner) with
    | error err => rfl
    | ok us => cases scan x.behind <;> simp [bind, Except.bind, pure, Except.pure]
  | @text s hs =>
    have htakes (b : List Char) :
      Token.Takes ('"' :: (s ++ ['"']) ++ b) (.text (String.ofList s)) b := by
      rw [List.cons_append, List.append_assoc]
      exact .text hs
    exact hone (htakes []) (htakes x.behind)
  | @word c w hc _ hw =>
    refine hone (.word hc hw (by simp)) (.word hc hw fun d hd => ?_)
    by_contra hcontinues
    refine h (.word ⟨c, by rw [hsubstitute]; rfl, hc⟩ ⟨d, hd, Bool.eq_true_of_not_eq_false
      hcontinues⟩)

/-- An exchange keeps the tokens of a text that can be read, unless it is glued. -/
lemma keepsTokens (hold : ∃ ts, scan x.old = .ok ts) (h : ¬ x.Glued) : x.KeepsTokens := by
  obtain ⟨⟨ts, hbefore⟩, vs, hbehind⟩ := exists_scan_before hold
  obtain ⟨us, hus⟩ := x.isSubstitute.exists_scan
  refine ⟨ts, us, vs, hbefore, hus, hbehind, ?_⟩
  rw [new, (parted h).scan_append x.isText_before, scan_substitute_append h, hbefore, hus, hbehind]
  simp [bind, Except.bind, pure, Except.pure]

end Exchange

/-! ### Replacing all groups -/

/-- A row of exchanges, each in the text that the one before has left. -/
inductive Exchanges : List Char → List Exchange → List Char → Prop where
  | nil (text : List Char) : Exchanges text [] text
  | cons (x : Exchange) {xs : List Exchange} {result : List Char} (h : Exchanges x.new xs result) :
    Exchanges x.old (x :: xs) result

/-- Whether a result that may bind fresh names has a property, if there is one. -/
def Yields {α : Type} (P : α → Prop) (x : Scratch α) : Prop :=
  ∀ c, Eval.Produces (fun r => P r.1) (x.run c)

namespace Yields

variable {α β : Type} {P : α → Prop} {Q : β → Prop}

lemma pure {a : α} (ha : P a) : Yields P (Pure.pure a) :=
  fun _ => .pure ha

lemma bind {x : Scratch α} {f : α → Scratch β} (hx : Yields P x) (hf : ∀ a, P a → Yields Q (f a)) :
    Yields Q (x >>= f) := by
  intro c
  rw [StateT.run_bind]
  exact .bind (hx c) fun r hr => hf r.1 hr r.2

lemma mono {P' : α → Prop} {x : Scratch α} (hx : Yields P x) (h : ∀ a, P a → P' a) : Yields P' x :=
  fun c w r hr => h r.1 (hx c w r hr)

lemma after (x : Scratch α) {f : α → Scratch β} (hf : ∀ a, Yields Q (f a)) : Yields Q (x >>= f) :=
  bind (P := fun _ => True) (fun _ => fun _ _ _ => trivial) fun a _ => hf a

end Yields

/-- What a fragment is replaced by is a literal or a fresh name. -/
lemma substitute_yields (evaluate : Context → List Char → Eval Value) (binds : Bool)
    (fragment : List Char) :
    Yields (fun r => ∀ text ∈ r, IsSubstitute text) (substitute evaluate binds fragment) := by
  refine .after _ fun c => .after _ fun outcome => ?_
  cases outcome with
  | error err =>
    dsimp only
    split
    · exact fun _ => .throw _
    · exact .after _ fun _ => .pure (by simp)
  | ok v =>
    dsimp only
    split
    · rename_i literal hliteral
      refine .after _ fun _ => .pure ?_
      rintro _ ⟨⟩
      exact .literal hliteral
    · split
      · refine .after _ fun _ => .after _ fun _ => .pure ?_
        rintro _ ⟨⟩
        exact .name c
      · exact .after _ fun _ => .pure (by simp)

variable {replace : List Char → Scratch (Option (List Char))} {P : List Char → List Char → Prop}

/-- Replacing the groups of a text is a row of exchanges, in each of which what stands for the group
has the properties that all have that stand for a fragment. -/
lemma groupsFrom_yields (hP : ∀ fragment text, P fragment text → IsSubstitute text)
    (hreplace : ∀ fragment, Yields (fun r => ∀ text ∈ r, P fragment text) (replace fragment))
    (before : List Char) (inText : Bool) (text : List Char)
    (hbefore : (Spot.plain.after before.reverse).isText = inText) :
    Yields (fun result => ∃ xs, Exchanges (before.reverse ++ text) xs result
        ∧ ∀ x ∈ xs, P x.inside x.substitute)
      (groupsFrom replace before inText text) := by
  have hpassed {before rest : List Char} {c : Char} {x : Scratch (List Char)}
      (h : Yields (fun result => ∃ xs, Exchanges ((c :: before).reverse ++ rest) xs result
        ∧ ∀ x ∈ xs, P x.inside x.substitute) x) :
      Yields (fun result => ∃ xs, Exchanges (before.reverse ++ c :: rest) xs result
        ∧ ∀ x ∈ xs, P x.inside x.substitute) x := by
    rwa [List.reverse_cons, List.append_assoc] at h
  have hnext {before : List Char} {c : Char} {inText : Bool}
      (h : (Spot.plain.after before.reverse).isText = inText) :
      (Spot.plain.after (c :: before).reverse).isText = if c = '"' then !inText else inText := by
    rw [Spot.isText_after_reverse_cons, h]
  fun_induction groupsFrom replace before inText text with
  | case1 before inText => exact .pure ⟨[], by simpa using .nil _, by simp⟩
  | case2 before inText rest ih => exact hpassed (ih (hnext hbefore))
  | case3 before inText c rest hquote hskip ih =>
    exact hpassed (ih (by rw [hnext hbefore, if_neg hquote]))
  | case4 before inText c rest hquote hskip hcut ih =>
    exact hpassed (ih (by rw [hnext hbefore, if_neg hquote]))
  | case5 before inText c rest hquote hskip inside tail hcut hlt hquestioned ihReplaced ihKept =>
    simp only [Bool.or_eq_true, bne_iff_ne, not_or, Bool.not_eq_true, ne_eq, not_not] at hskip
    obtain ⟨⟨rfl, rfl⟩, hcall⟩ := hskip
    refine .after _ fun _ => .bind (hreplace inside) fun replaced hreplaced => ?_
    cases replaced with
    | none => exact hpassed (ihKept (by rw [hnext hbefore]; rfl))
    | some literal =>
      have hliteral : IsSubstitute literal := hP inside literal (hreplaced literal rfl)
      obtain rfl := Text.cutAtClose?_eq hcut
      let x : Exchange := {
        before := before.reverse
        inside
        behind := tail
        substitute := literal
        isText_before := hbefore
        not_isCall := by rw [List.reverse_reverse]; exact hcall
        cutAtClose?_eq := hcut
        isQuestioned := hquestioned
        isSubstitute := hliteral }
      have hnew : (literal.reverse ++ before).reverse ++ tail = x.new := by
        simp [x, Exchange.new]
      have hplain : (Spot.plain.after (literal.reverse ++ before).reverse).isText = false := by
        rw [List.reverse_append, List.reverse_reverse, Spot.after_append,
          Spot.isText_after_congr (q := .plain) hbefore, hliteral.isText_after]
      have hrest := ihReplaced literal hplain
      rw [hnew] at hrest
      refine hrest.mono ?_
      rintro result ⟨xs, hxs, hP⟩
      refine ⟨x :: xs, .cons x hxs, ?_⟩
      exact List.forall_mem_cons.2 ⟨hreplaced literal rfl, hP⟩
  | case6 before inText c rest hquote hskip inside tail hcut hlt hquestioned ih =>
    simp only [Bool.or_eq_true, bne_iff_ne, not_or, Bool.not_eq_true, ne_eq, not_not] at hskip
    obtain ⟨⟨rfl, rfl⟩, -⟩ := hskip
    exact hpassed (ih (by rw [hnext hbefore]; rfl))

/-- Replacing the groups of a text is a row of exchanges. In each of them the group has been
evaluated and its value has given what stands for it; and if the text could be read before, then the
tokens before the group, those of what stands for it and those behind it are the tokens of the new
text, unless what stands for the group is glued to a neighbour. -/
theorem groups_keepsTokens (evaluate : Context → List Char → Eval Value) (binds : Bool)
    (c c' : Context) (w : World) (text result : List Char)
    (h : (((groups (substitute evaluate binds) text).run c).run w).1 = .ok (result, c')) :
    ∃ xs, Exchanges text xs result
      ∧ ∀ x ∈ xs,
        (∃ c₀ w₀ c₁, (((substitute evaluate binds x.inside).run c₀).run w₀).1
          = .ok (some x.substitute, c₁))
        ∧ ((∃ ts, scan x.old = .ok ts) → ¬ x.Glued → x.KeepsTokens) := by
  let P (fragment text : List Char) : Prop := IsSubstitute text
    ∧ ∃ c₀ w₀ c₁, (((substitute evaluate binds fragment).run c₀).run w₀).1 = .ok (some text, c₁)
  have hreplace (fragment : List Char) :
      Yields (fun r => ∀ text ∈ r, P fragment text) (substitute evaluate binds fragment) := by
    intro c₀ w₀ ⟨r, c₁⟩ hr text htext
    refine ⟨substitute_yields evaluate binds fragment c₀ w₀ (r, c₁) hr text htext, c₀, w₀, c₁, ?_⟩
    rw [← Option.mem_def.1 htext]
    exact hr
  obtain ⟨xs, hxs, hP⟩ :=
    groupsFrom_yields (P := P) (fun _ _ h => h.1) hreplace [] false text rfl c w (result, c') h
  exact ⟨xs, hxs, fun x hx => ⟨(hP x hx).2, Exchange.keepsTokens⟩⟩

/-- A group between an operator and a word behind a blank. -/
theorem groups_keepsTokens_product :
    let evaluate := (Engine.standard ⟨.substituting, 64⟩).evaluateWithin 64
    let text := "2 * (1 ? 2.5 : 3) not = y".toList
    let result := "2 * 2.5 not = y".toList
    (((groups (substitute evaluate true) text).run .empty).run {}).1 = .ok (result, .empty)
      ∧ ∃ xs, Exchanges text xs result
        ∧ ∀ x ∈ xs,
          (∃ c₀ w₀ c₁, (((substitute evaluate true x.inside).run c₀).run w₀).1
            = .ok (some x.substitute, c₁))
          ∧ ((∃ ts, scan x.old = .ok ts) → ¬ x.Glued → x.KeepsTokens) := by
  intro evaluate text result
  have hrun :
    (((groups (substitute evaluate true) text).run .empty).run {}).1 = .ok (result, .empty) := by
    rw [← Except.toOption_eq_some_iff]
    decide +kernel
  exact ⟨hrun, groups_keepsTokens evaluate true .empty .empty {} text result hrun⟩

/-- Three texts that can be read. The literals of their groups make one number of two: with the
digit behind the group, with the point before it, and as the exponent of the number before it. -/
theorem exists_groups_glued :
    let evaluate := (Engine.standard ⟨.substituting, 64⟩).evaluateWithin 64
    let replaced (text : String) :=
      (((groups (substitute evaluate true) text.toList).run .empty).run {}).1.toOption.map
        fun r => String.ofList r.1
    let tokens (text : String) := (scan text.toList).toOption
    (tokens "(1 ? 2 : 3)4").isSome = true ∧ replaced "(1 ? 2 : 3)4" = some "24"
      ∧ tokens "2" = some [.number 2] ∧ tokens "4" = some [.number 4]
      ∧ tokens "24" = some [.number 24]
      ∧ (tokens "2.(1 ? 3 : 3)").isSome = true ∧ replaced "2.(1 ? 3 : 3)" = some "2.3"
      ∧ tokens "2.3" = some [.number 2.3]
      ∧ (tokens "1e+(1 ? 2 : 3)").isSome = true ∧ replaced "1e+(1 ? 2 : 3)" = some "1e+2"
      ∧ tokens "1e+2" = some [.number 100] := by
  decide +kernel

end Substitution

end Reckoner
